import EdgeBase.FilterSql

/-!
# Filters on SQLite and on PostgreSQL

The same filter is to select the same rows whatever the provider of a table is, but for the case of
the letters that `contains` compares.

* `FilterParity.HoldsWhen` : when the databases agree on a filter.
* `FilterParity.parity_iff` : they select the same rows by filters that they agree on, and by no
  others.
* `FilterParity.parity_of_own` : filters with values of the type of the column are such.
-/

namespace EdgeBase

open List Option Engines LikePattern Truth QueryText

namespace FilterParity

/-- The type of a column that is declared as text, number or boolean. -/
def columnType (schema : UserSchema) (name : String) : Option ColumnType :=
  match schema.lookup name with
  | some (some field) =>
    match field.type with
    | .string | .text => some .string
    | .number => some .number
    | .boolean => some .boolean
    | .datetime | .json => none
  | _ => none

/-- A filter on such a column, with an operator that there is. -/
structure TypedFilter (schema : UserSchema) where
  tuple : FilterTuple
  type : ColumnType
  columnType_eq : columnType schema tuple.field = some type
  op_mem : tuple.op ∈ filterOperators

/-- A value that a column of a type may have. -/
def Cell (type : ColumnType) (v : Json) : Prop := v = .null ∨ type.Has v

/-! ### Texts that contain another -/

section Letters

variable {ω : Type} {e : Engines ω}

/-- A list without `NUL`, in lower case, is the letters of a text. -/
theorem exists_letters {cs : List Char} (hnul : Char.ofNat 0 ∉ cs)
    (hfold : ∀ c ∈ cs, e.fold c = c) :
    ∃ u, ColumnType.string.Has (.str u) ∧ letters e.fold u = cs := by
  refine ⟨String.ofList cs, ?_, ?_⟩
  · change Char.ofNat 0 ∉ (String.ofList cs).toList
    rwa [String.toList_ofList]
  · rw [letters, String.toList_ofList, map_congr_left hfold, List.map_id']

theorem fold_of_mem_letters {s : String} : ∀ c ∈ letters e.fold s, e.fold c = c := by
  intro c hc
  obtain ⟨d, -, rfl⟩ := List.mem_map.1 hc
  exact e.fold_fold d

theorem nul_notMem_letters {s : String} (hs : ColumnType.string.Has (.str s)) :
    Char.ofNat 0 ∉ letters e.fold s := by
  intro hc
  obtain ⟨d, hd, hfold⟩ := List.mem_map.1 hc
  rw [e.fold_nul d hfold] at hd
  exact hs hd

theorem plain_letters (s : String) : LikePattern.Plain (letters e.fold s) ↔ PlainText s := by
  unfold LikePattern.Plain PlainText letters LikePattern.Plain
  rw [List.forall_mem_map]
  exact forall₂_congr fun c _ => by rw [e.fold_meta]

theorem plainText_of_like {t : String} (ht : ColumnType.string.Has (.str t))
    (h : ∀ u, ColumnType.string.Has (.str u) → (letters e.fold t <:+: letters e.fold u ↔
      like ('%' :: (letters e.fold t ++ ['%'])) (letters e.fold u) = true)) :
    PlainText t := by
  rw [← plain_letters (e := e)]
  have hnul : Char.ofNat 0 ∉ sample (letters e.fold t) := by
    intro hmem
    obtain hmem | hmem | hmem := mem_sample hmem
    · exact nul_notMem_letters ht hmem
    · exact absurd hmem (by decide)
    · exact absurd hmem (by decide)
  have hfold : ∀ c ∈ sample (letters e.fold t), e.fold c = c := by
    intro c hmem
    obtain hmem | rfl | rfl := mem_sample hmem
    · exact fold_of_mem_letters c hmem
    · exact e.fold_a
    · exact e.fold_percent
  obtain ⟨u, hu, hletters⟩ := exists_letters hnul hfold
  refine plain_of_like_contains fun hlike => ?_
  rw [← hletters] at hlike ⊢
  exact (h u hu).2 hlike

end Letters

section Meaning

variable {ω : Type} [LinearOrder ω] (e : Engines ω) {schema : UserSchema}

/-- What a filter means: none if it is not well formed, then none if it fails on a value. -/
abbrev Meaning (schema : UserSchema) := TypedFilter schema → Option (Json → Option Truth)

def sqliteMeaning (fold : Char → Char) : Meaning schema := fun f =>
  (compileFilter .sqlite (normalizeTuple schema f.tuple)).toOption.bind
    (e.sqliteHolds fold f.type)

def postgresMeaning : Meaning schema := fun f =>
  (compileFilter .postgres f.tuple).toOption.bind (e.postgresHolds f.type)

/-- Both conditions of a filter are well formed, and hold of the same values. -/
def Agrees (f : TypedFilter schema) : Prop :=
  ∃ hs hp, sqliteMeaning e e.fold f = some hs ∧ postgresMeaning e f = some hp ∧
    ∀ v, Cell f.type v → (hs v).map Truth.holds = (hp v).map Truth.holds

def rowHolds (meaning : Meaning schema) (row : Row) (f : TypedFilter schema) : Option Bool :=
  (meaning f).bind fun holds => (holds (column row f.tuple.field)).map Truth.holds

/-- Whether the clause of filters and alternatives holds of a row; it fails if one of them does. -/
def clauseHolds (meaning : Meaning schema) (filters orFilters : List (TypedFilter schema))
    (row : Row) : Option Bool := do
  let all ← filters.mapM (rowHolds meaning row)
  let any ← orFilters.mapM (rowHolds meaning row)
  return all.all id && (any.isEmpty || any.any id)

/-- The rows that a clause selects; none if it is refused or fails. -/
def selected (meaning : Meaning schema) (filters orFilters : List (TypedFilter schema))
    (rows : List Row) : Option (List Row) :=
  if orFilters.length > 5 ∨ (filters ++ orFilters).any (fun f => (meaning f).isNone) then none
  else (rows.mapM fun row => (clauseHolds meaning filters orFilters row).map (·, row)).map fun ps =>
    (ps.filter Prod.fst).map Prod.snd

def Typed (schema : UserSchema) (row : Row) : Prop :=
  ∀ name type, columnType schema name = some type → Cell type (column row name)

/-- The filters are well formed on both databases and select the same rows. -/
structure Parity (filters orFilters : List (TypedFilter schema)) : Prop where
  agrees : ∀ f ∈ filters ++ orFilters, Agrees e f
  same : ∀ rows, (∀ row ∈ rows, Typed schema row) →
    selected (sqliteMeaning e e.fold) filters orFilters rows =
      selected (postgresMeaning e) filters orFilters rows

/-! ### When they agree -/

def sqliteValue (f : TypedFilter schema) : Json := (normalizeTuple schema f.tuple).value

/-- The databases place a value alike among the values of the column. -/
def TakenAlike (op : SqlComparison) (f : TypedFilter schema) : Prop :=
  ∃ s p, e.sqliteTakes f.type (sqliteValue f) = some s ∧
    e.postgresTakes f.type f.tuple.value = some p ∧ ∀ v, Cell f.type v →
      (Engines.compare sqliteLt op (booleanAsNumber v) s).holds =
        (Engines.compare e.postgresLt op v p).holds

def TakesElements (type : ColumnType) (value : Json) (ps : List Json) : Prop :=
  ∃ count values, spread value = some (count, values) ∧
    e.postgresList type count values = some ps

/-- The databases find the same values of the column in a list. -/
def FoundAlike (negated : Bool) (f : TypedFilter schema) : Prop :=
  ∃ ps, TakesElements e f.type f.tuple.value ps ∧ ∀ v, Cell f.type v →
    (Engines.isIn sqliteLt negated (booleanAsNumber v)
      ((jsonEach (sqliteValue f)).map (e.sqliteItem f.type))).holds =
      (Engines.isIn e.postgresLt negated v ps).holds

/-- A text column, and a value whose text stands for itself in a pattern and is the same for
both. -/
def ContainedAlike (f : TypedFilter schema) : Prop :=
  f.type = .string ∧ ∃ s p, e.sqliteTakes .string (sqliteValue f) = some s ∧
    e.postgresTakes .string f.tuple.value = some p ∧
    (f.tuple.value = .null ∨ ∃ t, p = .str t ∧ PlainText t ∧
      letters e.fold (e.sqliteText s) = letters e.fold t)

/-- A text column, and only nulls to look for, if both databases read the same texts as JSON. -/
def NothingAlike (f : TypedFilter schema) : Prop :=
  f.type = .string ∧ ∃ ps, TakesElements e .string f.tuple.value ps ∧ (∀ p ∈ ps, p = .null) ∧
    ∀ t, ColumnType.string.Has (.str t) →
      (e.sqliteOverlaps (jsonEach (sqliteValue f)) (.str t)).map Truth.holds =
        (e.postgresJson t).map fun _ => false

def HoldsWhen (f : TypedFilter schema) : Prop :=
  match f.tuple.op with
  | "==" => f.tuple.value = .null ∨ TakenAlike e .eq f
  | "!=" => f.tuple.value = .null ∨ TakenAlike e .ne f
  | ">" => TakenAlike e .gt f
  | "<" => TakenAlike e .lt f
  | ">=" => TakenAlike e .ge f
  | "<=" => TakenAlike e .le f
  | "contains" => ContainedAlike e f
  | "in" => FoundAlike e false f
  | "not in" | "not-in" => FoundAlike e true f
  | _ => NothingAlike e f

/-! ### One filter -/

theorem mapM_congr {α β : Type} {f g : α → Option β} {as : List α} (h : ∀ a ∈ as, f a = g a) :
    as.mapM f = as.mapM g := by
  induction as with
  | nil => rfl
  | cons a as ih =>
    obtain ⟨ha, has⟩ := forall_mem_cons.1 h
    rw [mapM_cons, mapM_cons, ha, ih has]

theorem mem_of_mapM {α β : Type} {f : α → Option β} {as : List α} {bs : List β}
    (h : as.mapM f = some bs) {a : α} {b : β} (ha : a ∈ as) (hab : f a = some b) : b ∈ bs := by
  induction as generalizing bs with
  | nil => exact absurd ha not_mem_nil
  | cons a' as ih =>
    rw [mapM_cons] at h
    obtain ⟨b', hb', h⟩ := bind_eq_some_iff.1 h
    obtain ⟨bs', hbs', h⟩ := bind_eq_some_iff.1 h
    obtain rfl := some.inj h
    obtain rfl | ha := mem_cons.1 ha
    · obtain rfl := some.inj (hb'.symm.trans hab)
      exact mem_cons_self
    · exact mem_cons_of_mem _ (ih hbs' ha)

section One

variable {e} {f : TypedFilter schema} {sqlite postgres : SqlCondition}

theorem normalizeTuple_eq (f : TypedFilter schema) :
    normalizeTuple schema f.tuple = ⟨f.tuple.field, f.tuple.op, sqliteValue f⟩ := by
  unfold sqliteValue normalizeTuple
  split
  · split_ifs
    · split <;> rfl
    · rfl
  · rfl

theorem sqliteValue_eq_null (f : TypedFilter schema) :
    sqliteValue f = .null ↔ f.tuple.value = .null := by
  unfold sqliteValue normalizeTuple
  split
  · split_ifs
    · cases f.tuple.value <;> simp [booleanAsNumber]
    · rfl
  · rfl

theorem agrees_iff_of_compile
    (hsqlite : compileFilter .sqlite ⟨f.tuple.field, f.tuple.op, sqliteValue f⟩ = .ok sqlite)
    (hpostgres : compileFilter .postgres f.tuple = .ok postgres) :
    Agrees e f ↔ ∃ hs hp, e.sqliteHolds e.fold f.type sqlite = some hs ∧
      e.postgresHolds f.type postgres = some hp ∧
      ∀ v, Cell f.type v → (hs v).map Truth.holds = (hp v).map Truth.holds := by
  rw [Agrees, sqliteMeaning, postgresMeaning, normalizeTuple_eq, hsqlite, hpostgres]
  rfl

theorem agrees_compare (op : SqlComparison)
    (hsqlite : compileFilter .sqlite ⟨f.tuple.field, f.tuple.op, sqliteValue f⟩ =
      .ok (.compare op (sqliteValue f)))
    (hpostgres : compileFilter .postgres f.tuple = .ok (.compare op f.tuple.value)) :
    Agrees e f ↔ TakenAlike e op f := by
  rw [agrees_iff_of_compile hsqlite hpostgres, TakenAlike]
  constructor
  · rintro ⟨hs, hp, hhs, hhp, h⟩
    obtain ⟨s, hs', rfl⟩ := map_eq_some_iff.1 hhs
    obtain ⟨p, hp', rfl⟩ := map_eq_some_iff.1 hhp
    exact ⟨s, p, hs', hp', fun v hv => some.inj (h v hv)⟩
  · rintro ⟨s, p, hs, hp, h⟩
    have hhs := congrArg (Option.map fun w v =>
      some (Engines.compare sqliteLt op (booleanAsNumber v) w)) hs
    have hhp := congrArg (Option.map fun w v => some (Engines.compare e.postgresLt op v w)) hp
    exact ⟨_, _, hhs, hhp, fun v hv => congrArg some (h v hv)⟩

theorem agrees_null (op : SqlCondition) (hop : op = .isNull ∨ op = .isNotNull)
    (hsqlite : compileFilter .sqlite ⟨f.tuple.field, f.tuple.op, sqliteValue f⟩ = .ok op)
    (hpostgres : compileFilter .postgres f.tuple = .ok op) : Agrees e f := by
  rw [agrees_iff_of_compile hsqlite hpostgres]
  obtain rfl | rfl := hop
  · exact ⟨_, _, rfl, rfl, fun _ _ => rfl⟩
  · exact ⟨_, _, rfl, rfl, fun _ _ => rfl⟩

/-- A filter on the elements of a value is not well formed on PostgreSQL if there are none. -/
theorem not_agrees_of_spread {each : SqlCondition} {list : ℕ → List Json → SqlCondition}
    (hpostgres : compileFilter .postgres f.tuple = elementsOf .postgres f.tuple.value each list)
    (hspread : spread f.tuple.value = none) : ¬ Agrees e f := by
  rintro ⟨hs, hp, -, hhp, -⟩
  rw [postgresMeaning, hpostgres, elementsOf, hspread] at hhp
  exact nomatch hhp

theorem agrees_in {negated : Bool}
    (hsqlite : compileFilter .sqlite ⟨f.tuple.field, f.tuple.op, sqliteValue f⟩ =
      .ok (.inEach negated (sqliteValue f))) (hpostgres : compileFilter .postgres f.tuple =
      elementsOf .postgres f.tuple.value (.inEach negated f.tuple.value) (.inList negated)) :
    Agrees e f ↔ FoundAlike e negated f := by
  cases hspread : spread f.tuple.value with
  | none =>
    refine iff_of_false (not_agrees_of_spread hpostgres hspread) ?_
    rintro ⟨_, ⟨_, _, hsome, -⟩, -⟩
    exact nomatch hspread.symm.trans hsome
  | some p =>
    obtain ⟨count, values⟩ := p
    rw [elementsOf, hspread] at hpostgres
    rw [agrees_iff_of_compile hsqlite hpostgres]
    constructor
    · rintro ⟨hs, hp, hhs, hhp, h⟩
      obtain rfl := some.inj hhs
      obtain ⟨ps, hps, rfl⟩ := map_eq_some_iff.1 hhp
      exact ⟨ps, ⟨count, values, hspread, hps⟩, fun v hv => some.inj (h v hv)⟩
    · rintro ⟨ps, ⟨count', values', hspread', hps⟩, h⟩
      obtain ⟨rfl, rfl⟩ := Prod.mk.inj (some.inj (hspread.symm.trans hspread'))
      have hhp := congrArg (Option.map fun ws v =>
        some (Engines.isIn e.postgresLt negated v ws)) hps
      exact ⟨_, _, rfl, hhp, fun v hv => congrArg some (h v hv)⟩

theorem sqliteValue_of_ne (h : f.type ≠ .boolean) : sqliteValue f = f.tuple.value := by
  have hcolumn := f.columnType_eq
  unfold columnType at hcolumn
  unfold sqliteValue normalizeTuple
  split
  · rename_i field hfield
    split_ifs with hboolean
    · rw [hfield] at hcolumn
      dsimp only at hcolumn
      rw [hboolean] at hcolumn
      exact absurd (some.inj hcolumn).symm h
    · rfl
  · rfl

omit [LinearOrder ω] in
/-- What `contains` says of a text. -/
theorem sqliteContains_str {w : Json} (hw : w ≠ .null) (u : String) :
    (e.sqliteContains e.fold w (.str u)).holds =
      decide (letters e.fold (e.sqliteText w) <:+: letters e.fold u) := by
  rw [sqliteContains, if_neg (by simp [hw]), holds_ofBool, e.sqliteText_str]

theorem agrees_contains
    (hsqlite : compileFilter .sqlite ⟨f.tuple.field, f.tuple.op, sqliteValue f⟩ =
      .ok (.instr (sqliteValue f)))
    (hpostgres : compileFilter .postgres f.tuple = .ok (.ilike f.tuple.value)) :
    Agrees e f ↔ ContainedAlike e f := by
  rw [agrees_iff_of_compile hsqlite hpostgres]
  constructor
  · rintro ⟨hs, hp, hhs, hhp, h⟩
    obtain ⟨s, hs', rfl⟩ := map_eq_some_iff.1 hhs
    rw [postgresHolds] at hhp
    split_ifs at hhp with htype
    obtain ⟨p, hp', rfl⟩ := map_eq_some_iff.1 hhp
    refine ⟨htype, s, p, hs', hp', ?_⟩
    by_cases hnull : f.tuple.value = .null
    · exact .inl hnull
    obtain hnull' | ⟨t, rfl, ht⟩ := e.postgresTakes_text _ _ hp'
    · exact absurd hnull' hnull
    have hs0 : s ≠ .null := fun h0 =>
      hnull ((sqliteValue_eq_null f).1 (e.sqliteTakes_null _ _ (h0 ▸ hs')))
    -- both say the same of every text
    have hsame : ∀ u, ColumnType.string.Has (.str u) →
        (letters e.fold (e.sqliteText s) <:+: letters e.fold u ↔
          like ('%' :: (letters e.fold t ++ ['%'])) (letters e.fold u) = true) := by
      intro u hu
      have hv := some.inj (h (.str u) (.inr (htype ▸ hu)))
      change (e.sqliteContains e.fold s (.str u)).holds = (ofBool _).holds at hv
      rw [sqliteContains_str hs0, holds_ofBool] at hv
      rw [← hv, decide_eq_true_iff]
    refine .inr ⟨t, rfl, ?_⟩
    rw [sqliteValue_of_ne (htype ▸ nofun)] at hs'
    by_cases htext : ∃ x, f.tuple.value = .str x
    · obtain ⟨x, hx⟩ := htext
      rw [hx] at hs' hp'
      obtain rfl := Json.str.inj (e.postgresTakes_str _ _ hp')
      obtain rfl := some.inj ((e.sqliteTakes_own .string (.str t) (.inr ht)).symm.trans hs')
      have hletters : e.sqliteText (booleanAsNumber (.str t)) = t := e.sqliteText_str t
      rw [hletters] at hsame ⊢
      exact ⟨plainText_of_like ht hsame, rfl⟩
    · have hplain := e.plainText_of_takes _ t (not_exists.1 htext)
        (isSome_iff_exists.2 ⟨s, hs'⟩) hp'
      refine ⟨hplain, ?_⟩
      have hpart : ∀ u, ColumnType.string.Has (.str u) →
          (letters e.fold (e.sqliteText s) <:+: letters e.fold u ↔
            letters e.fold t <:+: letters e.fold u) := fun u hu =>
        (hsame u hu).trans (like_contains ((plain_letters t).2 hplain) _)
      -- each is a part of the other
      have hle : letters e.fold (e.sqliteText s) <:+: letters e.fold t :=
        (hpart t ht).2 infix_rfl
      obtain ⟨u, hu, hletters⟩ := exists_letters (e := e)
        (fun hmem => nul_notMem_letters ht (hle.subset hmem))
        (fold_of_mem_letters (s := e.sqliteText s))
      have hge := (hpart u hu).1 (hletters ▸ infix_rfl)
      exact infix_antisymm hle (hletters ▸ hge)
  · rintro ⟨htype, s, p, hs, hp, h⟩
    have hhs := congrArg (Option.map fun w v =>
      some (e.sqliteContains e.fold w (booleanAsNumber v))) hs
    have hhp : e.postgresHolds f.type (.ilike f.tuple.value) =
        some fun v => some (e.postgresContains p v) := by
      rw [postgresHolds, if_pos htype, hp]
      rfl
    refine ⟨_, _, hhs, hhp, fun v hv => ?_⟩
    by_cases hnull : f.tuple.value = .null
    · -- nothing is a part of null, nor is null of anything
      have hsnull := e.sqliteTakes_own .string .null (.inl rfl)
      have hpnull := e.postgresTakes_own .string .null (.inl rfl)
      rw [sqliteValue_of_ne (htype ▸ nofun), hnull] at hs
      rw [hnull] at hp
      obtain rfl := some.inj (hsnull.symm.trans hs)
      obtain rfl := some.inj (hpnull.symm.trans hp)
      have hunknown : e.sqliteContains e.fold .null (booleanAsNumber v) = .unknown :=
        if_pos (.inr rfl)
      change some (e.sqliteContains e.fold .null (booleanAsNumber v)).holds = _
      rw [hunknown]
      cases v <;> rfl
    · obtain hnull' | ⟨t, rfl, hplain, hletters⟩ := h
      · exact absurd hnull' hnull
      have hs0 : s ≠ .null := fun h0 =>
        hnull ((sqliteValue_eq_null f).1 (e.sqliteTakes_null _ _ (h0 ▸ hs)))
      obtain rfl | hv := hv
      · rfl
      · rw [htype] at hv
        match v, hv with
        | .str u, _ =>
          refine congrArg some ?_
          change (e.sqliteContains e.fold s (.str u)).holds = (ofBool _).holds
          rw [sqliteContains_str hs0, holds_ofBool, hletters, Bool.eq_iff_iff,
            decide_eq_true_iff]
          exact (like_contains ((plain_letters t).2 hplain) _).symm

omit [LinearOrder ω] in
theorem exists_of_mem_postgresList {type : ColumnType} {count : ℕ} {values ps : List Json}
    (h : e.postgresList type count values = some ps) {p : Json} (hp : p ∈ ps) :
    ∃ v, e.postgresTakes type v = some p := by
  unfold postgresList at h
  split_ifs at h with hcount
  clear hcount
  induction values generalizing ps with
  | nil =>
    obtain rfl := some.inj h
    exact absurd hp not_mem_nil
  | cons v values ih =>
    rw [mapM_cons] at h
    obtain ⟨q, hq, h⟩ := bind_eq_some_iff.1 h
    obtain ⟨qs, hqs, h⟩ := bind_eq_some_iff.1 h
    obtain rfl := some.inj h
    obtain rfl | hp := mem_cons.1 hp
    · exact ⟨v, hq⟩
    · exact ih hp hqs

omit [LinearOrder ω] in
theorem isIn_null (lt : Json → Json → Bool) (bs : List Json) :
    (Engines.isIn lt false .null bs).holds = false := by
  rw [Engines.isIn, if_neg Bool.false_ne_true]
  induction bs with
  | nil => rfl
  | cons b bs ih =>
    have hunknown : Engines.compare lt .eq .null b = .unknown := if_pos (.inl rfl)
    rw [map_cons, Truth.any, foldr_cons, holds_or, hunknown]
    exact ih

omit [LinearOrder ω] in
theorem not_jsonbHasAny {ws : List Json} (h : ∀ w ∈ ws, w = .null) (column : Json) :
    jsonbHasAny ws column = false := by
  rw [jsonbHasAny, List.any_eq_false]
  intro w hw
  rw [h w hw]
  exact Bool.false_ne_true

omit [LinearOrder ω] in
/-- What `contains-any` says of a text if there are only nulls to look for. -/
theorem postgresOverlaps_nulls {ws : List Json} (h : ∀ w ∈ ws, w = .null) (t : String) :
    (e.postgresOverlaps ws (.str t)).map Truth.holds = (e.postgresJson t).map fun _ => false := by
  rw [postgresOverlaps, Option.map_map]
  refine congrArg (Option.map · _) (funext fun column => ?_)
  rw [Function.comp_apply, not_jsonbHasAny h, holds_ofBool]

theorem agrees_overlaps
    (hsqlite : compileFilter .sqlite ⟨f.tuple.field, f.tuple.op, sqliteValue f⟩ =
      .ok (.overlapsEach (sqliteValue f))) (hpostgres : compileFilter .postgres f.tuple =
      elementsOf .postgres f.tuple.value (.overlapsEach f.tuple.value) .overlapsList) :
    Agrees e f ↔ NothingAlike e f := by
  cases hspread : spread f.tuple.value with
  | none =>
    refine iff_of_false (not_agrees_of_spread hpostgres hspread) ?_
    rintro ⟨_, _, ⟨_, _, hsome, -⟩, -⟩
    cases hspread.symm.trans hsome
  | some pair =>
    obtain ⟨count, values⟩ := pair
    rw [elementsOf, hspread] at hpostgres
    rw [agrees_iff_of_compile hsqlite hpostgres]
    constructor
    · rintro ⟨hs, hp, hhs, hhp, h⟩
      obtain rfl := some.inj hhs
      rw [postgresHolds] at hhp
      split_ifs at hhp with htype
      obtain ⟨ps, hps, rfl⟩ := map_eq_some_iff.1 hhp
      have hnull : ∀ p ∈ ps, p = .null := by
        intro p hp
        obtain ⟨v, hv⟩ := exists_of_mem_postgresList hps hp
        obtain rfl | ⟨s, rfl, -⟩ := e.postgresTakes_text v p hv
        · exact some.inj (hv.symm.trans (e.postgresTakes_own .string .null (.inl rfl)))
        · -- the text is the key of an object with no other value than null
          obtain ⟨t, ht, hsqlite, hpostgres⟩ := e.json_of_key v s hv
          have hsame := h (.str t) (.inr (htype ▸ ht))
          have hs : (e.sqliteOverlaps (jsonEach (sqliteValue f)) (.str t)).map Truth.holds =
              some false := by
            rw [sqliteOverlaps, if_neg (by simp), e.sqliteText_str, hsqlite]
            simp [jsonEach, e.sqliteElement_null, isIn_null]
          have hp' : (e.postgresOverlaps ps (.str t)).map Truth.holds = some true := by
            rw [postgresOverlaps, hpostgres, map_some, map_some,
              holds_ofBool]
            exact congrArg some (List.any_eq_true.2 ⟨.str s, hp, by simp [jsonbHas]⟩)
          cases hs.symm.trans (hsame.trans hp')
      refine ⟨htype, ps, ⟨count, values, hspread, hps⟩, hnull, fun t ht => ?_⟩
      exact (h (.str t) (.inr (htype ▸ ht))).trans (postgresOverlaps_nulls hnull t)
    · rintro ⟨htype, ps, ⟨count', values', hspread', hps⟩, hnull, h⟩
      obtain ⟨rfl, rfl⟩ := Prod.mk.inj (some.inj (hspread.symm.trans hspread'))
      have hhp : e.postgresHolds f.type (.overlapsList count values) =
          some (e.postgresOverlaps ps) := by
        rw [postgresHolds, if_pos htype, hps]
        rfl
      refine ⟨_, _, rfl, hhp, fun v hv => ?_⟩
      obtain rfl | hv := hv
      · rfl
      · rw [htype] at hv
        match v, hv with
        | .str t, ht => exact (h t ht).trans (postgresOverlaps_nulls hnull t).symm

/-- **The databases agree on a filter** exactly under this condition. -/
theorem agrees_iff (f : TypedFilter schema) : Agrees e f ↔ HoldsWhen e f := by
  have hs {op : String} (h : f.tuple.op = op) :
      compileFilter .sqlite ⟨f.tuple.field, f.tuple.op, sqliteValue f⟩ =
        compileFilter .sqlite ⟨f.tuple.field, op, sqliteValue f⟩ := by rw [h]
  have hp {op : String} (h : f.tuple.op = op) :
      compileFilter .postgres f.tuple =
        compileFilter .postgres ⟨f.tuple.field, op, f.tuple.value⟩ := by rw [← h]
  have hvalue := sqliteValue_eq_null f
  have hop := f.op_mem
  simp only [filterOperators, mem_cons, not_mem_nil, or_false] at hop
  unfold HoldsWhen
  obtain h | h | h | h | h | h | h | h | h | h | h := hop
  · rw [h]
    by_cases hnull : f.tuple.value = .null
    · refine iff_of_true (agrees_null .isNull (.inl rfl) ?_ ?_) (.inl hnull)
      · rw [hs h, hvalue.2 hnull]
        rfl
      · rw [hp h, hnull]
        rfl
    · refine (agrees_compare .eq ?_ ?_).trans (or_iff_right hnull).symm
      · rw [hs h]
        exact congrArg Except.ok (if_neg (mt hvalue.1 hnull))
      · rw [hp h]
        exact congrArg Except.ok (if_neg hnull)
  · rw [h]
    by_cases hnull : f.tuple.value = .null
    · refine iff_of_true (agrees_null .isNotNull (.inr rfl) ?_ ?_) (.inl hnull)
      · rw [hs h, hvalue.2 hnull]
        rfl
      · rw [hp h, hnull]
        rfl
    · refine (agrees_compare .ne ?_ ?_).trans (or_iff_right hnull).symm
      · rw [hs h]
        exact congrArg Except.ok (if_neg (mt hvalue.1 hnull))
      · rw [hp h]
        exact congrArg Except.ok (if_neg hnull)
  · rw [h]
    exact agrees_compare _ (hs h) (hp h)
  · rw [h]
    exact agrees_compare _ (hs h) (hp h)
  · rw [h]
    exact agrees_compare _ (hs h) (hp h)
  · rw [h]
    exact agrees_compare _ (hs h) (hp h)
  · rw [h]
    exact agrees_contains (hs h) (hp h)
  · rw [h]
    exact agrees_in (hs h) (hp h)
  · rw [h]
    exact agrees_in (hs h) (hp h)
  · rw [h]
    exact agrees_in (hs h) (hp h)
  · rw [h]
    exact agrees_overlaps (hs h) (hp h)

end One

/-! ### Values of the type of the column -/

section Own

variable {e} {f : TypedFilter schema}

/-- The collation of PostgreSQL places texts before or behind one as their characters do. -/
def CollatesLike (e : Engines ω) (op : SqlComparison) (s : String) : Prop :=
  ∀ t, ColumnType.string.Has (.str t) → match op with
    | .lt | .ge => e.weigh t < e.weigh s ↔ t < s
    | .gt | .le => e.weigh s < e.weigh t ↔ s < t
    | .eq | .ne => True

theorem lookup_of_boolean (h : f.type = .boolean) :
    ∃ field, schema.lookup f.tuple.field = some (some field) ∧ field.type = .boolean := by
  have hcolumn := f.columnType_eq
  rw [h] at hcolumn
  unfold columnType at hcolumn
  split at hcolumn
  · rename_i field hfield
    refine ⟨field, hfield, ?_⟩
    cases htype : field.type <;> rw [htype] at hcolumn <;> first | rfl | exact nomatch hcolumn
  · exact nomatch hcolumn

theorem booleanAsNumber_own {type : ColumnType} (htype : type ≠ .boolean) {v : Json}
    (h : Cell type v) : booleanAsNumber v = v := by
  obtain rfl | h := h
  · rfl
  match type, v, h with
  | .string, .str s, _ => rfl
  | .number, .num q, _ => rfl
  | .boolean, .bool b, _ => exact absurd rfl htype

theorem sqliteValue_own (h : Cell f.type f.tuple.value) :
    sqliteValue f = booleanAsNumber f.tuple.value := by
  unfold sqliteValue normalizeTuple
  by_cases hboolean : f.type = .boolean
  · rw [hboolean] at h
    have hfield := lookup_of_boolean hboolean
    obtain ⟨field, hlookup, htype⟩ := hfield
    rw [hlookup]
    dsimp only
    rw [if_pos htype]
    obtain hnull | hbool := h
    · rw [hnull]
    · match hv : f.tuple.value, hbool with
      | .bool b, _ => rfl
  · have hvalue := sqliteValue_of_ne hboolean
    unfold sqliteValue normalizeTuple at hvalue
    rw [hvalue, booleanAsNumber_own hboolean h]

theorem compare_eq_own {type : ColumnType} {v w : Json} (hv : Cell type v) (hw : Cell type w) :
    Engines.compare sqliteLt .eq (booleanAsNumber v) (booleanAsNumber w) =
      Engines.compare e.postgresLt .eq v w := by
  obtain rfl | hv := hv
  · rfl
  obtain rfl | hw := hw
  · cases v <;> rfl
  match type, v, w, hv, hw with
  | .string, .str s, .str t, _, _ => rfl
  | .number, .num p, .num q, _, _ => rfl
  | .boolean, .bool b, .bool c, _, _ => cases b <;> cases c <;> rfl

theorem holds_compare_str (lt : Json → Json → Bool) (op : SqlComparison) (t s : String) :
    (Engines.compare lt op (.str t) (.str s)).holds =
      match op with
      | .eq => decide (Json.str t = .str s)
      | .ne => decide (Json.str t ≠ .str s)
      | .gt => lt (.str s) (.str t)
      | .lt => lt (.str t) (.str s)
      | .ge => !lt (.str t) (.str s)
      | .le => !lt (.str s) (.str t) := by
  unfold Engines.compare
  rw [if_neg (by simp)]
  exact holds_ofBool _

theorem compare_str (op : SqlComparison) (t s : String) :
    (Engines.compare sqliteLt op (.str t) (.str s)).holds =
      (Engines.compare e.postgresLt op (.str t) (.str s)).holds ↔
    match op with
      | .lt | .ge => e.weigh t < e.weigh s ↔ t < s
      | .gt | .le => e.weigh s < e.weigh t ↔ s < t
      | .eq | .ne => True := by
  have hlt (a b : String) : sqliteLt (.str a) (.str b) = e.postgresLt (.str a) (.str b) ↔
      (e.weigh a < e.weigh b ↔ a < b) := decide_eq_decide.trans iff_comm
  rw [holds_compare_str, holds_compare_str]
  cases op with
  | eq | ne => exact iff_of_true rfl trivial
  | gt | lt => exact hlt _ _
  | ge | le => exact Bool.not_inj_iff.trans (hlt _ _)

/-- The databases place a value of the type of the column alike: always if it is asked for equality,
or if it is no text, and else if the collation allows it. -/
theorem takenAlike_iff_own (op : SqlComparison) (h : Cell f.type f.tuple.value) :
    TakenAlike e op f ↔ ∀ s, f.tuple.value = .str s → CollatesLike e op s := by
  have hs := e.sqliteTakes_own f.type f.tuple.value h
  have hp := e.postgresTakes_own f.type f.tuple.value h
  have htaken : TakenAlike e op f ↔ ∀ v, Cell f.type v →
      (Engines.compare sqliteLt op (booleanAsNumber v)
        (booleanAsNumber f.tuple.value)).holds =
      (Engines.compare e.postgresLt op v f.tuple.value).holds := by
    rw [TakenAlike, sqliteValue_own h]
    constructor
    · rintro ⟨s, p, hs', hp', hv⟩
      obtain rfl := some.inj (hs.symm.trans hs')
      obtain rfl := some.inj (hp.symm.trans hp')
      exact hv
    · exact fun hv => ⟨_, _, hs, hp, hv⟩
  rw [htaken]
  generalize f.tuple.value = w at h
  generalize f.type = type at h
  obtain rfl | h := h
  · refine iff_of_true (fun v _ => ?_) fun s hs => by cases hs
    have hsqlite : Engines.compare sqliteLt op (booleanAsNumber v) .null = .unknown :=
      if_pos (.inr rfl)
    have hpostgres : Engines.compare e.postgresLt op v .null = .unknown := if_pos (.inr rfl)
    rw [hpostgres]
    exact congrArg Truth.holds hsqlite
  match type, w, h with
  | .number, .num q, _ =>
    refine iff_of_true (fun v hv => ?_) fun s hs => by cases hs
    obtain rfl | hv := hv
    · rfl
    match v, hv with
    | .num p, _ => cases op <;> rfl
  | .boolean, .bool b, _ =>
    refine iff_of_true (fun v hv => ?_) fun s hs => by cases hs
    obtain rfl | hv := hv
    · rfl
    match v, hv with
    | .bool c, _ => cases op <;> cases b <;> cases c <;> rfl
  | .string, .str s, hs =>
    constructor
    · intro h s' hs' t ht
      obtain rfl := Json.str.inj hs'
      exact (compare_str op t s).1 (h (.str t) (.inr ht))
    · intro h v hv
      obtain rfl | hv := hv
      · rfl
      match v, hv with
      | .str t, ht => exact (compare_str op t s).2 (h s rfl t ht)

theorem sqliteValue_own_list {vs : List Json} (hvalue : f.tuple.value = .arr vs)
    (h : ∀ v ∈ vs, Cell f.type v) : sqliteValue f = .arr (vs.map booleanAsNumber) := by
  by_cases hboolean : f.type = .boolean
  · obtain ⟨field, hlookup, htype⟩ := lookup_of_boolean hboolean
    unfold sqliteValue normalizeTuple
    rw [hlookup]
    dsimp only
    rw [if_pos htype, hvalue]
  · rw [sqliteValue_of_ne hboolean, hvalue]
    refine congrArg Json.arr ?_
    rw [map_congr_left fun v hv => booleanAsNumber_own hboolean (h v hv), List.map_id']

/-- The databases find the same values in a list of values of the type of the column, if it is not
empty. -/
theorem foundAlike_iff_own (negated : Bool) {vs : List Json} (hvalue : f.tuple.value = .arr vs)
    (h : ∀ v ∈ vs, Cell f.type v) : FoundAlike e negated f ↔ vs ≠ [] := by
  have hspread : spread f.tuple.value = some (vs.length, vs) := by
    rw [hvalue]
    rfl
  constructor
  · rintro ⟨ps, ⟨count, values, hspread', hps⟩, -⟩ rfl
    obtain ⟨rfl, rfl⟩ := Prod.mk.inj (some.inj (hspread.symm.trans hspread'))
    exact nomatch hps
  · intro hne
    have htakes : vs.mapM (e.postgresTakes f.type) = some vs := by
      rw [mapM_congr fun v hv => e.postgresTakes_own f.type v (h v hv)]
      exact mapM_pure.trans (congrArg some (List.map_id' vs))
    have hlist : e.postgresList f.type vs.length vs = some vs := by
      rw [postgresList, if_neg, htakes]
      simp [hne]
    refine ⟨vs, ⟨_, _, hspread, hlist⟩, fun v hv => ?_⟩
    have hitems : (jsonEach (sqliteValue f)).map (e.sqliteItem f.type) =
        vs.map booleanAsNumber := by
      rw [sqliteValue_own_list hvalue h, jsonEach, List.map_map]
      exact map_congr_left fun w hw => e.sqliteItem_own _ _ (h w hw)
    have hfound : (vs.map booleanAsNumber).map (fun b =>
        Engines.compare sqliteLt .eq (booleanAsNumber v) b) =
        vs.map fun b => Engines.compare e.postgresLt .eq v b := by
      rw [List.map_map]
      exact map_congr_left fun w hw => compare_eq_own hv (h w hw)
    rw [hitems, Engines.isIn, Engines.isIn, hfound]

omit [LinearOrder ω] in
/-- The databases find the same texts that contain another if that stands for itself in a
pattern. -/
theorem containedAlike_iff_own (htype : f.type = .string) (h : Cell f.type f.tuple.value) :
    ContainedAlike e f ↔ ∀ s, f.tuple.value = .str s → PlainText s := by
  rw [htype] at h
  have hs := e.sqliteTakes_own .string f.tuple.value h
  have hp := e.postgresTakes_own .string f.tuple.value h
  have hvalue := sqliteValue_own (htype ▸ h : Cell f.type f.tuple.value)
  constructor
  · rintro ⟨-, _, p, -, hp', hcontained⟩ s hs'
    obtain hnull | ⟨t, rfl, hplain, -⟩ := hcontained
    · cases hs'.symm.trans hnull
    · rw [hp, hs'] at hp'
      obtain rfl := Json.str.inj (some.inj hp')
      exact hplain
  · intro hplain
    refine ⟨htype, booleanAsNumber f.tuple.value, _, hvalue ▸ hs, hp, ?_⟩
    refine h.imp_right fun hv => ?_
    match hvalue' : f.tuple.value, hv with
    | .str t, _ =>
      refine ⟨t, rfl, hplain t hvalue', ?_⟩
      exact congrArg (letters e.fold) (e.sqliteText_str t)

omit [LinearOrder ω] in
theorem not_nothingAlike_of_text {vs : List Json} (hvalue : f.tuple.value = .arr vs) {s : String}
    (hs : .str s ∈ vs) (h : ColumnType.string.Has (.str s)) : ¬ NothingAlike e f := by
  rintro ⟨-, ps, ⟨count, values, hspread, hps⟩, hnull, -⟩
  rw [hvalue] at hspread
  obtain ⟨rfl, rfl⟩ := Prod.mk.inj (some.inj hspread)
  unfold postgresList at hps
  split_ifs at hps
  have hmem := mem_of_mapM hps hs (e.postgresTakes_own .string (.str s) (.inr h))
  cases hnull _ hmem

end Own

/-! ### All filters -/

section All

variable {e} {filters orFilters : List (TypedFilter schema)}

theorem Agrees.rowHolds_eq {f : TypedFilter schema} (h : Agrees e f) {row : Row}
    (hrow : Typed schema row) :
    rowHolds (sqliteMeaning e e.fold) row f = rowHolds (postgresMeaning e) row f := by
  obtain ⟨hs, hp, hhs, hhp, hsame⟩ := h
  rw [rowHolds, rowHolds, hhs, hhp]
  exact hsame _ (hrow _ _ f.columnType_eq)

theorem selected_eq (h : ∀ f ∈ filters ++ orFilters, Agrees e f) {rows : List Row}
    (hrows : ∀ row ∈ rows, Typed schema row) :
    selected (sqliteMeaning e e.fold) filters orFilters rows =
      selected (postgresMeaning e) filters orFilters rows := by
  have hsqlite : (filters ++ orFilters).any (fun f =>
      (sqliteMeaning e e.fold f).isNone) = false := by
    refine List.any_eq_false.2 fun f hf => ?_
    obtain ⟨hs, -, hhs, -, -⟩ := h f hf
    rw [hhs]
    exact Bool.false_ne_true
  have hpostgres : (filters ++ orFilters).any (fun f => (postgresMeaning e f).isNone) = false := by
    refine List.any_eq_false.2 fun f hf => ?_
    obtain ⟨-, hp, -, hhp, -⟩ := h f hf
    rw [hhp]
    exact Bool.false_ne_true
  have hclause : ∀ row ∈ rows, clauseHolds (sqliteMeaning e e.fold) filters orFilters row =
      clauseHolds (postgresMeaning e) filters orFilters row := by
    intro row hrow
    have hall := mapM_congr fun f hf =>
      (h f (mem_append_left _ hf)).rowHolds_eq (hrows row hrow)
    have hany := mapM_congr fun f hf =>
      (h f (mem_append_right _ hf)).rowHolds_eq (hrows row hrow)
    rw [clauseHolds, clauseHolds, hall, hany]
  unfold selected
  rw [hsqlite, hpostgres,
    mapM_congr fun row hrow => congrArg (Option.map (·, row)) (hclause row hrow)]

/-- **SQLite and PostgreSQL select the same rows** by filters that they agree on, and by no
others. -/
theorem parity_iff (filters orFilters : List (TypedFilter schema)) :
    Parity e filters orFilters ↔ ∀ f ∈ filters ++ orFilters, HoldsWhen e f := by
  constructor
  · exact fun h f hf => (agrees_iff f).1 (h.agrees f hf)
  · intro h
    have hagrees : ∀ f ∈ filters ++ orFilters, Agrees e f :=
      fun f hf => (agrees_iff f).2 (h f hf)
    exact ⟨hagrees, fun rows hrows => selected_eq hagrees hrows⟩

/-- A filter with values of the type of the column, but no order of texts and no text that means
another in a pattern. -/
def Own (f : TypedFilter schema) : Prop :=
  match f.tuple.op with
  | "==" | "!=" => Cell f.type f.tuple.value
  | ">" | "<" | ">=" | "<=" => Cell f.type f.tuple.value ∧ ∀ s, f.tuple.value ≠ .str s
  | "contains" => f.type = .string ∧ Cell f.type f.tuple.value ∧
      ∀ s, f.tuple.value = .str s → PlainText s
  | "contains-any" => False
  | _ => ∃ vs, vs ≠ [] ∧ f.tuple.value = .arr vs ∧ ∀ v ∈ vs, Cell f.type v

theorem Own.holdsWhen {f : TypedFilter schema} (hown : Own f) : HoldsWhen e f := by
  have hop := f.op_mem
  simp only [filterOperators, mem_cons, not_mem_nil, or_false] at hop
  unfold Own at hown
  unfold HoldsWhen
  obtain h | h | h | h | h | h | h | h | h | h | h := hop
  all_goals rw [h] at hown ⊢
  · exact .inr ((takenAlike_iff_own .eq hown).2 fun _ _ _ _ => trivial)
  · exact .inr ((takenAlike_iff_own .ne hown).2 fun _ _ _ _ => trivial)
  · exact (takenAlike_iff_own .gt hown.1).2 fun s hs => absurd hs (hown.2 s)
  · exact (takenAlike_iff_own .lt hown.1).2 fun s hs => absurd hs (hown.2 s)
  · exact (takenAlike_iff_own .ge hown.1).2 fun s hs => absurd hs (hown.2 s)
  · exact (takenAlike_iff_own .le hown.1).2 fun s hs => absurd hs (hown.2 s)
  · exact (containedAlike_iff_own hown.1 hown.2.1).2 hown.2.2
  · obtain ⟨vs, hne, hvalue, hvs⟩ := hown
    exact (foundAlike_iff_own false hvalue hvs).2 hne
  · obtain ⟨vs, hne, hvalue, hvs⟩ := hown
    exact (foundAlike_iff_own true hvalue hvs).2 hne
  · obtain ⟨vs, hne, hvalue, hvs⟩ := hown
    exact (foundAlike_iff_own true hvalue hvs).2 hne
  · exact hown.elim

/-- **The provider does not matter** to filters with values of the types of their columns, whatever
the collation of PostgreSQL is. -/
theorem parity_of_own (h : ∀ f ∈ filters ++ orFilters, Own f) : Parity e filters orFilters := by
  have hagrees : ∀ f ∈ filters ++ orFilters, Agrees e f :=
    fun f hf => (agrees_iff f).2 (h f hf).holdsWhen
  exact ⟨hagrees, fun rows hrows => selected_eq hagrees hrows⟩

end All

end Meaning

/-! ### A percent sign, and an empty list -/

namespace Sign

/-- Databases that take values of the type of the column only. -/
def engines : Engines String where
  weigh := Function.Embedding.refl String
  fold := id
  sqliteTakes _ v :=
    match v with
    | .arr _ | .obj _ => none
    | v => some (booleanAsNumber v)
  sqliteItem _ v := v
  sqliteElement v := v
  sqliteText v :=
    match v with
    | .str s => s
    | _ => ""
  postgresTakes type v := if v = .null ∨ type.Has v then some v else none
  sqliteJson t := some (.obj [(t, .null)])
  postgresJson t := some (.obj [(t, .null)])
  fold_fold _ := rfl
  fold_meta _ := rfl
  fold_percent := rfl
  fold_a := rfl
  fold_nul _ h := h
  sqliteTakes_own type v h := by
    obtain rfl | h := h
    · rfl
    · cases type <;> cases v <;> first | exact h.elim | rfl
  sqliteItem_own _ _ _ := rfl
  sqliteElement_null := rfl
  sqliteText_str _ := rfl
  postgresTakes_own type v h := if_pos h
  sqliteTakes_null type v h := by
    cases v <;> first | rfl | exact nomatch h
  postgresTakes_text v w h := by
    split_ifs at h with hv
    obtain rfl := some.inj h
    refine hv.imp_right fun hv => ?_
    match v, hv with
    | .str s, hv => exact ⟨s, rfl, hv⟩
  postgresTakes_str s w h := by
    by_cases hv : Json.str s = .null ∨ ColumnType.string.Has (.str s)
    · rw [if_pos hv] at h
      exact (some.inj h).symm
    · rw [if_neg hv] at h
      exact nomatch h
  plainText_of_takes v s hv _ h := by
    split_ifs at h
    exact absurd (some.inj h) (hv s)
  json_of_key v s h := by
    split_ifs at h with hv
    obtain rfl := some.inj h
    exact ⟨s, hv.resolve_left nofun, rfl, rfl⟩

def schema : UserSchema := [("name", some { type := .string })]

def percent : TypedFilter schema where
  tuple := ⟨"name", "contains", .str "%"⟩
  type := .string
  columnType_eq := rfl
  op_mem := by decide

def none : TypedFilter schema where
  tuple := ⟨"name", "in", .arr []⟩
  type := .string
  columnType_eq := rfl
  op_mem := by decide

def names : TypedFilter schema where
  tuple := ⟨"name", "in", .arr [.str "a", .null]⟩
  type := .string
  columnType_eq := rfl
  op_mem := by decide

end Sign

theorem names_parity : Parity Sign.engines [Sign.names] [Sign.names] := by
  refine parity_of_own fun f hf => ?_
  obtain rfl : f = Sign.names := by simpa using hf
  refine ⟨[.str "a", .null], by decide, rfl, ?_⟩
  exact forall_mem_cons.2 ⟨.inr (by decide), forall_mem_singleton.2 (.inl rfl)⟩

/-- PostgreSQL finds a percent sign in every name, and refuses to look into an empty list. -/
theorem percent_not_parity :
    ¬ Parity Sign.engines [Sign.percent] [] ∧ ¬ Parity Sign.engines [Sign.none] [] := by
  constructor
  · intro h
    have htyped : ∀ row ∈ [[("name", Json.str "a")]], Typed Sign.schema row := by
      intro row hrow name type hname
      obtain rfl := mem_singleton.1 hrow
      by_cases h : name = "name"
      · subst h
        obtain rfl := some.inj hname
        exact .inr (by decide)
      · have hnone : columnType Sign.schema name = none := by
          simp [columnType, Sign.schema, List.lookup_cons, beq_eq_false_iff_ne.2 h]
        cases hnone.symm.trans hname
    exact absurd (h.same _ htyped) (by decide +kernel)
  · intro h
    obtain ⟨_, hp, -, hhp, -⟩ := h.agrees Sign.none mem_cons_self
    cases hhp

end FilterParity

end EdgeBase
