import EdgeBase.Access.Pages
import EdgeBase.JsonText
import EdgeBase.Lib.ProbedPages
import EdgeBase.Live.Conditions
import EdgeBase.RelatedSearch
import Mathlib.Data.List.Sort
import Mathlib.Data.Prod.Lex
import Mathlib.Data.String.Basic
import Mathlib.Order.WithBot

/-!
# Paging through a related search

A related search gives its rows in the order of one text field and the id, and each page ends with a
cursor of these values of its last row, as the client sees them.

* `Request.reads_iff_holdsWhen` : exactly when a client that follows the cursors reads every
  matching row once.
* `Request.complete_of_plain` : such a client does if it sees the stored values.
-/

namespace EdgeBase

open List Option Paging

namespace RelatedPages

/-- `MAX_RELATED_SEARCH_PAYLOAD_BYTES`. -/
def maxPayloadBytes : ℕ := 64 * 1024

/-- `MAX_RELATED_SEARCH_AFTER_LENGTH`. -/
def maxAfterLength : ℕ := 1024

def dialectOf : DbProvider → SqlDialect
  | .do | .d1 => .sqlite
  | .neon | .postgres => .postgres

/-- `tableField` and `assertTextIdentifierField`: whether a field may stand in an order. -/
def isTextField (config : TableConfig) (name : String) : Bool :=
  !"_fts".toList.isPrefixOf name.toList &&
    ((buildEffectiveSchema config.schema).lookup name).any fun field =>
      field.type = .string || field.type = .text

/-- A table, and a request on it that is accepted without a cursor.  The order is the id, or a text
field and the id. -/
structure Request where
  provider : DbProvider
  env : Env
  config : TableConfig
  database : Related.Database
  table : String
  /-- Whether the terms of the query are found in a row. -/
  finds : Row → Bool
  /-- A found row with the columns that a full-text search adds to it. -/
  annotate : Row → Row
  numberText : ℚ → String
  /-- The fields of the body, without `after`. -/
  body : List (String × Json)
  field : Option String
  limit : ℕ
  relation : SearchRelatedRelation
  field_ne_id : field ≠ some "id"
  order_isText : ∀ f ∈ field.toList ++ ["id"], isTextField config f = true
  limit_pos : 1 ≤ limit
  limit_le : limit ≤ 1000
  payload_le : Json.bytes numberText (.obj body) ≤ maxPayloadBytes
  authority : ∀ a ∈ relation.ancestry, a.requiredAncestorIds.isSome ∨ a.grantSource.isSome
  ids_text : ∀ row ∈ database.rows table, ∃ s, column row "id" = .str s
  ids_distinct : ((database.rows table).map (column · "id")).Nodup
  field_text : ∀ row ∈ database.rows table, ∀ f ∈ field,
    column row f = .null ∨ ∃ s, column row f = .str s

/-- `invalid`. -/
def invalid {α : Type} (path reason : String) : Except HttpError α :=
  .error ⟨400, s!"Invalid related search input at '{path}': {reason}"⟩

/-- `expectString`, on a text of a cursor. -/
def expectString (path value : String) : Except HttpError String :=
  if isBlank value then invalid path "must not be blank."
  else if maxAfterLength < (codeUnits value).length then
    invalid path s!"must not exceed {maxAfterLength} characters."
  else .ok value

namespace Request

variable (r : Request)

def order : List String := r.field.toList ++ ["id"]

def bodyAfter (values : List String) : Json :=
  .obj (r.body ++ [("after", .obj [("values", .arr (values.map .str))])])

/-- `validateSearchRelatedInput`, as far as the cursor matters. -/
def validateAfter (values : List String) : Except HttpError (List String) :=
  if maxPayloadBytes < Json.bytes r.numberText (r.bodyAfter values) then
    invalid "$" s!"must not exceed {maxPayloadBytes} UTF-8 bytes."
  else if values.length ≠ r.order.length then
    invalid "$.after.values" s!"expected exactly {r.order.length} values aligned to order."
  else values.zipIdx.mapM fun (value, index) => expectString s!"$.after.values[{index}]" value

def returned (row : Row) : Row := cleanRow r.provider r.env r.config (r.annotate row)

def cursorValue (row : Row) (field : String) : Except HttpError String :=
  match row.lookup field with
  | some (.str s) =>
    if s = "" then
      .error ⟨500, s!"Related-search ordered field '{field}' did not produce a string value."⟩
    else .ok s
  | _ => .error ⟨500, s!"Related-search ordered field '{field}' did not produce a string value."⟩

def createSearchRelatedCursor (row : Row) : Except HttpError (List String) :=
  r.order.mapM (cursorValue row)

/-- Whether a row satisfies the terms and the constraint. -/
def isMatching (row : Row) : Bool :=
  r.finds row &&
    match compileRelatedSearchConstraint (dialectOf r.provider) r.database r.relation row with
    | .ok holds => holds
    | .error _ => false

section Collation

variable {ω : Type} [LinearOrder ω] (weigh : String ↪ ω)

/-- `>`, on a text column. -/
def sqlGt (v : Json) (s : String) : Truth :=
  match v with
  | .str t => .ofBool (weigh s < weigh t)
  | _ => .unknown

/-- `compileSearchRelatedKeyset`, on a row. -/
def keysetHolds (values : List String) (row : Row) : Bool :=
  match r.field, values with
  | none, [last] => (sqlGt weigh (column row "id") last).holds
  | some f, [first, last] =>
    ((sqlGt weigh (column row f) first).or
      ((sqlEq (column row f) (.str first)).and (sqlGt weigh (column row "id") last))).holds
  | _, _ => false

/-- Where a value of a text column stands: SQLite has its nulls first, PostgreSQL last. -/
def place (dialect : SqlDialect) (v : Json) : WithBot (WithTop ω) :=
  match v with
  | .str s => ((weigh s : WithTop ω) : WithBot (WithTop ω))
  | _ =>
    match dialect with
    | .sqlite => ⊥
    | .postgres => ((⊤ : WithTop ω) : WithBot (WithTop ω))

def orderKey (row : Row) : WithBot (WithTop ω) ×ₗ WithBot (WithTop ω) :=
  toLex (r.field.elim ⊥ fun f => place weigh (dialectOf r.provider) (column row f),
    place weigh (dialectOf r.provider) (column row "id"))

/-- `ORDER BY`. -/
def orderBy (rows : List Row) : List Row :=
  rows.insertionSort fun a b => r.orderKey weigh a ≤ r.orderKey weigh b

/-- The rows of the statement: one more than the page has. -/
def select (after : Option (List String)) : List Row :=
  (r.orderBy weigh ((r.database.rows r.table).filter fun row =>
    r.isMatching row && after.all (r.keysetHolds weigh · row))).take (min (r.limit + 1) 1001)

/-- `handleSearchRelated`; the rows of a page are given as they are stored. -/
def handleSearchRelated (after : Option (List String)) :
    Except HttpError (Paging.Page (Option (List String)) Row) := do
  let after ← after.mapM r.validateAfter
  let found := r.select weigh after
  let rows := found.take r.limit
  let next ← if r.limit < found.length then
      rows.getLast?.mapM fun row => r.createSearchRelatedCursor (r.returned row)
    else pure none
  return ⟨rows, next.map some⟩

def fetch (after : Option (List String)) : Option (Paging.Page (Option (List String)) Row) :=
  (r.handleSearchRelated weigh after).toOption

def matching : List Row := r.orderBy weigh ((r.database.rows r.table).filter r.isMatching)

/-! ### The order of the rows -/

section Order

variable {r} {weigh} {row : Row} {values : List String}

/-- Whether the first field of the order is not null. -/
def Present (r : Request) (row : Row) : Prop := ∀ f ∈ r.field, column row f ≠ .null

/-- Where the values of a cursor stand among the rows. -/
def cursorKey (r : Request) (weigh : String ↪ ω) (values : List String) :
    WithBot (WithTop ω) ×ₗ WithBot (WithTop ω) :=
  let text (s : String) := place weigh (dialectOf r.provider) (.str s)
  match r.field, values with
  | some _, [first, last] => toLex (text first, text last)
  | _, [last] => toLex (⊥, text last)
  | _, _ => toLex (⊥, ⊥)

theorem keysetHolds_iff (hrow : row ∈ r.database.rows r.table)
    (hlen : values.length = r.order.length) : r.keysetHolds weigh values row = true ↔
      r.Present row ∧ r.cursorKey weigh values < r.orderKey weigh row := by
  obtain ⟨s, hid⟩ := r.ids_text row hrow
  have hfield := r.field_text row hrow
  unfold order at hlen
  unfold keysetHolds cursorKey orderKey Present
  generalize r.field = field at hfield hlen
  cases field with
  | none =>
    obtain ⟨last, rfl⟩ := length_eq_one_iff.1 hlen
    simp [hid, sqlGt, place, Prod.Lex.toLex_lt_toLex]
  | some f =>
    obtain ⟨first, last, rfl⟩ := length_eq_two.1 hlen
    obtain hnull | ⟨t, ht⟩ := hfield f rfl
    · have hunknown : Truth.unknown.holds = false := rfl
      simp [hnull, sqlGt, sqlEq, hunknown]
    · simp [hid, ht, sqlGt, sqlEq, place, Prod.Lex.toLex_lt_toLex]
      rw [@eq_comm _ t first]

omit [LinearOrder ω] in
theorem eq_of_orderKey_eq {a b : Row} (ha : a ∈ r.database.rows r.table)
    (hb : b ∈ r.database.rows r.table) (h : r.orderKey weigh a = r.orderKey weigh b) : a = b := by
  obtain ⟨s, hs⟩ := r.ids_text a ha
  obtain ⟨t, ht⟩ := r.ids_text b hb
  have hplace := congrArg (fun x => (ofLex x).2) h
  simp only [orderKey, ofLex_toLex, hs, ht, place, WithBot.coe_inj, WithTop.coe_inj,
    EmbeddingLike.apply_eq_iff_eq] at hplace
  exact inj_on_of_nodup_map r.ids_distinct ha hb (by rw [hs, ht, hplace])

theorem pairwise_orderBy (rows : List Row) :
    (r.orderBy weigh rows).Pairwise fun a b => r.orderKey weigh a ≤ r.orderKey weigh b :=
  haveI : Std.Total fun a b => r.orderKey weigh a ≤ r.orderKey weigh b := ⟨fun _ _ => le_total _ _⟩
  haveI : IsTrans Row fun a b => r.orderKey weigh a ≤ r.orderKey weigh b :=
    ⟨fun _ _ _ => le_trans⟩
  pairwise_insertionSort _ rows

theorem perm_orderBy (rows : List Row) : (r.orderBy weigh rows).Perm rows :=
  perm_insertionSort _ rows

theorem orderBy_filter {rows : List Row} (hrows : ∀ row ∈ rows, row ∈ r.database.rows r.table)
    (p : Row → Bool) : r.orderBy weigh (rows.filter p) = (r.orderBy weigh rows).filter p := by
  refine List.Perm.eq_of_pairwise (fun a b ha hb hab hba => ?_) (pairwise_orderBy _)
    ((pairwise_orderBy rows).filter p) ?_
  · have ha' : a ∈ rows := mem_of_mem_filter ((perm_orderBy _).mem_iff.1 ha)
    have hb' : b ∈ rows := (perm_orderBy rows).mem_iff.1 (mem_of_mem_filter hb)
    exact eq_of_orderKey_eq (hrows a ha') (hrows b hb') (le_antisymm hab hba)
  · exact (perm_orderBy _).trans ((perm_orderBy rows).symm.filter p)

theorem mem_rows_of_matching (h : row ∈ r.matching weigh) : row ∈ r.database.rows r.table :=
  mem_of_mem_filter ((perm_orderBy _).mem_iff.1 h)

theorem nodup_matching (r : Request) : (r.matching weigh).Nodup :=
  (perm_orderBy _).nodup_iff.2 (r.ids_distinct.of_map.filter _)

theorem pairwise_matching (r : Request) :
    (r.matching weigh).Pairwise fun a b => r.orderKey weigh a < r.orderKey weigh b := by
  have hsorted : (r.matching weigh).Pairwise fun a b => r.orderKey weigh a ≤ r.orderKey weigh b :=
    pairwise_orderBy _
  have hboth := hsorted.and (nodup_matching r)
  refine hboth.imp_of_mem fun ha hb hab => lt_of_le_of_ne hab.1 fun heq => hab.2 ?_
  exact eq_of_orderKey_eq (mem_rows_of_matching ha) (mem_rows_of_matching hb) heq

theorem select_eq (after : Option (List String)) : r.select weigh after =
      ((r.matching weigh).filter fun row => after.all (r.keysetHolds weigh · row)).take
        (r.limit + 1) := by
  have hmin : min (r.limit + 1) 1001 = r.limit + 1 := Nat.min_eq_left (Nat.succ_le_succ r.limit_le)
  have hfilter : (r.database.rows r.table).filter (fun row =>
      r.isMatching row && after.all (r.keysetHolds weigh · row)) =
        ((r.database.rows r.table).filter r.isMatching).filter fun row =>
          after.all (r.keysetHolds weigh · row) := by
    rw [List.filter_filter]
    exact filter_congr fun row _ => Bool.and_comm _ _
  rw [select, hmin, hfilter, orderBy_filter fun row hrow => mem_of_mem_filter hrow]
  rfl

end Order

/-! ### Cursors -/

section Cursor

variable {r} {weigh} {row : Row} {values : List String}

theorem mapM_cursorValue {fields : List String} :
    fields.mapM (cursorValue row) = .ok values ↔
      fields.map (fun f => row.lookup f) = values.map (fun v => some (Json.str v)) ∧
        "" ∉ values := by
  induction fields generalizing values with
  | nil =>
    cases values with
    | nil => simp [pure, Except.pure]
    | cons v values => simp [pure, Except.pure]
  | cons f fields ih =>
    rw [mapM_cons]
    constructor
    · intro h
      obtain ⟨v, hv, h⟩ := Except.bind_eq_ok.1 h
      obtain ⟨vs, hvs, h⟩ := Except.bind_eq_ok.1 h
      obtain rfl := Except.ok.inj h
      obtain ⟨hmap, hne⟩ := ih.1 hvs
      unfold cursorValue at hv
      split at hv
      · rename_i s hs
        split_ifs at hv with hempty
        obtain rfl := Except.ok.inj hv
        refine ⟨by rw [map_cons, map_cons, hs, hmap], ?_⟩
        rw [mem_cons, not_or]
        exact ⟨Ne.symm hempty, hne⟩
      · exact nomatch hv
    · rintro ⟨hmap, hne⟩
      cases values with
      | nil => exact nomatch hmap
      | cons v vs =>
        rw [map_cons, map_cons, List.cons.injEq] at hmap
        rw [mem_cons, not_or] at hne
        have hv : cursorValue row f = .ok v := by
          rw [cursorValue, hmap.1]
          exact if_neg (Ne.symm hne.1)
        rw [hv, ih.2 ⟨hmap.2, hne.2⟩]
        rfl

/-- A text that may stand in a cursor. -/
def Acceptable (v : String) : Prop := isBlank v = false ∧ (codeUnits v).length ≤ maxAfterLength

theorem expectString_eq {path v w : String} :
    expectString path v = .ok w ↔ w = v ∧ Acceptable v := by
  unfold expectString Acceptable invalid
  split_ifs with hblank hlen
  · simp [hblank]
  · simp [hblank, Nat.not_le.2 hlen]
  · simp [hblank, Nat.not_lt.1 hlen, eq_comm]

theorem mapM_expectString {vs : List String} {start : ℕ} :
    ((values.zipIdx start).mapM fun (value, index) =>
      expectString s!"$.after.values[{index}]" value) = .ok vs ↔
      vs = values ∧ ∀ v ∈ values, Acceptable v := by
  induction values generalizing vs start with
  | nil => simp [pure, Except.pure, eq_comm]
  | cons v values ih =>
    rw [zipIdx_cons, mapM_cons]
    constructor
    · intro h
      obtain ⟨w, hw, h⟩ := Except.bind_eq_ok.1 h
      obtain ⟨ws, hws, h⟩ := Except.bind_eq_ok.1 h
      obtain rfl := Except.ok.inj h
      obtain ⟨rfl, hv⟩ := expectString_eq.1 hw
      obtain ⟨rfl, hvs⟩ := ih.1 hws
      exact ⟨rfl, forall_mem_cons.2 ⟨hv, hvs⟩⟩
    · rintro ⟨rfl, hall⟩
      obtain ⟨hv, hvs⟩ := forall_mem_cons.1 hall
      have hw : expectString s!"$.after.values[{start}]" v = .ok v := expectString_eq.2 ⟨rfl, hv⟩
      dsimp only
      rw [hw, ih.2 ⟨rfl, hvs⟩]
      rfl

structure Accepted (r : Request) (values : List String) : Prop where
  length_eq : values.length = r.order.length
  texts : ∀ v ∈ values, Acceptable v
  payload : Json.bytes r.numberText (r.bodyAfter values) ≤ maxPayloadBytes

theorem validateAfter_eq {vs : List String} :
    r.validateAfter values = .ok vs ↔ vs = values ∧ r.Accepted values := by
  unfold validateAfter
  split_ifs with hpayload hlen
  · refine iff_of_false nofun fun h => ?_
    exact absurd h.2.payload (Nat.not_le.2 hpayload)
  · exact iff_of_false nofun fun h => hlen h.2.length_eq
  · rw [mapM_expectString]
    constructor
    · rintro ⟨rfl, htexts⟩
      exact ⟨rfl, Decidable.not_not.1 hlen, htexts, Nat.not_lt.1 hpayload⟩
    · rintro ⟨rfl, haccepted⟩
      exact ⟨rfl, haccepted.texts⟩

theorem createSearchRelatedCursor_eq :
    r.createSearchRelatedCursor row = .ok values ↔
      r.order.map (fun f => row.lookup f) = values.map (fun v => some (Json.str v)) ∧ "" ∉ values :=
  mapM_cursorValue

end Cursor

/-- The rows that a cursor selects, if it is accepted. -/
def accept (after : Option (List String)) : Option (List Row) :=
  (after.mapM r.validateAfter).toOption.map (r.select weigh)

def mark (row : Row) : Option (Option (List String)) :=
  (r.createSearchRelatedCursor (r.returned row)).toOption.map some

theorem fetch_eq : r.fetch weigh = Paging.probed (r.accept weigh) r.limit r.mark := by
  funext after
  unfold fetch handleSearchRelated Paging.probed accept
  cases after.mapM r.validateAfter with
  | error e => rfl
  | ok after =>
    change _ = if r.limit < (r.select weigh after).length then _ else _
    simp only [bind, Except.bind]
    split_ifs with hmore
    · have hpos := r.limit_pos
      cases hlast : ((r.select weigh after).take r.limit).getLast? with
      | none =>
        rw [List.getLast?_eq_none_iff, ← length_eq_zero_iff, length_take] at hlast
        omega
      | some row =>
        rw [bind_some, mark, mapM_some]
        cases r.createSearchRelatedCursor (r.returned row) <;> rfl
    · rfl

theorem accept_eq {values : List String} {found : List Row} :
    r.accept weigh (some values) = some found ↔
      r.Accepted values ∧ found = r.select weigh (some values) := by
  rw [accept, mapM_some]
  constructor
  · intro h
    cases hvalid : r.validateAfter values with
    | error e =>
      rw [hvalid] at h
      exact nomatch h
    | ok vs =>
      obtain ⟨rfl, haccepted⟩ := validateAfter_eq.1 hvalid
      rw [hvalid] at h
      exact ⟨haccepted, (some.inj h).symm⟩
  · rintro ⟨haccepted, rfl⟩
    rw [validateAfter_eq.2 ⟨rfl, haccepted⟩]
    rfl

theorem mark_eq {row : Row} {next : Option (List String)} :
    r.mark row = some next ↔ ∃ values, next = some values ∧ "" ∉ values ∧
      r.order.map (fun f => (r.returned row).lookup f) =
        values.map (fun v => some (Json.str v)) := by
  rw [mark]
  constructor
  · intro h
    obtain ⟨values, hvalues, rfl⟩ := map_eq_some_iff.1 h
    cases hcursor : r.createSearchRelatedCursor (r.returned row) with
    | error e =>
      rw [hcursor] at hvalues
      exact nomatch hvalues
    | ok vs =>
      rw [hcursor] at hvalues
      obtain rfl : vs = values := some.inj hvalues
      obtain ⟨hmap, hne⟩ := createSearchRelatedCursor_eq.1 hcursor
      exact ⟨vs, rfl, hne, hmap⟩
  · rintro ⟨values, rfl, hne, hmap⟩
    rw [createSearchRelatedCursor_eq.2 ⟨hmap, hne⟩]
    rfl

/-! ### Reading all pages -/

/-- A client that follows the cursors reads every matching row once, in their order and in full
pages. -/
def Complete : Prop := Paging.Reads (r.fetch weigh) r.limit none (r.matching weigh)

/-- The values of a row, as the client sees them, separate it from the rows behind it. -/
structure Separates (values : List String) (row : Row) (behind : List Row) : Prop where
  returned : r.order.map (fun f => (r.returned row).lookup f) =
    values.map fun v => some (Json.str v)
  accepted : r.Accepted values
  front : r.keysetHolds weigh values row = false
  next : ∀ next ∈ behind.head?, r.keysetHolds weigh values next = true
  present : ∀ next ∈ behind, r.Present next

/-- Every row that ends a page with rows behind it is separated from them by its values. -/
def HoldsWhen : Prop :=
  ∀ k row, (r.matching weigh)[(k + 1) * r.limit - 1]? = some row →
    (r.matching weigh).drop ((k + 1) * r.limit) ≠ [] →
    ∃ values, r.Separates weigh values row ((r.matching weigh).drop ((k + 1) * r.limit))

/-- What the rows behind a page are, if its cursor leads to them. -/
def Continues (k : ℕ) : Prop :=
  Paging.Continues (r.accept weigh) r.limit r.mark (r.matching weigh) k

section Reading

variable {r} {weigh} {k : ℕ} {row : Row} {values : List String}

omit [LinearOrder ω] in
theorem orderKey_fst (row : Row) {f : String} (hf : r.field = some f) :
    (ofLex (r.orderKey weigh row)).1 = place weigh (dialectOf r.provider) (column row f) := by
  rw [orderKey, hf]
  rfl

omit [LinearOrder ω] in
theorem cursorKey_fst {f : String} (hf : r.field = some f) (hlen : values.length = r.order.length) :
    ∃ s, (ofLex (r.cursorKey weigh values)).1 = place weigh (dialectOf r.provider) (.str s) := by
  rw [order, hf] at hlen
  obtain ⟨first, last, rfl⟩ := length_eq_two.1 hlen
  unfold cursorKey
  rw [hf]
  exact ⟨first, rfl⟩

/-- The rows that a cursor selects stand behind those that it does not, unless there are nulls. -/
theorem pairwise_keysetHolds (hlen : values.length = r.order.length) {i : ℕ} {next : Row}
    (hnext : (r.matching weigh)[i]? = some next)
    (hpresent : ∀ row ∈ (r.matching weigh).drop i, r.Present row) :
    (r.matching weigh).Pairwise fun a b =>
      r.keysetHolds weigh values a = true → r.keysetHolds weigh values b = true := by
  refine (pairwise_matching r).imp_of_mem fun {a b} ha hb hab habove => ?_
  rw [keysetHolds_iff (mem_rows_of_matching ha) hlen] at habove
  rw [keysetHolds_iff (mem_rows_of_matching hb) hlen]
  have hbeyond := habove.2.trans hab
  refine ⟨fun f hf hnull => ?_, hbeyond⟩
  have hplace : (ofLex (r.orderKey weigh b)).1 = _ := orderKey_fst b hf
  rw [hnull] at hplace
  cases hdialect : dialectOf r.provider with
  | sqlite =>
    -- a null stands before every cursor
    obtain ⟨s, hs⟩ : ∃ s, (ofLex (r.cursorKey weigh values)).1 = _ := cursorKey_fst hf hlen
    have hle := Prod.Lex.monotone_fst _ _ hbeyond.le
    rw [hplace, hs, hdialect] at hle
    simp [place] at hle
  | postgres =>
    -- a null stands behind the next row, which is none
    have hnextMem : next ∈ (r.matching weigh).drop i := by
      refine mem_of_getElem? (i := 0) ?_
      rw [List.getElem?_drop]
      exact hnext
    obtain hnone | ⟨t, ht⟩ := r.field_text next
      (mem_rows_of_matching (mem_of_mem_drop hnextMem)) f hf
    · exact hpresent next hnextMem f hf hnone
    obtain ⟨j, hj, rfl⟩ := getElem_of_mem hb
    obtain ⟨hi, rfl⟩ := List.getElem?_eq_some_iff.1 hnext
    obtain hji | hij := Nat.lt_or_ge j i
    · have hlt := pairwise_iff_getElem.1 (pairwise_matching r) j i hj hi hji
      have hle := Prod.Lex.monotone_fst _ _ hlt.le
      rw [hplace, orderKey_fst _ hf, ht, hdialect] at hle
      simp [place] at hle
    · refine hpresent _ ?_ f hf hnull
      refine mem_of_getElem? (i := j - i) ?_
      rw [List.getElem?_drop, Nat.add_sub_cancel' hij]
      exact List.getElem?_eq_getElem hj

theorem present_of_continues
    (h : ∀ k, (k + 1) * r.limit < (r.matching weigh).length → r.Continues weigh k) {i : ℕ}
    (hi : (k + 1) * r.limit ≤ i) (hrow : (r.matching weigh)[i]? = some row) : r.Present row := by
  have hmatching := mem_of_getElem? hrow
  obtain ⟨hlen, -⟩ := List.getElem?_eq_some_iff.1 hrow
  -- the row stands on the page behind number `j`
  obtain ⟨j, hj⟩ : ∃ j, i / r.limit = j + 1 := by
    have hle : k + 1 ≤ i / r.limit := (Nat.le_div_iff_mul_le r.limit_pos).2 hi
    exact ⟨i / r.limit - 1, by omega⟩
  have hdiv := Nat.div_add_mod i r.limit
  have hmod := Nat.mod_lt i r.limit_pos
  rw [hj, Nat.mul_comm] at hdiv
  obtain ⟨_, _, _, -, hmark, haccept, hsame⟩ := h j (by omega)
  obtain ⟨values, rfl, -, -⟩ := (r.mark_eq).1 hmark
  obtain ⟨haccepted, rfl⟩ := (r.accept_eq weigh).1 haccept
  rw [select_eq, samePage_take] at hsame
  have hmem : row ∈ ((r.matching weigh).drop ((j + 1) * r.limit)).take r.limit := by
    refine mem_of_getElem? (i := i % r.limit) ?_
    rw [List.getElem?_take_of_lt hmod, List.getElem?_drop, hdiv]
    exact hrow
  rw [← hsame.1] at hmem
  have hholds := (mem_filter.1 (mem_of_mem_take hmem)).2
  rw [all_some,
    keysetHolds_iff (mem_rows_of_matching hmatching) haccepted.length_eq] at hholds
  exact hholds.1

/-- A cursor leads on if and only if it separates the rows, as no null stands behind them. -/
theorem continues_iff (hrow : (r.matching weigh)[(k + 1) * r.limit - 1]? = some row)
    (hpresent : ∀ next ∈ (r.matching weigh).drop ((k + 1) * r.limit), r.Present next)
    (hrest : (r.matching weigh).drop ((k + 1) * r.limit) ≠ []) : r.Continues weigh k ↔
      ∃ values, r.Separates weigh values row ((r.matching weigh).drop ((k + 1) * r.limit)) := by
  have hpos : 0 < (k + 1) * r.limit := Nat.mul_pos k.succ_pos r.limit_pos
  obtain ⟨i, hi⟩ : ∃ i, (k + 1) * r.limit = i + 1 := ⟨(k + 1) * r.limit - 1, by omega⟩
  rw [Continues, Paging.Continues]
  rw [hi] at hrow hpresent hrest ⊢
  rw [Nat.add_sub_cancel] at hrow ⊢
  obtain ⟨next, others, hcons⟩ := exists_cons_of_ne_nil hrest
  have hnext : (r.matching weigh)[i + 1]? = some next := by
    rw [← Nat.add_zero (i + 1), ← List.getElem?_drop, hcons]
    rfl
  have hhead (p : Row → Bool) : (∀ x ∈ ((r.matching weigh).drop (i + 1)).head?, p x = true) ↔
      ∀ x, (r.matching weigh)[i + 1]? = some x → p x = true := by
    rw [hcons, hnext]
    simp
  constructor
  · rintro ⟨row', _, _, hrow', hmark, haccept, hsame⟩
    obtain rfl : row' = row := some.inj (hrow'.symm.trans hrow)
    obtain ⟨values, rfl, -, hreturned⟩ := (r.mark_eq).1 hmark
    obtain ⟨haccepted, rfl⟩ := (r.accept_eq weigh).1 haccept
    rw [select_eq, samePage_take] at hsame
    have hsorted := pairwise_keysetHolds haccepted.length_eq hnext hpresent
    have hcuts := (filter_resumes_iff r.limit_pos (nodup_matching r) hsorted hrow).1 hsame.1
    exact ⟨values, hreturned, haccepted, hcuts.1, (hhead _).2 hcuts.2, hpresent⟩
  · rintro ⟨values, hseparates⟩
    have hlen := hseparates.accepted.length_eq
    have hsorted := pairwise_keysetHolds hlen hnext hpresent
    have hcuts : Paging.Cuts (r.keysetHolds weigh values) (r.matching weigh) row (i + 1) :=
      ⟨hseparates.front, (hhead _).1 hseparates.next⟩
    have hempty : "" ∉ values := fun h => by
      have hblank := (hseparates.accepted.texts "" h).1
      exact absurd hblank (by decide)
    refine ⟨row, some values, _, hrow, (r.mark_eq).2 ⟨values, rfl, hempty, hseparates.returned⟩,
      (r.accept_eq weigh).2 ⟨hseparates.accepted, rfl⟩, ?_⟩
    rw [select_eq, samePage_take]
    change Paging.SamePage _ ((r.matching weigh).filter (r.keysetHolds weigh values)) _
    rw [filter_of_cuts hsorted hrow hcuts]
    exact ⟨rfl, Iff.rfl⟩

end Reading

/-- **Related search is read completely** if and only if the values of the last row of every page
separate it from the rows behind it. -/
theorem reads_iff_holdsWhen : r.Complete weigh ↔ r.HoldsWhen weigh := by
  have hstart : r.accept weigh none = some (r.select weigh none) := rfl
  have hsame : Paging.SamePage r.limit (r.select weigh none) (r.matching weigh) := by
    rw [select_eq, samePage_take]
    simp only [all_none, filter_true]
    exact ⟨rfl, Iff.rfl⟩
  rw [Complete, fetch_eq, probed_reads_iff r.limit_pos _ _ _ _ le_rfl hstart hsame]
  have hrow {k : ℕ} (hk : (k + 1) * r.limit < (r.matching weigh).length) :
      ∃ row, (r.matching weigh)[(k + 1) * r.limit - 1]? = some row :=
    ⟨_, List.getElem?_eq_getElem (by omega)⟩
  constructor
  · intro h k row hrow hrest
    refine (continues_iff hrow (fun next hnext => ?_) hrest).1 (h k ?_)
    · obtain ⟨i, hi⟩ := List.getElem?_of_mem hnext
      rw [List.getElem?_drop] at hi
      exact present_of_continues h (Nat.le_add_right _ i) hi
    · rw [ne_eq, drop_eq_nil_iff] at hrest
      omega
  · intro h k hk
    obtain ⟨row, hrow⟩ := hrow hk
    have hrest : (r.matching weigh).drop ((k + 1) * r.limit) ≠ [] := by
      rw [ne_eq, drop_eq_nil_iff]
      omega
    obtain ⟨values, hseparates⟩ := h k row hrow hrest
    exact (continues_iff hrow hseparates.present hrest).2 ⟨values, hseparates⟩

/-! ### Rows that the client sees as they are stored -/

/-- The client sees the values of the order as they are stored: no other column has their names. -/
def Plain : Prop :=
  ∀ row ∈ r.matching weigh, ∀ f ∈ r.order, (r.returned row).lookup f = some (column row f)

section Plain

variable {r} {weigh} {row : Row} {values : List String}

omit [LinearOrder ω] in
theorem cursorKey_eq (h : r.order.map (column row) = values.map Json.str) :
    r.cursorKey weigh values = r.orderKey weigh row := by
  unfold order at h
  unfold cursorKey orderKey
  have hlen := congrArg List.length h
  generalize r.field = field at h hlen
  cases field with
  | none =>
    obtain ⟨last, rfl⟩ := length_eq_one_iff.1 (show values.length = 1 by simpa using hlen.symm)
    have hid : column row "id" = .str last := by simpa using h
    simp [hid]
  | some f =>
    obtain ⟨first, last, rfl⟩ :=
      length_eq_two.1 (show values.length = 2 by simpa using hlen.symm)
    obtain ⟨hf, hid⟩ : column row f = .str first ∧ column row "id" = .str last := by simpa using h
    simp [hf, hid]

/-- Plain values separate a row from the ones behind it if they are accepted and these have no
nulls. -/
theorem separates_iff_of_plain (hplain : r.Plain weigh) {i : ℕ}
    (hrow : (r.matching weigh)[i]? = some row) :
    (∃ values, r.Separates weigh values row ((r.matching weigh).drop (i + 1))) ↔
      (∃ values, r.order.map (column row) = values.map Json.str ∧ r.Accepted values) ∧
        ∀ next ∈ (r.matching weigh).drop (i + 1), r.Present next := by
  have hmem := mem_of_getElem? hrow
  have hreturned (values : List String) :
      r.order.map (fun f => (r.returned row).lookup f) = values.map (fun v => some (Json.str v)) ↔
        r.order.map (column row) = values.map Json.str := by
    have hleft : r.order.map (fun f => (r.returned row).lookup f) =
        (r.order.map (column row)).map some := by
      rw [List.map_map]
      exact map_congr_left fun f hf => hplain row hmem f hf
    have hright : values.map (fun v => some (Json.str v)) = (values.map Json.str).map some := by
      rw [List.map_map]
      rfl
    rw [hleft, hright]
    exact (map_injective_iff.2 (some_injective _)).eq_iff
  constructor
  · rintro ⟨values, h⟩
    exact ⟨⟨values, (hreturned values).1 h.returned, h.accepted⟩, h.present⟩
  · rintro ⟨⟨values, hvalues, haccepted⟩, hpresent⟩
    have hkey : r.cursorKey weigh values = r.orderKey weigh row := cursorKey_eq hvalues
    refine ⟨values, (hreturned values).2 hvalues, haccepted, ?_, fun next hnext => ?_, hpresent⟩
    · rw [Bool.eq_false_iff, ne_eq,
        keysetHolds_iff (mem_rows_of_matching hmem) haccepted.length_eq, hkey]
      exact fun h => lt_irrefl _ h.2
    · have hbehind := List.mem_of_mem_head? hnext
      obtain ⟨j, hj⟩ := List.getElem?_of_mem hbehind
      rw [List.getElem?_drop] at hj
      obtain ⟨hi, rfl⟩ := List.getElem?_eq_some_iff.1 hrow
      obtain ⟨hj', rfl⟩ := List.getElem?_eq_some_iff.1 hj
      rw [keysetHolds_iff (mem_rows_of_matching (mem_of_mem_drop hbehind))
        haccepted.length_eq, hkey]
      refine ⟨hpresent _ hbehind, ?_⟩
      exact pairwise_iff_getElem.1 (pairwise_matching r) _ _ hi hj' (by omega)

end Plain

/-- **Plain tables are read completely** if the order of every matching row has texts that a cursor
accepts. -/
theorem complete_of_plain (hplain : r.Plain weigh)
    (h : ∀ row ∈ r.matching weigh,
      ∃ values, r.order.map (column row) = values.map Json.str ∧ r.Accepted values) :
    r.Complete weigh := by
  have hpresent : ∀ row ∈ r.matching weigh, r.Present row := by
    intro row hrow f hf hnull
    obtain ⟨values, hvalues, -⟩ := h row hrow
    have hmem : column row f ∈ r.order.map (column row) :=
      mem_map_of_mem (mem_append_left _ (Option.mem_toList.2 hf))
    rw [hvalues, hnull] at hmem
    obtain ⟨_, -, htext⟩ := mem_map.1 hmem
    cases htext
  have hstart : r.accept weigh none = some (r.select weigh none) := rfl
  have hsame : Paging.SamePage r.limit (r.select weigh none) (r.matching weigh) := by
    rw [select_eq, Paging.samePage_take]
    simp only [all_none, filter_true]
    exact ⟨rfl, Iff.rfl⟩
  rw [Complete, fetch_eq, Paging.probed_reads_iff r.limit_pos _ _ _ _ le_rfl hstart hsame]
  intro k hk
  have hpos : 0 < (k + 1) * r.limit := Nat.mul_pos k.succ_pos r.limit_pos
  obtain ⟨i, hi⟩ : ∃ i, (k + 1) * r.limit = i + 1 := ⟨(k + 1) * r.limit - 1, by omega⟩
  have hrow : (r.matching weigh)[i]? = some _ := List.getElem?_eq_getElem (by omega)
  obtain ⟨values, hseparates⟩ := (separates_iff_of_plain hplain hrow).2
    ⟨h _ (getElem_mem _), fun next hnext => hpresent next (mem_of_mem_drop hnext)⟩
  rw [← hi] at hseparates
  refine (continues_iff ?_ hseparates.present ?_).2 ⟨values, hseparates⟩
  · rwa [hi, Nat.add_sub_cancel]
  · rw [ne_eq, drop_eq_nil_iff]
    omega

end Collation

end Request

/-! ### Nulls in the order -/

namespace Untitled

/-- Two notes without a title, in a collection. -/
def tables : Related.Database where
  tables :=
    [("notes", [[("id", .str "1"), ("title", .null), ("collection", .str "c")],
      [("id", .str "2"), ("title", .null), ("collection", .str "c")]]),
      ("collections", [[("id", .str "c"), ("open", .num 1)]])]
  text _ := ""

/-- The notes of open collections by their titles, one at a time. -/
def request : Request where
  provider := .d1
  env := .simple
  config :=
    { schema := some [("title", some { type := .string }),
        ("collection", some { type := .string })] }
  database := tables
  table := "notes"
  finds _ := true
  annotate row := row
  numberText q := q.num.toNat.repr
  body := [("limit", .num 1)]
  field := some "title"
  limit := 1
  relation :=
    { localField := "collection", table := "collections"
      whereAll := [⟨"open", .eq (.bool true)⟩] }
  field_ne_id := by decide
  order_isText := by decide +kernel
  limit_pos := by decide
  limit_le := by decide
  payload_le := by decide +kernel
  authority := nofun
  ids_text := by simp [tables, Related.Database.rows, column]
  ids_distinct := by decide +kernel
  field_text := by simp [tables, Related.Database.rows, List.lookup_cons, column]

def byId : Request :=
  { request with
    field := none
    field_ne_id := by decide
    order_isText := by decide +kernel
    field_text := by simp }

end Untitled

theorem byId_complete : Untitled.byId.Complete (Function.Embedding.refl String) := by
  have hplain : Untitled.byId.Plain (Function.Embedding.refl String) := by
    unfold Request.Plain
    decide +kernel
  refine Request.complete_of_plain _ _ hplain ?_
  have hall : ∀ row ∈ Untitled.byId.matching (Function.Embedding.refl String),
      column row "id" = .str "1" ∨ column row "id" = .str "2" := by decide +kernel
  intro row hrow
  have haccepted : ∀ id ∈ ["1", "2"], Untitled.byId.Accepted [id] := by
    intro id hid
    refine ⟨rfl, forall_mem_singleton.2 ?_, ?_⟩
    · revert id
      unfold Request.Acceptable
      decide +kernel
    · revert id
      decide +kernel
  rcases hall row hrow with hid | hid
  · exact ⟨["1"], congrArg (fun v => [v]) hid, haccepted "1" (by decide)⟩
  · exact ⟨["2"], congrArg (fun v => [v]) hid, haccepted "2" (by decide)⟩

/-- The first of two notes without a title has no cursor. -/
theorem untitled_not_complete : ¬ Untitled.request.Complete (Function.Embedding.refl String) := by
  intro h
  refine h.fetch_ne_none ?_
  decide +kernel

end RelatedPages

end EdgeBase
