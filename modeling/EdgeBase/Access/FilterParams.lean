import EdgeBase.Live.Conditions
import EdgeBase.Query
import EdgeBase.Rows

/-!
# The parameters `filter` and `orFilter`

A client states conditions as JSON in the query string.  What is no JSON is ignored, and so is a
list of more than five alternatives; everything else goes to the builder of the `WHERE` clause as it
is, whatever its shape.

* `FilterParams.Honoured`, `FilterParams.honoured` : conditions that are stated as they should be
  are obeyed or refused.
-/

namespace EdgeBase

open List

namespace FilterParams

/-- A condition as the builder compiles it; the value may be missing. -/
structure RawCondition where
  field : String
  op : String
  value : Option Json
  deriving DecidableEq

def typeError : HttpError := ⟨500, "Internal server error."⟩

def tuple (t : FilterTuple) : Json := .arr [.str t.field, .str t.op, t.value]

def raw (t : FilterTuple) : RawCondition := ⟨t.field, t.op, some t.value⟩

def iterate : Json → Option (List Json)
  | .arr items => some items
  | .str s => some (s.toList.map fun c => .str (String.ofList [c]))
  | _ => none

section Parse

variable (text : NumberText) (parseJson : String → Option Json)

/-- `parseQueryParams`, on `filter`: what is no JSON is ignored. -/
def parseFilter (param : Option String) : Option Json := (param.filter (· ≠ "")).bind parseJson

/-- Whether `value.length <= 5`; what throws is ignored as well. -/
def atMostFive : Json → Bool
  | .arr items => items.length ≤ 5
  | .str s => s.toList.flatMap (fun c => codeUnits (String.ofList [c])) |>.length |> (· ≤ 5)
  | .obj fields => Comparison.inScript text .le (fields.lookup "length") (some (.num 5)) = some true
  | _ => false

/-- `parseQueryParams`, on `orFilter`. -/
def parseOrFilter (param : Option String) : Option Json :=
  (parseFilter parseJson param).filter (atMostFive text)

end Parse

/-! ### The conditions of a value -/

section Build

variable (text : NumberText) (dialect : SqlDialect)

def normalizeValue : Json → Json
  | .arr vs => .arr (vs.map booleanAsNumber)
  | v => booleanAsNumber v

/-- `normalizeTuple`, on an element of any shape. -/
def normalizeElement (schema : UserSchema) (element : Json) : Except HttpError Json :=
  match iterate element with
  | none => .error typeError
  | some parts =>
    -- the field is made a key of the schema
    match parts.head?.elim (some "undefined") (Json.toText text) with
    | none => .error typeError
    | some key =>
      match schema.lookup key, parts with
      | some (some config), field :: op :: value :: _ =>
        if config.type = .boolean ∧ normalizeValue value ≠ value then
          .ok (.arr [field, op, normalizeValue value])
        else .ok element
      | _, _ => .ok element

/-- `options.filters?.map(normalizeTuple)`, if there is a schema. -/
def mapTuples (schema : Option UserSchema) (value : Option Json) : Except HttpError (Option Json) :=
  match schema, value with
  | none, value => .ok value
  | some _, none => .ok none
  | some _, some .null => .ok none
  | some schema, some (.arr elements) => do
    let elements ← elements.mapM (normalizeElement text schema)
    return some (.arr elements)
  | some _, some _ => .error typeError

/-- The operators whose value is a list, which PostgreSQL is given element by element. -/
def listOperators : List String := ["in", "not in", "not-in", "contains-any"]

/-- `buildFilterCondition`, on an element of any shape. -/
def conditionOf (element : Json) : Except HttpError RawCondition :=
  match iterate element with
  | none => .error typeError
  | some parts =>
    match (parts[0]? : Option Json) with
    | some (.str field) =>
      match (parts[1]? : Option Json) with
      | some (.str op) =>
        if op ∈ filterOperators then
          if dialect = .postgres ∧ op ∈ listOperators ∧ (parts[2]?.bind iterate).isNone then
            .error typeError
          else .ok ⟨field, op, parts[2]?⟩
        else .error ⟨400, s!"Unsupported filter operator: {op}"⟩
      | op =>
        match op.elim (some "undefined") (Json.toText text) with
        | some op => .error ⟨400, s!"Unsupported filter operator: {op}"⟩
        | none => .error typeError
    | _ => .error typeError

/-- The loop over the conditions of a parameter, if its `length` is truthy. -/
def conditionsOf : Option Json → Except HttpError (List RawCondition)
  | some (.arr elements) => elements.mapM (conditionOf text dialect)
  | some (.str s) =>
    (s.toList.map fun c => Json.str (String.ofList [c])).mapM (conditionOf text dialect)
  | some (.obj fields) =>
    if ((fields.lookup "length").map Json.truthy).getD false then .error typeError else .ok []
  | _ => .ok []

end Build

/-! ### Requests -/

structure Others where
  after : Option String
  before : Option String
  search : String

inductive Request where
  | list
  | count
  | search
  deriving DecidableEq

/-- A statement that is executed, up to its order and its limit. -/
structure Selection where
  filters : List RawCondition
  orFilters : List RawCondition
  after : Option String := none
  before : Option String := none
  search : Option String := none
  deriving DecidableEq

/-- What the conditions of a statement mean to a database. -/
structure Meaning where
  holds : RawCondition → Row → Bool
  above : String → Row → Bool
  below : String → Row → Bool
  finds : String → Row → Bool

def Selection.selects (m : Meaning) (s : Selection) (row : Row) : Bool :=
  s.filters.all (m.holds · row) && (s.orFilters.isEmpty || s.orFilters.any (m.holds · row)) &&
    s.after.all (m.above · row) && s.before.all (m.below · row) && s.search.all (m.finds · row)

/-- The statements of a request: the page, and the exact total where it may be asked for. -/
def statements (request : Request) (others : Others) (filters orFilters : List RawCondition) :
    List Selection :=
  let search := some others.search |>.filter (· ≠ "")
  let page : Selection := { filters, orFilters, after := others.after, before := others.before }
  match request with
  | .count => [{ filters, orFilters }]
  | .list =>
    { page with search } ::
      if others.after.isSome || others.before.isSome then [] else [{ filters, orFilters, search }]
  | .search =>
    if search.isNone then [] else [{ page with search }, { filters, orFilters, search }]

/-- A provider: a dialect, and the schema of the table if booleans are stored as numbers. -/
structure Provider where
  dialect : SqlDialect
  schema : Option UserSchema

/-- The parameters of a request; the rest may be invalid. -/
structure Params where
  filter : Option String
  orFilter : Option String
  others : Except String Others

def answer (text : NumberText) (parseJson : String → Option Json) (p : Provider)
    (request : Request) (params : Params) : Except HttpError (List Selection) := do
  let others ← params.others.mapError (⟨400, ·⟩)
  let filters ← mapTuples text p.schema (parseFilter parseJson params.filter)
  let orFilters ← mapTuples text p.schema (parseOrFilter text parseJson params.orFilter)
  if request = .search ∧ others.search = "" then return []
  let filters ← conditionsOf text p.dialect filters
  let orFilters ← conditionsOf text p.dialect orFilters
  if orFilters.length > 5 then
    .error ⟨400, "OR_FILTER_LIMIT_EXCEEDED: maximum 5 conditions in OR group"⟩
  else return statements request others filters orFilters

/-! ### Conditions that are stated as they should be -/

/-- A condition as a provider compiles it: with the booleans that it stores. -/
def Provider.normalized (p : Provider) (t : FilterTuple) : FilterTuple :=
  p.schema.elim t (normalizeTuple · t)

section WellFormed

variable {text : NumberText} {dialect : SqlDialect}

theorem normalizeTuple_eq (schema : UserSchema) (t : FilterTuple) :
    normalizeTuple schema t = match schema.lookup t.field with
      | some (some config) =>
        if config.type = .boolean then { t with value := normalizeValue t.value } else t
      | _ => t := by
  unfold normalizeTuple
  cases schema.lookup t.field with
  | none => rfl
  | some config =>
    cases config with
    | none => rfl
    | some config =>
      refine if_congr Iff.rfl ?_ rfl
      cases t.value <;> rfl

theorem normalized_op (p : Provider) (t : FilterTuple) : (p.normalized t).op = t.op := by
  obtain ⟨dialect, schema⟩ := p
  cases schema with
  | none => rfl
  | some schema =>
    change (normalizeTuple schema t).op = t.op
    rw [normalizeTuple_eq]
    split
    · split_ifs <;> rfl
    · rfl

theorem normalizeElement_tuple (schema : UserSchema) (t : FilterTuple) :
    normalizeElement text schema (tuple t) = .ok (tuple (normalizeTuple schema t)) := by
  rw [normalizeTuple_eq]
  simp only [normalizeElement, tuple, iterate, List.head?_cons, Option.elim_some, Json.toText]
  cases schema.lookup t.field with
  | none => rfl
  | some config =>
    cases config with
    | none => rfl
    | some config =>
      by_cases htype : config.type = .boolean
      · by_cases hvalue : normalizeValue t.value = t.value
        · simp [htype, hvalue]
        · simp [htype, hvalue]
      · simp [htype]

theorem mapTuples_tuples (p : Provider) (ts : List FilterTuple) :
    mapTuples text p.schema (some (.arr (ts.map tuple))) =
      .ok (some (.arr ((ts.map p.normalized).map tuple))) := by
  obtain ⟨dialect, schema⟩ := p
  cases schema with
  | none => simp [mapTuples, Provider.normalized]
  | some schema =>
    have helements : (ts.map tuple).mapM (normalizeElement text schema) =
        .ok ((ts.map (normalizeTuple schema)).map tuple) := by
      induction ts with
      | nil => rfl
      | cons t ts ih =>
        rw [map_cons, mapM_cons, normalizeElement_tuple, ih]
        rfl
    simp only [mapTuples, helements]
    rfl

/-- The builder compiles a condition, or refuses it; only a value that PostgreSQL cannot take apart
makes it throw. -/
theorem conditionOf_tuple (t : FilterTuple) :
    conditionOf text dialect (tuple t) =
      if t.op ∈ filterOperators then
        if dialect = .postgres ∧ t.op ∈ listOperators ∧ (iterate t.value).isNone then
          .error typeError
        else .ok (raw t)
      else .error ⟨400, s!"Unsupported filter operator: {t.op}"⟩ := rfl

theorem conditionsOf_tuples {ts : List FilterTuple} {cs : List RawCondition}
    (h : conditionsOf text dialect (some (.arr (ts.map tuple))) = .ok cs) : cs = ts.map raw := by
  change (ts.map tuple).mapM (conditionOf text dialect) = .ok cs at h
  induction ts generalizing cs with
  | nil => exact (Except.ok.inj h).symm
  | cons t ts ih =>
    rw [map_cons, mapM_cons] at h
    obtain ⟨c, hc, h⟩ := Except.bind_eq_ok.1 h
    obtain ⟨cs', hcs', h⟩ := Except.bind_eq_ok.1 h
    obtain rfl := Except.ok.inj h
    rw [conditionOf_tuple] at hc
    split_ifs at hc
    rw [ih hcs', ← Except.ok.inj hc, map_cons]

theorem conditionsOf_error {ts : List FilterTuple} {e : HttpError}
    (h : conditionsOf text dialect (some (.arr (ts.map tuple))) = .error e) : e.status = 400 ∨
      dialect = .postgres ∧ ∃ t ∈ ts, t.op ∈ listOperators ∧ iterate t.value = none := by
  change (ts.map tuple).mapM (conditionOf text dialect) = .error e at h
  induction ts with
  | nil => exact nomatch h
  | cons t ts ih =>
    rw [map_cons, mapM_cons] at h
    cases hc : conditionOf text dialect (tuple t) with
    | ok c =>
      rw [hc] at h
      cases hcs : (ts.map tuple).mapM (conditionOf text dialect) with
      | ok cs =>
        rw [hcs] at h
        exact nomatch h
      | error e' =>
        rw [hcs] at h
        obtain rfl : e' = e := Except.error.inj h
        refine (ih hcs).imp_right fun ⟨hdialect, u, hu, hlist⟩ => ?_
        exact ⟨hdialect, u, mem_cons_of_mem _ hu, hlist⟩
    | error e' =>
      rw [hc] at h
      obtain rfl : e' = e := Except.error.inj h
      rw [conditionOf_tuple] at hc
      split_ifs at hc with hop hlist
      · exact .inr ⟨hlist.1, t, mem_cons_self, hlist.2.1, by simpa using hlist.2.2⟩
      · exact .inl (by rw [← Except.error.inj hc])

end WellFormed

/-! ### What becomes of the parameters -/

section Answer

variable {text : NumberText} {parseJson : String → Option Json} {p : Provider} {request : Request}
  {params : Params}

theorem conditions_of_mem {others : Others} {filters orFilters : List RawCondition} {s : Selection}
    (hs : s ∈ statements request others filters orFilters) :
    s.filters = filters ∧ s.orFilters = orFilters := by
  unfold statements at hs
  cases request with
  | list =>
    obtain rfl | hs := mem_cons.1 hs
    · exact ⟨rfl, rfl⟩
    · split_ifs at hs
      · exact absurd hs not_mem_nil
      · obtain rfl := mem_singleton.1 hs
        exact ⟨rfl, rfl⟩
  | count =>
    obtain rfl := mem_singleton.1 hs
    exact ⟨rfl, rfl⟩
  | search =>
    dsimp only at hs
    split_ifs at hs
    · exact absurd hs not_mem_nil
    · obtain rfl | hs := mem_cons.1 hs
      · exact ⟨rfl, rfl⟩
      · obtain rfl := mem_singleton.1 hs
        exact ⟨rfl, rfl⟩

theorem conditions_of_answer {ss : List Selection}
    (h : answer text parseJson p request params = .ok ss) {s : Selection} (hs : s ∈ ss) :
    (∃ filters, mapTuples text p.schema (parseFilter parseJson params.filter) = .ok filters ∧
      conditionsOf text p.dialect filters = .ok s.filters) ∧
    ∃ orFilters, mapTuples text p.schema (parseOrFilter text parseJson params.orFilter) =
      .ok orFilters ∧ conditionsOf text p.dialect orFilters = .ok s.orFilters := by
  unfold answer at h
  obtain ⟨others, -, h⟩ := Except.bind_eq_ok.1 h
  obtain ⟨filters, hfilters, h⟩ := Except.bind_eq_ok.1 h
  obtain ⟨orFilters, hor, h⟩ := Except.bind_eq_ok.1 h
  split_ifs at h
  · obtain rfl := Except.ok.inj h
    exact absurd hs not_mem_nil
  · obtain ⟨fs, hfs, h⟩ := Except.bind_eq_ok.1 h
    obtain ⟨os, hos, h⟩ := Except.bind_eq_ok.1 h
    split_ifs at h
    obtain rfl := Except.ok.inj h
    obtain ⟨rfl, rfl⟩ := conditions_of_mem hs
    exact ⟨⟨filters, hfilters, hfs⟩, orFilters, hor, hos⟩

def States (value : Option Json) (ts : List FilterTuple) : Prop :=
  value = some (.arr (ts.map tuple)) ∨ value = none ∧ ts = []

theorem States.mapTuples (text : NumberText) (p : Provider) {value : Option Json}
    {ts : List FilterTuple} (h : States value ts) :
    ∃ value', mapTuples text p.schema value = .ok value' ∧ States value' (ts.map p.normalized) := by
  obtain rfl | ⟨rfl, rfl⟩ := h
  · exact ⟨_, mapTuples_tuples p ts, .inl rfl⟩
  · refine ⟨none, ?_, .inr ⟨rfl, rfl⟩⟩
    cases hschema : p.schema <;> rfl

theorem States.conditionsOf_error {value : Option Json} {ts : List FilterTuple} {e : HttpError}
    (h : States value ts) (he : conditionsOf text p.dialect value = .error e) : e.status = 400 ∨
      p.dialect = .postgres ∧ ∃ t ∈ ts, t.op ∈ listOperators ∧ iterate t.value = none := by
  obtain rfl | ⟨rfl, rfl⟩ := h
  · exact FilterParams.conditionsOf_error he
  · exact nomatch he

/-- A list of conditions for PostgreSQL whose value is not a list. -/
def Scalar (p : Provider) (ts : List FilterTuple) : Prop :=
  p.dialect = .postgres ∧ ∃ t ∈ ts, t.op ∈ listOperators ∧ iterate (p.normalized t).value = none

theorem status_of_answer {e : HttpError} (h : answer text parseJson p request params = .error e)
    {fs os : List FilterTuple} (hfs : States (parseFilter parseJson params.filter) fs)
    (hos : States (parseOrFilter text parseJson params.orFilter) os) :
    e.status = 400 ∨ Scalar p (fs ++ os) := by
  have hscalar {ts : List FilterTuple} (hts : ∀ t ∈ ts, t ∈ fs ++ os)
      (he : e.status = 400 ∨ p.dialect = .postgres ∧
        ∃ t ∈ ts.map p.normalized, t.op ∈ listOperators ∧ iterate t.value = none) :
      e.status = 400 ∨ Scalar p (fs ++ os) := by
    refine he.imp_right fun ⟨hdialect, t, ht, hlist, hvalue⟩ => ?_
    obtain ⟨u, hu, rfl⟩ := mem_map.1 ht
    exact ⟨hdialect, u, hts u hu, normalized_op p u ▸ hlist, hvalue⟩
  obtain ⟨filters, hfilters, hfs⟩ := hfs.mapTuples text p
  obtain ⟨orFilters, hor, hos⟩ := hos.mapTuples text p
  unfold answer at h
  cases hothers : params.others with
  | error message =>
    rw [hothers] at h
    exact .inl (by rw [← Except.error.inj h])
  | ok others =>
    rw [hothers, hfilters, hor] at h
    change (if request = .search ∧ others.search = "" then _ else _) = _ at h
    split_ifs at h
    · exact nomatch h
    cases hfs' : conditionsOf text p.dialect filters with
    | error e' =>
      rw [hfs'] at h
      obtain rfl : e' = e := Except.error.inj h
      exact hscalar (fun t ht => mem_append_left _ ht) (hfs.conditionsOf_error hfs')
    | ok fs' =>
      cases hos' : conditionsOf text p.dialect orFilters with
      | error e' =>
        rw [hfs', hos'] at h
        obtain rfl : e' = e := Except.error.inj h
        exact hscalar (fun t ht => mem_append_right _ ht) (hos.conditionsOf_error hos')
      | ok os' =>
        rw [hfs', hos'] at h
        change (if os'.length > 5 then _ else _) = _ at h
        split_ifs at h
        · exact .inl (by rw [← Except.error.inj h])
        · exact nomatch h

theorem answer_congr {params' : Params}
    (hfilter : parseFilter parseJson params.filter = parseFilter parseJson params'.filter)
    (hor : parseOrFilter text parseJson params.orFilter =
      parseOrFilter text parseJson params'.orFilter) (hothers : params.others = params'.others) :
    answer text parseJson p request params = answer text parseJson p request params' := by
  simp only [answer, hfilter, hor, hothers]

end Answer

/-- What becomes of the conditions of a request: the ones that are stated as they should be are
obeyed or refused, and what is no JSON, or too many alternatives, is ignored. -/
structure Honoured (text : NumberText) (parseJson : String → Option Json) (p : Provider)
    (request : Request) (params : Params) : Prop where
  obeyed : ∀ ss, answer text parseJson p request params = .ok ss → ∀ s ∈ ss, ∀ m row,
    s.selects m row = true →
      (∀ ts : List FilterTuple, parseFilter parseJson params.filter = some (.arr (ts.map tuple)) →
        ∀ t ∈ ts, m.holds (raw (p.normalized t)) row = true) ∧
      ∀ ts : List FilterTuple, parseFilter parseJson params.orFilter = some (.arr (ts.map tuple)) →
        ts ≠ [] → ts.length ≤ 5 → ∃ t ∈ ts, m.holds (raw (p.normalized t)) row = true
  refused : ∀ e, answer text parseJson p request params = .error e → ∀ fs os,
    States (parseFilter parseJson params.filter) fs →
    States (parseOrFilter text parseJson params.orFilter) os →
      e.status = 400 ∨ Scalar p (fs ++ os)
  filter_ignored : parseFilter parseJson params.filter = none →
    answer text parseJson p request params =
      answer text parseJson p request { params with filter := none }
  orFilter_ignored : (parseFilter parseJson params.orFilter = none ∨
      ∃ vs : List Json, parseFilter parseJson params.orFilter = some (.arr vs) ∧ 5 < vs.length) →
    answer text parseJson p request params =
      answer text parseJson p request { params with orFilter := none }

theorem honoured (text : NumberText) (parseJson : String → Option Json) (p : Provider)
    (request : Request) (params : Params) : Honoured text parseJson p request params where
  obeyed ss hss s hs m row hrow := by
    obtain ⟨⟨filters, hfilters, hfs⟩, orFilters, hor, hos⟩ := conditions_of_answer hss hs
    simp only [Selection.selects, Bool.and_eq_true] at hrow
    obtain ⟨⟨⟨⟨hall, hany⟩, -⟩, -⟩, -⟩ := hrow
    constructor
    · intro ts hts t ht
      rw [hts, mapTuples_tuples] at hfilters
      obtain rfl := Except.ok.inj hfilters
      rw [conditionsOf_tuples hfs] at hall
      refine all_eq_true.1 hall _ (mem_map.2 ⟨p.normalized t, ?_, rfl⟩)
      exact mem_map_of_mem ht
    · intro ts hts hne hlen
      have hparse : parseOrFilter text parseJson params.orFilter = some (.arr (ts.map tuple)) := by
        rw [parseOrFilter, hts]
        exact if_pos (by simpa [atMostFive] using hlen)
      rw [hparse, mapTuples_tuples] at hor
      obtain rfl := Except.ok.inj hor
      rw [conditionsOf_tuples hos] at hany
      obtain hempty | hany := Bool.or_eq_true_iff.1 hany
      · simp only [List.isEmpty_iff, map_eq_nil_iff] at hempty
        exact absurd hempty hne
      · obtain ⟨c, hc, hholds⟩ := any_eq_true.1 hany
        obtain ⟨u, hu, rfl⟩ := mem_map.1 hc
        obtain ⟨t, ht, rfl⟩ := mem_map.1 hu
        exact ⟨t, ht, hholds⟩
  refused e he fs os hfs hos := status_of_answer he hfs hos
  filter_ignored h := answer_congr h rfl rfl
  orFilter_ignored h := by
    refine answer_congr rfl ?_ rfl
    obtain h | ⟨vs, h, hlen⟩ := h
    · rw [parseOrFilter, h]
      rfl
    · rw [parseOrFilter, h]
      exact if_neg (by simpa [atMostFive] using hlen)

/-! ### What would be asked for -/

/-- No condition is dropped: a request is refused, or what it selects satisfies the conditions as
they were sent. -/
def NothingDropped (text : NumberText) (parseJson : String → Option Json) (p : Provider)
    (request : Request) (params : Params) : Prop :=
  match answer text parseJson p request params with
  | .error e => 400 ≤ e.status ∧ e.status < 500
  | .ok ss => ∀ s ∈ ss, ∀ m row, s.selects m row = true →
      (∀ ts : List FilterTuple, parseFilter parseJson params.filter = some (.arr (ts.map tuple)) →
        ∀ t ∈ ts, m.holds (raw (p.normalized t)) row = true) ∧
      (∀ ts : List FilterTuple, parseFilter parseJson params.orFilter = some (.arr (ts.map tuple)) →
        ∃ t ∈ ts, m.holds (raw (p.normalized t)) row = true) ∧
      (params.filter.isSome → parseFilter parseJson params.filter = none → s.filters ≠ [])

namespace Dropped

def six : List FilterTuple := List.replicate 6 ⟨"status", "==", .str "published"⟩

def parse (s : String) : Option Json := if s = "six" then some (.arr (six.map tuple)) else none

def text : NumberText := ⟨fun _ => "", fun _ => none⟩

def others : Others := ⟨none, none, ""⟩

def crowded : Params := ⟨none, some "six", .ok others⟩

def broken : Params := ⟨some "[", none, .ok others⟩

/-- A meaning that makes no condition true. -/
def never : Meaning := ⟨fun _ _ => false, fun _ _ => true, fun _ _ => true, fun _ _ => true⟩

end Dropped

open Dropped in
/-- Six alternatives, or an unfinished list, make a request for all rows. -/
theorem sixAlternatives_dropped : ¬ NothingDropped text parse ⟨.sqlite, none⟩ .list crowded ∧
      ¬ NothingDropped text parse ⟨.sqlite, none⟩ .list broken := by
  constructor
  · intro h
    have hparse : parseFilter parse crowded.orFilter = some (.arr (six.map tuple)) := rfl
    obtain ⟨t, -, ht⟩ := (h ⟨[], [], none, none, none⟩ (by decide) never [] rfl).2.1 six hparse
    exact nomatch ht
  · intro h
    exact (h ⟨[], [], none, none, none⟩ (by decide) never [] rfl).2.2 rfl rfl rfl

end FilterParams

end EdgeBase
