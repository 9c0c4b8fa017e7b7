import EdgeBase.Lib.LikePattern
import EdgeBase.RelatedSearch
import Mathlib.Data.String.Basic
import Mathlib.Data.List.Infix

/-!
# What the conditions of a filter mean

A filter is compiled to other constructs on SQLite than on PostgreSQL.  `SqlCondition` has all of
them, each with the text that the query engine assembles of it, and the two databases say of the
value of a column whether the condition holds.

* `compileFilter` : the conditions.
-/

namespace EdgeBase

/-! ### Conditions -/

inductive SqlComparison where
  | eq
  | ne
  | gt
  | lt
  | ge
  | le
  deriving DecidableEq

def SqlComparison.text : SqlComparison → String
  | .eq => "="
  | .ne => "!="
  | .gt => ">"
  | .lt => "<"
  | .ge => ">="
  | .le => "<="

inductive SqlCondition where
  /-- `column IS NULL`. -/
  | isNull
  /-- `column IS NOT NULL`. -/
  | isNotNull
  /-- `column op ?`. -/
  | compare (op : SqlComparison) (value : Json)
  /-- `INSTR(column, ?) > 0`. -/
  | instr (value : Json)
  /-- `column ILIKE '%' || ? || '%'`. -/
  | ilike (value : Json)
  /-- `column IN (SELECT value FROM json_each(?))`, or `NOT IN`. -/
  | inEach (negated : Bool) (value : Json)
  /-- `column IN (?, ...)`, or `NOT IN`: so many placeholders, and the values for them. -/
  | inList (negated : Bool) (count : ℕ) (values : List Json)
  /-- `EXISTS (SELECT 1 FROM json_each(column) WHERE value IN (SELECT value FROM json_each(?)))`. -/
  | overlapsEach (value : Json)
  /-- `column::jsonb ?| ARRAY[?, ...]`. -/
  | overlapsList (count : ℕ) (values : List Json)
  deriving DecidableEq

namespace QueryText

/-- The number of UTF-16 code units of a text: its `length`. -/
def utf16Length (s : String) : ℕ := (s.toList.map fun c => if c.val < 65536 then 1 else 2).sum

/-- The `length` of a value, and what spreading it gives; `none` when that throws. -/
def spread : Json → Option (ℕ × List Json)
  | .arr values => some (values.length, values)
  | .str s => some (utf16Length s, s.toList.map fun c => .str (String.ofList [c]))
  | _ => none

/-- The error of a value that cannot be spread. -/
def notIterable : HttpError := ⟨500, "Spread syntax requires an iterable."⟩

end QueryText

def elementsOf (dialect : SqlDialect) (value : Json) (sqlite : SqlCondition)
    (postgres : ℕ → List Json → SqlCondition) : Except HttpError SqlCondition :=
  match dialect with
  | .sqlite => .ok sqlite
  | .postgres =>
    match QueryText.spread value with
    | none => .error QueryText.notIterable
    | some (count, values) => .ok (postgres count values)

/-- The condition of `buildFilterCondition`. -/
def compileFilter (dialect : SqlDialect) (t : FilterTuple) : Except HttpError SqlCondition :=
  match t.op with
  | "==" => .ok (if t.value = .null then .isNull else .compare .eq t.value)
  | "!=" => .ok (if t.value = .null then .isNotNull else .compare .ne t.value)
  | ">" => .ok (.compare .gt t.value)
  | "<" => .ok (.compare .lt t.value)
  | ">=" => .ok (.compare .ge t.value)
  | "<=" => .ok (.compare .le t.value)
  | "contains" =>
    match dialect with
    | .postgres => .ok (.ilike t.value)
    | .sqlite => .ok (.instr t.value)
  | "in" => elementsOf dialect t.value (.inEach false t.value) (.inList false)
  | "not in" | "not-in" => elementsOf dialect t.value (.inEach true t.value) (.inList true)
  | "contains-any" => elementsOf dialect t.value (.overlapsEach t.value) .overlapsList
  | op => .error ⟨400, s!"Unsupported filter operator: {op}"⟩

/-! ### Values -/

inductive ColumnType where
  | string
  | number
  | boolean
  deriving DecidableEq

/-- Whether a value that is not null is one of a type; PostgreSQL has no texts with `NUL`. -/
def ColumnType.Has : ColumnType → Json → Prop
  | .string, .str s => Char.ofNat 0 ∉ s.toList
  | .number, .num _ => True
  | .boolean, .bool _ => True
  | _, _ => False

instance (type : ColumnType) (v : Json) : Decidable (type.Has v) := by
  unfold ColumnType.Has
  split <;> infer_instance

/-- The rows that `json_each` makes of a value. -/
def jsonEach : Json → List Json
  | .arr items => items
  | .obj fields => fields.map Prod.snd
  | v => [v]

/-- `jsonb ? text`: a key of an object, or a text in an array. -/
def jsonbHas (v : Json) (s : String) : Bool :=
  match v with
  | .obj fields => (fields.map Prod.fst).contains s
  | .arr items => items.contains (.str s)
  | .str t => t = s
  | _ => false

def PlainText (s : String) : Prop := LikePattern.Plain s.toList

instance (s : String) : Decidable (PlainText s) := inferInstanceAs (Decidable (LikePattern.Plain _))

/-- What is known of the two databases and their drivers: the collation of PostgreSQL by its sort
keys and its lower case, how they take a value that is bound for a column, and how they read a text
as JSON. -/
structure Engines (ω : Type) where
  weigh : String ↪ ω
  fold : Char → Char
  /-- A bound value next to a column, on SQLite; the driver may refuse it. -/
  sqliteTakes : ColumnType → Json → Option Json
  /-- A row of `json_each` next to a column. -/
  sqliteItem : ColumnType → Json → Json
  /-- A row of `json_each` next to another. -/
  sqliteElement : Json → Json
  sqliteText : Json → String
  /-- A bound value next to a column, on PostgreSQL; the statement may fail. -/
  postgresTakes : ColumnType → Json → Option Json
  sqliteJson : String → Option Json
  postgresJson : String → Option Json
  fold_fold : ∀ c, fold (fold c) = fold c
  fold_meta : ∀ c, LikePattern.isMeta (fold c) = LikePattern.isMeta c
  fold_percent : fold '%' = '%'
  fold_a : fold 'a' = 'a'
  fold_nul : ∀ c, fold c = Char.ofNat 0 → c = Char.ofNat 0
  sqliteTakes_own : ∀ type v, v = .null ∨ type.Has v →
    sqliteTakes type (booleanAsNumber v) = some (booleanAsNumber v)
  sqliteItem_own : ∀ type v, v = .null ∨ type.Has v →
    sqliteItem type (booleanAsNumber v) = booleanAsNumber v
  sqliteElement_null : sqliteElement .null = .null
  sqliteText_str : ∀ s, sqliteText (.str s) = s
  postgresTakes_own : ∀ type v, v = .null ∨ type.Has v → postgresTakes type v = some v
  sqliteTakes_null : ∀ type v, sqliteTakes type v = some .null → v = .null
  postgresTakes_text : ∀ v w, postgresTakes .string v = some w →
    v = .null ∨ ∃ s, w = .str s ∧ ColumnType.string.Has (.str s)
  postgresTakes_str : ∀ s w, postgresTakes .string (.str s) = some w → w = .str s
  /-- The text of a value of another type that both take has no characters of a pattern. -/
  plainText_of_takes : ∀ v s, (∀ t, v ≠ .str t) → (sqliteTakes .string v).isSome →
    postgresTakes .string v = some (.str s) → PlainText s
  json_of_key : ∀ v s, postgresTakes .string v = some (.str s) → ∃ t,
    ColumnType.string.Has (.str t) ∧ sqliteJson t = some (.obj [(s, .null)]) ∧
      postgresJson t = some (.obj [(s, .null)])

def letters (fold : Char → Char) (s : String) : List Char := s.toList.map fold

namespace Engines

variable {ω : Type} [LinearOrder ω] (e : Engines ω)

/-! ### The meaning of a condition -/

/-- The order of values on SQLite: numbers stand before texts. -/
def sqliteLt : Json → Json → Bool
  | .num p, .num q => p < q
  | .num _, .str _ => true
  | .str s, .str t => s < t
  | _, _ => false

/-- The order of the values of a column on PostgreSQL. -/
def postgresLt : Json → Json → Bool
  | .num p, .num q => p < q
  | .bool b, .bool c => !b && c
  | .str s, .str t => e.weigh s < e.weigh t
  | _, _ => false

def compare (lt : Json → Json → Bool) (op : SqlComparison) (a b : Json) : Truth :=
  if a = .null ∨ b = .null then .unknown
  else .ofBool (match op with
    | .eq => a = b
    | .ne => a ≠ b
    | .gt => lt b a
    | .lt => lt a b
    | .ge => !lt a b
    | .le => !lt b a)

/-- `IN`, or `NOT IN`. -/
def isIn (lt : Json → Json → Bool) (negated : Bool) (a : Json) (bs : List Json) : Truth :=
  let found := Truth.any (bs.map fun b => compare lt .eq a b)
  if negated then found.not else found

/-- `INSTR(v, w) > 0`, where letters are compared up to `fold`. -/
def sqliteContains (fold : Char → Char) (w v : Json) : Truth :=
  if v = .null ∨ w = .null then .unknown
  else .ofBool (letters fold (e.sqliteText w) <:+: letters fold (e.sqliteText v))

/-- `v ILIKE '%' || w || '%'`. -/
def postgresContains (w v : Json) : Truth :=
  match v, w with
  | .str text, .str s =>
    .ofBool (LikePattern.like ('%' :: (letters e.fold s ++ ['%'])) (letters e.fold text))
  | _, _ => .unknown

/-- Whether an element of a value read as JSON is among others; null has no elements, and other
values may be no JSON. -/
def sqliteOverlaps (items : List Json) (v : Json) : Option Truth :=
  if v = .null then some .no
  else (e.sqliteJson (e.sqliteText v)).map fun column => .ofBool ((jsonEach column).any fun item =>
    (isIn sqliteLt false (e.sqliteElement item) (items.map e.sqliteElement)).holds)

/-- `column ?| ws`, on a value read as JSON. -/
def jsonbHasAny (ws : List Json) (column : Json) : Bool :=
  ws.any fun w => match w with
    | .str s => jsonbHas column s
    | _ => false

/-- `v::jsonb ?| ws`. -/
def postgresOverlaps (ws : List Json) (v : Json) : Option Truth :=
  match v with
  | .str text => (e.postgresJson text).map fun column => .ofBool (jsonbHasAny ws column)
  | _ => some .unknown

/-- What SQLite says of a value.  The outcome is none if the statement fails, for every row or for
this one. -/
def sqliteHolds (fold : Char → Char) (type : ColumnType) :
    SqlCondition → Option (Json → Option Truth)
  | .isNull => some fun v => some (.ofBool (v = .null))
  | .isNotNull => some fun v => some (.ofBool (v ≠ .null))
  | .compare op value => (e.sqliteTakes type value).map fun w v =>
    some (compare sqliteLt op (booleanAsNumber v) w)
  | .instr value => (e.sqliteTakes .string value).map fun w v =>
    some (e.sqliteContains fold w (booleanAsNumber v))
  | .inEach negated value => some fun v =>
    some (isIn sqliteLt negated (booleanAsNumber v) ((jsonEach value).map (e.sqliteItem type)))
  | .overlapsEach value => some fun v => e.sqliteOverlaps (jsonEach value) (booleanAsNumber v)
  | .ilike _ | .inList _ _ _ | .overlapsList _ _ => none

/-- The values for the placeholders of a list, if there are as many and they are taken. -/
def postgresList (type : ColumnType) (count : ℕ) (values : List Json) : Option (List Json) :=
  if count = 0 ∨ values.length ≠ count then none else values.mapM (e.postgresTakes type)

/-- What PostgreSQL says of a value; only texts have `ILIKE`, and only they can be made JSON. -/
def postgresHolds (type : ColumnType) : SqlCondition → Option (Json → Option Truth)
  | .isNull => some fun v => some (.ofBool (v = .null))
  | .isNotNull => some fun v => some (.ofBool (v ≠ .null))
  | .compare op value => (e.postgresTakes type value).map fun w v =>
    some (compare e.postgresLt op v w)
  | .ilike value =>
    if type = .string then
      (e.postgresTakes .string value).map fun w v => some (e.postgresContains w v)
    else none
  | .inList negated count values => (e.postgresList type count values).map fun ws v =>
    some (isIn e.postgresLt negated v ws)
  | .overlapsList count values =>
    if type = .string then (e.postgresList .string count values).map e.postgresOverlaps else none
  | .instr _ | .inEach _ _ | .overlapsEach _ => none

end Engines

end EdgeBase
