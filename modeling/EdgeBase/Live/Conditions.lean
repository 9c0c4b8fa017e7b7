import EdgeBase.Json
import EdgeBase.Lib.Verdicts
import Mathlib.Data.List.Infix
import Mathlib.Data.List.Lex
import Mathlib.Order.WithBot

/-!
# Filter conditions of subscriptions

The hub checks the conditions of a subscription before it sends a change, and the client checks them
again.  The hub compares numbers alone; the client compares as JavaScript does.

* `LiveFilters.evaluateDatabaseLiveFilters`, `LiveFilters.matchesFilter`,
  `LiveFilters.matchesSnapshotFilters` : the evaluators of the hub, the web client and the core.
* `LiveFilters.agree_iff` : when they give the same answer.
-/

namespace EdgeBase

/-! ### Values of JavaScript -/

structure NumberText where
  /-- `Number.prototype.toString`. -/
  write : ℚ → String
  /-- `StringToNumber`; `NaN` is `none`. -/
  read : String → Option (WithBot (WithTop ℚ))

/-- The primitive values that values of JSON, or none, are converted to. -/
inductive Primitive where
  | number (n : Option (WithBot (WithTop ℚ)))
  | text (s : String)

namespace Json

/-- `a === b`, where `none` is `undefined` and objects are never the same. -/
def strictEq : Option Json → Option Json → Bool
  | none, none => true
  | some .null, some .null => true
  | some (.bool a), some (.bool b) => a == b
  | some (.num a), some (.num b) => a == b
  | some (.str a), some (.str b) => a == b
  | _, _ => false

def bothNumbers : Option Json → Json → Bool
  | some (.num _), .num _ => true
  | _, _ => false

/-- `xs.includes(x)` on an array. -/
def includes (xs : List Json) (x : Option Json) : Bool := xs.any (strictEq x <| some ·)

variable (text : NumberText)

mutual

/-- `String(v)`, which throws at an object with a field `toString`. -/
def toText : Json → Option String
  | .null => some "null"
  | .bool b => some (if b then "true" else "false")
  | .num q => some (text.write q)
  | .str s => some s
  | .arr items => joinItems items
  | .obj fields => if fields.any (·.1 == "toString") then none else some "[object Object]"

/-- `items.join()`. -/
def joinItems : List Json → Option String
  | [] => some ""
  | [.null] => some ""
  | [v] => toText v
  | .null :: vs => do
    let rest ← joinItems vs
    return "," ++ rest
  | v :: vs => do
    let first ← toText v
    let rest ← joinItems vs
    return first ++ "," ++ rest

end

/-- `ToPrimitive` with the hint `number`, and numbers of what is no text. -/
def toPrimitive : Option Json → Option Primitive
  | none => some (.number none)
  | some .null => some (.number (some ((0 : ℚ) : WithTop ℚ)))
  | some (.bool b) => some (.number (some (((if b then 1 else 0 : ℚ)) : WithTop ℚ)))
  | some (.num q) => some (.number (some (q : WithTop ℚ)))
  | some (.str s) => some (.text s)
  | some (.arr items) => (joinItems text items).map .text
  | some (.obj fields) => (toText text (.obj fields)).map .text

end Json

/-- `ToNumber`. -/
def Primitive.toNumber (text : NumberText) : Primitive → Option (WithBot (WithTop ℚ))
  | .number n => n
  | .text s => text.read s

def codeUnits (s : String) : List ℕ :=
  s.toList.flatMap fun c =>
    if c.toNat < 0x10000 then [c.toNat]
    else [0xD800 + (c.toNat - 0x10000) / 0x400, 0xDC00 + (c.toNat - 0x10000) % 0x400]

/-! ### Conditions -/

inductive Comparison where
  | lt
  | le
  | gt
  | ge
  deriving DecidableEq

inductive FilterOperator where
  | eq
  | ne
  | compare (c : Comparison)
  | oneOf
  | contains
  | containsAny
  | notOneOf
  deriving DecidableEq

namespace FilterOperator

def text : FilterOperator → String
  | eq => "=="
  | ne => "!="
  | compare .lt => "<"
  | compare .le => "<="
  | compare .gt => ">"
  | compare .ge => ">="
  | oneOf => "in"
  | contains => "contains"
  | containsAny => "contains-any"
  | notOneOf => "not in"

/-- `VALID_FILTER_OPERATORS`. -/
def all : List FilterOperator :=
  [eq, ne, compare .lt, compare .le, compare .gt, compare .ge, oneOf, contains, containsAny,
    notOneOf]

def compares : FilterOperator → Bool
  | compare _ => true
  | _ => false

def parse (op : String) : Option FilterOperator := all.find? (·.text == op)

theorem parse_text (op : FilterOperator) : parse op.text = some op := by
  cases op with
  | compare c => cases c <;> decide
  | _ => decide

end FilterOperator

/-- Whether two values of an order compare so. -/
def Comparison.holds {α : Type*} [LinearOrder α] (a b : α) : Comparison → Bool
  | lt => a < b
  | le => a ≤ b
  | gt => b < a
  | ge => b ≤ a

def Comparison.onHub (c : Comparison) : Option Json → Option Json → Option Bool
  | some (.num a), some (.num b) => some (c.holds a b)
  | _, _ => some false

/-- A comparison of JavaScript: of two texts by their code units, else of numbers. -/
def Comparison.inScript (text : NumberText) (c : Comparison)
    (fieldValue expected : Option Json) : Option Bool := do
  let a ← Json.toPrimitive text fieldValue
  let b ← Json.toPrimitive text expected
  match a, b with
  | .text s, .text t => return c.holds (codeUnits s) (codeUnits t)
  | _, _ =>
    match a.toNumber text, b.toNumber text with
    | some p, some q => return c.holds p q
    | _, _ => return false

/-- Whether a field satisfies a condition; `compares` is what the operators that compare do. -/
def FilterOperator.holds (text : NumberText)
    (compares : Comparison → Option Json → Option Json → Option Bool)
    (fieldValue expected : Option Json) : FilterOperator → Option Bool
  | eq => some (Json.strictEq fieldValue expected)
  | ne => some !(Json.strictEq fieldValue expected)
  | compare c => compares c fieldValue expected
  | oneOf =>
    match expected with
    | some (.arr items) => some (Json.includes items fieldValue)
    | _ => some false
  | contains =>
    match fieldValue with
    | some (.str s) =>
      (expected.elim (some "undefined") (Json.toText text)).map fun t =>
        decide (t.toList <:+: s.toList)
    | some (.arr items) => some (Json.includes items expected)
    | _ => some false
  | containsAny =>
    match fieldValue, expected with
    | some (.arr items), some (.arr values) =>
      some (values.any fun v => Json.includes items (some v))
    | _, _ => some false
  | notOneOf =>
    match expected with
    | some (.arr items) => some !(Json.includes items fieldValue)
    | _ => some true

namespace LiveFilters

open Verdicts

variable (text : NumberText)

/-! ### The hub -/

def normalizeFilterCondition : Json → Option (String × FilterOperator × Option Json)
  | .arr [.str field, .str op, value] => (FilterOperator.parse op).map (field, ·, some value)
  | .obj input =>
    match input.lookup "field", input.lookup "op" with
    | some (.str field), some (.str op) =>
      (FilterOperator.parse op).map (field, ·, input.lookup "value")
    | _, _ => none
  | _ => none

/-- Whether a row satisfies a condition, as the hub checks it. -/
def onHub (data : Row) (condition : String × FilterOperator × Option Json) : Option Bool :=
  condition.2.1.holds text Comparison.onHub (data.lookup condition.1) condition.2.2

def evaluateDatabaseLiveFilters (data : Row) (filters orFilters : List Json) : Option Bool := do
  let normalizedFilters := filters.filterMap normalizeFilterCondition
  if normalizedFilters.length ≠ filters.length then return false
  let andPass ← everyOf (onHub text data) normalizedFilters
  if !andPass then return false
  if orFilters.isEmpty then return true
  let normalizedOrFilters := orFilters.filterMap normalizeFilterCondition
  if normalizedOrFilters.length ≠ orFilters.length then return false
  someOf (onHub text data) normalizedOrFilters

/-! ### The clients -/

/-- `evaluateCondition` of the web client, and `evaluateFilterCondition` of the core. -/
def evaluateCondition (data : Row) (filter : String × String × Json) : Option Bool :=
  match FilterOperator.parse filter.2.1 with
  | some op => op.holds text (Comparison.inScript text) (data.lookup filter.1) (some filter.2.2)
  | none => some false

def matchesFilter (data : Row) (filters : List (String × String × Json)) : Option Bool :=
  everyOf (evaluateCondition text data) filters

def matchesAllFilters (data : Row) (filters : List (String × String × Json))
    (filterMatchFn : Option (Row → List (String × String × Json) → Option Bool)) : Option Bool :=
  if filters.isEmpty then some true
  else
    match filterMatchFn with
    | some filterMatchFn => filterMatchFn data filters
    | none => everyOf (evaluateCondition text data) filters

def matchesAnyFilter (data : Row) (filters : List (String × String × Json))
    (filterMatchFn : Option (Row → List (String × String × Json) → Option Bool)) : Option Bool :=
  if filters.isEmpty then some true
  else
    match filterMatchFn with
    | some filterMatchFn => someOf (fun filter => filterMatchFn data [filter]) filters
    | none => someOf (evaluateCondition text data) filters

def matchesSnapshotFilters (data : Row) (filters orFilters : List (String × String × Json))
    (filterMatchFn : Option (Row → List (String × String × Json) → Option Bool)) :
    Option Bool := do
  let all ← matchesAllFilters text data filters filterMatchFn
  if !all then return false
  if orFilters.isEmpty then return true
  matchesAnyFilter text data orFilters filterMatchFn

/-! ### Agreement -/

structure Condition where
  field : String
  op : FilterOperator
  value : Json

def Condition.toJson (c : Condition) : Json := .arr [.str c.field, .str c.op.text, c.value]

def Condition.tuple (c : Condition) : String × String × Json := (c.field, c.op.text, c.value)

namespace Condition

/-- A condition compares values that are not both numbers. -/
def Loose (data : Row) (c : Condition) : Prop :=
  c.op.compares = true ∧ Json.bothNumbers (data.lookup c.field) c.value = false

instance (data : Row) : DecidablePred (Loose data) := fun _ => inferInstanceAs (Decidable (_ ∧ _))

def onClient (data : Row) (c : Condition) : Option Bool := evaluateCondition text data c.tuple

end Condition

/-- The hub, the web client and the core give the same answer. -/
def Agree (data : Row) (filters orFilters : List Condition) : Prop :=
  let hub := evaluateDatabaseLiveFilters text data (filters.map (·.toJson))
    (orFilters.map (·.toJson))
  hub = matchesSnapshotFilters text data (filters.map (·.tuple)) (orFilters.map (·.tuple))
      (some (matchesFilter text)) ∧
    hub = matchesSnapshotFilters text data (filters.map (·.tuple)) (orFilters.map (·.tuple)) none ∧
    (orFilters = [] → hub = matchesFilter text data (filters.map (·.tuple)))

/-- No comparison of values that are not both numbers decides. -/
def HoldsWhen (data : Row) (filters orFilters : List Condition) : Prop :=
  Undecided (Condition.onClient text data) (Condition.Loose data) filters orFilters

variable {text} {data : Row}

theorem onHub_compare (c : Comparison) (fieldValue : Option Json) (value : Json) :
    c.onHub fieldValue (some value) =
      if Json.bothNumbers fieldValue value = false then some false
      else c.inScript text fieldValue (some value) := by
  cases hboth : Json.bothNumbers fieldValue value with
  | true =>
    unfold Json.bothNumbers at hboth
    split at hboth
    · cases c <;> simp [Comparison.onHub, Comparison.inScript, Json.toPrimitive,
        Primitive.toNumber, Comparison.holds]
    · cases hboth
  | false =>
    rw [if_pos rfl]
    unfold Comparison.onHub
    split
    · next heq =>
      obtain rfl := Option.some.inj heq
      cases hboth
    · rfl

theorem onHub_eq (c : Condition) : onHub text data (c.field, c.op, some c.value) =
      denied (Condition.onClient text data) (Condition.Loose data) c := by
  obtain ⟨field, op, value⟩ := c
  have hclient : Condition.onClient text data ⟨field, op, value⟩ =
      op.holds text (Comparison.inScript text) (data.lookup field) (some value) := by
    unfold Condition.onClient evaluateCondition Condition.tuple
    rw [FilterOperator.parse_text]
  unfold denied
  rw [hclient]
  cases op with
  | compare comparison =>
    change comparison.onHub (data.lookup field) (some value) = _
    rw [onHub_compare]
    exact if_congr ⟨fun h => ⟨rfl, h⟩, And.right⟩ rfl rfl
  | _ => rfl

theorem filterMap_normalize (l : List Condition) :
    (l.map (·.toJson)).filterMap normalizeFilterCondition =
      l.map fun c => (c.field, c.op, some c.value) := by
  rw [List.filterMap_map]
  induction l with
  | nil => rfl
  | cons c l ih =>
    have hc : normalizeFilterCondition c.toJson = some (c.field, c.op, some c.value) := by
      unfold normalizeFilterCondition Condition.toJson
      simp [FilterOperator.parse_text]
    rw [List.map_cons, List.filterMap_cons_some (by exact hc), ih]

theorem evaluateDatabaseLiveFilters_eq (filters orFilters : List Condition) :
    evaluateDatabaseLiveFilters text data (filters.map (·.toJson)) (orFilters.map (·.toJson)) =
      allAndAny (denied (Condition.onClient text data) (Condition.Loose data)) filters
        orFilters := by
  unfold evaluateDatabaseLiveFilters allAndAny
  rw [filterMap_normalize, filterMap_normalize]
  simp only [everyOf_map, someOf_map, onHub_eq, List.length_map, List.isEmpty_map, ne_eq,
    not_true_eq_false, if_false]

theorem matchesSnapshotFilters_eq (filters orFilters : List Condition)
    (filterMatchFn : Option (Row → List (String × String × Json) → Option Bool))
    (h : ∀ f ∈ filterMatchFn, f = matchesFilter text) :
    matchesSnapshotFilters text data (filters.map (·.tuple)) (orFilters.map (·.tuple))
        filterMatchFn = allAndAny (Condition.onClient text data) filters orFilters := by
  have hall : matchesAllFilters text data (filters.map (·.tuple)) filterMatchFn =
      everyOf (Condition.onClient text data) filters := by
    unfold matchesAllFilters
    cases filters with
    | nil => rfl
    | cons c filters =>
      cases filterMatchFn with
      | none => exact everyOf_map _ _
      | some f =>
        rw [h f rfl]
        exact everyOf_map _ _
  have hany : ∀ c cs, orFilters = c :: cs →
      matchesAnyFilter text data (orFilters.map (·.tuple)) filterMatchFn =
        someOf (Condition.onClient text data) orFilters := by
    intro c cs heq
    unfold matchesAnyFilter
    rw [heq]
    cases filterMatchFn with
    | none => exact someOf_map _ _
    | some f =>
      rw [h f rfl]
      simp only [matchesFilter, everyOf_singleton]
      exact someOf_map Condition.tuple (c :: cs)
  unfold matchesSnapshotFilters allAndAny
  rw [hall, List.isEmpty_map]
  cases orFilters with
  | nil => rfl
  | cons c cs => rw [hany c cs rfl]

end LiveFilters

end EdgeBase
