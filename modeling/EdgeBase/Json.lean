import Mathlib.Algebra.Order.Field.Rat
import EdgeBase.Lib.Assoc

/-!
# JSON values and rows

The values that requests, table configurations and stored rows are made of, and rows as JSON
objects.  A JavaScript object is an association list: the binding of a key is the first one, an
absent key stands for `undefined`, and assigning a key keeps its place (`Assoc.set`).

* `Json` : the values, with a decidable equality.
-/

namespace EdgeBase

inductive Json where
  /-- `null`, also the SQL `NULL`. -/
  | null
  /-- `true` or `false`. -/
  | bool (b : Bool)
  | num (q : ℚ)
  | str (s : String)
  | arr (items : List Json)
  /-- An object, its keys in insertion order. -/
  | obj (fields : List (String × Json))

namespace Json

mutual

/-- Decides equality of two values. -/
def decEq : (a b : Json) → Decidable (a = b)
  | .null, .null => isTrue rfl
  | .bool a, .bool b => if h : a = b then isTrue (h ▸ rfl) else isFalse fun e => h (by injection e)
  | .num a, .num b => if h : a = b then isTrue (h ▸ rfl) else isFalse fun e => h (by injection e)
  | .str a, .str b => if h : a = b then isTrue (h ▸ rfl) else isFalse fun e => h (by injection e)
  | .arr a, .arr b =>
    match decEqItems a b with
    | isTrue h => isTrue (h ▸ rfl)
    | isFalse h => isFalse fun e => h (by injection e)
  | .obj a, .obj b =>
    match decEqFields a b with
    | isTrue h => isTrue (h ▸ rfl)
    | isFalse h => isFalse fun e => h (by injection e)
  | .null, .bool _ | .null, .num _ | .null, .str _ | .null, .arr _ | .null, .obj _ => isFalse nofun
  | .bool _, .null | .bool _, .num _ | .bool _, .str _ | .bool _, .arr _ | .bool _, .obj _ =>
    isFalse nofun
  | .num _, .null | .num _, .bool _ | .num _, .str _ | .num _, .arr _ | .num _, .obj _ =>
    isFalse nofun
  | .str _, .null | .str _, .bool _ | .str _, .num _ | .str _, .arr _ | .str _, .obj _ =>
    isFalse nofun
  | .arr _, .null | .arr _, .bool _ | .arr _, .num _ | .arr _, .str _ | .arr _, .obj _ =>
    isFalse nofun
  | .obj _, .null | .obj _, .bool _ | .obj _, .num _ | .obj _, .str _ | .obj _, .arr _ =>
    isFalse nofun

/-- Decides equality of two lists of values. -/
def decEqItems : (a b : List Json) → Decidable (a = b)
  | [], [] => isTrue rfl
  | [], _ :: _ | _ :: _, [] => isFalse nofun
  | x :: xs, y :: ys =>
    match decEq x y, decEqItems xs ys with
    | isTrue h, isTrue hs => isTrue (by rw [h, hs])
    | isFalse h, _ => isFalse fun e => h (by injection e)
    | _, isFalse hs => isFalse fun e => hs (by injection e)

/-- Decides equality of two lists of fields. -/
def decEqFields : (a b : List (String × Json)) → Decidable (a = b)
  | [], [] => isTrue rfl
  | [], _ :: _ | _ :: _, [] => isFalse nofun
  | (k, x) :: xs, (l, y) :: ys =>
    if hk : k = l then
      match decEq x y, decEqFields xs ys with
      | isTrue h, isTrue hs => isTrue (by rw [hk, h, hs])
      | isFalse h, _ => isFalse fun e => h (by injection e with e _; injection e)
      | _, isFalse hs => isFalse fun e => hs (by injection e)
    else isFalse fun e => hk (by injection e with e _; injection e)

end

instance : DecidableEq Json := decEq

end Json

/-- A row of a table, or the object of a request body. -/
abbrev Row := List (String × Json)

namespace Row

/-- The text in the `id` column of a row. -/
def id (r : Row) : Option String :=
  match r.lookup "id" with
  | some (.str s) => some s
  | _ => none

end Row

end EdgeBase
