import EdgeBase.Handler
import Mathlib.Algebra.Order.BigOperators.Group.List

/-!
# The text of a JSON value

`JSON.stringify`, with the text of a number as a parameter, and the length of its UTF-8 encoding.

* `Json.stringify` : the text of a value.
* `Json.bytes_obj`, `Json.bytes_arr` : the length of an object and of an array.
-/

namespace EdgeBase

open List

namespace Json

/-! ### The text -/

/-- `QuoteJSONString` on one character. -/
def escapeChar (c : Char) : String :=
  match c.toNat with
  | 8 => "\\b"
  | 9 => "\\t"
  | 10 => "\\n"
  | 12 => "\\f"
  | 13 => "\\r"
  | 34 => "\\\""
  | 92 => "\\\\"
  | n =>
    if n < 32 then "\\u00" ++ (n / 16).repr ++ String.singleton (Nat.digitChar (n % 16))
    else String.singleton c

def escape : List Char → String
  | [] => ""
  | c :: cs => escapeChar c ++ escape cs

/-- `QuoteJSONString`. -/
def quote (s : String) : String := "\"" ++ escape s.toList ++ "\""

variable (numberText : ℚ → String)

mutual

def stringify : Json → String
  | .null => "null"
  | .bool true => "true"
  | .bool false => "false"
  | .num q => numberText q
  | .str s => quote s
  | .arr items => "[" ++ stringifyItems items ++ "]"
  | .obj fields => "\x7b" ++ stringifyFields fields ++ "\x7d"

def stringifyItems : List Json → String
  | [] => ""
  | v :: vs => stringify v ++ (if vs.isEmpty then "" else "," ++ stringifyItems vs)

def stringifyFields : List (String × Json) → String
  | [] => ""
  | (k, v) :: vs =>
    quote k ++ ":" ++ stringify v ++ (if vs.isEmpty then "" else "," ++ stringifyFields vs)

end

/-! ### Its length -/

def bytes (v : Json) : ℕ := (stringify numberText v).utf8ByteSize

/-- The UTF-8 length of a member of an object. -/
def fieldBytes (f : String × Json) : ℕ := (quote f.1).utf8ByteSize + 1 + bytes numberText f.2

theorem bytes_stringifyItems (vs : List Json) :
    (stringifyItems numberText vs).utf8ByteSize = (vs.map (bytes numberText · + 1)).sum - 1 := by
  induction vs with
  | nil => rfl
  | cons v vs ih =>
    rw [stringifyItems, String.utf8ByteSize_append, map_cons, sum_cons]
    cases vs with
    | nil => rfl
    | cons w vs =>
      simp only [isEmpty_cons, Bool.false_eq_true, if_false, String.utf8ByteSize_append, ih]
      rw [map_cons, sum_cons]
      have hcomma : ",".utf8ByteSize = 1 := rfl
      have hv : bytes numberText v = (stringify numberText v).utf8ByteSize := rfl
      rw [hcomma, hv]
      omega

theorem bytes_stringifyFields (fs : List (String × Json)) :
    (stringifyFields numberText fs).utf8ByteSize =
      (fs.map (fieldBytes numberText · + 1)).sum - 1 := by
  induction fs with
  | nil => rfl
  | cons f fs ih =>
    obtain ⟨k, v⟩ := f
    have hcolon : ":".utf8ByteSize = 1 := rfl
    rw [stringifyFields, String.utf8ByteSize_append, String.utf8ByteSize_append,
      String.utf8ByteSize_append, map_cons, sum_cons, fieldBytes, bytes, hcolon]
    cases fs with
    | nil =>
      rw [map_nil, sum_nil]
      rfl
    | cons g fs =>
      simp only [isEmpty_cons, Bool.false_eq_true, if_false, String.utf8ByteSize_append, ih]
      rw [map_cons, sum_cons]
      have hcomma : ",".utf8ByteSize = 1 := rfl
      rw [hcomma]
      omega

theorem bytes_arr (vs : List Json) :
    bytes numberText (.arr vs) = 2 + ((vs.map (bytes numberText · + 1)).sum - 1) := by
  have hopen : "[".utf8ByteSize = 1 := rfl
  have hclose : "]".utf8ByteSize = 1 := rfl
  rw [bytes, stringify, String.utf8ByteSize_append, String.utf8ByteSize_append,
    bytes_stringifyItems, hopen, hclose]
  omega

theorem bytes_obj (fs : List (String × Json)) :
    bytes numberText (.obj fs) = 2 + ((fs.map (fieldBytes numberText · + 1)).sum - 1) := by
  have hopen : "\x7b".utf8ByteSize = 1 := rfl
  have hclose : "\x7d".utf8ByteSize = 1 := rfl
  rw [bytes, stringify, String.utf8ByteSize_append, String.utf8ByteSize_append,
    bytes_stringifyFields, hopen, hclose]
  omega

theorem bytes_obj_concat (fs : List (String × Json)) (f : String × Json) :
    bytes numberText (.obj (fs ++ [f])) =
      2 + (fs.map (fieldBytes numberText · + 1)).sum + fieldBytes numberText f := by
  rw [bytes_obj, map_append, sum_append, map_singleton, sum_singleton]
  omega

theorem bytes_obj_le_of_sublist {fs gs : List (String × Json)} (h : fs.Sublist gs) :
    bytes numberText (.obj fs) ≤ bytes numberText (.obj gs) := by
  have hsum := (h.map (fieldBytes numberText · + 1)).sum_le_sum fun _ _ => Nat.zero_le _
  rw [bytes_obj, bytes_obj]
  omega

theorem sum_fieldBytes_le (fs : List (String × Json)) :
    (fs.map (fieldBytes numberText · + 1)).sum ≤ bytes numberText (.obj fs) := by
  rw [bytes_obj]
  omega

end Json

/-- A platform whose numbers have these texts, and that measures the UTF-8 text of a value.  A whole
number below 10²¹ is written with its decimal digits. -/
structure Env.WritesJson (env : Env) (numberText : ℚ → String) : Prop where
  bytes : ∀ v, env.jsonBytes v = Json.bytes numberText v
  whole : ∀ n : ℕ, n < 10 ^ 21 → numberText n = n.repr

end EdgeBase
