import EdgeBase.Access.Platform
import EdgeBase.JsonText
import EdgeBase.Lib.SelfLength
import EdgeBase.Page

/-!
# Bodies that state their length

The body of a bounded answer has a field `returnedBytes`, which is to be the length of the body.
The digits of the field count, so its value is a fixed point.

* `measureBody_eq_settle` : the loop looks for a fixed point of the measured length.
* `serializeJsonWithReturnedBytes_eq` : the body that it finds.
* `serializeJsonWithReturnedBytes_exact` : it finds the shortest body that states its length.
-/

namespace EdgeBase

def withReturnedBytes (payload : Row) (returnedBytes : ℕ) : Row :=
  payload ++ [("returnedBytes", jsonNat returnedBytes)]

/-- A payload as `serializeJsonWithReturnedBytes` takes it. -/
abbrev withoutReturnedBytes (payload : Row) : Row := Assoc.restrict (· ≠ "returnedBytes") payload

theorem measureBody_eq_settle (env : Env) (payload : Row) (n r : ℕ) :
    measureBody env payload n r =
      match SelfLength.settle (fun r => env.jsonBytes (.obj (withReturnedBytes payload r))) n r with
      | some length => .ok (withReturnedBytes payload length, length)
      | none => .error ⟨500, "Could not stabilize the exact bounded JSON response length."⟩ := by
  induction n generalizing r with
  | zero => rfl
  | succ n ih =>
    have hround : measureBody env payload (n + 1) r =
        if env.jsonBytes (.obj (withReturnedBytes payload r)) = r then
          .ok (withReturnedBytes payload r, r)
        else measureBody env payload n (env.jsonBytes (.obj (withReturnedBytes payload r))) := rfl
    rw [hround, SelfLength.settle]
    by_cases hfixed : env.jsonBytes (.obj (withReturnedBytes payload r)) = r
    · rw [if_pos hfixed, if_pos hfixed]
    · rw [if_neg hfixed, if_neg hfixed]
      exact ih _

/-! ### The length of a body -/

theorem utf8ByteSize_ofList {cs : List Char} (h : ∀ c ∈ cs, c.utf8Size = 1) :
    (String.ofList cs).utf8ByteSize = cs.length := by
  induction cs with
  | nil => rfl
  | cons c cs ih =>
    have hc := h c List.mem_cons_self
    rw [String.ofList_cons, String.utf8ByteSize_append, String.utf8ByteSize_singleton, hc,
      ih fun d hd => h d (List.mem_cons_of_mem c hd), List.length_cons, Nat.add_comm]

theorem utf8Size_of_isDigit {c : Char} (h : c.isDigit = true) : c.utf8Size = 1 := by
  simp only [Char.isDigit, Bool.and_eq_true, decide_eq_true_eq] at h
  simp only [Char.utf8Size]
  grind

theorem utf8ByteSize_repr (n : ℕ) : n.repr.utf8ByteSize = SelfLength.digits n := by
  have hdigits : ∀ c ∈ Nat.toDigits 10 n, c.utf8Size = 1 := fun c hc =>
    utf8Size_of_isDigit (Nat.isDigit_of_mem_toDigits (by decide) (by decide) hc)
  rw [SelfLength.digits, Nat.repr_eq_ofList_toDigits, utf8ByteSize_ofList hdigits,
    String.length_ofList]

section Length

variable {env : Env} {numberText : ℚ → String}

def bareLength (numberText : ℚ → String) (payload : Row) : ℕ :=
  18 + (payload.map (Json.fieldBytes numberText · + 1)).sum

variable (h : env.WritesJson numberText)
include h

theorem bytes_withReturnedBytes (payload : Row) {r : ℕ} (hr : r < 10 ^ 21) :
    env.jsonBytes (.obj (withReturnedBytes payload r)) =
      SelfLength.measure (bareLength numberText payload) r := by
  have hdigits : Json.bytes numberText (jsonNat r) = SelfLength.digits r := by
    rw [jsonNat, Json.bytes, Json.stringify, h.whole r hr, utf8ByteSize_repr]
  have hkey : (Json.quote "returnedBytes").utf8ByteSize = 15 := by decide +kernel
  rw [h.bytes, withReturnedBytes, Json.bytes_obj_concat, Json.fieldBytes, hdigits, hkey,
    SelfLength.measure, bareLength]
  omega

theorem bareLength_lt {payload : Row}
    (hsize : env.jsonBytes (.obj payload) < 2 ^ 55) : bareLength numberText payload < 10 ^ 20 := by
  have hsum := Json.sum_fieldBytes_le numberText payload
  rw [h.bytes] at hsize
  rw [bareLength]
  omega

/-- What `serializeJsonWithReturnedBytes` gives. -/
theorem serializeJsonWithReturnedBytes_eq {payload : Row}
    (hsize : bareLength numberText (withoutReturnedBytes payload) < 10 ^ 20) :
    serializeJsonWithReturnedBytes env payload =
      let length := SelfLength.length (bareLength numberText (withoutReturnedBytes payload))
      .ok (withReturnedBytes (withoutReturnedBytes payload) length, length) := by
  rw [serializeJsonWithReturnedBytes, measureBody_eq_settle, SelfLength.settle_measure hsize
    (fun r hr => bytes_withReturnedBytes h _ hr) (by decide)]

omit h

/-- A text has less than 2⁵³ code units, of at most three bytes each: within the eight rounds of its
loop, `serializeJsonWithReturnedBytes` finds the least length that the body with this length in it
has. -/
theorem serializeJsonWithReturnedBytes_exact (h : env.WritesJson numberText) (payload : Row)
    (hsize : env.jsonBytes (.obj payload) < 2 ^ 55) :
    ∃ length, serializeJsonWithReturnedBytes env payload =
        .ok (withReturnedBytes (withoutReturnedBytes payload) length, length) ∧
      env.jsonBytes (.obj (withReturnedBytes (withoutReturnedBytes payload) length)) = length ∧
      ∀ m, env.jsonBytes (.obj (withReturnedBytes (withoutReturnedBytes payload) m)) = m →
        length ≤ m := by
  have hless : env.jsonBytes (.obj (withoutReturnedBytes payload)) < 2 ^ 55 := by
    rw [h.bytes] at hsize ⊢
    exact lt_of_le_of_lt (Json.bytes_obj_le_of_sublist numberText List.filter_sublist) hsize
  have hbare := bareLength_lt h hless
  have hlength := SelfLength.length_le hbare
  refine ⟨_, serializeJsonWithReturnedBytes_eq h hbare, ?_, fun m hm => ?_⟩
  · rw [bytes_withReturnedBytes h _ (by omega), SelfLength.measure_length]
  · by_cases hsmall : m < 10 ^ 21
    · rw [bytes_withReturnedBytes h _ hsmall] at hm
      exact SelfLength.length_least hm.le
    · omega

end Length

/-- The simple platform, with the lengths of texts whose numbers are whole. -/
def Env.simpleJson : Env :=
  { Env.simple with jsonBytes := Json.bytes fun q => q.num.toNat.repr }

theorem simpleJson_writesJson : Env.simpleJson.WritesJson fun q => q.num.toNat.repr where
  bytes _ := rfl
  whole n _ := by rw [Rat.num_natCast, Int.toNat_natCast]

theorem emptyPage_exact :
    ∃ length, serializeJsonWithReturnedBytes .simpleJson [("items", .arr [])] =
        .ok (withReturnedBytes (withoutReturnedBytes [("items", .arr [])]) length, length) ∧
      Env.simpleJson.jsonBytes (.obj (withReturnedBytes (withoutReturnedBytes [("items", .arr [])])
        length)) = length ∧
      ∀ m, Env.simpleJson.jsonBytes (.obj (withReturnedBytes (withoutReturnedBytes
        [("items", .arr [])]) m)) = m → length ≤ m :=
  serializeJsonWithReturnedBytes_exact simpleJson_writesJson [("items", .arr [])]
    (by decide +kernel)

end EdgeBase
