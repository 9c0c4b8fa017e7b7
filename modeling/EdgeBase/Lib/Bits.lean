import Mathlib.Data.List.Basic
import Mathlib.Data.Nat.Bitwise

/-!
# Numbers as bits

* `Bits.ofWords` : the bits of a list of words.
* `Bits.ofWords_inj` : as many words with the same bits are the same.
* `Bits.and_mask_eq_iff` : words under a mask agree iff their first bits do.
* `Bits.take_ofWords_eq_iff` : lists of words start with the same bits iff they have the same full
  words and the next words start with the same bits.
-/

namespace Bits

open List

/-- The last `w` bits of a number, the highest one first. -/
def msb (n : ℕ) : ℕ → List Bool
  | 0 => []
  | w + 1 => n.testBit w :: msb n w

def ofWords (w : ℕ) (words : List ℕ) : List Bool := words.flatMap (msb · w)

variable {a b n v w k : ℕ}

@[simp] theorem length_msb (n w : ℕ) : (msb n w).length = w := by
  induction w with
  | zero => rfl
  | succ w ih => rw [msb, length_cons, ih]

theorem msb_add (n v w : ℕ) : msb n (v + w) = msb (n / 2 ^ w) v ++ msb n w := by
  induction v with
  | zero => rw [Nat.zero_add]; rfl
  | succ v ih =>
    have hbit : (n / 2 ^ w).testBit v = n.testBit (v + w) := by
      rw [Nat.testBit_div_two_pow, Nat.add_comm]
    rw [Nat.succ_add, msb, ih, msb, hbit, cons_append]

theorem take_msb (h : k ≤ w) : (msb n w).take (w - k) = msb (n / 2 ^ k) (w - k) := by
  obtain ⟨v, rfl⟩ := Nat.exists_eq_add_of_le' h
  rw [Nat.add_sub_cancel, msb_add, take_left' (length_msb _ _)]

theorem msb_eq_iff (a b w : ℕ) : msb a w = msb b w ↔ ∀ i < w, a.testBit i = b.testBit i := by
  induction w with
  | zero => simp [msb]
  | succ w ih =>
    simp only [msb, List.cons.injEq, ih]
    constructor
    · rintro ⟨hlast, hrest⟩ i hi
      by_cases hiw : i = w
      · rw [hiw, hlast]
      · exact hrest i (by omega)
    · intro h
      exact ⟨h w (by omega), fun i hi => h i (by omega)⟩

theorem msb_inj (ha : a < 2 ^ w) (hb : b < 2 ^ w) : msb a w = msb b w ↔ a = b := by
  constructor
  · intro h
    refine Nat.eq_of_testBit_eq fun i => ?_
    by_cases hi : i < w
    · exact (msb_eq_iff a b w).1 h i hi
    · have hle : 2 ^ w ≤ 2 ^ i := Nat.pow_le_pow_right (by omega) (by omega)
      rw [Nat.testBit_lt_two_pow (by omega), Nat.testBit_lt_two_pow (by omega)]
  · rintro rfl
    rfl

theorem msb_mod (n w : ℕ) : msb (n % 2 ^ w) w = msb n w := by
  refine (msb_eq_iff _ _ _).2 fun i hi => ?_
  rw [Nat.testBit_mod_two_pow]
  simp [hi]

theorem and_mask_eq_iff (ha : a < 2 ^ w) (hb : b < 2 ^ w) (hk : k ≤ w) :
    a &&& (2 ^ w - 1) <<< k = b &&& (2 ^ w - 1) <<< k ↔
      (msb a w).take (w - k) = (msb b w).take (w - k) := by
  have hmask : ∀ n i, (n &&& (2 ^ w - 1) <<< k).testBit i =
      (n.testBit i && (decide (k ≤ i) && decide (i - k < w))) := by
    intro n i
    rw [Nat.testBit_and, Nat.testBit_shiftLeft, Nat.testBit_two_pow_sub_one]
  rw [take_msb hk, take_msb hk, msb_eq_iff]
  constructor
  · intro h i hi
    have hbit := congrArg (Nat.testBit · (i + k)) h
    simp only [hmask] at hbit
    rw [Nat.testBit_div_two_pow, Nat.testBit_div_two_pow]
    simpa [show i < w by omega, Nat.add_comm] using hbit
  · intro h
    refine Nat.eq_of_testBit_eq fun i => ?_
    rw [hmask, hmask]
    by_cases hik : k ≤ i
    · by_cases hiw : i < w
      · have hbit := h (i - k) (by omega)
        rw [Nat.testBit_div_two_pow, Nat.testBit_div_two_pow,
          show i - k + k = i by omega] at hbit
        rw [hbit]
      · have hle : 2 ^ w ≤ 2 ^ i := Nat.pow_le_pow_right (by omega) (by omega)
        rw [Nat.testBit_lt_two_pow (by omega : a < 2 ^ i),
          Nat.testBit_lt_two_pow (by omega : b < 2 ^ i)]
    · simp [hik]

theorem ofWords_cons (word : ℕ) (words : List ℕ) :
    ofWords w (word :: words) = msb word w ++ ofWords w words := flatMap_cons

theorem length_ofWords (w : ℕ) (words : List ℕ) : (ofWords w words).length = w * words.length := by
  induction words with
  | nil => rfl
  | cons word words ih =>
    rw [ofWords_cons, length_append, ih, length_msb, length_cons, Nat.mul_succ,
      Nat.add_comm]

theorem ofWords_append (words words' : List ℕ) :
    ofWords w (words ++ words') = ofWords w words ++ ofWords w words' := flatMap_append

theorem ofWords_inj {words words' : List ℕ} (h : ofWords w words = ofWords w words')
    (hlength : words.length = words'.length) (hlt : ∀ n ∈ words, n < 2 ^ w)
    (hlt' : ∀ n ∈ words', n < 2 ^ w) : words = words' := by
  induction words generalizing words' with
  | nil => exact (length_eq_zero_iff.1 hlength.symm).symm
  | cons n words ih =>
    obtain _ | ⟨n', words'⟩ := words'
    · exact nomatch hlength
    · rw [ofWords_cons, ofWords_cons] at h
      obtain ⟨hhead, htail⟩ := append_inj h (by rw [length_msb, length_msb])
      rw [forall_mem_cons] at hlt hlt'
      rw [(msb_inj hlt.1 hlt'.1).1 hhead, ih htail (Nat.succ.inj hlength) hlt.2 hlt'.2]

theorem ofWords_halves (w : ℕ) (words : List ℕ) :
    ofWords w (words.flatMap fun n => [n / 2 ^ w, n % 2 ^ w]) = ofWords (w + w) words := by
  induction words with
  | nil => rfl
  | cons word words ih =>
    rw [flatMap_cons, cons_append, cons_append, nil_append, ofWords_cons,
      ofWords_cons, ofWords_cons, ih, msb_add, msb_mod, append_assoc]

/-- Lists of words start with the same bits iff they have the same full words and the next words
start with the same bits. -/
theorem take_ofWords_eq_iff {r : ℕ} (hr : r < w) : ∀ (f : ℕ) {as bs : List ℕ},
    as.length = bs.length → (∀ a ∈ as, a < 2 ^ w) → (∀ b ∈ bs, b < 2 ^ w) →
    ((ofWords w as).take (w * f + r) = (ofWords w bs).take (w * f + r) ↔
      (∀ i < f, as[i]? = bs[i]?) ∧
        ∀ a ∈ as[f]?, ∀ b ∈ bs[f]?, (msb a w).take r = (msb b w).take r)
  | f, [], [], _, _, _ => by simp
  | f, [], _ :: _, h, _, _ => by simp at h
  | f, _ :: _, [], h, _, _ => by simp at h
  | 0, a :: as, b :: bs, _, _, _ => by
    have htake : ∀ (n : ℕ) (words : List ℕ),
        (ofWords w (n :: words)).take (w * 0 + r) = (msb n w).take r := by
      intro n words
      rw [Nat.mul_zero, Nat.zero_add, ofWords_cons,
        take_append_of_le_length (by rw [length_msb]; omega)]
    rw [htake, htake]
    simp
  | f + 1, a :: as, b :: bs, hlength, ha, hb => by
    have htake : ∀ (n : ℕ) (words : List ℕ), (ofWords w (n :: words)).take (w * (f + 1) + r) =
        msb n w ++ (ofWords w words).take (w * f + r) := by
      intro n words
      rw [ofWords_cons, take_append, length_msb, take_of_length_le
        (by rw [length_msb, Nat.mul_add]; omega), show w * (f + 1) + r - w = w * f + r by
          rw [Nat.mul_add]; omega]
    have ih := take_ofWords_eq_iff hr f (Nat.succ.inj hlength)
      (fun a h => ha a (mem_cons_of_mem _ h)) fun b h => hb b (mem_cons_of_mem _ h)
    have hhead := msb_inj (ha a mem_cons_self) (hb b mem_cons_self)
    rw [htake, htake, append_eq_append_iff_of_size_eq_left (by simp), ih, hhead]
    simp only [List.getElem?_cons_succ]
    constructor
    · rintro ⟨rfl, hfull, hrest⟩
      refine ⟨fun i hi => ?_, hrest⟩
      cases i with
      | zero => rfl
      | succ i => exact hfull i (by omega)
    · rintro ⟨hfull, hrest⟩
      have hzero := hfull 0 (by omega)
      refine ⟨by simpa using hzero, fun i hi => ?_, hrest⟩
      simpa using hfull (i + 1) (by omega)

end Bits
