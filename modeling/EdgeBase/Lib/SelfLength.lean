import Mathlib.Algebra.Order.Monoid.Unbundled.Basic
import Mathlib.Order.Monotone.Basic
import Mathlib.Tactic.Ring

/-!
# A text that states its own length

A text with a number in it is `b` bytes long without the digits of the number, and the number is to
be the length of the whole.  One starts with zero, measures the text, puts the result in, and so on
until nothing changes.

* `SelfLength.measure_length`, `SelfLength.length_least` : it is the length, and the least that is.
-/

namespace SelfLength

def digits (n : ℕ) : ℕ := n.repr.length

/-- The length of a text of `b` bytes and the digits of a number. -/
def measure (b r : ℕ) : ℕ := b + digits r

/-- Evaluates a function again, at most `n` times, until it gives its argument. -/
def settle (f : ℕ → ℕ) : ℕ → ℕ → Option ℕ
  | 0, _ => none
  | n + 1, r => if f r = r then some r else settle f n (f r)

/-- The length of a text of `b` bytes and the digits of that length. -/
def length (b : ℕ) : ℕ := (measure b)^[3] 0

/-! ### Digits -/

theorem digits_le_iff {n k : ℕ} (h : 0 < k) : digits n ≤ k ↔ n < 10 ^ k :=
  Nat.length_repr_le_iff h

theorem digits_pos (n : ℕ) : 0 < digits n := Nat.length_repr_pos

theorem lt_pow_digits (n : ℕ) : n < 10 ^ digits n := (digits_le_iff (digits_pos n)).1 le_rfl

theorem digits_mono : Monotone digits := fun _ m h =>
  (digits_le_iff (digits_pos m)).2 (lt_of_le_of_lt h (lt_pow_digits m))

theorem measure_mono (b : ℕ) : Monotone (measure b) := fun _ _ h =>
  Nat.add_le_add_left (digits_mono h) b

theorem measure_le_measure {b b' r r' : ℕ} (hb : b ≤ b') (hr : r ≤ r') :
    measure b r ≤ measure b' r' := Nat.add_le_add hb (digits_mono hr)

theorem measure_le {b r k : ℕ} (hk : 0 < k) (h : r < 10 ^ k) : measure b r ≤ b + k :=
  Nat.add_le_add_left ((digits_le_iff hk).2 h) b

/-! ### The fixed point -/

/-- The first measurement counts the digit of zero.  The second has the digits of the first; the
third may have one more, and then all later ones do. -/
theorem measure_length (b : ℕ) : measure b (length b) = length b := by
  have hzero : measure b 0 = b + 1 := rfl
  have hlength : length b = measure b (measure b (b + 1)) := rfl
  have hfirst : measure b (b + 1) = b + digits (b + 1) := rfl
  rw [hlength, hfirst]
  generalize hd : digits (b + 1) = d
  have hpos : 0 < d := hd ▸ digits_pos (b + 1)
  have hlt : b + 1 < 10 ^ d := hd ▸ lt_pow_digits (b + 1)
  have hsmall : d < 10 ^ d := Nat.lt_pow_self (by decide)
  have hpow : 10 ^ (d + 1) = 10 ^ d * 10 := pow_succ 10 d
  have hle : digits (b + d) ≤ d + 1 := (digits_le_iff d.succ_pos).2 (by omega)
  have hge : d ≤ digits (b + d) := hd ▸ digits_mono (by omega)
  rcases Nat.lt_or_ge d (digits (b + d)) with hmore | hsame
  · have hnext : digits (b + d) = d + 1 := by omega
    have hfixed : digits (b + (d + 1)) = d + 1 := by
      refine Nat.le_antisymm ((digits_le_iff d.succ_pos).2 (by omega)) ?_
      rw [← hnext]
      exact digits_mono (by omega)
    rw [measure, measure, hnext, hfixed]
  · have hnext : digits (b + d) = d := by omega
    rw [measure, measure, hnext, hnext]

/-- Every number that is at least the length that it stands for is at least the one found. -/
theorem length_least {b m : ℕ} (h : measure b m ≤ m) : length b ≤ m := by
  have hstep : ∀ r ≤ m, measure b r ≤ m := fun r hr => (measure_mono b hr).trans h
  exact hstep _ (hstep _ (hstep 0 (Nat.zero_le m)))

theorem length_mono : Monotone length := by
  intro b b' h
  have hzero := measure_le_measure h (le_refl 0)
  exact measure_le_measure h (measure_le_measure h hzero)

theorem lt_length (b : ℕ) : b < length b := by
  rw [← measure_length, measure]
  exact Nat.lt_add_of_pos_right (digits_pos _)

theorem length_le {b k : ℕ} (h : b < 10 ^ k) : length b ≤ b + (k + 1) := by
  have hpow : 10 ^ (k + 1) = 10 ^ k * 10 := pow_succ 10 k
  have hsmall : k < 10 ^ k := Nat.lt_pow_self (by decide)
  exact length_least (measure_le k.succ_pos (by omega))

/-! ### Finding it -/

theorem settle_of_fixed {f : ℕ → ℕ} {n k r : ℕ} (hfixed : f (f^[k] r) = f^[k] r) (hk : k < n) :
    settle f n r = some (f^[k] r) := by
  induction n generalizing k r with
  | zero => exact absurd hk (Nat.not_lt_zero k)
  | succ n ih =>
    rw [settle]
    split_ifs with hr
    · rw [Function.iterate_fixed hr]
    · cases k with
      | zero => exact absurd hfixed hr
      | succ k => exact ih hfixed (Nat.lt_of_succ_lt_succ hk)

/-- A function that measures a text whose length has at most `k + 1` digits. -/
theorem settle_measure {f : ℕ → ℕ} {b k n : ℕ} (hb : b < 10 ^ k)
    (hf : ∀ r, r < 10 ^ (k + 1) → f r = measure b r) (hn : 3 < n) :
    settle f n 0 = some (length b) := by
  have hpow : 10 ^ (k + 1) = 10 ^ k * 10 := pow_succ 10 k
  have hsmall : k < 10 ^ k := Nat.lt_pow_self (by decide)
  have hnext : ∀ r, r < 10 ^ (k + 1) → f r = measure b r ∧ measure b r < 10 ^ (k + 1) := by
    intro r hr
    have hle := measure_le (b := b) k.succ_pos hr
    exact ⟨hf r hr, by omega⟩
  have hzero := hnext 0 (Nat.pow_pos (by decide))
  have hone := hnext _ hzero.2
  have htwo := hnext _ hone.2
  have hiterate : f^[3] 0 = length b := by
    change f (f (f 0)) = _
    rw [hzero.1, hone.1, htwo.1]
    rfl
  have hfixed : f (f^[3] 0) = f^[3] 0 := by
    rw [hiterate]
    exact ((hnext _ htwo.2).1).trans (measure_length b)
  rw [settle_of_fixed hfixed hn, hiterate]

end SelfLength
