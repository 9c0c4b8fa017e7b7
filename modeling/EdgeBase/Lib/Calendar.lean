import Mathlib.Data.Int.Order.Basic
import Mathlib.Order.Monotone.Basic
import Mathlib.Algebra.Order.SuccPred
import Mathlib.Data.Int.SuccPred
import Mathlib.Tactic.IntervalCases
import Mathlib.Data.Int.ConditionallyCompleteOrder

/-!
# The Gregorian calendar

Days are numbered from the first of January 1970.

* `dayFromYear`, `monthStart`, `dayNumber` : from a date to its number.
* `yearOf`, `monthOf`, `dateOf` : from a number to its date.
* `dayNumber_civil`, `civil_dayNumber` : the two ways are inverse to each other.
* `dayNumber_lt` : dates are in the order of their numbers.
* `civil_add_cycle` : after 400 years all dates and all weekdays are the same.
-/

namespace Calendar

def dayFromYear (y : ℤ) : ℤ :=
  365 * (y - 1970) + (y - 1969) / 4 - (y - 1901) / 100 + (y - 1601) / 400

def leap (y : ℤ) : Bool := y % 4 = 0 ∧ (y % 100 ≠ 0 ∨ y % 400 = 0)

/-- How many days of a year come before a month; January is the month 0. -/
def monthStart (leap : Bool) (m : ℕ) : ℤ :=
  [0, 31, 59, 90, 120, 151, 181, 212, 243, 273, 304, 334].getD m 365 +
    if leap ∧ 2 ≤ m then 1 else 0

def dayNumber (y : ℤ) (m : ℕ) (d : ℤ) : ℤ := dayFromYear y + monthStart (leap y) m + (d - 1)

def Valid (y : ℤ) (m : ℕ) (d : ℤ) : Prop :=
  m < 12 ∧ 1 ≤ d ∧ d ≤ monthStart (leap y) (m + 1) - monthStart (leap y) m

def yearOf (n : ℤ) : ℤ :=
  let y := 1970 + 400 * n / 146097
  if dayFromYear (y + 1) ≤ n then y + 1 else if dayFromYear y ≤ n then y else y - 1

/-- The last of some months that begins on a day of the year, or before it. -/
def monthFrom (leap : Bool) (r : ℤ) : ℕ → ℕ
  | 0 => 0
  | m + 1 => if monthStart leap (m + 1) ≤ r then m + 1 else monthFrom leap r m

def monthOf (n : ℤ) : ℕ := monthFrom (leap (yearOf n)) (n - dayFromYear (yearOf n)) 11

def dateOf (n : ℤ) : ℤ :=
  n - dayFromYear (yearOf n) - monthStart (leap (yearOf n)) (monthOf n) + 1

def weekdayOf (n : ℤ) : ℤ := (n + 4) % 7

/-! ### Years -/

theorem dayFromYear_succ (y : ℤ) :
    dayFromYear (y + 1) = dayFromYear y + if leap y then 366 else 365 := by
  unfold dayFromYear leap
  by_cases h : y % 4 = 0 ∧ (y % 100 ≠ 0 ∨ y % 400 = 0)
  · rw [if_pos (decide_eq_true h)]
    omega
  · rw [if_neg (by simpa using h)]
    omega

theorem dayFromYear_strictMono : StrictMono dayFromYear := by
  refine strictMono_int_of_lt_succ fun y => ?_
  rw [dayFromYear_succ]
  split_ifs <;> omega

theorem yearOf_spec (n : ℤ) : dayFromYear (yearOf n) ≤ n ∧ n < dayFromYear (yearOf n + 1) := by
  unfold yearOf
  dsimp only
  have hlow : dayFromYear (1970 + 400 * n / 146097 - 1) ≤ n := by
    unfold dayFromYear
    omega
  have hhigh : n < dayFromYear (1970 + 400 * n / 146097 + 1 + 1) := by
    unfold dayFromYear
    omega
  split_ifs with hnext hthis
  · exact ⟨hnext, hhigh⟩
  · exact ⟨hthis, by omega⟩
  · refine ⟨hlow, ?_⟩
    rw [sub_add_cancel]
    omega

theorem yearOf_eq {n y : ℤ} (h : dayFromYear y ≤ n) (h' : n < dayFromYear (y + 1)) :
    yearOf n = y := by
  obtain ⟨hlow, hhigh⟩ := yearOf_spec n
  have hle : yearOf n < y + 1 := dayFromYear_strictMono.lt_iff_lt.1 (hlow.trans_lt h')
  have hge : y < yearOf n + 1 := dayFromYear_strictMono.lt_iff_lt.1 (h.trans_lt hhigh)
  omega

/-! ### Months -/

theorem monthStart_zero (leap : Bool) : monthStart leap 0 = 0 := by
  cases leap <;> rfl

theorem monthStart_twelve (leap : Bool) : monthStart leap 12 = if leap then 366 else 365 := by
  cases leap <;> rfl

theorem monthStart_mono (leap : Bool) : Monotone (monthStart leap) := by
  refine monotone_nat_of_le_succ fun m => ?_
  by_cases hm : m < 12
  · revert leap
    interval_cases m <;> decide
  · have h : ∀ k, 12 ≤ k → monthStart leap k = if leap then 366 else 365 := by
      intro k hk
      unfold monthStart
      rw [List.getD_eq_getElem?_getD, List.getElem?_eq_none (by simpa using hk), Option.getD_none]
      have htwo : 2 ≤ k := le_trans (by decide) hk
      cases leap <;> simp [htwo]
    rw [h m (Nat.le_of_not_lt hm), h (m + 1) (by omega)]

theorem monthFrom_spec (leap : Bool) {r : ℤ} (hr : 0 ≤ r) (m : ℕ) :
    monthFrom leap r m ≤ m ∧ monthStart leap (monthFrom leap r m) ≤ r ∧
      (monthFrom leap r m < m → r < monthStart leap (monthFrom leap r m + 1)) := by
  induction m with
  | zero => exact ⟨le_rfl, (monthStart_zero leap).trans_le hr, fun h => absurd h (lt_irrefl _)⟩
  | succ m ih =>
    obtain ⟨hle, hstart, hnext⟩ := ih
    rw [monthFrom]
    split_ifs with hm
    · exact ⟨le_rfl, hm, fun h => absurd h (lt_irrefl _)⟩
    · refine ⟨hle.trans (Nat.le_succ m), hstart, fun _ => ?_⟩
      rcases hle.lt_or_eq with hlt | heq
      · exact hnext hlt
      · rw [heq]
        exact not_le.1 hm

theorem monthOf_spec (n : ℤ) : monthOf n < 12 ∧
    monthStart (leap (yearOf n)) (monthOf n) ≤ n - dayFromYear (yearOf n) ∧
      n - dayFromYear (yearOf n) < monthStart (leap (yearOf n)) (monthOf n + 1) := by
  obtain ⟨hlow, hhigh⟩ := yearOf_spec n
  obtain ⟨hle, hstart, hnext⟩ :=
    monthFrom_spec (leap (yearOf n)) (sub_nonneg.2 hlow) 11
  refine ⟨Nat.lt_succ_of_le hle, hstart, ?_⟩
  rcases Nat.lt_or_ge (monthOf n) 11 with hlt | hge
  · exact hnext hlt
  · have heq : monthOf n = 11 := le_antisymm hle hge
    rw [heq, monthStart_twelve]
    rw [dayFromYear_succ] at hhigh
    omega

theorem monthOf_eq {n : ℤ} {m : ℕ} (h : monthStart (leap (yearOf n)) m ≤ n - dayFromYear (yearOf n))
    (h' : n - dayFromYear (yearOf n) < monthStart (leap (yearOf n)) (m + 1)) : monthOf n = m := by
  obtain ⟨-, hlow, hhigh⟩ := monthOf_spec n
  have hmono := monthStart_mono (leap (yearOf n))
  refine le_antisymm (Nat.le_of_lt_succ ?_) (Nat.le_of_lt_succ ?_)
  · exact hmono.reflect_lt (hlow.trans_lt h')
  · exact hmono.reflect_lt (h.trans_lt hhigh)

/-! ### Dates -/

theorem valid_civil (n : ℤ) : Valid (yearOf n) (monthOf n) (dateOf n) := by
  obtain ⟨hm, hlow, hhigh⟩ := monthOf_spec n
  unfold Valid dateOf
  refine ⟨hm, ?_, ?_⟩ <;> omega

theorem dayNumber_civil (n : ℤ) : dayNumber (yearOf n) (monthOf n) (dateOf n) = n := by
  unfold dayNumber dateOf
  omega

section Dates

variable {y : ℤ} {m : ℕ} {d : ℤ}

theorem dayNumber_mem (h : Valid y m d) :
    dayFromYear y ≤ dayNumber y m d ∧ dayNumber y m d < dayFromYear (y + 1) := by
  obtain ⟨hm, hlow, hhigh⟩ := h
  have hstart := monthStart_mono (leap y) (Nat.zero_le m)
  have hend : monthStart (leap y) (m + 1) ≤ monthStart (leap y) 12 :=
    monthStart_mono (leap y) (Nat.succ_le_of_lt hm)
  rw [monthStart_zero] at hstart
  rw [monthStart_twelve] at hend
  rw [dayFromYear_succ]
  unfold dayNumber
  constructor <;> omega

theorem yearOf_dayNumber (h : Valid y m d) : yearOf (dayNumber y m d) = y :=
  yearOf_eq (dayNumber_mem h).1 (dayNumber_mem h).2

theorem monthOf_dayNumber (h : Valid y m d) : monthOf (dayNumber y m d) = m := by
  have hyear := yearOf_dayNumber h
  obtain ⟨-, hlow, hhigh⟩ := h
  refine monthOf_eq ?_ ?_ <;> rw [hyear] <;> unfold dayNumber <;> omega

theorem dateOf_dayNumber (h : Valid y m d) : dateOf (dayNumber y m d) = d := by
  rw [dateOf, monthOf_dayNumber h, yearOf_dayNumber h]
  unfold dayNumber
  omega

theorem civil_dayNumber_iff :
    yearOf (dayNumber y m d) = y ∧ monthOf (dayNumber y m d) = m ∧ dateOf (dayNumber y m d) = d ↔
      Valid y m d := by
  constructor
  · rintro ⟨hy, hm, hd⟩
    have h := valid_civil (dayNumber y m d)
    rwa [hy, hm, hd] at h
  · exact fun h => ⟨yearOf_dayNumber h, monthOf_dayNumber h, dateOf_dayNumber h⟩

theorem dayNumber_lt {y' : ℤ} {m' : ℕ} {d' : ℤ} (h : Valid y m d) (h' : Valid y' m' d')
    (hlt : y < y' ∨ y = y' ∧ (m < m' ∨ m = m' ∧ d < d')) :
    dayNumber y m d < dayNumber y' m' d' := by
  rcases hlt with hy | ⟨rfl, hm | ⟨rfl, hd⟩⟩
  · have hle := dayFromYear_strictMono.monotone (Int.add_one_le_of_lt hy)
    exact (dayNumber_mem h).2.trans_le (hle.trans (dayNumber_mem h').1)
  · have hle := monthStart_mono (leap y) (Nat.succ_le_of_lt hm)
    obtain ⟨-, -, hhigh⟩ := h
    obtain ⟨-, hlow, -⟩ := h'
    unfold dayNumber
    have hsucc : monthStart (leap y) (m + 1) ≤ monthStart (leap y) m' := hle
    omega
  · unfold dayNumber
    omega

end Dates

theorem lt_of_civil_lt {n n' : ℤ} (hlt : yearOf n < yearOf n' ∨ yearOf n = yearOf n' ∧
    (monthOf n < monthOf n' ∨ monthOf n = monthOf n' ∧ dateOf n < dateOf n')) : n < n' := by
  have h := dayNumber_lt (valid_civil n) (valid_civil n') hlt
  rwa [dayNumber_civil, dayNumber_civil] at h

theorem yearOf_mono : Monotone yearOf := by
  intro n n' hle
  by_contra hlt
  exact absurd (lt_of_civil_lt (.inl (not_le.1 hlt))) (not_lt.2 hle)

/-! ### The cycle of 400 years -/

theorem dayFromYear_add_cycle (y k : ℤ) :
    dayFromYear (y + 400 * k) = dayFromYear y + 146097 * k := by
  unfold dayFromYear
  omega

theorem leap_add_cycle (y k : ℤ) : leap (y + 400 * k) = leap y := by
  unfold leap
  refine decide_eq_decide.2 ?_
  omega

theorem civil_add_cycle (n k : ℤ) : yearOf (n + 146097 * k) = yearOf n + 400 * k ∧
    monthOf (n + 146097 * k) = monthOf n ∧ dateOf (n + 146097 * k) = dateOf n := by
  have hvalid := valid_civil n
  have hvalid' : Valid (yearOf n + 400 * k) (monthOf n) (dateOf n) := by
    rwa [Valid, leap_add_cycle]
  have hnumber : dayNumber (yearOf n + 400 * k) (monthOf n) (dateOf n) = n + 146097 * k := by
    rw [dayNumber, leap_add_cycle, dayFromYear_add_cycle]
    have h := dayNumber_civil n
    unfold dayNumber at h
    omega
  rw [← hnumber]
  exact civil_dayNumber_iff.2 hvalid'

theorem weekdayOf_add_cycle (n k : ℤ) : weekdayOf (n + 146097 * k) = weekdayOf n := by
  unfold weekdayOf
  omega

end Calendar
