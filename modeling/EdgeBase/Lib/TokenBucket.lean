import Mathlib.Algebra.Order.Field.Basic
import Mathlib.Data.List.TakeWhile
import Mathlib.Tactic.Linarith
import Mathlib.Tactic.Ring

/-!
# Token buckets

A bucket fills at a constant rate up to its capacity, and every request that is accepted takes a
token.

* `take` : one request.
* `accepted` : how many of some requests are accepted.
* `accepted_le` : no more than there are tokens, and those that come in meanwhile.
* `length_inWindow_le` : the bound for a window, whatever happened before it.
-/

namespace TokenBucket

open List

variable {K : Type*} [Field K] [LinearOrder K]

structure Bucket (K : Type*) where
  level : K
  last : K

variable (capacity rate : K)

def Bucket.at (b : Bucket K) (now : K) : K := min capacity (b.level + rate * (now - b.last))

def take (b : Bucket K) (now : K) : Bool × Bucket K :=
  if 1 ≤ b.at capacity rate now then (true, ⟨b.at capacity rate now - 1, now⟩)
  else (false, ⟨b.at capacity rate now, now⟩)

def accepted (b : Bucket K) : List K → ℕ
  | [] => 0
  | now :: times =>
    (take capacity rate b now).1.toNat + accepted (take capacity rate b now).2 times

def log (b : Bucket K) : List K → List (K × Bool)
  | [] => []
  | now :: times =>
    (now, (take capacity rate b now).1) :: log (take capacity rate b now).2 times

def inWindow (start length : K) (answer : K × Bool) : Bool :=
  answer.2 ∧ start ≤ answer.1 ∧ answer.1 ≤ start + length

/-- A bucket at a time: there are no debts, and it was last used before. -/
structure Fit (b : Bucket K) (now : K) : Prop where
  nonneg : 0 ≤ b.level
  last_le : b.last ≤ now

variable {capacity rate} {b : Bucket K} {now : K}

theorem take_last : (take capacity rate b now).2.last = now := by
  unfold take
  split_ifs <;> rfl

variable (capacity rate b now) in
theorem take_level : ((take capacity rate b now).1.toNat : K) + (take capacity rate b now).2.level =
      b.at capacity rate now := by
  unfold take
  split_ifs
  · simp
  · simp

theorem length_filter_log {times : List K} {start length : K} (htimes : times.Pairwise (· ≤ ·))
    (hstart : ∀ now ∈ times, start ≤ now) :
    ((log capacity rate b times).filter (inWindow start length)).length =
      accepted capacity rate b (times.takeWhile (· ≤ start + length)) := by
  induction times generalizing b with
  | nil => rfl
  | cons now times ih =>
    obtain ⟨hfirst, htimes⟩ := pairwise_cons.1 htimes
    obtain ⟨hnow, hstart⟩ := forall_mem_cons.1 hstart
    by_cases hend : now ≤ start + length
    · rw [log, takeWhile_cons_of_pos (by simpa using hend), accepted, filter_cons,
        ← ih htimes hstart]
      cases htake : (take capacity rate b now).1
      · simp [inWindow]
      · simp [inWindow, hnow, hend, Nat.add_comm]
    · -- all later requests are behind the window
      have hnone : ∀ answer ∈ log capacity rate b (now :: times),
          ¬inWindow start length answer = true := by
        have hlate : ∀ (ts : List K) (b : Bucket K), (∀ t ∈ ts, ¬t ≤ start + length) →
            ∀ answer ∈ log capacity rate b ts, ¬inWindow start length answer = true := by
          intro ts
          induction ts with
          | nil => exact fun _ _ _ hanswer => absurd hanswer not_mem_nil
          | cons t ts ih =>
            intro b hts
            obtain ⟨ht, hts⟩ := forall_mem_cons.1 hts
            refine forall_mem_cons.2 ⟨?_, ih _ hts⟩
            simp [inWindow, ht]
        refine hlate (now :: times) b (forall_mem_cons.2 ⟨hend, fun later hlater hle => ?_⟩)
        exact hend ((hfirst later hlater).trans hle)
      rw [filter_eq_nil_iff.2 hnone, takeWhile_cons_of_neg (by simpa using hend)]
      rfl

variable [IsStrictOrderedRing K] (hcapacity : 0 ≤ capacity) (hrate : 0 ≤ rate)

include hcapacity hrate

theorem at_nonneg (h : Fit b now) : 0 ≤ b.at capacity rate now := by
  have hin := mul_nonneg hrate (sub_nonneg.2 h.last_le)
  exact le_min hcapacity (add_nonneg h.nonneg hin)

theorem fit_take (h : Fit b now) {later : K} (hlater : now ≤ later) :
    Fit (take capacity rate b now).2 later where
  nonneg := by
    have hat := at_nonneg hcapacity hrate h
    unfold take
    split_ifs with hone
    · exact sub_nonneg.2 hone
    · exact hat
  last_le := take_last.trans_le hlater

/-- No more requests are accepted than there are tokens, and those that come in until the end. -/
theorem accepted_le {times : List K} {stop : K} (htimes : times.Pairwise (· ≤ ·))
    (hfit : ∀ now ∈ times, Fit b now) (hnonneg : 0 ≤ b.level)
    (hstop : ∀ now ∈ times, now ≤ stop) (hlast : b.last ≤ stop) :
    (accepted capacity rate b times : K) ≤ b.level + rate * (stop - b.last) := by
  induction times generalizing b with
  | nil =>
    have hin := mul_nonneg hrate (sub_nonneg.2 hlast)
    simpa [accepted] using add_nonneg hnonneg hin
  | cons now times ih =>
    obtain ⟨hfirst, htimes⟩ := pairwise_cons.1 htimes
    obtain ⟨hnow, -⟩ := forall_mem_cons.1 hfit
    obtain ⟨hle, hstop⟩ := forall_mem_cons.1 hstop
    have hnext : ∀ later ∈ times, Fit (take capacity rate b now).2 later := fun later hlater =>
      fit_take hcapacity hrate hnow (hfirst later hlater)
    have hrest := ih htimes hnext (fit_take hcapacity hrate hnow le_rfl).nonneg hstop
      (take_last.trans_le hle)
    rw [take_last] at hrest
    have htake := take_level capacity rate b now
    have hat : b.at capacity rate now ≤ b.level + rate * (now - b.last) := min_le_right _ _
    calc (accepted capacity rate b (now :: times) : K)
        = (take capacity rate b now).1.toNat +
            accepted capacity rate (take capacity rate b now).2 times := Nat.cast_add _ _
      _ ≤ b.at capacity rate now + rate * (stop - now) := by linarith
      _ ≤ b.level + rate * (stop - b.last) := by linarith

/-- In a window no more requests are accepted than the bucket holds, and those that come in
during the window. -/
theorem accepted_window {times : List K} {start length : K} (htimes : times.Pairwise (· ≤ ·))
    (hfit : ∀ now ∈ times, Fit b now) (hlength : 0 ≤ length)
    (hwindow : ∀ now ∈ times, start ≤ now ∧ now ≤ start + length) :
    (accepted capacity rate b times : K) ≤ capacity + rate * length := by
  cases times with
  | nil =>
    have hin := mul_nonneg hrate hlength
    simpa [accepted] using add_nonneg hcapacity hin
  | cons now times =>
    obtain ⟨hfirst, htimes⟩ := pairwise_cons.1 htimes
    obtain ⟨hnow, -⟩ := forall_mem_cons.1 hfit
    obtain ⟨⟨hstart, hend⟩, hwindow⟩ := forall_mem_cons.1 hwindow
    have hnext : ∀ later ∈ times, Fit (take capacity rate b now).2 later := fun later hlater =>
      fit_take hcapacity hrate hnow (hfirst later hlater)
    have hrest := accepted_le hcapacity hrate htimes hnext
      (fit_take hcapacity hrate hnow le_rfl).nonneg (fun later hlater => (hwindow later hlater).2)
      (take_last.trans_le hend)
    rw [take_last] at hrest
    have htake := take_level capacity rate b now
    have hat : b.at capacity rate now ≤ capacity := min_le_left _ _
    have hin : rate * (start + length - now) ≤ rate * length :=
      mul_le_mul_of_nonneg_left (by linarith) hrate
    calc (accepted capacity rate b (now :: times) : K)
        = (take capacity rate b now).1.toNat +
            accepted capacity rate (take capacity rate b now).2 times := Nat.cast_add _ _
      _ ≤ b.at capacity rate now + rate * (start + length - now) := by linarith
      _ ≤ capacity + rate * length := by linarith

theorem length_inWindow_le {times : List K} {start length : K} (htimes : times.Pairwise (· ≤ ·))
    (hnonneg : 0 ≤ b.level) (hlast : ∀ now ∈ times, b.last ≤ now) (hlength : 0 ≤ length) :
    (((log capacity rate b times).filter (inWindow start length)).length : K) ≤
      capacity + rate * length := by
  induction times generalizing b with
  | nil =>
    have hin := mul_nonneg hrate hlength
    simpa [log] using add_nonneg hcapacity hin
  | cons now times ih =>
    obtain ⟨hfirst, htimes'⟩ := pairwise_cons.1 htimes
    obtain ⟨hnow, -⟩ := forall_mem_cons.1 hlast
    by_cases hstart : start ≤ now
    · have hlater : ∀ t ∈ now :: times, start ≤ t :=
        forall_mem_cons.2 ⟨hstart, fun t ht => hstart.trans (hfirst t ht)⟩
      have hsub : ((now :: times).takeWhile (· ≤ start + length)).Sublist (now :: times) :=
        takeWhile_sublist _
      rw [length_filter_log htimes hlater]
      have hwindow : ∀ t ∈ (now :: times).takeWhile (· ≤ start + length),
          start ≤ t ∧ t ≤ start + length := fun t ht =>
        ⟨hlater t (hsub.subset ht), by simpa using mem_takeWhile_imp ht⟩
      exact accepted_window hcapacity hrate (htimes.sublist hsub)
        (fun t ht => ⟨hnonneg, hlast t (hsub.subset ht)⟩) hlength hwindow
    · have hfit := fit_take hcapacity hrate ⟨hnonneg, hnow⟩ le_rfl
      have hrest := ih htimes' hfit.nonneg fun t ht => take_last.trans_le (hfirst t ht)
      rw [log, filter_cons_of_neg (by simp [inWindow, hstart])]
      exact hrest

end TokenBucket
