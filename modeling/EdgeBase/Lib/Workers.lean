import Mathlib.Algebra.Order.Monoid.Unbundled.Pow
import Mathlib.Data.List.Sort
import Mathlib.Algebra.Order.Ring.Nat

/-!
# Workers that take the next job

Jobs wait in a queue, and the worker that is free first takes the next one.

* `Workers.starts_le` : jobs that take no longer than `D` are started in rounds of one job for each
  worker, the `k`-th of them by `k • D`.
* `Workers.le_starts` : jobs that take at least `D` are not started in earlier rounds.
-/

namespace Workers

open List

variable {T : Type*} [LinearOrder T]

/-- Some workers, in the order in which they are free, of which a job takes the first. -/
structure Queue (workers : ℕ) (free : List T) : Prop where
  sorted : free.Pairwise (· ≤ ·)
  length : free.length = workers

theorem queue_replicate (workers : ℕ) (t : T) : Queue workers (List.replicate workers t) where
  sorted := pairwise_replicate.2 (.inr le_rfl)
  length := length_replicate

section Next

variable {workers : ℕ} {free : T} {others : List T}

theorem Queue.next (h : Queue workers (free :: others)) (t : T) :
    Queue workers (others.orderedInsert (· ≤ ·) t) where
  sorted := (pairwise_cons.1 h.sorted).2.orderedInsert t others
  length := by
    rw [orderedInsert_length, ← h.length, length_cons]

theorem countP_next (p : T → Bool) (t : T) :
    (others.orderedInsert (· ≤ ·) t).countP p = others.countP p + if p t then 1 else 0 := by
  rw [(perm_orderedInsert _ t others).countP_eq, countP_cons]

theorem countP_of_first (h : Queue workers (free :: others)) {t : T}
    (ht : t < free) : (free :: others).countP (fun f => t < f) = workers := by
  rw [← h.length, countP_eq_length]
  intro f hf
  rcases mem_cons.1 hf with rfl | hf
  · exact decide_eq_true ht
  · exact decide_eq_true (ht.trans_le ((pairwise_cons.1 h.sorted).1 f hf))

end Next

variable [AddCommMonoid T]

/-- When the jobs start that take some times; the workers are free at `free`, in order. -/
def starts : List T → List T → List T
  | free :: others, d :: jobs =>
    free :: starts (others.orderedInsert (· ≤ ·) (free + d)) jobs
  | _, _ => []

theorem length_starts {free : List T} (h : free ≠ []) (jobs : List T) :
    (starts free jobs).length = jobs.length := by
  induction jobs generalizing free with
  | nil =>
    cases free with
    | nil => rfl
    | cons f others => rfl
  | cons d jobs ih =>
    obtain ⟨f, others, rfl⟩ := exists_cons_of_ne_nil h
    have hne : others.orderedInsert (· ≤ ·) (f + d) ≠ [] := by
      rw [← length_pos_iff, orderedInsert_length]
      exact Nat.succ_pos _
    rw [starts, length_cons, length_cons, ih hne]

variable {workers : ℕ} {t₀ D : T}

/-- After `i` jobs that take at least `D`: so many workers at most are free before `k • D`. -/
def Behind (workers : ℕ) (t₀ D : T) (i : ℕ) (free : List T) : Prop :=
  ∀ k, free.countP (fun f => f < t₀ + k • D) ≤ k * workers - i

theorem behind_replicate : Behind workers t₀ D 0 (List.replicate workers t₀) := by
  intro k
  cases k with
  | zero =>
    rw [countP_eq_zero.2]
    · exact Nat.zero_le _
    · intro f hf
      rw [eq_of_mem_replicate hf, zero_nsmul, add_zero]
      simp
  | succ k =>
    refine countP_le_length.trans ?_
    rw [length_replicate, Nat.succ_mul]
    omega

variable [IsOrderedAddMonoid T]

/-! ### Short jobs -/

/-- After `i` jobs that take no longer than `D`: so many workers are not free by `k • D`. -/
def Ahead (workers : ℕ) (t₀ D : T) (i : ℕ) (free : List T) : Prop :=
  ∀ k, free.countP (fun f => t₀ + k • D < f) ≤ i - k * workers

theorem ahead_replicate (hD : 0 ≤ D) : Ahead workers t₀ D 0 (List.replicate workers t₀) := by
  intro k
  rw [countP_eq_zero.2]
  · exact Nat.zero_le _
  · intro f hf
    rw [eq_of_mem_replicate hf]
    have hle : t₀ ≤ t₀ + k • D := le_add_of_nonneg_right (nsmul_nonneg hD k)
    simpa using hle

theorem Ahead.next {i : ℕ} {free d : T} {others : List T} (hqueue : Queue workers (free :: others))
    (h : Ahead workers t₀ D i (free :: others)) (hd : d ≤ D) :
    Ahead workers t₀ D (i + 1) (others.orderedInsert (· ≤ ·) (free + d)) := by
  intro k
  have hk := h k
  rw [countP_next]
  rw [countP_cons] at hk
  split
  · next hlate =>
    have hlate := of_decide_eq_true hlate
    cases k with
    | zero =>
      rw [Nat.zero_mul] at hk ⊢
      omega
    | succ k =>
      -- the worker was late in the round before, so all were
      have hfirst : t₀ + k • D < free := by
        by_contra hnot
        have hle : free + d ≤ t₀ + k • D + D := add_le_add (not_lt.1 hnot) hd
        rw [add_assoc, ← succ_nsmul] at hle
        exact absurd hlate (not_lt.2 hle)
      have hall := h k
      rw [countP_of_first hqueue hfirst] at hall
      have hpos : 0 < workers := by
        rw [← hqueue.length]
        exact Nat.succ_pos _
      rw [Nat.succ_mul] at hk ⊢
      omega
  · omega

/-- Jobs that take no longer than `D` are started in rounds. -/
theorem starts_le_of_ahead {jobs : List T} (hD : ∀ d ∈ jobs, d ≤ D) {i : ℕ} {free : List T}
    (hqueue : Queue workers free) (h : Ahead workers t₀ D i free) {j : ℕ} {t : T}
    (ht : (starts free jobs)[j]? = some t) : t ≤ t₀ + ((i + j) / workers) • D := by
  induction jobs generalizing free i j with
  | nil => cases free <;> cases ht
  | cons d jobs ih =>
    obtain ⟨hd, hjobs⟩ := forall_mem_cons.1 hD
    cases free with
    | nil => cases ht
    | cons f others =>
      cases j with
      | zero =>
        obtain rfl := Option.some.inj ht
        have hpos : 0 < workers := by
          rw [← hqueue.length]
          exact Nat.succ_pos _
        rw [Nat.add_zero]
        by_contra hlate
        have hall := h (i / workers)
        rw [countP_of_first hqueue (not_le.1 hlate)] at hall
        have hmod := Nat.div_add_mod' i workers
        have hlt := Nat.mod_lt i hpos
        omega
      | succ j =>
        have hindex : i + (j + 1) = i + 1 + j := by omega
        rw [hindex]
        exact ih hjobs (hqueue.next _) (h.next hqueue hd) ht

/-- Of jobs that take no longer than `D`, the `j`-th is started in its round. -/
theorem starts_le {jobs : List T} (hD : ∀ d ∈ jobs, d ≤ D) (h0 : 0 ≤ D) {j : ℕ} {t : T}
    (ht : (starts (List.replicate workers t₀) jobs)[j]? = some t) : t ≤ t₀ + (j / workers) • D := by
  have hle := starts_le_of_ahead hD (queue_replicate workers t₀) (ahead_replicate h0) ht
  rwa [Nat.zero_add] at hle

/-! ### Long jobs -/

theorem Behind.next {i : ℕ} {free d : T} {others : List T}
    (hqueue : Queue workers (free :: others)) (h : Behind workers t₀ D i (free :: others))
    (hd : D ≤ d) (h0 : 0 ≤ D) :
    Behind workers t₀ D (i + 1) (others.orderedInsert (· ≤ ·) (free + d)) := by
  intro k
  have hk := h k
  rw [countP_next]
  have hlength : others.countP (fun f => f < t₀ + k • D) + 1 ≤ workers := by
    rw [← hqueue.length, length_cons]
    exact Nat.succ_le_succ countP_le_length
  rw [countP_cons] at hk
  split
  · next hearly =>
    have hearly := of_decide_eq_true hearly
    cases k with
    | zero =>
      rw [zero_nsmul, add_zero] at hearly
      have hfree : free < t₀ := (le_add_of_nonneg_right (h0.trans hd)).trans_lt hearly
      simp [hfree] at hk
    | succ k =>
      -- the worker was free in the round before, so not all jobs of that round are started
      have hfirst : free < t₀ + k • D := by
        by_contra hnot
        have hle : t₀ + k • D + D ≤ free + d := add_le_add (not_lt.1 hnot) hd
        rw [add_assoc, ← succ_nsmul] at hle
        exact absurd hearly (not_lt.2 hle)
      have hbefore := h k
      rw [countP_cons, if_pos (decide_eq_true hfirst)] at hbefore
      rw [Nat.succ_mul]
      omega
  · next hlate =>
    by_cases hfree : free < t₀ + k • D
    · rw [if_pos (decide_eq_true hfree)] at hk
      omega
    · have hnone : others.countP (fun f => f < t₀ + k • D) = 0 := by
        rw [countP_eq_zero]
        intro f hf
        have hle := (pairwise_cons.1 hqueue.sorted).1 f hf
        simpa using (not_lt.1 hfree).trans hle
      omega

theorem le_starts_of_behind {jobs : List T} (hD : ∀ d ∈ jobs, D ≤ d) (h0 : 0 ≤ D) {i : ℕ}
    {free : List T} (hqueue : Queue workers free) (h : Behind workers t₀ D i free) {j : ℕ} {t : T}
    (ht : (starts free jobs)[j]? = some t) : t₀ + ((i + j) / workers) • D ≤ t := by
  induction jobs generalizing free i j with
  | nil => cases free <;> cases ht
  | cons d jobs ih =>
    obtain ⟨hd, hjobs⟩ := forall_mem_cons.1 hD
    cases free with
    | nil => cases ht
    | cons f others =>
      cases j with
      | zero =>
        obtain rfl := Option.some.inj ht
        rw [Nat.add_zero]
        by_contra hearly
        have hbefore := h (i / workers)
        rw [countP_cons, if_pos (decide_eq_true (not_le.1 hearly))] at hbefore
        have hmod := Nat.div_add_mod' i workers
        omega
      | succ j =>
        have hindex : i + (j + 1) = i + 1 + j := by omega
        rw [hindex]
        exact ih hjobs (hqueue.next _) (h.next hqueue hd h0) ht

/-- Of jobs that take at least `D`, the `j`-th is not started before its round. -/
theorem le_starts {jobs : List T} (hD : ∀ d ∈ jobs, D ≤ d) (h0 : 0 ≤ D) {j : ℕ} {t : T}
    (ht : (starts (List.replicate workers t₀) jobs)[j]? = some t) : t₀ + (j / workers) • D ≤ t := by
  have hle := le_starts_of_behind hD h0 (queue_replicate workers t₀) behind_replicate ht
  rwa [Nat.zero_add] at hle

end Workers
