import Mathlib.Data.List.Induction
import Mathlib.Data.List.Nodup

/-!
# Plans that are carried out

A plan is a list of tasks.  They are carried out one after the other, each once, until one of them
fails; when all have been completed, that is recorded.

* `Progress.shape` : reports that a plan accepts look so.
-/

namespace Progress

open List

variable {α : Type*}

inductive Event (α : Type*) where
  | planned (tasks : List α)
  | declined
  | started (a : α)
  | completed (a : α)
  | failed (a : α)
  | recorded
  deriving DecidableEq

/-- How far a plan is, and which tasks are left. -/
inductive Phase (α : Type*) where
  | idle
  | ready (left : List α)
  | busy (a : α) (left : List α)
  | stopped
  | recorded
  deriving DecidableEq

/-- What a report makes of a phase, if it can be made there. -/
def next [DecidableEq α] : Phase α → Event α → Option (Phase α)
  | .idle, .planned tasks => some (.ready tasks)
  | .idle, .declined => some .stopped
  | .ready (a :: left), .started b => if a = b then some (.busy a left) else none
  | .busy a left, .completed b => if a = b then some (.ready left) else none
  | .busy a _, .failed b => if a = b then some .stopped else none
  | .ready [], .recorded => some .recorded
  | _, _ => none

def phase [DecidableEq α] (log : List (Event α)) : Option (Phase α) :=
  log.foldlM next .idle

def starts (log : List (Event α)) : List α :=
  log.filterMap fun
    | .started a => some a
    | _ => none

def completes (log : List (Event α)) : List α :=
  log.filterMap fun
    | .completed a => some a
    | _ => none

def plan (log : List (Event α)) : List α :=
  log.flatMap fun
    | .planned tasks => tasks
    | _ => []

/-- Tasks that were started and completed, one after the other. -/
def carriedOut (done : List α) : List (Event α) :=
  done.flatMap fun a => [.started a, .completed a]

/-- What has been reported of a plan, in each phase. -/
inductive Shape : List (Event α) → Phase α → Prop where
  | idle : Shape [] .idle
  | declined : Shape [.declined] .stopped
  | ready (done left : List α) :
    Shape (.planned (done ++ left) :: carriedOut done) (.ready left)
  | busy (done : List α) (a : α) (left : List α) :
    Shape (.planned (done ++ a :: left) :: carriedOut done ++ [.started a]) (.busy a left)
  | stopped (done : List α) (a : α) (left : List α) :
    Shape (.planned (done ++ a :: left) :: carriedOut done ++ [.started a, .failed a]) .stopped
  | recorded (done : List α) :
    Shape (.planned done :: carriedOut done ++ [.recorded]) .recorded

variable {log : List (Event α)} {φ φ' : Phase α} {e : Event α} {a : α}

theorem carriedOut_append (done done' : List α) :
    carriedOut (done ++ done') = carriedOut done ++ carriedOut done' := flatMap_append

theorem starts_carriedOut (done : List α) : starts (carriedOut done) = done := by
  induction done with
  | nil => rfl
  | cons a done ih => exact congrArg (a :: ·) ih

theorem completes_carriedOut (done : List α) : completes (carriedOut done) = done := by
  induction done with
  | nil => rfl
  | cons a done ih => exact congrArg (a :: ·) ih

theorem starts_append (log log' : List (Event α)) :
    starts (log ++ log') = starts log ++ starts log' := filterMap_append

theorem completes_append (log log' : List (Event α)) :
    completes (log ++ log') = completes log ++ completes log' := filterMap_append

theorem plan_carriedOut (done : List α) : plan (carriedOut done) = [] := by
  induction done with
  | nil => rfl
  | cons a done ih => exact ih

theorem plan_append (log log' : List (Event α)) : plan (log ++ log') = plan log ++ plan log' :=
  flatMap_append

theorem completed_mem_carriedOut {done : List α} (h : a ∈ done) :
    .completed a ∈ carriedOut done := by
  refine mem_flatMap.2 ⟨a, h, ?_⟩
  exact mem_cons_of_mem _ mem_cons_self

namespace Shape

variable (h : Shape log φ)
include h

theorem starts_prefix : starts log <+: plan log := by
  cases h with
  | idle => exact prefix_rfl
  | declined => exact prefix_rfl
  | ready done left =>
    change starts (carriedOut done) <+: (done ++ left) ++ plan (carriedOut done)
    rw [starts_carriedOut, plan_carriedOut, append_nil]
    exact prefix_append done left
  | busy done a left =>
    change starts (carriedOut done ++ [.started a]) <+:
      (done ++ a :: left) ++ plan (carriedOut done ++ [.started a])
    rw [starts_append, starts_carriedOut, plan_append, plan_carriedOut]
    exact ⟨left, by simp [starts, plan]⟩
  | stopped done a left =>
    change starts (carriedOut done ++ [.started a, .failed a]) <+:
      (done ++ a :: left) ++ plan (carriedOut done ++ [.started a, .failed a])
    rw [starts_append, starts_carriedOut, plan_append, plan_carriedOut]
    exact ⟨left, by simp [starts, plan]⟩
  | recorded done =>
    change starts (carriedOut done ++ [Event.recorded]) <+:
      done ++ plan (carriedOut done ++ [Event.recorded])
    rw [starts_append, starts_carriedOut, plan_append, plan_carriedOut]
    exact ⟨[], by simp [starts, plan]⟩

theorem planned : log = [] ∨ log = [.declined] ∨ .planned (plan log) ∈ log := by
  have hplan (tasks done : List α) (tail : List (Event α)) (htail : plan tail = []) :
      .planned (plan (.planned tasks :: carriedOut done ++ tail)) ∈
        .planned tasks :: carriedOut done ++ tail := by
    have heq : plan (.planned tasks :: carriedOut done ++ tail) = tasks := by
      change tasks ++ plan (carriedOut done ++ tail) = tasks
      rw [plan_append, plan_carriedOut, htail]
      exact append_nil tasks
    rw [heq]
    exact mem_cons_self
  cases h with
  | idle => exact .inl rfl
  | declined => exact .inr (.inl rfl)
  | ready done left =>
    have hready := hplan (done ++ left) done [] rfl
    rw [append_nil] at hready
    exact .inr (.inr hready)
  | busy done a left => exact .inr (.inr (hplan _ _ _ rfl))
  | stopped done a left => exact .inr (.inr (hplan _ _ _ rfl))
  | recorded done => exact .inr (.inr (hplan _ _ _ rfl))

theorem eq_of_declined (hmem : .declined ∈ log) : log = [.declined] := by
  have hnot (done : List α) : .declined ∉ carriedOut done := by simp [carriedOut]
  cases h with
  | idle => cases hmem
  | declined => rfl
  | ready done left => exact (hnot done (by simpa using hmem)).elim
  | busy done a left => exact (hnot done (by simpa using hmem)).elim
  | stopped done a left => exact (hnot done (by simpa using hmem)).elim
  | recorded done => exact (hnot done (by simpa using hmem)).elim

theorem completes_prefix :
    completes log <+: starts log ∧ (starts log).length ≤ (completes log).length + 1 := by
  have hdone (done : List α) (tail : List (Event α)) (tasks : List α) :
      completes (.planned tasks :: carriedOut done ++ tail) = done ++ completes tail ∧
        starts (.planned tasks :: carriedOut done ++ tail) = done ++ starts tail := by
    change completes (carriedOut done ++ tail) = _ ∧ starts (carriedOut done ++ tail) = _
    rw [completes_append, starts_append, completes_carriedOut, starts_carriedOut]
    exact ⟨rfl, rfl⟩
  cases h with
  | idle => exact ⟨prefix_rfl, Nat.zero_le _⟩
  | declined => exact ⟨prefix_rfl, Nat.zero_le _⟩
  | ready done left =>
    obtain ⟨hcompletes, hstarts⟩ := hdone done [] (done ++ left)
    rw [append_nil] at hcompletes hstarts
    rw [hcompletes, hstarts]
    exact ⟨prefix_rfl, Nat.le_succ _⟩
  | busy done a left =>
    obtain ⟨hcompletes, hstarts⟩ := hdone done [.started a] (done ++ a :: left)
    rw [hcompletes, hstarts]
    exact ⟨⟨[a], by simp [starts, completes]⟩, by simp [starts, completes]⟩
  | stopped done a left =>
    obtain ⟨hcompletes, hstarts⟩ := hdone done [.started a, .failed a] (done ++ a :: left)
    rw [hcompletes, hstarts]
    exact ⟨⟨[a], by simp [starts, completes]⟩, by simp [starts, completes]⟩
  | recorded done =>
    obtain ⟨hcompletes, hstarts⟩ := hdone done [.recorded] done
    rw [hcompletes, hstarts]
    exact ⟨prefix_rfl, Nat.le_succ _⟩

theorem completed_recorded (hrecorded : .recorded ∈ log) (ha : a ∈ plan log) :
    [.completed a, .recorded].Sublist log := by
  have hnot (done : List α) : .recorded ∉ carriedOut done := by simp [carriedOut]
  cases h with
  | idle => cases ha
  | declined => cases ha
  | ready done left => exact (hnot done (by simpa using hrecorded)).elim
  | busy done b left => exact (hnot done (by simpa using hrecorded)).elim
  | stopped done b left => exact (hnot done (by simpa using hrecorded)).elim
  | recorded done =>
    have hplan : plan (.planned done :: carriedOut done ++ [.recorded]) = done := by
      change done ++ plan (carriedOut done ++ [.recorded]) = done
      rw [plan_append, plan_carriedOut]
      exact append_nil done
    rw [hplan] at ha
    refine List.Sublist.cons _ ?_
    exact (singleton_sublist.2 (completed_mem_carriedOut ha)).append (List.Sublist.refl _)

end Shape

variable [DecidableEq α]

theorem phase_append (log log' : List (Event α)) :
    phase (log ++ log') = (phase log).bind fun φ => log'.foldlM next φ := foldlM_append

theorem Shape.next (h : Shape log φ) (hnext : next φ e = some φ') : Shape (log ++ [e]) φ' := by
  cases h with
  | idle =>
    cases e with
    | planned tasks =>
      cases hnext
      exact .ready [] tasks
    | declined =>
      cases hnext
      exact .declined
    | _ => cases hnext
  | declined => cases e <;> cases hnext
  | ready done left =>
    cases left with
    | nil =>
      cases e with
      | recorded =>
        cases hnext
        rw [append_nil]
        exact .recorded done
      | _ => cases hnext
    | cons a left =>
      cases e with
      | started b =>
        dsimp only [Progress.next] at hnext
        split_ifs at hnext with hab
        cases hnext
        subst hab
        exact .busy done a left
      | _ => cases hnext
  | busy done a left =>
    cases e with
    | completed b =>
      dsimp only [Progress.next] at hnext
      split_ifs at hnext with hab
      cases hnext
      subst hab
      have hready := Shape.ready (done ++ [a]) left
      rw [append_assoc, carriedOut_append] at hready
      simpa [carriedOut] using hready
    | failed b =>
      dsimp only [Progress.next] at hnext
      split_ifs at hnext with hab
      cases hnext
      subst hab
      have hstopped := Shape.stopped done a left
      simpa using hstopped
    | _ => cases hnext
  | stopped => cases e <;> cases hnext
  | recorded => cases e <;> cases hnext

theorem shape (h : phase log = some φ) : Shape log φ := by
  induction log using List.reverseRecOn generalizing φ with
  | nil =>
    cases h
    exact .idle
  | append_singleton log e ih =>
    rw [phase_append] at h
    obtain ⟨φ₀, hφ₀, hnext⟩ := Option.bind_eq_some_iff.1 h
    refine (ih hφ₀).next ?_
    simpa using hnext

end Progress
