import Mathlib.Data.List.Basic

/-!
# Runs

A machine takes one step for each action, in any order of the actions.

* `Runs.log` : what the actions report, one after the other.
* `Runs.Along.of_invariant`, `Runs.log_invariant`, `Runs.pairwise_log` : what an invariant gives
  over a whole run.
-/

namespace Runs

open List

variable {σ α β : Type*} (step : σ → α → σ)

def last (s : σ) (as : List α) : σ := as.foldl step s

/-- Every action satisfies a condition in the state in which it happens. -/
def Along (P : σ → α → Prop) : σ → List α → Prop
  | _, [] => True
  | s, a :: as => P s a ∧ Along P (step s a) as

def log (report : σ → α → List β) : σ → List α → List β
  | _, [] => []
  | s, a :: as => report s a ++ log report (step s a) as

variable {step} {I : σ → Prop} {P Q : σ → α → Prop} {s : σ} {as : List α}

@[simp] theorem last_nil : last step s [] = s := rfl

@[simp] theorem last_cons {a : α} : last step s (a :: as) = last step (step s a) as := rfl

theorem last_append (as as' : List α) :
    last step s (as ++ as') = last step (last step s as) as' := foldl_append

/-- Whether every action satisfies a condition. -/
def decidableAlong [∀ s a, Decidable (P s a)] : ∀ s as, Decidable (Along step P s as)
  | _, [] => inferInstanceAs (Decidable True)
  | s, a :: as =>
    have := decidableAlong (step s a) as
    inferInstanceAs (Decidable (P s a ∧ Along step P (step s a) as))

instance [∀ s a, Decidable (P s a)] : Decidable (Along step P s as) := decidableAlong s as

namespace Along

theorem append {as' : List α} : Along step P s (as ++ as') ↔
    Along step P s as ∧ Along step P (last step s as) as' := by
  induction as generalizing s with
  | nil => exact ⟨fun h => ⟨trivial, h⟩, And.right⟩
  | cons a as ih =>
    rw [cons_append, Along, Along, ih, and_assoc]
    rfl

theorem imp (h : Along step P s as) (hPQ : ∀ s a, P s a → Q s a) : Along step Q s as := by
  induction as generalizing s with
  | nil => trivial
  | cons a as ih => exact ⟨hPQ s a h.1, ih h.2⟩

theorem of_forall {p : α → Prop} (hp : ∀ a ∈ as, p a) : Along step (fun _ a => p a) s as := by
  induction as generalizing s with
  | nil => trivial
  | cons a as ih =>
    obtain ⟨ha, has⟩ := forall_mem_cons.1 hp
    exact ⟨ha, ih has⟩

theorem and : Along step (fun s a => P s a ∧ Q s a) s as ↔
    Along step P s as ∧ Along step Q s as := by
  induction as generalizing s with
  | nil => exact ⟨fun _ => ⟨trivial, trivial⟩, fun _ => trivial⟩
  | cons a as ih =>
    rw [Along, Along, Along, ih]
    exact and_and_and_comm

theorem and_forall {p : α → Prop} (h : Along step P s as) (hp : ∀ a ∈ as, p a) :
    Along step (fun s a => P s a ∧ p a) s as :=
  and.2 ⟨h, of_forall hp⟩

theorem of_invariant (h : Along step P s as) (hs : I s)
    (hstep : ∀ s a, I s → P s a → I (step s a)) (hQ : ∀ s a, I s → P s a → Q s a) :
    Along step Q s as ∧ I (last step s as) := by
  induction as generalizing s with
  | nil => exact ⟨trivial, hs⟩
  | cons a as ih =>
    obtain ⟨hQs, hlast⟩ := ih h.2 (hstep s a hs h.1)
    exact ⟨⟨hQ s a hs h.1, hQs⟩, hlast⟩

/-- Two conditions that agree wherever the first has kept an invariant hold of the same runs. -/
theorem iff_of_invariant (hs : I s) (hPQ : ∀ s a, I s → (P s a ↔ Q s a))
    (hstep : ∀ s a, I s → P s a → I (step s a)) : Along step P s as ↔ Along step Q s as := by
  induction as generalizing s with
  | nil => exact Iff.rfl
  | cons a as ih =>
    change P s a ∧ _ ↔ Q s a ∧ _
    rw [← hPQ s a hs]
    exact and_congr_right fun ha => ih (hstep s a hs ha)

end Along

variable {report : σ → α → List β}

theorem forall_log {p : β → Prop} (h : Along step P s as) (hs : I s)
    (hstep : ∀ s a, I s → P s a → I (step s a))
    (hreport : ∀ s a, I s → P s a → ∀ b ∈ report s a, p b) : ∀ b ∈ log step report s as, p b := by
  induction as generalizing s with
  | nil => exact nofun
  | cons a as ih =>
    intro b hb
    rcases mem_append.1 hb with hb | hb
    · exact hreport s a hs h.1 b hb
    · exact ih h.2 (hstep s a hs h.1) b hb

theorem log_invariant {J : List β → σ → Prop} {bs : List β}
    (hs : J bs s) (hstep : ∀ bs s a, J bs s → J (bs ++ report s a) (step s a)) (as : List α) :
    J (bs ++ log step report s as) (last step s as) := by
  induction as generalizing s bs with
  | nil => rwa [log, append_nil]
  | cons a as ih =>
    rw [log, ← append_assoc]
    exact ih (hstep bs s a hs)

/-- What a report leaves behind, and every step keeps, holds when a later one is made: so they are
related. -/
theorem pairwise_log {R : β → β → Prop} {J : β → σ → Prop}
    (h : Along step P s as) (hs : I s) (hstep : ∀ s a, I s → P s a → I (step s a))
    (hown : ∀ s a, I s → P s a → (report s a).Pairwise R)
    (hleaves : ∀ s a, I s → P s a → ∀ b ∈ report s a, J b (step s a))
    (hkeeps : ∀ s a b, I s → P s a → J b s → J b (step s a))
    (hR : ∀ s a b, I s → P s a → J b s → ∀ b' ∈ report s a, R b b') :
    (log step report s as).Pairwise R := by
  have hlater : ∀ (as : List α) (s : σ) (b : β), Along step P s as → I s → J b s →
      ∀ b' ∈ log step report s as, R b b' := by
    intro as
    induction as with
    | nil => exact fun _ _ _ _ _ => nofun
    | cons a as ih =>
      intro s b h hs hJ b' hb'
      rcases mem_append.1 hb' with hb' | hb'
      · exact hR s a b hs h.1 hJ b' hb'
      · exact ih (step s a) b h.2 (hstep s a hs h.1) (hkeeps s a b hs h.1 hJ) b' hb'
  induction as generalizing s with
  | nil => exact .nil
  | cons a as ih =>
    refine pairwise_append.2 ⟨hown s a hs h.1, ih h.2 (hstep s a hs h.1), fun b hb => ?_⟩
    exact hlater as (step s a) b h.2 (hstep s a hs h.1) (hleaves s a hs h.1 b hb)

/-- What happens after something else is among what was seen, as long as it is not seen again. -/
theorem pair_sublist_append {a b : β} {bs bs' : List β} (h : b ∉ bs') :
    [a, b].Sublist (bs ++ bs') ↔ [a, b].Sublist bs := by
  refine ⟨fun hsub => ?_, fun hsub => hsub.trans (sublist_append_left _ _)⟩
  obtain ⟨l, l', heq, hl, hl'⟩ := sublist_append_iff.1 hsub
  -- The second is the last of the two, and not among what is new.
  rcases eq_nil_or_concat l' with rfl | ⟨l', c, rfl⟩
  · rwa [heq, append_nil]
  · obtain rfl : b = c := by
      have := congrArg List.getLast? heq
      simpa using this
    exact (h (hl'.subset (by simp))).elim

theorem pair_sublist_concat {a b c : β} {bs : List β} :
    [a, b].Sublist (bs ++ [c]) ↔ [a, b].Sublist bs ∨ a ∈ bs ∧ b = c := by
  constructor
  · intro hsub
    obtain ⟨l, l', heq, hl, hl'⟩ := sublist_append_iff.1 hsub
    rcases sublist_singleton.1 hl' with rfl | rfl
    · rw [append_nil] at heq
      exact .inl (heq ▸ hl)
    · change [a] ++ [b] = l ++ [c] at heq
      obtain ⟨rfl, hlast⟩ := append_inj' heq rfl
      exact .inr ⟨singleton_sublist.1 hl, singleton_injective hlast⟩
  · rintro (hsub | ⟨ha, rfl⟩)
    · exact hsub.trans (sublist_append_left _ _)
    · exact (singleton_sublist.2 ha).append (.refl [b])

end Runs
