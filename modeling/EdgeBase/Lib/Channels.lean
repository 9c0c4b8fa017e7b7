import Mathlib.Data.Fintype.Basic
import Mathlib.Data.Set.Basic

/-!
# Channels between parties

Every party posts to all others.  What was posted is delivered later, for each sender and receiver
in the order in which it was posted.

* `Channels.post`, `Channels.pop` : a party posts, and the oldest message is delivered.
-/

/-- What is still to be delivered, by sender and receiver. -/
def Channels (τ μ : Type*) := τ → τ → List μ

namespace Channels

variable {τ μ : Type*} [DecidableEq τ]

def empty : Channels τ μ := fun _ _ => []

def post (c : Channels τ μ) (a : τ) (m : μ) : Channels τ μ :=
  fun x y => if x = a ∧ y ≠ a then c x y ++ [m] else c x y

/-- The oldest message of one party to another is taken out. -/
def pop (c : Channels τ μ) (a b : τ) : Channels τ μ :=
  fun x y => if x = a ∧ y = b then (c x y).tail else c x y

/-- A party has still to receive a message of some kind. -/
def Pending (c : Channels τ μ) (b : τ) (p : μ → Prop) : Prop := ∃ a, ∃ m ∈ c a b, p m

instance [Fintype τ] (c : Channels τ μ) (b : τ) (p : μ → Prop) [DecidablePred p] :
    Decidable (c.Pending b p) := inferInstanceAs (Decidable (∃ a, ∃ m ∈ c a b, p m))

variable {c : Channels τ μ} {a b d : τ} {m : μ} {p : μ → Prop}

theorem mem_post {x y : τ} {m' : μ} : m' ∈ c.post a m x y ↔
    m' ∈ c x y ∨ (x = a ∧ y ≠ a) ∧ m' = m := by
  unfold post
  split
  · next h => rw [List.mem_append, List.mem_singleton, and_iff_right h]
  · next h => exact ⟨.inl, fun h' => h'.resolve_right fun h' => h h'.1⟩

theorem post_self (c : Channels τ μ) (a b : τ) (m : μ) : c.post b m a b = c a b :=
  if_neg fun h => h.2 rfl

theorem Pending.post (h : c.Pending b p) (a : τ) (m : μ) : (c.post a m).Pending b p := by
  obtain ⟨x, m', hm, hp⟩ := h
  exact ⟨x, m', mem_post.2 (.inl hm), hp⟩

theorem pending_post (hb : b ≠ a) (hp : p m) : (c.post a m).Pending b p :=
  ⟨a, m, mem_post.2 (.inr ⟨⟨rfl, hb⟩, rfl⟩), hp⟩

theorem Pending.pop (h : c.Pending d p) (hkeep : d = b → ∀ m ∈ (c a b).head?, ¬p m) :
    (c.pop a b).Pending d p := by
  obtain ⟨x, m, hm, hp⟩ := h
  refine ⟨x, m, ?_, hp⟩
  unfold Channels.pop
  split
  · next heq =>
    obtain ⟨rfl, rfl⟩ := heq
    cases hc : c x d with
    | nil =>
      rw [hc] at hm
      cases hm
    | cons m' ms =>
      rw [hc] at hm
      rcases List.mem_cons.1 hm with rfl | hm
      · exact absurd hp (hkeep rfl m (by rw [hc]; rfl))
      · exact hm
  · exact hm

theorem mem_of_mem_pop {x y : τ} (h : m ∈ c.pop a b x y) : m ∈ c x y := by
  unfold pop at h
  split at h
  · exact List.mem_of_mem_tail h
  · exact h

end Channels
