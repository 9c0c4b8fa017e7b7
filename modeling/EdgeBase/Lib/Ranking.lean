import Mathlib.Data.List.Sort
import Mathlib.Order.Basic

/-!
# The first match of a ranked list

A list of rules is sorted by a score, the highest first and equal scores in the given order, and
the first rule that answers is taken.

* `Ranking.find?_ranked` : the two agree.
* `Ranking.best_eq_some_iff` : the rule that is taken scores higher than those before it that
  answer, and at least as high as those behind it.
-/

namespace Ranking

open List

variable {α β : Type*} [LinearOrder β] (score : α → β) (p : α → Bool)

def ranked (l : List α) : List α := l.insertionSort fun a b => score b ≤ score a

/-- The first of the answering rules with the highest score. -/
def best : List α → Option α
  | [] => none
  | x :: l =>
    if p x then
      match best l with
      | some a => if score x < score a then some a else some x
      | none => some x
    else best l

variable {score p} {l : List α} {a x : α}

theorem pairwise_ranked (l : List α) : (ranked score l).Pairwise fun a b => score b ≤ score a :=
  haveI : Std.Total fun a b : α => score b ≤ score a := ⟨fun a b => le_total (score b) (score a)⟩
  haveI : IsTrans α fun a b : α => score b ≤ score a := ⟨fun _ _ _ hab hbc => hbc.trans hab⟩
  pairwise_insertionSort _ l

@[simp] theorem mem_ranked : a ∈ ranked score l ↔ a ∈ l := mem_insertionSort _

theorem find?_orderedInsert {s : List α} (hs : s.Pairwise fun a b => score b ≤ score a) (x : α) :
    (s.orderedInsert (fun a b => score b ≤ score a) x).find? p =
      if p x then
        match s.find? p with
        | some a => if score x < score a then some a else some x
        | none => some x
      else s.find? p := by
  induction s with
  | nil => cases hx : p x <;> simp [hx]
  | cons y s ih =>
    obtain ⟨hy, hs⟩ := pairwise_cons.1 hs
    by_cases hle : score y ≤ score x
    · rw [orderedInsert_cons, if_pos hle]
      cases hx : p x with
      | false => simp [hx]
      | true =>
        rw [List.find?_cons_of_pos hx, if_pos rfl]
        -- everything behind scores no higher
        cases hfound : (y :: s).find? p with
        | none => rfl
        | some a =>
          have hle' : score a ≤ score x := by
            rcases mem_cons.1 (List.mem_of_find?_eq_some hfound) with rfl | ha
            · exact hle
            · exact (hy a ha).trans hle
          exact (if_neg (not_lt.2 hle')).symm
    · rw [orderedInsert_cons, if_neg hle]
      cases hpy : p y with
      | true =>
        rw [List.find?_cons_of_pos hpy, List.find?_cons_of_pos hpy]
        cases p x with
        | false => rfl
        | true => exact (if_pos (not_le.1 hle)).symm
      | false =>
        rw [List.find?_cons_of_neg (by simp [hpy]), List.find?_cons_of_neg (by simp [hpy])]
        exact ih hs

theorem find?_ranked (l : List α) : (ranked score l).find? p = best score p l := by
  induction l with
  | nil => rfl
  | cons x l ih =>
    have hsorted : (ranked score l).Pairwise _ := pairwise_ranked l
    have hinsert := find?_orderedInsert (p := p) hsorted x
    rw [ih] at hinsert
    exact hinsert

theorem best_eq_none_iff : best score p l = none ↔ ∀ a ∈ l, ¬ p a := by
  rw [← find?_ranked, List.find?_eq_none]
  simp

/-- What is taken scores higher than what answers before it, and no lower than what answers
behind it. -/
theorem best_eq_some_iff : best score p l = some a ↔ ∃ pre post, l = pre ++ a :: post ∧ p a ∧
      (∀ b ∈ pre, p b → score b < score a) ∧ ∀ b ∈ post, p b → score b ≤ score a := by
  induction l generalizing a with
  | nil => simp [best]
  | cons x l ih =>
    -- a place of the rule in the list is the head or a place behind it
    have hplace : (∃ pre post, x :: l = pre ++ a :: post ∧ p a ∧
          (∀ b ∈ pre, p b → score b < score a) ∧ ∀ b ∈ post, p b → score b ≤ score a) ↔
        (x = a ∧ p a ∧ ∀ b ∈ l, p b → score b ≤ score a) ∨
          ((p x → score x < score a) ∧ best score p l = some a) := by
      rw [ih]
      constructor
      · rintro ⟨_ | ⟨y, pre⟩, post, hl, hpa, hpre, hpost⟩
        · obtain ⟨rfl, rfl⟩ := List.cons.inj hl
          exact .inl ⟨rfl, hpa, hpost⟩
        · obtain ⟨rfl, rfl⟩ := List.cons.inj hl
          obtain ⟨hx, hpre⟩ := forall_mem_cons.1 hpre
          exact .inr ⟨hx, pre, post, rfl, hpa, hpre, hpost⟩
      · rintro (⟨rfl, hpa, hpost⟩ | ⟨hx, pre, post, rfl, hpa, hpre, hpost⟩)
        · exact ⟨[], l, rfl, hpa, by simp, hpost⟩
        · exact ⟨x :: pre, post, rfl, hpa, forall_mem_cons.2 ⟨hx, hpre⟩, hpost⟩
    rw [hplace, best]
    cases hpx : p x with
    | false =>
      rw [if_neg (by simp)]
      constructor
      · exact fun h => .inr ⟨fun hx => absurd hx (by simp), h⟩
      · rintro (⟨rfl, hpa, -⟩ | ⟨-, h⟩)
        · rw [hpx] at hpa
          cases hpa
        · exact h
    | true =>
      rw [if_pos rfl]
      cases hbest : best score p l with
      | none =>
        have hnone := best_eq_none_iff.1 hbest
        constructor
        · intro h
          cases h
          exact .inl ⟨rfl, hpx, fun b hb hpb => absurd hpb (hnone b hb)⟩
        · rintro (⟨rfl, -, -⟩ | ⟨-, h⟩)
          · rfl
          · cases h
      | some c =>
        obtain ⟨pre, post, rfl, hpc, hpre, hpost⟩ := ih.1 hbest
        dsimp only
        split_ifs with hlt
        · constructor
          · intro h
            cases h
            exact .inr ⟨fun _ => hlt, rfl⟩
          · rintro (⟨rfl, -, hle⟩ | ⟨-, h⟩)
            · exact absurd (hle c (by simp) hpc) (not_le.2 hlt)
            · exact h
        · have hle : score c ≤ score x := not_lt.1 hlt
          constructor
          · intro h
            cases h
            refine .inl ⟨rfl, hpx, fun b hb hpb => ?_⟩
            rcases mem_append.1 hb with hb | hb
            · exact (hpre b hb hpb).le.trans hle
            rcases mem_cons.1 hb with rfl | hb
            · exact hle
            · exact (hpost b hb hpb).trans hle
          · rintro (⟨rfl, -, -⟩ | ⟨hx, h⟩)
            · rfl
            · cases h
              exact absurd (hx rfl) hlt

end Ranking
