import Mathlib.Data.List.Basic
import Mathlib.Data.List.TakeDrop
import Mathlib.Data.List.Count
import Mathlib.Data.List.Nodup
import Mathlib.Tactic.Tauto

/-!
# Taking elements away chunk by chunk

A list is worked off in chunks of its first `n` elements.  A chunk takes away the elements that are
allowed, if it can take away that many at once; the others stay at the front of the list, so that
every later chunk meets them again.

* `Chunks.left` : what a chunk leaves.
* `Chunks.iterate_left` : chunks take away the allowed elements that they get to.
-/

namespace Chunks

open List

variable {α : Type} (n : ℕ) (allowed : α → Bool) (fits : ℕ → Bool)

def taken (l : List α) : List α := (l.take n).filter allowed

def left (l : List α) : List α :=
  if fits (taken n allowed l).length then (l.take n).filter (!allowed ·) ++ l.drop n else l

/-- What is left when the allowed elements among the first `r` are gone. -/
def remaining (l : List α) (r : ℕ) : List α := (l.take r).filter (!allowed ·) ++ l.drop r

/-- How many elements of a list `k` chunks get to: each meets the elements that are not allowed
again, and goes on with as many as then have room. -/
def reach (l : List α) : ℕ → ℕ
  | 0 => 0
  | k + 1 =>
    let r := reach l k
    let fresh := n - (l.take r).countP (!allowed ·)
    if fits (((l.drop r).take fresh).countP allowed) then r + fresh else r

variable {n allowed fits} {l : List α}

/-! ### A chunk -/

theorem left_of_taken_nil (h : taken n allowed l = []) : left n allowed fits l = l := by
  have hkeep : (l.take n).filter (!allowed ·) = l.take n := by
    rw [filter_eq_self]
    intro a ha
    have hnot := filter_eq_nil_iff.1 h a ha
    simp [hnot]
  rw [left, hkeep, take_append_drop, ite_self]

theorem left_of_not_fits (h : fits (taken n allowed l).length = false) :
    left n allowed fits l = l := by
  rw [left, h]
  exact if_neg nofun

theorem left_of_fits (h : fits (taken n allowed l).length = true) :
    left n allowed fits l = (l.take n).filter (!allowed ·) ++ l.drop n := if_pos h

theorem left_eq_remaining (h : fits (taken n allowed l).length = true) :
    left n allowed fits l = remaining allowed l n := left_of_fits h

theorem left_sublist (l : List α) : (left n allowed fits l).Sublist l := by
  unfold left
  split
  · calc ((l.take n).filter (!allowed ·) ++ l.drop n).Sublist (l.take n ++ l.drop n) :=
          filter_sublist.append (List.Sublist.refl _)
      _ = l := take_append_drop n l
  · exact List.Sublist.refl l

/-! ### Some chunks -/

theorem left_remaining {r : ℕ} (h : (l.take r).countP (!allowed ·) ≤ n) :
    let fresh := n - (l.take r).countP (!allowed ·)
    left n allowed fits (remaining allowed l r) = remaining allowed l
      (if fits (((l.drop r).take fresh).countP allowed) then r + fresh else r) := by
  intro fresh
  have hlen : ((l.take r).filter (!allowed ·)).length ≤ n := by
    rwa [← countP_eq_length_filter]
  have hfresh : n - ((l.take r).filter (!allowed ·)).length = fresh := by
    rw [← countP_eq_length_filter]
  have htake : (remaining allowed l r).take n =
      (l.take r).filter (!allowed ·) ++ (l.drop r).take fresh := by
    rw [remaining, take_append, take_of_length_le hlen, hfresh]
  have hdrop : (remaining allowed l r).drop n = l.drop (r + fresh) := by
    rw [remaining, drop_append, drop_of_length_le hlen, hfresh, nil_append,
      drop_drop]
  have htaken : taken n allowed (remaining allowed l r) =
      ((l.drop r).take fresh).filter allowed := by
    rw [taken, htake, filter_append, filter_filter]
    simp
  have hcount : (taken n allowed (remaining allowed l r)).length =
      ((l.drop r).take fresh).countP allowed := by
    rw [htaken, countP_eq_length_filter]
  cases hfits : fits (((l.drop r).take fresh).countP allowed) with
  | false => rw [left_of_not_fits (hcount ▸ hfits), if_neg nofun]
  | true =>
    rw [left_of_fits (hcount ▸ hfits), if_pos rfl, htake, hdrop, remaining, take_add,
      filter_append, filter_append, filter_filter]
    simp only [Bool.and_self]

theorem countP_take_reach_le (l : List α) (k : ℕ) :
    (l.take (reach n allowed fits l k)).countP (!allowed ·) ≤ n := by
  induction k with
  | zero => simp [reach]
  | succ k ih =>
    unfold reach
    dsimp only
    split
    · rw [take_add, countP_append]
      generalize reach n allowed fits l k = r at ih ⊢
      generalize hfresh : n - (l.take r).countP (!allowed ·) = fresh
      have hle : ((l.drop r).take fresh).countP (!allowed ·) ≤ fresh :=
        Nat.le_trans countP_le_length (length_take_le _ _)
      omega
    · exact ih

theorem iterate_left (l : List α) (k : ℕ) :
    (left n allowed fits)^[k] l = remaining allowed l (reach n allowed fits l k) := by
  induction k with
  | zero => simp [reach, remaining]
  | succ k ih =>
    rw [Function.iterate_succ_apply', ih, left_remaining (countP_take_reach_le l k)]
    rfl

theorem length_remaining (l : List α) (r : ℕ) :
    ((l.take r).filter allowed).length + (remaining allowed l r).length = l.length := by
  have hsplit := (l.take r).length_eq_length_filter_add allowed
  have hlen : l.length = (l.take r).length + (l.drop r).length := by
    rw [← length_append, take_append_drop]
  rw [remaining, length_append, hlen, hsplit, Nat.add_assoc]

/-- Chunks get to everything that is allowed if and only if they meet that many elements of it. -/
theorem length_filter_take_iff {r : ℕ} :
    ((l.take r).filter allowed).length = (l.filter allowed).length ↔
      ∀ a ∈ l.drop r, allowed a = false := by
  have hsplit : l.filter allowed = (l.take r).filter allowed ++ (l.drop r).filter allowed := by
    rw [← filter_append, take_append_drop]
  rw [hsplit, length_append, Nat.left_eq_add, length_eq_zero_iff,
    filter_eq_nil_iff]
  simp only [Bool.not_eq_true]

theorem filter_take_eq {r : ℕ} (h : ∀ a ∈ l.drop r, allowed a = false) :
    (l.take r).filter allowed = l.filter allowed := by
  have hnone : (l.drop r).filter allowed = [] :=
    filter_eq_nil_iff.2 fun a ha => by rw [h a ha]; exact nofun
  calc (l.take r).filter allowed
      = (l.take r).filter allowed ++ (l.drop r).filter allowed := by rw [hnone, append_nil]
    _ = l.filter allowed := by rw [← filter_append, take_append_drop]

theorem mem_remaining (hnodup : l.Nodup) {r : ℕ} {a : α} :
    a ∈ remaining allowed l r ↔ a ∈ l ∧ a ∉ (l.take r).filter allowed := by
  have hmem : a ∈ l ↔ a ∈ l.take r ∨ a ∈ l.drop r := by
    rw [← mem_append, take_append_drop]
  have hdisjoint : a ∈ l.take r → a ∉ l.drop r := by
    intro htake hdrop
    rw [← take_append_drop r l] at hnodup
    exact disjoint_of_nodup_append hnodup htake hdrop
  rw [remaining, mem_append, mem_filter, mem_filter, hmem, Bool.not_eq_true',
    ← Bool.not_eq_true]
  tauto

end Chunks
