import Mathlib.Algebra.GroupWithZero.Nat
import Mathlib.Data.List.Count
import Mathlib.Tactic.Common

/-!
# Patterns of literals and greedy runs

A pattern is a list of literal texts and of runs, where a run is one or more characters of a
class.  It is matched against a whole text as a backtracking engine does: each run takes as many
characters as it can, and gives them back one by one when the rest does not match.

* `Globs.fills_of_exec`, `Globs.isSome_exec_iff` : the engine takes such texts, whenever there are
  any.
* `Globs.litCount_le`, `Globs.litCount_eq` : how often a character occurs in a text that matches.
-/

namespace Globs

open List

variable {α : Type*}

inductive Atom (α : Type*) where
  | lit (text : List α)
  /-- One or more characters of a class. -/
  | run (cls : α → Bool)

/-- The lengths that an atom can take at the head of a text, in the order they are tried. -/
def Atom.lengths [DecidableEq α] : Atom α → List α → List ℕ
  | .lit text, s => if text <+: s then [text.length] else []
  | .run cls, s => ((List.range (s.takeWhile cls).length).map (· + 1)).reverse

def Atom.captured : Atom α → List α → List (List α)
  | .lit _, _ => []
  | .run _, taken => [taken]

/-- The texts that the runs of a pattern take, if the whole text matches. -/
def exec [DecidableEq α] : List (Atom α) → List α → Option (List (List α))
  | [], s => if s = [] then some [] else none
  | a :: as, s => (a.lengths s).findSome? fun n =>
    (exec as (s.drop n)).map (a.captured (s.take n) ++ ·)

/-- The runs of a pattern can take these texts. -/
inductive Fills : List (Atom α) → List (List α) → List α → Prop where
  | nil : Fills [] [] []
  | lit (text : List α) {as : List (Atom α)} {captures : List (List α)} {s : List α} :
    Fills as captures s → Fills (.lit text :: as) captures (text ++ s)
  | run {cls : α → Bool} {taken : List α} {as : List (Atom α)} {captures : List (List α)}
    {s : List α} : taken ≠ [] → (∀ c ∈ taken, cls c) → Fills as captures s →
    Fills (.run cls :: as) (taken :: captures) (taken ++ s)

variable {a : Atom α} {as : List (Atom α)} {captures : List (List α)} {s taken : List α}
  {cls : α → Bool}

theorem le_length_takeWhile {n : ℕ} :
    n ≤ (s.takeWhile cls).length ↔ n ≤ s.length ∧ ∀ c ∈ s.take n, cls c := by
  induction s generalizing n with
  | nil => simp
  | cons c s ih =>
    cases n with
    | zero => simp
    | succ n =>
      by_cases hc : cls c
      · rw [takeWhile_cons_of_pos hc, length_cons, length_cons, take_succ_cons,
          forall_mem_cons, Nat.succ_le_succ_iff, Nat.succ_le_succ_iff, ih]
        exact ⟨fun h => ⟨h.1, hc, h.2⟩, fun h => ⟨h.1, h.2.2⟩⟩
      · rw [takeWhile_cons_of_neg hc, take_succ_cons, forall_mem_cons]
        exact iff_of_false (by simp) fun h => hc h.2.1

theorem fills_lits {texts : List (List α)} :
    Fills (texts.map Atom.lit) captures s ↔ captures = [] ∧ s = texts.flatten := by
  induction texts generalizing captures s with
  | nil =>
    constructor
    · rintro ⟨⟩
      exact ⟨rfl, rfl⟩
    · rintro ⟨rfl, rfl⟩
      exact .nil
  | cons text texts ih =>
    constructor
    · intro h
      cases h with
      | lit _ h =>
        obtain ⟨rfl, rfl⟩ := ih.1 h
        exact ⟨rfl, rfl⟩
    · rintro ⟨rfl, rfl⟩
      exact .lit text (ih.2 ⟨rfl, rfl⟩)

variable [DecidableEq α]

theorem mem_lengths_run {n : ℕ} :
    n ∈ (Atom.run cls).lengths s ↔ 0 < n ∧ n ≤ s.length ∧ ∀ c ∈ s.take n, cls c := by
  rw [← le_length_takeWhile]
  simp only [Atom.lengths, mem_reverse, mem_map, mem_range]
  constructor
  · rintro ⟨m, hm, rfl⟩
    exact ⟨m.succ_pos, hm⟩
  · rintro ⟨hpos, hle⟩
    exact ⟨n - 1, by omega, by omega⟩

theorem fills_of_exec (h : exec as s = some captures) : Fills as captures s := by
  induction as generalizing s captures with
  | nil =>
    rw [exec] at h
    split_ifs at h with hs
    cases h
    rw [hs]
    exact .nil
  | cons a as ih =>
    obtain ⟨n, hn, htook⟩ := List.exists_of_findSome?_eq_some h
    obtain ⟨rest, hrest, rfl⟩ := Option.map_eq_some_iff.1 htook
    cases a with
    | lit text =>
      simp only [Atom.lengths] at hn
      split_ifs at hn with hhead
      · obtain ⟨tail, rfl⟩ := hhead
        obtain rfl := mem_singleton.1 hn
        rw [drop_left] at hrest
        exact .lit text (ih hrest)
      · cases hn
    | run cls =>
      obtain ⟨hpos, hle, hall⟩ := mem_lengths_run.1 hn
      have hne : s.take n ≠ [] := ne_nil_of_length_pos (by rw [length_take]; omega)
      have hfills := Fills.run hne hall (ih hrest)
      rw [take_append_drop] at hfills
      exact hfills

theorem isSome_exec (h : Fills as captures s) : (exec as s).isSome := by
  induction h with
  | nil => rfl
  | @lit text as captures s _ ih =>
    rw [exec, List.isSome_findSome?, any_eq_true]
    refine ⟨text.length, ?_, ?_⟩
    · rw [Atom.lengths, if_pos (prefix_append text s)]
      exact mem_singleton_self _
    · rw [drop_left, Option.isSome_map]
      exact ih
  | @run cls taken as captures s hne hall _ ih =>
    rw [exec, List.isSome_findSome?, any_eq_true]
    refine ⟨taken.length, mem_lengths_run.2 ⟨length_pos_iff.2 hne, by simp, ?_⟩, ?_⟩
    · rwa [take_left]
    · rw [drop_left, Option.isSome_map]
      exact ih

theorem isSome_exec_iff : (exec as s).isSome ↔ ∃ captures, Fills as captures s := by
  constructor
  · intro h
    obtain ⟨captures, hexec⟩ := Option.isSome_iff_exists.1 h
    exact ⟨captures, fills_of_exec hexec⟩
  · rintro ⟨captures, h⟩
    exact isSome_exec h

/-! ### Characters of a text that matches -/

/-- The occurrences of a character in the literal texts. -/
def litCount (x : α) (as : List (Atom α)) : ℕ :=
  (as.map fun
    | .lit text => text.count x
    | .run _ => 0).sum

theorem litCount_le (x : α) (h : Fills as captures s) : litCount x as ≤ s.count x := by
  induction h with
  | nil => exact Nat.le_refl _
  | lit text _ ih =>
    rw [count_append]
    exact Nat.add_le_add_left ih _
  | @run cls taken as captures s _ _ _ ih =>
    rw [count_append]
    have hsum : litCount x (Atom.run cls :: as) = litCount x as := by simp [litCount]
    omega

theorem litCount_eq {x : α} (hruns : ∀ cls, Atom.run cls ∈ as → ¬ cls x)
    (h : Fills as captures s) : litCount x as = s.count x := by
  induction h with
  | nil => rfl
  | lit text _ ih =>
    rw [count_append, ← ih fun cls hcls => hruns cls (mem_cons_of_mem _ hcls)]
    rfl
  | @run cls taken as captures s _ hall _ ih =>
    have hnone : taken.count x = 0 :=
      count_eq_zero.2 fun hx => hruns cls mem_cons_self (hall x hx)
    rw [count_append, hnone, ← ih fun cls hcls => hruns cls (mem_cons_of_mem _ hcls)]
    simp [litCount]

end Globs
