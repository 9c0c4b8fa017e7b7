import Mathlib.Data.List.Infix

/-!
# Slash-separated path texts

A path text is read back into segments by splitting it at the slashes and dropping the empty
pieces.

* `PathText.render` : the path text of a list of segments, one slash before each.
* `PathText.notMem_of_mem_splitOn`, `PathText.length_splitOn` : the pieces of a text.
-/

namespace PathText

open List

/-- A segment of a path: a nonempty text without a slash. -/
@[ext] structure Segment where
  text : List Char
  ne_nil : text ≠ []
  noSlash : '/' ∉ text
  deriving DecidableEq

def Segment.lit (s : String) (h : s.toList ≠ [] ∧ '/' ∉ s.toList := by decide) : Segment :=
  ⟨s.toList, h.1, h.2⟩

def render (segs : List Segment) : List Char := segs.flatMap fun s => '/' :: s.text

/-- The nonempty pieces of a path text between its slashes. -/
def parts (path : List Char) : List (List Char) := (path.splitOn '/').filter (· ≠ [])

theorem notMem_of_mem_splitOn {α : Type} [DecidableEq α] {a : α} {xs part : List α}
    (h : part ∈ xs.splitOn a) : a ∉ part := by
  induction xs generalizing part with
  | nil =>
    rw [splitOn_nil] at h
    rw [mem_singleton.1 h]
    exact not_mem_nil
  | cons x xs ih =>
    rw [splitOn_cons_eq_if_modifyHead] at h
    split_ifs at h with hx
    · rcases mem_cons.1 h with rfl | h
      · exact not_mem_nil
      · exact ih h
    · obtain ⟨first, rest, hsplit⟩ := exists_cons_of_ne_nil (splitOn_ne_nil a xs)
      rw [hsplit, modifyHead_cons] at h
      rcases mem_cons.1 h with rfl | h
      · have hfirst := ih (hsplit ▸ mem_cons_self)
        exact not_mem_cons_of_ne_of_not_mem (fun heq => hx (by simp [heq])) hfirst
      · exact ih (hsplit ▸ mem_cons_of_mem _ h)

theorem length_splitOn {α : Type} [DecidableEq α] (a : α) (xs : List α) :
    (xs.splitOn a).length = xs.count a + 1 := by
  induction xs with
  | nil => rfl
  | cons x xs ih =>
    rw [splitOn_cons_eq_if_modifyHead, count_cons]
    split_ifs with hx
    · rw [length_cons, ih]
    · rw [length_modifyHead, ih, Nat.add_zero]

end PathText
