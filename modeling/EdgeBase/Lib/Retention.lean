import EdgeBase.Lib.Table
import Mathlib.Data.List.Sort

/-!
# Rows past a bound

Of the rows that satisfy a condition, the first ones of an order are kept and the others deleted by
their keys.

* `Table.perm_prune` : the rows that stay are the first ones.
-/

namespace Table

open List

variable {ρ κ : Type*} (key : ρ → κ) (p : ρ → Prop) [DecidablePred p]
  (le : ρ → ρ → Bool) (n : ℕ)

/-- `SELECT key … WHERE … ORDER BY … OFFSET n`. -/
def beyond (rows : List ρ) : List κ := (((rows.filter fun r => p r).insertionSort (le · ·)).drop n).map key

/-- `DELETE … WHERE key IN (…)`. -/
def prune [DecidableEq κ] (rows : List ρ) : List ρ := delete (fun r => key r ∈ beyond key p le n rows) rows

variable {key p le n} {rows : List ρ} {x y : ρ}

theorem mem_of_mem_drop_insertionSort (h : x ∈ ((rows.filter fun r => p r).insertionSort (le · ·)).drop n) :
    x ∈ rows ∧ p x := by
  obtain ⟨hx, hp⟩ := mem_filter.1 ((perm_insertionSort _ _).mem_iff.1 (mem_of_mem_drop h))
  exact ⟨hx, of_decide_eq_true hp⟩

theorem prune_congr [DecidableEq κ] {le' : ρ → ρ → Bool} (h : ∀ a ∈ rows, ∀ b ∈ rows, le a b = le' a b) :
    prune key p le n rows = prune key p le' n rows := by
  have hsort : (rows.filter fun r => p r).insertionSort (le · ·) =
      (rows.filter fun r => p r).insertionSort (le' · ·) := by
    have hmap := map_insertionSort (le · ·) (le' · ·) id (rows.filter fun r => p r)
      fun a ha b hb => iff_of_eq (congrArg (· = true)
        (h a (mem_of_mem_filter ha) b (mem_of_mem_filter hb)))
    rwa [map_id, map_id] at hmap
  unfold prune beyond
  rw [hsort]

namespace Unique

variable (h : Unique key rows)
include h

theorem of_mem_beyond (hx : x ∈ rows) (hkey : key x ∈ beyond key p le n rows) : p x := by
  obtain ⟨y, hy, hyx⟩ := mem_map.1 hkey
  obtain ⟨hmem, hp⟩ := mem_of_mem_drop_insertionSort hy
  exact h.eq_of_key hmem hx hyx ▸ hp

variable [DecidableEq κ]

theorem prune : Unique key (Table.prune key p le n rows) := h.delete

theorem perm_prune : ((Table.prune key p le n rows).filter fun r => p r).Perm
    (((rows.filter fun r => p r).insertionSort (le · ·)).take n) := by
  have hsorted : Unique key ((rows.filter fun r => p r).insertionSort (le · ·)) :=
    ((perm_insertionSort _ _).map key).nodup_iff.2 (h.filter _)
  rw [← take_append_drop n ((rows.filter fun r => p r).insertionSort (le · ·))] at hsorted
  have hdisjoint : ∀ r ∈ ((rows.filter fun r => p r).insertionSort (le · ·)).take n,
      key r ∉ beyond key p le n rows := by
    intro r hr hkey
    obtain ⟨y, hy, hyr⟩ := mem_map.1 hkey
    rw [Unique, map_append] at hsorted
    exact disjoint_of_nodup_append hsorted (mem_map_of_mem hr)
      (hyr ▸ mem_map_of_mem hy)
  calc ((Table.prune key p le n rows).filter fun r => p r)
      = (rows.filter fun r => p r).filter fun r => key r ∉ beyond key p le n rows := by
        rw [Table.prune, Table.delete, filter_filter, filter_filter]
        exact filter_congr fun r _ => Bool.and_comm _ _
    _ |>.Perm (((rows.filter fun r => p r).insertionSort (le · ·)).filter
        fun r => key r ∉ beyond key p le n rows) := (perm_insertionSort _ _).symm.filter _
    _ = ((rows.filter fun r => p r).insertionSort (le · ·)).take n := by
        conv_lhs => rw [← take_append_drop n ((rows.filter fun r => p r).insertionSort (le · ·))]
        rw [filter_append, filter_eq_self.2 fun r hr => decide_eq_true (hdisjoint r hr),
          filter_eq_nil_iff.2 fun r hr hkey =>
            (of_decide_eq_true hkey : key r ∉ beyond key p le n rows) (mem_map_of_mem hr),
          append_nil]

theorem length_prune : ((Table.prune key p le n rows).filter fun r => p r).length =
    min n (rows.filter fun r => p r).length := by
  rw [h.perm_prune.length_eq, length_take, (perm_insertionSort _ _).length_eq]

theorem length_prune_of_dropped (hx : x ∈ rows) (hdropped : x ∉ Table.prune key p le n rows) :
    ((Table.prune key p le n rows).filter fun r => p r).length = n := by
  have hkey : key x ∈ beyond key p le n rows :=
    by_contra fun hkey => hdropped (mem_delete.2 ⟨hx, hkey⟩)
  obtain ⟨y, hy, -⟩ := mem_map.1 hkey
  have hpos := length_pos_of_mem hy
  rw [length_drop, (perm_insertionSort _ _).length_eq] at hpos
  rw [h.length_prune]
  omega

theorem filter_not_prune :
    ((Table.prune key p le n rows).filter fun r => ¬p r) = rows.filter fun r => ¬p r := by
  rw [Table.prune, Table.delete, filter_filter]
  refine filter_congr fun r hr => ?_
  by_cases hp : p r
  · simp [hp]
  · have hkey : key r ∉ beyond key p le n rows := fun hkey => hp (h.of_mem_beyond hr hkey)
    simp [hkey]

variable (htrans : ∀ a b c, le a b = true → le b c = true → le a c = true)
include htrans

theorem le_of_prune
    (htotal : ∀ a b, (le a b || le b a) = true) (hx : x ∈ Table.prune key p le n rows) (hpx : p x)
    (hy : y ∈ rows) (hdropped : y ∉ Table.prune key p le n rows) : le x y = true := by
  have : IsTrans ρ (le · ·) := ⟨htrans⟩
  have : Std.Total (le · · : ρ → ρ → Prop) := ⟨fun a b => (Bool.or_eq_true _ _).mp (htotal a b)⟩
  have hsorted := pairwise_insertionSort (le · ·) (rows.filter fun r => p r)
  rw [← take_append_drop n ((rows.filter fun r => p r).insertionSort (le · ·))] at hsorted
  refine (pairwise_append.1 hsorted).2.2 x ?_ y ?_
  · exact h.perm_prune.mem_iff.1 (mem_filter.2 ⟨hx, decide_eq_true hpx⟩)
  · have hkey : key y ∈ beyond key p le n rows :=
      by_contra fun hkey => hdropped (mem_delete.2 ⟨hy, hkey⟩)
    obtain ⟨z, hz, hzy⟩ := mem_map.1 hkey
    exact h.eq_of_key (mem_of_mem_drop_insertionSort hz).1 hy hzy ▸ hz

theorem mem_prune_of_first
    (htotal : ∀ a b, (le a b || le b a) = true) (hn : 0 < n) (hx : x ∈ rows) (hpx : p x)
    (hfirst : ∀ y ∈ rows, le y x = true → y = x) : x ∈ Table.prune key p le n rows := by
  by_contra hdropped
  have hpos : 0 < ((Table.prune key p le n rows).filter fun r => p r).length := by
    rw [h.length_prune]
    exact Nat.lt_min.2 ⟨hn, length_pos_of_mem (mem_filter.2 ⟨hx, decide_eq_true hpx⟩)⟩
  obtain ⟨y, hy⟩ := exists_mem_of_length_pos hpos
  obtain ⟨hy, hpy⟩ := mem_filter.1 hy
  have hle := h.le_of_prune htrans htotal hy (of_decide_eq_true hpy) hx hdropped
  exact hdropped (hfirst y (mem_delete.1 hy).1 hle ▸ hy)

end Unique

end Table
