import Mathlib.Data.List.Basic
import Mathlib.Data.List.Nodup
import Mathlib.Data.List.TakeDrop

/-!
# Reading a list page by page

A client asks for a page, and goes on with the cursor of the last page as long as that says that
there is more.

* `Paging.keyset_completes_iff` : a walk over such pages completes if and only if the cursor of every
  full page selects the rows that follow it.
* `Paging.filter_resumes_iff` : on a sorted list, this is a condition on two neighbouring rows.
-/

namespace Paging

open List Option

variable {κ ρ : Type}

/-- A page, and the cursor to go on with, if there is more. -/
structure Page (κ ρ : Type) where
  rows : List ρ
  next : Option κ

/-- The rows that a client receives in at most `n` requests from a cursor on; `none` when a request
fails or the last page is not among them. -/
def walk (fetch : κ → Option (Page κ ρ)) : ℕ → κ → Option (List ρ)
  | 0, _ => none
  | n + 1, cursor =>
    (fetch cursor).bind fun page =>
      match page.next with
      | none => some page.rows
      | some next => (walk fetch n next).map (page.rows ++ ·)

/-- A walk stops after finitely many requests, and has received some rows. -/
def Completes (fetch : κ → Option (Page κ ρ)) (start : κ) (all : List ρ) : Prop :=
  ∃ n, walk fetch n start = some all

section Walk

variable {fetch : κ → Option (Page κ ρ)} {cursor next : κ} {rows all : List ρ}

theorem walk_succ_of_stop (h : fetch cursor = some ⟨rows, none⟩) (n : ℕ) :
    walk fetch (n + 1) cursor = some rows := by
  simp [walk, h]

theorem walk_succ_of_more (h : fetch cursor = some ⟨rows, some next⟩) (n : ℕ) :
    walk fetch (n + 1) cursor = (walk fetch n next).map (rows ++ ·) := by
  simp [walk, h]

theorem completes_of_stop (h : fetch cursor = some ⟨rows, none⟩) :
    Completes fetch cursor all ↔ rows = all := by
  constructor
  · rintro ⟨n, hn⟩
    cases n with
    | zero => simp [walk] at hn
    | succ n =>
      rw [walk_succ_of_stop h] at hn
      exact some.inj hn
  · rintro rfl
    exact ⟨1, walk_succ_of_stop h 0⟩

theorem Completes.of_more {rest : List ρ} (h : fetch cursor = some ⟨rows, some next⟩)
    (hrest : Completes fetch next rest) : Completes fetch cursor (rows ++ rest) := by
  obtain ⟨n, hn⟩ := hrest
  exact ⟨n + 1, by rw [walk_succ_of_more h, hn, map_some]⟩

theorem not_completes_of_loop (h : fetch cursor = some ⟨rows, some cursor⟩) :
    ¬Completes fetch cursor all := by
  rintro ⟨n, hn⟩
  have hnone : ∀ n, walk fetch n cursor = none := by
    intro n
    induction n with
    | zero => rfl
    | succ n ih => rw [walk_succ_of_more h, ih, map_none]
  rw [hnone] at hn
  exact absurd hn nofun

end Walk

/-! ### Keyset pages -/

/-- The page of a cursor: the first `size` of the rows that it selects, of which the server sends at
most `cap`.  A full page means more, from the `mark` of its last row on. -/
def keyset (rest : κ → List ρ) (size cap : ℕ) (mark : Option ρ → κ) (cursor : κ) : Page κ ρ where
  rows := (rest cursor).take (min size cap)
  next := if ((rest cursor).take (min size cap)).length = size then
      some (mark ((rest cursor).take (min size cap)).getLast?)
    else none

section Keyset

variable {rest : κ → List ρ} {size cap : ℕ} {mark : Option ρ → κ} {start : κ} {all : List ρ}
  {fetch : κ → Option (Page κ ρ)}

theorem keyset_completes_of_cap (hfetch : ∀ k, fetch k = some (keyset rest size cap mark k))
    (hstart : rest start = all) (hcap : cap < size) :
    Completes fetch start all ↔ all.length ≤ cap := by
  have hpage : fetch start = some ⟨all.take cap, none⟩ := by
    have hlen : ¬min cap all.length = size := by omega
    rw [hfetch, keyset, hstart, Nat.min_eq_right (Nat.le_of_lt hcap), length_take, if_neg hlen]
  rw [completes_of_stop hpage, take_eq_self_iff]

theorem not_keyset_completes_of_zero
    (hfetch : ∀ k, fetch k = some (keyset rest size cap mark k)) (hsize : size = 0)
    (hmark : mark none = start) : ¬Completes fetch start all := by
  subst hsize
  have hpage : fetch start = some ⟨[], some start⟩ := by
    simp [hfetch, keyset, hmark]
  exact not_completes_of_loop hpage

/-- A page number `k` begins where the pages before it end. -/
def Resumes (rest : κ → List ρ) (size : ℕ) (all : List ρ) (cursor : κ) (k : ℕ) : Prop :=
  (rest cursor).take size = (all.drop (k * size)).take size

def LastOfPage (size : ℕ) (all : List ρ) (k : ℕ) (row : ρ) : Prop :=
  0 < k ∧ all[k * size - 1]? = some row

theorem drop_page (size : ℕ) (all : List ρ) (k : ℕ) :
    (all.drop (k * size)).drop size = all.drop ((k + 1) * size) := by
  rw [drop_drop, Nat.succ_mul]

theorem getLast?_page (hsize : 0 < size) {k : ℕ}
    (hfull : ((all.drop (k * size)).take size).length = size) :
    ∃ row, ((all.drop (k * size)).take size).getLast? = some row ∧
      LastOfPage size all (k + 1) row := by
  have hindex : ((all.drop (k * size)).take size).getLast? = all[(k + 1) * size - 1]? := by
    rw [List.getLast?_eq_getElem?, hfull, List.getElem?_take_of_lt (by omega), List.getElem?_drop,
      Nat.succ_mul]
    congr 1
    omega
  have hlt : (k + 1) * size - 1 < all.length := by
    rw [length_take, length_drop] at hfull
    rw [Nat.succ_mul]
    omega
  refine ⟨all[(k + 1) * size - 1], ?_, Nat.succ_pos k, List.getElem?_eq_getElem hlt⟩
  rw [hindex, List.getElem?_eq_getElem hlt]

/-- The page of a cursor that resumes page `k`, which is not the last one. -/
theorem keyset_of_full (hfetch : ∀ k, fetch k = some (keyset rest size cap mark k))
    (hsize : 0 < size) (hcap : size ≤ cap) {k : ℕ} {cursor : κ}
    (hcursor : Resumes rest size all cursor k)
    (hfull : ((all.drop (k * size)).take size).length = size) :
    ∃ row, LastOfPage size all (k + 1) row ∧
      fetch cursor = some ⟨(all.drop (k * size)).take size, some (mark (some row))⟩ := by
  obtain ⟨row, hlast, hrow⟩ := getLast?_page hsize hfull
  refine ⟨row, hrow, ?_⟩
  rw [hfetch, keyset, Nat.min_eq_left hcap, hcursor, if_pos hfull, hlast]

/-- The page of a cursor that resumes page `k`, which is the last one. -/
theorem keyset_of_not_full (hfetch : ∀ k, fetch k = some (keyset rest size cap mark k))
    (hcap : size ≤ cap) {k : ℕ} {cursor : κ} (hcursor : Resumes rest size all cursor k)
    (hfull : ¬((all.drop (k * size)).take size).length = size) :
    fetch cursor = some ⟨all.drop (k * size), none⟩ := by
  have hshort : (all.drop (k * size)).length ≤ size := by
    rw [length_take] at hfull
    omega
  rw [hfetch, keyset, Nat.min_eq_left hcap, hcursor, if_neg hfull, take_of_length_le hshort]

/-- From a cursor that resumes page `k` on, the walk receives all rows from this page on, if the
later cursors resume their pages. -/
theorem walk_of_resumes (hfetch : ∀ k, fetch k = some (keyset rest size cap mark k))
    (hsize : 0 < size) (hcap : size ≤ cap)
    (hmarks : ∀ k row, LastOfPage size all k row → Resumes rest size all (mark (some row)) k)
    {n k : ℕ} {cursor : κ} (hk : k * size ≤ all.length) (hn : all.length < k * size + n)
    (hcursor : Resumes rest size all cursor k) :
    walk fetch n cursor = some (all.drop (k * size)) := by
  -- by induction on the requests left; every full page makes the rest shorter
  induction n generalizing k cursor with
  | zero => omega
  | succ n ih =>
    by_cases hfull : ((all.drop (k * size)).take size).length = size
    · obtain ⟨row, hrow, hpage⟩ := keyset_of_full hfetch hsize hcap hcursor hfull
      have hle : (k + 1) * size ≤ all.length := by
        rw [length_take, length_drop] at hfull
        rw [Nat.succ_mul]
        omega
      have hlater := ih hle (by rw [Nat.succ_mul]; omega) (hmarks _ _ hrow)
      rw [walk_succ_of_more hpage, hlater, map_some, ← drop_page, take_append_drop]
    · exact walk_succ_of_stop (keyset_of_not_full hfetch hcap hcursor hfull) n

/-- A walk that receives all rows from page `k` on started at a cursor that resumes this page, and
so did every later page. -/
theorem resumes_of_walk (hfetch : ∀ k, fetch k = some (keyset rest size cap mark k))
    (hsize : 0 < size) (hcap : size ≤ cap) {n k : ℕ} {cursor : κ}
    (h : walk fetch n cursor = some (all.drop (k * size))) : Resumes rest size all cursor k ∧
      ∀ j row, k < j → LastOfPage size all j row → Resumes rest size all (mark (some row)) j := by
  induction n generalizing k cursor with
  | zero => exact absurd h nofun
  | succ n ih =>
    by_cases hfull : ((rest cursor).take size).length = size
    · have hpage : fetch cursor = some ⟨(rest cursor).take size,
          some (mark ((rest cursor).take size).getLast?)⟩ := by
        rw [hfetch, keyset, Nat.min_eq_left hcap, if_pos hfull]
      rw [walk_succ_of_more hpage] at h
      obtain ⟨tail, htail, hall⟩ := map_eq_some_iff.1 h
      -- the page is as long as page `k` of the rows, so it is that page
      have hcursor : Resumes rest size all cursor k := by
        rw [Resumes, ← hall, take_append_of_le_length (Nat.le_of_eq hfull.symm),
          take_take, Nat.min_self]
      have hdrop : tail = all.drop ((k + 1) * size) := by
        rw [← drop_page, ← hall, drop_append_of_le_length (Nat.le_of_eq hfull.symm),
          drop_take, Nat.sub_self, take_zero, nil_append]
      subst hdrop
      obtain ⟨row, hlast, hrow⟩ := getLast?_page hsize (hcursor ▸ hfull)
      rw [hcursor, hlast] at htail
      obtain ⟨hnext, hlater⟩ := ih htail
      refine ⟨hcursor, fun j row' hj hrow' => ?_⟩
      rcases Nat.lt_or_eq_of_le (Nat.succ_le_of_lt hj) with hlt | heq
      · exact hlater j row' hlt hrow'
      · subst heq
        obtain rfl : row = row' := some.inj (hrow.2.symm.trans hrow'.2)
        exact hnext
    · have hpage : fetch cursor = some ⟨(rest cursor).take size, none⟩ := by
        rw [hfetch, keyset, Nat.min_eq_left hcap, if_neg hfull]
      rw [walk_succ_of_stop hpage] at h
      have hall := some.inj h
      have hcursor : Resumes rest size all cursor k := by
        rw [Resumes, ← hall, take_take, Nat.min_self]
      refine ⟨hcursor, fun j row hj hrow => absurd hrow.2 ?_⟩
      -- no later page is full
      have hshort : all.length < (k + 1) * size := by
        have hlen := congrArg List.length hall
        rw [length_take] at hfull
        rw [length_take, length_drop] at hlen
        rw [Nat.succ_mul]
        omega
      have hle : (k + 1) * size ≤ j * size := Nat.mul_le_mul_right _ hj
      rw [List.getElem?_eq_none (by omega)]
      exact nofun

/-- **Keyset pages.**  A walk receives all rows and stops if and only if the cursor of every full
page selects the page that follows it. -/
theorem keyset_completes_iff (hfetch : ∀ k, fetch k = some (keyset rest size cap mark k))
    (hsize : 0 < size) (hcap : size ≤ cap) (hstart : rest start = all) : Completes fetch start all ↔
      ∀ k row, LastOfPage size all k row → Resumes rest size all (mark (some row)) k := by
  constructor
  · rintro ⟨n, hn⟩ k row hrow
    have hwalk : walk fetch n start = some (all.drop (0 * size)) := by
      rw [Nat.zero_mul, drop_zero]
      exact hn
    exact (resumes_of_walk hfetch hsize hcap hwalk).2 k row hrow.1 hrow
  · intro hmarks
    have hfirst : Resumes rest size all start 0 := by
      rw [Resumes, hstart, Nat.zero_mul, drop_zero]
    have hwalk := walk_of_resumes hfetch hsize hcap hmarks (n := all.length + 1)
      (by omega) (by omega) hfirst
    rw [Nat.zero_mul, drop_zero] at hwalk
    exact ⟨all.length + 1, hwalk⟩

end Keyset

/-! ### Cursors into a sorted list -/

section Sorted

variable {size : ℕ} {all : List ρ} {above : ρ → Bool}

/-- A cursor that is beyond a row, but not beyond the row at an index. -/
def Cuts (above : ρ → Bool) (all : List ρ) (row : ρ) (i : ℕ) : Prop :=
  above row = false ∧ ∀ next, all[i]? = some next → above next = true

theorem filter_take_of_not_above
    (hsorted : all.Pairwise fun a b => above a = true → above b = true) {i : ℕ} {row : ρ}
    (hrow : all[i]? = some row) (h : above row = false) : (all.take (i + 1)).filter above = [] := by
  rw [filter_eq_nil_iff]
  intro a ha habove
  obtain ⟨hi, rfl⟩ := List.getElem?_eq_some_iff.1 hrow
  obtain ⟨j, hj, rfl⟩ := getElem_of_mem ha
  rw [length_take] at hj
  rw [getElem_take] at habove
  rcases Nat.lt_or_ge j i with hlt | hge
  · have := pairwise_iff_getElem.1 hsorted j i (by omega) hi hlt habove
    simp [h] at this
  · obtain rfl : j = i := by omega
    simp [h] at habove

theorem filter_drop_of_above
    (hsorted : all.Pairwise fun a b => above a = true → above b = true) {i : ℕ}
    (h : ∀ next, all[i]? = some next → above next = true) :
    (all.drop i).filter above = all.drop i := by
  rw [filter_eq_self]
  intro a ha
  obtain ⟨j, hj, rfl⟩ := getElem_of_mem ha
  rw [length_drop] at hj
  rw [getElem_drop]
  have hi : i < all.length := by omega
  have hfirst : above all[i] = true := h _ (List.getElem?_eq_getElem hi)
  rcases Nat.eq_zero_or_pos j with rfl | hpos
  · exact hfirst
  · exact pairwise_iff_getElem.1 hsorted i (i + j) hi (by omega) (by omega) hfirst

theorem filter_of_cuts (hsorted : all.Pairwise fun a b => above a = true → above b = true) {i : ℕ}
    {row : ρ} (hrow : all[i]? = some row) (h : Cuts above all row (i + 1)) :
    all.filter above = all.drop (i + 1) := by
  have hsplit : all.filter above =
      (all.take (i + 1)).filter above ++ (all.drop (i + 1)).filter above := by
    rw [← filter_append, take_append_drop]
  rw [hsplit, filter_take_of_not_above hsorted hrow h.1, filter_drop_of_above hsorted h.2,
    nil_append]

/-- On a list in which the rows beyond a cursor come last, the cursor selects the rows after a given
one, or at least the first of them, if and only if it cuts the list behind this row. -/
theorem filter_resumes_iff (hsize : 0 < size) (hnodup : all.Nodup)
    (hsorted : all.Pairwise fun a b => above a = true → above b = true) {i : ℕ} {row : ρ}
    (hrow : all[i]? = some row) :
    (all.filter above).take size = (all.drop (i + 1)).take size ↔ Cuts above all row (i + 1) := by
  have hsplit : all.filter above =
      (all.take (i + 1)).filter above ++ (all.drop (i + 1)).filter above := by
    rw [← filter_append, take_append_drop]
  constructor
  · intro h
    have hmem : row ∈ all.take (i + 1) := by
      refine mem_of_getElem? (i := i) ?_
      rw [List.getElem?_take_of_lt (Nat.lt_succ_self i), hrow]
    have hrowFalse : above row = false := by
      by_contra habove
      have hhead : row ∈ (all.take (i + 1)).filter above :=
        mem_filter.2 ⟨hmem, by simpa using habove⟩
      -- then the first row that is selected comes before the rows that should be
      obtain ⟨first, others, hfirst⟩ := exists_cons_of_ne_nil (ne_nil_of_mem hhead)
      obtain ⟨n, rfl⟩ := Nat.exists_eq_succ_of_ne_zero (Nat.ne_of_gt hsize)
      rw [hsplit, hfirst, cons_append, take_succ_cons] at h
      have hdrop : first ∈ all.drop (i + 1) :=
        mem_of_mem_take (h ▸ mem_cons_self)
      have htake : first ∈ all.take (i + 1) :=
        mem_of_mem_filter (hfirst ▸ mem_cons_self)
      rw [← take_append_drop (i + 1) all] at hnodup
      exact disjoint_of_nodup_append hnodup htake hdrop
    refine ⟨hrowFalse, fun next hnext => ?_⟩
    have hfirst : next ∈ (all.drop (i + 1)).take size := by
      refine mem_of_getElem? (i := 0) ?_
      rw [List.getElem?_take_of_lt hsize, List.getElem?_drop]
      exact hnext
    rw [← h] at hfirst
    exact (mem_filter.1 (mem_of_mem_take hfirst)).2
  · intro h
    rw [filter_of_cuts hsorted hrow h]

end Sorted

end Paging
