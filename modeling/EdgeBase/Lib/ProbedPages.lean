import EdgeBase.Lib.Paging

/-!
# Pages that look one row ahead

A server reads one row more than it sends, and says that there is more if it finds that row.

* `Paging.probed_reads_iff` : it does if and only if the cursor of every full page with rows behind
  it is accepted, and finds the same next page.
-/

namespace Paging

open List Option

variable {κ ρ : Type}

/-- The page of a cursor.  The selected rows may be cut off behind the one that is looked for; a
cursor may be refused, and a row may have no cursor. -/
def probed (select : κ → Option (List ρ)) (size : ℕ) (mark : ρ → Option κ) (cursor : κ) :
    Option (Page κ ρ) :=
  (select cursor).bind fun found =>
    if size < found.length then
      ((found.take size).getLast?.bind mark).map fun next => ⟨found.take size, some next⟩
    else some ⟨found.take size, none⟩

/-- From a cursor on, a client receives a list in full pages; a page that says that there is more
has rows behind it. -/
inductive Reads (fetch : κ → Option (Page κ ρ)) (size : ℕ) : κ → List ρ → Prop
  | last {cursor : κ} {rows : List ρ} (h : fetch cursor = some ⟨rows, none⟩)
      (hlen : rows.length ≤ size) : Reads fetch size cursor rows
  | more {cursor next : κ} {rows rest : List ρ} (h : fetch cursor = some ⟨rows, some next⟩)
      (hlen : rows.length = size) (hrest : rest ≠ []) (hreads : Reads fetch size next rest) :
      Reads fetch size cursor (rows ++ rest)

def SamePage (size : ℕ) (xs ys : List ρ) : Prop :=
  xs.take size = ys.take size ∧ (size < xs.length ↔ size < ys.length)

/-- The cursor of page number `k` leads to the rows behind it. -/
def Continues (select : κ → Option (List ρ)) (size : ℕ) (mark : ρ → Option κ) (all : List ρ)
    (k : ℕ) : Prop :=
  ∃ row next found, all[(k + 1) * size - 1]? = some row ∧ mark row = some next ∧
    select next = some found ∧ SamePage size found (all.drop ((k + 1) * size))

theorem samePage_take {size : ℕ} {xs ys : List ρ} :
    SamePage size (xs.take (size + 1)) ys ↔ SamePage size xs ys := by
  have hlen : size < (xs.take (size + 1)).length ↔ size < xs.length := by
    rw [length_take]
    omega
  rw [SamePage, SamePage, hlen, take_take, Nat.min_eq_left (Nat.le_succ size)]

section Probed

variable {select : κ → Option (List ρ)} {size : ℕ} {mark : ρ → Option κ} {cursor next : κ}
  {found all rest : List ρ} {fetch : κ → Option (Page κ ρ)}

theorem Reads.fetch_ne_none (h : Reads fetch size cursor all) : fetch cursor ≠ none := by
  cases h with
  | last h _ => exact h ▸ nofun
  | more h _ _ _ => exact h ▸ nofun

theorem getLast?_take (hsize : 0 < size) (h : size ≤ all.length) :
    (all.take size).getLast? = all[size - 1]? := by
  rw [List.getLast?_eq_getElem?, length_take, Nat.min_eq_left h, List.getElem?_take]
  exact if_pos (by omega)

theorem probed_of_last (hselect : select cursor = some found) (h : SamePage size found all)
    (hlen : all.length ≤ size) : probed select size mark cursor = some ⟨all, none⟩ := by
  rw [probed, hselect, bind_some, if_neg (by rw [h.2]; omega), h.1,
    take_of_length_le hlen]

theorem probed_of_more (hsize : 0 < size) (hselect : select cursor = some found)
    (h : SamePage size found all) (hlen : size < all.length) : probed select size mark cursor =
      (all[size - 1]?.bind mark).map fun next => ⟨all.take size, some next⟩ := by
  rw [probed, hselect, bind_some, if_pos (h.2.2 hlen), h.1,
    getLast?_take hsize (Nat.le_of_lt hlen)]

theorem Reads.samePage (hselect : select cursor = some found)
    (h : Reads (probed select size mark) size cursor all) : SamePage size found all := by
  rw [SamePage]
  cases h with
  | last h hlen =>
    rw [probed, hselect, bind_some] at h
    split_ifs at h with hfound
    · obtain ⟨_, _, hnext⟩ := map_eq_some_iff.1 h
      exact absurd (congrArg Page.next hnext) nofun
    · obtain rfl : found.take size = all := congrArg Page.rows (some.inj h)
      have htake : found.take size = found := take_of_length_le (Nat.le_of_not_lt hfound)
      rw [htake, htake]
      exact ⟨rfl, Iff.rfl⟩
  | @more _ _ rows rest h hlen hrest _ =>
    rw [probed, hselect, bind_some] at h
    split_ifs at h with hfound
    · obtain ⟨_, _, hpage⟩ := map_eq_some_iff.1 h
      obtain rfl : found.take size = rows := congrArg Page.rows hpage
      have hpos := length_pos_iff.2 hrest
      refine ⟨?_, iff_of_true hfound ?_⟩
      · rw [take_left' hlen]
      · rw [length_append, hlen]
        omega
    · exact absurd (congrArg Page.next (some.inj h)) nofun

theorem reads_of_last (hselect : select cursor = some found) (h : SamePage size found all)
    (hlen : all.length ≤ size) : Reads (probed select size mark) size cursor all :=
  .last (probed_of_last hselect h hlen) hlen

theorem reads_iff_of_more (hsize : 0 < size) (hselect : select cursor = some found)
    (h : SamePage size found all) (hlen : size < all.length) :
    Reads (probed select size mark) size cursor all ↔
      ∃ row next, all[size - 1]? = some row ∧ mark row = some next ∧
        Reads (probed select size mark) size next (all.drop size) := by
  have hpage : probed select size mark cursor = _ := probed_of_more hsize hselect h hlen
  have hfull : (all.take size).length = size := by
    rw [length_take]
    omega
  constructor
  · intro hreads
    cases hreads with
    | last h' hlen' => omega
    | @more _ next rows rest h' hlen' _ hreads' =>
      rw [hpage] at h'
      obtain ⟨next', hnext, hrows⟩ := map_eq_some_iff.1 h'
      obtain ⟨row, hrow, hmark⟩ := bind_eq_some_iff.1 hnext
      obtain rfl : next' = next := some.inj (congrArg Page.next hrows)
      rw [← hlen', drop_left]
      rw [hlen']
      exact ⟨row, next', hrow, hmark, hreads'⟩
  · rintro ⟨row, next, hrow, hmark, hreads⟩
    rw [hrow, bind_some, hmark, map_some] at hpage
    have hrest : all.drop size ≠ [] := by
      rw [ne_eq, drop_eq_nil_iff]
      omega
    have hmore := Reads.more hpage hfull hrest hreads
    rwa [take_append_drop] at hmore

/-- Page number `k + 1` is page number `k` of the rows behind the first page. -/
theorem continues_succ (hsize : 0 < size) (k : ℕ) :
    Continues select size mark all (k + 1) ↔ Continues select size mark (all.drop size) k := by
  have hindex : size + ((k + 1) * size - 1) = (k + 1 + 1) * size - 1 := by
    have hpos : 0 < (k + 1) * size := Nat.mul_pos k.succ_pos hsize
    rw [Nat.succ_mul (k + 1)]
    omega
  have hdrop : size + (k + 1) * size = (k + 1 + 1) * size := by
    rw [Nat.succ_mul (k + 1), Nat.add_comm]
  rw [Continues, Continues, List.getElem?_drop, drop_drop, hindex, hdrop]

/-- **A list is read in full pages** if and only if the cursor of every page but the last one is
accepted and gives the next page. -/
theorem probed_reads_iff (hsize : 0 < size) :
    ∀ (n : ℕ) (all found : List ρ) (cursor : κ), all.length ≤ n → select cursor = some found →
      SamePage size found all → (Reads (probed select size mark) size cursor all ↔
        ∀ k, (k + 1) * size < all.length → Continues select size mark all k) := by
  intro n
  induction n with
  | zero =>
    intro all found cursor hn hselect h
    refine iff_of_true (reads_of_last hselect h (by omega)) fun k hk => ?_
    omega
  | succ n ih =>
    intro all found cursor hn hselect h
    obtain hlen | hlen := Nat.lt_or_ge size all.length |>.symm
    · refine iff_of_true (reads_of_last hselect h hlen) fun k hk => ?_
      have hle : size ≤ (k + 1) * size := Nat.le_mul_of_pos_left size (Nat.succ_pos k)
      omega
    · rw [reads_iff_of_more hsize hselect h hlen]
      have hrest : (all.drop size).length ≤ n := by
        rw [length_drop]
        omega
      constructor
      · rintro ⟨row, next, hrow, hmark, hreads⟩ k hk
        -- what is read from the cursor on says that it is accepted
        obtain ⟨found', hfound'⟩ : ∃ found', select next = some found' := by
          cases hnext : select next with
          | some found' => exact ⟨found', rfl⟩
          | none =>
            refine absurd ?_ hreads.fetch_ne_none
            rw [probed, hnext, bind_none]
        have hsame := hreads.samePage hfound'
        cases k with
        | zero =>
          rw [Continues, Nat.zero_add, Nat.one_mul]
          exact ⟨row, next, found', hrow, hmark, hfound', hsame⟩
        | succ k =>
          rw [continues_succ hsize]
          refine (ih _ _ _ hrest hfound' hsame).1 hreads k ?_
          rw [length_drop]
          rw [Nat.succ_mul] at hk
          omega
      · intro hcontinues
        obtain ⟨row, next, found', hrow, hmark, hfound', hsame⟩ := hcontinues 0 (by omega)
        rw [Nat.zero_add, Nat.one_mul] at hrow hsame
        refine ⟨row, next, hrow, hmark, (ih _ _ _ hrest hfound' hsame).2 fun k hk => ?_⟩
        rw [← continues_succ hsize]
        refine hcontinues (k + 1) ?_
        rw [length_drop] at hk
        rw [Nat.succ_mul]
        omega

end Probed

end Paging
