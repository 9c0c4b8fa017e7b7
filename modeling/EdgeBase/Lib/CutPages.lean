import Mathlib.Data.List.Basic
import Mathlib.Data.List.TakeDrop
import Mathlib.Order.Basic
import Mathlib.Order.WellFounded

/-!
# Reading a list in pages that are cut

A list is read page by page.  A page fetches the first elements of what is left, at most `size` and
at most `cap` of them.  Of these it shows the visible ones, as many as there is room for; if there
is room for none, it announces the first one instead.  The next page begins behind the last element
that was shown or announced, or behind all that was fetched if nothing was held back.  A page says
that there is more if it holds something back, or has fetched `size` elements.

* `Reader` : how the pages are made; `Reader.part` : what a page shows or announces.
* `Reader.reading_completes_iff` : when a reading stops and has shown or announced every visible element.
-/

namespace CutPages

open List

variable {ρ : Type}

/-- What is left of a list behind its first `n` visible elements. -/
def dropVisible (visible : ρ → Bool) : ℕ → List ρ → List ρ
  | 0, l => l
  | _ + 1, [] => []
  | n + 1, a :: l => if visible a then dropVisible visible n l else dropVisible visible (n + 1) l

structure Reader (ρ : Type) where
  size : ℕ
  cap : ℕ
  visible : ρ → Bool
  /-- How many of the visible elements have room on the page that begins here. -/
  room : List ρ → ℕ

namespace Reader

variable (r : Reader ρ)

def fetched (l : List ρ) : List ρ := l.take (min r.size r.cap)

def entries (l : List ρ) : List ρ := (r.fetched l).filter r.visible

def cut (l : List ρ) : ℕ := min (r.room l) (r.entries l).length

/-- The elements that the page shows, or the one that it announces. -/
def part (l : List ρ) : List ρ := (r.entries l).take (max 1 (r.cut l))

def rest (l : List ρ) : List ρ :=
  if r.cut l = (r.entries l).length then l.drop (min r.size r.cap)
  else dropVisible r.visible (max 1 (r.cut l)) l

def more (l : List ρ) : Bool :=
  decide ((r.part l).length < (r.entries l).length) || (r.fetched l).length == r.size

/-- Where the pages begin, of a reading of at most `n` pages. -/
def walk : ℕ → List ρ → Option (List (List ρ))
  | 0, _ => none
  | n + 1, l => if r.more l then (walk n (r.rest l)).map (l :: ·) else some [l]

/-- A reading stops, and has shown or announced every visible element once, in their order. -/
def Completes (l : List ρ) : Prop :=
  ∃ n starts, r.walk n l = some starts ∧ (starts.map r.part).flatten = l.filter r.visible

inductive Reaches (l : List ρ) : List ρ → Prop
  | start : Reaches l l
  | next {s : List ρ} : Reaches l s → r.more s = true → Reaches l (r.rest s)

end Reader

/-! ### Behind some visible elements -/

section DropVisible

variable {visible : ρ → Bool}

theorem filter_dropVisible (n : ℕ) (l : List ρ) :
    (l.filter visible).take n ++ (dropVisible visible n l).filter visible = l.filter visible := by
  induction l generalizing n with
  | nil =>
    cases n with
    | zero => rfl
    | succ n => rfl
  | cons a l ih =>
    cases n with
    | zero => rfl
    | succ n =>
      by_cases ha : visible a = true
      · rw [dropVisible, if_pos ha, filter_cons_of_pos ha, take_succ_cons,
          cons_append, ih]
      · rw [dropVisible, if_neg ha, filter_cons_of_neg ha, ih]

theorem length_dropVisible_le (n : ℕ) (l : List ρ) :
    (dropVisible visible n l).length ≤ l.length := by
  induction l generalizing n with
  | nil =>
    cases n with
    | zero => exact Nat.le_refl _
    | succ n => exact Nat.le_refl _
  | cons a l ih =>
    cases n with
    | zero => exact Nat.le_refl _
    | succ n =>
      rw [dropVisible, length_cons]
      split
      · exact Nat.le_succ_of_le (ih n)
      · exact Nat.le_succ_of_le (ih (n + 1))

theorem length_dropVisible_lt {n : ℕ} (hn : n ≠ 0) {l : List ρ} (hl : l ≠ []) :
    (dropVisible visible n l).length < l.length := by
  cases l with
  | nil => exact absurd rfl hl
  | cons a l =>
    cases n with
    | zero => exact absurd rfl hn
    | succ n =>
      rw [dropVisible, length_cons]
      split
      · exact Nat.lt_succ_of_le (length_dropVisible_le n l)
      · exact Nat.lt_succ_of_le (length_dropVisible_le (n + 1) l)

theorem dropVisible_split {n : ℕ} {l : List ρ} {a : ρ} (h : (l.filter visible)[n]? = some a) :
    ∃ front, l = front ++ a :: dropVisible visible (n + 1) l := by
  induction l generalizing n with
  | nil => exact absurd h nofun
  | cons b l ih =>
    by_cases hb : visible b = true
    · rw [filter_cons_of_pos hb] at h
      cases n with
      | zero =>
        obtain rfl : b = a := Option.some.inj h
        refine ⟨[], ?_⟩
        rw [dropVisible, if_pos hb, dropVisible, nil_append]
      | succ n =>
        obtain ⟨front, hfront⟩ := ih (n := n) h
        refine ⟨b :: front, ?_⟩
        rw [dropVisible, if_pos hb, cons_append, ← hfront]
    · rw [filter_cons_of_neg hb] at h
      obtain ⟨front, hfront⟩ := ih h
      refine ⟨b :: front, ?_⟩
      rw [dropVisible, if_neg hb, cons_append, ← hfront]

end DropVisible

/-! ### One page -/

namespace Reader

variable (r : Reader ρ) {l s : List ρ}

theorem entries_append (l : List ρ) :
    r.entries l ++ (l.drop (min r.size r.cap)).filter r.visible = l.filter r.visible := by
  rw [entries, fetched, ← filter_append, take_append_drop]

theorem part_append (l : List ρ) :
    r.part l ++ (r.rest l).filter r.visible = l.filter r.visible := by
  by_cases hcut : r.cut l = (r.entries l).length
  · have hpart : r.part l = r.entries l := by
      rw [part, hcut]
      exact take_of_length_le (Nat.le_max_right 1 _)
    rw [hpart, rest, if_pos hcut, r.entries_append]
  · have hlt : r.cut l < (r.entries l).length := Nat.lt_of_le_of_ne (Nat.min_le_right _ _) hcut
    have hle : max 1 (r.cut l) ≤ (r.entries l).length := by omega
    have hpart : r.part l = (l.filter r.visible).take (max 1 (r.cut l)) := by
      rw [part, ← r.entries_append l, take_append_of_le_length hle]
    rw [hpart, rest, if_neg hcut, filter_dropVisible]

theorem part_of_not_more (h : r.more l = false) : r.part l = r.entries l := by
  rw [more, Bool.or_eq_false_iff, decide_eq_false_iff_not] at h
  have hle := length_take_le' (max 1 (r.cut l)) (r.entries l)
  have htake : (r.part l).length = (r.entries l).length := Nat.le_antisymm hle (Nat.not_lt.1 h.1)
  exact (take_sublist _ _).eq_of_length htake

theorem not_full_of_not_more (h : r.more l = false) : (r.fetched l).length ≠ r.size := by
  rw [more, Bool.or_eq_false_iff] at h
  exact beq_eq_false_iff_ne.1 h.2

theorem filter_rest_of_not_more (h : r.more l = false) :
    (r.rest l).filter r.visible = (l.drop (min r.size r.cap)).filter r.visible := by
  have hpart := r.part_append l
  rw [r.part_of_not_more h, ← r.entries_append l] at hpart
  exact append_cancel_left hpart

theorem ne_nil_of_more (hsize : r.size ≠ 0) (h : r.more l = true) : l ≠ [] := by
  rintro rfl
  have hnil : r.entries [] = [] := by rw [entries, fetched, take_nil, filter_nil]
  rw [more, part, hnil, fetched, take_nil, take_nil, Bool.or_eq_true] at h
  rcases h with h | h
  · exact absurd (of_decide_eq_true h) (Nat.lt_irrefl _)
  · exact hsize (beq_iff_eq.1 h).symm

theorem length_rest_lt (hcap : r.cap ≠ 0) (hsize : r.size ≠ 0) (h : r.more l = true) :
    (r.rest l).length < l.length := by
  have hne := r.ne_nil_of_more hsize h
  have hpos : 0 < l.length := length_pos_iff.2 hne
  rw [rest]
  split
  · rw [length_drop]
    omega
  · exact length_dropVisible_lt (by omega) hne

/-! ### The reading -/

theorem walk_of_more (h : r.more l = true) (n : ℕ) :
    r.walk (n + 1) l = (r.walk n (r.rest l)).map (l :: ·) := by
  rw [walk, if_pos h]

theorem walk_of_not_more (h : r.more l = false) (n : ℕ) : r.walk (n + 1) l = some [l] := by
  rw [walk, if_neg (by rw [h]; exact nofun)]

theorem walk_stops (hcap : r.cap ≠ 0) (hsize : r.size ≠ 0) (l : List ρ) :
    ∃ n starts, r.walk n l = some starts := by
  induction hlength : l.length using Nat.strongRecOn generalizing l with
  | _ length ih =>
    cases hmore : r.more l with
    | false => exact ⟨1, [l], r.walk_of_not_more hmore 0⟩
    | true =>
      have hlt := r.length_rest_lt hcap hsize hmore
      rw [hlength] at hlt
      obtain ⟨n, starts, hwalk⟩ := ih _ hlt (r.rest l) rfl
      exact ⟨n + 1, l :: starts, by rw [r.walk_of_more hmore, hwalk]; rfl⟩

/-- The pages of a reading, and what comes behind the last one, make up the visible elements. -/
theorem walk_parts {n : ℕ} {starts : List (List ρ)} (h : r.walk n l = some starts) :
    ∃ last, r.Reaches l last ∧ r.more last = false ∧
      (starts.map r.part).flatten ++ (r.rest last).filter r.visible = l.filter r.visible := by
  suffices hreach : ∀ {s : List ρ}, r.Reaches l s → r.walk n s = some starts →
      ∃ last, r.Reaches l last ∧ r.more last = false ∧
        (starts.map r.part).flatten ++ (r.rest last).filter r.visible = s.filter r.visible from
    hreach .start h
  clear h
  intro s hs hwalk
  induction n generalizing s starts with
  | zero => exact absurd hwalk nofun
  | succ n ih =>
    cases hmore : r.more s with
    | false =>
      rw [r.walk_of_not_more hmore] at hwalk
      obtain rfl := Option.some.inj hwalk
      refine ⟨s, hs, hmore, ?_⟩
      rw [map_singleton, flatten_singleton, r.part_append]
    | true =>
      rw [r.walk_of_more hmore] at hwalk
      obtain ⟨starts', hwalk', rfl⟩ := Option.map_eq_some_iff.1 hwalk
      obtain ⟨last, hlast, hstop, hparts⟩ := ih (.next hs hmore) hwalk'
      refine ⟨last, hlast, hstop, ?_⟩
      rw [map_cons, flatten_cons, append_assoc, hparts, r.part_append]

theorem walk_of_size_zero (h : r.size = 0) (n : ℕ) (l : List ρ) : r.walk n l = none := by
  have hfetched : ∀ s, r.fetched s = [] := fun s => by rw [fetched, h, Nat.zero_min, take_zero]
  have hmore : ∀ s, r.more s = true := fun s => by
    rw [more, hfetched, h, length_nil, beq_self_eq_true, Bool.or_true]
  induction n generalizing l with
  | zero => rfl
  | succ n ih => rw [r.walk_of_more (hmore l), ih, Option.map_none]

/-- Every page after which there is nothing more has fetched all visible elements that are left. -/
def Exhausts (l : List ρ) : Prop :=
  ∀ s, r.Reaches l s → r.more s = false → ∀ a ∈ s.drop (min r.size r.cap), r.visible a = false

theorem last_unique {s s' : List ρ} (h : r.Reaches l s) (h' : r.Reaches l s')
    (hstop : r.more s = false) (hstop' : r.more s' = false) : s = s' := by
  have hforward : ∀ {t t' : List ρ}, r.Reaches l t → r.Reaches l t' →
      r.Reaches t t' ∨ r.Reaches t' t := by
    intro t t' ht ht'
    induction ht with
    | start => exact .inl ht'
    | @next u hu hmore ih =>
      rcases ih with hut | htu
      · have hcase : t' = u ∨ r.Reaches (r.rest u) t' := by
          clear ht' hu
          induction hut with
          | start => exact .inl rfl
          | @next v hv hmorev ihv =>
            rcases ihv with rfl | ihv
            · exact .inr .start
            · exact .inr (.next ihv hmorev)
        rcases hcase with rfl | hcase
        · exact .inr (.next .start hmore)
        · exact .inl hcase
      · exact .inr (.next htu hmore)
  have hend : ∀ {t t' : List ρ}, r.Reaches t t' → r.more t = false → t' = t := by
    intro t t' ht hmore
    induction ht with
    | start => rfl
    | next hu hmoreu ih =>
      rw [ih, hmore] at hmoreu
      exact nomatch hmoreu
  rcases hforward h h' with hss | hss
  · exact (hend hss hstop).symm
  · exact hend hss hstop'

/-- **A reading completes** if and only if its pages have elements, and the last one has fetched all
visible elements that were left. -/
theorem reading_completes_iff (hcap : r.cap ≠ 0) (l : List ρ) :
    r.Completes l ↔ r.size ≠ 0 ∧ r.Exhausts l := by
  constructor
  · rintro ⟨n, starts, hwalk, hflatten⟩
    refine ⟨fun hzero => ?_, fun s hs hstop a ha => ?_⟩
    · rw [r.walk_of_size_zero hzero] at hwalk
      exact nomatch hwalk
    · obtain ⟨last, hlast, hstop', hparts⟩ := r.walk_parts hwalk
      rw [← r.last_unique hs hlast hstop hstop', hflatten, append_right_eq_self,
        r.filter_rest_of_not_more hstop, filter_eq_nil_iff] at hparts
      exact Bool.eq_false_of_not_eq_true (hparts a ha)
  · rintro ⟨hsize, hexhausts⟩
    obtain ⟨n, starts, hwalk⟩ := r.walk_stops hcap hsize l
    obtain ⟨last, hlast, hstop, hparts⟩ := r.walk_parts hwalk
    have hnone : (r.rest last).filter r.visible = [] := by
      rw [r.filter_rest_of_not_more hstop, filter_eq_nil_iff]
      exact fun a ha => by rw [hexhausts last hlast hstop a ha]; exact nofun
    rw [hnone, append_nil] at hparts
    exact ⟨n, starts, hwalk, hparts⟩

/-- A page that may have as many elements as are asked for, and has fewer, is the last one. -/
theorem exhausts_of_le (h : r.size ≤ r.cap) (l : List ρ) : r.Exhausts l := by
  intro s _ hstop a ha
  have hfull := r.not_full_of_not_more hstop
  rw [fetched, length_take, Nat.min_eq_left h] at hfull
  rw [Nat.min_eq_left h, drop_eq_nil_of_le (by omega)] at ha
  exact absurd ha not_mem_nil

end Reader

end CutPages
