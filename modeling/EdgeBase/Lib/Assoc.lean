import Mathlib.Data.List.Basic
import Mathlib.Data.List.Induction

/-!
# Association lists

The lists of key-value pairs that stand for the objects of a dynamic language.  Lookup is
`List.lookup`: the first binding of a key counts.

* `Assoc.set` : assignment to a key, in place if the key is bound and at the end otherwise.
-/

namespace Assoc

open List

variable {κ β : Type*} [BEq κ] [LawfulBEq κ]

def set (l : List (κ × β)) (k : κ) (v : β) : List (κ × β) :=
  match l with
  | [] => [(k, v)]
  | (k', v') :: l => if k == k' then (k, v) :: l else (k', v') :: set l k v

/-- Assigns every binding of `m` in turn. -/
def merge (l m : List (κ × β)) : List (κ × β) := m.foldl (fun acc b => set acc b.1 b.2) l

/-- The bindings whose key satisfies `p`. -/
def restrict (p : κ → Bool) (l : List (κ × β)) : List (κ × β) := l.filter fun b => p b.1

/-- The bindings that lookup finds, in the order of the list. -/
def entries : List (κ × β) → List (κ × β)
  | [] => []
  | b :: l => b :: (entries l).filter fun c => c.1 != b.1

@[simp] theorem lookup_set_self (l : List (κ × β)) (k : κ) (v : β) :
    (set l k v).lookup k = some v := by
  induction l with
  | nil => simp [set]
  | cons b l ih =>
    obtain ⟨k', v'⟩ := b
    by_cases hk : k == k'
    · simp [set, hk]
    · simp [set, hk, lookup_cons, ih]

theorem lookup_set_of_ne (l : List (κ × β)) {k j : κ} (hj : j ≠ k) (v : β) :
    (set l k v).lookup j = l.lookup j := by
  have hjk : (j == k) = false := beq_eq_false_iff_ne.2 hj
  induction l with
  | nil => simp [set, lookup_cons, hjk]
  | cons b l ih =>
    obtain ⟨k', v'⟩ := b
    by_cases hk : k == k'
    · have hk' : k = k' := by simpa using hk
      subst hk'
      simp [set, lookup_cons, hjk]
    · simp only [set, hk, Bool.false_eq_true, ite_false, lookup_cons, ih]

omit [LawfulBEq κ] in
theorem mem_set {l : List (κ × β)} {k : κ} {v : β} {b : κ × β} (h : b ∈ set l k v) :
    b = (k, v) ∨ b ∈ l := by
  induction l with
  | nil => exact .inl (mem_singleton.1 h)
  | cons c l ih =>
    rw [set] at h
    split_ifs at h
    · rcases mem_cons.1 h with rfl | h
      · exact .inl rfl
      · exact .inr (mem_cons_of_mem c h)
    · rcases mem_cons.1 h with rfl | h
      · exact .inr (mem_cons_self ..)
      · exact (ih h).imp_right (mem_cons_of_mem c)

variable {l : List (κ × β)}

theorem mem_keys_set {k j : κ} {v : β} :
    j ∈ (set l k v).map Prod.fst ↔ j = k ∨ j ∈ l.map Prod.fst := by
  induction l with
  | nil => simp [set]
  | cons c l ih =>
    rw [set]
    split_ifs with hk
    · obtain rfl := eq_of_beq hk
      simp
    · simp only [map_cons, mem_cons, ih]
      exact or_left_comm

theorem nodup_keys_set (h : (l.map Prod.fst).Nodup) (k : κ) (v : β) :
    ((set l k v).map Prod.fst).Nodup := by
  induction l with
  | nil => simp [set]
  | cons c l ih =>
    obtain ⟨hc, hl⟩ := nodup_cons.1 h
    rw [set]
    split_ifs with hk
    · obtain rfl := eq_of_beq hk
      exact nodup_cons.2 ⟨hc, hl⟩
    · refine nodup_cons.2 ⟨fun hmem => ?_, ih hl⟩
      rcases mem_keys_set.1 hmem with heq | hmem
      · exact hk (by rw [heq]; exact beq_self_eq_true k)
      · exact hc hmem

theorem mem_set_of_ne {k : κ} {v : β} {b : κ × β} (hb : b ∈ l) (hne : b.1 ≠ k) : b ∈ set l k v := by
  induction l with
  | nil => cases hb
  | cons c l ih =>
    rw [set]
    split_ifs with hk
    · rcases mem_cons.1 hb with rfl | hb
      · exact (hne (eq_of_beq hk).symm).elim
      · exact mem_cons_of_mem _ hb
    · rcases mem_cons.1 hb with rfl | hb
      · exact mem_cons_self
      · exact mem_cons_of_mem _ (ih hb)

theorem mem_set_iff (h : (l.map Prod.fst).Nodup) {k : κ} {v : β} {b : κ × β} :
    b ∈ set l k v ↔ b = (k, v) ∨ b ∈ l ∧ b.1 ≠ k := by
  induction l with
  | nil => simp [set]
  | cons c l ih =>
    obtain ⟨hc, hl⟩ := nodup_cons.1 h
    rw [set]
    split_ifs with hk
    · obtain rfl := eq_of_beq hk
      have hne (hb : b ∈ l) : b.1 ≠ c.1 := fun heq => hc (heq ▸ mem_map_of_mem hb)
      simp only [mem_cons]
      constructor
      · rintro (rfl | hb)
        · exact .inl rfl
        · exact .inr ⟨.inr hb, hne hb⟩
      · rintro (rfl | ⟨rfl | hb, hname⟩)
        · exact .inl rfl
        · exact (hname rfl).elim
        · exact .inr hb
    · have hck : c.1 ≠ k := fun heq => hk (by rw [heq]; exact beq_self_eq_true k)
      simp only [mem_cons, ih hl]
      constructor
      · rintro (rfl | rfl | ⟨hb, hname⟩)
        · exact .inr ⟨.inl rfl, hck⟩
        · exact .inl rfl
        · exact .inr ⟨.inr hb, hname⟩
      · rintro (rfl | ⟨rfl | hb, hname⟩)
        · exact .inr (.inl rfl)
        · exact .inl rfl
        · exact .inr (.inr ⟨hb, hname⟩)

omit [LawfulBEq κ] in
theorem set_of_lookup_eq_none {l : List (κ × β)} {k : κ} (h : l.lookup k = none) (v : β) :
    set l k v = l ++ [(k, v)] := by
  induction l with
  | nil => rfl
  | cons c l ih =>
    obtain ⟨k', v'⟩ := c
    by_cases hk : k == k'
    · simp [lookup_cons, hk] at h
    · simp only [lookup_cons, hk] at h
      rw [set, if_neg hk, ih h, cons_append]

omit [LawfulBEq κ] in
theorem length_set (l : List (κ × β)) (k : κ) (v : β) :
    (set l k v).length = if (l.lookup k).isNone then l.length + 1 else l.length := by
  induction l with
  | nil => rfl
  | cons c l ih =>
    obtain ⟨k', v'⟩ := c
    by_cases hk : k == k'
    · simp [set, lookup_cons, hk]
    · simp only [set, lookup_cons, hk, Bool.false_eq_true, ite_false, length_cons, ih]
      split_ifs <;> rfl

theorem lookup_merge_of_notMem (l m : List (κ × β)) {j : κ} (hj : j ∉ m.map Prod.fst) :
    (merge l m).lookup j = l.lookup j := by
  induction m generalizing l with
  | nil => rfl
  | cons b m ih =>
    have hb : j ≠ b.1 := fun h => hj (by simp [h])
    have hm : j ∉ m.map Prod.fst := fun h => hj (mem_cons_of_mem _ h)
    exact (ih (set l b.1 b.2) hm).trans (lookup_set_of_ne l hb b.2)

theorem lookup_merge_ne_none (l m : List (κ × β)) {k : κ} (hk : l.lookup k ≠ none) :
    (merge l m).lookup k ≠ none := by
  induction m generalizing l with
  | nil => exact hk
  | cons b m ih =>
    refine ih (set l b.1 b.2) ?_
    by_cases hb : k = b.1
    · rw [hb, lookup_set_self]
      exact nofun
    · rwa [lookup_set_of_ne l hb]

/-- What an assigned key is bound to afterwards was assigned to it, or it was bound to it before. -/
theorem mem_of_lookup_merge {l m : List (κ × β)} {k : κ} {v : β}
    (h : (merge l m).lookup k = some v) : l.lookup k = some v ∨ (k, v) ∈ m := by
  induction m generalizing l with
  | nil => exact .inl h
  | cons b m ih =>
    rcases ih h with h | h
    · by_cases hb : k = b.1
      · subst hb
        rw [lookup_set_self] at h
        exact .inr (by simp [← Option.some.inj h])
      · exact .inl (by rwa [lookup_set_of_ne l hb] at h)
    · exact .inr (mem_cons_of_mem b h)

theorem lookup_merge_ne_none_of_mem {l m : List (κ × β)} {k : κ} {v : β} (h : (k, v) ∈ m) :
    (merge l m).lookup k ≠ none := by
  induction m generalizing l with
  | nil => cases h
  | cons b m ih =>
    rcases mem_cons.1 h with rfl | h
    · exact lookup_merge_ne_none _ m (by rw [lookup_set_self]; exact nofun)
    · exact ih h

theorem lookup_restrict (p : κ → Bool) (l : List (κ × β)) (k : κ) :
    (restrict p l).lookup k = if p k then l.lookup k else none := by
  induction l with
  | nil => simp [restrict]
  | cons b l ih =>
    obtain ⟨k', v'⟩ := b
    rw [restrict] at ih
    rw [restrict, filter_cons]
    by_cases hk : k == k'
    · have hk' : k = k' := by simpa using hk
      subst hk'
      by_cases hp : p k
      · simp [hp]
      · simp [hp, ih]
    · by_cases hp : p k'
      · simp [hp, lookup_cons, hk, ih]
      · simp [hp, lookup_cons, hk, ih]

theorem lookup_map_snd {γ : Type*} (f : κ → β → γ) (l : List (κ × β)) (k : κ) :
    (l.map fun b => (b.1, f b.1 b.2)).lookup k = (l.lookup k).map (f k) := by
  induction l with
  | nil => rfl
  | cons b l ih =>
    by_cases hk : k == b.1
    · rw [map_cons, lookup_cons, lookup_cons]
      simp [eq_of_beq hk]
    · rw [map_cons, lookup_cons, lookup_cons]
      simpa [hk] using ih

theorem lookup_foldl_set {α : Type*} (key : α → κ) (f : α → β) {xs : List α} {k : κ} {v : β}
    (hmem : ∃ x ∈ xs, key x = k) (h : ∀ x ∈ xs, key x = k → f x = v) (l : List (κ × β)) :
    (xs.foldl (fun l x => set l (key x) (f x)) l).lookup k = some v := by
  induction xs using List.reverseRecOn with
  | nil =>
    obtain ⟨x, hx, -⟩ := hmem
    cases hx
  | append_singleton xs x ih =>
    rw [foldl_append, foldl_cons, foldl_nil]
    by_cases hx : key x = k
    · rw [← hx, lookup_set_self, h x (by simp) hx]
    · rw [lookup_set_of_ne _ (Ne.symm hx)]
      obtain ⟨y, hy, hyk⟩ := hmem
      have hmem : y ∈ xs := by
        rcases mem_append.1 hy with hy | hy
        · exact hy
        · obtain rfl := mem_singleton.1 hy
          exact absurd hyk hx
      exact ih ⟨y, hmem, hyk⟩ fun z hz => h z (mem_append_left _ hz)

omit [BEq κ] [LawfulBEq κ] in
theorem countP_filter_ne [DecidableEq κ] {l : List (κ × β)} (hl : (l.map Prod.fst).Nodup) {k : κ}
    {v : β} (h : (k, v) ∈ l) (p : κ × β → Bool) :
    l.countP p = (l.filter (·.1 ≠ k)).countP p + if p (k, v) then 1 else 0 := by
  induction l with
  | nil => cases h
  | cons b l ih =>
    obtain ⟨hb, hl⟩ := nodup_cons.1 hl
    rcases mem_cons.1 h with rfl | h
    · -- no other binding has the key
      have hothers : ∀ c ∈ l, decide (c.1 ≠ k) = true := fun c hc =>
        decide_eq_true fun hck => hb (mem_map.2 ⟨c, hc, hck⟩)
      rw [filter_cons_of_neg (by simp), filter_eq_self.2 hothers, countP_cons]
    · have hbk : b.1 ≠ k := fun hbk => hb (mem_map.2 ⟨(k, v), h, hbk.symm⟩)
      rw [filter_cons_of_pos (by simpa using hbk), countP_cons, countP_cons, ih hl h]
      omega

variable {l : List (κ × β)}

theorem mem_of_lookup {k : κ} {v : β} (h : l.lookup k = some v) : (k, v) ∈ l := by
  obtain ⟨l₁, l₂, rfl, -⟩ := lookup_eq_some_iff.1 h
  simp

theorem lookup_of_mem (h : (l.map Prod.fst).Nodup) {b : κ × β} (hb : b ∈ l) :
    l.lookup b.1 = some b.2 := by
  induction l with
  | nil => cases hb
  | cons c l ih =>
    obtain ⟨hc, hl⟩ := nodup_cons.1 h
    rcases mem_cons.1 hb with rfl | hb
    · exact lookup_cons_self
    · have hne : b.1 ≠ c.1 := fun heq => hc (heq ▸ mem_map_of_mem hb)
      rw [lookup_cons, beq_eq_false_iff_ne.2 hne]
      exact ih hl hb

theorem lookup_of_mem_entries {b : κ × β} (h : b ∈ entries l) : l.lookup b.1 = some b.2 := by
  induction l with
  | nil => exact absurd h not_mem_nil
  | cons c l ih =>
    obtain ⟨k, v⟩ := c
    rcases mem_cons.1 h with rfl | h
    · simp
    · obtain ⟨hmem, hne⟩ := mem_filter.1 h
      have hbeq : (b.1 == k) = false := by simpa using hne
      rw [lookup_cons, hbeq]
      exact ih hmem

theorem mem_entries_of_lookup {k : κ} {v : β} (h : l.lookup k = some v) : (k, v) ∈ entries l := by
  induction l with
  | nil => simp at h
  | cons c l ih =>
    obtain ⟨k', v'⟩ := c
    cases hbeq : k == k' with
    | true =>
      obtain rfl := eq_of_beq hbeq
      obtain rfl : v' = v := by simpa using h
      exact mem_cons_self ..
    | false =>
      rw [lookup_cons, hbeq] at h
      exact mem_cons_of_mem _ (mem_filter.2 ⟨ih h, by simpa using hbeq⟩)

theorem lookup_entries (l : List (κ × β)) (k : κ) : (entries l).lookup k = l.lookup k := by
  cases h : l.lookup k with
  | some v =>
    have hmem := mem_entries_of_lookup h
    cases hentries : (entries l).lookup k with
    | some w => rw [← h, lookup_of_mem_entries (mem_of_lookup hentries)]
    | none => exact absurd hmem (by simpa using lookup_eq_none_iff.1 hentries (k, v))
  | none =>
    refine lookup_eq_none_iff.2 fun b hb => ?_
    by_cases hk : k == b.1
    · rw [eq_of_beq hk, lookup_of_mem_entries hb] at h
      cases h
    · simpa using hk

theorem lookup_merge_entries (l m : List (κ × β)) (k : κ) :
    (merge l (entries m)).lookup k = (m.lookup k).or (l.lookup k) := by
  cases h : m.lookup k with
  | some v =>
    refine lookup_foldl_set Prod.fst Prod.snd ⟨(k, v), mem_entries_of_lookup h, rfl⟩ ?_ l
    rintro ⟨k', w⟩ hb (rfl : k' = k)
    rw [lookup_of_mem_entries hb] at h
    exact Option.some.inj h
  | none =>
    refine lookup_merge_of_notMem l _ fun hk => ?_
    obtain ⟨b, hb, rfl⟩ := mem_map.1 hk
    rw [lookup_of_mem_entries hb] at h
    cases h

end Assoc
