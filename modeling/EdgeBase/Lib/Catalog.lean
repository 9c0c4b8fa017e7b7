import Mathlib.Data.List.Basic

/-!
# Catalogs

A database keeps its objects under keys.  A statement creates one object: it looks at one key,
takes others with it, and needs some that are taken already.  Where its key is taken, it fails, or
is skipped in silence.

* `Catalog.clean_iff` : when a run is clean, by the statements alone.
* `Catalog.run_of_clean` : what is in the catalog after a clean run.
-/

namespace Catalog

open List

/-- What statements of a kind `σ` do with keys of a kind `κ`. -/
structure Language (σ κ : Type) where
  /-- The key that decides whether there is something to create. -/
  main : σ → κ
  /-- The other keys that the object takes. -/
  others : σ → List κ
  /-- The keys that have to be taken already. -/
  needs : σ → List κ
  /-- The statement is one that the database can read. -/
  wellFormed : σ → Bool
  /-- The first statement is skipped where the object of the second holds its key. -/
  skips : σ → σ → Bool

variable {σ κ : Type} (L : Language σ κ)

def Language.keys (s : σ) : List κ := L.main s :: L.others s

def Taken (catalog : List σ) (k : κ) : Prop := ∃ t ∈ catalog, k ∈ L.keys t

section Execution

variable [DecidableEq κ]

instance (catalog : List σ) (k : κ) : Decidable (Taken L catalog k) :=
  inferInstanceAs (Decidable (∃ t ∈ catalog, k ∈ L.keys t))

/-- Executes a statement; `none` when it fails. -/
def exec (catalog : List σ) (s : σ) : Option (List σ) :=
  if L.wellFormed s = false then none
  else if Taken L catalog (L.main s) then
    if ∃ t ∈ catalog, L.main s ∈ L.keys t ∧ L.skips s t then some catalog else none
  else if (L.keys s).Nodup ∧ (∀ k ∈ L.others s, ¬Taken L catalog k) ∧
      ∀ k ∈ L.needs s, Taken L catalog k then some (catalog ++ [s])
  else none

def run : List σ → List σ → Option (List σ)
  | catalog, [] => some catalog
  | catalog, s :: ss => (exec L catalog s).bind fun catalog => run catalog ss

/-- After every statement of the run its own object is there: none fails, and none is skipped
because of another object. -/
def Clean : List σ → List σ → Prop
  | _, [] => True
  | catalog, s :: ss => ∃ catalog', exec L catalog s = some catalog' ∧ s ∈ catalog' ∧
      Clean catalog' ss

end Execution

/-! ### Clean runs -/

/-- Two statements do not get in each other's way: they have no key in common, or are the same and
can be repeated. -/
def Compatible (s t : σ) : Prop :=
  (s = t ∧ L.skips s s = true) ∨ ∀ k ∈ L.keys s, k ∉ L.keys t

/-- Every statement finds the keys that it needs. -/
def Supplied : List σ → List σ → Prop
  | _, [] => True
  | before, s :: ss => (∀ k ∈ L.needs s, Taken L before k) ∧ Supplied (before ++ [s]) ss

/-- A statement that the database can read, and that does not get in its own way. -/
def Proper (s : σ) : Prop := L.wellFormed s = true ∧ (L.keys s).Nodup

/-- The objects of a catalog were created by proper statements with keys of their own. -/
structure Sound (catalog : List σ) : Prop where
  proper : ∀ t ∈ catalog, Proper L t
  apart : ∀ s ∈ catalog, ∀ t ∈ catalog, s ≠ t → ∀ k ∈ L.keys s, k ∉ L.keys t
  supplied : ∀ t ∈ catalog, ∀ k ∈ L.needs t, Taken L catalog k

variable {L} {catalog catalog' : List σ} {s : σ}

theorem Taken.mono {k : κ} (h : Taken L catalog k) (hsub : catalog ⊆ catalog') :
    Taken L catalog' k := by
  obtain ⟨t, ht, hk⟩ := h
  exact ⟨t, hsub ht, hk⟩

theorem supplied_congr {before before' ss : List σ} (h : ∀ t, t ∈ before ↔ t ∈ before') :
    Supplied L before ss ↔ Supplied L before' ss := by
  induction ss generalizing before before' with
  | nil => exact Iff.rfl
  | cons s ss ih =>
    have htaken : ∀ k, Taken L before k ↔ Taken L before' k := by
      intro k
      simp only [Taken, h]
    have hrest : ∀ t, t ∈ before ++ [s] ↔ t ∈ before' ++ [s] := by
      intro t
      simp only [mem_append, h]
    simp only [Supplied, htaken, ih hrest]

variable [DecidableEq κ]

theorem exec_of_mem (hs : s ∈ catalog) (hsound : Sound L catalog) :
    (∃ next, exec L catalog s = some next ∧ s ∈ next) ↔ L.skips s s = true := by
  have hwell := (hsound.proper s hs).1
  have htaken : Taken L catalog (L.main s) := ⟨s, hs, mem_cons_self⟩
  have honly : (∃ t ∈ catalog, L.main s ∈ L.keys t ∧ L.skips s t) ↔ L.skips s s = true := by
    constructor
    · intro h
      obtain ⟨t, ht, hk, hskips⟩ := h
      -- the key is that of one object only
      have heq : s = t := by
        by_contra hne
        exact hsound.apart s hs t ht hne _ mem_cons_self hk
      rwa [← heq] at hskips
    · intro h
      exact ⟨s, hs, mem_cons_self, h⟩
  simp only [exec, hwell, htaken, honly, if_true]
  by_cases hskips : L.skips s s = true
  · simp [hskips, hs]
  · simp [hskips]

theorem exec_of_notMem (hs : s ∉ catalog) : (∃ next, exec L catalog s = some next ∧ s ∈ next) ↔
      Proper L s ∧ (∀ k ∈ L.keys s, ¬Taken L catalog k) ∧ ∀ k ∈ L.needs s, Taken L catalog k := by
  unfold exec
  constructor
  · intro h
    obtain ⟨next, hexec, hmem⟩ := h
    split_ifs at hexec with hwell htaken hskips hfree
    · obtain rfl := Option.some.inj hexec
      exact absurd hmem hs
    · refine ⟨⟨by simpa using hwell, hfree.1⟩, ?_, hfree.2.2⟩
      intro k hk
      rcases mem_cons.1 hk with rfl | hk
      · exact htaken
      · exact hfree.2.1 k hk
  · intro h
    obtain ⟨hproper, hfree, hneeds⟩ := h
    have hothers : ∀ k ∈ L.others s, ¬Taken L catalog k :=
      fun k hk => hfree k (mem_cons_of_mem _ hk)
    refine ⟨catalog ++ [s], ?_, by simp⟩
    rw [if_neg (by simp [hproper.1]), if_neg (hfree _ mem_cons_self),
      if_pos ⟨hproper.2, hothers, hneeds⟩]

theorem exec_eq (h : exec L catalog s = some catalog') (hmem : s ∈ catalog') :
    s ∈ catalog ∧ catalog' = catalog ∨ s ∉ catalog ∧ catalog' = catalog ++ [s] := by
  unfold exec at h
  split_ifs at h with hwell htaken hskips hfree
  · obtain rfl := Option.some.inj h
    exact .inl ⟨hmem, rfl⟩
  · obtain rfl := Option.some.inj h
    refine .inr ⟨?_, rfl⟩
    intro hs
    exact htaken ⟨s, hs, mem_cons_self⟩

theorem mem_exec (h : exec L catalog s = some catalog') (hmem : s ∈ catalog') (t : σ) :
    t ∈ catalog' ↔ t ∈ catalog ++ [s] := by
  rcases exec_eq h hmem with ⟨hs, rfl⟩ | ⟨-, rfl⟩
  · simp only [mem_append, mem_singleton]
    constructor
    · intro ht
      exact .inl ht
    · rintro (ht | rfl)
      · exact ht
      · exact hs
  · rfl

omit [DecidableEq κ] in
theorem Sound.append (h : Sound L catalog) (hproper : Proper L s)
    (hfree : ∀ k ∈ L.keys s, ¬Taken L catalog k) (hneeds : ∀ k ∈ L.needs s, Taken L catalog k) :
    Sound L (catalog ++ [s]) := by
  have hsub : catalog ⊆ catalog ++ [s] := subset_append_left _ _
  constructor
  · intro t ht
    rcases mem_append.1 ht with ht | ht
    · exact h.proper t ht
    · obtain rfl := mem_singleton.1 ht
      exact hproper
  · intro t ht u hu hne k hk hk'
    simp only [mem_append, mem_singleton] at ht hu
    rcases ht with ht | rfl <;> rcases hu with hu | rfl
    · exact h.apart t ht u hu hne k hk hk'
    · exact hfree k hk' ⟨t, ht, hk⟩
    · exact hfree k hk ⟨u, hu, hk'⟩
    · exact hne rfl
  · intro t ht k hk
    rcases mem_append.1 ht with ht | ht
    · exact (h.supplied t ht k hk).mono hsub
    · obtain rfl := mem_singleton.1 ht
      exact (hneeds k hk).mono hsub

omit [DecidableEq κ] in
theorem sound_nil : Sound L [] := ⟨by simp, by simp, by simp⟩

theorem exec_iff (hsound : Sound L catalog) : (∃ next, exec L catalog s = some next ∧ s ∈ next) ↔
      Proper L s ∧ (∀ t ∈ catalog, Compatible L t s) ∧ ∀ k ∈ L.needs s, Taken L catalog k := by
  by_cases hs : s ∈ catalog
  · rw [exec_of_mem hs hsound]
    constructor
    · intro hskips
      refine ⟨hsound.proper s hs, ?_, hsound.supplied s hs⟩
      intro t ht
      by_cases heq : t = s
      · subst heq
        exact .inl ⟨rfl, hskips⟩
      · exact .inr (hsound.apart t ht s hs heq)
    · intro h
      rcases h.2.1 s hs with hrepeat | hdisjoint
      · exact hrepeat.2
      · exact absurd mem_cons_self (hdisjoint _ mem_cons_self)
  · rw [exec_of_notMem hs]
    have hfree : (∀ k ∈ L.keys s, ¬Taken L catalog k) ↔ ∀ t ∈ catalog, Compatible L t s := by
      constructor
      · intro h t ht
        exact .inr fun k hk hks => h k hks ⟨t, ht, hk⟩
      · intro h k hk hcat
        obtain ⟨t, ht, htk⟩ := hcat
        rcases h t ht with hsame | hdisjoint
        · exact hs (hsame.1 ▸ ht)
        · exact hdisjoint k htk hk
    rw [hfree]

theorem Sound.exec (hsound : Sound L catalog) (h : exec L catalog s = some catalog')
    (hmem : s ∈ catalog') : Sound L catalog' := by
  rcases exec_eq h hmem with ⟨-, rfl⟩ | ⟨hs, rfl⟩
  · exact hsound
  · obtain ⟨hproper, hfree, hneeds⟩ := (exec_of_notMem hs).1 ⟨_, h, hmem⟩
    exact hsound.append hproper hfree hneeds

theorem clean_iff_of_sound (hsound : Sound L catalog) (ss : List σ) :
    Clean L catalog ss ↔ (∀ s ∈ ss, Proper L s) ∧ (∀ t ∈ catalog, ∀ s ∈ ss, Compatible L t s) ∧
      ss.Pairwise (Compatible L) ∧ Supplied L catalog ss := by
  induction ss generalizing catalog with
  | nil => simp [Clean, Supplied]
  | cons s ss ih =>
    have hstep := exec_iff (s := s) hsound
    constructor
    · rintro ⟨next, hexec, hmem, hrest⟩
      obtain ⟨hproper, hcompatible, hneeds⟩ := hstep.1 ⟨next, hexec, hmem⟩
      have hin := mem_exec hexec hmem
      obtain ⟨hall, hcat, hpair, hsupplied⟩ := (ih (hsound.exec hexec hmem)).1 hrest
      refine ⟨?_, ?_, ?_, hneeds, (supplied_congr hin).1 hsupplied⟩
      · exact forall_mem_cons.2 ⟨hproper, hall⟩
      · intro t ht
        refine forall_mem_cons.2 ⟨hcompatible t ht, ?_⟩
        intro u hu
        exact hcat t ((hin t).2 (mem_append_left _ ht)) u hu
      · refine pairwise_cons.2 ⟨?_, hpair⟩
        intro u hu
        exact hcat s hmem u hu
    · rintro ⟨hall, hcat, hpair, hneeds, hsupplied⟩
      obtain ⟨next, hexec, hmem⟩ := hstep.2 ⟨hall s mem_cons_self,
        fun t ht => hcat t ht s mem_cons_self, hneeds⟩
      have hin := mem_exec hexec hmem
      refine ⟨next, hexec, hmem, (ih (hsound.exec hexec hmem)).2 ⟨?_, ?_, hpair.of_cons, ?_⟩⟩
      · exact fun u hu => hall u (mem_cons_of_mem _ hu)
      · intro t ht u hu
        rcases mem_append.1 ((hin t).1 ht) with ht | ht
        · exact hcat t ht u (mem_cons_of_mem _ hu)
        · obtain rfl := mem_singleton.1 ht
          exact (pairwise_cons.1 hpair).1 u hu
      · exact (supplied_congr hin).2 hsupplied

/-- **Clean runs.**  From an empty catalog, a run is clean exactly when every statement is proper,
no two get in each other's way, and each finds what it needs among those before it. -/
theorem clean_iff (ss : List σ) :
    Clean L [] ss ↔ (∀ s ∈ ss, Proper L s) ∧ ss.Pairwise (Compatible L) ∧ Supplied L [] ss := by
  rw [clean_iff_of_sound sound_nil]
  simp

theorem run_of_clean {ss : List σ} (h : Clean L catalog ss) :
    ∃ final, run L catalog ss = some final ∧ ∀ t, t ∈ final ↔ t ∈ catalog ∨ t ∈ ss := by
  induction ss generalizing catalog with
  | nil => exact ⟨catalog, rfl, by simp⟩
  | cons s ss ih =>
    obtain ⟨next, hexec, hmem, hrest⟩ := h
    obtain ⟨final, hrun, hfinal⟩ := ih hrest
    refine ⟨final, by rw [run, hexec, Option.bind_some, hrun], ?_⟩
    intro t
    simp [hfinal, mem_exec hexec hmem, or_assoc]

omit [DecidableEq κ] in
/-- No two statements get in each other's way when different ones have no key in common, and those
that cannot be repeated are not. -/
theorem pairwise_compatible_iff {ss : List σ} : ss.Pairwise (Compatible L) ↔
    (∀ s ∈ ss, ∀ t ∈ ss, s = t ∨ ∀ k ∈ L.keys s, k ∉ L.keys t) ∧
      (ss.filter fun s => !L.skips s s).Nodup := by
  induction ss with
  | nil => simp
  | cons s ss ih =>
    -- a statement is its own obstacle, so it is compatible with itself only if it is skipped
    have hself : ∀ t, Compatible L t t ↔ L.skips t t = true := by
      intro t
      constructor
      · rintro (h | h)
        · exact h.2
        · exact absurd mem_cons_self (h _ mem_cons_self)
      · intro h
        exact .inl ⟨rfl, h⟩
    rw [pairwise_cons, ih]
    constructor
    · rintro ⟨hs, hall, hnodup⟩
      have hfirst : ∀ t ∈ ss, s = t ∨ ∀ k ∈ L.keys s, k ∉ L.keys t := by
        intro t ht
        rcases hs t ht with h | h
        · exact .inl h.1
        · exact .inr h
      refine ⟨?_, ?_⟩
      · intro t ht u hu
        rcases mem_cons.1 ht with ht | ht <;> rcases mem_cons.1 hu with hu | hu
        · exact .inl (ht.trans hu.symm)
        · rw [ht]
          exact hfirst u hu
        · rw [hu]
          rcases hfirst t ht with h | h
          · exact .inl h.symm
          · exact .inr fun k hk hk' => h k hk' hk
        · exact hall t ht u hu
      · by_cases hskips : L.skips s s = true
        · simpa [hskips] using hnodup
        · have hnot : s ∉ ss := fun h => hskips ((hself s).1 (hs s h))
          simp only [hskips, filter_cons, Bool.not_false, if_true, nodup_cons]
          exact ⟨fun h => hnot (mem_filter.1 h).1, hnodup⟩
    · rintro ⟨hall, hnodup⟩
      refine ⟨?_, ?_, ?_⟩
      · intro t ht
        rcases hall s mem_cons_self t (mem_cons_of_mem _ ht) with rfl | h
        · refine (hself s).2 ?_
          by_contra hskips
          rw [Bool.not_eq_true] at hskips
          simp only [hskips, filter_cons, Bool.not_false, if_true, nodup_cons] at hnodup
          exact hnodup.1 (mem_filter.2 ⟨ht, by simp [hskips]⟩)
        · exact .inr h
      · intro t ht u hu
        exact hall t (mem_cons_of_mem _ ht) u (mem_cons_of_mem _ hu)
      · exact hnodup.sublist ((sublist_cons_self s ss).filter _)

omit [DecidableEq κ] in
theorem taken_append {before ss : List σ} {k : κ} :
    Taken L (before ++ ss) k ↔ Taken L before k ∨ Taken L ss k := by
  simp only [Taken, mem_append, or_and_right, exists_or]

omit [DecidableEq κ] in
theorem supplied_append {before ss ts : List σ} : Supplied L before (ss ++ ts) ↔
    Supplied L before ss ∧ Supplied L (before ++ ss) ts := by
  induction ss generalizing before with
  | nil => simp [Supplied]
  | cons s ss ih =>
    have hassoc : before ++ [s] ++ ss = before ++ s :: ss := by simp
    rw [cons_append, Supplied, Supplied, ih, hassoc, and_assoc]

omit [DecidableEq κ] in
theorem supplied_iff_of_independent {before ss : List σ}
    (h : ∀ s ∈ ss, ∀ t ∈ ss, ∀ k ∈ L.needs t, k ∉ L.keys s) :
    Supplied L before ss ↔ ∀ s ∈ ss, ∀ k ∈ L.needs s, Taken L before k := by
  induction ss generalizing before with
  | nil => simp [Supplied]
  | cons s ss ih =>
    have hrest := @ih (before ++ [s]) fun t ht u hu =>
      h t (mem_cons_of_mem _ ht) u (mem_cons_of_mem _ hu)
    have hnot : ∀ t ∈ ss, ∀ k ∈ L.needs t, ¬Taken L [s] k := by
      intro t ht k hk htaken
      obtain ⟨u, hu, hku⟩ := htaken
      obtain rfl := mem_singleton.1 hu
      exact h u mem_cons_self t (mem_cons_of_mem _ ht) k hk hku
    rw [Supplied, hrest, forall_mem_cons]
    refine and_congr_right fun _ => ?_
    constructor
    · intro hall t ht k hk
      exact (taken_append.1 (hall t ht k hk)).resolve_right (hnot t ht k hk)
    · intro hall t ht k hk
      exact taken_append.2 (.inl (hall t ht k hk))

end Catalog
