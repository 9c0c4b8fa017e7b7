import EdgeBase.Outbox.Adapters

/-!
# What the tabs hold

Every key of a tab has at most one entry.  The operations of an adapter are described by what
they do to these entries; the two adapters do the same.

* `Backend.lawful` : they are those of both adapters.
-/

namespace EdgeBase.Outbox

open List Assoc

variable {V : Type*}

/-! ### Keys -/

theorem compositeKey_inj {t t' k k' : String} :
    compositeKey t k = compositeKey t' k' ↔ t = t' ∧ k = k' := by
  constructor
  · intro h
    obtain ⟨ht, -, hk⟩ := (append_cons_inj_of_notMem (Percent.space_notMem_encode t)
      (Percent.space_notMem_encode k)).1 h
    exact ⟨Percent.encode_injective ht, Percent.encode_injective hk⟩
  · rintro ⟨rfl, rfl⟩
    rfl

structure WellKeyed (entries : Entries V) : Prop where
  nodup : (entries.map Prod.fst).Nodup
  key : ∀ stored ∈ entries, stored.1 = compositeKey stored.2.tabId stored.2.entryKey

def Entries.held (entries : Entries V) (tabId entryKey : String) : Option (DurableOutboxEntry V) :=
  entries.lookup (compositeKey tabId entryKey)

abbrev Store.held (s : Store V) := s.entries.held

theorem WellKeyed.of_held {entries : Entries V} (h : WellKeyed entries) {t k : String}
    {e : DurableOutboxEntry V} (he : entries.held t k = some e) : e.tabId = t ∧ e.entryKey = k :=
  compositeKey_inj.1 (h.key _ (mem_of_lookup he)).symm

theorem WellKeyed.mem_iff {entries : Entries V} (h : WellKeyed entries)
    {stored : List Char × DurableOutboxEntry V} : stored ∈ entries ↔
      stored.1 = compositeKey stored.2.tabId stored.2.entryKey ∧
        entries.held stored.2.tabId stored.2.entryKey = some stored.2 := by
  constructor
  · intro hmem
    refine ⟨h.key _ hmem, ?_⟩
    rw [Entries.held, ← h.key _ hmem]
    exact lookup_of_mem h.nodup hmem
  · rintro ⟨hkey, hheld⟩
    rw [Entries.held, ← hkey] at hheld
    exact mem_of_lookup hheld

theorem WellKeyed.set {entries : Entries V} (h : WellKeyed entries) (e : DurableOutboxEntry V) :
    WellKeyed (Assoc.set entries (compositeKey e.tabId e.entryKey) e) where
  nodup := nodup_keys_set h.nodup _ _
  key stored hmem := by
    rcases Assoc.mem_set hmem with rfl | hmem
    · rfl
    · exact h.key _ hmem

theorem WellKeyed.erase {entries : Entries V} (h : WellKeyed entries) (key : List Char) :
    WellKeyed (erase key entries) where
  nodup := h.nodup.sublist (filter_sublist.map _)
  key _ hmem := h.key _ (mem_of_mem_filter hmem)

theorem held_set (entries : Entries V) (e : DurableOutboxEntry V) (t k : String) :
    Entries.held (Assoc.set entries (compositeKey e.tabId e.entryKey) e) t k =
      if t = e.tabId ∧ k = e.entryKey then some e else entries.held t k := by
  split_ifs with h
  · rw [h.1, h.2]
    exact lookup_set_self ..
  · exact lookup_set_of_ne _ (fun heq => h (compositeKey_inj.1 heq)) _

theorem held_erase (entries : Entries V) (t k t' k' : String) :
    Entries.held (erase (compositeKey t k) entries) t' k' =
      if t' = t ∧ k' = k then none else entries.held t' k' := by
  rw [Entries.held, erase, lookup_restrict]
  by_cases h : t' = t ∧ k' = k
  · rw [if_pos h, if_neg (by simp [h.1, h.2])]
  · have hkey : compositeKey t' k' ≠ compositeKey t k := fun heq => h (compositeKey_inj.1 heq)
    rw [if_neg h, if_pos (decide_eq_true hkey), Entries.held]

/-! ### What the operations do -/

/-- What is left for the claiming tab, of an entry of the claimed tab and of its own. -/
def newest (toTabId : String) :
    Option (DurableOutboxEntry V) → Option (DurableOutboxEntry V) → Option (DurableOutboxEntry V)
  | none, existing => existing
  | some entry, existing =>
    if existing.any fun existing => !isOlderThan existing entry then existing
    else some { entry with tabId := toTabId }

structure Lawful (adapter : DurableOutboxAdapter V) : Prop where
  wellKeyed_put {s : Store V} (h : WellKeyed s.entries) (k t : String) (u : ℤ) (v : V) :
    WellKeyed (adapter.put k t u v s).entries
  held_put (s : Store V) (k t : String) (u : ℤ) (v : V) (t' k' : String) :
    (adapter.put k t u v s).held t' k' = if t' = t ∧ k' = k then
      some ⟨k, ((s.held t k).map (·.seq)).getD (s.seq + 1), t, u, v⟩ else s.held t' k'
  seq_put (s : Store V) (k t : String) (u : ℤ) (v : V) :
    (adapter.put k t u v s).seq = if s.held t k = none then s.seq + 1 else s.seq
  wellKeyed_remove {s : Store V} (h : WellKeyed s.entries) (t k : String) :
    WellKeyed (adapter.remove t k s).entries
  held_remove (s : Store V) (t k t' k' : String) : (adapter.remove t k s).held t' k' =
    if t' = t ∧ k' = k then none else s.held t' k'
  seq_remove (s : Store V) (t k : String) : (adapter.remove t k s).seq = s.seq
  wellKeyed_claimTab {s : Store V} {src dst : String} (h : WellKeyed s.entries)
    (hne : src ≠ dst) : WellKeyed (adapter.claimTab src dst s).2.entries
  held_claimTab {s : Store V} {src dst : String} (h : WellKeyed s.entries) (hne : src ≠ dst)
    (t k : String) : (adapter.claimTab src dst s).2.held t k = if t = src then none
      else if t = dst then newest dst (s.held src k) (s.held dst k) else s.held t k
  seq_claimTab (s : Store V) (src dst : String) : (adapter.claimTab src dst s).2.seq = s.seq
  mem_claimed {s : Store V} {src dst : String} {e : DurableOutboxEntry V}
    (h : WellKeyed s.entries) (hne : src ≠ dst) : e ∈ (adapter.claimTab src dst s).1 ↔
      ∃ entry, s.held src e.entryKey = some entry ∧ e = { entry with tabId := dst } ∧
        ∀ existing, s.held dst e.entryKey = some existing → isOlderThan existing entry
  mem_listEntries {s : Store V} {t : String} {e : DurableOutboxEntry V}
    (h : WellKeyed s.entries) : e ∈ adapter.listEntries (some t) s ↔
      s.held t e.entryKey = some e
  nodup_listEntries {s : Store V} (h : WellKeyed s.entries) (t : String) :
    (adapter.listEntries (some t) s).Nodup
  pairwise_listEntries (s : Store V) (t : String) :
    (adapter.listEntries (some t) s).Pairwise fun a b => a.seq ≤ b.seq
  mem_listTabIds {s : Store V} {t : String} (h : WellKeyed s.entries) :
    t ∈ adapter.listTabIds s ↔ ∃ k e, s.held t k = some e

/-! ### The loop of a claim -/

section Claims

variable {src dst : String} {entries : Entries V}

theorem held_moved (hne : src ≠ dst) (entry : DurableOutboxEntry V) (t k : String) :
    Entries.held (Assoc.set (erase (compositeKey src entry.entryKey) entries)
      (compositeKey dst entry.entryKey) { entry with tabId := dst }) t k =
      if k = entry.entryKey then
        if t = src then none else if t = dst then some { entry with tabId := dst }
          else entries.held t k
      else entries.held t k := by
  have hset := held_set (erase (compositeKey src entry.entryKey) entries)
    { entry with tabId := dst } t k
  rw [hset, held_erase]
  by_cases hk : k = entry.entryKey
  · by_cases ht : t = src
    · rw [if_neg fun h => hne (ht.symm.trans h.1), if_pos ⟨ht, hk⟩, if_pos hk, if_pos ht]
    · rw [if_neg fun h : t = src ∧ _ => ht h.1, if_pos hk, if_neg ht]
      by_cases ht' : t = dst
      · rw [if_pos ⟨ht', hk⟩, if_pos ht']
      · rw [if_neg fun h => ht' h.1, if_neg ht']
  · rw [if_neg fun h => hk h.2, if_neg fun h => hk h.2, if_neg hk]

theorem held_claimEntry (hne : src ≠ dst) {entry : DurableOutboxEntry V}
    (hentry : entries.held src entry.entryKey = some entry)
    (claimed : List (DurableOutboxEntry V)) (t k : String) :
    Entries.held (claimEntry dst entry (entries.held dst entry.entryKey)
      (erase (compositeKey src entry.entryKey) entries, claimed)).1 t k =
      if k = entry.entryKey then
        if t = src then none
        else if t = dst then newest dst (entries.held src k) (entries.held dst k)
        else entries.held t k
      else entries.held t k := by
  rw [claimEntry]
  by_cases hk : k = entry.entryKey
  · subst hk
    rw [if_pos rfl, hentry, newest]
    split_ifs with hany ht ht' ht ht'
    · rw [held_erase, if_pos ⟨ht, rfl⟩]
    · rw [held_erase, if_neg fun h => ht h.1, ht']
    · rw [held_erase, if_neg fun h => ht h.1]
    · rw [held_moved hne, if_pos rfl, if_pos ht]
    · rw [held_moved hne, if_pos rfl, if_neg ht, if_pos ht']
    · rw [held_moved hne, if_pos rfl, if_neg ht, if_neg ht']
  · rw [if_neg hk]
    split_ifs with hany
    · rw [held_erase, if_neg fun h => hk h.2]
    · rw [held_moved hne, if_neg hk]

structure Claimable (src : String) (entries l : Entries V) : Prop where
  nodup : (l.map Prod.fst).Nodup
  key : ∀ stored ∈ l, stored.1 = compositeKey src stored.2.entryKey
  held : ∀ stored ∈ l, entries.held src stored.2.entryKey = some stored.2

/-- The loop finds the entries of the claiming tab as they were at its start. -/
def Finds (dst : String)
    (existing : Entries V → DurableOutboxEntry V → Option (DurableOutboxEntry V))
    (entries l : Entries V) : Prop :=
  ∀ stored ∈ l, ∀ entries' : Entries V,
    entries'.held dst stored.2.entryKey = entries.held dst stored.2.entryKey →
      existing entries' stored.2 = entries.held dst stored.2.entryKey

variable {existing : Entries V → DurableOutboxEntry V → Option (DurableOutboxEntry V)}
  {key : List Char} {entry : DurableOutboxEntry V} {l : Entries V}

theorem Finds.head (hfinds : Finds dst existing entries ((key, entry) :: l)) (hne : src ≠ dst)
    (hl : Claimable src entries ((key, entry) :: l)) :
    existing (erase key entries) entry = entries.held dst entry.entryKey := by
  have hkey : key = compositeKey src entry.entryKey := hl.key _ mem_cons_self
  refine hfinds _ mem_cons_self _ ?_
  rw [hkey, held_erase, if_neg fun h => hne h.1.symm]

theorem Claimable.tail (hl : Claimable src entries ((key, entry) :: l)) :
    ∀ stored ∈ l, stored.2.entryKey ≠ entry.entryKey := by
  intro stored hmem heq
  have hnotMem := (nodup_cons.1 hl.nodup).1
  refine hnotMem (mem_map.2 ⟨stored, hmem, ?_⟩)
  rw [hl.key _ (mem_cons_of_mem _ hmem), heq]
  exact (hl.key _ mem_cons_self).symm

theorem Claimable.step (hne : src ≠ dst) (hl : Claimable src entries ((key, entry) :: l))
    (hfinds : Finds dst existing entries ((key, entry) :: l))
    (claimed : List (DurableOutboxEntry V)) :
    Claimable src (claimEntry dst entry (entries.held dst entry.entryKey)
      (erase (compositeKey src entry.entryKey) entries, claimed)).1 l ∧
    Finds dst existing (claimEntry dst entry (entries.held dst entry.entryKey)
      (erase (compositeKey src entry.entryKey) entries, claimed)).1 l := by
  have hentry := hl.held _ mem_cons_self
  have hsame : ∀ stored ∈ l, ∀ t, Entries.held
      (claimEntry dst entry (entries.held dst entry.entryKey)
        (erase (compositeKey src entry.entryKey) entries, claimed)).1 t stored.2.entryKey =
      entries.held t stored.2.entryKey := fun stored hmem t => by
    rw [held_claimEntry hne hentry, if_neg (hl.tail stored hmem)]
  refine ⟨⟨(nodup_cons.1 hl.nodup).2, fun stored hmem => ?_, fun stored hmem => ?_⟩,
    fun stored hmem entries' heq => ?_⟩
  · exact hl.key _ (mem_cons_of_mem _ hmem)
  · rw [hsame stored hmem]
    exact hl.held _ (mem_cons_of_mem _ hmem)
  · rw [hsame stored hmem] at heq ⊢
    exact hfinds _ (mem_cons_of_mem _ hmem) _ heq

theorem held_claimLoop (hne : src ≠ dst) (hl : Claimable src entries l)
    (hfinds : Finds dst existing entries l) (claimed : List (DurableOutboxEntry V)) (t k : String) :
    Entries.held (claimLoop dst existing l (entries, claimed)).1 t k =
      if ∃ stored ∈ l, stored.2.entryKey = k then
        if t = src then none
        else if t = dst then newest dst (entries.held src k) (entries.held dst k)
        else entries.held t k
      else entries.held t k := by
  induction l generalizing entries claimed with
  | nil => rw [claimLoop, if_neg (by simp)]
  | cons stored l ih =>
    obtain ⟨key, entry⟩ := stored
    have hentry : entries.held src entry.entryKey = some entry := hl.held _ mem_cons_self
    obtain rfl : key = compositeKey src entry.entryKey := hl.key _ mem_cons_self
    obtain ⟨hl', hfinds'⟩ := hl.step hne hfinds claimed
    have hstep := held_claimEntry hne hentry claimed
    rw [claimLoop, hfinds.head hne hl, ih hl' hfinds', hstep, hstep, hstep]
    by_cases hk : k = entry.entryKey
    · have hnone : ¬∃ stored ∈ l, stored.2.entryKey = k := fun ⟨stored, hmem, heq⟩ =>
        hl.tail stored hmem (heq.trans hk)
      have hsome : ∃ stored ∈ (compositeKey src entry.entryKey, entry) :: l,
          stored.2.entryKey = k := ⟨_, mem_cons_self, hk.symm⟩
      rw [if_neg hnone, if_pos hk, if_pos hsome]
    · have hiff : (entry.entryKey = k ∨ ∃ stored ∈ l, stored.2.entryKey = k) ↔
          ∃ stored ∈ l, stored.2.entryKey = k := or_iff_right (Ne.symm hk)
      simp only [if_neg hk, exists_mem_cons_iff, hiff]

theorem wellKeyed_claimLoop (h : WellKeyed entries) (claimed : List (DurableOutboxEntry V)) :
    WellKeyed (claimLoop dst existing l (entries, claimed)).1 := by
  induction l generalizing entries claimed with
  | nil => exact h
  | cons stored l ih =>
    obtain ⟨key, entry⟩ := stored
    rw [claimLoop, claimEntry]
    split_ifs
    · exact ih (h.erase _) _
    · exact ih ((h.erase _).set { entry with tabId := dst }) _

theorem mem_claimLoop (hne : src ≠ dst) (hl : Claimable src entries l)
    (hfinds : Finds dst existing entries l) {claimed : List (DurableOutboxEntry V)}
    {e : DurableOutboxEntry V} : e ∈ (claimLoop dst existing l (entries, claimed)).2 ↔
      e ∈ claimed ∨ ∃ stored ∈ l, e = { stored.2 with tabId := dst } ∧
        ∀ existing, entries.held dst e.entryKey = some existing →
          isOlderThan existing stored.2 := by
  induction l generalizing entries claimed with
  | nil => simp [claimLoop]
  | cons stored l ih =>
    obtain ⟨key, entry⟩ := stored
    have hentry : entries.held src entry.entryKey = some entry := hl.held _ mem_cons_self
    obtain rfl : key = compositeKey src entry.entryKey := hl.key _ mem_cons_self
    obtain ⟨hl', hfinds'⟩ := hl.step hne hfinds claimed
    have hstep := held_claimEntry hne hentry claimed
    have hrest : (∃ stored ∈ l, e = { stored.2 with tabId := dst } ∧
        ∀ existing, Entries.held (claimEntry dst entry (entries.held dst entry.entryKey)
          (erase (compositeKey src entry.entryKey) entries, claimed)).1 dst e.entryKey =
            some existing → isOlderThan existing stored.2) ↔
        ∃ stored ∈ l, e = { stored.2 with tabId := dst } ∧
          ∀ existing, entries.held dst e.entryKey = some existing →
            isOlderThan existing stored.2 := by
      refine exists_congr fun stored => and_congr_right fun hmem => and_congr_right fun heq => ?_
      rw [hstep, if_neg (by rw [heq]; exact hl.tail stored hmem)]
    rw [claimLoop, hfinds.head hne hl, ih hl' hfinds', hrest, exists_mem_cons_iff,
      ← or_assoc]
    refine or_congr_left ?_
    rw [claimEntry]
    cases hexisting : entries.held dst entry.entryKey with
    | none =>
      simp only [Option.any_none, Bool.false_eq_true, if_false, mem_append,
        mem_singleton]
      refine or_congr_right ⟨fun heq => ⟨heq, ?_⟩, And.left⟩
      intro existing hsome
      rw [heq] at hsome
      rw [hexisting] at hsome
      cases hsome
    | some d =>
      simp only [Option.any_some, Bool.not_eq_true']
      split_ifs with hold
      · refine ⟨.inl, ?_⟩
        rintro (h | ⟨heq, h⟩)
        · exact h
        · have h' := h d (by rw [heq]; exact hexisting)
          rw [h'] at hold
          cases hold
      · rw [mem_append, mem_singleton]
        refine or_congr_right ⟨fun heq => ⟨heq, ?_⟩, And.left⟩
        intro existing hsome
        rw [heq] at hsome
        obtain rfl := Option.some.inj (hexisting.symm.trans hsome)
        simpa using hold

end Claims

/-! ### The two adapters -/

section Backends

variable {s : Store V}

theorem wellKeyed_put (h : WellKeyed s.entries) (k t : String) (u : ℤ) (v : V) :
    WellKeyed (put k t u v s).entries := by
  rw [put]
  split
  · exact h.set ⟨k, _, t, u, v⟩
  · exact h.set ⟨k, _, t, u, v⟩

theorem held_put (s : Store V) (k t : String) (u : ℤ) (v : V) (t' k' : String) :
    (put k t u v s).held t' k' = if t' = t ∧ k' = k then
      some ⟨k, ((s.held t k).map (·.seq)).getD (s.seq + 1), t, u, v⟩ else s.held t' k' := by
  rw [put]
  cases hexisting : s.entries.lookup (compositeKey t k) with
  | none =>
    have hheld : s.held t k = none := hexisting
    rw [hheld]
    exact held_set s.entries ⟨k, s.seq + 1, t, u, v⟩ t' k'
  | some existing =>
    have hheld : s.held t k = some existing := hexisting
    rw [hheld]
    exact held_set s.entries ⟨k, existing.seq, t, u, v⟩ t' k'

theorem seq_put (s : Store V) (k t : String) (u : ℤ) (v : V) :
    (put k t u v s).seq = if s.held t k = none then s.seq + 1 else s.seq := by
  rw [put]
  cases hexisting : s.entries.lookup (compositeKey t k) with
  | none =>
    have hheld : s.held t k = none := hexisting
    rw [if_pos hheld]
  | some existing =>
    have hheld : s.held t k = some existing := hexisting
    rw [if_neg (by rw [hheld]; exact Option.some_ne_none _)]

theorem nodup_getAll (h : WellKeyed s.entries) (tabId : Option String) :
    ((getAll tabId s.entries).map Prod.fst).Nodup :=
  ((perm_insertionSort _ _).map _).nodup_iff.2 (h.nodup.sublist (filter_sublist.map _))

theorem mem_getAll {tabId : Option String} {stored : List Char × DurableOutboxEntry V} :
    stored ∈ getAll tabId s.entries ↔
      stored ∈ s.entries ∧ (tabId = none ∨ tabId = some stored.2.tabId) := by
  rw [getAll, mem_insertionSort, mem_filter, decide_eq_true_eq]

variable (h : WellKeyed s.entries)
include h

theorem claimable_of_mem {src : String} {l : Entries V} (hnodup : (l.map Prod.fst).Nodup)
    (hmem : ∀ stored, stored ∈ l ↔ stored ∈ s.entries ∧ stored.2.tabId = src) :
    Claimable src s.entries l where
  nodup := hnodup
  key stored hstored := by
    obtain ⟨hstored, rfl⟩ := (hmem _).1 hstored
    exact h.key _ hstored
  held stored hstored := by
    obtain ⟨hstored, rfl⟩ := (hmem _).1 hstored
    exact (h.mem_iff.1 hstored).2

theorem exists_mem_iff {src : String} {l : Entries V}
    (hmem : ∀ stored, stored ∈ l ↔ stored ∈ s.entries ∧ stored.2.tabId = src) (k : String) :
    (∃ stored ∈ l, stored.2.entryKey = k) ↔ ∃ e, s.held src k = some e := by
  constructor
  · rintro ⟨stored, hstored, rfl⟩
    obtain ⟨hstored, rfl⟩ := (hmem _).1 hstored
    exact ⟨_, (h.mem_iff.1 hstored).2⟩
  · rintro ⟨e, he⟩
    obtain ⟨htab, hkey⟩ := h.of_held he
    exact ⟨_, (hmem _).2 ⟨mem_of_lookup he, htab⟩, hkey⟩

theorem held_claimLoop_all {src dst : String} (hne : src ≠ dst)
    {l : Entries V} (hnodup : (l.map Prod.fst).Nodup)
    (hmem : ∀ stored, stored ∈ l ↔ stored ∈ s.entries ∧ stored.2.tabId = src)
    {existing : Entries V → DurableOutboxEntry V → Option (DurableOutboxEntry V)}
    (hfinds : Finds dst existing s.entries l) (t k : String) :
    Entries.held (claimLoop dst existing l (s.entries, [])).1 t k = if t = src then none
      else if t = dst then newest dst (s.held src k) (s.held dst k) else s.held t k := by
  rw [held_claimLoop hne (claimable_of_mem h hnodup hmem) hfinds]
  by_cases hcovers : ∃ stored ∈ l, stored.2.entryKey = k
  · rw [if_pos hcovers]
  · rw [if_neg hcovers]
    have hnone : s.held src k = none := by
      rw [exists_mem_iff h hmem] at hcovers
      cases hheld : s.held src k with
      | none => rfl
      | some e => exact absurd ⟨e, hheld⟩ hcovers
    split_ifs with ht ht'
    · rw [ht]
      exact hnone
    · rw [ht', hnone]
      rfl
    · rfl

theorem mem_claimLoop_all {src dst : String} (hne : src ≠ dst)
    {l : Entries V} (hnodup : (l.map Prod.fst).Nodup)
    (hmem : ∀ stored, stored ∈ l ↔ stored ∈ s.entries ∧ stored.2.tabId = src)
    {existing : Entries V → DurableOutboxEntry V → Option (DurableOutboxEntry V)}
    (hfinds : Finds dst existing s.entries l) {e : DurableOutboxEntry V} :
    e ∈ sorted (claimLoop dst existing l (s.entries, [])).2 ↔
      ∃ entry, s.held src e.entryKey = some entry ∧ e = { entry with tabId := dst } ∧
        ∀ existing, s.held dst e.entryKey = some existing → isOlderThan existing entry := by
  have hclaim : e ∈ (claimLoop dst existing l (s.entries, [])).2 ↔ _ :=
    mem_claimLoop hne (claimable_of_mem h hnodup hmem) hfinds
  rw [sorted, mem_insertionSort, hclaim, or_iff_right not_mem_nil]
  constructor
  · rintro ⟨stored, hstored, rfl, hold⟩
    obtain ⟨hstored, rfl⟩ := (hmem _).1 hstored
    exact ⟨_, (h.mem_iff.1 hstored).2, rfl, hold⟩
  · rintro ⟨entry, hentry, heq, hold⟩
    obtain ⟨htab, -⟩ := h.of_held hentry
    exact ⟨_, (hmem _).2 ⟨mem_of_lookup hentry, htab⟩, heq, hold⟩

omit h

theorem nodup_sorted {l : Entries V} (h : WellKeyed s.entries) (hnodup : (l.map Prod.fst).Nodup)
    (hmem : ∀ stored ∈ l, stored ∈ s.entries) : (sorted (l.map Prod.snd)).Nodup := by
  refine (perm_insertionSort _ _).nodup_iff.2 (List.Nodup.of_map
    (fun entry => compositeKey entry.tabId entry.entryKey) ?_)
  have hkeys : l.map ((fun entry => compositeKey entry.tabId entry.entryKey) ∘ Prod.snd) =
      l.map Prod.fst :=
    map_congr_left fun stored hstored => (h.key stored (hmem stored hstored)).symm
  rwa [map_map, hkeys]

theorem pairwise_sorted (l : List (DurableOutboxEntry V)) :
    (sorted l).Pairwise fun a b => a.seq ≤ b.seq := by
  have htrans : IsTrans (DurableOutboxEntry V) fun a b => a.seq ≤ b.seq :=
    ⟨fun _ _ _ hab hbc => hab.trans hbc⟩
  have htotal : Std.Total fun a b : DurableOutboxEntry V => a.seq ≤ b.seq :=
    ⟨fun a b => Nat.le_total a.seq b.seq⟩
  exact pairwise_insertionSort _ l

variable (h : WellKeyed s.entries)
include h

theorem lookup_destByEntryKey (dst k : String) :
    (Assoc.merge [] ((getAll (some dst) s.entries).map fun stored =>
      (stored.2.entryKey, stored.2))).lookup k = s.held dst k := by
  have hpairs : ∀ e, (k, e) ∈ (getAll (some dst) s.entries).map (fun stored =>
      (stored.2.entryKey, stored.2)) ↔ s.held dst k = some e := by
    intro e
    rw [mem_map]
    constructor
    · rintro ⟨stored, hstored, heq⟩
      obtain ⟨rfl, rfl⟩ := Prod.mk.inj heq
      obtain ⟨hstored, htab⟩ := mem_getAll.1 hstored
      have htab : dst = stored.2.tabId := by simpa using htab
      rw [htab]
      exact (h.mem_iff.1 hstored).2
    · intro he
      obtain ⟨htab, hkey⟩ := h.of_held he
      exact ⟨_, mem_getAll.2 ⟨mem_of_lookup he, .inr (congrArg some htab.symm)⟩,
        Prod.ext hkey rfl⟩
  cases hlookup : (Assoc.merge [] ((getAll (some dst) s.entries).map fun stored =>
      (stored.2.entryKey, stored.2))).lookup k with
  | some e =>
    rcases mem_of_lookup_merge hlookup with hnil | hmem
    · cases hnil
    · exact ((hpairs e).1 hmem).symm
  | none =>
    cases hheld : s.held dst k with
    | none => rfl
    | some e =>
      exact absurd hlookup (lookup_merge_ne_none_of_mem ((hpairs e).2 hheld))

theorem mem_tab {l : Entries V} {t : String}
    (hmem : ∀ stored, stored ∈ l ↔ stored ∈ s.entries ∧ t = stored.2.tabId)
    {e : DurableOutboxEntry V} : e ∈ sorted (l.map Prod.snd) ↔ s.held t e.entryKey = some e := by
  rw [sorted, mem_insertionSort, mem_map]
  constructor
  · rintro ⟨stored, hstored, rfl⟩
    obtain ⟨hstored, rfl⟩ := (hmem _).1 hstored
    exact (h.mem_iff.1 hstored).2
  · intro he
    obtain ⟨htab, -⟩ := h.of_held he
    exact ⟨_, (hmem _).2 ⟨mem_of_lookup he, htab.symm⟩, rfl⟩

theorem mem_tabIds {l : Entries V} (hmem : ∀ stored, stored ∈ l ↔ stored ∈ s.entries) {t : String} :
    t ∈ (l.map fun stored => stored.2.tabId).eraseDups ↔ ∃ k e, s.held t k = some e := by
  rw [mem_eraseDups, mem_map]
  constructor
  · rintro ⟨stored, hstored, rfl⟩
    exact ⟨_, _, (h.mem_iff.1 ((hmem _).1 hstored)).2⟩
  · rintro ⟨k, e, he⟩
    exact ⟨_, (hmem _).2 (mem_of_lookup he), (h.of_held he).1⟩

end Backends

theorem lawful_memory : Lawful (createMemoryOutboxAdapter (V := V)) where
  wellKeyed_put h := wellKeyed_put h
  held_put := held_put
  seq_put := seq_put
  wellKeyed_remove h _ _ := h.erase _
  held_remove s t k := held_erase s.entries t k
  seq_remove _ _ _ := rfl
  wellKeyed_claimTab h _ := wellKeyed_claimLoop h _
  held_claimTab h hne t k := by
    refine held_claimLoop_all h hne (h.nodup.sublist (filter_sublist.map _)) (fun stored => ?_)
      (fun _ _ _ heq => heq) t k
    rw [mem_filter, decide_eq_true_eq]
  seq_claimTab _ _ _ := rfl
  mem_claimed h hne := by
    refine mem_claimLoop_all h hne (h.nodup.sublist (filter_sublist.map _)) (fun stored => ?_)
      (fun _ _ _ heq => heq)
    rw [mem_filter, decide_eq_true_eq]
  mem_listEntries {s t e} h := by
    rw [← mem_tab h (l := s.entries.filter fun stored => t = stored.2.tabId)
      (fun stored => by rw [mem_filter, decide_eq_true_eq])]
    simp [createMemoryOutboxAdapter, filter_map, Function.comp_def]
  nodup_listEntries {s} h t := by
    have hnodup := nodup_sorted h (l := s.entries.filter fun stored => t = stored.2.tabId)
      (h.nodup.sublist (filter_sublist.map _)) fun _ => mem_of_mem_filter
    simpa [createMemoryOutboxAdapter, filter_map, Function.comp_def] using hnodup
  pairwise_listEntries _ _ := pairwise_sorted _
  mem_listTabIds h := mem_tabIds h fun _ => Iff.rfl

theorem lawful_indexedDb : Lawful (createIndexedDbOutboxAdapter (V := V)) where
  wellKeyed_put h := wellKeyed_put h
  held_put := held_put
  seq_put := seq_put
  wellKeyed_remove h _ _ := h.erase _
  held_remove s t k := held_erase s.entries t k
  seq_remove _ _ _ := rfl
  wellKeyed_claimTab h _ := wellKeyed_claimLoop h _
  held_claimTab h hne t k := by
    refine held_claimLoop_all h hne (nodup_getAll h _) (fun stored => ?_)
      (fun stored _ _ _ => lookup_destByEntryKey h _ _) t k
    rw [mem_getAll, eq_comm (a := stored.2.tabId)]
    simp
  seq_claimTab _ _ _ := rfl
  mem_claimed h hne := by
    refine mem_claimLoop_all h hne (nodup_getAll h _) (fun stored => ?_)
      (fun stored _ _ _ => lookup_destByEntryKey h _ _)
    rw [mem_getAll, eq_comm (a := stored.2.tabId)]
    simp
  mem_listEntries {s t e} h := mem_tab h (fun stored => by simp [mem_getAll])
  nodup_listEntries {s} h t := nodup_sorted h (nodup_getAll h _) fun _ hmem => (mem_getAll.1 hmem).1
  pairwise_listEntries _ _ := pairwise_sorted _
  mem_listTabIds h := mem_tabIds h fun stored => by simp [mem_getAll]

/-- An adapter for every place where entries are kept. -/
inductive Backend where
  | memory
  | indexedDb
  deriving DecidableEq

def Backend.adapter : Backend → DurableOutboxAdapter V
  | .memory => createMemoryOutboxAdapter
  | .indexedDb => createIndexedDbOutboxAdapter

theorem Backend.lawful (backend : Backend) : Lawful (backend.adapter (V := V)) :=
  match backend with
  | .memory => lawful_memory
  | .indexedDb => lawful_indexedDb

end EdgeBase.Outbox
