import EdgeBase.Outbox.ReplayOrder

/-!
# Both adapters give the same answers

The memory adapter keeps its counter when it is cleared, the IndexedDB adapter starts again.  So
the numbers of one are those of the other, shifted by what was counted before the last `clear`.

* `Call`, `answers` : the calls of the adapter contract, and what an adapter answers.
* `Simulates.step` : every call keeps this, and is answered alike.
* `answers_agree` : the answers of any sequence of calls.
-/

namespace EdgeBase.Outbox

open List Backend

variable {V : Type*}

/-! ### Calls and answers -/

inductive Call (V : Type*) where
  | op (op : Op V)
  | listEntries (tabId : Option String)
  | listTabIds
  | clear

inductive Answer (V : Type*) where
  | entries (entries : List (DurableOutboxEntry V))
  | tabIds (tabIds : List String)
  | done

/-- `clear`: the counter of the database is in one of the stores that are cleared. -/
def clear : Backend → Store V → Store V
  | .memory, s => { s with entries := [] }
  | .indexedDb, _ => ⟨[], 0⟩

def Call.next (backend : Backend) (s : Store V) : Call V → Store V
  | .op call => call.apply backend.adapter s
  | .listEntries _ | .listTabIds => s
  | .clear => Outbox.clear backend s

def Call.answer (backend : Backend) (s : Store V) : Call V → Answer V
  | .op (.claimTab fromTabId toTabId) => .entries (backend.adapter.claimTab fromTabId toTabId s).1
  | .op _ | .clear => .done
  | .listEntries tabId => .entries (backend.adapter.listEntries tabId s)
  | .listTabIds => .tabIds (backend.adapter.listTabIds s)

/-- The answers to calls that are made one after the other. -/
def answers (backend : Backend) : List (Call V) → Store V → List (Answer V)
  | [], _ => []
  | call :: calls, s => call.answer backend s :: answers backend calls (call.next backend s)

theorem tracked_nil (n : ℕ) : Tracked (⟨[], n⟩ : Store V) ⟨0, fun _ _ => none, fun _ _ => []⟩ where
  wellKeyed := ⟨nodup_nil, fun _ h => absurd h not_mem_nil⟩
  bound h := nomatch h
  unique h := nomatch h
  first _ _ := iff_of_true rfl rfl
  nothing _ := rfl
  latest h := nomatch h

/-- `claimAbandoned` claims the entries of other tabs only. -/
def Call.Foreign : Call V → Prop
  | .op call => call.Foreign
  | _ => True

def shift (n : ℕ) (e : DurableOutboxEntry V) : DurableOutboxEntry V := { e with seq := e.seq + n }

/-- The same entries in the same order, but for their numbers; lists of tabs are to be alike. -/
inductive Agrees (alike : List String → List String → Prop) : Answer V → Answer V → Prop
  | entries (n : ℕ) (l : List (DurableOutboxEntry V)) :
    Agrees alike (.entries (l.map (shift n))) (.entries l)
  | tabIds {l l' : List String} (h : alike l l') : Agrees alike (.tabIds l) (.tabIds l')
  | done : Agrees alike .done .done

/-! ### Listings -/

section Listings

variable {s : Store V} {ledger : Ledger V} {backend : Backend}

structure Numbered (l : List (DurableOutboxEntry V)) : Prop where
  le : l.Pairwise fun a b => a.seq ≤ b.seq
  nodup : l.Nodup
  unique : ∀ a ∈ l, ∀ b ∈ l, a.seq = b.seq → a = b

theorem Numbered.pairwise_lt {l : List (DurableOutboxEntry V)} (h : Numbered l) :
    l.Pairwise fun a b => a.seq < b.seq :=
  (h.le.and h.nodup).imp_of_mem fun ha hb hab =>
    lt_of_le_of_ne hab.1 fun heq => hab.2 (h.unique _ ha _ hb heq)

theorem Numbered.eq_map_shift {n : ℕ} {l l' : List (DurableOutboxEntry V)} (h : Numbered l)
    (h' : Numbered l') (hmem : ∀ e, e ∈ l ↔ ∃ e' ∈ l', shift n e' = e) : l = l'.map (shift n) := by
  have hshift : (l'.map (shift n)).Pairwise fun a b => a.seq < b.seq :=
    pairwise_map.2 (h'.pairwise_lt.imp fun hlt => Nat.add_lt_add_right hlt n)
  have hirrefl : Std.Irrefl fun a b : DurableOutboxEntry V => a.seq < b.seq :=
    ⟨fun _ => lt_irrefl _⟩
  have hantisymm : Std.Antisymm fun a b : DurableOutboxEntry V => a.seq < b.seq :=
    ⟨fun _ _ hab hba => absurd hab hba.asymm⟩
  exact h.pairwise_lt.eq_of_mem_iff hshift fun e => (hmem e).trans mem_map.symm

theorem mem_listEntries_iff (h : WellKeyed s.entries) (backend : Backend) (tabId : Option String) :
    (backend.adapter.listEntries tabId s).Nodup ∧ ∀ e, e ∈ backend.adapter.listEntries tabId s ↔
      s.held e.tabId e.entryKey = some e ∧ (tabId = none ∨ tabId = some e.tabId) := by
  have hspec : ∃ l : Entries V, backend.adapter.listEntries tabId s = sorted (l.map Prod.snd) ∧
      (l.map Prod.fst).Nodup ∧ ∀ stored, stored ∈ l ↔
        stored ∈ s.entries ∧ (tabId = none ∨ tabId = some stored.2.tabId) := by
    cases backend with
    | memory =>
      refine ⟨s.entries.filter fun stored => tabId = none ∨ tabId = some stored.2.tabId, ?_,
        h.nodup.sublist (filter_sublist.map _), fun stored => ?_⟩
      · simp only [adapter, createMemoryOutboxAdapter, filter_map, Function.comp_def]
      · rw [mem_filter, decide_eq_true_eq]
    | indexedDb => exact ⟨getAll tabId s.entries, rfl, nodup_getAll h _, fun _ => mem_getAll⟩
  obtain ⟨l, hl, hnodup, hmem⟩ := hspec
  rw [hl]
  refine ⟨nodup_sorted h hnodup fun stored hstored => ((hmem _).1 hstored).1, fun e => ?_⟩
  rw [sorted, mem_insertionSort, mem_map]
  constructor
  · rintro ⟨stored, hstored, rfl⟩
    obtain ⟨hstored, htab⟩ := (hmem _).1 hstored
    exact ⟨(h.mem_iff.1 hstored).2, htab⟩
  · rintro ⟨he, htab⟩
    exact ⟨_, (hmem _).2 ⟨Assoc.mem_of_lookup he, htab⟩, rfl⟩

theorem numbered_listEntries (h : Tracked s ledger) (backend : Backend) (tabId : Option String) :
    Numbered (backend.adapter.listEntries tabId s) where
  le := by
    cases backend with
    | memory => exact pairwise_sorted _
    | indexedDb => exact pairwise_sorted _
  nodup := (mem_listEntries_iff h.wellKeyed backend tabId).1
  unique a ha b hb heq := by
    have hmem := (mem_listEntries_iff h.wellKeyed backend tabId).2
    obtain ⟨ha, -⟩ := (hmem a).1 ha
    obtain ⟨hb, -⟩ := (hmem b).1 hb
    obtain ⟨htab, hkey⟩ := h.unique ha hb heq
    rw [htab, hkey] at ha
    exact Option.some.inj (ha.symm.trans hb)

theorem nodup_claimLoop {dst : String}
    {existing : Entries V → DurableOutboxEntry V → Option (DurableOutboxEntry V)}
    {l : Entries V} (state : Entries V × List (DurableOutboxEntry V))
    (hnodup : (state.2.map (·.entryKey) ++ l.map (·.2.entryKey)).Nodup) :
    ((claimLoop dst existing l state).2.map (·.entryKey)).Nodup := by
  induction l generalizing state with
  | nil => simpa [claimLoop] using hnodup
  | cons stored l ih =>
    obtain ⟨key, entry⟩ := stored
    obtain ⟨entries, claimed⟩ := state
    rw [claimLoop]
    refine ih _ ?_
    rw [claimEntry]
    split_ifs
    · exact hnodup.sublist ((sublist_cons_self _ _).append_left _)
    · simpa using hnodup

theorem nodup_claimTab (h : WellKeyed s.entries) (backend : Backend) (src dst : String) :
    (backend.adapter.claimTab src dst s).1.Nodup := by
  have hspec : ∃ (l : Entries V) (existing : _), (backend.adapter.claimTab src dst s).1 =
      sorted (claimLoop dst existing l (s.entries, [])).2 ∧ (l.map Prod.fst).Nodup ∧
        ∀ stored, stored ∈ l ↔ stored ∈ s.entries ∧ stored.2.tabId = src := by
    cases backend with
    | memory =>
      refine ⟨s.entries.filter fun stored => stored.2.tabId = src, _, rfl,
        h.nodup.sublist (filter_sublist.map _), fun stored => ?_⟩
      rw [mem_filter, decide_eq_true_eq]
    | indexedDb =>
      refine ⟨getAll (some src) s.entries, _, rfl, nodup_getAll h _, fun stored => ?_⟩
      rw [mem_getAll, eq_comm (a := stored.2.tabId)]
      simp
  obtain ⟨l, existing, hclaimed, hnodup, hmem⟩ := hspec
  have hclaimable := claimable_of_mem h hnodup hmem
  have hkeys : (l.map (·.2.entryKey)).Nodup := by
    have hsame : l.map (compositeKey src ∘ fun stored => stored.2.entryKey) = l.map Prod.fst :=
      map_congr_left fun stored hstored => (hclaimable.key stored hstored).symm
    refine List.Nodup.of_map (compositeKey src) ?_
    rwa [map_map, hsame]
  rw [hclaimed, sorted]
  refine (perm_insertionSort _ _).nodup_iff.2 (List.Nodup.of_map (·.entryKey) ?_)
  exact nodup_claimLoop _ (by simpa using hkeys)

theorem numbered_claimTab (h : Tracked s ledger) (backend : Backend) {src dst : String}
    (hne : src ≠ dst) : Numbered (backend.adapter.claimTab src dst s).1 where
  le := by
    cases backend with
    | memory => exact pairwise_sorted _
    | indexedDb => exact pairwise_sorted _
  nodup := nodup_claimTab h.wellKeyed backend src dst
  unique a ha b hb heq := by
    obtain ⟨entry, hentry, rfl, -⟩ := (backend.lawful.mem_claimed h.wellKeyed hne).1 ha
    obtain ⟨entry', hentry', rfl, -⟩ := (backend.lawful.mem_claimed h.wellKeyed hne).1 hb
    have hkey := (h.unique hentry hentry' heq).2
    rw [hkey] at hentry
    rw [Option.some.inj (hentry.symm.trans hentry')]

end Listings

theorem nodup_eraseDups {α : Type*} [DecidableEq α] : ∀ l : List α, l.eraseDups.Nodup
  | [] => nodup_nil
  | a :: l => by
    rw [eraseDups_cons]
    refine nodup_cons.2 ⟨fun hmem => ?_, nodup_eraseDups _⟩
    simpa using (mem_filter.1 (mem_eraseDups.1 hmem)).2
termination_by l => l.length
decreasing_by exact Nat.lt_succ_of_le (length_filter_le _ _)

/-! ### The simulation -/

/-- The entries of the memory adapter are those of the other one, shifted. -/
structure Simulates (n : ℕ) (m d : Store V) : Prop where
  seq : m.seq = d.seq + n
  held : ∀ t k, m.held t k = (d.held t k).map (shift n)
  memory : ∃ ledger, Tracked m ledger
  indexedDb : ∃ ledger, Tracked d ledger

namespace Simulates

variable {n : ℕ} {m d : Store V}

theorem held_eq_some (h : Simulates n m d) {t k : String} {e : DurableOutboxEntry V} :
    m.held t k = some e ↔ ∃ e', d.held t k = some e' ∧ shift n e' = e := by
  rw [h.held, Option.map_eq_some_iff]

theorem isOlderThan_shift (a b : DurableOutboxEntry V) :
    isOlderThan (shift n a) (shift n b) = isOlderThan a b := by
  simp only [isOlderThan, shift, Nat.add_lt_add_iff_right]
  split_ifs
  · rfl
  · rfl

theorem newest_shift (dst : String) (a b : Option (DurableOutboxEntry V)) :
    newest dst (a.map (shift n)) (b.map (shift n)) = (newest dst a b).map (shift n) := by
  cases a with
  | none => rfl
  | some a =>
    simp only [Option.map_some, newest, Option.any_map, isOlderThan_shift]
    split_ifs
    · rfl
    · rfl

theorem empty (n : ℕ) : Simulates n (⟨[], n⟩ : Store V) ⟨[], 0⟩ where
  seq := (Nat.zero_add n).symm
  held _ _ := rfl
  memory := ⟨_, tracked_nil n⟩
  indexedDb := ⟨_, tracked_nil 0⟩

variable (h : Simulates n m d)
include h

theorem next_op {op : Op V} (hforeign : op.Foreign) :
    Simulates n (op.apply Backend.memory.adapter m) (op.apply Backend.indexedDb.adapter d) := by
  have hm : Lawful (Backend.memory.adapter (V := V)) := lawful _
  have hd : Lawful (Backend.indexedDb.adapter (V := V)) := lawful _
  obtain ⟨ledger, hledger⟩ := h.memory
  obtain ⟨ledger', hledger'⟩ := h.indexedDb
  cases op with
  | put k t u v =>
    refine ⟨?_, fun t' k' => ?_, ⟨_, hledger.put hm k t u v⟩, ⟨_, hledger'.put hd k t u v⟩⟩
    · rw [Op.apply, Op.apply, hm.seq_put, hd.seq_put, h.seq]
      have hnone : m.held t k = none ↔ d.held t k = none := by
        rw [h.held, Option.map_eq_none_iff]
      by_cases hk : d.held t k = none
      · rw [if_pos hk, if_pos (hnone.2 hk), Nat.add_right_comm]
      · rw [if_neg hk, if_neg (mt hnone.1 hk)]
    · rw [Op.apply, Op.apply, hm.held_put, hd.held_put, h.held, h.held, h.seq]
      split_ifs
      · cases d.held t k with
        | none => simp [shift, Nat.add_right_comm]
        | some e => rfl
      · rfl
  | remove t k =>
    refine ⟨?_, fun t' k' => ?_, ⟨_, hledger.remove hm t k⟩, ⟨_, hledger'.remove hd t k⟩⟩
    · rw [Op.apply, Op.apply, hm.seq_remove, hd.seq_remove, h.seq]
    · rw [Op.apply, Op.apply, hm.held_remove, hd.held_remove, h.held]
      split_ifs
      · rfl
      · rfl
  | claimTab src dst =>
    refine ⟨?_, fun t k => ?_, ⟨_, hledger.claimTab hm hforeign⟩,
      ⟨_, hledger'.claimTab hd hforeign⟩⟩
    · rw [Op.apply, Op.apply, hm.seq_claimTab, hd.seq_claimTab, h.seq]
    · rw [Op.apply, Op.apply, hm.held_claimTab hledger.wellKeyed hforeign,
        hd.held_claimTab hledger'.wellKeyed hforeign, h.held, h.held, h.held, newest_shift]
      split_ifs
      · rfl
      · rfl
      · rfl

theorem mem_claimTab_iff {src dst : String} (hne : src ≠ dst)
    (e : DurableOutboxEntry V) : e ∈ (Backend.memory.adapter.claimTab src dst m).1 ↔
      ∃ e' ∈ (Backend.indexedDb.adapter.claimTab src dst d).1, shift n e' = e := by
  obtain ⟨ledger, hm⟩ := h.memory
  obtain ⟨ledger', hd⟩ := h.indexedDb
  have hclaimed (e') := (lawful .indexedDb).mem_claimed (e := e') hd.wellKeyed hne
  rw [(lawful .memory).mem_claimed hm.wellKeyed hne]
  constructor
  · rintro ⟨entry, hentry, rfl, hold⟩
    obtain ⟨entry', hentry', rfl⟩ := h.held_eq_some.1 hentry
    refine ⟨{ entry' with tabId := dst }, (hclaimed _).2 ⟨entry', hentry', rfl, ?_⟩, rfl⟩
    intro existing hexisting
    rw [← isOlderThan_shift (n := n)]
    exact hold _ (h.held_eq_some.2 ⟨existing, hexisting, rfl⟩)
  · rintro ⟨e', he', rfl⟩
    obtain ⟨entry', hentry', rfl, hold⟩ := (hclaimed e').1 he'
    refine ⟨shift n entry', h.held_eq_some.2 ⟨entry', hentry', rfl⟩, rfl, ?_⟩
    intro existing hexisting
    obtain ⟨existing', hexisting', rfl⟩ := h.held_eq_some.1 hexisting
    rw [isOlderThan_shift]
    exact hold _ hexisting'

theorem mem_listEntries_iff (tabId : Option String)
    (e : DurableOutboxEntry V) : e ∈ Backend.memory.adapter.listEntries tabId m ↔
      ∃ e' ∈ Backend.indexedDb.adapter.listEntries tabId d, shift n e' = e := by
  obtain ⟨ledger, hm⟩ := h.memory
  obtain ⟨ledger', hd⟩ := h.indexedDb
  have hlisted := (Outbox.mem_listEntries_iff hd.wellKeyed .indexedDb tabId).2
  rw [(Outbox.mem_listEntries_iff hm.wellKeyed .memory tabId).2, h.held_eq_some]
  constructor
  · rintro ⟨⟨e', he', rfl⟩, htab⟩
    exact ⟨e', (hlisted e').2 ⟨he', htab⟩, rfl⟩
  · rintro ⟨e', he', rfl⟩
    obtain ⟨he', htab⟩ := (hlisted e').1 he'
    exact ⟨⟨e', he', rfl⟩, htab⟩

theorem perm_listTabIds :
    (Backend.memory.adapter.listTabIds m).Perm (Backend.indexedDb.adapter.listTabIds d) := by
  obtain ⟨ledger, hm⟩ := h.memory
  obtain ⟨ledger', hd⟩ := h.indexedDb
  refine (perm_ext_iff_of_nodup (nodup_eraseDups _) (nodup_eraseDups _)).2 fun t => ?_
  have hmem : t ∈ Backend.memory.adapter.listTabIds m ↔ _ :=
    (lawful .memory).mem_listTabIds hm.wellKeyed
  have hmem' : t ∈ Backend.indexedDb.adapter.listTabIds d ↔ _ :=
    (lawful .indexedDb).mem_listTabIds hd.wellKeyed
  refine hmem.trans (Iff.trans ?_ hmem'.symm)
  constructor
  · rintro ⟨k, e, he⟩
    obtain ⟨e', he', -⟩ := h.held_eq_some.1 he
    exact ⟨k, e', he'⟩
  · rintro ⟨k, e, he⟩
    exact ⟨k, _, h.held_eq_some.2 ⟨e, he, rfl⟩⟩

/-- **Every call keeps the simulation, and is answered alike.** -/
theorem step {call : Call V} (hforeign : call.Foreign) :
    (∃ n', Simulates n' (call.next .memory m) (call.next .indexedDb d)) ∧
      Agrees List.Perm (call.answer .memory m) (call.answer .indexedDb d) := by
  obtain ⟨ledger, hm⟩ := h.memory
  obtain ⟨ledger', hd⟩ := h.indexedDb
  cases call with
  | op op =>
    refine ⟨⟨n, h.next_op hforeign⟩, ?_⟩
    cases op with
    | put k t u v => exact .done
    | remove t k => exact .done
    | claimTab src dst =>
      rw [Call.answer, Call.answer, (numbered_claimTab hm .memory hforeign).eq_map_shift
        (numbered_claimTab hd .indexedDb hforeign) (h.mem_claimTab_iff hforeign)]
      exact .entries n _
  | listEntries tabId =>
    refine ⟨⟨n, h⟩, ?_⟩
    rw [Call.answer, Call.answer, (numbered_listEntries hm .memory tabId).eq_map_shift
      (numbered_listEntries hd .indexedDb tabId) (h.mem_listEntries_iff tabId)]
    exact .entries n _
  | listTabIds => exact ⟨⟨n, h⟩, .tabIds h.perm_listTabIds⟩
  | clear => exact ⟨⟨m.seq, empty m.seq⟩, .done⟩

end Simulates

end EdgeBase.Outbox
