import EdgeBase.Outbox.Holdings
import Mathlib.Order.MinMax

/-!
# The order of a replay

The calls of all tabs on one adapter, and what stands in the listings of the tabs after them.  The
value that is left for a key is always the latest one; the keys come in the order of their first
writes as long as no claim gives a key a number behind that of another key.

* `Careful` : no claim moves a key behind another one.
* `replays_in_order` : the listings after calls of this kind.
* `create_behind_update` : a claim that moves a create behind the update of its record.
-/

namespace EdgeBase.Outbox

open List Option

variable {V : Type*} {adapter : DurableOutboxAdapter V} {s : Store V}

/-! ### Calls -/

inductive Op (V : Type*) where
  | put (entryKey tabId : String) (updatedAt : ℤ) (value : V)
  | remove (tabId entryKey : String)
  | claimTab (fromTabId toTabId : String)

/-- `claimAbandoned` does not claim the entries of its own tab. -/
def Op.Foreign : Op V → Prop
  | .claimTab fromTabId toTabId => fromTabId ≠ toTabId
  | _ => True

def Op.apply (adapter : DurableOutboxAdapter V) (s : Store V) : Op V → Store V
  | .put entryKey tabId updatedAt value => adapter.put entryKey tabId updatedAt value s
  | .remove tabId entryKey => adapter.remove tabId entryKey s
  | .claimTab fromTabId toTabId => (adapter.claimTab fromTabId toTabId s).2

structure Ledger (V : Type*) where
  writes : ℕ
  /-- The first write of a key that is represented in a tab. -/
  first : String → String → Option ℕ
  /-- The entries that were merged for a key of a tab since it was written there. -/
  merged : String → String → List (DurableOutboxEntry V)

/-- The ledger after a call, with the store after it. -/
def Ledger.next (ledger : Ledger V) (store : Store V) : Op V → Ledger V
  | .put entryKey tabId _ _ =>
    { writes := ledger.writes + 1
      first := fun t k => if t = tabId ∧ k = entryKey then
        (ledger.first tabId entryKey).or (some ledger.writes) else ledger.first t k
      merged := fun t k => if t = tabId ∧ k = entryKey then
        (store.held tabId entryKey).toList else ledger.merged t k }
  | .remove tabId entryKey =>
    { ledger with
      first := fun t k => if t = tabId ∧ k = entryKey then none else ledger.first t k
      merged := fun t k => if t = tabId ∧ k = entryKey then [] else ledger.merged t k }
  | .claimTab fromTabId toTabId =>
    { ledger with
      first := fun t k => if t = fromTabId then none
        else if t = toTabId then (ledger.first fromTabId k).merge min (ledger.first toTabId k)
        else ledger.first t k
      merged := fun t k => if t = fromTabId then []
        else if t = toTabId then ledger.merged fromTabId k ++ ledger.merged toTabId k
        else ledger.merged t k }

section Ledger

variable (ledger : Ledger V) (store : Store V) (t k t' k' : String)

theorem Ledger.first_put (u : ℤ) (v : V) : (ledger.next store (.put k t u v)).first t' k' =
    if t' = t ∧ k' = k then (ledger.first t k).or (some ledger.writes)
    else ledger.first t' k' := rfl

theorem Ledger.merged_put (u : ℤ) (v : V) : (ledger.next store (.put k t u v)).merged t' k' =
    if t' = t ∧ k' = k then (store.held t k).toList else ledger.merged t' k' := rfl

theorem Ledger.first_remove : (ledger.next store (.remove t k)).first t' k' =
    if t' = t ∧ k' = k then none else ledger.first t' k' := rfl

theorem Ledger.merged_remove : (ledger.next store (.remove t k)).merged t' k' =
    if t' = t ∧ k' = k then [] else ledger.merged t' k' := rfl

theorem Ledger.first_claimTab (src dst : String) :
    (ledger.next store (.claimTab src dst)).first t k = if t = src then none
      else if t = dst then (ledger.first src k).merge min (ledger.first dst k)
      else ledger.first t k := rfl

theorem Ledger.merged_claimTab (src dst : String) :
    (ledger.next store (.claimTab src dst)).merged t k = if t = src then []
      else if t = dst then ledger.merged src k ++ ledger.merged dst k
      else ledger.merged t k := rfl

end Ledger

/-- The store and the ledger after some calls, the latest one first. -/
def after (adapter : DurableOutboxAdapter V) : List (Op V) → Store V × Ledger V
  | [] => (⟨[], 0⟩, ⟨0, fun _ _ => none, fun _ _ => []⟩)
  | op :: earlier =>
    let store := op.apply adapter (after adapter earlier).1
    (store, (after adapter earlier).2.next store op)

/-- A claim gives no key a number behind that of another key: where both tabs have an entry, no
number of another key is above the one of the dropped entry and below the one of the entry that
is left. -/
def Op.Keeps (s : Store V) : Op V → Prop
  | .claimTab fromTabId toTabId =>
    ∀ k entry existing, s.held fromTabId k = some entry → s.held toTabId k = some existing →
      ∀ t k' other, k' ≠ k → s.held t k' = some other →
        if isOlderThan existing entry then ¬(existing.seq < other.seq ∧ other.seq < entry.seq)
        else ¬(entry.seq < other.seq ∧ other.seq < existing.seq)
  | _ => True

def Careful (adapter : DurableOutboxAdapter V) : List (Op V) → Prop
  | [] => True
  | op :: earlier => Careful adapter earlier ∧ op.Keeps (after adapter earlier).1

/-! ### Ages -/

theorem isOlderThan_iff {a b : DurableOutboxEntry V} : isOlderThan a b ↔
    a.updatedAt < b.updatedAt ∨ a.updatedAt = b.updatedAt ∧ a.seq < b.seq := by
  rw [isOlderThan]
  split_ifs with h
  · rw [decide_eq_true_eq]
    exact ⟨.inl, fun h' => h'.resolve_right fun h' => h h'.1⟩
  · have h := not_not.1 h
    simp [h]

theorem not_isOlderThan_trans {a b c : DurableOutboxEntry V} (hab : ¬isOlderThan a b)
    (hbc : ¬isOlderThan b c) : ¬isOlderThan a c := by
  rw [isOlderThan_iff] at *
  omega

theorem not_isOlderThan_of {a b : DurableOutboxEntry V} (h : isOlderThan a b) :
    ¬isOlderThan b a := by
  rw [isOlderThan_iff] at *
  omega

theorem not_isOlderThan_self (a : DurableOutboxEntry V) : ¬isOlderThan a a := by
  rw [isOlderThan_iff]
  omega

/-! ### Where an entry comes from -/

/-- Where an entry comes from that a tab holds after a claim. -/
inductive Origin (s : Store V) (src dst t k : String) (e : DurableOutboxEntry V) : Prop
  /-- The claim is not about its tab. -/
  | aside (ht : t ≠ dst) (he : s.held t k = some e)
  /-- It is the own entry of the claiming tab. -/
  | kept (ht : t = dst) (he : s.held dst k = some e)
      (hold : ∀ entry, s.held src k = some entry → ¬isOlderThan e entry)
  | moved (ht : t = dst) (entry : DurableOutboxEntry V) (he : s.held src k = some entry)
      (heq : e = { entry with tabId := dst })
      (hold : ∀ existing, s.held dst k = some existing → isOlderThan existing entry)

theorem Origin.of_held (hlaws : Lawful adapter) (h : WellKeyed s.entries) {src dst : String}
    (hne : src ≠ dst) {t k : String} {e : DurableOutboxEntry V}
    (he : (adapter.claimTab src dst s).2.held t k = some e) : t ≠ src ∧ Origin s src dst t k e := by
  rw [hlaws.held_claimTab h hne] at he
  split_ifs at he with hsrc hdst
  · refine ⟨hsrc, ?_⟩
    cases hentry : s.held src k with
    | none =>
      rw [hentry, newest] at he
      exact .kept hdst he fun entry hentry' => by rw [hentry] at hentry'; cases hentry'
    | some entry =>
      rw [hentry, newest] at he
      split_ifs at he with hany
      · refine .kept hdst he fun entry' hentry' => ?_
        rw [hentry] at hentry'
        obtain rfl := some.inj hentry'
        rw [he] at hany
        simpa using hany
      · refine .moved hdst entry hentry (some.inj he).symm fun existing hexisting => ?_
        rw [hexisting] at hany
        simpa using hany
  · exact ⟨hsrc, .aside hdst he⟩

theorem Origin.exists_held {src dst t k : String} {e : DurableOutboxEntry V}
    (h : Origin s src dst t k e) :
    ∃ t₀ e₀, s.held t₀ k = some e₀ ∧ e₀.seq = e.seq ∧ (t = t₀ ∨ t = dst ∧ t₀ = src) := by
  cases h with
  | aside ht he => exact ⟨t, e, he, rfl, .inl rfl⟩
  | kept ht he hold => exact ⟨dst, e, he, rfl, .inl ht⟩
  | moved ht entry he heq hold => exact ⟨src, entry, he, by rw [heq], .inr ⟨ht, rfl⟩⟩

theorem held_claimTab_eq_none (hlaws : Lawful adapter) (h : WellKeyed s.entries)
    {src dst : String} (hne : src ≠ dst) (k : String) :
    (adapter.claimTab src dst s).2.held dst k = none ↔
      s.held src k = none ∧ s.held dst k = none := by
  rw [hlaws.held_claimTab h hne, if_neg (Ne.symm hne), if_pos rfl]
  cases hentry : s.held src k with
  | none => simp [newest]
  | some entry =>
    cases hexisting : s.held dst k with
    | none => simp [newest]
    | some existing =>
      rw [newest]
      split_ifs <;> simp

/-! ### Numbers and values -/

/-- The numbers of the entries are different, and the ledger is about the entries. -/
structure Tracked (s : Store V) (ledger : Ledger V) : Prop where
  wellKeyed : WellKeyed s.entries
  bound : ∀ {t k e}, s.held t k = some e → e.seq ≤ s.seq
  unique : ∀ {t k e t' k' e'}, s.held t k = some e → s.held t' k' = some e' → e.seq = e'.seq →
    t = t' ∧ k = k'
  first : ∀ t k, ledger.first t k = none ↔ s.held t k = none
  nothing : ∀ {t k}, s.held t k = none → ledger.merged t k = []
  latest : ∀ {t k e}, s.held t k = some e →
    (∃ m ∈ ledger.merged t k, e = { m with tabId := t }) ∧
      ∀ m ∈ ledger.merged t k, ¬isOlderThan e m

namespace Tracked

variable {ledger : Ledger V}

theorem empty (adapter : DurableOutboxAdapter V) :
    Tracked (after adapter []).1 (after adapter []).2 where
  wellKeyed := ⟨nodup_nil, fun _ h => absurd h not_mem_nil⟩
  bound h := nomatch h
  unique h := nomatch h
  first _ _ := iff_of_true rfl rfl
  nothing _ := rfl
  latest h := nomatch h

variable (h : Tracked s ledger)
include h

theorem put (hlaws : Lawful adapter) (k t : String) (u : ℤ) (v : V) :
    Tracked (adapter.put k t u v s) (ledger.next (adapter.put k t u v s) (.put k t u v)) := by
  have hheld := hlaws.held_put s k t u v
  have hseq := hlaws.seq_put s k t u v
  -- the number of a new key is not yet in use
  have hnew : ∀ {t' k' e}, s.held t' k' = some e → ¬(t' = t ∧ k' = k) →
      e.seq ≠ ((s.held t k).map (·.seq)).getD (s.seq + 1) := by
    intro t' k' e he hne heq
    cases hexisting : s.held t k with
    | none =>
      rw [hexisting] at heq
      have hbound := h.bound he
      simp only [map_none, getD_none] at heq
      omega
    | some existing =>
      rw [hexisting] at heq
      exact hne (h.unique he hexisting heq)
  constructor
  · exact hlaws.wellKeyed_put h.wellKeyed k t u v
  · intro t' k' e he
    rw [hheld] at he
    rw [hseq]
    split_ifs at he with hkey
    · obtain rfl := some.inj he
      cases hexisting : s.held t k with
      | none => simp
      | some existing => simpa using h.bound hexisting
    · have hbound := h.bound he
      split_ifs <;> omega
  · intro t₁ k₁ e₁ t₂ k₂ e₂ h₁ h₂ heq
    rw [hheld] at h₁ h₂
    split_ifs at h₁ h₂ with hkey₁ hkey₂ hkey₂
    · exact ⟨hkey₁.1.trans hkey₂.1.symm, hkey₁.2.trans hkey₂.2.symm⟩
    · obtain rfl := some.inj h₁
      exact absurd heq.symm (hnew h₂ hkey₂)
    · obtain rfl := some.inj h₂
      exact absurd heq (hnew h₁ hkey₁)
    · exact h.unique h₁ h₂ heq
  · intro t' k'
    rw [hheld, Ledger.first_put]
    split_ifs with hkey
    · simp
    · exact h.first t' k'
  · intro t' k' hnone
    rw [hheld] at hnone
    split_ifs at hnone with hkey
    rw [Ledger.merged_put]
    rw [if_neg hkey]
    exact h.nothing hnone
  · intro t' k' e he
    rw [Ledger.merged_put]
    have he' := he
    rw [hheld] at he'
    split_ifs at he' with hkey
    · obtain ⟨rfl, rfl⟩ := hkey
      rw [if_pos ⟨rfl, rfl⟩, he]
      refine ⟨⟨e, by simp, ?_⟩, fun m hm => ?_⟩
      · rw [← some.inj he']
      · have hm : m = e := by simpa using hm
        rw [hm]
        exact not_isOlderThan_self e
    · rw [if_neg hkey]
      exact h.latest he'

theorem remove (hlaws : Lawful adapter) (t k : String) :
    Tracked (adapter.remove t k s) (ledger.next (adapter.remove t k s) (.remove t k)) := by
  have hheld := hlaws.held_remove s t k
  have hkept : ∀ {t' k' e}, (adapter.remove t k s).held t' k' = some e →
      ¬(t' = t ∧ k' = k) ∧ s.held t' k' = some e := by
    intro t' k' e he
    rw [hheld] at he
    split_ifs at he with hkey
    exact ⟨hkey, he⟩
  constructor
  · exact hlaws.wellKeyed_remove h.wellKeyed t k
  · intro t' k' e he
    rw [hlaws.seq_remove]
    exact h.bound (hkept he).2
  · intro t₁ k₁ e₁ t₂ k₂ e₂ h₁ h₂ heq
    exact h.unique (hkept h₁).2 (hkept h₂).2 heq
  · intro t' k'
    rw [hheld, Ledger.first_remove]
    split_ifs with hkey
    · simp
    · exact h.first t' k'
  · intro t' k' hnone
    rw [hheld] at hnone
    rw [Ledger.merged_remove]
    split_ifs with hkey
    · rfl
    · rw [if_neg hkey] at hnone
      exact h.nothing hnone
  · intro t' k' e he
    obtain ⟨hkey, he⟩ := hkept he
    rw [Ledger.merged_remove]
    rw [if_neg hkey]
    exact h.latest he

theorem claimTab (hlaws : Lawful adapter) {src dst : String}
    (hne : src ≠ dst) : Tracked (adapter.claimTab src dst s).2
      (ledger.next (adapter.claimTab src dst s).2 (.claimTab src dst)) := by
  have horigin : ∀ {t k e}, (adapter.claimTab src dst s).2.held t k = some e →
      t ≠ src ∧ Origin s src dst t k e := Origin.of_held hlaws h.wellKeyed hne
  constructor
  · exact hlaws.wellKeyed_claimTab h.wellKeyed hne
  · intro t k e he
    obtain ⟨t₀, e₀, he₀, hseq, -⟩ := (horigin he).2.exists_held
    rw [hlaws.seq_claimTab, ← hseq]
    exact h.bound he₀
  · intro t k e t' k' e' he he' heq
    obtain ⟨hsrc, horg⟩ := horigin he
    obtain ⟨hsrc', horg'⟩ := horigin he'
    obtain ⟨t₀, e₀, he₀, hseq, ht⟩ := horg.exists_held
    obtain ⟨t₀', e₀', he₀', hseq', ht'⟩ := horg'.exists_held
    obtain ⟨htab, hkey⟩ := h.unique he₀ he₀' (by omega)
    refine ⟨?_, hkey⟩
    rcases ht with ht | ht <;> rcases ht' with ht' | ht'
    · rw [ht, ht', htab]
    · exact absurd (ht.trans (htab.trans ht'.2)) hsrc
    · exact absurd (ht'.trans (htab.symm.trans ht.2)) hsrc'
    · rw [ht.1, ht'.1]
  · intro t k
    rw [Ledger.first_claimTab]
    by_cases hsrc : t = src
    · rw [if_pos hsrc, hlaws.held_claimTab h.wellKeyed hne, if_pos hsrc]
      exact iff_of_true rfl rfl
    · by_cases hdst : t = dst
      · rw [if_neg hsrc, if_pos hdst, hdst, held_claimTab_eq_none hlaws h.wellKeyed hne,
          ← h.first, ← h.first]
        cases ledger.first src k <;> cases ledger.first dst k <;> simp
      · rw [if_neg hsrc, if_neg hdst, hlaws.held_claimTab h.wellKeyed hne, if_neg hsrc,
          if_neg hdst]
        exact h.first t k
  · intro t k hnone
    rw [Ledger.merged_claimTab]
    by_cases hsrc : t = src
    · rw [if_pos hsrc]
    · by_cases hdst : t = dst
      · rw [if_neg hsrc, if_pos hdst]
        rw [hdst, held_claimTab_eq_none hlaws h.wellKeyed hne] at hnone
        rw [h.nothing hnone.1, h.nothing hnone.2, append_nil]
      · rw [hlaws.held_claimTab h.wellKeyed hne, if_neg hsrc, if_neg hdst] at hnone
        rw [if_neg hsrc, if_neg hdst]
        exact h.nothing hnone
  · intro t k e he
    obtain ⟨hsrc, horg⟩ := horigin he
    rw [Ledger.merged_claimTab]
    rw [if_neg hsrc]
    cases horg with
    | aside hdst he =>
      rw [if_neg hdst]
      exact h.latest he
    | kept hdst he hold =>
      rw [if_pos hdst, hdst]
      obtain ⟨⟨m, hm, heq⟩, hlatest⟩ := h.latest he
      refine ⟨⟨m, mem_append_right _ hm, heq⟩, fun m' hm' => ?_⟩
      rcases mem_append.1 hm' with hm' | hm'
      · cases hentry : s.held src k with
        | none =>
          rw [h.nothing hentry] at hm'
          cases hm'
        | some entry =>
          exact not_isOlderThan_trans (hold entry hentry) ((h.latest hentry).2 m' hm')
      · exact hlatest m' hm'
    | moved hdst entry he heq hold =>
      rw [if_pos hdst, hdst]
      obtain ⟨⟨m, hm, heq'⟩, hlatest⟩ := h.latest he
      refine ⟨⟨m, mem_append_left _ hm, by rw [heq, heq']⟩, fun m' hm' => ?_⟩
      have hage : ¬isOlderThan entry m' := by
        rcases mem_append.1 hm' with hm' | hm'
        · exact hlatest m' hm'
        · cases hexisting : s.held dst k with
          | none =>
            rw [h.nothing hexisting] at hm'
            cases hm'
          | some existing =>
            exact not_isOlderThan_trans (not_isOlderThan_of (hold existing hexisting))
              ((h.latest hexisting).2 m' hm')
      rw [heq]
      exact hage

theorem exists_first {t k : String} {e : DurableOutboxEntry V}
    (he : s.held t k = some e) : ∃ n, ledger.first t k = some n :=
  ne_none_iff_exists'.1 fun hnone => by
    rw [h.first, he] at hnone
    cases hnone

theorem exists_held {t k : String} {n : ℕ}
    (hn : ledger.first t k = some n) : ∃ e, s.held t k = some e :=
  ne_none_iff_exists'.1 fun hnone => by
    rw [← h.first, hn] at hnone
    cases hnone

omit h

theorem of_calls (hlaws : Lawful adapter) : ∀ {ops : List (Op V)}, (∀ op ∈ ops, op.Foreign) →
    Tracked (after adapter ops).1 (after adapter ops).2
  | [], _ => empty adapter
  | op :: earlier, hforeign => by
    have hearlier : ∀ op ∈ earlier, op.Foreign := fun op hop =>
      hforeign op (mem_cons_of_mem _ hop)
    have h := of_calls hlaws hearlier
    cases op with
    | put k t u v => exact h.put hlaws k t u v
    | remove t k => exact h.remove hlaws t k
    | claimTab src dst => exact h.claimTab hlaws (hforeign _ mem_cons_self)

end Tracked

/-! ### Orders -/

/-- The numbers of different keys are in the order of the first writes.  `born` tells for a number
in which write it was drawn. -/
structure Ordered (s : Store V) (ledger : Ledger V) (born : ℕ → ℕ) : Prop where
  drawn : ∀ {t k e}, s.held t k = some e → born e.seq < ledger.writes
  first_le : ∀ {t k e n}, s.held t k = some e → ledger.first t k = some n → n ≤ born e.seq
  apart : ∀ {t k e t' k' e' n}, s.held t k = some e → s.held t' k' = some e' → k ≠ k' →
    e.seq < e'.seq → ledger.first t' k' = some n → born e.seq < n

theorem of_merge_min {a b : Option ℕ} {n : ℕ} (h : a.merge min b = some n) :
    (a = some n ∨ b = some n) ∧ (∀ m, a = some m → n ≤ m) ∧ ∀ m, b = some m → n ≤ m := by
  cases a with
  | none =>
    cases b with
    | none => cases h
    | some y =>
      obtain rfl := some.inj h
      exact ⟨.inr rfl, nofun, fun m hm => (some.inj hm).le⟩
  | some x =>
    cases b with
    | none =>
      obtain rfl := some.inj h
      exact ⟨.inl rfl, fun m hm => (some.inj hm).le, nofun⟩
    | some y =>
      obtain rfl := some.inj h
      refine ⟨?_, fun m hm => ?_, fun m hm => ?_⟩
      · rcases min_choice x y with hmin | hmin
        · exact .inl (congrArg some hmin.symm)
        · exact .inr (congrArg some hmin.symm)
      · rw [← some.inj hm]
        exact min_le_left x y
      · rw [← some.inj hm]
        exact min_le_right x y

namespace Ordered

variable {ledger : Ledger V} {born : ℕ → ℕ}

theorem put (h : Ordered s ledger born) (ht : Tracked s ledger) (hlaws : Lawful adapter)
    (k t : String) (u : ℤ) (v : V) : ∃ born', Ordered (adapter.put k t u v s)
      (ledger.next (adapter.put k t u v s) (.put k t u v)) born' := by
  have hheld := hlaws.held_put s k t u v
  cases hexisting : s.held t k with
  | some existing =>
    -- the key keeps its number and its first write
    rw [hexisting] at hheld
    obtain ⟨n₀, hfirst⟩ := ht.exists_first hexisting
    have hsame : ∀ {t' k' e}, (adapter.put k t u v s).held t' k' = some e →
        ∃ e₀, s.held t' k' = some e₀ ∧ e₀.seq = e.seq := by
      intro t' k' e he
      rw [hheld] at he
      split_ifs at he with hkey
      · rw [hkey.1, hkey.2]
        exact ⟨existing, hexisting, by rw [← some.inj he]; rfl⟩
      · exact ⟨e, he, rfl⟩
    have hsame' : ∀ t' k', (ledger.next (adapter.put k t u v s) (.put k t u v)).first t' k' =
        ledger.first t' k' := by
      intro t' k'
      rw [Ledger.first_put]
      split_ifs with hkey
      · rw [hkey.1, hkey.2, hfirst, some_or]
      · rfl
    refine ⟨born, fun he => ?_, fun he hn => ?_, fun he he' hne hlt hn => ?_⟩
    · obtain ⟨e₀, he₀, hseq⟩ := hsame he
      exact hseq ▸ Nat.lt_succ_of_lt (h.drawn he₀)
    · obtain ⟨e₀, he₀, hseq⟩ := hsame he
      rw [hsame'] at hn
      exact hseq ▸ h.first_le he₀ hn
    · obtain ⟨e₀, he₀, hseq⟩ := hsame he
      obtain ⟨e₀', he₀', hseq'⟩ := hsame he'
      rw [hsame'] at hn
      exact hseq ▸ h.apart he₀ he₀' hne (by omega) hn
  | none =>
    -- the key gets a new number, drawn in this write
    rw [hexisting] at hheld
    have hfirst := (ht.first t k).2 hexisting
    have hcases : ∀ {t' k' e}, (adapter.put k t u v s).held t' k' = some e →
        (t' = t ∧ k' = k ∧ e.seq = s.seq + 1) ∨
          (¬(t' = t ∧ k' = k) ∧ s.held t' k' = some e ∧ e.seq ≤ s.seq) := by
      intro t' k' e he
      rw [hheld] at he
      split_ifs at he with hkey
      · exact .inl ⟨hkey.1, hkey.2, by rw [← some.inj he]; rfl⟩
      · exact .inr ⟨hkey, he, ht.bound he⟩
    have hother : ∀ {t' k'}, ¬(t' = t ∧ k' = k) →
        (ledger.next (adapter.put k t u v s) (.put k t u v)).first t' k' =
          ledger.first t' k' := fun hkey => if_neg hkey
    have hnew : (ledger.next (adapter.put k t u v s) (.put k t u v)).first t k =
        some ledger.writes := by
      rw [Ledger.first_put, if_pos ⟨rfl, rfl⟩, hfirst, none_or]
    have hborn : ∀ {n}, n ≤ s.seq → (Function.update born (s.seq + 1) ledger.writes) n = born n :=
      fun hn => Function.update_of_ne (by omega) _ _
    refine ⟨Function.update born (s.seq + 1) ledger.writes, fun he => ?_, fun he hn => ?_,
      fun he he' hne hlt hn => ?_⟩
    · rcases hcases he with ⟨-, -, hseq⟩ | ⟨-, he, hseq⟩
      · rw [hseq, Function.update_self]
        exact Nat.lt_succ_self _
      · rw [hborn hseq]
        exact Nat.lt_succ_of_lt (h.drawn he)
    · rcases hcases he with ⟨rfl, rfl, hseq⟩ | ⟨hkey, he, hseq⟩
      · rw [hnew] at hn
        rw [hseq, Function.update_self, ← some.inj hn]
      · rw [hother hkey] at hn
        rw [hborn hseq]
        exact h.first_le he hn
    · rcases hcases he with ⟨-, -, hseq⟩ | ⟨-, he₀, hseq⟩
      · -- no number is above the new one
        rcases hcases he' with ⟨-, -, hseq'⟩ | ⟨-, -, hseq'⟩ <;> omega
      · rw [hborn hseq]
        rcases hcases he' with ⟨rfl, rfl, -⟩ | ⟨hkey', he', -⟩
        · rw [hnew] at hn
          rw [← some.inj hn]
          exact h.drawn he₀
        · rw [hother hkey'] at hn
          exact h.apart he₀ he' hne hlt hn

theorem remove (h : Ordered s ledger born) (hlaws : Lawful adapter) (t k : String) :
    Ordered (adapter.remove t k s) (ledger.next (adapter.remove t k s) (.remove t k)) born := by
  have hkept : ∀ {t' k' e}, (adapter.remove t k s).held t' k' = some e →
      ¬(t' = t ∧ k' = k) ∧ s.held t' k' = some e := by
    intro t' k' e he
    rw [hlaws.held_remove] at he
    split_ifs at he with hkey
    exact ⟨hkey, he⟩
  have hother : ∀ {t' k'}, ¬(t' = t ∧ k' = k) →
      (ledger.next (adapter.remove t k s) (.remove t k)).first t' k' = ledger.first t' k' :=
    fun hkey => if_neg hkey
  constructor
  · intro t' k' e he
    exact h.drawn (hkept he).2
  · intro t' k' e n he hn
    rw [hother (hkept he).1] at hn
    exact h.first_le (hkept he).2 hn
  · intro t' k' e t'' k'' e' n he he' hne hlt hn
    rw [hother (hkept he').1] at hn
    exact h.apart (hkept he).2 (hkept he').2 hne hlt hn

theorem claimTab (h : Ordered s ledger born) (ht : Tracked s ledger) (hlaws : Lawful adapter)
    {src dst : String} (hne : src ≠ dst) (hkeeps : (Op.claimTab src dst).Keeps s) :
    Ordered (adapter.claimTab src dst s).2
      (ledger.next (adapter.claimTab src dst s).2 (.claimTab src dst)) born := by
  have horigin : ∀ {t k e}, (adapter.claimTab src dst s).2.held t k = some e →
      t ≠ src ∧ Origin s src dst t k e := Origin.of_held hlaws ht.wellKeyed hne
  have haside : ∀ {t k}, t ≠ src → t ≠ dst →
      (ledger.next (adapter.claimTab src dst s).2 (.claimTab src dst)).first t k =
        ledger.first t k := fun hsrc hdst => by
    rw [Ledger.first_claimTab, if_neg hsrc, if_neg hdst]
  have hmerged : ∀ {k}, (ledger.next (adapter.claimTab src dst s).2 (.claimTab src dst)).first
      dst k = (ledger.first src k).merge min (ledger.first dst k) :=
    fun {k} => by rw [Ledger.first_claimTab, if_neg (Ne.symm hne), if_pos rfl]
  constructor
  · intro t k e he
    obtain ⟨t₀, e₀, he₀, hseq, -⟩ := (horigin he).2.exists_held
    exact hseq ▸ h.drawn he₀
  · intro t k e n he hn
    obtain ⟨hsrc, horg⟩ := horigin he
    cases horg with
    | aside hdst he =>
      rw [haside hsrc hdst] at hn
      exact h.first_le he hn
    | kept hdst he hold =>
      rw [hdst, hmerged] at hn
      obtain ⟨m, hm⟩ := ht.exists_first he
      exact ((of_merge_min hn).2.2 m hm).trans (h.first_le he hm)
    | moved hdst entry he heq hold =>
      rw [hdst, hmerged] at hn
      obtain ⟨m, hm⟩ := ht.exists_first he
      have hle := h.first_le he hm
      rw [heq]
      exact ((of_merge_min hn).2.1 m hm).trans hle
  · intro t k e t' k' e' n he he' hkey hlt hn
    obtain ⟨t₀, e₀, he₀, hseq, -⟩ := (horigin he).2.exists_held
    obtain ⟨hsrc', horg'⟩ := horigin he'
    have hapart : ∀ {x ex m}, s.held x k' = some ex → e.seq ≤ ex.seq →
        ledger.first x k' = some m → born e.seq < m := by
      intro x ex m hex hle hm
      have hdiff : e₀.seq ≠ ex.seq := fun heq => hkey (ht.unique he₀ hex heq).2
      rw [← hseq] at hle ⊢
      exact h.apart he₀ hex hkey (by omega) hm
    cases horg' with
    | aside hdst he' =>
      rw [haside hsrc' hdst] at hn
      exact hapart he' hlt.le hn
    | kept hdst he' hold =>
      rw [hdst, hmerged] at hn
      rcases (of_merge_min hn).1 with hm | hm
      · obtain ⟨entry, hentry⟩ := ht.exists_held hm
        have hbetween := hkeeps k' entry e' hentry he' t₀ k e₀ hkey he₀
        rw [if_neg (hold entry hentry)] at hbetween
        exact hapart hentry (by omega) hm
      · exact hapart he' hlt.le hm
    | moved hdst entry he' heq hold =>
      have hlt' : e.seq < entry.seq := by rwa [heq] at hlt
      rw [hdst, hmerged] at hn
      rcases (of_merge_min hn).1 with hm | hm
      · exact hapart he' hlt'.le hm
      · obtain ⟨existing, hexisting⟩ := ht.exists_held hm
        have hbetween := hkeeps k' entry existing he' hexisting t₀ k e₀ hkey he₀
        rw [if_pos (hold existing hexisting)] at hbetween
        exact hapart hexisting (by omega) hm

theorem of_calls (hlaws : Lawful adapter) : ∀ {ops : List (Op V)}, (∀ op ∈ ops, op.Foreign) →
    Careful adapter ops → ∃ born, Ordered (after adapter ops).1 (after adapter ops).2 born
  | [], _, _ => ⟨fun _ => 0, (fun h => nomatch h), (fun h => nomatch h), (fun h => nomatch h)⟩
  | op :: earlier, hforeign, hcareful => by
    have hearlier : ∀ op ∈ earlier, op.Foreign := fun op hop =>
      hforeign op (mem_cons_of_mem _ hop)
    have ht := Tracked.of_calls hlaws hearlier
    obtain ⟨born, h⟩ := of_calls hlaws hearlier hcareful.1
    cases op with
    | put k t u v => exact h.put ht hlaws k t u v
    | remove t k => exact ⟨born, h.remove hlaws t k⟩
    | claimTab src dst =>
      exact ⟨born, h.claimTab ht hlaws (hforeign _ mem_cons_self) hcareful.2⟩

end Ordered

/-! ### Listings -/

/-- The value of a key in a listing is always the latest one of those that were merged, and every
key that was written is there.  After careful calls the keys are in the order of the first writes
they stand for. -/
theorem replays_in_order (backend : Backend) {ops : List (Op V)}
    (hforeign : ∀ op ∈ ops, op.Foreign) (t : String) :
    let store := (after backend.adapter ops).1
    let ledger := (after backend.adapter ops).2
    let listing := backend.adapter.listEntries (some t) store
    (∀ e ∈ listing, (∃ m ∈ ledger.merged t e.entryKey, e = { m with tabId := t }) ∧
      ∀ m ∈ ledger.merged t e.entryKey, ¬isOlderThan e m) ∧
    (∀ k, (ledger.first t k).isSome → ∃ e ∈ listing, e.entryKey = k) ∧
    (Careful backend.adapter ops → listing.Pairwise fun a b =>
      ∃ m n, ledger.first t a.entryKey = some m ∧ ledger.first t b.entryKey = some n ∧ m < n) := by
  intro store ledger listing
  have hlaws : Lawful (backend.adapter (V := V)) := backend.lawful
  have ht : Tracked store ledger := Tracked.of_calls hlaws hforeign
  have hmem : ∀ {e}, e ∈ listing → store.held t e.entryKey = some e :=
    fun he => (hlaws.mem_listEntries ht.wellKeyed).1 he
  refine ⟨fun e he => ht.latest (hmem he), fun k hk => ?_, fun hcareful => ?_⟩
  · obtain ⟨n, hn⟩ := isSome_iff_exists.1 hk
    obtain ⟨e, he⟩ := ht.exists_held hn
    have hkey := (ht.wellKeyed.of_held he).2
    exact ⟨e, (hlaws.mem_listEntries ht.wellKeyed).2 (by rwa [hkey]), hkey⟩
  · obtain ⟨born, ho⟩ := Ordered.of_calls hlaws hforeign hcareful
    have hpairs := (hlaws.pairwise_listEntries store t).and
      (hlaws.nodup_listEntries ht.wellKeyed t)
    refine hpairs.imp_of_mem fun {a b} ha hb hab => ?_
    obtain ⟨m, hm⟩ := ht.exists_first (hmem ha)
    obtain ⟨n, hn⟩ := ht.exists_first (hmem hb)
    have hkey : a.entryKey ≠ b.entryKey := fun heq => hab.2 (some.inj
      ((hmem ha).symm.trans ((congrArg (store.held t) heq).trans (hmem hb))))
    have hseq : a.seq ≠ b.seq := fun heq => hkey (ht.unique (hmem ha) (hmem hb) heq).2
    have hlt : born a.seq < n := ho.apart (hmem ha) (hmem hb) hkey (by omega) hn
    exact ⟨m, n, hm, hn, (ho.first_le (hmem ha) hm).trans_lt hlt⟩

/-- A create, the update of its record in another tab, and the claim of the first tab. -/
def createThenUpdate : List (Op ℕ) :=
  [.claimTab "a" "b", .put "update" "b" 2 0, .put "create" "a" 1 0]

/-- The create is replayed before the update. -/
theorem create_before_update :
    let ledger := (after Backend.indexedDb.adapter createThenUpdate).2
    (Backend.indexedDb.adapter.listEntries (some "b")
      (after Backend.indexedDb.adapter createThenUpdate).1).Pairwise fun a b =>
        ∃ m n, ledger.first "b" a.entryKey = some m ∧ ledger.first "b" b.entryKey = some n ∧
          m < n := by
  have hforeign : ∀ op ∈ createThenUpdate, op.Foreign := by
    simp [createThenUpdate, Op.Foreign]
  refine (replays_in_order .indexedDb hforeign "b").2.2
    ⟨⟨⟨trivial, trivial⟩, trivial⟩, fun k entry existing hentry hexisting => ?_⟩
  -- the tabs have no key in common
  have hlaws : Lawful (Backend.indexedDb.adapter (V := ℕ)) := Backend.lawful _
  have hcreate : k = "create" := by
    by_contra hne
    rw [after, after, Op.apply, hlaws.held_put, if_neg (by simp), Op.apply, hlaws.held_put,
      if_neg fun h => hne h.2] at hentry
    cases hentry
  rw [hcreate, after, after, Op.apply, hlaws.held_put, if_neg (by decide), Op.apply,
    hlaws.held_put, if_neg (by decide)] at hexisting
  cases hexisting

/-- A create, the update of its record in another tab, the create there, and the claim of the
first tab. -/
def createBehindUpdate : List (Op ℕ) :=
  [.claimTab "a" "b", .put "create" "b" 3 0, .put "update" "b" 2 0, .put "create" "a" 1 0]

/-- The create is replayed behind the update, though it was written first. -/
theorem create_behind_update :
    (Backend.indexedDb.adapter.listEntries (some "b")
      (after Backend.indexedDb.adapter createBehindUpdate).1).map (·.entryKey) =
        ["update", "create"] ∧
    (after Backend.indexedDb.adapter createBehindUpdate).2.first "b" "create" = some 0 ∧
    (after Backend.indexedDb.adapter createBehindUpdate).2.first "b" "update" = some 1 := by
  decide +kernel

end EdgeBase.Outbox
