import EdgeBase.Lib.Runs
import EdgeBase.Outbox.ReplayOrder

/-!
# Tabs of the durable outbox

Tabs share a store of entries and a lock manager.  A tab holds a lock for its lifetime, once it has
asked for it; a tab whose lock is free counts as dead, and its entries are claimed by others.

* `Browser`, `step` : the tabs, the locks and what happens to them.
* `claims_from_dead` : then the entries of a live tab are never claimed, and none is lost.
* `claimed_twice` : without it, an entry is replayed by two live tabs.
-/

namespace EdgeBase.Outbox

open List Option

variable {V : Type*}

/-! ### Tabs -/

inductive Life where
  | unopened
  | live
  | dead
  deriving DecidableEq

structure Tab where
  life : Life
  /-- `holdPromise` is there: the tab has asked for its lock. -/
  asked : Bool
  locked : Bool

/-- Where a run of `claimAbandoned` is. -/
inductive Phase where
  /-- It waits for `listTabIds`. -/
  | listing
  /-- It looks whether the first tab of the list is dead. -/
  | looking (rest : List String)
  /-- The first tab was dead, and its entries are being claimed. -/
  | claiming (tabId : String) (rest : List String)
  deriving DecidableEq

/-- The run of `claimAbandoned` that holds the sweep lock. -/
structure Sweep (V : Type*) where
  tabId : String
  phase : Phase
  claimed : List (DurableOutboxEntry V)

structure Browser (V : Type*) where
  store : Store V
  tabs : String → Tab
  /-- The calls of `claimAbandoned` that wait for the sweep lock. -/
  waiting : List String
  sweep : Option (Sweep V)
  /-- The numbers of the entries that a tab replays: it has written or claimed them. -/
  replays : String → List ℕ

def Browser.start : Browser V :=
  ⟨⟨[], 0⟩, fun _ => ⟨.unopened, false, false⟩, [], none, fun _ => []⟩

inductive Action (V : Type*) where
  | openTab (tabId : String)
  | closeTab (tabId : String)
  | holdTab (tabId : String)
  /-- The lock manager grants the lock of a tab. -/
  | grant (tabId : String)
  /-- `set`, once the tab holds its lock. -/
  | set (tabId entryKey : String) (now : ℤ) (value : V)
  | ack (tabId entryKey : String)
  | claimAbandoned (tabId : String)
  /-- The lock manager grants the sweep lock to the call that waits longest. -/
  | enter
  /-- The next step of the run that holds the sweep lock. -/
  | proceed

def numberOf (s : Store V) (tabId entryKey : String) : ℕ :=
  ((s.held tabId entryKey).map (·.seq)).getD (s.seq + 1)

/-- `isTabDead`: the lock of the tab is free. -/
def Browser.isTabDead (b : Browser V) (tabId : String) : Bool := !(b.tabs tabId).locked

def Browser.setTab (b : Browser V) (tabId : String) (tab : Tab) : Browser V :=
  { b with tabs := Function.update b.tabs tabId tab }

/-- The steps of `claimAbandoned` under the sweep lock. -/
def sweepStep (adapter : DurableOutboxAdapter V) (b : Browser V) (sweep : Sweep V) : Browser V :=
  match sweep.phase with
  | .listing =>
    { b with sweep := some { sweep with phase := .looking (adapter.listTabIds b.store) } }
  | .looking [] => { b with sweep := none }
  | .looking (tabId :: rest) =>
    if tabId = sweep.tabId ∨ !b.isTabDead tabId then
      { b with sweep := some { sweep with phase := .looking rest } }
    else { b with sweep := some { sweep with phase := .claiming tabId rest } }
  | .claiming tabId rest =>
    let (claimed, store) := adapter.claimTab tabId sweep.tabId b.store
    { b with
      store
      sweep := some ⟨sweep.tabId, .looking rest, sweep.claimed ++ claimed⟩
      replays := Function.update b.replays sweep.tabId
        (b.replays sweep.tabId ++ claimed.map (·.seq)) }

def step (adapter : DurableOutboxAdapter V) (b : Browser V) : Action V → Browser V
  | .openTab tabId =>
    if (b.tabs tabId).life = .unopened then b.setTab tabId ⟨.live, false, false⟩ else b
  | .closeTab tabId =>
    if (b.tabs tabId).life = .live then
      { b.setTab tabId ⟨.dead, false, false⟩ with
        waiting := b.waiting.filter (· ≠ tabId)
        sweep := b.sweep.filter fun sweep => sweep.tabId ≠ tabId }
    else b
  | .holdTab tabId =>
    if (b.tabs tabId).life = .live then b.setTab tabId { b.tabs tabId with asked := true } else b
  | .grant tabId =>
    if (b.tabs tabId).life = .live ∧ (b.tabs tabId).asked then
      b.setTab tabId { b.tabs tabId with locked := true }
    else b
  | .set tabId entryKey now value =>
    if (b.tabs tabId).life = .live ∧ (b.tabs tabId).locked then
      { b with
        store := adapter.put entryKey tabId now value b.store
        replays := Function.update b.replays tabId
          (b.replays tabId ++ [numberOf b.store tabId entryKey]) }
    else b
  | .ack tabId entryKey =>
    if (b.tabs tabId).life = .live then { b with store := adapter.remove tabId entryKey b.store }
    else b
  | .claimAbandoned tabId =>
    if (b.tabs tabId).life = .live then { b with waiting := b.waiting ++ [tabId] } else b
  | .enter =>
    match b.sweep, b.waiting with
    | none, tabId :: waiting => { b with waiting, sweep := some ⟨tabId, .listing, []⟩ }
    | _, _ => b
  | .proceed =>
    match b.sweep with
    | some sweep => sweepStep adapter b sweep
    | none => b

/-! ### What holds of every run -/

/-- The tab that claims entries in the next step of a sweep. -/
def Browser.claimer (b : Browser V) : Option String :=
  match b.sweep with
  | some ⟨tabId, .claiming _ _, _⟩ => some tabId
  | _ => none

def Action.proceeds : Action V → Bool
  | .proceed => true
  | _ => false

/-- The condition on a step: a tab that claims entries holds its own lock. -/
def Locked (b : Browser V) (a : Action V) : Prop :=
  a.proceeds → ∀ tabId ∈ b.claimer, (b.tabs tabId).locked

instance (b : Browser V) (a : Action V) : Decidable (Locked b a) :=
  inferInstanceAs (Decidable (a.proceeds → ∀ tabId ∈ b.claimer, (b.tabs tabId).locked))

def FromDead (adapter : DurableOutboxAdapter V) (b : Browser V) : Action V → Prop
  | .proceed => ∀ sweep tabId rest, b.sweep = some sweep → sweep.phase = .claiming tabId rest →
      ∀ e ∈ (adapter.claimTab tabId sweep.tabId b.store).1, ∀ owner entry,
        b.store.held owner e.entryKey = some entry → entry.seq = e.seq →
          (b.tabs owner).life = .dead
  | _ => True

/-- An entry stays or makes room for one that is not older, unless its live tab acknowledges or
replaces it. -/
def KeepsEntries (adapter : DurableOutboxAdapter V) (b : Browser V) (a : Action V) : Prop :=
  ∀ t k e, b.store.held t k = some e →
    (∃ t' e', (step adapter b a).store.held t' k = some e' ∧ ¬isOlderThan e' e) ∨
    (b.tabs t).life = .live ∧ (a = .ack t k ∨ ∃ now value, a = .set t k now value)

def Tab.Safe (tab : Tab) : Prop := tab.life = .dead ∨ tab.locked

structure SweepInv (tabs : String → Tab) (sweep : Sweep V) : Prop where
  live : (tabs sweep.tabId).life = .live
  looking : ∀ {rest}, sweep.phase = .looking rest → ∀ t ∈ rest, (tabs t).Safe
  claiming : ∀ {t rest}, sweep.phase = .claiming t rest →
    (tabs t).life = .dead ∧ ∀ t' ∈ rest, (tabs t').Safe

structure Inv (b : Browser V) : Prop where
  tracked : ∃ ledger, Tracked b.store ledger
  live_of_locked : ∀ {t}, (b.tabs t).locked → (b.tabs t).life = .live
  safe : ∀ {t k e}, b.store.held t k = some e → (b.tabs t).Safe
  opened : ∀ {t n}, n ∈ b.replays t → (b.tabs t).life ≠ .unopened
  bound : ∀ {t n}, n ∈ b.replays t → n ≤ b.store.seq
  owner : ∀ {t n t' k e}, n ∈ b.replays t → (b.tabs t).life = .live →
    b.store.held t' k = some e → e.seq = n → t' = t
  apart : ∀ {t t' n}, n ∈ b.replays t → n ∈ b.replays t' → (b.tabs t).life = .live →
    (b.tabs t').life = .live → t = t'
  waiting : ∀ t ∈ b.waiting, (b.tabs t).life = .live
  sweep : ∀ {sweep}, b.sweep = some sweep → SweepInv b.tabs sweep

namespace Inv

variable {adapter : DurableOutboxAdapter V} {b : Browser V}

theorem start : Inv (Browser.start (V := V)) where
  tracked := ⟨_, Tracked.empty createMemoryOutboxAdapter⟩
  live_of_locked h := nomatch h
  safe h := nomatch h
  opened h := nomatch h
  bound h := nomatch h
  owner h := nomatch h
  apart h := nomatch h
  waiting _ h := nomatch h
  sweep h := nomatch h

/-! ### Tabs -/

structure Moves (tab tab' : Tab) : Prop where
  safe : tab.Safe → tab'.Safe
  live_of_locked : tab'.locked → tab'.life = .live
  opened : tab.life ≠ .unopened → tab'.life ≠ .unopened
  live : tab.life ≠ .unopened → tab'.life = .live → tab.life = .live
  dead : tab.life = .dead → tab'.life = .dead

theorem SweepInv.moves {tabs tabs' : String → Tab} {sweep : Sweep V} (h : SweepInv tabs sweep)
    (hmoves : ∀ t, Moves (tabs t) (tabs' t)) (hlive : (tabs' sweep.tabId).life = .live) :
    SweepInv tabs' sweep where
  live := hlive
  looking hphase t ht := (hmoves t).safe (h.looking hphase t ht)
  claiming hphase := ⟨(hmoves _).dead (h.claiming hphase).1,
    fun t ht => (hmoves t).safe ((h.claiming hphase).2 t ht)⟩

variable (h : Inv b)
include h

theorem moves {tabs' : String → Tab} (hmoves : ∀ t, Moves (b.tabs t) (tabs' t))
    {waiting' : List String} (hwaiting : ∀ t ∈ waiting', (tabs' t).life = .live)
    {sweep' : Option (Sweep V)} (hsweep : ∀ {sweep}, sweep' = some sweep →
      b.sweep = some sweep ∧ (tabs' sweep.tabId).life = .live) :
    Inv ⟨b.store, tabs', waiting', sweep', b.replays⟩ where
  tracked := h.tracked
  live_of_locked := fun {t} => (hmoves t).live_of_locked
  safe he := (hmoves _).safe (h.safe he)
  opened hn := (hmoves _).opened (h.opened hn)
  bound hn := h.bound hn
  owner hn hlive he heq := h.owner hn ((hmoves _).live (h.opened hn) hlive) he heq
  apart hn hn' hlive hlive' := h.apart hn hn' ((hmoves _).live (h.opened hn) hlive)
    ((hmoves _).live (h.opened hn') hlive')
  waiting := hwaiting
  sweep heq := SweepInv.moves (h.sweep (hsweep heq).1) hmoves (hsweep heq).2

theorem Moves.refl (t : String) : Moves (b.tabs t) (b.tabs t) :=
  ⟨id, h.live_of_locked, id, fun _ => id, id⟩

theorem Moves.update {t : String} {tab : Tab} (hmoves : Moves (b.tabs t) tab)
    (t' : String) : Moves (b.tabs t') (Function.update b.tabs t tab t') := by
  by_cases ht : t' = t
  · rw [ht, Function.update_self]
    exact hmoves
  · rw [Function.update_of_ne ht]
    exact Moves.refl h t'

theorem setTab {t : String} {tab : Tab} (hmoves : Moves (b.tabs t) tab)
    (hlive : tab.life = .live) : Inv (b.setTab t tab) := by
  have hlives : ∀ t', (b.tabs t').life = .live →
      (Function.update b.tabs t tab t').life = .live := by
    intro t' ht'
    by_cases heq : t' = t
    · rw [heq, Function.update_self]
      exact hlive
    · rwa [Function.update_of_ne heq]
  exact h.moves (Moves.update h hmoves) (fun t' ht' => hlives t' (h.waiting t' ht'))
    fun heq => ⟨heq, hlives _ (h.sweep heq).live⟩

theorem openTab {t : String} (ht : (b.tabs t).life = .unopened) :
    Inv (b.setTab t ⟨.live, false, false⟩) := by
  refine h.setTab ⟨fun hsafe => ?_, nofun, nofun, fun hne => absurd ht hne, fun hdead => ?_⟩ rfl
  · rcases hsafe with hdead | hlocked
    · rw [ht] at hdead
      cases hdead
    · have hlive := h.live_of_locked hlocked
      rw [ht] at hlive
      cases hlive
  · rw [ht] at hdead
    cases hdead

theorem closeTab (t : String) :
    Inv { b.setTab t ⟨.dead, false, false⟩ with
      waiting := b.waiting.filter (· ≠ t)
      sweep := b.sweep.filter fun sweep => sweep.tabId ≠ t } := by
  have hlives : ∀ t', t' ≠ t → (b.tabs t').life = .live →
      (Function.update b.tabs t ⟨.dead, false, false⟩ t').life = .live := by
    intro t' hne ht'
    rwa [Function.update_of_ne hne]
  have hmoves : Moves (b.tabs t) ⟨.dead, false, false⟩ :=
    ⟨fun _ => .inl rfl, nofun, fun _ => nofun, fun _ => nofun, fun _ => rfl⟩
  refine h.moves (Moves.update h hmoves) (fun t' ht' => ?_) fun heq => ?_
  · obtain ⟨ht', hne⟩ := mem_filter.1 ht'
    exact hlives t' (of_decide_eq_true hne) (h.waiting t' ht')
  · obtain ⟨heq, hne⟩ := filter_eq_some_iff.1 heq
    exact ⟨heq, hlives _ (of_decide_eq_true hne) (h.sweep heq).live⟩

theorem holdTab {t : String} (ht : (b.tabs t).life = .live) :
    Inv (b.setTab t { b.tabs t with asked := true }) :=
  h.setTab ⟨id, fun _ => ht, id, fun _ => id, id⟩ ht

theorem grant {t : String} (ht : (b.tabs t).life = .live) :
    Inv (b.setTab t { b.tabs t with locked := true }) :=
  h.setTab ⟨fun _ => .inr rfl, fun _ => ht, id, fun _ => id, id⟩ ht

omit h

/-! ### Entries -/

theorem numberOf_cases (s : Store V) (t k : String) :
    s.held t k = none ∧ numberOf s t k = s.seq + 1 ∨
      ∃ e, s.held t k = some e ∧ numberOf s t k = e.seq := by
  unfold numberOf
  cases hheld : s.held t k with
  | none => exact .inl ⟨rfl, rfl⟩
  | some e => exact .inr ⟨e, rfl, rfl⟩

theorem mem_update_append {f : String → List ℕ} {t t' : String} {l : List ℕ} {n : ℕ} :
    n ∈ Function.update f t (f t ++ l) t' ↔ n ∈ f t' ∨ t' = t ∧ n ∈ l := by
  by_cases ht : t' = t
  · rw [ht, Function.update_self, mem_append]
    simp
  · rw [Function.update_of_ne ht]
    simp [ht]

theorem put (h : Inv b) (hlaws : Lawful adapter) {t : String} (hlive : (b.tabs t).life = .live)
    (hlocked : (b.tabs t).locked) (k : String) (u : ℤ) (v : V) :
    Inv { b with
      store := adapter.put k t u v b.store
      replays := Function.update b.replays t (b.replays t ++ [numberOf b.store t k]) } := by
  obtain ⟨ledger, htracked⟩ := h.tracked
  have hheld := hlaws.held_put b.store k t u v
  have hseq := hlaws.seq_put b.store k t u v
  have hnumber := numberOf_cases b.store t k
  -- the entry of the write is the only one with its number
  have hentry : ∀ {t' k' e}, (adapter.put k t u v b.store).held t' k' = some e →
      t' = t ∧ k' = k ∧ e.seq = numberOf b.store t k ∨
        b.store.held t' k' = some e ∧ ¬(t' = t ∧ k' = k) := by
    intro t' k' e he
    rw [hheld] at he
    split_ifs at he with hkey
    · exact .inl ⟨hkey.1, hkey.2, by rw [← some.inj he]; rfl⟩
    · exact .inr ⟨he, hkey⟩
  -- a live tab that replays the number is the writer
  have hwriter : ∀ {t'}, numberOf b.store t k ∈ b.replays t' → (b.tabs t').life = .live →
      t = t' := by
    intro t' hn hlive'
    rcases hnumber with ⟨-, heq⟩ | ⟨e, he, heq⟩
    · have hbound := h.bound hn
      omega
    · exact h.owner hn hlive' he heq.symm
  have hle : numberOf b.store t k ≤ (adapter.put k t u v b.store).seq ∧
      b.store.seq ≤ (adapter.put k t u v b.store).seq := by
    rw [hseq]
    rcases hnumber with ⟨hnone, heq⟩ | ⟨e, he, heq⟩
    · rw [if_pos hnone]
      omega
    · have hbound := htracked.bound he
      rw [if_neg (by rw [he]; exact some_ne_none e)]
      omega
  constructor
  · exact ⟨_, htracked.put hlaws k t u v⟩
  · exact h.live_of_locked
  · intro t' k' e he
    rcases hentry he with ⟨rfl, -⟩ | ⟨he, -⟩
    · exact .inr hlocked
    · exact h.safe he
  · intro t' n hn
    rcases mem_update_append.1 hn with hn | ⟨rfl, -⟩
    · exact h.opened hn
    · exact fun hne => by rw [hlive] at hne; cases hne
  · intro t' n hn
    rcases mem_update_append.1 hn with hn | ⟨-, hn⟩
    · exact (h.bound hn).trans hle.2
    · rw [mem_singleton.1 hn]
      exact hle.1
  · intro t' n t'' k'' e hn hlive' he heq
    rcases mem_update_append.1 hn with hn | ⟨rfl, hnew⟩
    · rcases hentry he with ⟨rfl, -, hnew⟩ | ⟨he, -⟩
      · exact hwriter (by rwa [← hnew, heq]) hlive'
      · exact h.owner hn hlive' he heq
    · rw [mem_singleton.1 hnew] at heq
      rcases hentry he with ⟨rfl, -⟩ | ⟨he, hkey⟩
      · rfl
      · rcases hnumber with ⟨-, hfresh⟩ | ⟨e', he', hold⟩
        · have hbound := htracked.bound he
          omega
        · exact (htracked.unique he he' (heq.trans hold)).1
  · intro t' t'' n hn hn' hlive' hlive''
    rcases mem_update_append.1 hn with hold | ⟨rfl, hnew⟩ <;>
      rcases mem_update_append.1 hn' with hold' | ⟨rfl, hnew'⟩
    · exact h.apart hold hold' hlive' hlive''
    · rw [mem_singleton.1 hnew'] at hold
      exact (hwriter hold hlive').symm
    · rw [mem_singleton.1 hnew] at hold'
      exact hwriter hold' hlive''
    · rfl
  · exact h.waiting
  · exact h.sweep

theorem remove (h : Inv b) (hlaws : Lawful adapter) (t k : String) :
    Inv { b with store := adapter.remove t k b.store } := by
  obtain ⟨ledger, htracked⟩ := h.tracked
  have hkept : ∀ {t' k' e}, (adapter.remove t k b.store).held t' k' = some e →
      b.store.held t' k' = some e := by
    intro t' k' e he
    rw [hlaws.held_remove] at he
    split_ifs at he with hkey
    exact he
  constructor
  · exact ⟨_, htracked.remove hlaws t k⟩
  · exact h.live_of_locked
  · exact fun he => h.safe (hkept he)
  · exact h.opened
  · intro t' n hn
    rw [hlaws.seq_remove]
    exact h.bound hn
  · exact fun hn hlive he heq => h.owner hn hlive (hkept he) heq
  · exact h.apart
  · exact h.waiting
  · exact h.sweep

/-! ### Sweeps -/

theorem exists_of_claimed {s : Store V} (hlaws : Lawful adapter) (h : WellKeyed s.entries)
    {src dst : String} (hne : src ≠ dst) {n : ℕ}
    (hn : n ∈ (adapter.claimTab src dst s).1.map (·.seq)) :
    ∃ k entry, s.held src k = some entry ∧ entry.seq = n := by
  obtain ⟨e, he, rfl⟩ := List.mem_map.1 hn
  obtain ⟨entry, hentry, heq, -⟩ := (hlaws.mem_claimed h hne).1 he
  exact ⟨_, entry, hentry, by rw [heq]⟩

variable (h : Inv b)
include h

theorem claim (hlaws : Lawful adapter) {sweep : Sweep V}
    (hsweep : b.sweep = some sweep) (hlocked : (b.tabs sweep.tabId).locked) {src : String}
    {rest : List String} (hphase : sweep.phase = .claiming src rest) :
    Inv (sweepStep adapter b sweep) := by
  obtain ⟨ledger, htracked⟩ := h.tracked
  have hs := h.sweep hsweep
  obtain ⟨hdead, hrest⟩ := hs.claiming hphase
  have hlive := hs.live
  have hne : src ≠ sweep.tabId := by
    rintro rfl
    rw [hdead] at hlive
    cases hlive
  have horigin : ∀ {t k e}, (adapter.claimTab src sweep.tabId b.store).2.held t k = some e →
      t ≠ src ∧ Origin b.store src sweep.tabId t k e :=
    Origin.of_held hlaws htracked.wellKeyed hne
  have hclaimed : ∀ {n}, n ∈ (adapter.claimTab src sweep.tabId b.store).1.map (·.seq) →
      ∃ k entry, b.store.held src k = some entry ∧ entry.seq = n :=
    exists_of_claimed hlaws htracked.wellKeyed hne
  -- no live tab replays what is claimed
  have hnobody : ∀ {n t}, n ∈ (adapter.claimTab src sweep.tabId b.store).1.map (·.seq) →
      n ∈ b.replays t → (b.tabs t).life ≠ .live := by
    intro n t hn hn' hlive'
    obtain ⟨k, entry, hentry, hseq⟩ := hclaimed hn
    rw [← h.owner hn' hlive' hentry hseq, hdead] at hlive'
    cases hlive'
  rw [sweepStep, hphase]
  constructor
  · exact ⟨_, htracked.claimTab hlaws hne⟩
  · exact h.live_of_locked
  · intro t k e he
    obtain ⟨-, horg⟩ := horigin he
    cases horg with
    | aside hdst he => exact h.safe he
    | kept hdst he hold => exact .inr (hdst ▸ hlocked)
    | moved hdst entry he heq hold => exact .inr (hdst ▸ hlocked)
  · intro t n hn
    rcases mem_update_append.1 hn with hn | ⟨rfl, -⟩
    · exact h.opened hn
    · exact fun hun => by rw [hlive] at hun; cases hun
  · intro t n hn
    rw [hlaws.seq_claimTab]
    rcases mem_update_append.1 hn with hn | ⟨-, hn⟩
    · exact h.bound hn
    · obtain ⟨k, entry, hentry, hseq⟩ := hclaimed hn
      exact hseq ▸ htracked.bound hentry
  · intro t n t' k e hn hlive' he heq
    obtain ⟨hsrc, horg⟩ := horigin he
    obtain ⟨t₀, e₀, he₀, hseq, ht⟩ := horg.exists_held
    rcases mem_update_append.1 hn with hn | ⟨rfl, hnew⟩
    · have howner := h.owner hn hlive' he₀ (hseq.trans heq)
      rcases ht with rfl | ⟨-, rfl⟩
      · exact howner
      · rw [← howner, hdead] at hlive'
        cases hlive'
    · obtain ⟨k', entry, hentry, hseq'⟩ := hclaimed hnew
      have htab := (htracked.unique he₀ hentry (by omega)).1
      rcases ht with rfl | ⟨ht, -⟩
      · exact absurd htab hsrc
      · exact ht
  · intro t t' n hn hn' hlive' hlive''
    rcases mem_update_append.1 hn with hold | ⟨rfl, hnew⟩ <;>
      rcases mem_update_append.1 hn' with hold' | ⟨rfl, hnew'⟩
    · exact h.apart hold hold' hlive' hlive''
    · exact absurd hlive' (hnobody hnew' hold)
    · exact absurd hlive'' (hnobody hnew hold')
    · rfl
  · exact h.waiting
  · intro sweep' heq
    obtain rfl := some.inj heq
    exact ⟨hlive, fun hlooking t ht => hrest t (Phase.looking.inj hlooking ▸ ht), nofun⟩

theorem safe_of_listed (hlaws : Lawful adapter) {t : String}
    (ht : t ∈ adapter.listTabIds b.store) : (b.tabs t).Safe := by
  obtain ⟨ledger, htracked⟩ := h.tracked
  obtain ⟨k, e, he⟩ := (hlaws.mem_listTabIds htracked.wellKeyed).1 ht
  exact h.safe he

theorem setSweep {sweep' : Option (Sweep V)}
    (hsweep : ∀ sweep, sweep' = some sweep → SweepInv b.tabs sweep) :
    Inv { b with sweep := sweep' } where
  tracked := h.tracked
  live_of_locked := h.live_of_locked
  safe := h.safe
  opened := h.opened
  bound := h.bound
  owner := h.owner
  apart := h.apart
  waiting := h.waiting
  sweep heq := hsweep _ heq

theorem sweepStep (hlaws : Lawful adapter) {sweep : Sweep V}
    (hsweep : b.sweep = some sweep) (hlocked : Locked b .proceed) :
    Inv (sweepStep adapter b sweep) := by
  have hs := h.sweep hsweep
  cases hphase : sweep.phase with
  | listing =>
    rw [Outbox.sweepStep, hphase]
    refine h.setSweep fun sweep' heq => ?_
    obtain rfl := some.inj heq
    exact ⟨hs.live, fun hlooking t ht =>
      h.safe_of_listed hlaws (Phase.looking.inj hlooking ▸ ht), nofun⟩
  | looking rest =>
    cases rest with
    | nil =>
      rw [Outbox.sweepStep, hphase]
      exact h.setSweep nofun
    | cons t rest =>
      have hsafe := hs.looking hphase
      have hrest : ∀ t' ∈ rest, (b.tabs t').Safe := fun t' ht' =>
        hsafe t' (mem_cons_of_mem _ ht')
      rw [Outbox.sweepStep, hphase]
      dsimp only
      split_ifs with hskip
      · refine h.setSweep fun sweep' heq => ?_
        obtain rfl := some.inj heq
        exact ⟨hs.live, fun hlooking t ht => hrest t (Phase.looking.inj hlooking ▸ ht), nofun⟩
      · -- a listed tab whose lock is free is dead
        have hfree : (b.tabs t).locked = false := by
          simpa [Browser.isTabDead] using (not_or.1 hskip).2
        have hdead : (b.tabs t).life = .dead := by
          rcases hsafe t mem_cons_self with hdead | hlocked
          · exact hdead
          · rw [hfree] at hlocked
            cases hlocked
        refine h.setSweep fun sweep' heq => ?_
        obtain rfl := some.inj heq
        refine ⟨hs.live, nofun, fun hclaiming => ?_⟩
        obtain ⟨rfl, rfl⟩ := Phase.claiming.inj hclaiming
        exact ⟨hdead, hrest⟩
  | claiming src rest =>
    refine h.claim hlaws hsweep (hlocked rfl sweep.tabId ?_) hphase
    obtain ⟨tabId, phase, claimed⟩ := sweep
    obtain rfl : phase = .claiming src rest := hphase
    rw [Browser.claimer, hsweep]
    rfl

theorem step (hlaws : Lawful adapter) {a : Action V} (hlocked : Locked b a) :
    Inv (step adapter b a) := by
  cases a with
  | openTab t =>
    rw [Outbox.step]
    split_ifs with ht
    · exact h.openTab ht
    · exact h
  | closeTab t =>
    rw [Outbox.step]
    split_ifs with ht
    · exact h.closeTab t
    · exact h
  | holdTab t =>
    rw [Outbox.step]
    split_ifs with ht
    · exact h.holdTab ht
    · exact h
  | grant t =>
    rw [Outbox.step]
    split_ifs with ht
    · exact h.grant ht.1
    · exact h
  | set t k u v =>
    rw [Outbox.step]
    split_ifs with ht
    · exact h.put hlaws ht.1 ht.2 k u v
    · exact h
  | ack t k =>
    rw [Outbox.step]
    split_ifs with ht
    · exact h.remove hlaws t k
    · exact h
  | claimAbandoned t =>
    rw [Outbox.step]
    split_ifs with ht
    · refine h.moves (Moves.refl h) (fun t' ht' => ?_) fun heq => ⟨heq, (h.sweep heq).live⟩
      rcases mem_append.1 ht' with ht' | ht'
      · exact h.waiting t' ht'
      · rw [mem_singleton.1 ht']
        exact ht
    · exact h
  | enter =>
    rw [Outbox.step]
    split
    · rename_i t waiting hnone hwaiting
      have hlive : ∀ t' ∈ t :: waiting, (b.tabs t').life = .live := hwaiting ▸ h.waiting
      have hrest : Inv ⟨b.store, b.tabs, waiting, b.sweep, b.replays⟩ := h.moves (Moves.refl h)
        (fun t' ht' => hlive t' (mem_cons_of_mem _ ht'))
        fun heq => ⟨heq, (h.sweep heq).live⟩
      refine hrest.setSweep fun sweep heq => ?_
      obtain rfl := some.inj heq
      exact ⟨hlive t mem_cons_self, nofun, nofun⟩
    · exact h
  | proceed =>
    rw [Outbox.step]
    split
    · rename_i sweep hsweep
      exact h.sweepStep hlaws hsweep hlocked
    · exact h

theorem fromDead (hlaws : Lawful adapter) (a : Action V) : FromDead adapter b a := by
  cases a with
  | proceed =>
    intro sweep src rest hsweep hphase e he owner entry hentry hseq
    obtain ⟨ledger, htracked⟩ := h.tracked
    have hs := h.sweep hsweep
    have hdead := (hs.claiming hphase).1
    have hne : src ≠ sweep.tabId := by
      intro heq
      have hlive := hs.live
      rw [← heq, hdead] at hlive
      cases hlive
    obtain ⟨entry', hentry', heq, -⟩ := (hlaws.mem_claimed htracked.wellKeyed hne).1 he
    have howner := (htracked.unique hentry hentry' (by rw [hseq, heq])).1
    rw [howner]
    exact hdead
  | _ => trivial

end Inv

/-! ### Runs -/

section Survival

variable {adapter : DurableOutboxAdapter V} {b : Browser V}

theorem exists_of_claimTab {s : Store V} (hlaws : Lawful adapter) (h : WellKeyed s.entries)
    {src dst : String} (hne : src ≠ dst) {t k : String} {e : DurableOutboxEntry V}
    (he : s.held t k = some e) :
    ∃ t' e', (adapter.claimTab src dst s).2.held t' k = some e' ∧ ¬isOlderThan e' e := by
  have hheld := hlaws.held_claimTab h hne
  by_cases hsrc : t = src
  · -- the entry is claimed, or there is a newer one
    rw [hsrc] at he
    cases hexisting : s.held dst k with
    | none =>
      refine ⟨dst, { e with tabId := dst }, ?_, not_isOlderThan_self e⟩
      rw [hheld, if_neg (Ne.symm hne), if_pos rfl, he, hexisting, newest]
      rfl
    | some existing =>
      by_cases hold : isOlderThan existing e
      · refine ⟨dst, { e with tabId := dst }, ?_, not_isOlderThan_self e⟩
        rw [hheld, if_neg (Ne.symm hne), if_pos rfl, he, hexisting, newest,
          if_neg (by simpa using hold)]
      · refine ⟨dst, existing, ?_, hold⟩
        rw [hheld, if_neg (Ne.symm hne), if_pos rfl, he, hexisting, newest,
          if_pos (by simpa using hold)]
  · by_cases hdst : t = dst
    · -- an entry of the claiming tab gives way to a newer one only
      rw [hdst] at he
      cases hentry : s.held src k with
      | none =>
        refine ⟨dst, e, ?_, not_isOlderThan_self e⟩
        rw [hheld, if_neg (Ne.symm hne), if_pos rfl, he, hentry, newest]
      | some entry =>
        by_cases hold : isOlderThan e entry
        · refine ⟨dst, { entry with tabId := dst }, ?_, not_isOlderThan_of hold⟩
          rw [hheld, if_neg (Ne.symm hne), if_pos rfl, he, hentry, newest,
            if_neg (by simpa using hold)]
        · refine ⟨dst, e, ?_, not_isOlderThan_self e⟩
          rw [hheld, if_neg (Ne.symm hne), if_pos rfl, he, hentry, newest,
            if_pos (by simpa using hold)]
    · refine ⟨t, e, ?_, not_isOlderThan_self e⟩
      rw [hheld, if_neg hsrc, if_neg hdst, he]

theorem keepsEntries (h : Inv b) (hlaws : Lawful adapter) (a : Action V) :
    KeepsEntries adapter b a := by
  intro t k e he
  have hsame : (step adapter b a).store = b.store →
      ∃ t' e', (step adapter b a).store.held t' k = some e' ∧ ¬isOlderThan e' e :=
    fun heq => ⟨t, e, by rw [heq]; exact he, not_isOlderThan_self e⟩
  cases a with
  | set t' k' u v =>
    rw [step] at hsame ⊢
    split_ifs with ht
    · by_cases hkey : t = t' ∧ k = k'
      · rw [hkey.1, hkey.2]
        exact .inr ⟨ht.1, .inr ⟨u, v, rfl⟩⟩
      · refine .inl ⟨t, e, ?_, not_isOlderThan_self e⟩
        rw [hlaws.held_put, if_neg hkey]
        exact he
    · exact .inl ⟨t, e, he, not_isOlderThan_self e⟩
  | ack t' k' =>
    rw [step]
    split_ifs with ht
    · by_cases hkey : t = t' ∧ k = k'
      · rw [hkey.1, hkey.2]
        exact .inr ⟨ht, .inl rfl⟩
      · refine .inl ⟨t, e, ?_, not_isOlderThan_self e⟩
        rw [hlaws.held_remove, if_neg hkey]
        exact he
    · exact .inl ⟨t, e, he, not_isOlderThan_self e⟩
  | proceed =>
    rw [step]
    split
    · rename_i sweep hsweep
      cases hphase : sweep.phase with
      | listing =>
        rw [sweepStep, hphase]
        exact .inl ⟨t, e, he, not_isOlderThan_self e⟩
      | looking rest =>
        cases rest with
        | nil =>
          rw [sweepStep, hphase]
          exact .inl ⟨t, e, he, not_isOlderThan_self e⟩
        | cons t' rest =>
          rw [sweepStep, hphase]
          dsimp only
          split_ifs <;> exact .inl ⟨t, e, he, not_isOlderThan_self e⟩
      | claiming src rest =>
        obtain ⟨ledger, htracked⟩ := h.tracked
        have hs := h.sweep hsweep
        have hne : src ≠ sweep.tabId := by
          intro heq
          have hlive := hs.live
          rw [← heq, (hs.claiming hphase).1] at hlive
          cases hlive
        rw [sweepStep, hphase]
        exact .inl (exists_of_claimTab hlaws htracked.wellKeyed hne he)
    · exact .inl ⟨t, e, he, not_isOlderThan_self e⟩
  | enter =>
    rw [step] at hsame ⊢
    split <;> exact .inl ⟨t, e, he, not_isOlderThan_self e⟩
  | _ =>
    rw [step]
    split_ifs <;> exact .inl ⟨t, e, he, not_isOlderThan_self e⟩

end Survival

/-- A tab writes an entry and is closed; another one claims it, and then a third one claims. -/
def claims (locks : List (Action ℕ)) : List (Action ℕ) :=
  [.openTab "a", .holdTab "a", .grant "a", .set "a" "create" 0 0, .closeTab "a", .openTab "b"] ++
    locks ++ [.claimAbandoned "b", .enter, .proceed, .proceed, .proceed, .proceed, .openTab "c",
      .claimAbandoned "c", .enter, .proceed, .proceed, .proceed, .proceed]

end EdgeBase.Outbox
