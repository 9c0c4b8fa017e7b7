import EdgeBase.Schedule.Claims
import Mathlib.Data.List.ReduceOption
import Mathlib.Data.List.Sort

/-!
# The execution of scheduled deliveries

The items of a wake-up are claimed chunk by chunk, their handlers run, and the store is told how
each of them ended: those that were over in time in one call for the chunk, a late one in a call of
its own when it is over.

* `runClaimedItem` : what becomes of one handler.
* `runChunk`, `executeScheduledDeliveries` : the calls of the store, the handlers, and the report.
-/

namespace EdgeBase.Schedule.Execution

open List

inductive ScheduledDeliveryOutcomeStatus where
  | succeeded
  | failed
  | timedOut
  | duplicate
  | inFlight
  | uncertain
  deriving DecidableEq

structure ScheduledDeliveryOutcome extends ScheduledDeliveryKey where
  lane : ManagedScheduleLane
  status : ScheduledDeliveryOutcomeStatus
  attempt : ℤ
  executed : Bool
  retryable : Bool
  error : Option String
  deriving DecidableEq

structure ScheduledDeliveryReport where
  complete : Bool
  outcomes : List ScheduledDeliveryOutcome
  deriving DecidableEq

inductive Mode where
  | execute
  | reconcile
  deriving DecidableEq

structure ScheduledDeliveryItem where
  id : String
  lane : ManagedScheduleLane
  mode : Mode := .execute
  deriving DecidableEq

structure ScheduledDeliveryEnvelope where
  cron : String
  scheduledTime : ℤ
  items : List ScheduledDeliveryItem

structure PendingDeliveryItem where
  ordinal : ℕ
  key : ScheduledDeliveryKey
  item : ScheduledDeliveryItem
  deriving DecidableEq

/-- How a handler ends: within the timeout, after it, or never. -/
inductive HandlerEnd where
  | succeeded
  | failed (error : String)
  | lateSucceeded
  | lateFailed (error : String)
  | never
  deriving DecidableEq

inductive StoreCall where
  | inspectMany (requests : List ScheduledDeliveryInspectionRequest)
  | claimMany (requests : List ScheduledDeliveryClaimRequest)
  | settleMany (settlements : List ScheduledDeliverySettlement)
  deriving DecidableEq

/-- What an execution meets: the options, the handlers, the clock, and the answers of the store to
the calls for the `k`-th chunk. -/
structure World where
  timeoutMs : ℤ
  leaseMs : Option ℤ := none
  normalizeCronExpression : String → Except String String
  describeError : String → String
  handler : ScheduledDeliveryKey → ℤ → HandlerEnd
  claimNow : ℕ → ℤ
  inspectNow : ScheduledDeliveryKey → ℤ
  settledAt : ScheduledDeliveryKey → ℤ
  inspectMany : Option (ℕ → Except String (List (Option ScheduledDeliveryState)))
  claimMany : ℕ → Except String (List ScheduledDeliveryClaim)
  settleMany : ℕ → Except String Unit

/-! ### Handlers -/

/-- An item whose handler is called, with its attempt. -/
structure Claimed where
  pending : PendingDeliveryItem
  attempt : ℤ
  deriving DecidableEq

/-- What `runClaimedItem` returns; a late settlement is a promise, which may stay open. -/
structure Ran where
  outcome : ScheduledDeliveryOutcome
  settlement : Option ScheduledDeliverySettlement := none
  lateSettlement : Option (Option ScheduledDeliverySettlement) := none

section Handlers

variable (world : World)

def Claimed.settlement (claimed : Claimed) (status : SettledStatus) (error : Option String) :
    ScheduledDeliverySettlement where
  toScheduledDeliveryKey := claimed.pending.key
  attempt := claimed.attempt
  status := status
  settledAt := world.settledAt claimed.pending.key
  error := error

def Claimed.outcome (claimed : Claimed) (status : ScheduledDeliveryOutcomeStatus)
    (retryable : Bool) (error : Option String) : ScheduledDeliveryOutcome where
  toScheduledDeliveryKey := claimed.pending.key
  lane := claimed.pending.item.lane
  status := status
  attempt := claimed.attempt
  executed := true
  retryable := retryable
  error := error

/-- `Scheduled item '…' timed out after …ms.` -/
def timedOut (claimed : Claimed) : String :=
  "Scheduled item '" ++ claimed.pending.item.id ++ "' timed out after " ++
    toString world.timeoutMs ++ "ms."

def Claimed.handlerEnd (claimed : Claimed) : HandlerEnd :=
  world.handler claimed.pending.key claimed.attempt

def runClaimedItem (claimed : Claimed) : Ran :=
  let late (settlement : Option ScheduledDeliverySettlement) : Ran :=
    { outcome := claimed.outcome .timedOut true (some (timedOut world claimed))
      lateSettlement := some settlement }
  match claimed.handlerEnd world with
  | .lateSucceeded => late (some (claimed.settlement world .succeeded none))
  | .lateFailed error =>
    late (some (claimed.settlement world .failed (some (world.describeError error))))
  | .never => late none
  | .failed error =>
    { outcome := claimed.outcome .failed true (some (world.describeError error))
      settlement := some (claimed.settlement world .failed (some (world.describeError error))) }
  | .succeeded =>
    { outcome := claimed.outcome .succeeded false none
      settlement := some (claimed.settlement world .succeeded none) }

end Handlers

/-! ### Chunks -/

def statusOf : ScheduledDeliveryStateStatus → ScheduledDeliveryOutcomeStatus
  | .succeeded => .duplicate
  | .running => .inFlight
  | .failed => .failed
  | .timedOut => .timedOut
  | .uncertain => .uncertain

def notExecuted (pending : PendingDeliveryItem) (state : ScheduledDeliveryState) :
    ScheduledDeliveryOutcome where
  toScheduledDeliveryKey := pending.key
  lane := pending.item.lane
  status := statusOf state.status
  attempt := state.attempt
  executed := false
  retryable := statusOf state.status = .failed ∨ statusOf state.status = .timedOut ∨
    statusOf state.status = .uncertain
  error := state.lastError.filter (· ≠ "")

abbrev Ordinal := ℕ × ScheduledDeliveryOutcome

/-- The outcomes of the items that were looked up; every one must have a row. -/
def inspectedOutcomes : List (PendingDeliveryItem × Option ScheduledDeliveryState) →
    Except String (List Ordinal)
  | [] => .ok []
  | (_, none) :: _ => .error "Scheduled delivery reconciliation has no durable claim."
  | (pending, some state) :: rest =>
    (inspectedOutcomes rest).map ((pending.ordinal, notExecuted pending state) :: ·)

section Chunks

variable (world : World) (k : ℕ)

def reconciliation (chunk : List PendingDeliveryItem) : List PendingDeliveryItem :=
  chunk.filter fun p => p.item.mode = .reconcile

def executable (chunk : List PendingDeliveryItem) : List PendingDeliveryItem :=
  chunk.filter fun p => p.item.mode ≠ .reconcile

/-- The items of the chunk that are only looked up. -/
def reconcile (chunk : List PendingDeliveryItem) : List StoreCall × Except String (List Ordinal) :=
  if reconciliation chunk = [] then ([], .ok [])
  else
    match world.inspectMany with
    | none =>
      ([], .error "Scheduled delivery store does not support non-mutating reconciliation.")
    | some inspectMany =>
      ([.inspectMany ((reconciliation chunk).map fun p =>
          { p.key with now := world.inspectNow p.key })],
        (inspectMany k).bind fun inspected =>
          if inspected.length ≠ (reconciliation chunk).length then
            .error "Scheduled delivery store returned a partial reconciliation result."
          else inspectedOutcomes ((reconciliation chunk).zip inspected))

/-- `Math.max(60_000, options.timeoutMs * 2)`, or the option. -/
def World.lease : ℤ := world.leaseMs.getD (max 60000 (world.timeoutMs * 2))

def claimRequests (chunk : List PendingDeliveryItem) : List ScheduledDeliveryClaimRequest :=
  (executable chunk).map fun p =>
    { p.key with
      lane := p.item.lane
      now := world.claimNow k
      leaseExpiresAt := world.claimNow k + world.lease
      retry := false }

def claims (chunk : List PendingDeliveryItem) :
    Except String (List (PendingDeliveryItem × ScheduledDeliveryClaim)) :=
  (world.claimMany k).bind fun claims =>
    if claims.length ≠ (executable chunk).length then
      .error "Scheduled delivery store returned a partial claim result."
    else .ok ((executable chunk).zip claims)

def claimedOf (claims : List (PendingDeliveryItem × ScheduledDeliveryClaim)) : List Claimed :=
  (claims.filter fun p => p.2.claimed).map fun p => ⟨p.1, p.2.state.attempt⟩

def unclaimedOutcomes (claims : List (PendingDeliveryItem × ScheduledDeliveryClaim)) :
    List Ordinal :=
  (claims.filter fun p => !p.2.claimed).map fun p => (p.1.ordinal, notExecuted p.1 p.2.state)

/-- What was done for a chunk: the calls, the handlers, and the outcomes or an error. -/
structure ChunkRun where
  calls : List StoreCall
  runs : List Claimed := []
  outcomes : Except String (List Ordinal)

/-- The calls that follow the handlers.  The late settlements are attached after the call for the
chunk. -/
def settlements (ran : List Ran) : List StoreCall :=
  .settleMany (ran.filterMap (·.settlement)) ::
    match world.settleMany k with
    | .error _ => []
    | .ok _ => (ran.filterMap (·.lateSettlement)).reduceOption.map fun s => .settleMany [s]

def runChunk (chunk : List PendingDeliveryItem) : ChunkRun :=
  match reconcile world k chunk with
  | (calls, .error error) => { calls, outcomes := .error error }
  | (calls, .ok inspected) =>
    if executable chunk = [] then { calls, outcomes := .ok inspected }
    else
      let calls := calls ++ [.claimMany (claimRequests world k chunk)]
      match claims world k chunk with
      | .error error => { calls, outcomes := .error error }
      | .ok claims =>
        let ran := (claimedOf claims).map (runClaimedItem world)
        { calls := calls ++ settlements world k ran
          runs := claimedOf claims
          outcomes := (world.settleMany k).map fun _ =>
            inspected ++ unclaimedOutcomes claims ++
              (claimedOf claims).map fun c =>
                (c.pending.ordinal, (runClaimedItem world c).outcome) }

/-- The chunks, one after the other, up to an error. -/
def runChunks : ℕ → List (List PendingDeliveryItem) → ChunkRun
  | _, [] => { calls := [], outcomes := .ok [] }
  | k, chunk :: rest =>
    let run := runChunk world k chunk
    match run.outcomes with
    | .error _ => run
    | .ok outcomes =>
      let later := runChunks (k + 1) rest
      { calls := run.calls ++ later.calls
        runs := run.runs ++ later.runs
        outcomes := later.outcomes.map (outcomes ++ ·) }

end Chunks

/-! ### The whole -/

def MAX_COALESCED_SCHEDULE_IDENTITIES : ℕ := 64

/-- The items of an envelope, behind those that are pending. -/
def collectItems (cron : String) (scheduledTime : ℤ) :
    List PendingDeliveryItem → List ScheduledDeliveryItem → Except String (List PendingDeliveryItem)
  | pending, [] => .ok pending
  | pending, item :: items =>
    let key : ScheduledDeliveryKey := ⟨cron, scheduledTime, item.id⟩
    if ∃ p ∈ pending, p.key = key then .error "Coalesced scheduled delivery repeats identity."
    else collectItems cron scheduledTime (pending ++ [⟨pending.length, key, item⟩]) items

def collect (world : World) : List PendingDeliveryItem → List ScheduledDeliveryEnvelope →
    Except String (List PendingDeliveryItem)
  | pending, [] => .ok pending
  | pending, envelope :: envelopes =>
    (world.normalizeCronExpression envelope.cron).bind fun cron =>
      if envelope.scheduledTime < 0 ∨ 9007199254740991 < envelope.scheduledTime then
        .error "Scheduled delivery scheduledTime must be a non-negative safe integer."
      else
        (collectItems cron envelope.scheduledTime pending envelope.items).bind fun pending =>
          collect world pending envelopes

/-- The checks before anything is done, and the items. -/
def accept (world : World) (envelopes : List ScheduledDeliveryEnvelope) :
    Except String (List PendingDeliveryItem) :=
  if world.timeoutMs ≤ 0 then
    .error "Scheduled delivery timeoutMs must be a positive finite number."
  else if MAX_COALESCED_SCHEDULE_IDENTITIES < envelopes.length then
    .error "Scheduled delivery contains too many cron identities."
  else if world.lease ≤ world.timeoutMs then
    .error "Scheduled delivery leaseMs must be finite and greater than timeoutMs."
  else collect world [] envelopes

def reportOf (outcomes : List Ordinal) : ScheduledDeliveryReport :=
  let ordered := (outcomes.mergeSort fun o o' => o.1 ≤ o'.1).map Prod.snd
  { complete := ordered.all fun o => o.status = .succeeded ∨ o.status = .duplicate
    outcomes := ordered }

/-- `executeScheduledDeliveries`, from the items on. -/
def executePending (world : World) (pending : List PendingDeliveryItem) : ChunkRun :=
  runChunks world 0 (chunks pending)

/-- `executeScheduledDeliveries`: the calls, the handlers, and the report or an error. -/
def executeScheduledDeliveries (world : World) (envelopes : List ScheduledDeliveryEnvelope) :
    List StoreCall × List Claimed × Except String ScheduledDeliveryReport :=
  match accept world envelopes with
  | .error error => ([], [], .error error)
  | .ok pending =>
    let run := executePending world pending
    (run.calls, run.runs, run.outcomes.map reportOf)

/-! ## What is to hold -/

/-- How the handler really ended, once it has. -/
def Claimed.truth (world : World) (claimed : Claimed) : Option (SettledStatus × Option String) :=
  match claimed.handlerEnd world with
  | .succeeded | .lateSucceeded => some (.succeeded, none)
  | .failed error | .lateFailed error => some (.failed, some (world.describeError error))
  | .never => none

/-- The handler is over, after its timeout. -/
def Claimed.Late (world : World) (claimed : Claimed) : Prop :=
  match claimed.handlerEnd world with
  | .lateSucceeded | .lateFailed _ => True
  | _ => False

def settled (calls : List StoreCall) : List ScheduledDeliverySettlement :=
  calls.flatMap fun
    | .settleMany settlements => settlements
    | _ => []

/-- The settlement says how the handler ended. -/
def Claimed.Told (claimed : Claimed) (truth : SettledStatus × Option String)
    (s : ScheduledDeliverySettlement) : Prop :=
  s.toScheduledDeliveryKey = claimed.pending.key ∧ s.attempt = claimed.attempt ∧
    (s.status, s.error) = truth

/-- If the handler is over, the store is told how it ended. -/
def SettledIn (world : World) (calls : List StoreCall) (claimed : Claimed) : Prop :=
  ∀ truth ∈ claimed.truth world, ∃ s ∈ settled calls, claimed.Told truth s

def Settles (world : World) (envelopes : List ScheduledDeliveryEnvelope) : Prop :=
  let (calls, runs, _) := executeScheduledDeliveries world envelopes
  ∀ claimed ∈ runs, SettledIn world calls claimed

def itemsOf (world : World) (envelopes : List ScheduledDeliveryEnvelope) :
    List (Option String × ℤ × String) :=
  envelopes.flatMap fun envelope => envelope.items.map fun item =>
    ((world.normalizeCronExpression envelope.cron).toOption, envelope.scheduledTime, item.id)

def ReportsInOrder (world : World) (envelopes : List ScheduledDeliveryEnvelope) : Prop :=
  ∀ report, (executeScheduledDeliveries world envelopes).2.2 = .ok report →
    report.outcomes.map (fun o => (some o.cron, o.scheduledTime, o.itemId)) =
      itemsOf world envelopes

/-- The store lets the item be claimed, and its handler is called. -/
def ClaimedBy (world : World) (k : ℕ) (chunk : List PendingDeliveryItem) (claimed : Claimed) :
    Prop :=
  (∃ inspected, (reconcile world k chunk).2 = .ok inspected) ∧
    ∃ claims', claims world k chunk = .ok claims' ∧ claimed ∈ claimedOf claims'

/-- The store answers every call for the chunk. -/
def Finishes (world : World) (k : ℕ) (chunk : List PendingDeliveryItem) : Prop :=
  (∃ inspected, (reconcile world k chunk).2 = .ok inspected) ∧
    (executable chunk = [] ∨ (∃ claims', claims world k chunk = .ok claims') ∧
      world.settleMany k = .ok ())

/-- In no chunk that is reached the call that settles the chunk fails while a handler is late. -/
def LateKept (world : World) : ℕ → List (List PendingDeliveryItem) → Prop
  | _, [] => True
  | k, chunk :: rest =>
    (world.settleMany k ≠ .ok () → ∀ claimed, ClaimedBy world k chunk claimed →
      ¬claimed.Late world) ∧
    (Finishes world k chunk → LateKept world (k + 1) rest)

/-! ## One chunk -/

section Chunk

variable {world : World} {k : ℕ} {chunk : List PendingDeliveryItem} {claimed : Claimed}

theorem settled_append (calls calls' : List StoreCall) :
    settled (calls ++ calls') = settled calls ++ settled calls' := flatMap_append

theorem settled_reconcile : settled (reconcile world k chunk).1 = [] := by
  unfold reconcile
  split_ifs
  · rfl
  · split <;> rfl

theorem told_of_runClaimedItem {s : ScheduledDeliverySettlement}
    (h : (runClaimedItem world claimed).settlement = some s ∨
      (runClaimedItem world claimed).lateSettlement = some (some s)) :
    s.toScheduledDeliveryKey = claimed.pending.key ∧ s.attempt = claimed.attempt := by
  unfold runClaimedItem at h
  dsimp only at h
  split at h
  all_goals rcases h with h | h <;> cases h <;> exact ⟨rfl, rfl⟩

theorem mem_settled_settlements {runs : List Claimed} {s : ScheduledDeliverySettlement} :
    s ∈ settled (settlements world k (runs.map (runClaimedItem world))) ↔
      ∃ c ∈ runs, (runClaimedItem world c).settlement = some s ∨ world.settleMany k = .ok () ∧
          (runClaimedItem world c).lateSettlement = some (some s) := by
  have hbatch : s ∈ (runs.map (runClaimedItem world)).filterMap (·.settlement) ↔
      ∃ c ∈ runs, (runClaimedItem world c).settlement = some s := by
    rw [filterMap_map, mem_filterMap]
    rfl
  unfold settlements
  cases hsettle : world.settleMany k with
  | error error =>
    rw [settled, flatMap_cons, flatMap_nil, append_nil, hbatch]
    simp
  | ok u =>
    have hlate : s ∈ settled (((runs.map (runClaimedItem world)).filterMap
        (·.lateSettlement)).reduceOption.map fun s => .settleMany [s]) ↔
        ∃ c ∈ runs, (runClaimedItem world c).lateSettlement = some (some s) := by
      simp [settled, mem_flatMap, reduceOption_mem_iff]
    rw [settled, flatMap_cons, mem_append]
    refine (or_congr hbatch hlate).trans ?_
    rw [← exists_or]
    refine exists_congr fun c => ?_
    rw [← and_or_left]
    simp

theorem runChunk_runs : claimed ∈ (runChunk world k chunk).runs ↔
    ClaimedBy world k chunk claimed := by
  unfold runChunk ClaimedBy
  rcases hreconcile : reconcile world k chunk with ⟨calls, error | inspected⟩
  · simp
  · dsimp only
    split_ifs with hnone
    · have hnil : ∀ claims', claims world k chunk = .ok claims' → claims' = [] := by
        intro claims' h
        unfold claims at h
        rw [hnone] at h
        cases hmany : world.claimMany k with
        | error error => rw [hmany] at h; cases h
        | ok answers =>
          rw [hmany] at h
          change (if _ then _ else _) = _ at h
          split_ifs at h
          cases h
          rfl
      refine iff_of_false (not_mem_nil) ?_
      rintro ⟨-, claims', hclaims, hmem⟩
      rw [hnil claims' hclaims] at hmem
      cases hmem
    · cases claims world k chunk with
      | error error => simp
      | ok claims' => simp

theorem mem_settled_runChunk {s : ScheduledDeliverySettlement} :
    s ∈ settled (runChunk world k chunk).calls ↔
      ∃ c, ClaimedBy world k chunk c ∧ ((runClaimedItem world c).settlement = some s ∨
        world.settleMany k = .ok () ∧ (runClaimedItem world c).lateSettlement = some (some s)) := by
  have hcalls : settled (reconcile world k chunk).1 = [] := settled_reconcile
  simp only [← runChunk_runs]
  unfold runChunk
  rcases hreconcile : reconcile world k chunk with ⟨calls, error | inspected⟩
  · rw [hreconcile] at hcalls
    simp [hcalls]
  · rw [hreconcile] at hcalls
    dsimp only at hcalls ⊢
    have hclaim : settled (calls ++ [.claimMany (claimRequests world k chunk)]) = [] := by
      rw [settled_append, hcalls]
      rfl
    split_ifs with hnone
    · simp [hcalls]
    · cases claims world k chunk with
      | error error => simp [hclaim]
      | ok claims' =>
        dsimp only
        rw [settled_append, hclaim, nil_append]
        exact mem_settled_settlements

theorem mem_of_claimedBy (h : ClaimedBy world k chunk claimed) : claimed.pending ∈ chunk := by
  obtain ⟨-, claims', hclaims, hmem⟩ := h
  unfold claims at hclaims
  cases hmany : world.claimMany k with
  | error error => rw [hmany] at hclaims; cases hclaims
  | ok answers =>
    rw [hmany] at hclaims
    change (if _ then _ else _) = _ at hclaims
    split_ifs at hclaims
    cases hclaims
    obtain ⟨p, hp, rfl⟩ := mem_map.1 hmem
    exact (mem_filter.1 (of_mem_zip (mem_filter.1 hp).1).1).1

theorem key_of_mem_settled {s : ScheduledDeliverySettlement}
    (h : s ∈ settled (runChunk world k chunk).calls) :
    s.toScheduledDeliveryKey ∈ chunk.map (·.key) := by
  obtain ⟨c, hc, hs⟩ := mem_settled_runChunk.1 h
  rw [(told_of_runClaimedItem (hs.imp_right And.right)).1]
  exact mem_map_of_mem (mem_of_claimedBy hc)

/-- A handler is settled in the chunk, unless it is late and the call for the chunk fails. -/
theorem settledIn_runChunk (hkeys : (chunk.map (·.key)).Nodup)
    (h : ClaimedBy world k chunk claimed) : SettledIn world (runChunk world k chunk).calls claimed ↔
      (world.settleMany k ≠ .ok () → ¬claimed.Late world) := by
  have hmem {s : ScheduledDeliverySettlement}
      (hs : (runClaimedItem world claimed).settlement = some s ∨
        world.settleMany k = .ok () ∧
          (runClaimedItem world claimed).lateSettlement = some (some s)) :
      s ∈ settled (runChunk world k chunk).calls := mem_settled_runChunk.2 ⟨claimed, h, hs⟩
  -- what is settled of a late handler is settled by a call of its own
  have hlate (hsettle : world.settleMany k ≠ .ok ())
      (hnone : (runClaimedItem world claimed).settlement = none)
      {truth : SettledStatus × Option String} :
      ¬∃ s ∈ settled (runChunk world k chunk).calls, claimed.Told truth s := by
    rintro ⟨s, hs, hkey, hattempt, -⟩
    obtain ⟨c, hc, hs | ⟨hok, -⟩⟩ := mem_settled_runChunk.1 hs
    · obtain ⟨hkey', hattempt'⟩ := told_of_runClaimedItem (.inl hs)
      have hpending : c.pending = claimed.pending :=
        inj_on_of_nodup_map hkeys (mem_of_claimedBy hc) (mem_of_claimedBy h)
          (hkey'.symm.trans hkey)
      have hsame : c = claimed := by
        cases c
        cases claimed
        simp_all
      rw [hsame, hnone] at hs
      cases hs
    · exact hsettle hok
  unfold SettledIn Claimed.truth Claimed.Late
  cases hend : claimed.handlerEnd world with
  | succeeded =>
    refine iff_of_true (fun truth htruth => ?_) fun _ h => h
    obtain rfl := Option.some.inj htruth
    exact ⟨_, hmem (.inl (by rw [runClaimedItem, hend])), rfl, rfl, rfl⟩
  | failed error =>
    refine iff_of_true (fun truth htruth => ?_) fun _ h => h
    obtain rfl := Option.some.inj htruth
    exact ⟨_, hmem (.inl (by rw [runClaimedItem, hend])), rfl, rfl, rfl⟩
  | never => exact iff_of_true (fun truth htruth => by cases htruth) fun _ h => h
  | lateSucceeded =>
    constructor
    · intro hsettled hsettle
      exact absurd (hsettled _ rfl) (hlate hsettle (by rw [runClaimedItem, hend]))
    · intro hkept truth htruth
      obtain rfl := Option.some.inj htruth
      have hok : world.settleMany k = .ok () := by
        by_contra hnot
        exact hkept hnot trivial
      exact ⟨_, hmem (.inr ⟨hok, by rw [runClaimedItem, hend]⟩), rfl, rfl, rfl⟩
  | lateFailed error =>
    constructor
    · intro hsettled hsettle
      exact absurd (hsettled _ rfl) (hlate hsettle (by rw [runClaimedItem, hend]))
    · intro hkept truth htruth
      obtain rfl := Option.some.inj htruth
      have hok : world.settleMany k = .ok () := by
        by_contra hnot
        exact hkept hnot trivial
      exact ⟨_, hmem (.inr ⟨hok, by rw [runClaimedItem, hend]⟩), rfl, rfl, rfl⟩

theorem runChunk_outcomes_ok :
    (∃ outcomes, (runChunk world k chunk).outcomes = .ok outcomes) ↔ Finishes world k chunk := by
  unfold runChunk Finishes
  rcases hreconcile : reconcile world k chunk with ⟨calls, error | inspected⟩
  · simp
  · dsimp only
    split_ifs with hnone
    · simp [hnone]
    · cases claims world k chunk with
      | error error => simp [hnone]
      | ok claims' =>
        cases hsettle : world.settleMany k with
        | error error => simp [hnone, Except.map]
        | ok u => simp [Except.map]

end Chunk

/-! ## All chunks -/

section Chunks

variable {world : World} {claimed : Claimed} {calls more : List StoreCall}

theorem settledIn_append_left
    (h : ∀ s ∈ settled more, s.toScheduledDeliveryKey ≠ claimed.pending.key) :
    SettledIn world (calls ++ more) claimed ↔ SettledIn world calls claimed := by
  refine forall₂_congr fun truth _ => exists_congr fun s => ?_
  rw [settled_append, mem_append]
  refine ⟨fun ⟨hs, htold⟩ => ⟨hs.resolve_right fun hs => h s hs htold.1, htold⟩, ?_⟩
  exact fun ⟨hs, htold⟩ => ⟨.inl hs, htold⟩

theorem settledIn_append_right
    (h : ∀ s ∈ settled calls, s.toScheduledDeliveryKey ≠ claimed.pending.key) :
    SettledIn world (calls ++ more) claimed ↔ SettledIn world more claimed := by
  refine forall₂_congr fun truth _ => exists_congr fun s => ?_
  rw [settled_append, mem_append]
  refine ⟨fun ⟨hs, htold⟩ => ⟨hs.resolve_left fun hs => h s hs htold.1, htold⟩, ?_⟩
  exact fun ⟨hs, htold⟩ => ⟨.inr hs, htold⟩

theorem mem_runChunks {k : ℕ} {cs : List (List PendingDeliveryItem)} :
    (∀ claimed ∈ (runChunks world k cs).runs, claimed.pending ∈ cs.flatten) ∧
      ∀ s ∈ settled (runChunks world k cs).calls,
        s.toScheduledDeliveryKey ∈ cs.flatten.map (·.key) := by
  induction cs generalizing k with
  | nil => exact ⟨forall_mem_nil _, forall_mem_nil _⟩
  | cons chunk rest ih =>
    have hruns : ∀ claimed ∈ (runChunk world k chunk).runs,
        claimed.pending ∈ chunk ++ rest.flatten := fun claimed h =>
      mem_append_left _ (mem_of_claimedBy (runChunk_runs.1 h))
    have hsettled : ∀ s ∈ settled (runChunk world k chunk).calls,
        s.toScheduledDeliveryKey ∈ (chunk ++ rest.flatten).map (·.key) := by
      intro s hs
      rw [map_append]
      exact mem_append_left _ (key_of_mem_settled hs)
    rw [flatten_cons]
    unfold runChunks
    dsimp only
    split
    · exact ⟨hruns, hsettled⟩
    · refine ⟨fun claimed h => ?_, fun s hs => ?_⟩
      · rcases mem_append.1 h with h | h
        · exact hruns claimed h
        · exact mem_append_right _ (ih.1 claimed h)
      · dsimp only at hs
        rw [settled_append] at hs
        rcases mem_append.1 hs with hs | hs
        · exact hsettled s hs
        · rw [map_append]
          exact mem_append_right _ (ih.2 s hs)

theorem settles_runChunks {k : ℕ} {cs : List (List PendingDeliveryItem)}
    (hkeys : (cs.flatten.map (·.key)).Nodup) : (∀ claimed ∈ (runChunks world k cs).runs,
      SettledIn world (runChunks world k cs).calls claimed) ↔ LateKept world k cs := by
  induction cs generalizing k with
  | nil => exact iff_of_true (forall_mem_nil _) trivial
  | cons chunk rest ih =>
    rw [flatten_cons, map_append] at hkeys
    obtain ⟨hchunk, hrest, hdisjoint⟩ := nodup_append.1 hkeys
    have hown : (∀ claimed ∈ (runChunk world k chunk).runs,
        SettledIn world (runChunk world k chunk).calls claimed) ↔
        (world.settleMany k ≠ .ok () → ∀ claimed, ClaimedBy world k chunk claimed →
          ¬claimed.Late world) := by
      refine ⟨fun h hsettle claimed hclaimed => ?_, fun h claimed hclaimed => ?_⟩
      · exact (settledIn_runChunk hchunk hclaimed).1 (h claimed (runChunk_runs.2 hclaimed)) hsettle
      · have hclaimed := runChunk_runs.1 hclaimed
        exact (settledIn_runChunk hchunk hclaimed).2 fun hsettle => h hsettle claimed hclaimed
    unfold runChunks LateKept
    dsimp only
    split
    · next error herror =>
      have hnot : ¬Finishes world k chunk := by
        rw [← runChunk_outcomes_ok, herror]
        rintro ⟨outcomes, h⟩
        cases h
      exact hown.trans (and_iff_left fun h => absurd h hnot).symm
    · next outcomes houtcomes =>
      have hfinishes : Finishes world k chunk := runChunk_outcomes_ok.1 ⟨outcomes, houtcomes⟩
      dsimp only
      rw [forall_mem_append]
      refine and_congr (Iff.trans ?_ hown) (Iff.trans ?_ (forall_prop_of_true hfinishes).symm)
      · refine forall₂_congr fun claimed h => settledIn_append_left fun s hs hkey => ?_
        have hmem := mem_of_claimedBy (runChunk_runs.1 h)
        refine hdisjoint _ (mem_map_of_mem hmem) _ (mem_runChunks.2 s hs) hkey.symm
      · refine Iff.trans ?_ (ih hrest)
        refine forall₂_congr fun claimed h => settledIn_append_right fun s hs hkey => ?_
        have hmem := mem_runChunks.1 claimed h
        exact hdisjoint _ (key_of_mem_settled hs) _ (mem_map_of_mem hmem) hkey

end Chunks

/-! ## The report -/

section Report

variable {world : World}

def PendingDeliveryItem.place (p : PendingDeliveryItem) : ℕ × ScheduledDeliveryKey :=
  (p.ordinal, p.key)

def placeOf (o : Ordinal) : ℕ × ScheduledDeliveryKey := (o.1, o.2.toScheduledDeliveryKey)

theorem place_inspectedOutcomes {inspected : List (Option ScheduledDeliveryState)}
    {items : List PendingDeliveryItem} (hlength : inspected.length = items.length)
    {outcomes : List Ordinal} (h : inspectedOutcomes (items.zip inspected) = .ok outcomes) :
    outcomes.map placeOf = items.map PendingDeliveryItem.place := by
  induction items generalizing inspected outcomes with
  | nil =>
    cases h
    rfl
  | cons item items ih =>
    cases inspected with
    | nil => cases hlength
    | cons state inspected =>
      cases state with
      | none => cases h
      | some state =>
        rw [zip_cons_cons, inspectedOutcomes] at h
        cases hrest : inspectedOutcomes (items.zip inspected) with
        | error error => rw [hrest] at h; cases h
        | ok rest =>
          rw [hrest] at h
          cases h
          rw [map_cons, map_cons, ih (Nat.succ.inj hlength) hrest]
          rfl

theorem place_reconcile {k : ℕ} {chunk : List PendingDeliveryItem} {outcomes : List Ordinal}
    (h : (reconcile world k chunk).2 = .ok outcomes) :
    outcomes.map placeOf = (reconciliation chunk).map PendingDeliveryItem.place := by
  unfold reconcile at h
  split_ifs at h with hnone
  · cases h
    rw [hnone]
    rfl
  · split at h
    · cases h
    · next inspectMany _ =>
      cases hinspected : inspectMany k with
      | error error => rw [hinspected] at h; cases h
      | ok inspected =>
        rw [hinspected] at h
        change (if _ then _ else _) = _ at h
        split_ifs at h with hlength
        exact place_inspectedOutcomes (not_not.1 hlength) h

theorem place_runClaimedItem (c : Claimed) :
    placeOf (c.pending.ordinal, (runClaimedItem world c).outcome) = c.pending.place := by
  unfold runClaimedItem
  dsimp only
  split <;> rfl

theorem place_claims {k : ℕ} {chunk : List PendingDeliveryItem}
    {claims' : List (PendingDeliveryItem × ScheduledDeliveryClaim)}
    (h : claims world k chunk = .ok claims') :
    ((unclaimedOutcomes claims' ++ (claimedOf claims').map fun c =>
        (c.pending.ordinal, (runClaimedItem world c).outcome)).map placeOf).Perm
      ((executable chunk).map PendingDeliveryItem.place) := by
  have hitems : claims'.map Prod.fst = executable chunk := by
    unfold claims at h
    cases hmany : world.claimMany k with
    | error error => rw [hmany] at h; cases h
    | ok answers =>
      rw [hmany] at h
      change (if _ then _ else _) = _ at h
      split_ifs at h with hlength
      cases h
      exact map_fst_zip (not_not.1 hlength).ge
  have hunclaimed : (unclaimedOutcomes claims').map placeOf =
      (claims'.filter fun p => !p.2.claimed).map fun p => p.1.place := by
    unfold unclaimedOutcomes
    rw [map_map]
    rfl
  have hclaimed : ((claimedOf claims').map fun c =>
      (c.pending.ordinal, (runClaimedItem world c).outcome)).map placeOf =
        (claims'.filter fun p => p.2.claimed).map fun p => p.1.place := by
    unfold claimedOf
    rw [map_map, map_map]
    exact map_congr_left fun p _ => place_runClaimedItem _
  rw [map_append, hunclaimed, hclaimed, ← map_append, ← hitems, map_map]
  refine (List.Perm.trans ?_ (filter_append_perm (fun p => p.2.claimed) claims')).map _
  exact perm_append_comm

theorem place_runChunk {k : ℕ} {chunk : List PendingDeliveryItem} {outcomes : List Ordinal}
    (h : (runChunk world k chunk).outcomes = .ok outcomes) :
    (outcomes.map placeOf).Perm (chunk.map PendingDeliveryItem.place) := by
  have hparts : ((reconciliation chunk).map PendingDeliveryItem.place ++
      (executable chunk).map PendingDeliveryItem.place).Perm
        (chunk.map PendingDeliveryItem.place) := by
    rw [← map_append]
    refine (List.Perm.trans ?_ (filter_append_perm
      (fun p => p.item.mode = .reconcile) chunk)).map _
    unfold reconciliation executable
    simp
  refine List.Perm.trans ?_ hparts
  unfold runChunk at h
  rcases hreconcile : reconcile world k chunk with ⟨calls, error | inspected⟩
  · rw [hreconcile] at h
    cases h
  · have hplace := place_reconcile (congrArg Prod.snd hreconcile)
    rw [hreconcile] at h
    dsimp only at h
    split_ifs at h with hnone
    · cases h
      rw [hplace, hnone, map_nil, append_nil]
    · cases hclaims : claims world k chunk with
      | error error => rw [hclaims] at h; cases h
      | ok claims' =>
        rw [hclaims] at h
        cases hsettle : world.settleMany k with
        | error error => rw [hsettle] at h; cases h
        | ok u =>
          rw [hsettle] at h
          cases h
          rw [append_assoc, map_append, hplace]
          exact (place_claims hclaims).append_left _

theorem place_runChunks {k : ℕ} {cs : List (List PendingDeliveryItem)} {outcomes : List Ordinal}
    (h : (runChunks world k cs).outcomes = .ok outcomes) :
    (outcomes.map placeOf).Perm (cs.flatten.map PendingDeliveryItem.place) := by
  induction cs generalizing k outcomes with
  | nil =>
    cases h
    exact List.Perm.refl _
  | cons chunk rest ih =>
    unfold runChunks at h
    dsimp only at h
    split at h
    · next error herror => rw [herror] at h; cases h
    · next first hfirst =>
      dsimp only at h
      cases hlater : (runChunks world (k + 1) rest).outcomes with
      | error error => rw [hlater] at h; cases h
      | ok later =>
        rw [hlater] at h
        cases h
        rw [map_append, flatten_cons, map_append]
        exact (place_runChunk hfirst).append (ih hlater)

end Report

/-! ## The items -/

/-- The items are numbered in order, and no two have one key. -/
structure Collected (pending : List PendingDeliveryItem) : Prop where
  keys : (pending.map (·.key)).Nodup
  ordinals : pending.map (·.ordinal) = List.range pending.length

section Items

variable {world : World} {pending pending' : List PendingDeliveryItem}

theorem collected_nil : Collected [] := ⟨nodup_nil, rfl⟩

theorem Collected.append (h : Collected pending) {key : ScheduledDeliveryKey}
    (hkey : ¬∃ p ∈ pending, p.key = key) (item : ScheduledDeliveryItem) :
    Collected (pending ++ [⟨pending.length, key, item⟩]) where
  keys := by
    rw [map_append]
    refine nodup_append.2 ⟨h.keys, pairwise_singleton _ _, ?_⟩
    intro key' hmem key'' hsingle
    obtain ⟨p, hp, rfl⟩ := mem_map.1 hmem
    rw [mem_singleton.1 hsingle]
    exact fun heq => hkey ⟨p, hp, heq⟩
  ordinals := by
    rw [map_append, h.ordinals, length_append, length_singleton, range_succ]
    rfl

theorem collected_collectItems {cron : String} {scheduledTime : ℤ}
    {items : List ScheduledDeliveryItem} (h : Collected pending)
    (hcollect : collectItems cron scheduledTime pending items = .ok pending') : Collected pending' ∧
      pending'.map (·.key) = pending.map (·.key) ++ items.map fun item =>
        (⟨cron, scheduledTime, item.id⟩ : ScheduledDeliveryKey) := by
  induction items generalizing pending with
  | nil =>
    cases hcollect
    exact ⟨h, (append_nil _).symm⟩
  | cons item items ih =>
    unfold collectItems at hcollect
    dsimp only at hcollect
    split_ifs at hcollect with hkey
    obtain ⟨hcollected, hkeys⟩ := ih (h.append hkey item) hcollect
    refine ⟨hcollected, ?_⟩
    rw [hkeys, map_append, append_assoc]
    rfl

variable {envelopes : List ScheduledDeliveryEnvelope}

theorem collected_collect (h : Collected pending)
    (hcollect : collect world pending envelopes = .ok pending') : Collected pending' ∧
      pending'.map (fun p => (some p.key.cron, p.key.scheduledTime, p.key.itemId)) =
        pending.map (fun p => (some p.key.cron, p.key.scheduledTime, p.key.itemId)) ++
          itemsOf world envelopes := by
  induction envelopes generalizing pending with
  | nil =>
    cases hcollect
    exact ⟨h, (append_nil _).symm⟩
  | cons envelope envelopes ih =>
    unfold collect at hcollect
    cases hcron : world.normalizeCronExpression envelope.cron with
    | error error => rw [hcron] at hcollect; cases hcollect
    | ok cron =>
      rw [hcron] at hcollect
      change (if _ then _ else _) = _ at hcollect
      split_ifs at hcollect
      cases hitems : collectItems cron envelope.scheduledTime pending envelope.items with
      | error error => rw [hitems] at hcollect; cases hcollect
      | ok pending₁ =>
        rw [hitems] at hcollect
        obtain ⟨hcollected, hkeys⟩ := collected_collectItems h hitems
        obtain ⟨hcollected', hitemsOf⟩ := ih hcollected hcollect
        refine ⟨hcollected', ?_⟩
        have htriples := congrArg (List.map fun key : ScheduledDeliveryKey =>
          (some key.cron, key.scheduledTime, key.itemId)) hkeys
        rw [map_append, map_map, map_map, map_map] at htriples
        have hcons : itemsOf world (envelope :: envelopes) =
            (envelope.items.map fun item =>
              ((world.normalizeCronExpression envelope.cron).toOption, envelope.scheduledTime,
                item.id)) ++ itemsOf world envelopes := flatMap_cons
        rw [hitemsOf, hcons, hcron, ← append_assoc]
        exact congrArg (· ++ itemsOf world envelopes) htriples

theorem collected_of_accept (h : accept world envelopes = .ok pending) : Collected pending ∧
      pending.map (fun p => (some p.key.cron, p.key.scheduledTime, p.key.itemId)) =
        itemsOf world envelopes := by
  unfold accept at h
  split_ifs at h
  exact collected_collect collected_nil h

theorem outcomes_reportOf (h : Collected pending) {outcomes : List Ordinal}
    (hperm : (outcomes.map placeOf).Perm (pending.map PendingDeliveryItem.place)) :
    (reportOf outcomes).outcomes.map (·.toScheduledDeliveryKey) = pending.map (·.key) := by
  let le (o o' : Ordinal) : Bool := o.1 ≤ o'.1
  have hsorted : (outcomes.mergeSort le).Pairwise fun o o' => o.1 ≤ o'.1 := by
    refine (pairwise_mergeSort ?_ ?_ outcomes).imp of_decide_eq_true
    · intro a b c hab hbc
      exact decide_eq_true ((of_decide_eq_true hab).trans (of_decide_eq_true hbc))
    · intro a b
      rw [Bool.or_eq_true, decide_eq_true_eq, decide_eq_true_eq]
      exact le_total _ _
  have hincreasing : (pending.map PendingDeliveryItem.place).Pairwise fun a b => a.1 < b.1 := by
    have hrange := pairwise_lt_range (n := pending.length)
    rw [← h.ordinals, pairwise_map] at hrange
    exact pairwise_map.2 hrange
  have hplaces : (outcomes.mergeSort le).map placeOf =
      pending.map PendingDeliveryItem.place := by
    refine List.Perm.eq_of_pairwise ?_ (pairwise_map.2 hsorted)
      (hincreasing.imp le_of_lt) ?_
    · intro a b ha hb hab hba
      have hmem := (((mergeSort_perm outcomes le).map placeOf).trans hperm).subset ha
      have hnodup : ((pending.map PendingDeliveryItem.place).map Prod.fst).Nodup :=
        pairwise_map.2 (hincreasing.imp ne_of_lt)
      exact inj_on_of_nodup_map hnodup hmem hb (le_antisymm hab hba)
    · exact ((mergeSort_perm outcomes le).map placeOf).trans hperm
  have hkeys := congrArg (List.map Prod.snd) hplaces
  rw [map_map, map_map] at hkeys
  unfold reportOf
  rw [map_map]
  exact hkeys

end Items

/-! ## Every execution -/

theorem reportsInOrder (world : World) (envelopes : List ScheduledDeliveryEnvelope) :
    ReportsInOrder world envelopes := by
  intro report hreport
  unfold executeScheduledDeliveries at hreport
  split at hreport
  · cases hreport
  · next pending haccept =>
    obtain ⟨hcollected, hitems⟩ := collected_of_accept haccept
    dsimp only at hreport
    cases houtcomes : (executePending world pending).outcomes with
    | error error => rw [houtcomes] at hreport; cases hreport
    | ok outcomes =>
      rw [houtcomes] at hreport
      cases hreport
      have hperm := place_runChunks houtcomes
      rw [flatten_chunks] at hperm
      have hkeys := congrArg (List.map fun key : ScheduledDeliveryKey =>
        (some key.cron, key.scheduledTime, key.itemId)) (outcomes_reportOf hcollected hperm)
      rw [map_map, map_map] at hkeys
      exact hkeys.trans hitems

/-- Every handler that is over is settled, and the report is in order, exactly when no call for a
chunk fails while a handler of the chunk is late. -/
theorem settles_iff (world : World) (envelopes : List ScheduledDeliveryEnvelope) :
    Settles world envelopes ∧ ReportsInOrder world envelopes ↔
      ∀ pending, accept world envelopes = .ok pending → LateKept world 0 (chunks pending) := by
  rw [and_iff_left (reportsInOrder world envelopes)]
  unfold Settles executeScheduledDeliveries
  cases haccept : accept world envelopes with
  | error error =>
    refine iff_of_true (forall_mem_nil _) fun pending h => ?_
    cases h
  | ok pending =>
    have hkeys : ((chunks pending).flatten.map (·.key)).Nodup := by
      rw [flatten_chunks]
      exact (collected_of_accept haccept).1.keys
    refine (settles_runChunks hkeys).trans ⟨fun h pending' he => ?_, fun h => h pending rfl⟩
    cases he
    exact h

/-- One item, whose handler ends after its timeout, and a store that fails to settle the chunk. -/
def lateWorld : World where
  timeoutMs := 30000
  normalizeCronExpression := .ok
  describeError := id
  handler := fun _ _ => .lateSucceeded
  claimNow := fun _ => 0
  inspectNow := fun _ => 0
  settledAt := fun _ => 45000
  inspectMany := none
  claimMany := fun _ => .ok [{
    request :=
      { cron := "0 0 * * *", scheduledTime := 0, itemId := "job", lane := .appFunction, now := 0
        leaseExpiresAt := 60000, retry := false }
    state :=
      { cron := "0 0 * * *", scheduledTime := 0, itemId := "job", lane := .appFunction
        status := .running, attempt := 1, startedAt := 0, leaseExpiresAt := some 60000
        settledAt := none, lastError := none }
    claimed := true
    reason := .new }]
  settleMany := fun _ => .error "store"

def lateEnvelopes : List ScheduledDeliveryEnvelope :=
  [{ cron := "0 0 * * *", scheduledTime := 0, items := [{ id := "job", lane := .appFunction }] }]

theorem lateWorld_not_settles :
    ¬(Settles lateWorld lateEnvelopes ∧ ReportsInOrder lateWorld lateEnvelopes) := by
  rintro ⟨hsettles, -⟩
  let pending : PendingDeliveryItem :=
    ⟨0, ⟨"0 0 * * *", 0, "job"⟩, { id := "job", lane := .appFunction }⟩
  have haccept : accept lateWorld lateEnvelopes = .ok [pending] := by rfl
  have hrun : executePending lateWorld [pending] = runChunks lateWorld 0 [[pending]] := by
    rw [executePending, chunks_of_length_le (cons_ne_nil _ _) (by decide)]
  unfold Settles executeScheduledDeliveries at hsettles
  rw [haccept] at hsettles
  dsimp only at hsettles
  rw [hrun] at hsettles
  obtain ⟨s, hs, -⟩ := hsettles ⟨pending, 1⟩ (mem_singleton_self _) (.succeeded, none) rfl
  have hsettled : settled (runChunks lateWorld 0 [[pending]]).calls = [] := by rfl
  rw [hsettled] at hs
  exact not_mem_nil hs

end EdgeBase.Schedule.Execution
