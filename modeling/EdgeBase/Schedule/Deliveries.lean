import EdgeBase.Lib.Assoc
import EdgeBase.Lib.Programs
import Mathlib.Data.List.Sort

/-!
# Scheduled deliveries

The rows of `_scheduled_delivery_items` say how far the delivery of a scheduled item has come.
Workers claim the items of a wake-up and settle them afterwards; every SQL statement is atomic, and
the statements of several workers come in any order.

* `ScheduledDeliveryState` : a row; its key is the primary key of the table.
* `claimMany`, `settleMany`, `inspectMany`, `prune` : the calls of a worker, as programs.
* `Deliveries`, `deliveries` : any number of calls on one table.
-/

namespace EdgeBase.Schedule

inductive ManagedScheduleLane where
  | appFunction
  | pluginFunction
  | extraCron
  | system
  deriving DecidableEq

inductive ScheduledDeliveryStateStatus where
  | running
  | succeeded
  | failed
  | timedOut
  | uncertain
  deriving DecidableEq

structure ScheduledDeliveryKey where
  cron : String
  scheduledTime : ℤ
  itemId : String
  deriving DecidableEq

structure ScheduledDeliveryState extends ScheduledDeliveryKey where
  lane : ManagedScheduleLane
  status : ScheduledDeliveryStateStatus
  attempt : ℤ
  startedAt : ℤ
  leaseExpiresAt : Option ℤ
  settledAt : Option ℤ
  lastError : Option String
  deriving DecidableEq

structure ScheduledDeliveryClaimRequest extends ScheduledDeliveryKey where
  lane : ManagedScheduleLane
  now : ℤ
  leaseExpiresAt : ℤ
  retry : Bool
  deriving DecidableEq

/-- The outcomes that a worker may report. -/
inductive SettledStatus where
  | succeeded
  | failed
  | timedOut
  deriving DecidableEq

def SettledStatus.toStatus : SettledStatus → ScheduledDeliveryStateStatus
  | .succeeded => .succeeded
  | .failed => .failed
  | .timedOut => .timedOut

structure ScheduledDeliverySettlement extends ScheduledDeliveryKey where
  attempt : ℤ
  status : SettledStatus
  settledAt : ℤ
  error : Option String
  deriving DecidableEq

structure ScheduledDeliveryInspectionRequest extends ScheduledDeliveryKey where
  now : ℤ
  deriving DecidableEq

inductive ClaimReason where
  | new
  | retry
  | succeeded
  | inFlight
  | failed
  | timedOut
  | uncertain
  deriving DecidableEq

structure ScheduledDeliveryClaim where
  request : ScheduledDeliveryClaimRequest
  state : ScheduledDeliveryState
  claimed : Bool
  reason : ClaimReason
  deriving DecidableEq

inductive ScheduledDeliveryError where
  | duplicate (key : ScheduledDeliveryKey)
  | disappeared (key : ScheduledDeliveryKey)
  /-- Scheduled delivery claim was not resolved. -/
  | unresolved (key : ScheduledDeliveryKey)
  /-- Scheduled delivery settlement lost its running claim. -/
  | lost (keys : List ScheduledDeliveryKey)
  deriving DecidableEq

/-- Only a settled failure may be claimed again; the explicit wish of a request changes nothing. -/
def shouldRetryScheduledDelivery (status : ScheduledDeliveryStateStatus)
    (_explicitRetry : Bool) : Bool :=
  status = .failed

def claimFromExisting (request : ScheduledDeliveryClaimRequest) (state : ScheduledDeliveryState) :
    ScheduledDeliveryClaim where
  request := request
  state := state
  claimed := false
  reason :=
    match state.status with
    | .running => .inFlight
    | .succeeded => .succeeded
    | .failed => .failed
    | .timedOut => .timedOut
    | .uncertain => .uncertain

/-! ### Statements -/

abbrev Rows := List ScheduledDeliveryState

def Rows.find (rows : Rows) (key : ScheduledDeliveryKey) : Option ScheduledDeliveryState :=
  List.find? (fun row => row.toScheduledDeliveryKey = key) rows

/-- `lease_expired_without_settlement` -/
def ScheduledDeliveryState.expired (now : ℤ) (row : ScheduledDeliveryState) :
    ScheduledDeliveryState :=
  { row with
    status := .uncertain
    settledAt := some now
    leaseExpiresAt := none
    lastError := some "lease_expired_without_settlement" }

/-- `lease_expires_at <= ?`, which no `NULL` is. -/
def ScheduledDeliveryState.Due (now : ℤ) (row : ScheduledDeliveryState) : Prop :=
  row.status = .running ∧ ∃ lease ∈ row.leaseExpiresAt, lease ≤ now

instance (now : ℤ) (row : ScheduledDeliveryState) : Decidable (row.Due now) :=
  inferInstanceAs (Decidable (_ ∧ _))

def SCHEDULED_DELIVERY_PRUNE_LIMIT : ℕ := 5000

def SCHEDULED_DELIVERY_DB_CHUNK_SIZE : ℕ := 64

inductive Statement where
  /-- `INSERT OR IGNORE … RETURNING` of a first attempt. -/
  | insert (request : ScheduledDeliveryClaimRequest)
  /-- `SELECT … WHERE` the key. -/
  | select (key : ScheduledDeliveryKey)
  /-- `UPDATE` of a running row whose lease is over. -/
  | expire (request : ScheduledDeliveryClaimRequest) (attempt : ℤ)
  /-- `UPDATE` to the next attempt. -/
  | retry (request : ScheduledDeliveryClaimRequest) (attempt : ℤ)
  /-- `UPDATE` to the reported outcome. -/
  | settle (settlement : ScheduledDeliverySettlement)
  /-- `UPDATE` of the running rows whose lease is over, the first of `prune`. -/
  | expireDue (now : ℤ)
  deriving DecidableEq

def Statement.key : Statement → Option ScheduledDeliveryKey
  | .insert request => some request.toScheduledDeliveryKey
  | .select key => some key
  | .expire request _ => some request.toScheduledDeliveryKey
  | .retry request _ => some request.toScheduledDeliveryKey
  | .settle settlement => some settlement.toScheduledDeliveryKey
  | .expireDue _ => none

def ScheduledDeliveryClaimRequest.row (request : ScheduledDeliveryClaimRequest) :
    ScheduledDeliveryState where
  toScheduledDeliveryKey := request.toScheduledDeliveryKey
  lane := request.lane
  status := .running
  attempt := 1
  startedAt := request.now
  leaseExpiresAt := some request.leaseExpiresAt
  settledAt := none
  lastError := none

def ScheduledDeliveryClaimRequest.retried (request : ScheduledDeliveryClaimRequest)
    (row : ScheduledDeliveryState) : ScheduledDeliveryState :=
  { row with
    status := .running
    attempt := row.attempt + 1
    startedAt := request.now
    leaseExpiresAt := some request.leaseExpiresAt
    settledAt := none
    lastError := none }

def ScheduledDeliverySettlement.settled (settlement : ScheduledDeliverySettlement)
    (row : ScheduledDeliveryState) : ScheduledDeliveryState :=
  { row with
    status := settlement.status.toStatus
    settledAt := some settlement.settledAt
    leaseExpiresAt := none
    lastError := settlement.error }

/-- `UPDATE … WHERE key AND … RETURNING`. -/
def Rows.updateOne (rows : Rows) (key : ScheduledDeliveryKey) (p : ScheduledDeliveryState → Bool)
    (f : ScheduledDeliveryState → ScheduledDeliveryState) : Option ScheduledDeliveryState × Rows :=
  (((rows.find key).filter p).map f,
    List.map (fun row => if row.toScheduledDeliveryKey = key ∧ p row then f row else row) rows)

/-- The rows that `prune` expires: those whose lease is over for longest. -/
def Rows.due (rows : Rows) (now : ℤ) : Rows :=
  ((List.filter (fun row => row.Due now) rows).mergeSort fun row row' =>
    row.leaseExpiresAt.getD 0 ≤ row'.leaseExpiresAt.getD 0).take SCHEDULED_DELIVERY_PRUNE_LIMIT

/-- A statement answers with the row that it returns. -/
def Statement.exec (rows : Rows) : Statement → Option ScheduledDeliveryState × Rows
  | .insert request =>
    match rows.find request.toScheduledDeliveryKey with
    | some _ => (none, rows)
    | none => (some request.row, rows ++ [request.row])
  | .select key => (rows.find key, rows)
  | .expire request attempt =>
    rows.updateOne request.toScheduledDeliveryKey
      (fun row => row.attempt = attempt ∧ row.Due request.now) (·.expired request.now)
  | .retry request attempt =>
    rows.updateOne request.toScheduledDeliveryKey
      (fun row => row.attempt = attempt ∧
        (row.status = .failed ∨ row.status = .timedOut ∨ row.status = .uncertain))
      request.retried
  | .settle settlement =>
    rows.updateOne settlement.toScheduledDeliveryKey
      (fun row => (row.status = .running ∨ row.status = .uncertain) ∧
        row.attempt = settlement.attempt) settlement.settled
  | .expireDue now =>
    (none, List.map (fun row => if row ∈ rows.due now then row.expired now else row) rows)

/-! ### The calls of a worker -/

abbrev DeliveryM := Prog Statement fun _ => Option ScheduledDeliveryState

abbrev DeliveryT := ExceptT ScheduledDeliveryError DeliveryM

/-- A statement of several requests, and what each of them got. -/
def batchOf {α : Type} (statement : α → Statement) (xs : List α) :
    DeliveryM (List (α × Option ScheduledDeliveryState)) := do
  let results ← Prog.batch (xs.map statement)
  pure (xs.zip results)

def resolved {α β : Type} (f : α → ScheduledDeliveryState → β)
    (results : List (α × Option ScheduledDeliveryState)) : List β :=
  results.filterMap fun (x, row) => row.map (f x)

def raced {α : Type} (results : List (α × Option ScheduledDeliveryState)) : List α :=
  results.filterMap fun (x, row) => if row.isNone then some x else none

def loadMany (requests : List ScheduledDeliveryClaimRequest) :
    DeliveryM (List (ScheduledDeliveryKey × ScheduledDeliveryState)) := do
  let results ← batchOf (fun request => .select request.toScheduledDeliveryKey) requests
  pure (Assoc.merge []
    (resolved (fun request row => (request.toScheduledDeliveryKey, row)) results))

/-- What is to be done with items that have a row. -/
structure Sorted where
  expired : List (ScheduledDeliveryClaimRequest × ScheduledDeliveryState) := []
  retries : List (ScheduledDeliveryClaimRequest × ScheduledDeliveryState) := []
  claims : List ScheduledDeliveryClaim := []

def sortExisting (existing : List (ScheduledDeliveryKey × ScheduledDeliveryState)) :
    List ScheduledDeliveryClaimRequest → Except ScheduledDeliveryError Sorted
  | [] => .ok {}
  | request :: unresolved =>
    match existing.lookup request.toScheduledDeliveryKey with
    | none => .error (.disappeared request.toScheduledDeliveryKey)
    | some state => do
      let sorted ← sortExisting existing unresolved
      if state.Due request.now then
        pure { sorted with expired := (request, state) :: sorted.expired }
      else if shouldRetryScheduledDelivery state.status request.retry then
        pure { sorted with retries := (request, state) :: sorted.retries }
      else
        pure { sorted with claims := claimFromExisting request state :: sorted.claims }

/-- What is worked out between two statements. -/
def liftExcept {α : Type} (x : Except ScheduledDeliveryError α) : DeliveryT α := ExceptT.mk (pure x)

/-- The claims of items that another worker was faster with. -/
def reload (raced : List ScheduledDeliveryClaimRequest) :
    DeliveryT (List ScheduledDeliveryClaim) := do
  let current ← (loadMany raced : DeliveryM _)
  liftExcept (raced.mapM fun request =>
    match current.lookup request.toScheduledDeliveryKey with
    | none => .error (.disappeared request.toScheduledDeliveryKey)
    | some state => .ok (claimFromExisting request state))

/-- Items whose lease is over, or that are to be retried. -/
def updateMany (statement : ScheduledDeliveryClaimRequest → ℤ → Statement)
    (claim : ScheduledDeliveryClaimRequest → ScheduledDeliveryState → ScheduledDeliveryClaim)
    (candidates : List (ScheduledDeliveryClaimRequest × ScheduledDeliveryState)) :
    DeliveryT (List ScheduledDeliveryClaim) := do
  let results ← (batchOf (fun candidate => statement candidate.1 candidate.2.attempt) candidates :
    DeliveryM _)
  let claims ← reload ((raced results).map Prod.fst)
  pure (resolved (fun candidate row => claim candidate.1 row) results ++ claims)

def resolve (claims : List ScheduledDeliveryClaim) (chunk : List ScheduledDeliveryClaimRequest) :
    Except ScheduledDeliveryError (List ScheduledDeliveryClaim) :=
  let claimsByKey :=
    Assoc.merge [] (claims.map fun claim => (claim.request.toScheduledDeliveryKey, claim))
  chunk.mapM fun request =>
    match claimsByKey.lookup request.toScheduledDeliveryKey with
    | none => .error (.unresolved request.toScheduledDeliveryKey)
    | some claim => .ok claim

def claimWon (reason : ClaimReason) (request : ScheduledDeliveryClaimRequest)
    (state : ScheduledDeliveryState) : ScheduledDeliveryClaim :=
  { request, state, claimed := true, reason }

def claimChunk (chunk : List ScheduledDeliveryClaimRequest) :
    DeliveryT (List ScheduledDeliveryClaim) := do
  let inserted ← (batchOf .insert chunk : DeliveryM _)
  let existing ← (loadMany (raced inserted) : DeliveryM _)
  let sorted ← liftExcept (sortExisting existing (raced inserted))
  let expired ← updateMany .expire claimFromExisting sorted.expired
  let retries ← updateMany .retry (claimWon .retry) sorted.retries
  liftExcept (resolve (resolved (claimWon .new) inserted ++ sorted.claims ++ expired ++ retries)
    chunk)

/-- The chunks that a call works on, one after the other. -/
def chunks {α : Type} : List α → List (List α)
  | [] => []
  | x :: xs =>
    (x :: xs).take SCHEDULED_DELIVERY_DB_CHUNK_SIZE ::
      chunks ((x :: xs).drop SCHEDULED_DELIVERY_DB_CHUNK_SIZE)
  termination_by xs => xs.length
  decreasing_by
    simp only [SCHEDULED_DELIVERY_DB_CHUNK_SIZE, List.length_drop, List.length_cons]
    omega

def firstDuplicate (seen : List ScheduledDeliveryKey) :
    List ScheduledDeliveryClaimRequest → Option ScheduledDeliveryKey
  | [] => none
  | request :: requests =>
    if request.toScheduledDeliveryKey ∈ seen then some request.toScheduledDeliveryKey
    else firstDuplicate (request.toScheduledDeliveryKey :: seen) requests

def claimChunks :
    List (List ScheduledDeliveryClaimRequest) → DeliveryT (List ScheduledDeliveryClaim)
  | [] => pure []
  | chunk :: rest => do
    let claims ← claimChunk chunk
    let allClaims ← claimChunks rest
    pure (claims ++ allClaims)

def claimMany (requests : List ScheduledDeliveryClaimRequest) :
    DeliveryT (List ScheduledDeliveryClaim) :=
  match firstDuplicate [] requests with
  | some key => throw (.duplicate key)
  | none => claimChunks (chunks requests)

def settleChunks : List (List ScheduledDeliverySettlement) → DeliveryM (List ScheduledDeliveryKey)
  | [] => pure []
  | chunk :: rest => do
    let results ← batchOf .settle chunk
    let stale ← settleChunks rest
    pure ((raced results).map (·.toScheduledDeliveryKey) ++ stale)

def settleMany (settlements : List ScheduledDeliverySettlement) : DeliveryT Unit := do
  let stale ← (settleChunks (chunks settlements) : DeliveryM _)
  if stale = [] then pure () else throw (.lost stale)

def prune (now : ℤ) : DeliveryM Unit := do
  let _ ← Prog.perform (.expireDue now)
  pure ()

def inspectMany (requests : List ScheduledDeliveryInspectionRequest) :
    DeliveryM (List (Option ScheduledDeliveryState)) :=
  match requests with
  | [] => pure []
  | request :: rest => do
    prune ((rest.map (·.now)).foldl max request.now)
    let states ← loadMany ((request :: rest).map fun r =>
      { r with lane := .system, leaseExpiresAt := r.now + 1, retry := false })
    pure ((request :: rest).map fun r => states.lookup r.toScheduledDeliveryKey)

/-! ### Workers -/

inductive Call where
  | claimMany (requests : List ScheduledDeliveryClaimRequest)
  | settleMany (settlements : List ScheduledDeliverySettlement)
  | inspectMany (requests : List ScheduledDeliveryInspectionRequest)
  | prune (now : ℤ)

inductive Returned where
  | claims (result : Except ScheduledDeliveryError (List ScheduledDeliveryClaim))
  | settled (result : Except ScheduledDeliveryError Unit)
  | states (states : List (Option ScheduledDeliveryState))
  | pruned

def Call.body : Call → DeliveryM Returned
  | .claimMany requests => .claims <$> (Schedule.claimMany requests).run
  | .settleMany settlements => .settled <$> (Schedule.settleMany settlements).run
  | .inspectMany requests => .states <$> Schedule.inspectMany requests
  | .prune now => (fun _ => .pruned) <$> Schedule.prune now

abbrev Deliveries := Shared Rows (fun _ : Statement => Option ScheduledDeliveryState) Call Returned

def deliveries : Shared.System Rows (fun _ : Statement => Option ScheduledDeliveryState) Call
    Returned Empty where
  exec statement rows := statement.exec rows
  env := nofun
  body := Call.body

end EdgeBase.Schedule
