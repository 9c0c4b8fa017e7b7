import EdgeBase.Lib.Runs
import Mathlib.Data.List.Range
import Mathlib.Logic.Function.Basic

/-!
# Frames to a socket of a session

A frame for a socket that is bound to a session waits in a queue.  A drain asks the authority
whether the session is still active, and sends what is in the queue then.

* `Socket`, `Job` : a socket with its queue, and the microtasks, in their order.
* `Action`, `step` : the calls, the answers of the authority, and the next microtask.
-/

namespace EdgeBase.RoomOutbound

/-- What sending reads of the metadata of a socket; an identity that is missing is empty. -/
structure RoomWSMeta where
  authenticated : Bool
  /-- `sessionAuthority` is `'tokenless-anonymous'`. -/
  tokenless : Bool
  userId : String
  sessionId : String

/-- What the promise of `isAuthSessionActive` becomes. -/
inductive Answer where
  | active
  | inactive
  /-- It is rejected with an `AuthSessionAuthorityUnavailableError`. -/
  | unavailable
  | failed
  deriving DecidableEq

/-- A call of `ensureLiveSessionAuthority` for the socket. -/
structure Waiter where
  currentMeta : RoomWSMeta
  /-- It comes from a drain, and not from the handler of a message. -/
  drains : Bool

/-- What the promise of `ensureLiveSessionAuthority` becomes. -/
inductive Outcome where
  | live
  | notLive
  | thrown
  deriving DecidableEq

/-- The session that an answer of the authority is about. -/
abbrev AuthorityKey := String × String

inductive Job where
  | start
  /-- A check that is settled is no longer in flight. -/
  | forget (key : AuthorityKey) (check : ℕ)
  /-- A caller gets the answer of its check. -/
  | answered (check : ℕ) (waiter : Waiter)
  /-- A drain gets the outcome for the metadata it has read. -/
  | resume (currentMeta : RoomWSMeta) (outcome : Outcome)
  /-- The promises of a drain that is over are settled; its cleanup comes last. -/
  | settling (hops : ℕ)

/-- What a socket gets: a frame of the queue with its number, or another frame. -/
inductive Frame where
  | queued (frame : ℕ × String)
  | direct (msg : String)

structure Socket where
  getWSMeta : Option RoomWSMeta
  queue : List (ℕ × String)
  /-- `outboundSessionDrains` has the socket. -/
  drains : Bool
  sent : List Frame
  sessionAuthorityInFlight : AuthorityKey → Option ℕ
  answers : ℕ → Option Answer
  /-- The checks without an answer. -/
  pending : List (ℕ × AuthorityKey)
  /-- The callers that wait for the answer of a check. -/
  waiters : List (ℕ × Waiter)
  checks : ℕ
  jobs : List Job
  /-- All frames that were put into the queue. -/
  enqueued : List (ℕ × String)
  /-- The sessions that the authority has called active since the last burst. -/
  granted : List AuthorityKey

def Socket.opened : Socket :=
  ⟨none, [], false, [], fun _ => none, fun _ => none, [], [], 0, [], [], []⟩

def RoomWSMeta.key (currentMeta : RoomWSMeta) : AuthorityKey :=
  (currentMeta.userId, currentMeta.sessionId)

namespace Socket

variable (s : Socket)

def sendRawUnchecked (msg : String) : Socket := { s with sent := s.sent ++ [.direct msg] }

def push (job : Job) : Socket := { s with jobs := s.jobs ++ [job] }

def startOutboundSessionDrain : Socket :=
  if s.drains then s else { s with drains := true, jobs := s.jobs ++ [.start] }

def safeSendRaw (msg : String) : Socket :=
  match s.getWSMeta with
  | some currentMeta =>
    if !currentMeta.authenticated ∨ currentMeta.tokenless then s.sendRawUnchecked msg
    else
      { s with
        queue := s.queue ++ [(s.enqueued.length, msg)]
        enqueued := s.enqueued ++ [(s.enqueued.length, msg)] }.startOutboundSessionDrain
  | none => s.sendRawUnchecked msg

def revokeLiveSession (currentMeta : RoomWSMeta) : Socket :=
  { s with getWSMeta := some { currentMeta with authenticated := false } }.sendRawUnchecked
    "SESSION_REVOKED"

def settleCall (waiter : Waiter) (outcome : Outcome) : Socket :=
  if waiter.drains then s.push (.resume waiter.currentMeta outcome) else s

/-- A check of a session that has none in flight. -/
def ask (key : AuthorityKey) : Socket :=
  { s with
    sessionAuthorityInFlight := Function.update s.sessionAuthorityInFlight key (some s.checks)
    pending := s.pending ++ [(s.checks, key)]
    checks := s.checks + 1 }

def await (check : ℕ) (waiter : Waiter) : Socket :=
  match s.answers check with
  | some _ => s.push (.answered check waiter)
  | none => { s with waiters := s.waiters ++ [(check, waiter)] }

def ensureLiveSessionAuthority (waiter : Waiter) : Socket :=
  if waiter.currentMeta.tokenless then s.settleCall waiter .live
  else if waiter.currentMeta.sessionId = "" ∨ waiter.currentMeta.userId = "" then
    (s.revokeLiveSession waiter.currentMeta).settleCall waiter .notLive
  else
    match s.sessionAuthorityInFlight waiter.currentMeta.key with
    | some check => s.await check waiter
    | none => (s.ask waiter.currentMeta.key).await s.checks waiter

/-- `ensureLiveSessionAuthority` after its `await`. -/
def answer (check : ℕ) (waiter : Waiter) : Socket :=
  match s.answers check with
  | some .active => s.settleCall waiter .live
  | some .inactive => (s.revokeLiveSession waiter.currentMeta).settleCall waiter .notLive
  | some .unavailable =>
    (s.sendRawUnchecked "AUTH_AUTHORITY_UNAVAILABLE").settleCall waiter .notLive
  | some .failed => s.settleCall waiter .thrown
  | none => s

/-- The loop of a drain up to its `await`; `hops` counts the promises that its end settles. -/
def loop (hops : ℕ) : Socket :=
  if s.queue = [] then s.push (.settling hops)
  else
    match s.getWSMeta with
    | some currentMeta =>
      if currentMeta.authenticated then s.ensureLiveSessionAuthority ⟨currentMeta, true⟩
      else { s with queue := [] }.push (.settling hops)
    | none => { s with queue := [] }.push (.settling hops)

def burst : Socket :=
  { s with queue := [], sent := s.sent ++ s.queue.map .queued, granted := [] }

def run : Job → Socket
  | .start => s.loop 3
  | .forget key check =>
    if s.sessionAuthorityInFlight key = some check then
      { s with sessionAuthorityInFlight := Function.update s.sessionAuthorityInFlight key none }
    else s
  | .answered check waiter => s.answer check waiter
  | .resume _ .live => s.burst.loop 2
  | .resume _ .notLive => { s with queue := [] }.push (.settling 2)
  | .resume _ .thrown => s.push (.settling 2)
  | .settling (hops + 1) => s.push (.settling hops)
  | .settling 0 =>
    if s.queue = [] then { s with drains := false }
    else { s with drains := false }.startOutboundSessionDrain

def settle (check : ℕ) (key : AuthorityKey) (answer : Answer) : Socket :=
  { s with
    answers := Function.update s.answers check (some answer)
    pending := s.pending.filter (·.1 ≠ check)
    waiters := s.waiters.filter (·.1 ≠ check)
    jobs := s.jobs ++ .forget key check ::
      (s.waiters.filter (·.1 = check)).map fun waiting => .answered check waiting.2
    granted := if answer = .active then key :: s.granted else s.granted }

end Socket

inductive Action where
  | safeSendRaw (msg : String)
  /-- `handleAuth`, with a token of a session. -/
  | authenticate (userId sessionId : String)
  /-- The handler of a message asks for the authority of the session. -/
  | message
  | otherSocket (key : AuthorityKey)
  | settle (check : ℕ) (answer : Answer)
  | close
  | tick

def step (s : Socket) : Action → Socket
  | .safeSendRaw msg => s.safeSendRaw msg
  | .authenticate userId sessionId =>
    if userId = "" ∨ sessionId = "" then s
    else { s with getWSMeta := some ⟨true, false, userId, sessionId⟩ }
  | .message =>
    match s.getWSMeta with
    | some currentMeta =>
      if currentMeta.authenticated then s.ensureLiveSessionAuthority ⟨currentMeta, false⟩ else s
    | none => s
  | .otherSocket key =>
    match s.sessionAuthorityInFlight key with
    | some _ => s
    | none => s.ask key
  | .settle check answer =>
    match s.pending.lookup check with
    | some key => s.settle check key answer
    | none => s
  | .close => { s with getWSMeta := none }
  | .tick =>
    match s.jobs with
    | job :: jobs => { s with jobs }.run job
    | [] => s

end EdgeBase.RoomOutbound
