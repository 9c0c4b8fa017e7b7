import EdgeBase.Lib.Handlers
import Mathlib.Data.List.Sort

/-!
# Response cursors

The cursor of a bounded page is a token, and a table of the database says which record it stands for
and when it expires.  Isolates issue and resolve tokens side by side: every statement on the table
is one step, and others may come between any two.

* `CursorStep`, `Cursors.exec` : `issueResponseCursorWithExpiry` and `resolveResponseCursor`,
  statement by statement.
-/

namespace EdgeBase

/-! ### The table -/

/-- `ResponseCursorRecord`. -/
structure CursorRecord where
  token : String
  tableName : String
  recordId : String
  expiresAt : ℕ
  deriving DecidableEq

/-- The rows of `_edgebase_response_cursors`. -/
abbrev CursorStore := List CursorRecord

/-- `RESPONSE_CURSOR_TTL_MS`. -/
def responseCursorTtlMs : ℕ := 7 * 24 * 60 * 60 * 1000

/-- `RESPONSE_CURSOR_GC_LIMIT`. -/
def responseCursorGcLimit : ℕ := 16

/-- `RESPONSE_CURSOR_PREFIX`. -/
def responseCursorPrefix : String := "~edgebase-response-cursor-v1."

/-- `isResponseCursor`: the prefix, and 32 characters of base64url. -/
def isResponseCursor (value : String) : Bool :=
  let rest := value.toList.drop 29
  value.toList.take 29 == responseCursorPrefix.toList && rest.length == 32 &&
    rest.all fun c => c.isAlphanum || c == '-' || c == '_'

/-- What `createResponseCursorToken` draws. -/
abbrev ResponseToken := { token : String // isResponseCursor token = true }

namespace CursorStore

variable (store : CursorStore)

def findByToken (token : String) : Option CursorRecord := store.find? (·.token = token)

def findByRecord (tableName recordId : String) : Option CursorRecord :=
  store.find? fun row => row.tableName = tableName ∧ row.recordId = recordId

/-- The statement of `create`, which does nothing if a key is taken; whether it has inserted. -/
def insertOrIgnore (record : CursorRecord) : CursorStore × Bool :=
  if (store.findByToken record.token).isSome ∨
      (store.findByRecord record.tableName record.recordId).isSome then (store, false)
  else (store ++ [record], true)

def touch (token : String) (expiresAt : ℕ) : CursorStore :=
  store.map fun row => if row.token = token then { row with expiresAt } else row

def deleteByToken (token : String) : CursorStore := store.filter (·.token ≠ token)

/-- The tokens that `deleteExpired` deletes: those that expired first. -/
def expired (now limit : ℕ) : List String :=
  (((store.filter (·.expiresAt ≤ now)).insertionSort (·.expiresAt ≤ ·.expiresAt)).take limit).map
    (·.token)

def deleteExpired (now limit : ℕ) : CursorStore :=
  store.filter fun row => row.token ∉ store.expired now limit

/-- What a token stands for, if it has not expired. -/
def lookUp (tableName token : String) (now : ℕ) : Option String :=
  (store.findByToken token).bind fun row =>
    if row.tableName = tableName ∧ now < row.expiresAt then some row.recordId else none

end CursorStore

/-! ### The calls -/

/-- A call of `issueResponseCursorWithExpiry`: when it started, and the tokens that its remaining
attempts draw. -/
structure CursorIssue where
  tableName : String
  recordId : String
  now : ℕ
  draws : List ResponseToken
  deriving DecidableEq

def CursorIssue.expiresAt (r : CursorIssue) : ℕ := r.now + responseCursorTtlMs

/-- The statements of the calls, in the order in which a call may come to them. -/
inductive CursorStep where
  /-- `ensureReady`. -/
  | ready (next : CursorStep)
  /-- `deleteExpired`. -/
  | collect (r : CursorIssue)
  /-- `findByRecord`. -/
  | find (r : CursorIssue)
  /-- `touch`, and the call returns. -/
  | extend (r : CursorIssue) (token : String)
  /-- `INSERT OR IGNORE` of an attempt. -/
  | create (r : CursorIssue)
  /-- `findByToken`, when an attempt has inserted nothing. -/
  | recheckToken (r : CursorIssue) (token : String)
  /-- `findByRecord`, when the token was not the reason. -/
  | recheckRecord (r : CursorIssue)
  /-- `findByRecord` after a conflict over the record. -/
  | raced (r : CursorIssue)
  /-- `findByToken` of `resolveResponseCursor`, which started at a time. -/
  | resolve (tableName token : String) (now : ℕ)
  /-- `deleteByToken` of a row that was found expired. -/
  | drop (token : String)
  /-- `touch` of a row that was resolved. -/
  | prolong (token : String) (expiresAt : ℕ)
  deriving DecidableEq

inductive CursorReport where
  | issued (token tableName recordId : String) (expiresAt : ℕ)
  /-- What a token stands for, as a table row that was read at some time says. -/
  | resolved (tableName token : String) (readAt : ℕ) (recordId : Option String)
  deriving DecidableEq

structure CursorState where
  store : CursorStore
  clock : ℕ
  /-- All rows that have ever been inserted. -/
  created : List CursorRecord
  log : List CursorReport
  deriving DecidableEq

inductive CursorEvent where
  | tick (ms : ℕ)
  | issue (isolate : ℕ) (tableName recordId : String) (draws : List ResponseToken)
  | resolve (tableName token : String)
  deriving DecidableEq

namespace Cursors

open Handlers

def done : Next CursorStep := .run []

def exec (s : CursorState) : CursorStep → CursorState × Next CursorStep
  | .ready next => (s, .await [next])
  | .collect r =>
    ({ s with store := s.store.deleteExpired r.now responseCursorGcLimit }, .await [.find r])
  | .find r =>
    match s.store.findByRecord r.tableName r.recordId with
    | some existing =>
      -- a stored token of another form is an error
      (s, if isResponseCursor existing.token then .await [.extend r existing.token] else done)
    | none => (s, .await [.create r])
  | .extend r token =>
    ({ s with
      store := s.store.touch token r.expiresAt
      log := s.log ++ [.issued token r.tableName r.recordId r.expiresAt] }, done)
  | .create r =>
    match r.draws with
    | [] => (s, done)
    | token :: draws =>
      let record := ⟨token.1, r.tableName, r.recordId, r.expiresAt⟩
      match s.store.insertOrIgnore record with
      | (store, true) =>
        ({ s with
          store
          created := s.created ++ [record]
          log := s.log ++ [.issued token.1 r.tableName r.recordId r.expiresAt] }, done)
      | (_, false) => (s, .await [.recheckToken { r with draws } token.1])
  | .recheckToken r token =>
    (s, .await [if (s.store.findByToken token).isSome then .create r else .recheckRecord r])
  | .recheckRecord r =>
    (s, .await [if (s.store.findByRecord r.tableName r.recordId).isSome then .raced r
      else .create r])
  | .raced r =>
    match s.store.findByRecord r.tableName r.recordId with
    | some raced =>
      (s, .await [if isResponseCursor raced.token then .extend r raced.token else .create r])
    | none => (s, .await [.create r])
  | .resolve tableName token now =>
    match s.store.findByToken token with
    | some record =>
      if record.tableName ≠ tableName then
        ({ s with log := s.log ++ [.resolved tableName token s.clock none] }, done)
      else if record.expiresAt ≤ now then
        ({ s with log := s.log ++ [.resolved tableName token s.clock none] }, .await [.drop token])
      else
        ({ s with log := s.log ++ [.resolved tableName token s.clock (some record.recordId)] },
          .await [.prolong token (now + responseCursorTtlMs)])
    | none => ({ s with log := s.log ++ [.resolved tableName token s.clock none] }, done)
  | .drop token => ({ s with store := s.store.deleteByToken token }, done)
  | .prolong token expiresAt => ({ s with store := s.store.touch token expiresAt }, done)

/-- A call begins, which draws three tokens at most.  A call for a record that its isolate is
issuing a cursor for joins that one. -/
def handle (s : CursorState) : CursorEvent → CursorState ×
    Option (Task (ℕ × String × String) CursorStep)
  | .tick ms => ({ s with clock := s.clock + ms }, none)
  | .issue isolate tableName recordId draws =>
    (s, some ⟨some (isolate, tableName, recordId),
      [.ready (.collect ⟨tableName, recordId, s.clock, draws.take 3⟩)]⟩)
  | .resolve tableName token =>
    (s, if isResponseCursor token then some ⟨none, [.ready (.resolve tableName token s.clock)]⟩
      else none)

def machine : Machine CursorState (ℕ × String × String) CursorStep CursorEvent Unit where
  exec s _ step := exec s step
  handle := handle
  restart := id

abbrev System := Handlers.System CursorState (ℕ × String × String) CursorStep Unit

abbrev Step := Handlers.Action CursorEvent Unit

def init (store : CursorStore) (clock : ℕ) : System where
  state := { store, clock, created := store, log := [] }
  returned := ()

def step (s : System) (a : Step) : System := s.step machine a

end Cursors

end EdgeBase
