import Mathlib.Data.List.Basic

/-!
# Refresh tokens

The refresh route of `routes/auth.ts`.  A request runs from one statement of the database to the
next, and any number of requests take their turns in any order, each with a clock of its own.

* `State.step`, `State.run` : the turns of all requests, with the sign-ins and sign-outs of the
  other routes in between.
-/

namespace EdgeBase

namespace Auth

/-! ### Sessions -/

/-- A row of `_sessions`; times are milliseconds. -/
structure Session where
  id : String
  userId : String
  refreshToken : String
  previousRefreshToken : Option String := none
  rotatedAt : Option Int := none
  expiresAt : Int
  deriving DecidableEq

def Session.tokens (session : Session) : List String :=
  session.refreshToken :: session.previousRefreshToken.toList

structure User where
  disabled : Bool
  deriving DecidableEq

/-- `REFRESH_TOKEN_GRACE_PERIOD_MS`. -/
def refreshTokenGracePeriod : Int := 30000

def isWithinRefreshTokenGrace (now : Int) (session : Session) : Bool :=
  session.rotatedAt.any fun rotatedTime => now - rotatedTime ≤ refreshTokenGracePeriod

def findByCurrent (sessions : List Session) (token userId : String) : Option Session :=
  sessions.find? fun σ => σ.refreshToken = token ∧ σ.userId = userId

/-- The session of a user with this preceding token. -/
def findByPrevious (sessions : List Session) (token userId : String) : Option Session :=
  sessions.find? fun σ => σ.previousRefreshToken = some token ∧ σ.userId = userId

/-- The row that `compareAndSwapUserSession` updates. -/
def swaps (session : Session) (check : Int) (σ : Session) : Prop :=
  σ.id = session.id ∧ σ.refreshToken = session.refreshToken ∧ check < σ.expiresAt

instance (session : Session) (check : Int) : DecidablePred (swaps session check) :=
  fun _ => inferInstanceAs (Decidable (_ ∧ _ ∧ _))

/-- `compareAndSwapUserSession`; `none` when it changes no row. -/
def compareAndSwapUserSession (sessions : List Session) (session : Session)
    (nextRefreshToken : String) (expiresAt rotatedAt check : Int) : Option (List Session) :=
  if ∃ σ ∈ sessions, swaps session check σ then
    some (sessions.map fun σ => if swaps session check σ then
      { σ with
        refreshToken := nextRefreshToken
        previousRefreshToken := some session.refreshToken
        rotatedAt := some rotatedAt
        expiresAt := expiresAt } else σ)
  else none

/-! ### Requests -/

/-- The answer to a request: an access token and a refresh token of a session, or an error. -/
inductive Answer where
  | tokens (sessionId refreshToken : String)
  | error (status : ℕ) (code : String)
  deriving DecidableEq

/-- Where a request waits for its next turn. -/
inductive Phase where
  /-- At the first query of `getSessionByRefreshToken`. -/
  | findCurrent (token userId : String)
  | findPrevious (token userId : String)
  /-- In `rotateRefreshTokenFlow`, at the user. -/
  | loadUser (session : Session) (userId : String)
  /-- At `rotateRefreshToken`. -/
  | swap (session : Session) (userId newRefreshToken : String) (expiresAt : Int)
  /-- Another request won the rotation: at the two queries for the winner. -/
  | findWinnerCurrent (session : Session) (userId : String)
  | findWinnerPrevious (session : Session) (userId : String)
  /-- Rotated, at `generateAccessToken`. -/
  | rotated (sessionId newRefreshToken : String)
  | loadGraceUser (session : Session) (userId : String)
  /-- Within the grace period, at `generateAccessToken`. -/
  | granted (sessionId refreshToken : String)
  /-- Beyond the grace period, at `deleteSession`. -/
  | revoke (sessionId : String)
  deriving DecidableEq

/-- What a turn finds outside of the table: the clock, read twice, the user, and the token that
`signRefreshToken` would make with its expiry. -/
structure Env where
  now : Int
  check : Int
  user : Option User
  newRefreshToken : String
  expiresAt : Int
  deriving DecidableEq

def invalidRefreshToken : Answer := .error 401 "invalid-refresh-token"

/-- One turn of a request: the table after it, and where the request waits then, or its answer. -/
def Phase.proceed (env : Env) (sessions : List Session) : Phase → List Session × (Phase ⊕ Answer)
  | .findCurrent token userId =>
    match findByCurrent sessions token userId with
    | some session => (sessions, .inl (.loadUser session userId))
    | none => (sessions, .inl (.findPrevious token userId))
  | .findPrevious token userId =>
    match findByPrevious sessions token userId with
    | none => (sessions, .inr invalidRefreshToken)
    | some session =>
      if isWithinRefreshTokenGrace env.now session then
        (sessions, .inl (.loadGraceUser session userId))
      else (sessions, .inl (.revoke session.id))
  | .loadUser session userId =>
    match env.user with
    | none => (sessions, .inr (.error 401 "invalid-credentials"))
    | some user =>
      if user.disabled then (sessions, .inr (.error 403 "account-disabled"))
      else (sessions, .inl (.swap session userId env.newRefreshToken env.expiresAt))
  | .swap session userId newRefreshToken expiresAt =>
    match compareAndSwapUserSession sessions session newRefreshToken expiresAt env.now
        env.check with
    | some sessions => (sessions, .inl (.rotated session.id newRefreshToken))
    | none => (sessions, .inl (.findWinnerCurrent session userId))
  | .findWinnerCurrent session userId =>
    match findByCurrent sessions session.refreshToken userId with
    | some _ => (sessions, .inr invalidRefreshToken)
    | none => (sessions, .inl (.findWinnerPrevious session userId))
  | .findWinnerPrevious session userId =>
    match findByPrevious sessions session.refreshToken userId with
    | none => (sessions, .inr invalidRefreshToken)
    | some winner =>
      if isWithinRefreshTokenGrace env.now winner then
        (sessions, .inl (.granted winner.id winner.refreshToken))
      else (sessions, .inr invalidRefreshToken)
  | .rotated sessionId newRefreshToken => (sessions, .inr (.tokens sessionId newRefreshToken))
  | .loadGraceUser session _ =>
    match env.user with
    | none => (sessions, .inr (.error 401 "invalid-credentials"))
    | some _ => (sessions, .inl (.granted session.id session.refreshToken))
  | .granted sessionId refreshToken => (sessions, .inr (.tokens sessionId refreshToken))
  | .revoke sessionId =>
    (sessions.filter (·.id ≠ sessionId), .inr (.error 401 "refresh-token-reused"))

/-! ### Runs -/

/-- The table, the requests that wait, and the answers; and all ids and tokens that there were. -/
structure State where
  sessions : List Session
  requests : List (ℕ × Phase) := []
  answers : List (ℕ × Answer) := []
  ids : List String
  issued : List String
  deriving DecidableEq

inductive Action where
  /-- A token is presented: the refresh rule allows it, and it verifies for a user. -/
  | present (r : ℕ) (token userId : String)
  /-- A request is refused before the table is read. -/
  | refuse (r : ℕ) (status : ℕ) (code : String)
  /-- A request takes its turn. -/
  | advance (r : ℕ) (env : Env)
  | signIn (session : Session)
  | signOut (sessionId : String)
  deriving DecidableEq

def State.Unused (s : State) (r : ℕ) : Prop :=
  s.requests.lookup r = none ∧ s.answers.lookup r = none

instance (s : State) : DecidablePred s.Unused := fun _ => inferInstanceAs (Decidable (_ ∧ _))

/-- The requests with another one, if any, in the place of `r`. -/
def State.resume (s : State) (r : ℕ) (phase : Option Phase) : List (ℕ × Phase) :=
  (phase.map fun p => (r, p)).toList ++ s.requests.filter (·.1 ≠ r)

/-- A turn of request `r`, from `phase`. -/
def State.turn (s : State) (r : ℕ) (env : Env) (phase : Phase) : State :=
  let next := phase.proceed env s.sessions
  { s with
    sessions := next.1
    requests := s.resume r next.2.getLeft?
    answers := (next.2.getRight?.map fun a => (r, a)).toList ++ s.answers
    issued := env.newRefreshToken :: s.issued }

/-- What follows an action; `none` when it is not possible.  Every request has its own number; new
ids and tokens are random, and so they differ from all that there were. -/
def State.step (s : State) : Action → Option State
  | .present r token userId =>
    if s.Unused r then some { s with requests := s.resume r (some (.findCurrent token userId)) }
    else none
  | .refuse r status code =>
    if s.Unused r then some { s with answers := (r, .error status code) :: s.answers } else none
  | .advance r env =>
    if env.newRefreshToken ∈ s.issued then none
    else (s.requests.lookup r).map (s.turn r env)
  | .signIn session =>
    if session.id ∈ s.ids ∨ session.refreshToken ∈ s.issued ∨ session.previousRefreshToken ≠ none
    then none
    else some
      { s with
        sessions := session :: s.sessions
        ids := session.id :: s.ids
        issued := session.refreshToken :: s.issued }
  | .signOut sessionId => some { s with sessions := s.sessions.filter (·.id ≠ sessionId) }

def State.run (s : State) : List Action → Option State
  | [] => some s
  | a :: actions => (s.step a).bind fun s => s.run actions

def State.init : State where
  sessions := []
  ids := []
  issued := []

end Auth

end EdgeBase
