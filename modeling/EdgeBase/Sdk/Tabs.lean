import EdgeBase.Lib.Runs
import EdgeBase.Sdk.TokenManager

/-!
# Tabs that share a namespace

The operations of all tabs run side by side.  Each block between two `await`s is one action; so is
the delivery of a broadcast or of a storage event.  The mutation lock only delays: which operation
gets on is up to the run, as are the answers of the server and what a clock decides.

* `World.step` : what follows an action.
* `World.open` : the tabs of a namespace, as they are opened.
-/

namespace EdgeBase

namespace Sdk

inductive RefreshAnswer where
  | tokens (accessToken : Issued) (refreshToken : Option Issued) (user : Option String)
  | unauthorized
  | forbidden
  /-- A network error or a 5xx. -/
  | unavailable
  | failed
  deriving DecidableEq

/-- What happens in the tabs.  Operations are known by their place in the list; `fresh` tells whether
a lock or a parked result is, and `offline` whether the browser is. -/
inductive TabAction (τ : Type) where
  | call (a : τ) (kind : OperationKind)
  /-- A refresh goes on to the election of its leader. -/
  | start (i : ℕ) (fresh : Bool)
  | verify (i : ℕ)
  | request (i : ℕ) (fresh : Bool)
  | respond (i : ℕ) (answer : RefreshAnswer) (fresh : Bool)
  | synchronise (i : ℕ)
  /-- A follower in cookie transport goes on after the signal, or without one. -/
  | resume (i : ℕ) (fresh : Bool)
  /-- A follower without a `BroadcastChannel` looks for a parked result. -/
  | poll (i : ℕ) (fresh : Bool)
  /-- A follower has waited too long. -/
  | giveUp (i : ℕ)
  | complete (i : ℕ)
  | mutate (i : ℕ)
  | mutated (i : ℕ) (result : Option AuthResult)
  | clearTokens (a : τ)
  /-- `signOut` in cookie transport. -/
  | signOutPending (a : τ)
  /-- `clearSessionForPendingSignOut`, once more. -/
  | clearSession (a : τ)
  | completePendingSignOut (a : τ)
  | invalidateAccessToken (a : τ)
  /-- The oldest broadcast of one tab reaches another. -/
  | deliver (a b : τ) (offline : Bool)
  /-- The oldest storage event of one tab reaches another. -/
  | storageEvent (a b : τ) (offline fresh : Bool)
  /-- A parked result is removed by its timer. -/
  | removeRefreshResult (a : τ)

namespace World

variable {τ : Type} [DecidableEq τ] (config : Config) (w : World τ) (i : ℕ) (o : Operation τ)

def setPhase (phase : Phase) : World τ :=
  { w with operations := w.operations.set i { o with phase } }

def finish : World τ := { w with operations := w.operations.eraseIdx i }

def releaseRefreshLock (fresh : Bool) : World τ :=
  write o.tab w (fun s =>
    if s.refreshLock = none ∨ s.refreshLock = some o.tab ∨ fresh = false then
      { s with refreshLock := none }
    else s) none

/-- `waitForRefreshResult` or `waitForCookieRefreshSignal`; what the latter asks of the session marker
only spares waiting. -/
def follow (epoch : ℕ) : World τ :=
  if !config.usesHttpOnlyCookie && w.storage.refreshToken = none then w.finish i
  else w.setPhase i o (.following epoch)

/-- `refreshWithLeaderElection` up to its first `await`. -/
def elect (epoch : ℕ) (fresh : Bool) : World τ :=
  if !w.isAuthEpochCurrent config o.tab epoch then w.finish i
  else if fresh && w.storage.refreshLock ≠ none && w.storage.refreshLock ≠ some o.tab then
    w.follow config i o epoch
  else
    write o.tab (w.setPhase i o (.verifying epoch w.storage.refreshToken))
      ({ · with refreshLock := some o.tab }) none

/-- `getAccessToken` or `forceRefresh`.  A refresh joins one that its tab has already; in cookie
transport the session marker only spares requests. -/
def start (fresh : Bool) : World τ :=
  if o.kind ≠ .refresh ∧ o.kind ≠ .refreshSession then w
  else if w.hasPendingSignOut config then w.finish i
  else if !config.usesHttpOnlyCookie && w.storage.refreshToken = none then w.finish i
  else if ∃ o' ∈ w.operations, o'.tab = o.tab ∧ o'.phase.coordinates = true then w.finish i
  else w.elect config i o (w.currentAuthEpoch o.tab) fresh

def verify (epoch : ℕ) (refreshToken : Option Token) : World τ :=
  if w.storage.refreshLock = some o.tab then
    w.setPhase i o (.leading epoch (w.storage.refreshToken.or refreshToken))
  else w.follow config i o epoch

def request (epoch : ℕ) (tokenForRefresh : Option Token) (fresh : Bool) : World τ :=
  if w.isAuthEpochCurrent config o.tab epoch then w.setPhase i o (.refreshing epoch tokenForRefresh)
  else (w.releaseRefreshLock o fresh).finish i

/-- The leader adopts the tokens of its answer, unless the epoch or the principal has changed. -/
def adoptRefresh (epoch : ℕ) (accessToken : Issued) (refreshToken : Option Issued)
    (user : Option String) (fresh : Bool) : World τ :=
  if !w.isAuthEpochCurrent config o.tab epoch ||
      (config.usesHttpOnlyCookie && (w.tabs o.tab).expectedCookieUserId ≠ none &&
        accessToken.user ≠ (w.tabs o.tab).expectedCookieUserId) then
    (w.releaseRefreshLock o fresh).finish i
  else
    let w := setTokens config o.tab w (accessToken.token o.born) (refreshToken.map (·.token o.born))
      none
    let w := broadcastTokenRefreshed config o.tab w (accessToken.token o.born)
      (refreshToken.map (·.token o.born))
    let w := w.releaseRefreshLock o fresh
    if o.kind = .refreshSession then
      w.setPhase i o (.synchronising o.startEpoch
        { accessToken := some accessToken, refreshToken, user })
    else w.finish i

def rejectRefresh (tokenForRefresh : Option Token) : World τ :=
  if !config.usesHttpOnlyCookie && w.storage.refreshToken ≠ none &&
      w.storage.refreshToken ≠ tokenForRefresh then
    onTab o.tab w ({ · with accessToken := none })
  else clearTokens config o.tab w

def respond (epoch : ℕ) (tokenForRefresh : Option Token) (answer : RefreshAnswer) (fresh : Bool) :
    World τ :=
  match answer with
  | .tokens accessToken refreshToken user =>
    if !config.usesHttpOnlyCookie && refreshToken = none then
      (w.releaseRefreshLock o fresh).finish i
    else w.adoptRefresh config i o epoch accessToken refreshToken user fresh
  | .unauthorized =>
    ((w.rejectRefresh config o tokenForRefresh).releaseRefreshLock o fresh).finish i
  | .forbidden =>
    if config.usesHttpOnlyCookie then
      ((w.rejectRefresh config o tokenForRefresh).releaseRefreshLock o fresh).finish i
    else (w.releaseRefreshLock o fresh).finish i
  | .unavailable =>
    ((promoteCookieSessionMarkerUser config o.tab w).releaseRefreshLock o fresh).finish i
  | .failed => (w.releaseRefreshLock o fresh).finish i

/-- `refreshSession` takes the answer over once more. -/
def synchronise (epoch : ℕ) (result : AuthResult) : World τ :=
  if w.isAuthEpochCurrent config o.tab epoch then
    (syncAuthResult config o.tab w o.born result false).finish i
  else w.finish i

def poll (fresh : Bool) : World τ :=
  match w.storage.refreshToken, w.storage.refreshResult with
  | some _, some accessToken =>
    if fresh then (consumeFallbackRefreshResult config o.tab w accessToken).finish i else w
  | some _, none => w
  | none, _ => w.finish i

def mutate (epoch : ℕ) : World τ :=
  if w.isAuthEpochCurrent config o.tab epoch then w.setPhase i o (.mutating epoch) else w.finish i

def mutated (epoch : ℕ) (result : AuthResult) : World τ :=
  if w.isAuthEpochCurrent config o.tab epoch then
    (syncAuthResult config o.tab w o.born result (o.kind = .signIn)).finish i
  else w.finish i

/-- The followers of a tab are told; with tokens they adopt the same tokens again, which changes
nothing more. -/
def settleFollowers (a : τ) : Message → World τ
  | .sessionRefreshed => w
  | .tokenRefreshed _ _ | .signedOut => { w with
      operations := w.operations.filter fun o =>
        !(o.tab = a && match o.phase with | .following _ => true | _ => false) }

def popMessage (a b : τ) : World τ := { w with messages := w.messages.pop a b }

def popEvent (a b : τ) : World τ := { w with events := w.events.pop a b }

def step : TabAction τ → World τ
  | .call a kind => { w with
      operations := w.operations ++
        [{ tab := a, kind, born := w.signOuts, startEpoch := w.currentAuthEpoch a }]
      resumed := w.resumed || kind = .signIn || kind = .completion }
  | .start i fresh =>
    match w.operations[i]? with
    | some o => if o.phase = .called then w.start config i o fresh else w
    | none => w
  | .verify i =>
    match w.operations[i]? with
    | some o =>
      match o.phase with
      | .verifying epoch refreshToken => w.verify config i o epoch refreshToken
      | _ => w
    | none => w
  | .request i fresh =>
    match w.operations[i]? with
    | some o =>
      match o.phase with
      | .leading epoch tokenForRefresh => w.request config i o epoch tokenForRefresh fresh
      | _ => w
    | none => w
  | .respond i answer fresh =>
    match w.operations[i]? with
    | some o =>
      match o.phase with
      | .refreshing epoch tokenForRefresh => w.respond config i o epoch tokenForRefresh answer fresh
      | _ => w
    | none => w
  | .synchronise i =>
    match w.operations[i]? with
    | some o =>
      match o.phase with
      | .synchronising epoch result => w.synchronise config i o epoch result
      | _ => w
    | none => w
  | .resume i fresh =>
    match w.operations[i]? with
    | some o =>
      match o.phase with
      | .following epoch =>
        if config.usesHttpOnlyCookie then w.elect config i o epoch fresh else w
      | _ => w
    | none => w
  | .poll i fresh =>
    match w.operations[i]? with
    | some o =>
      match o.phase with
      | .following _ =>
        if config.usesHttpOnlyCookie || config.hasBroadcastChannel then w
        else w.poll config i o fresh
      | _ => w
    | none => w
  | .giveUp i =>
    match w.operations[i]? with
    | some o =>
      match o.phase with
      | .following _ => write o.tab (w.finish i) ({ · with refreshLock := none }) none
      | _ => w
    | none => w
  | .complete i =>
    match w.operations[i]? with
    | some o =>
      if o.phase = .called ∧ o.kind = .completion then
        (advanceAuthEpoch o.tab w).setPhase i o (.queued (w.currentAuthEpoch o.tab + 1))
      else w
    | none => w
  | .mutate i =>
    match w.operations[i]? with
    | some o =>
      match o.phase with
      | .called =>
        if o.kind = .signIn then w.mutate config i o (w.currentAuthEpoch o.tab) else w
      | .queued epoch => w.mutate config i o epoch
      | _ => w
    | none => w
  | .mutated i result =>
    match w.operations[i]? with
    | some o =>
      match o.phase, result with
      | .mutating epoch, some result => w.mutated config i o epoch result
      | .mutating _, none => w.finish i
      | _, _ => w
    | none => w
  | .clearTokens a => World.clearTokens config a w
  | .signOutPending a =>
    if config.usesHttpOnlyCookie then World.signOutPending config a w else w
  | .clearSession a =>
    if config.usesHttpOnlyCookie then clearTokensInternal config a w false true else w
  | .completePendingSignOut a =>
    if config.usesHttpOnlyCookie then World.completePendingSignOut a w else w
  | .invalidateAccessToken a => onTab a w fun t =>
    { t with
      accessToken := none
      cachedUser :=
        if w.storage.refreshToken = none ∧
            (config.usesHttpOnlyCookie = true → w.storage.cookieSession = none) then none
        else t.cachedUser }
  | .deliver a b offline =>
    match w.messages a b with
    | m :: _ =>
      if config.hasBroadcastChannel then
        ((onmessage config b w offline m).settleFollowers b m).popMessage a b
      else w
    | [] => w
  | .storageEvent a b offline fresh =>
    match w.events a b with
    | e :: _ => (onstorage config b w offline fresh e).popEvent a b
    | [] => w
  | .removeRefreshResult a => World.removeRefreshResult a w

/-- The tabs of a namespace, as they are opened on a storage; `users` are those that they restore. -/
def opened (storage : Storage τ) (users : τ → Option String) : World τ where
  storage :=
    if config.usesHttpOnlyCookie && storage.pendingSignOut then
      { storage with refreshToken := none }
    else storage
  tabs a := { authEpoch := storage.authEpoch, cachedUser := users a }

/-- All messages and requests have been processed. -/
def Settled : Prop :=
  w.operations = [] ∧ ∀ a b, w.messages a b = [] ∧ w.events a b = []

/-- No tab, and not the storage, holds a token of an operation that was started before the last
sign-out, unless a sign-in was started since. -/
def SignedOut : Prop :=
  w.Settled → w.resumed = false →
    (∀ a, ∀ t ∈ (w.tabs a).accessToken, w.signOuts ≤ t.born) ∧
      (∀ t ∈ w.storage.refreshToken, w.signOuts ≤ t.born) ∧
      ∀ t ∈ w.storage.refreshResult, w.signOuts ≤ t.born

end World

end Sdk

end EdgeBase
