import EdgeBase.Lib.Channels
import Mathlib.Logic.Function.Basic

/-!
# The token manager

What `token-manager.ts` does to the memory of a tab, to the storage that the tabs of a namespace
share, and to what the tabs tell each other.  Every function is one of the blocks that run without a
break.  A clock only decides whether a lock or a parked result is still fresh, and is an argument.

* `TokenManager`, `Storage`, `World` : a tab, the shared storage, and all of it.
* `World.setTokens`, `World.syncAuthResult` : the tokens of an answer are adopted.
* `World.clearTokens`, `World.signOutPending` : a tab signs out.
* `World.onmessage`, `World.onstorage` : what a tab does with a broadcast and with a storage event.
-/

namespace EdgeBase

namespace Sdk

/-! ### Tabs and storage -/

/-- A token of an answer of the server, with the id that `extractUser` reads in it. -/
structure Issued where
  text : String
  user : Option String := none
  deriving DecidableEq

/-- A token, with the number of sign-outs before the operation that obtained it was started. -/
structure Token extends Issued where
  born : ℕ
  deriving DecidableEq

def Issued.token (born : ℕ) (t : Issued) : Token := { t with born }

/-- The transport of the refresh token, and whether the browser has a `BroadcastChannel`. -/
structure Config where
  usesHttpOnlyCookie : Bool
  hasBroadcastChannel : Bool

structure Storage (τ : Type) where
  refreshToken : Option Token := none
  /-- The access token that is parked for tabs without a `BroadcastChannel`. -/
  refreshResult : Option Token := none
  refreshLock : Option τ := none
  /-- The user of the cookie session marker. -/
  cookieSession : Option String := none
  pendingSignOut : Bool := false
  authEpoch : ℕ := 0
  deriving DecidableEq

structure TokenManager where
  accessToken : Option Token := none
  authEpoch : ℕ := 0
  cachedUser : Option String := none
  expectedCookieUserId : Option String := none
  deriving DecidableEq

inductive Message where
  | sessionRefreshed
  | tokenRefreshed (accessToken refreshToken : Token)
  | signedOut
  deriving DecidableEq

inductive StorageEvent where
  | authEpoch
  | cookieSession (newValue : Option String)
  | refreshToken (newValue : Option Token)
  | refreshResult (newValue : Option Token)
  deriving DecidableEq

inductive OperationKind where
  /-- `getAccessToken` or `forceRefresh`. -/
  | refresh
  /-- `refreshSession`. -/
  | refreshSession
  /-- A sign-in or another call of `runAuthMutation` that changes the identity. -/
  | signIn
  /-- `performPendingOAuthTicket`. -/
  | completion
  deriving DecidableEq

structure AuthResult where
  accessToken : Option Issued := none
  refreshToken : Option Issued := none
  user : Option String := none
  deriving DecidableEq

inductive Phase where
  /-- It waits, for the retry of a sign-out, for an OAuth nonce or for the mutation lock. -/
  | called
  /-- A completion waits for the mutation lock. -/
  | queued (epoch : ℕ)
  /-- The request of a mutation is under way. -/
  | mutating (epoch : ℕ)
  /-- A refresh has written the refresh lock. -/
  | verifying (epoch : ℕ) (refreshToken : Option Token)
  /-- A refresh waits for the result of another tab. -/
  | following (epoch : ℕ)
  /-- A refresh that has the refresh lock waits for the mutation lock. -/
  | leading (epoch : ℕ) (tokenForRefresh : Option Token)
  /-- The request of a refresh is under way. -/
  | refreshing (epoch : ℕ) (tokenForRefresh : Option Token)
  /-- `refreshSession` has the answer of its own refresh. -/
  | synchronising (epoch : ℕ) (result : AuthResult)
  deriving DecidableEq

def Phase.epoch? : Phase → Option ℕ
  | .called => none
  | .queued epoch | .mutating epoch | .verifying epoch _ | .following epoch | .leading epoch _
  | .refreshing epoch _ | .synchronising epoch _ => some epoch

/-- Whether a tab has a refresh that others of the tab join. -/
def Phase.coordinates : Phase → Bool
  | .verifying _ _ | .following _ | .leading _ _ | .refreshing _ _ => true
  | .called | .queued _ | .mutating _ | .synchronising _ _ => false

/-- An operation of a tab, with the number of sign-outs before it was started. -/
structure Operation (τ : Type) where
  tab : τ
  kind : OperationKind
  born : ℕ
  startEpoch : ℕ
  phase : Phase := .called
  deriving DecidableEq

/-- The tabs, what they share, and how often one of them has signed out. -/
structure World (τ : Type) where
  storage : Storage τ
  tabs : τ → TokenManager
  messages : Channels τ Message := .empty
  events : Channels τ StorageEvent := .empty
  operations : List (Operation τ) := []
  signOuts : ℕ := 0
  /-- A sign-in was started since the last sign-out. -/
  resumed : Bool := false

namespace World

variable {τ : Type} [DecidableEq τ] (config : Config) (a : τ) (w : World τ)

def onTab (f : TokenManager → TokenManager) : World τ :=
  { w with tabs := Function.update w.tabs a (f (w.tabs a)) }

/-- `broadcastChannel.postMessage(…)`. -/
def postMessage (m : Message) : World τ := { w with messages := w.messages.post a m }

/-- A tab writes to the storage, with a storage event for all other tabs if something changes. -/
def write (f : Storage τ → Storage τ) (e : Option StorageEvent) : World τ :=
  { w with storage := f w.storage, events := e.elim w.events (w.events.post a) }

/-- `storage.setItem(refreshTokenKey, …)`. -/
def setRefreshToken (t : Token) : World τ :=
  write a w ({ · with refreshToken := some t }) (some (.refreshToken (some t)))

/-- `storage.removeItem(refreshTokenKey)`. -/
def removeRefreshToken : World τ :=
  write a w ({ · with refreshToken := none })
    (if w.storage.refreshToken = none then none else some (.refreshToken none))

/-- `storage.setItem(refreshResultKey, …)`. -/
def setRefreshResult (t : Token) : World τ :=
  write a w ({ · with refreshResult := some t }) (some (.refreshResult (some t)))

/-- `storage.removeItem(refreshResultKey)`. -/
def removeRefreshResult : World τ :=
  write a w ({ · with refreshResult := none })
    (if w.storage.refreshResult = none then none else some (.refreshResult none))

/-- `storage.setItem(cookieSessionKey, …)`, or `removeItem`. -/
def putCookieSession (marker : Option String) : World τ :=
  write a w ({ · with cookieSession := marker })
    (if w.storage.cookieSession = marker then none else some (.cookieSession marker))

/-! ### Epochs -/

def hasPendingSignOut : Bool := config.usesHttpOnlyCookie && w.storage.pendingSignOut

def currentAuthEpoch : ℕ := max (w.tabs a).authEpoch w.storage.authEpoch

/-- `isAuthEpochCurrent`; a refresh asserts the same of its epoch. -/
def isAuthEpochCurrent (epoch : ℕ) : Bool :=
  !w.hasPendingSignOut config && w.currentAuthEpoch a = epoch

def advanceAuthEpoch : World τ :=
  let next := w.currentAuthEpoch a + 1
  onTab a (write a w ({ · with authEpoch := next }) (some .authEpoch)) ({ · with authEpoch := next })

/-! ### Tokens -/

def persistCookieSessionMarkerFor (user : Option String) : World τ :=
  if config.usesHttpOnlyCookie then putCookieSession a w (user.filter (· ≠ "")) else w

def setTokens (accessToken : Token) (refreshToken : Option Token) (userOverride : Option String) :
    World τ :=
  let nextUser := userOverride.or accessToken.user
  let adopt (w : World τ) : World τ :=
    onTab a w ({ · with accessToken := some accessToken, cachedUser := nextUser })
  if config.usesHttpOnlyCookie then
    let w := removeRefreshToken a w
    if w.hasPendingSignOut config then
      putCookieSession a (onTab a w ({ · with accessToken := none, cachedUser := none })) none
    else
      adopt (onTab a (persistCookieSessionMarkerFor config a w nextUser)
        ({ · with expectedCookieUserId := none }))
  else
    match refreshToken with
    | some refreshToken => adopt (setRefreshToken a w refreshToken)
    | none => w

def setAccessToken (accessToken : Token) (userOverride : Option String) : World τ :=
  let nextUser := userOverride.or accessToken.user
  onTab a (persistCookieSessionMarkerFor config a w nextUser)
    ({ · with accessToken := some accessToken, cachedUser := nextUser })

def setCurrentUser (user : Option String) : World τ :=
  onTab a (persistCookieSessionMarkerFor config a w user) ({ · with cachedUser := user })

def updateUser (accessToken : Token) : World τ :=
  persistCookieSessionMarkerFor config a
    (onTab a w ({ · with cachedUser := accessToken.user })) accessToken.user

/-- `syncAuthResult` of the answer to an operation, where `commitAuthoritativeAuthTransition`
advances the epoch. -/
def syncAuthResult (born : ℕ) (result : AuthResult) (authoritative : Bool) : World τ :=
  let w := if authoritative then advanceAuthEpoch a w else w
  match result.accessToken with
  | some accessToken =>
    if result.refreshToken ≠ none ∨ config.usesHttpOnlyCookie = true then
      setTokens config a w (accessToken.token born) (result.refreshToken.map (·.token born))
        result.user
    else setAccessToken config a w (accessToken.token born) result.user
  | none =>
    match result.user with
    | some user => setCurrentUser config a w (some user)
    | none => w

/-- `broadcastTokenRefreshed`; the nonce that wakes the followers in cookie transport carries
nothing. -/
def broadcastTokenRefreshed (accessToken : Token) (refreshToken : Option Token) : World τ :=
  if config.usesHttpOnlyCookie then
    if config.hasBroadcastChannel then postMessage a w .sessionRefreshed else w
  else if config.hasBroadcastChannel then
    match refreshToken with
    | some refreshToken => postMessage a w (.tokenRefreshed accessToken refreshToken)
    | none => w
  else setRefreshResult a w accessToken

/-- `consumeFallbackRefreshResult` of a result that is still fresh. -/
def consumeFallbackRefreshResult (accessToken : Token) : World τ :=
  if w.storage.refreshToken = none then w
  else
    updateUser config a
      (onTab a (removeRefreshResult a w) ({ · with accessToken := some accessToken })) accessToken

/-! ### Signing out -/

def clearTokensInternal (shouldBroadcast preserveRefreshLock : Bool) : World τ :=
  let w := onTab a w
    ({ · with accessToken := none, expectedCookieUserId := none, cachedUser := none })
  let w := removeRefreshToken a w
  let w := write a w (fun s => if preserveRefreshLock then s else { s with refreshLock := none }) none
  let w := putCookieSession a (removeRefreshResult a w) none
  if shouldBroadcast && config.hasBroadcastChannel then postMessage a w .signedOut else w

def signOut : World τ := { w with signOuts := w.signOuts + 1, resumed := false }

def clearTokens : World τ :=
  (clearTokensInternal config a (advanceAuthEpoch a w) true false).signOut

/-- `markPendingSignOut`, and `clearSessionForPendingSignOut`. -/
def signOutPending : World τ :=
  let w := if w.hasPendingSignOut config then w else advanceAuthEpoch a w
  let w := write a w ({ · with pendingSignOut := true }) none
  (clearTokensInternal config a w true true).signOut

def completePendingSignOut : World τ :=
  write a (removeRefreshToken a w) ({ · with pendingSignOut := false }) none

/-! ### What the other tabs tell -/

/-- `handleCookieSessionMarkerChange`; the revalidation that it schedules is a refresh. -/
def handleCookieSessionMarkerChange (offline : Bool) (marker : Option String) : World τ :=
  if !config.usesHttpOnlyCookie then w
  else if w.hasPendingSignOut config then
    onTab a w ({ · with accessToken := none, cachedUser := none })
  else
    match marker.filter (· ≠ "") with
    | none => onTab a w
        ({ · with accessToken := none, expectedCookieUserId := none, cachedUser := none })
    | some user =>
      match (w.tabs a).cachedUser with
      | some cached =>
        if cached = user then w
        else onTab a (advanceAuthEpoch a w)
          ({ · with accessToken := none, expectedCookieUserId := some user, cachedUser := none })
      | none =>
        if offline then onTab a w ({ · with accessToken := none, cachedUser := some user })
        else onTab a w ({ · with accessToken := none, expectedCookieUserId := some user })

def promoteCookieSessionMarkerUser : World τ :=
  if config.usesHttpOnlyCookie then
    onTab a w fun t =>
      { t with cachedUser := t.cachedUser.or (w.storage.cookieSession.filter (· ≠ "")) }
  else w

/-- A tab takes the tokens that another has broadcast. -/
def receiveTokens (accessToken refreshToken : Token) : World τ :=
  updateUser config a
    (setRefreshToken a (onTab a w ({ · with accessToken := some accessToken })) refreshToken)
    accessToken

def onmessage (offline : Bool) : Message → World τ
  | .sessionRefreshed =>
    if w.hasPendingSignOut config then w
    else handleCookieSessionMarkerChange config a w offline w.storage.cookieSession
  | .tokenRefreshed accessToken refreshToken =>
    if config.usesHttpOnlyCookie then w else receiveTokens config a w accessToken refreshToken
  | .signedOut =>
    clearTokensInternal config a
      (onTab a w fun t => { t with authEpoch := max t.authEpoch w.storage.authEpoch }) false
      (w.hasPendingSignOut config)

def onstorage (offline fresh : Bool) : StorageEvent → World τ
  | .authEpoch => onTab a w fun t => { t with authEpoch := max t.authEpoch w.storage.authEpoch }
  | .cookieSession marker => handleCookieSessionMarkerChange config a w offline marker
  | .refreshToken none =>
    if config.usesHttpOnlyCookie then w
    else onTab a w ({ · with accessToken := none, cachedUser := none })
  | .refreshToken (some _) => w
  | .refreshResult (some accessToken) =>
    if config.usesHttpOnlyCookie || !fresh then w
    else consumeFallbackRefreshResult config a w accessToken
  | .refreshResult none => w

end World

end Sdk

end EdgeBase
