import EdgeBase.Lib.Handlers
import EdgeBase.Lib.TimerLog
import EdgeBase.Rooms.Handlers

/-!
# The deadlines of a room

A room has one alarm.  Named timers, sockets that have to authenticate, players that may reconnect,
the save of the state, the cleanup of the empty room, the time to live of the state and the check of
the heartbeats all wait for it.

* `RoomRuntime` : the deadlines in memory and in the storage, and the alarm.
* `RoomRuntime.exec` : what the sections of the handlers do.
* `machine` : the upgrades, messages, closes, alarms and calls of the server API.
-/

namespace EdgeBase

namespace Rooms

namespace Deadlines

structure Settings extends Rooms.Settings where
  authTimeout : ℤ := 5000
  stateSaveInterval : ℤ := 60000
  socketStaleTimeout : ℤ := 45000
  idleTimeout : ℤ := 300000

/-- `getSocketHeartbeatCheckIntervalMs`. -/
def Settings.heartbeatCheckInterval (env : Settings) : ℤ :=
  max 2000 (min 15000 (env.socketStaleTimeout / 2))

structure Socket where
  connectionId : String
  userId : Option String := none
  authenticated : Bool := false
  /-- Neither side has closed it. -/
  isOpen : Bool := true
  lastSeenAt : ℤ
  deriving DecidableEq

/-- A named timer, and the call of `setTimer` that has set it. -/
structure Timer where
  fireAt : ℤ
  call : ℕ
  deriving DecidableEq

/-- `PersistedRoomEphemeralTimers`. -/
structure Ephemeral where
  pendingAuth : List (String × ℤ) := []
  disconnects : List (String × PendingDisconnectDeadline) := []
  stateSaveAt : Option ℤ := none
  emptyRoomCleanupAt : Option ℤ := none
  stateTTLAlarmAt : Option ℤ := none
  deriving DecidableEq

inductive Message where
  | auth (userId : String)
  | leave
  | other
  deriving DecidableEq

/-- What a wait returns: for a token or a session, whether it is valid. -/
inductive Outcome where
  | ok | failed | unavailable
  deriving DecidableEq, Inhabited

abbrev Report : Type := TimerLog.Event String Timer

inductive Section where
  | receive (connectionId : String) (message : Message)
  /-- `handleAuth`, with the token resolved; the user of the socket before. -/
  | authenticate (connectionId userId : String) (before : Option String)
  /-- The end of `handleAuth`. -/
  | recoverStateIfNeeded
  /-- A message, with the session of its socket looked up. -/
  | authorized (connectionId : String) (message : Message)
  /-- The end of `handleExplicitLeave`. -/
  | closeLeaver (connectionId : String)
  | disconnect (connectionId : String) (code : CloseCode)
  /-- The end of `handleDisconnect`. -/
  | disconnected
  | kickPlayer (userId : String)
  /-- The end of `kickPlayer`. -/
  | closeKicked (connectionIds : List String)
  | finalizePlayerLeave (userId : String)
  /-- `finalizePlayerLeave` after `onLeave`. -/
  | forgetPlayer (userId : String)
  /-- `handleRoomEmpty` after `onDestroy`. -/
  | roomDestroyed
  /-- The end of `finalizePlayerLeave`, with the hooks of the members. -/
  | playerLeft
  | alarm
  /-- A timer that was due: the context of its handler is built. -/
  | fireTimer (name : String) (timer : Timer)
  | runTimer (name : String) (timer : Timer)
  /-- The alarm after the named timers. -/
  | timersFired (now : ℤ) (expired : Bool)
  /-- The alarm after the leaves. -/
  | cleanUp (now : ℤ) (expired : Bool)
  deriving DecidableEq

abbrev Next : Type := Handlers.Next Section

inductive Owner where
  | socket (connectionId : String)
  | alarm
  deriving DecidableEq

/-- The `roomState` of the storage. -/
structure SavedState where
  playerStates : List String
  hasState : Bool
  savedAt : ℤ
  deriving DecidableEq

structure RoomRuntime where
  sockets : List Socket := []
  players : List (String × String) := []
  playerStates : List String := []
  /-- The shared state or the server's own has properties. -/
  hasState : Bool := false
  hasMetadata : Bool := false
  roomCreated : Bool := false
  dirty : Bool := false
  stateRecoveryNeeded : Bool := false
  timers : List (String × Timer) := []
  pendingAuth : List (String × ℤ) := []
  disconnectTimers : List (String × PendingDisconnectDeadline) := []
  stateSaveAt : Option ℤ := none
  emptyRoomCleanupAt : Option ℤ := none
  stateTTLAlarmAt : Option ℤ := none
  socketHeartbeatCheckAt : Option ℤ := none
  /-- `_lastPersistedEphemeralBlob`. -/
  lastPersisted : Option Ephemeral := none
  saved : Option SavedState := none
  storedTimers : List (String × Timer) := []
  storedMetadata : Option Bool := none
  storedEphemeral : Ephemeral := {}
  alarmAt : Option ℤ := none
  /-- The connection ids that were drawn; they do not repeat. -/
  drawn : List String := []
  /-- The calls of `setTimer`. -/
  calls : ℕ := 0
  now : ℤ := 0
  history : List Report := []
  deriving DecidableEq

namespace RoomRuntime

variable (env : Settings) (s : RoomRuntime)

def socket (connectionId : String) : Option Socket :=
  s.sockets.find? (·.connectionId = connectionId)

/-- A connection of the user is in `players`. -/
def registered (userId : String) : Bool := s.players.any (·.2 = userId)

def mapSockets (p : Socket → Bool) (f : Socket → Socket) : RoomRuntime :=
  { s with sockets := s.sockets.map fun socket => if p socket then f socket else socket }

/-- `ws.close`. -/
def closeSockets (p : Socket → Bool) : RoomRuntime :=
  s.mapSockets p fun socket => { socket with isOpen := false }

def setWSMeta (connectionId : String) (f : Socket → Socket) : RoomRuntime :=
  s.mapSockets (·.connectionId = connectionId) f

def addPlayer (connectionId userId : String) : RoomRuntime :=
  { s with players := Assoc.set s.players connectionId userId }

/-- `players.delete`. -/
def removePlayers (connectionIds : List String) : RoomRuntime :=
  { s with players := s.players.filter fun p => !connectionIds.contains p.1 }

/-! ## The deadlines -/

/-- The deadlines that `_scheduleNextAlarm` looks at. -/
def deadlines : List ℤ :=
  s.timers.map (·.2.fireAt) ++ s.pendingAuth.map Prod.snd ++
    s.disconnectTimers.map (·.2.fireAt) ++ s.emptyRoomCleanupAt.toList ++ s.stateSaveAt.toList ++
      s.stateTTLAlarmAt.toList ++ s.socketHeartbeatCheckAt.toList

/-- `_scheduleNextAlarm`. -/
def scheduleNextAlarm : RoomRuntime :=
  match s.deadlines.min? with
  | some earliest => { s with alarmAt := some (max earliest (s.now + 1)) }
  | none => s

/-- What `syncEphemeralTimersToStorage` writes. -/
def ephemeral : Ephemeral where
  pendingAuth := s.pendingAuth
  disconnects := s.disconnectTimers
  stateSaveAt := s.stateSaveAt
  emptyRoomCleanupAt := s.emptyRoomCleanupAt
  stateTTLAlarmAt := s.stateTTLAlarmAt

def syncEphemeralTimersToStorage : RoomRuntime :=
  if s.lastPersisted = some s.ephemeral then s
  else { s with storedEphemeral := s.ephemeral, lastPersisted := some s.ephemeral }

def deleteStorage : RoomRuntime :=
  { s with saved := none, storedTimers := [], storedMetadata := none, storedEphemeral := {} }

/-- `pendingAuth.delete`. -/
def deletePendingAuth (connectionId : String) : RoomRuntime :=
  if s.pendingAuth.any (·.1 = connectionId) then
    { s with pendingAuth := s.pendingAuth.filter (·.1 ≠ connectionId) }
      |>.syncEphemeralTimersToStorage |>.scheduleNextAlarm
  else s

/-- `disconnectTimers.delete`. -/
def deleteTimer (userId : String) : RoomRuntime :=
  if s.disconnectTimers.any (·.1 = userId) then
    { s with disconnectTimers := s.disconnectTimers.filter (·.1 ≠ userId) }
      |>.syncEphemeralTimersToStorage |>.scheduleNextAlarm
  else s

def scheduleEmptyRoomCleanup : RoomRuntime :=
  { s with emptyRoomCleanupAt := some (s.now + env.emptyRoomCleanupDelay) }
    |>.syncEphemeralTimersToStorage |>.scheduleNextAlarm

def scheduleIfEmpty : RoomRuntime :=
  if s.players = [] ∧ s.disconnectTimers = [] then s.scheduleEmptyRoomCleanup env else s

def ensureSocketHeartbeatCheckScheduled : RoomRuntime :=
  let nextCheckAt := s.now + env.heartbeatCheckInterval
  if s.sockets = [] then { s with socketHeartbeatCheckAt := none }
  else if s.socketHeartbeatCheckAt.all (nextCheckAt < ·) then
    { s with socketHeartbeatCheckAt := some nextCheckAt } |>.scheduleNextAlarm
  else s

def markDirty : RoomRuntime :=
  let s : RoomRuntime := { s with dirty := true }
  match s.stateSaveAt with
  | none =>
    { s with stateSaveAt := some (s.now + env.stateSaveInterval) }
      |>.syncEphemeralTimersToStorage |>.scheduleNextAlarm
  | some _ => s.scheduleNextAlarm

def persistState : RoomRuntime :=
  { s with
    saved := some ⟨s.playerStates, s.hasState, s.now⟩
    storedTimers := s.timers
    dirty := false
    stateSaveAt := none
    stateTTLAlarmAt := some (s.now + env.stateTTL) }
    |>.syncEphemeralTimersToStorage |>.scheduleNextAlarm

def recoverFromStorage : RoomRuntime :=
  let s : RoomRuntime :=
    match s.saved with
    | some saved =>
      if s.now - saved.savedAt < env.stateTTL then
        { s with playerStates := saved.playerStates, hasState := saved.hasState }
      else { s with saved := none, storedTimers := [] }
    | none => { s with storedTimers := [] }
  { s with
    timers := if s.storedTimers = [] then s.timers else s.storedTimers
    hasMetadata := s.storedMetadata.getD s.hasMetadata
    pendingAuth := s.storedEphemeral.pendingAuth
    disconnectTimers := s.storedEphemeral.disconnects
    stateSaveAt := s.storedEphemeral.stateSaveAt
    emptyRoomCleanupAt := s.storedEphemeral.emptyRoomCleanupAt
    stateTTLAlarmAt := s.storedEphemeral.stateTTLAlarmAt
    socketHeartbeatCheckAt := none }
    |>.scheduleNextAlarm

/-- The connections of the sockets that have authenticated, with their users. -/
def authenticatedPlayers (sockets : List Socket) : List (String × String) :=
  sockets.filterMap fun socket =>
    if socket.authenticated then socket.userId.map fun userId => (socket.connectionId, userId)
    else none

def recoverRuntimeStateFromSockets : RoomRuntime :=
  let players := authenticatedPlayers s.sockets
  let isPlayer (connectionId : String) : Bool := players.any (·.1 = connectionId)
  let s : RoomRuntime := { s with players := players }
  let s :=
    if s.pendingAuth.any fun p => isPlayer p.1 then
      { s with pendingAuth := s.pendingAuth.filter fun p => !isPlayer p.1 }
        |>.syncEphemeralTimersToStorage |>.scheduleNextAlarm
    else s
  s.ensureSocketHeartbeatCheckScheduled env

def recover : RoomRuntime :=
  { (s.recoverFromStorage env).recoverRuntimeStateFromSockets env with
    stateRecoveryNeeded := false }

/-- The storage is read while no other handler runs. -/
def recoverStateIfNeeded : RoomRuntime := if s.stateRecoveryNeeded then s.recover env else s

def shouldRecoverBeforeAlarm : Bool :=
  s.stateRecoveryNeeded ||
    (s.sockets = [] && !s.roomCreated && !s.hasState && s.playerStates = [] && s.players = [] &&
      s.pendingAuth = [] && s.disconnectTimers = [] && s.timers = [] && s.stateSaveAt = none &&
      s.emptyRoomCleanupAt = none && s.stateTTLAlarmAt = none && !s.hasMetadata)

/-! ## What the sections do -/

/-- A message, up to its first await but for the recovery. -/
def receive (connectionId : String) (message : Message) : RoomRuntime × Next :=
  match s.socket connectionId with
  | none => (s, .run [])
  | some socket =>
    let s := s.setWSMeta connectionId fun socket => { socket with lastSeenAt := s.now }
    match message with
    | .auth userId =>
      let before := if socket.authenticated then socket.userId else none
      (s, .await [.authenticate connectionId userId before])
    | message =>
      (s, if socket.authenticated then .await [.authorized connectionId message] else .run [])

/-- `handleAuth`, with a valid token.  A socket keeps its first user. -/
def authenticate (connectionId userId : String) (before : Option String) : RoomRuntime × Next :=
  if before.any (· ≠ userId) then (s, .run [])
  else
    let s := s.setWSMeta connectionId fun socket =>
      { socket with authenticated := true, userId := some userId, lastSeenAt := s.now }
    let s := s.deletePendingAuth connectionId
    (if before.isNone then (s.deleteTimer userId).addPlayer connectionId userId else s,
      .run [.recoverStateIfNeeded])

/-- `handleExplicitLeave`, up to its first await. -/
def handleExplicitLeave (connectionId : String) : RoomRuntime × Next :=
  match s.players.lookup connectionId with
  | none => (s.closeSockets (·.connectionId = connectionId), .run [])
  | some player =>
    let s := (s.removePlayers [connectionId]).deleteTimer player
    (s, .run (if s.registered player then [.closeLeaver connectionId]
      else [.finalizePlayerLeave player, .closeLeaver connectionId]))

def revokeLiveSession (connectionId : String) : RoomRuntime :=
  s.setWSMeta connectionId fun socket => { socket with authenticated := false, isOpen := false }

def startReconnectTimer (connectionId userId : String) : RoomRuntime :=
  { s with
    disconnectTimers := Assoc.set s.disconnectTimers userId
      ⟨s.now + env.reconnectTimeout, connectionId⟩ }
    |>.syncEphemeralTimersToStorage |>.scheduleNextAlarm

/-- `handleDisconnect`, up to its first await. -/
def handleDisconnect (connectionId : String) (code : CloseCode) : RoomRuntime × Next :=
  match s.players.lookup connectionId with
  | none => (s, .run [])
  | some player =>
    let s := s.removePlayers [connectionId]
    let leave : Next := .run [.finalizePlayerLeave player, .disconnected]
    if s.registered player then (s.scheduleIfEmpty env, .run [])
    else
      match code with
      | .kicked => (s.deleteTimer player, leave)
      | .clientLeave => (s.deleteTimer player, leave)
      | .other =>
        if 0 < env.reconnectTimeout then
          ((s.startReconnectTimer env connectionId player).scheduleIfEmpty env, .run [])
        else (s, leave)

/-- `webSocketClose`, up to the first await of `handleDisconnect`. -/
def webSocketClose (connectionId : String) (code : CloseCode) : RoomRuntime × Next :=
  let (s, next) := s.handleDisconnect env connectionId code
  ((s.deletePendingAuth connectionId).ensureSocketHeartbeatCheckScheduled env, next)

/-- `kickPlayer`, up to its first await. -/
def kickPlayer (userId : String) : RoomRuntime × Next :=
  let connections := (s.sockets.filter (·.userId = some userId)).map (·.connectionId)
  ((s.removePlayers connections).deleteTimer userId,
    .run (if connections = [] then [] else [.finalizePlayerLeave userId, .closeKicked connections]))

/-- `finalizePlayerLeave` after `onLeave`. -/
def forgetPlayer (userId : String) : RoomRuntime × Next :=
  ({ s with playerStates := s.playerStates.filter (· ≠ userId) },
    if s.players = [] ∧ s.disconnectTimers = [] then .await [.roomDestroyed, .playerLeft]
    else .run [.playerLeft])

/-- `handleRoomEmpty` after `onDestroy`. -/
def roomDestroyed : RoomRuntime :=
  { s with
    dirty := false
    stateSaveAt := none
    timers := []
    pendingAuth := []
    disconnectTimers := []
    hasMetadata := false }
    |>.deleteStorage |>.scheduleEmptyRoomCleanup env

/-- The sockets that have not authenticated in time are closed. -/
def expireAuth : RoomRuntime :=
  let expired := s.pendingAuth.filter (·.2 ≤ s.now)
  let s : RoomRuntime :=
    { s with pendingAuth := s.pendingAuth.filter fun p => ¬ p.2 ≤ s.now }.closeSockets fun socket =>
      expired.any (·.1 = socket.connectionId) && !socket.authenticated
  if expired = [] then s else s.syncEphemeralTimersToStorage

/-- `alarm`, up to the handlers of the timers that are due. -/
def alarm : RoomRuntime × Next :=
  let s := (if s.shouldRecoverBeforeAlarm then s.recover env else s).expireAuth
  let expiredTimers := s.timers.filter (·.2.fireAt ≤ s.now)
  ({ s with timers := s.timers.filter fun t => ¬ t.2.fireAt ≤ s.now },
    .run (expiredTimers.map (fun t => .fireTimer t.1 t.2) ++
      [.timersFired s.now (expiredTimers ≠ [])]))

/-- `alarm` after the named timers, up to the leaves. -/
def timersFired (now : ℤ) (expired : Bool) : RoomRuntime × Next :=
  let s := if expired then s.markDirty env else s
  let expiredDisconnects := s.disconnectTimers.filter (·.2.fireAt ≤ now)
  ({ s with disconnectTimers := s.disconnectTimers.filter fun t => ¬ t.2.fireAt ≤ now },
    .run (expiredDisconnects.map (fun t => .finalizePlayerLeave t.1) ++
      [.cleanUp now (expiredDisconnects ≠ [])]))

def cleanUpRoom : RoomRuntime :=
  if s.hasState ∨ s.playerStates ≠ [] then
    { s with
      hasState := false
      playerStates := []
      roomCreated := false
      timers := []
      hasMetadata := false
      pendingAuth := []
      disconnectTimers := []
      dirty := false
      stateSaveAt := none
      stateTTLAlarmAt := some (s.now + env.idleTimeout) }
      |>.deleteStorage |>.syncEphemeralTimersToStorage
  else
    { s with dirty := false, stateSaveAt := none, stateTTLAlarmAt := none } |>.deleteStorage

def cleanUpIfDue (now : ℤ) : RoomRuntime :=
  if s.emptyRoomCleanupAt.any (· ≤ now) then
    let s : RoomRuntime := { s with emptyRoomCleanupAt := none }
    (if s.players = [] then s.cleanUpRoom env else s).syncEphemeralTimersToStorage
  else s

def saveIfDue (now : ℤ) : RoomRuntime :=
  if s.stateSaveAt.any (· ≤ now) then
    let s : RoomRuntime := { s with stateSaveAt := none }
    (if s.dirty then s.persistState env else s).syncEphemeralTimersToStorage
  else s

/-- The safety net of the state's time to live. -/
def expireStateIfDue (now : ℤ) : RoomRuntime :=
  if s.stateTTLAlarmAt.any (· ≤ now) then
    let s : RoomRuntime := { s with stateTTLAlarmAt := none }
    (if s.players = [] then s.deleteStorage else s).syncEphemeralTimersToStorage
  else s

def checkHeartbeatsIfDue (now : ℤ) : RoomRuntime :=
  if s.socketHeartbeatCheckAt.any (· ≤ now) then
    { s with socketHeartbeatCheckAt := none }
      |>.closeSockets (fun socket =>
        socket.authenticated && socket.lastSeenAt ≤ now - env.socketStaleTimeout)
      |>.ensureSocketHeartbeatCheckScheduled env
      |>.syncEphemeralTimersToStorage
  else s

/-- The phases of `alarm` after the leaves. -/
def cleanUp (now : ℤ) (expired : Bool) : RoomRuntime :=
  (if expired then s.syncEphemeralTimersToStorage else s)
    |>.cleanUpIfDue env now
    |>.saveIfDue env now
    |>.expireStateIfDue now
    |>.checkHeartbeatsIfDue env now
    |>.scheduleNextAlarm

def exec (outcome : Outcome) : Section → RoomRuntime × Next
  | .receive connectionId message => (s.recoverStateIfNeeded env).receive connectionId message
  | .authenticate connectionId userId before =>
    match outcome with
    | .ok => s.authenticate connectionId userId before
    | .failed =>
      (if before.isNone then s.closeSockets (·.connectionId = connectionId) else s, .run [])
    | .unavailable => (s, .run [])
  | .recoverStateIfNeeded => (s.recoverStateIfNeeded env, .run [])
  | .authorized connectionId message =>
    match outcome with
    | .ok => if message = .leave then s.handleExplicitLeave connectionId else (s, .run [])
    | .failed => (s.revokeLiveSession connectionId, .run [])
    | .unavailable => (s, .run [])
  | .closeLeaver connectionId =>
    ((s.scheduleIfEmpty env).closeSockets (·.connectionId = connectionId), .run [])
  | .disconnect connectionId code => s.webSocketClose env connectionId code
  | .disconnected => (s.scheduleIfEmpty env, .run [])
  | .kickPlayer userId => s.kickPlayer userId
  | .closeKicked connectionIds =>
    (s.closeSockets fun socket => connectionIds.contains socket.connectionId, .run [])
  | .finalizePlayerLeave userId => (s, .await [.forgetPlayer userId])
  | .forgetPlayer userId => s.forgetPlayer userId
  | .roomDestroyed => (s.roomDestroyed env, .run [])
  | .playerLeft => (s, .await [])
  | .alarm => s.alarm env
  | .fireTimer name timer => (s, .await [.runTimer name timer])
  | .runTimer name timer => ({ s with history := s.history ++ [.fire name timer] }, .await [])
  | .timersFired now expired => s.timersFired env now expired
  | .cleanUp now expired => (s.cleanUp env now expired, .run [])

end RoomRuntime

/-! ## Events -/

inductive RoomEvent where
  | upgrade (connectionId : String)
  | message (connectionId : String) (message : Message)
  | close (connectionId : String) (code : CloseCode)
  /-- The runtime closes a socket. -/
  | drop (connectionId : String)
  | kick (userId : String)
  | alarm
  /-- A join has passed its hooks. -/
  | enter (userId : String)
  | setSharedState (hasState : Bool)
  | setPlayerState (userId : String)
  /-- A change of the state that is reverted, as the state would be too large. -/
  | rejectState
  | setMetadata (hasMetadata : Bool)
  | saveState
  | setTimer (name : String) (ms : ℕ)
  | clearTimer (name : String)
  | tick (ms : ℕ)
  deriving DecidableEq

namespace RoomRuntime

variable (env : Settings) (s : RoomRuntime)

/-- `ctx.acceptWebSocket`. -/
def acceptWebSocket (connectionId : String) : RoomRuntime :=
  { s with
    sockets := s.sockets ++ [{ connectionId, lastSeenAt := s.now }]
    drawn := s.drawn ++ [connectionId] }

/-- `handleWebSocketUpgrade`. -/
def upgrade (connectionId : String) : RoomRuntime :=
  if s.drawn.contains connectionId ∨ env.maxPlayers ≤ s.players.length then s
  else
    let s := (s.acceptWebSocket connectionId).ensureSocketHeartbeatCheckScheduled env
    { s with pendingAuth := Assoc.set s.pendingAuth connectionId (s.now + env.authTimeout) }
      |>.syncEphemeralTimersToStorage |>.scheduleNextAlarm

/-- The calls of the server API.  It is handed out once the state has been recovered. -/
def call : RoomEvent → RoomRuntime
  | .enter userId =>
    { s with
      roomCreated := true
      playerStates := if s.playerStates.contains userId then s.playerStates
        else s.playerStates ++ [userId] }
  | .setSharedState hasState => { s with hasState := hasState }.markDirty env
  | .setPlayerState userId =>
    { s with
      playerStates := if s.playerStates.contains userId then s.playerStates
        else s.playerStates ++ [userId] }.markDirty env
  | .rejectState =>
    { s.markDirty env with dirty := s.dirty, stateSaveAt := s.stateSaveAt }
      |>.syncEphemeralTimersToStorage |>.scheduleNextAlarm
  | .setMetadata hasMetadata =>
    { s with hasMetadata := hasMetadata, storedMetadata := some hasMetadata }
  | .saveState => s.persistState env
  | .setTimer name ms =>
    let timer : Timer := ⟨s.now + ms, s.calls⟩
    { s with
      timers := Assoc.set s.timers name timer
      calls := s.calls + 1
      history := s.history ++ [TimerLog.Event.set name timer] }
      |>.markDirty env |>.scheduleNextAlarm
  | .clearTimer name =>
    { s with
      timers := s.timers.filter (·.1 ≠ name)
      history := s.history ++ [TimerLog.Event.clear name] }.scheduleNextAlarm
  | _ => s

def handle : RoomEvent → RoomRuntime × Option (Handlers.Task Owner Section)
  | .upgrade connectionId => (s.upgrade env connectionId, none)
  | .message connectionId message =>
    (s, some ⟨some (.socket connectionId), [.receive connectionId message]⟩)
  | .close connectionId code =>
    match s.socket connectionId with
    | some _ =>
      ({ s with sockets := s.sockets.filter (·.connectionId ≠ connectionId) },
        some ⟨none, [.disconnect connectionId code]⟩)
    | none => (s, none)
  | .drop connectionId => (s.closeSockets (·.connectionId = connectionId), none)
  | .kick userId =>
    (s, if s.stateRecoveryNeeded then none else some ⟨none, [.kickPlayer userId]⟩)
  | .alarm =>
    if s.alarmAt.any (· ≤ s.now) then
      ({ s with alarmAt := none }, some ⟨some .alarm, [.alarm]⟩)
    else (s, none)
  | .tick ms => ({ s with now := s.now + ms }, none)
  | e => (if s.stateRecoveryNeeded then s else s.call env e, none)

/-- The memory is lost: the room hibernates, or is evicted. -/
def hibernate : RoomRuntime where
  sockets := s.sockets
  stateRecoveryNeeded := s.sockets ≠ []
  saved := s.saved
  storedTimers := s.storedTimers
  storedMetadata := s.storedMetadata
  storedEphemeral := s.storedEphemeral
  alarmAt := s.alarmAt
  drawn := s.drawn
  calls := s.calls
  now := s.now
  history := s.history

end RoomRuntime

def machine (env : Settings) : Handlers.Machine RoomRuntime Owner Section RoomEvent Outcome where
  exec s outcome sec := s.exec env outcome sec
  handle s e := s.handle env e
  restart s := s.hibernate

abbrev Room : Type := Handlers.System RoomRuntime Owner Section Outcome

abbrev Step : Type := Handlers.Action RoomEvent Outcome

/-- A room with no sockets, and nothing in the storage. -/
def init : Room where
  state := {}
  returned := .ok

def step (env : Settings) (s : Room) (a : Step) : Room := s.step (machine env) a

/-- Steps, each with the handler that it starts up to the next await. -/
def script (as : List Step) : List Step := as.flatMap fun a => a :: List.replicate 4 .proceed

def arriving (connectionId userId : String) : List Step :=
  script [.event (.upgrade connectionId), .event (.message connectionId (.auth userId)),
    .resume 0 .ok]

end Deadlines

end Rooms

end EdgeBase
