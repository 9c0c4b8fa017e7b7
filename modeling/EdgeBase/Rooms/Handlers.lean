import EdgeBase.Lib.Assoc
import EdgeBase.Lib.Runs
import Mathlib.Algebra.Order.Ring.Int

/-!
# The handlers of a room

A room holds sockets, the players on them, the members that have joined, and the deadlines of those
that may reconnect.  Its handlers await hooks of the application; while one waits, others run.  A
handler is a list of sections, each of which runs at once up to the next await.

* `RoomsDO` : the sockets, what is in memory and in the storage, and the handlers that wait.
* `RoomsDO.exec` : what each section does, and what comes next.
-/

namespace EdgeBase

namespace Rooms

structure Settings where
  maxPlayers : ℕ := 100
  reconnectTimeout : ℤ := 30000
  stateTTL : ℤ := 86400000
  emptyRoomCleanupDelay : ℤ := 100

structure Socket where
  connectionId : String
  userId : Option String := none
  /-- Neither side has closed it. -/
  isOpen : Bool := true
  /-- `joined` of the attachment. -/
  joined : Bool := false
  deriving DecidableEq

/-- `PendingDisconnectDeadline`. -/
structure PendingDisconnectDeadline where
  fireAt : ℤ
  connectionId : String
  deriving DecidableEq

inductive LeaveReason where
  | leave | disconnect | kicked
  deriving DecidableEq

/-- The codes of a close that `webSocketClose` tells apart. -/
inductive CloseCode where
  /-- 4004. -/
  | kicked
  /-- 4005. -/
  | clientLeave
  | other
  deriving DecidableEq

inductive Message where
  /-- With a token that is accepted as one of this user. -/
  | auth (userId : String)
  | join
  | leave
  | send
  | memberState
  deriving DecidableEq

/-- The frames that carry the state or the messages of a room. -/
inductive FrameType where
  | sync | sharedDelta | playerDelta | message | membersSync
  deriving DecidableEq

inductive Report where
  /-- A user is present who was not before. -/
  | present (userId : String)
  | onCreate
  | accepted (userId : String)
  /-- An admin's `block` has succeeded. -/
  | blocked (userId : String)
  | onLeave (userId : String)
  | onDestroy
  | cleanedUp
  | hibernated
  /-- A frame is sent on a socket of the user. -/
  | frame (userId : String) (type : FrameType)
  | action (userId : String)
  deriving DecidableEq

inductive Section where
  | recoverStateIfNeeded
  | receive (connectionId : String) (message : Message)
  /-- `handleAuth`, with the token resolved; the user of the socket before. -/
  | authenticate (connectionId userId : String) (before : Option String)
  /-- `handleJoin`, with the verdict of the access rule. -/
  | create (connectionId userId : String) (hadMember wasReconnecting : Bool)
  /-- `handleJoin` calls `onJoin`. -/
  | greet (connectionId userId : String) (hadMember wasReconnecting : Bool)
  /-- `handleJoin`, with the verdict of `onJoin`. -/
  | letIn (connectionId userId : String) (hadMember wasReconnecting : Bool)
  /-- `handleJoin` after `members.onJoin`. -/
  | welcome (connectionId userId : String) (wasReconnecting : Bool)
  /-- `handleJoin` after `session.onReconnect`. -/
  | refreshAttachments (userId : String)
  /-- `handleSend`, with the verdict of the access rule. -/
  | runAction (userId : String)
  /-- `handleSend` after the handler of the action. -/
  | flush
  /-- The end of `handleExplicitLeave`. -/
  | closeLeaver (connectionId userId : String) (wasJoined : Bool)
  | disconnect (connectionId userId : String) (code : CloseCode)
  /-- The end of `handleDisconnect`. -/
  | disconnected (connectionId userId : String) (wasJoined : Bool)
  /-- The `block` of `handleAdmin`, up to `kickPlayer`. -/
  | block (userId : String)
  | blocked (userId : String)
  | kickPlayer (userId : String)
  /-- The end of `kickPlayer`. -/
  | closeKicked (connectionIds : List String)
  | finalizePlayerLeave (userId : String) (reason : LeaveReason)
  /-- `finalizePlayerLeave` after `onLeave`. -/
  | forgetPlayer (userId : String) (reason : LeaveReason) (wasMember : Bool)
  /-- `handleRoomEmpty` after `onDestroy`. -/
  | roomDestroyed (userId : String) (reason : LeaveReason) (wasMember : Bool)
  /-- The override of `finalizePlayerLeave`, once the base has returned. -/
  | leaveMember (userId : String) (reason : LeaveReason) (wasMember : Bool)
  | deleteMember (userId : String)
  /-- The end of `finalizePlayerLeave`. -/
  | memberLeft
  | recoverBeforeAlarm
  | alarm
  /-- The alarm after the leaves. -/
  | cleanUp (now : ℤ) (expired : Bool)
  deriving DecidableEq

/-- What follows a section: other sections at once, or after a hook has returned. -/
inductive Next where
  | run (sections : List Section)
  | await (sections : List Section)
  deriving DecidableEq

/-- Whose turn a handler is: a socket takes one message after the other, and there is one alarm. -/
inductive Owner where
  | socket (connectionId : String)
  | alarm
  | api
  deriving DecidableEq

/-- A handler that waits, or runs: what it has still to do. -/
structure Task where
  owner : Owner
  sections : List Section
  deriving DecidableEq

/-- The `roomState` of the storage: the players with a state, and whether there is any other. -/
structure SavedPlayers where
  playerStates : List String
  hasState : Bool
  savedAt : ℤ
  deriving DecidableEq

structure RoomsDO where
  sockets : List Socket := []
  /-- The connections with their users; `userToConnections` is this map read backwards. -/
  players : List (String × String) := []
  playerStates : List String := []
  joinedConnectionIds : List String := []
  /-- The users with an entry, and the connections of each. -/
  members : List (String × List String) := []
  blockedMembers : List String := []
  disconnectTimers : List (String × PendingDisconnectDeadline) := []
  roomCreated : Bool := false
  emptyRoomCleanupAt : Option ℤ := none
  stateRecoveryNeeded : Bool := false
  /-- The shared state or the server's own has properties. -/
  hasState : Bool := false
  pendingSharedDelta : Bool := false
  saved : Option SavedPlayers := none
  storedTimers : List (String × PendingDisconnectDeadline) := []
  storedCleanupAt : Option ℤ := none
  tasks : List Task := []
  running : Task := ⟨.api, []⟩
  /-- What the hook that it waited for has returned. -/
  verdict : Bool := true
  /-- The connection ids that were drawn; they do not repeat. -/
  drawn : List String := []
  now : ℤ := 0
  history : List Report := []
  deriving DecidableEq

namespace RoomsDO

variable (env : Settings) (s : RoomsDO)

def socket (connectionId : String) : Option Socket :=
  s.sockets.find? (·.connectionId = connectionId)

/-- A connection of the user is in `players`. -/
def registered (userId : String) : Bool := s.players.any (·.2 = userId)

/-- The user has an entry in `disconnectTimers`. -/
def waiting (userId : String) : Bool := s.disconnectTimers.any (·.1 = userId)

/-- The user has an entry in `members`. -/
def isMember (userId : String) : Bool := s.members.any (·.1 = userId)

def connectionsOf (userId : String) : List String := (s.members.lookup userId).getD []

@[simps] def report (r : Report) : RoomsDO := { s with history := s.history ++ [r] }

/-- A frame is sent on open sockets of users. -/
@[simps] def sendFrame (type : FrameType) (p : Socket → String → Bool) : RoomsDO :=
  { s with
    history := s.history ++ s.sockets.filterMap fun socket =>
      match socket.userId with
      | some userId => if socket.isOpen && p socket userId then some (.frame userId type) else none
      | none => none }

/-- `ws.close`. -/
@[simps] def closeSockets (connectionIds : List String) : RoomsDO :=
  { s with
    sockets := s.sockets.map fun socket =>
      if connectionIds.contains socket.connectionId then { socket with isOpen := false }
      else socket }

/-- `setWSMeta` writes the attachments of some sockets. -/
@[simps] def writeAttachments (p : Socket → Bool) : RoomsDO :=
  { s with
    sockets := s.sockets.map fun socket =>
      if p socket then
        { socket with joined := s.joinedConnectionIds.contains socket.connectionId }
      else socket }

@[simps] def syncEphemeralTimersToStorage : RoomsDO :=
  { s with storedTimers := s.disconnectTimers, storedCleanupAt := s.emptyRoomCleanupAt }

def scheduleEmptyRoomCleanup : RoomsDO :=
  { s with emptyRoomCleanupAt := some (s.now + env.emptyRoomCleanupDelay) }
    |>.syncEphemeralTimersToStorage

def scheduleIfEmpty : RoomsDO :=
  if s.players = [] ∧ s.disconnectTimers = [] then s.scheduleEmptyRoomCleanup env else s

def deleteTimer (userId : String) : RoomsDO :=
  if s.waiting userId then
    { s with disconnectTimers := s.disconnectTimers.filter (·.1 ≠ userId) }
      |>.syncEphemeralTimersToStorage
  else s

/-- Takes connections out of `players`. -/
@[simps] def removePlayers (connectionIds : List String) : RoomsDO :=
  { s with players := s.players.filter fun p => !connectionIds.contains p.1 }

/-- `broadcastToAuthenticated` of the shared delta that waits. -/
def flushSharedDelta : RoomsDO :=
  if s.pendingSharedDelta then
    { s.sendFrame .sharedDelta fun _ _ => true with pendingSharedDelta := false }
  else s

def broadcastMembersSync : RoomsDO :=
  s.sendFrame .membersSync fun socket _ => s.joinedConnectionIds.contains socket.connectionId

def removeMemberConnection (userId connectionId : String) : RoomsDO :=
  { s with
    joinedConnectionIds := s.joinedConnectionIds.filter (· ≠ connectionId)
    members := s.members.map fun m =>
      if m.1 = userId then (m.1, m.2.filter (· ≠ connectionId)) else m }

/-- What follows when a connection of a member is removed, in `handleExplicitLeave` and
`handleDisconnect`. -/
def memberDisconnected (userId connectionId : String) : RoomsDO :=
  let s := s.removeMemberConnection userId connectionId
  if s.isMember userId then
    (s.writeAttachments (·.userId = some userId)).broadcastMembersSync
  else s

def attachedMembers (sockets : List Socket) : List (String × List String) :=
  sockets.foldl (fun members socket =>
    match socket.userId with
    | some userId =>
      if socket.joined then
        Assoc.set members userId ((members.lookup userId).getD [] ++ [socket.connectionId])
      else members
    | none => members) []

/-- `recoverFromStorage` and `recoverRuntimeStateFromSockets`. -/
def recover : RoomsDO :=
  let s :=
    match s.saved with
    | some saved =>
      if s.now - saved.savedAt < env.stateTTL then
        { s with playerStates := saved.playerStates, hasState := saved.hasState }
      else { s with saved := none }
    | none => s
  { s with
    disconnectTimers := s.storedTimers
    emptyRoomCleanupAt := s.storedCleanupAt
    players := s.sockets.filterMap fun socket =>
      socket.userId.map fun userId => (socket.connectionId, userId)
    joinedConnectionIds :=
      (s.sockets.filter fun socket => socket.userId.isSome && socket.joined).map (·.connectionId)
    members := attachedMembers s.sockets
    blockedMembers := []
    stateRecoveryNeeded := false }

def shouldRecoverBeforeAlarm : Bool :=
  s.stateRecoveryNeeded ||
    (s.sockets = [] && !s.roomCreated && !s.hasState && s.playerStates = [] && s.players = [] &&
      s.disconnectTimers = [] && s.emptyRoomCleanupAt = none)

/-! ## What the sections do -/

/-- `handleExplicitLeave`, up to its first await. -/
def handleExplicitLeave (connectionId userId : String) : RoomsDO × Next :=
  let wasJoined := s.joinedConnectionIds.contains connectionId
  match s.players.lookup connectionId with
  | none =>
    let s := s.closeSockets [connectionId]
    (if wasJoined then s.memberDisconnected userId connectionId else s, .run [])
  | some player =>
    let s := (s.removePlayers [connectionId]).deleteTimer player
    let leave := if s.registered player then [] else [.finalizePlayerLeave player .leave]
    (s, .run (leave ++ [.closeLeaver connectionId player wasJoined]))

/-- A message, up to its first await. -/
def receive (connectionId : String) (message : Message) : RoomsDO × Next :=
  match s.socket connectionId with
  | none => (s, .run [])
  | some socket =>
    let s := s.writeAttachments (·.connectionId = connectionId)
    match message, socket.userId with
    | .auth userId, before => (s, .await [.authenticate connectionId userId before])
    | .join, some userId =>
      if s.blockedMembers.contains userId then (s.closeSockets [connectionId], .run [])
      else
        let wasReconnecting := s.isMember userId && s.connectionsOf userId = []
        (s, .await [.create connectionId userId (s.isMember userId) wasReconnecting])
    | .leave, some userId => s.handleExplicitLeave connectionId userId
    | .send, some userId => (s, .await [.runAction userId])
    | .memberState, some userId =>
      (if s.joinedConnectionIds.contains connectionId then
        (s.writeAttachments (·.userId = some userId)).broadcastMembersSync
      else s, .run [])
    | _, none => (s, .run [])

/-- `handleAuth`, with the token resolved.  A socket keeps its first user. -/
def authenticate (connectionId userId : String) (before : Option String) : RoomsDO :=
  match before with
  | some user =>
    if user = userId then s.writeAttachments (·.connectionId = connectionId) else s
  | none =>
    let s := if s.registered userId || s.waiting userId then s else s.report (.present userId)
    let s := s.deleteTimer userId
    { s with
      sockets := s.sockets.map fun socket =>
        if socket.connectionId = connectionId then
          { socket with
            userId := some userId
            joined := s.joinedConnectionIds.contains connectionId }
        else socket
      players := Assoc.set s.players connectionId userId }

/-- `handleJoin` of the base after the hooks have let the player in. -/
def enter (connectionId userId : String) : RoomsDO :=
  { s with
    playerStates := if s.playerStates.contains userId then s.playerStates
      else s.playerStates ++ [userId] }
    |>.report (.accepted userId)
    |>.flushSharedDelta
    |>.sendFrame .sync fun socket _ => socket.connectionId = connectionId

/-- `handleJoin` after the hooks have let the player in. -/
def letIn (connectionId userId : String) (hadMember wasReconnecting : Bool) : RoomsDO × Next :=
  let s := s.enter connectionId userId
  if (s.socket connectionId).any (·.isOpen) then
    let s :=
      { s with
        joinedConnectionIds := s.joinedConnectionIds ++ [connectionId]
        members := Assoc.set s.members userId (s.connectionsOf userId ++ [connectionId]) }
    (s, if hadMember then .run [.welcome connectionId userId wasReconnecting]
      else .await [.welcome connectionId userId wasReconnecting])
  else (s, .run [])

/-- `handleDisconnect`, up to its first await. -/
def handleDisconnect (connectionId userId : String) (code : CloseCode) : RoomsDO × Next :=
  let wasJoined := s.joinedConnectionIds.contains connectionId && code ≠ .clientLeave
  match s.players.lookup connectionId with
  | none => (if wasJoined then s.memberDisconnected userId connectionId else s, .run [])
  | some player =>
    let s := s.removePlayers [connectionId]
    let tail := [Section.disconnected connectionId userId wasJoined]
    if s.registered player then (s, .run tail)
    else
      match code with
      | .kicked => (s.deleteTimer player, .run (.finalizePlayerLeave player .kicked :: tail))
      | .clientLeave => (s.deleteTimer player, .run (.finalizePlayerLeave player .leave :: tail))
      | .other =>
        if 0 < env.reconnectTimeout then
          ({ s with
              disconnectTimers := Assoc.set s.disconnectTimers player
                ⟨s.now + env.reconnectTimeout, connectionId⟩ }
            |>.syncEphemeralTimersToStorage, .run tail)
        else (s, .run (.finalizePlayerLeave player .disconnect :: tail))

/-- `kickPlayer`, up to its first await. -/
def kickPlayer (userId : String) : RoomsDO × Next :=
  let connections := (s.sockets.filter (·.userId = some userId)).map (·.connectionId)
  let s := (s.removePlayers connections).deleteTimer userId
  (s, .run (if connections = [] then []
    else [.finalizePlayerLeave userId .kicked, .closeKicked connections]))

/-- `finalizePlayerLeave` after `onLeave`. -/
def forgetPlayer (userId : String) (reason : LeaveReason) (wasMember : Bool) : RoomsDO × Next :=
  let s := { s with playerStates := s.playerStates.filter (· ≠ userId) }
  if s.players = [] ∧ s.disconnectTimers = [] then
    (s.report .onDestroy, .await [.roomDestroyed userId reason wasMember])
  else (s, .run [.leaveMember userId reason wasMember])

/-- `handleRoomEmpty` after `onDestroy`. -/
def roomDestroyed : RoomsDO :=
  { s with disconnectTimers := [], saved := none } |>.scheduleEmptyRoomCleanup env

def deleteMember (userId : String) : RoomsDO :=
  { s with
    joinedConnectionIds :=
      s.joinedConnectionIds.filter fun c => !(s.connectionsOf userId).contains c
    members := s.members.filter (·.1 ≠ userId) }

def alarm : RoomsDO × Next :=
  let expired := s.disconnectTimers.filter (·.2.fireAt ≤ s.now)
  ({ s with disconnectTimers := s.disconnectTimers.filter fun t => ¬ t.2.fireAt ≤ s.now },
    .run (expired.map (fun t => .finalizePlayerLeave t.1 .disconnect) ++
      [.cleanUp s.now (expired ≠ [])]))

def cleanUpRoom : RoomsDO :=
  let s : RoomsDO := { s.report .cleanedUp with saved := none }
  if s.hasState ∨ s.playerStates ≠ [] then
    { s with
      hasState := false
      playerStates := []
      roomCreated := false
      disconnectTimers := []
      pendingSharedDelta := false }
  else s

def cleanUp (now : ℤ) (expired : Bool) : RoomsDO :=
  let s := if expired then s.syncEphemeralTimersToStorage else s
  if s.emptyRoomCleanupAt.any (· ≤ now) then
    let s : RoomsDO := { s with emptyRoomCleanupAt := none }
    (if s.players = [] then s.cleanUpRoom else s).syncEphemeralTimersToStorage
  else s

def exec (ok : Bool) : Section → RoomsDO × Next
  | .recoverStateIfNeeded => (if s.stateRecoveryNeeded then s.recover env else s, .run [])
  | .receive connectionId message => s.receive connectionId message
  | .authenticate connectionId userId before => (s.authenticate connectionId userId before, .run [])
  | .create connectionId userId hadMember wasReconnecting =>
    if ok then
      if s.roomCreated then (s, .run [.greet connectionId userId hadMember wasReconnecting])
      else
        ({ s.report .onCreate with roomCreated := true },
          .await [.greet connectionId userId hadMember wasReconnecting])
    else (s.closeSockets [connectionId], .run [])
  | .greet connectionId userId hadMember wasReconnecting =>
    (s, .await [.letIn connectionId userId hadMember wasReconnecting])
  | .letIn connectionId userId hadMember wasReconnecting =>
    if ok then s.letIn connectionId userId hadMember wasReconnecting
    else (s.closeSockets [connectionId], .run [])
  | .welcome connectionId userId wasReconnecting =>
    let s := s.broadcastMembersSync.sendFrame .membersSync fun socket _ =>
      socket.connectionId = connectionId
    (s, if wasReconnecting then .await [.refreshAttachments userId]
      else .run [.refreshAttachments userId])
  | .refreshAttachments userId => (s.writeAttachments (·.userId = some userId), .run [])
  | .runAction userId => if ok then (s.report (.action userId), .await [.flush]) else (s, .run [])
  | .flush => (s.flushSharedDelta, .run [])
  | .closeLeaver connectionId userId wasJoined =>
    let s := (s.scheduleIfEmpty env).closeSockets [connectionId]
    (if wasJoined then s.memberDisconnected userId connectionId else s, .run [])
  | .disconnect connectionId userId code => s.handleDisconnect env connectionId userId code
  | .disconnected connectionId userId wasJoined =>
    let s := s.scheduleIfEmpty env
    (if wasJoined then s.memberDisconnected userId connectionId else s, .run [])
  | .block userId => ({ s with blockedMembers := s.blockedMembers ++ [userId] }, .run [])
  | .blocked userId => (s.report (.blocked userId), .run [])
  | .kickPlayer userId => s.kickPlayer userId
  | .closeKicked connectionIds => (s.closeSockets connectionIds, .run [])
  | .finalizePlayerLeave userId reason =>
    (s.report (.onLeave userId), .await [.forgetPlayer userId reason (s.isMember userId)])
  | .forgetPlayer userId reason wasMember => s.forgetPlayer userId reason wasMember
  | .roomDestroyed userId reason wasMember =>
    (s.roomDestroyed env, .run [.leaveMember userId reason wasMember])
  | .leaveMember userId reason wasMember =>
    (s, if !wasMember then .run []
      else if reason = .disconnect then .await [.deleteMember userId]
      else .run [.deleteMember userId])
  | .deleteMember userId => (s.deleteMember userId, .await [.memberLeft])
  | .memberLeft => (s.broadcastMembersSync, .run [])
  | .recoverBeforeAlarm => (if s.shouldRecoverBeforeAlarm then s.recover env else s, .run [])
  | .alarm => s.alarm
  | .cleanUp now expired => (s.cleanUp now expired, .run [])

end RoomsDO

/-! ## Steps -/

inductive RoomEvent where
  | connect (connectionId : String)
  | message (connectionId : String) (message : Message)
  | close (connectionId : String) (code : CloseCode)
  /-- The runtime closes a socket, for a reason that is not one of a handler. -/
  | drop (connectionId : String)
  | kick (userId : String)
  | block (userId : String)
  | alarm
  /-- A hook returns: a waiting handler goes on. -/
  | resume (n : ℕ) (ok : Bool)
  /-- The handler that runs executes its next section. -/
  | proceed
  | setSharedState (hasState : Bool)
  | setPlayerState (userId : String)
  | flush
  | sendMessage (exclude : List String)
  | sendMessageTo (userId : String)
  | saveState
  /-- The safety net of the state's time to live. -/
  | expireState
  | hibernate
  | tick (ms : ℕ)
  deriving DecidableEq

namespace RoomsDO

variable (env : Settings) (s : RoomsDO)

@[simps] def start (owner : Owner) (sections : List Section) : RoomsDO :=
  { s with running := ⟨owner, sections⟩, verdict := true }

def proceed : RoomsDO :=
  match s.running.sections with
  | [] => s
  | sec :: rest =>
    match s.exec env s.verdict sec with
    | (s', .run sections) => s'.start s.running.owner (sections ++ rest)
    | (s', .await sections) =>
      let waiting : Task := ⟨s.running.owner, sections ++ rest⟩
      { s' with tasks := s'.tasks ++ [waiting] }.start .api []

/-- A socket or the alarm has a handler that waits. -/
def busy (owner : Owner) : Bool := s.tasks.any (·.owner = owner)

def handle : RoomEvent → RoomsDO
  | .connect connectionId =>
    if s.drawn.contains connectionId ∨ env.maxPlayers ≤ s.players.length then s
    else
      { s with
        sockets := s.sockets ++ [{ connectionId }]
        drawn := s.drawn ++ [connectionId] }
  | .message connectionId message =>
    if s.busy (.socket connectionId) then s
    else s.start (.socket connectionId) [.recoverStateIfNeeded, .receive connectionId message]
  | .close connectionId code =>
    match s.socket connectionId with
    | some socket =>
      { s with sockets := s.sockets.filter (·.connectionId ≠ connectionId) }.start .api
        (socket.userId.toList.map fun userId => .disconnect connectionId userId code)
    | none => s
  | .drop connectionId => s.closeSockets [connectionId]
  | .kick userId => s.start .api [.recoverStateIfNeeded, .kickPlayer userId]
  | .block userId =>
    s.start .api [.recoverStateIfNeeded, .block userId, .kickPlayer userId, .blocked userId]
  | .alarm => if s.busy .alarm then s else s.start .alarm [.recoverBeforeAlarm, .alarm]
  | .resume n ok =>
    match s.tasks[n]? with
    | some task => { s with tasks := s.tasks.eraseIdx n, running := task, verdict := ok }
    | none => s
  | .proceed => s
  | .setSharedState hasState => { s with hasState := hasState, pendingSharedDelta := true }
  | .setPlayerState userId =>
    { s with
      playerStates := if s.playerStates.contains userId then s.playerStates
        else s.playerStates ++ [userId] }.sendFrame .playerDelta fun _ u => u = userId
  | .flush => s.flushSharedDelta
  | .sendMessage exclude => s.sendFrame .message fun _ u => !exclude.contains u
  | .sendMessageTo userId => s.sendFrame .message fun _ u => u = userId
  | .saveState => { s with saved := some ⟨s.playerStates, s.hasState, s.now⟩ }
  | .expireState =>
    if s.players = [] then { s with saved := none }.syncEphemeralTimersToStorage else s
  | .hibernate =>
    { sockets := s.sockets
      stateRecoveryNeeded := s.sockets ≠ []
      saved := s.saved
      storedTimers := s.storedTimers
      storedCleanupAt := s.storedCleanupAt
      drawn := s.drawn
      now := s.now
      history := s.history ++ [.hibernated] }
  | .tick ms => { s with now := s.now + ms }

def step (e : RoomEvent) : RoomsDO :=
  match s.running.sections with
  | [] => s.handle env e
  | _ :: _ => if e = .proceed then s.proceed env else s

end RoomsDO

/-! ## Scripts -/

/-- Events, each with the handler that it starts up to the next await. -/
def script (es : List RoomEvent) : List RoomEvent :=
  es.flatMap fun e => e :: List.replicate 6 .proceed

def joining (connectionId userId : String) : List RoomEvent :=
  script ([.connect connectionId, .message connectionId (.auth userId), .resume 0 true,
    .message connectionId .join] ++ List.replicate 4 (.resume 0 true))

end Rooms

end EdgeBase
