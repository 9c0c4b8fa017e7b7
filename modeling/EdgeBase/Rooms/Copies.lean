import EdgeBase.Rooms.State
import Mathlib.Data.List.Infix

/-!
# The copies of a room's state

Every client keeps a copy of the shared state and of its player's state.  The frame that answers its
join gives it both; from then on it applies the deltas that the room sends.

* `deepSet` : how a client applies one entry of a delta, whose key it reads as a path.
* `System.step` : updates, joins and flushes in any order.  A client has every frame as soon as it
  is sent.
-/

namespace EdgeBase

namespace Json

def index (key : String) : Option ℕ := key.toNat?.filter fun i => toString i = key

/-- `value[key] = v`.  An array has no other properties in a text than its items; one after its end
leaves holes. -/
def assign (value : Json) (key : String) (v : Json) : Json :=
  match value with
  | .obj fields => .obj (Assoc.set fields key v)
  | .arr items =>
    match index key with
    | some i =>
      if i < items.length then .arr (items.set i v)
      else .arr (items ++ List.replicate (i - items.length) .null ++ [v])
    | none => .arr items
  | value => value

/-- `delete value[key]`: an item of an array leaves a hole. -/
def delete (value : Json) (key : String) : Json :=
  match value with
  | .obj fields => .obj (Assoc.restrict (· ≠ key) fields)
  | .arr items =>
    match index key with
    | some i => .arr (items.set i .null)
    | none => .arr items
  | value => value

end Json

namespace Rooms

/-- `UNSAFE_KEYS`. -/
def unsafeKeys : List String := ["__proto__", "constructor", "prototype"]

/-- The loop of `deepSet` over the parts of a path. -/
def setAt (current : Json) (value : Json) : List String → Json
  | [] => current
  | [lastKey] => if value = .null then current.delete lastKey else current.assign lastKey value
  | key :: parts =>
    let child :=
      match current.get key with
      | some (.obj fields) => .obj fields
      | some (.arr items) => .arr items
      | _ => .obj []
    current.assign key (setAt child value parts)

/-- `path.split('.')`. -/
def pathParts (path : String) : List String := (path.toList.splitOn '.').map String.ofList

def deepSet (obj : Json) (path : String) (value : Json) : Json :=
  if (pathParts path).any unsafeKeys.contains then obj else setAt obj value (pathParts path)

def applyDelta (state : Json) (delta : Row) : Json :=
  (Json.obj delta).entries.foldl (fun state (path, value) => deepSet state path value) state

/-- A client on an authenticated connection, and its copy. -/
structure Client where
  connectionId : String
  userId : String
  /-- The client has applied the sync frame of its own join. -/
  synced : Bool := false
  sharedState : Json := .obj []
  sharedVersion : ℚ := 0
  playerState : Json := .obj []
  playerVersion : ℚ := 0
  deriving DecidableEq

namespace Client

variable (client : Client)

/-- `handleSync`. -/
def handleSync (room : Room) : Client :=
  { client with
    synced := true
    sharedState := room.sharedState
    sharedVersion := room.sharedVersion
    playerState := room.playerState client.userId
    playerVersion := room.playerVersion client.userId }

def handleSharedDelta (delta : Row) (version : ℚ) : Client :=
  { client with sharedState := applyDelta client.sharedState delta, sharedVersion := version }

def hearSharedDelta (pending : Option Row) (version : ℚ) : Client :=
  match pending with
  | some delta => client.handleSharedDelta delta version
  | none => client

def handlePlayerDelta (delta : Row) (version : ℚ) : Client :=
  { client with playerState := applyDelta client.playerState delta, playerVersion := version }

/-- The client after a frame, if there is one, for the connections of a user. -/
def hearPlayerDelta (frame : Option Room.PlayerDelta) : Client :=
  match frame with
  | some frame =>
    if client.userId = frame.userId then client.handlePlayerDelta frame.delta frame.version
    else client
  | none => client

theorem hearSharedDelta_eq (pending : Option Row) (version : ℚ) : ∃ state version',
    client.hearSharedDelta pending version =
      { client with sharedState := state, sharedVersion := version' } := by
  cases pending with
  | none => exact ⟨client.sharedState, client.sharedVersion, rfl⟩
  | some delta => exact ⟨_, _, rfl⟩

theorem hearSharedDelta_sharedVersion {pending : Option Row} (h : pending.isSome) (version : ℚ) :
    (client.hearSharedDelta pending version).sharedVersion = version := by
  obtain ⟨delta, rfl⟩ := Option.isSome_iff_exists.1 h
  rfl

@[simp] theorem hearSharedDelta_connectionId (pending : Option Row) (version : ℚ) :
    (client.hearSharedDelta pending version).connectionId = client.connectionId := by
  obtain ⟨_, _, heq⟩ := client.hearSharedDelta_eq pending version
  rw [heq]

@[simp] theorem hearSharedDelta_synced (pending : Option Row) (version : ℚ) :
    (client.hearSharedDelta pending version).synced = client.synced := by
  obtain ⟨_, _, heq⟩ := client.hearSharedDelta_eq pending version
  rw [heq]

section

variable (frame : Option Room.PlayerDelta)

theorem hearPlayerDelta_eq : ∃ state version, client.hearPlayerDelta frame =
      { client with playerState := state, playerVersion := version } := by
  cases frame with
  | none => exact ⟨client.playerState, client.playerVersion, rfl⟩
  | some frame =>
    unfold hearPlayerDelta
    dsimp only
    split_ifs
    · exact ⟨_, _, rfl⟩
    · exact ⟨client.playerState, client.playerVersion, rfl⟩

@[simp] theorem hearPlayerDelta_userId : (client.hearPlayerDelta frame).userId = client.userId := by
  obtain ⟨_, _, heq⟩ := client.hearPlayerDelta_eq frame
  rw [heq]

@[simp] theorem hearPlayerDelta_synced : (client.hearPlayerDelta frame).synced = client.synced := by
  obtain ⟨_, _, heq⟩ := client.hearPlayerDelta_eq frame
  rw [heq]

@[simp] theorem hearPlayerDelta_sharedState :
    (client.hearPlayerDelta frame).sharedState = client.sharedState := by
  obtain ⟨_, _, heq⟩ := client.hearPlayerDelta_eq frame
  rw [heq]

end

theorem hearPlayerDelta_of_ne {frame : Option Room.PlayerDelta}
    (h : ∀ f ∈ frame, f.userId ≠ client.userId) : client.hearPlayerDelta frame = client := by
  cases frame with
  | none => rfl
  | some frame => exact if_neg fun heq => h frame rfl heq.symm

end Client

/-- A room, and the clients on its authenticated connections. -/
structure System where
  room : Room := {}
  clients : List Client := []
  deriving DecidableEq

inductive Action where
  /-- A connection is authenticated; its client may have a copy from an earlier one. -/
  | connect (client : Client)
  | close (connectionId : String)
  | join (connectionId : String) (msg : JoinMessage)
  | setSharedState (updater : Updater)
  | setPlayerState (userId : String) (updater : Updater)
  | setServerState (updater : Updater)
  | flush

namespace System

variable (env : Env) (s : System)

def client (connectionId : String) : Option Client :=
  s.clients.find? (·.connectionId = connectionId)

def flushSharedDelta : System :=
  { room := { s.room with pendingSharedDelta := none }
    clients := s.clients.map fun client =>
      client.hearSharedDelta s.room.pendingSharedDelta s.room.sharedVersion }

def enter (client : Client) (msg : JoinMessage) : System :=
  { s with room := s.room.enter env client.userId msg }

/-- The part of `handleJoin` after the hooks: the recovery, a flush, and the sync frame. -/
def handleJoin (client : Client) (msg : JoinMessage) : System :=
  let flushed := (s.enter env client msg).flushSharedDelta
  { flushed with
    clients := flushed.clients.map fun c =>
      if c.connectionId = client.connectionId then c.handleSync flushed.room else c }

/-- `setPlayerState`, and `sendPlayerDelta` to every connection of the user. -/
def setPlayerState (userId : String) (updater : Updater) : System :=
  let result := s.room.setPlayerState env userId updater
  { room := result.1, clients := s.clients.map fun client => client.hearPlayerDelta result.2 }

def step (env : Env) (s : System) : Action → System
  | .connect client =>
    { s with
      clients := { client with synced := false } ::
        s.clients.filter (·.connectionId ≠ client.connectionId) }
  | .close connectionId => { s with clients := s.clients.filter (·.connectionId ≠ connectionId) }
  | .join connectionId msg =>
    match s.client connectionId with
    | some client => s.handleJoin env client msg
    | none => s
  | .setSharedState updater => { s with room := s.room.setSharedState env updater }
  | .setPlayerState userId updater => s.setPlayerState env userId updater
  | .setServerState updater => { s with room := s.room.setServerState env updater }
  | .flush => s.flushSharedDelta

variable {env s}

theorem step_join {connectionId : String} {client : Client} (msg : JoinMessage)
    (h : s.client connectionId = some client) :
    s.step env (.join connectionId msg) = s.handleJoin env client msg := by
  simp only [step, h]

theorem step_join_none {connectionId : String} (msg : JoinMessage)
    (h : s.client connectionId = none) : s.step env (.join connectionId msg) = s := by
  simp only [step, h]

theorem mem_handleJoin {client c : Client} {msg : JoinMessage}
    (h : c ∈ (s.handleJoin env client msg).clients) :
    (∃ c₀ : Client, c₀.connectionId = client.connectionId ∧
        c = c₀.handleSync (s.handleJoin env client msg).room) ∨
      ∃ c₀ ∈ s.clients, c₀.connectionId ≠ client.connectionId ∧
        c = c₀.hearSharedDelta (s.enter env client msg).room.pendingSharedDelta
          (s.enter env client msg).room.sharedVersion := by
  obtain ⟨c₁, hc₁, rfl⟩ := List.mem_map.1 h
  obtain ⟨c₀, hc₀, rfl⟩ := List.mem_map.1 hc₁
  split_ifs with hconn
  · exact .inl ⟨_, hconn, rfl⟩
  · exact .inr ⟨c₀, hc₀, by simpa using hconn, rfl⟩

end System

end Rooms

end EdgeBase
