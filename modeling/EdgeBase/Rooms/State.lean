import EdgeBase.Json

/-!
# The state of a room

A room keeps three areas of state: one that all players share, one for each player, and one of the
server's own.  The handlers of the server change them by updaters, under a limit on their size, and
the changes of the shared state wait in a delta for the next flush.

* `Room` : the areas, their versions, and the delta that waits.
-/

namespace EdgeBase

namespace Json

/-- `Object.entries(value)`. -/
def entries : Json → Row
  | .obj fields => Assoc.entries fields
  | .arr items => items.zipIdx.map fun (item, i) => (toString i, item)
  | .str s => s.toList.zipIdx.map fun (char, i) => (toString i, .str (String.singleton char))
  | .null | .bool _ | .num _ => []

/-- `value[key]`, of the value's own properties. -/
def get (value : Json) (key : String) : Option Json := value.entries.lookup key

@[simp] theorem get_obj (fields : Row) (key : String) :
    (Json.obj fields).get key = fields.lookup key :=
  Assoc.lookup_entries fields key

theorem mem_entries {value : Json} {key : String} {v : Json} (h : value.get key = some v) :
    (key, v) ∈ value.entries := Assoc.mem_of_lookup h

theorem get_obj_of_mem {fields : Row} {b : String × Json} (h : b ∈ (Json.obj fields).entries) :
    (Json.obj fields).get b.1 = some b.2 := by
  rw [get_obj]
  exact Assoc.lookup_of_mem_entries h

end Json

namespace Rooms

structure Env where
  /-- `JSON.stringify(value).length`. -/
  length : Json → ℕ
  toNumber : Json → Option ℚ
  /-- `maxStateSize` of the namespace, or its default. -/
  maxStateSize : ℕ

def inheritedNames : List String :=
  ["constructor", "__defineGetter__", "__defineSetter__", "hasOwnProperty", "__lookupGetter__",
    "__lookupSetter__", "isPrototypeOf", "propertyIsEnumerable", "toString", "valueOf", "__proto__",
    "toLocaleString"]

/-- What `JSON.stringify(state[key])` writes.  Of the inherited properties only the prototype has a
text, the one of an empty object. -/
def written (state : Json) (key : String) : Option Json :=
  (state.get key).or (if key = "__proto__" then some (.obj []) else none)

/-- `key in state`. -/
def has (state : Json) (key : String) : Bool :=
  (state.get key).isSome || inheritedNames.contains key

/-- The keys that `computeDelta` finds changed, and those it finds removed. -/
def changes (oldState newState : Json) : Row :=
  newState.entries.filter (fun b => written oldState b.1 ≠ written newState b.1) ++
    (oldState.entries.filter fun b => !has newState b.1).map fun b => (b.1, .null)

/-- `computeDelta`.  Assigning to the prototype leaves no property in the delta. -/
def computeDelta (oldState newState : Json) : Option Row :=
  if changes oldState newState = [] then none
  else some ((changes oldState newState).filter (·.1 ≠ "__proto__"))

/-- An updater that the server passes; it may throw. -/
abbrev Updater := Json → Option Row

structure Room where
  sharedState : Json := .obj []
  sharedVersion : ℚ := 0
  playerStates : List (String × Json) := []
  playerVersions : List (String × ℚ) := []
  serverState : Json := .obj []
  pendingSharedDelta : Option Row := none
  deriving DecidableEq

/-- The fields of a join message that the runtime reads. -/
structure JoinMessage where
  lastSharedState : Option Json := none
  lastSharedVersion : Option Json := none
  lastPlayerState : Option Json := none
  lastPlayerVersion : Option Json := none

namespace Room

variable (env : Env) (room : Room)

/-- `getTotalStateSize`. -/
def totalStateSize : ℕ :=
  env.length room.sharedState + (room.playerStates.map fun p => env.length p.2).sum +
    env.length room.serverState

/-- `playerStates.get(userId) ?? {}`. -/
def playerState (userId : String) : Json := (room.playerStates.lookup userId).getD (.obj [])

/-- `playerVersions.get(userId) ?? 0`. -/
def playerVersion (userId : String) : ℚ := (room.playerVersions.lookup userId).getD 0

def queueSharedDelta (delta : Row) : Room :=
  { room with
    pendingSharedDelta :=
      some (Assoc.merge (room.pendingSharedDelta.getD []) (Json.obj delta).entries) }

/-- `setSharedState` of the server API: an update over the limit is reverted. -/
def setSharedState (updater : Updater) : Room :=
  match updater room.sharedState with
  | none => room
  | some newState =>
    let next := { room with sharedState := .obj newState, sharedVersion := room.sharedVersion + 1 }
    if env.maxStateSize < next.totalStateSize env then room
    else
      match computeDelta room.sharedState (.obj newState) with
      | some delta => next.queueSharedDelta delta
      | none => next

structure PlayerDelta where
  userId : String
  delta : Row
  version : ℚ

/-- `setPlayerState` of the server API: the room, and the delta that is sent at once. -/
def setPlayerState (userId : String) (updater : Updater) : Room × Option PlayerDelta :=
  match updater (room.playerState userId) with
  | none => (room, none)
  | some newState =>
    let version := room.playerVersion userId + 1
    let next := { room with
      playerStates := Assoc.set room.playerStates userId (.obj newState)
      playerVersions := Assoc.set room.playerVersions userId version }
    if env.maxStateSize < next.totalStateSize env then
      ({ room with
          playerVersions := Assoc.set room.playerVersions userId (room.playerVersion userId) },
        none)
    else
      (next, (computeDelta (room.playerState userId) (.obj newState)).map fun delta =>
        ⟨userId, delta, version⟩)

/-- `setServerState` of the server API. -/
def setServerState (updater : Updater) : Room :=
  match updater room.serverState with
  | none => room
  | some newState =>
    let next := { room with serverState := .obj newState }
    if env.maxStateSize < next.totalStateSize env then room else next

/-- A state and a version of a join message that may be restored: the state has properties and the
version is positive.  An absent version counts as zero. -/
def recoverable (lastState lastVersion : Option Json) : Option (Json × ℚ) := do
  let state ← lastState
  let version ← env.toNumber (← lastVersion)
  if state.entries ≠ [] ∧ 0 < version then some (state, version) else none

/-- The eviction recovery of `handleJoin`: the shared state. -/
def recoverShared (msg : JoinMessage) : Room :=
  match recoverable env msg.lastSharedState msg.lastSharedVersion with
  | some (state, version) =>
    if room.sharedState.entries = [] ∧ room.sharedVersion = 0 then
      { room with sharedState := state, sharedVersion := version }
    else room
  | none => room

/-- The eviction recovery of `handleJoin`: the state of the player. -/
def recoverPlayer (userId : String) (msg : JoinMessage) : Room :=
  match recoverable env msg.lastPlayerState msg.lastPlayerVersion with
  | some (state, version) =>
    if room.playerVersion userId = 0 then
      { room with
        playerStates := Assoc.set room.playerStates userId state
        playerVersions := Assoc.set room.playerVersions userId version }
    else room
  | none => room

/-- `handleJoin` initializes the state of a player who has none. -/
def initPlayer (userId : String) : Room :=
  if room.playerStates.lookup userId = none then
    { room with
      playerStates := Assoc.set room.playerStates userId (.obj [])
      playerVersions := Assoc.set room.playerVersions userId 0 }
  else room

/-- What `handleJoin` does to the areas, once the hooks have let the player in. -/
def enter (userId : String) (msg : JoinMessage) : Room :=
  ((room.recoverShared env msg).recoverPlayer env userId msg).initPlayer userId

/-- What `finalizePlayerLeave` does to the areas. -/
def forgetPlayer (userId : String) : Room :=
  { room with
    playerStates := Assoc.restrict (· ≠ userId) room.playerStates
    playerVersions := Assoc.restrict (· ≠ userId) room.playerVersions }

/-- What the alarm does to the areas of a room that stayed empty. -/
def cleanUp : Room :=
  if room.sharedState.entries ≠ [] ∨ room.playerStates ≠ [] ∨ room.serverState.entries ≠ [] then {}
  else room

/-! ## What the operations do -/

variable {env room} {updater : Updater} {userId : String} {msg : JoinMessage}

theorem setSharedState_cases (env : Env) (room : Room) (updater : Updater) :
    room.setSharedState env updater = room ∨
      ∃ newState pending, updater room.sharedState = some newState ∧
        pending = ((computeDelta room.sharedState (.obj newState)).map fun delta =>
          Assoc.merge (room.pendingSharedDelta.getD []) (Json.obj delta).entries).or
            room.pendingSharedDelta ∧
        (room.setSharedState env updater).totalStateSize env ≤ env.maxStateSize ∧
        room.setSharedState env updater = { room with
          sharedState := .obj newState
          sharedVersion := room.sharedVersion + 1
          pendingSharedDelta := pending } := by
  unfold setSharedState
  split
  · exact .inl rfl
  · rename_i newState hnew
    dsimp only
    split_ifs with hsize
    · exact .inl rfl
    · refine .inr ⟨newState, ?_⟩
      split
      · rename_i delta hdelta
        exact ⟨_, hnew, by rw [hdelta]; rfl, not_lt.1 hsize, rfl⟩
      · rename_i hdelta
        exact ⟨room.pendingSharedDelta, hnew, by rw [hdelta]; rfl, not_lt.1 hsize, rfl⟩

theorem setPlayerState_cases (env : Env) (room : Room) (userId : String) (updater : Updater) :
    room.setPlayerState env userId updater = (room, none) ∨
      room.setPlayerState env userId updater =
        ({ room with
            playerVersions := Assoc.set room.playerVersions userId (room.playerVersion userId) },
          none) ∨
      ∃ newState, updater (room.playerState userId) = some newState ∧
        (room.setPlayerState env userId updater).1.totalStateSize env ≤ env.maxStateSize ∧
        room.setPlayerState env userId updater =
          ({ room with
              playerStates := Assoc.set room.playerStates userId (.obj newState)
              playerVersions :=
                Assoc.set room.playerVersions userId (room.playerVersion userId + 1) },
            (computeDelta (room.playerState userId) (.obj newState)).map fun delta =>
              ⟨userId, delta, room.playerVersion userId + 1⟩) := by
  unfold setPlayerState
  split
  · exact .inl rfl
  · rename_i newState hnew
    dsimp only
    split_ifs with hsize
    · exact .inr (.inl rfl)
    · exact .inr (.inr ⟨newState, hnew, not_lt.1 hsize, rfl⟩)

theorem setServerState_cases (env : Env) (room : Room) (updater : Updater) :
    room.setServerState env updater = room ∨ ∃ newState, updater room.serverState = some newState ∧
        (room.setServerState env updater).totalStateSize env ≤ env.maxStateSize ∧
        room.setServerState env updater = { room with serverState := .obj newState } := by
  unfold setServerState
  split
  · exact .inl rfl
  · rename_i newState hnew
    dsimp only
    split_ifs with hsize
    · exact .inl rfl
    · exact .inr ⟨newState, hnew, not_lt.1 hsize, rfl⟩

theorem recoverable_pos {lastState lastVersion : Option Json} {state : Json} {version : ℚ}
    (h : recoverable env lastState lastVersion = some (state, version)) : 0 < version := by
  simp only [recoverable, Option.bind_eq_bind, Option.bind_eq_some_iff] at h
  obtain ⟨state', -, json, -, version', -, hif⟩ := h
  split_ifs at hif with hpos
  obtain ⟨rfl, rfl⟩ := Prod.mk.inj (Option.some.inj hif)
  exact hpos.2

theorem recoverShared_cases (env : Env) (room : Room) (msg : JoinMessage) :
    room.recoverShared env msg = room ∨
      ∃ state version, recoverable env msg.lastSharedState msg.lastSharedVersion =
          some (state, version) ∧ room.sharedState.entries = [] ∧ room.sharedVersion = 0 ∧
        room.recoverShared env msg =
          { room with sharedState := state, sharedVersion := version } := by
  unfold recoverShared
  split
  · rename_i state version hmsg
    split_ifs with hempty
    · exact .inr ⟨state, version, hmsg, hempty.1, hempty.2, rfl⟩
    · exact .inl rfl
  · exact .inl rfl

theorem recoverPlayer_cases (env : Env) (room : Room) (userId : String) (msg : JoinMessage) :
    room.recoverPlayer env userId msg = room ∨
      ∃ state version, recoverable env msg.lastPlayerState msg.lastPlayerVersion =
          some (state, version) ∧ room.playerVersion userId = 0 ∧
        room.recoverPlayer env userId msg = { room with
          playerStates := Assoc.set room.playerStates userId state
          playerVersions := Assoc.set room.playerVersions userId version } := by
  unfold recoverPlayer
  split
  · rename_i state version hmsg
    split_ifs with hzero
    · exact .inr ⟨state, version, hmsg, hzero, rfl⟩
    · exact .inl rfl
  · exact .inl rfl

end Room

/-- A game with the limits of a new project; the lengths are those of the empty state, of one with
the turn of a player, and of ones with a score of three digits or with nobody's turn. -/
def gameEnv : Env where
  length state :=
    if state = .obj [] then 2 else if state = .obj [("turn", .str "ann")] then 14 else 13
  toNumber
    | .num q => some q
    | _ => none
  maxStateSize := 1048576

end Rooms

end EdgeBase
