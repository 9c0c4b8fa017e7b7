import EdgeBase.Rooms.State

/-!
# Rejected mutations of a room

The setters of the server API apply the value of an updater, and undo it when the states of the
room are too large or cannot be written as JSON.  A change is described only after that.

* `Value` : what an updater may return; `stringify` : the JSON that is written of it.
* `computeDelta` : the description of a change, which may fail.
* `Mutation.run` : the three setters.
* `untraced_iff` : when a mutation that throws leaves no trace.
* `total_of_bigint` : a mutation that throws and is not undone.
-/

namespace EdgeBase.RoomMutations

open List Assoc

/-! ### Values -/

inductive Value where
  /-- `undefined`, a function or a symbol. -/
  | undefined
  /-- A `BigInt`, or an object that contains itself. -/
  | unwritable
  | null
  | bool (b : Bool)
  | num (q : ℚ)
  /-- `NaN` or an infinite number. -/
  | nonFinite
  | str (s : String)
  | arr (items : List Value)
  | obj (fields : List (String × Value))
  /-- An object with a `toJSON` method: what is written of the result, if the call does not throw
  and anything is, and the properties of the object. -/
  | custom (result : Option (Option Json)) (fields : List (String × Value))

inductive Thrown where
  | typeError
  | syntaxError
  | stateSize (size limit : ℕ)
  | updater
  deriving DecidableEq

namespace Value

mutual

/-- The JSON that `JSON.stringify(value)` writes, if any. -/
def stringify : Value → Except Thrown (Option Json)
  | .undefined => .ok none
  | .unwritable => .error .typeError
  | .null | .nonFinite => .ok (some .null)
  | .bool b => .ok (some (.bool b))
  | .num q => .ok (some (.num q))
  | .str s => .ok (some (.str s))
  | .arr items => (stringifyItems items).map fun items => some (.arr items)
  | .obj fields => (stringifyFields fields).map fun fields => some (.obj fields)
  | .custom (some result) _ => .ok result
  | .custom none _ => .error .updater

/-- An item that is not written is `null`. -/
def stringifyItems : List Value → Except Thrown (List Json)
  | [] => .ok []
  | item :: items => do
    let json ← stringify item
    let rest ← stringifyItems items
    .ok (json.getD .null :: rest)

/-- A property that is not written is left out. -/
def stringifyFields : List (String × Value) → Except Thrown (List (String × Json))
  | [] => .ok []
  | (key, value) :: fields => do
    let json ← stringify value
    let rest ← stringifyFields fields
    match json with
    | some json => .ok ((key, json) :: rest)
    | none => .ok rest

end

mutual

/-- What `JSON.parse` reads of the text of a value. -/
def ofJson : Json → Value
  | .null => .null
  | .bool b => .bool b
  | .num q => .num q
  | .str s => .str s
  | .arr items => .arr (ofItems items)
  | .obj fields => .obj (ofFields fields)

def ofItems : List Json → List Value
  | [] => []
  | item :: items => ofJson item :: ofItems items

def ofFields : List (String × Json) → List (String × Value)
  | [] => []
  | (key, value) :: fields => (key, ofJson value) :: ofFields fields

end

def entries : Value → List (String × Value)
  | .obj fields | .custom _ fields => fields
  | .arr items => items.zipIdx.map fun (item, i) => (toString i, item)
  | .str s => s.toList.zipIdx.map fun (char, i) => (toString i, .str (String.singleton char))
  | _ => []

/-- `Object.keys(value)` throws for these values. -/
def isNullish : Value → Bool
  | .null | .undefined => true
  | _ => false

/-- `key in value` throws for the others. -/
def isObject : Value → Bool
  | .arr _ | .obj _ | .custom _ _ | .unwritable => true
  | _ => false

/-- `value[key]`.  Of the inherited properties only the prototype has a text. -/
def read (value : Value) (key : String) : Value :=
  (value.entries.lookup key).getD (if key = "__proto__" then .obj [] else .undefined)

end Value

def cloneState (state : Value) : Except Thrown Value := do
  match ← state.stringify with
  | some json => .ok (Value.ofJson json)
  | none => .error .syntaxError

/-! ### Descriptions of changes -/

/-- The first loop of `computeDelta`. -/
def changed (oldState newState : Value) :
    List (String × Value) → Except Thrown (List (String × Value))
  | [] => .ok []
  | (key, _) :: rest => do
    let before ← (oldState.read key).stringify
    let now ← (newState.read key).stringify
    let delta ← changed oldState newState rest
    .ok (if before ≠ now then (key, newState.read key) :: delta else delta)

/-- The second loop of `computeDelta`. -/
def removed (newState : Value) : List (String × Value) → Except Thrown (List (String × Value))
  | [] => .ok []
  | (key, _) :: rest =>
    if !newState.isObject then .error .typeError
    else do
      let delta ← removed newState rest
      .ok (if (newState.entries.lookup key).isSome ∨ key ∈ Rooms.inheritedNames then delta
        else (key, .null) :: delta)

def computeDelta (oldState newState : Value) : Except Thrown (Option (List (String × Value))) :=
  if newState.isNullish then .error .typeError
  else do
    let delta ← changed oldState newState newState.entries
    let gone ← removed newState oldState.entries
    -- an assignment to the prototype leaves no property
    .ok (if delta ++ gone = [] then none
      else some ((delta ++ gone).filter (·.1 ≠ "__proto__")))

/-! ### The setters -/

structure Env extends Rooms.Env where
  /-- `stateSaveInterval` of the namespace, or its default. -/
  stateSaveInterval : ℕ

structure Runtime where
  sharedState : Value := .obj []
  sharedVersion : ℚ := 0
  playerStates : List (String × Value) := []
  playerVersions : List (String × ℚ) := []
  serverState : Value := .obj []
  pendingSharedDelta : Option (List (String × Value)) := none
  dirty : Bool := false
  stateSaveAt : Option ℕ := none

/-- A frame that the sockets of a player are sent. -/
structure PlayerDelta where
  userId : String
  delta : List (String × Json)
  version : ℚ

/-- What a call of a setter leaves: the room, the frames that are sent, and what is thrown. -/
structure Outcome where
  room : Runtime
  frames : List PlayerDelta := []
  thrown : Option Thrown := none

/-- An updater that the server passes; it may throw. -/
abbrev Updater := Value → Except Thrown Value

namespace Runtime

variable (env : Env) (now : ℕ) (room : Runtime)

def markDirty : Runtime :=
  { room with
    dirty := true
    stateSaveAt := some (room.stateSaveAt.getD (now + env.stateSaveInterval)) }

/-- `JSON.stringify(state).length`. -/
def stateSize (state : Value) : Except Thrown ℕ := do
  match ← state.stringify with
  | some json => .ok (env.length json)
  | none => .error .typeError

/-- The loop of `getTotalStateSize`. -/
def addStateSizes (size : ℕ) : List (String × Value) → Except Thrown ℕ
  | [] => .ok size
  | (_, state) :: rest => do
    let more ← stateSize env state
    addStateSizes (size + more) rest

def getTotalStateSize : Except Thrown ℕ := do
  let shared ← stateSize env room.sharedState
  let size ← addStateSizes env shared room.playerStates
  let server ← stateSize env room.serverState
  .ok (size + server)

def checkStateSizeLimit : Except Thrown Unit := do
  let size ← room.getTotalStateSize env
  if env.maxStateSize < size then .error (.stateSize size env.maxStateSize) else .ok ()

def queueSharedDelta (delta : List (String × Value)) : Runtime :=
  { room with pendingSharedDelta := some (Assoc.merge (room.pendingSharedDelta.getD []) delta) }

def sendPlayerDelta (userId : String) (delta : List (String × Value)) (version : ℚ) : Outcome :=
  match Value.stringifyFields delta with
  | .ok json => { room, frames := [⟨userId, json, version⟩] }
  | .error thrown => { room, thrown }

/-- `playerStates.get(userId) ?? {}`. -/
def playerState (userId : String) : Value :=
  match room.playerStates.lookup userId with
  | some state => if state.isNullish then .obj [] else state
  | none => .obj []

/-- `playerVersions.get(userId) ?? 0`. -/
def playerVersion (userId : String) : ℚ := (room.playerVersions.lookup userId).getD 0

/-- The mutation of `setSharedState`, before the check. -/
def putShared (newState : Value) : Runtime :=
  { room with
    sharedState := newState
    sharedVersion := room.sharedVersion + 1 }.markDirty env now

/-- The mutation of `setPlayerState`, before the check. -/
def putPlayer (userId : String) (newState : Value) : Runtime :=
  { room with
    playerStates := Assoc.set room.playerStates userId newState
    playerVersions :=
      Assoc.set room.playerVersions userId (room.playerVersion userId + 1) }.markDirty env now

/-- The mutation of `setServerState`, before the check. -/
def putServer (newState : Value) : Runtime :=
  { room with serverState := newState }.markDirty env now

def setSharedState (updater : Updater) : Outcome :=
  match cloneState room.sharedState with
  | .error thrown => { room, thrown }
  | .ok oldState =>
    match updater oldState with
    | .error thrown => { room, thrown }
    | .ok newState =>
      let next := room.putShared env now newState
      match next.checkStateSizeLimit env with
      | .error thrown =>
        let reverted := { next with
          sharedState := oldState
          sharedVersion := room.sharedVersion
          dirty := room.dirty
          stateSaveAt := room.stateSaveAt }
        { room := reverted, thrown }
      | .ok () =>
        match computeDelta oldState newState with
        | .error thrown => { room := next, thrown }
        | .ok none => { room := next }
        | .ok (some delta) => { room := next.queueSharedDelta delta }

def setPlayerState (userId : String) (updater : Updater) : Outcome :=
  match cloneState (room.playerState userId) with
  | .error thrown => { room, thrown }
  | .ok oldState =>
    match updater oldState with
    | .error thrown => { room, thrown }
    | .ok newState =>
      let hadPrevState := (room.playerStates.lookup userId).isSome
      let next := room.putPlayer env now userId newState
      match next.checkStateSizeLimit env with
      | .error thrown =>
        let reverted := { next with
          playerStates :=
            if hadPrevState then Assoc.set next.playerStates userId oldState
            else restrict (· ≠ userId) next.playerStates
          playerVersions := Assoc.set next.playerVersions userId (room.playerVersion userId)
          dirty := room.dirty
          stateSaveAt := room.stateSaveAt }
        { room := reverted, thrown }
      | .ok () =>
        match computeDelta oldState newState with
        | .error thrown => { room := next, thrown }
        | .ok none => { room := next }
        | .ok (some delta) => next.sendPlayerDelta userId delta (room.playerVersion userId + 1)

def setServerState (updater : Updater) : Outcome :=
  match cloneState room.serverState with
  | .error thrown => { room, thrown }
  | .ok state =>
    match updater state with
    | .error thrown => { room, thrown }
    | .ok newState =>
      let next := room.putServer env now newState
      match next.checkStateSizeLimit env with
      | .error thrown =>
        let reverted := { next with
          serverState := room.serverState
          dirty := room.dirty
          stateSaveAt := room.stateSaveAt }
        { room := reverted, thrown }
      | .ok () => { room := next }

end Runtime

inductive Mutation where
  | setSharedState (updater : Updater)
  | setPlayerState (userId : String) (updater : Updater)
  | setServerState (updater : Updater)

def Mutation.run (env : Env) (now : ℕ) (room : Runtime) : Mutation → Outcome
  | .setSharedState updater => room.setSharedState env now updater
  | .setPlayerState userId updater => room.setPlayerState env now userId updater
  | .setServerState updater => room.setServerState env now updater

/-! ### Traces -/

/-- A room is what it was.  An absent version counts as zero. -/
structure Runtime.SameAs (room before : Runtime) : Prop where
  sharedState : room.sharedState = before.sharedState
  sharedVersion : room.sharedVersion = before.sharedVersion
  playerState : ∀ userId, room.playerStates.lookup userId = before.playerStates.lookup userId
  playerVersion : ∀ userId, room.playerVersion userId = before.playerVersion userId
  serverState : room.serverState = before.serverState
  pendingSharedDelta : room.pendingSharedDelta = before.pendingSharedDelta
  dirty : room.dirty = before.dirty
  stateSaveAt : room.stateSaveAt = before.stateSaveAt

/-- If the mutation throws, the room is what it was and no frame is sent. -/
def Outcome.Untraced (before : Runtime) (outcome : Outcome) : Prop :=
  outcome.thrown ≠ none → outcome.room.SameAs before ∧ outcome.frames = []

/-- The change from one state to another cannot be described. -/
def Undescribed (oldState newState : Value) : Prop :=
  newState.isNullish ∨
    (∃ p ∈ newState.entries, ∃ thrown, (newState.read p.1).stringify = .error thrown) ∨
    (oldState.entries ≠ [] ∧ newState.isObject = false)

/-- The states of a room can be written and are within the limit. -/
def Runtime.Fits (env : Env) (room : Runtime) : Prop := room.checkStateSizeLimit env = .ok ()

/-- What is put back is what was there, and what is not put back can be described. -/
def Mutation.Undone (env : Env) (now : ℕ) (room : Runtime) : Mutation → Prop
  | .setSharedState updater =>
    ∀ oldState newState, cloneState room.sharedState = .ok oldState →
      updater oldState = .ok newState →
      ((room.putShared env now newState).Fits env → ¬ Undescribed oldState newState) ∧
        (¬ (room.putShared env now newState).Fits env → oldState = room.sharedState)
  | .setPlayerState userId updater =>
    ∀ oldState newState, cloneState (room.playerState userId) = .ok oldState →
      updater oldState = .ok newState →
      ((room.putPlayer env now userId newState).Fits env → ¬ Undescribed oldState newState) ∧
        (¬ (room.putPlayer env now userId newState).Fits env →
          ∀ state, room.playerStates.lookup userId = some state → oldState = state)
  | .setServerState _ => True

/-! ### What can be described -/

namespace Value

mutual

theorem stringify_ofJson : ∀ json : Json, (ofJson json).stringify = .ok (some json)
  | .null | .bool _ | .num _ | .str _ => rfl
  | .arr items => by
    simp only [ofJson, stringify, stringifyItems_ofItems items]
    rfl
  | .obj fields => by
    simp only [ofJson, stringify, stringifyFields_ofFields fields]
    rfl

theorem stringifyItems_ofItems : ∀ items : List Json, stringifyItems (ofItems items) = .ok items
  | [] => rfl
  | item :: items => by
    simp only [ofItems, stringifyItems, stringify_ofJson item, stringifyItems_ofItems items]
    rfl

theorem stringifyFields_ofFields : ∀ fields : List (String × Json),
    stringifyFields (ofFields fields) = .ok fields
  | [] => rfl
  | (_, value) :: fields => by
    simp only [ofFields, stringifyFields, stringify_ofJson value, stringifyFields_ofFields fields]
    rfl

end

def Writable (value : Value) : Prop := ∃ json, value.stringify = .ok json

theorem not_writable_iff {value : Value} :
    ¬ value.Writable ↔ ∃ thrown, value.stringify = .error thrown := by
  unfold Writable
  cases value.stringify with
  | ok json => simp
  | error thrown => simp

theorem writable_of_mem_ofItems {items : List Json} {value : Value} (h : value ∈ ofItems items) :
    value.Writable := by
  induction items with
  | nil => cases h
  | cons item items ih =>
    rcases mem_cons.1 h with rfl | hrest
    · exact ⟨some item, stringify_ofJson item⟩
    · exact ih hrest

theorem writable_of_mem_ofFields {fields : List (String × Json)} {p : String × Value}
    (h : p ∈ ofFields fields) : p.2.Writable := by
  induction fields with
  | nil => cases h
  | cons field fields ih =>
    rcases mem_cons.1 h with rfl | hrest
    · exact ⟨some field.2, stringify_ofJson field.2⟩
    · exact ih hrest

theorem writable_of_mem_entries {json : Json} {p : String × Value}
    (h : p ∈ (ofJson json).entries) : p.2.Writable := by
  cases json with
  | null | bool _ | num _ => cases h
  | str s =>
    obtain ⟨_, -, rfl⟩ := mem_map.1 h
    exact ⟨_, rfl⟩
  | arr items =>
    obtain ⟨⟨item, i⟩, hitem, rfl⟩ := mem_map.1 h
    exact writable_of_mem_ofItems (fst_mem_of_mem_zipIdx hitem)
  | obj fields => exact writable_of_mem_ofFields h

theorem writable_read_ofJson (json : Json) (key : String) : ((ofJson json).read key).Writable := by
  unfold read
  cases hlook : (ofJson json).entries.lookup key with
  | some value => exact writable_of_mem_entries (mem_of_lookup hlook)
  | none =>
    rw [Option.getD_none]
    split_ifs
    · exact ⟨_, rfl⟩
    · exact ⟨_, rfl⟩

theorem stringifyFields_ok {fields : List (String × Value)} (h : ∀ p ∈ fields, p.2.Writable) :
    ∃ json, stringifyFields fields = .ok json := by
  induction fields with
  | nil => exact ⟨[], rfl⟩
  | cons field fields ih =>
    obtain ⟨json, hjson⟩ := h field mem_cons_self
    obtain ⟨rest, hrest⟩ := ih fun p hp => h p (mem_cons_of_mem _ hp)
    simp only [stringifyFields, hjson, hrest]
    cases json with
    | none => exact ⟨rest, rfl⟩
    | some json => exact ⟨(field.1, json) :: rest, rfl⟩

end Value

open Value

variable {env : Env} {now : ℕ} {room : Runtime} {oldState newState : Value} {json : Json}

theorem changed_cases (json : Json) (newState : Value) (fields : List (String × Value)) :
    (∃ delta, changed (ofJson json) newState fields = .ok delta ∧ (∀ p ∈ delta, p.2.Writable) ∧
      ∀ p ∈ fields, (newState.read p.1).Writable) ∨
    ∃ thrown, changed (ofJson json) newState fields = .error thrown ∧
      ∃ p ∈ fields, ¬ (newState.read p.1).Writable := by
  induction fields with
  | nil => exact .inl ⟨[], rfl, by simp, by simp⟩
  | cons field fields ih =>
    obtain ⟨before, hbefore⟩ := writable_read_ofJson json field.1
    cases hnow : (newState.read field.1).stringify with
    | error thrown =>
      have hread : ¬ (newState.read field.1).Writable := not_writable_iff.2 ⟨thrown, hnow⟩
      have hthrown : changed (ofJson json) newState (field :: fields) = .error thrown := by
        simp only [changed, hbefore, hnow]
        rfl
      exact .inr ⟨thrown, hthrown, field, mem_cons_self, hread⟩
    | ok now =>
      have hfield : (newState.read field.1).Writable := ⟨now, hnow⟩
      rcases ih with ⟨delta, hdelta, hwritable, hall⟩ | ⟨thrown, hthrown, p, hp, hread⟩
      · refine .inl ⟨_, by simp only [changed, hbefore, hnow, hdelta]; rfl, ?_, ?_⟩
        · split_ifs with hne
          · exact forall_mem_cons.2 ⟨hfield, hwritable⟩
          · exact hwritable
        · exact forall_mem_cons.2 ⟨hfield, hall⟩
      · refine .inr ⟨thrown, by simp only [changed, hbefore, hnow, hthrown]; rfl, p, ?_, hread⟩
        exact mem_cons_of_mem _ hp

theorem removed_cases (newState : Value) (fields : List (String × Value)) :
    (∃ delta, removed newState fields = .ok delta ∧ (∀ p ∈ delta, p.2.Writable) ∧
      ¬ (fields ≠ [] ∧ newState.isObject = false)) ∨
    ∃ thrown, removed newState fields = .error thrown ∧ fields ≠ [] ∧
      newState.isObject = false := by
  cases hobject : newState.isObject with
  | false =>
    cases fields with
    | nil => exact .inl ⟨[], rfl, by simp, by simp⟩
    | cons field fields => exact .inr ⟨_, by simp only [removed, hobject]; rfl, by simp, rfl⟩
  | true =>
    refine .inl ?_
    induction fields with
    | nil => exact ⟨[], rfl, by simp, by simp⟩
    | cons field fields ih =>
      obtain ⟨delta, hdelta, hwritable, -⟩ := ih
      refine ⟨_, by simp only [removed, hobject, hdelta]; rfl, ?_, by simp⟩
      split_ifs with hkeep
      · exact hwritable
      · exact forall_mem_cons.2 ⟨⟨_, rfl⟩, hwritable⟩

theorem computeDelta_cases (json : Json) (newState : Value) :
    (∃ delta, computeDelta (ofJson json) newState = .ok delta ∧
      (∀ fields ∈ delta, ∀ p ∈ fields, p.2.Writable) ∧ ¬ Undescribed (ofJson json) newState) ∨
    ∃ thrown, computeDelta (ofJson json) newState = .error thrown ∧
      Undescribed (ofJson json) newState := by
  unfold computeDelta Undescribed
  cases hnullish : newState.isNullish with
  | true => exact .inr ⟨_, rfl, .inl rfl⟩
  | false =>
    rw [if_neg (by simp)]
    rcases changed_cases json newState newState.entries with
      ⟨delta, hdelta, hwritable, hall⟩ | ⟨thrown, hthrown, p, hp, hread⟩
    · rcases removed_cases newState (ofJson json).entries with
        ⟨gone, hgone, hnulls, hobject⟩ | ⟨thrown, hthrown, hkeys, hobject⟩
      · refine .inl ⟨_, by rw [hdelta]; simp only [hgone]; rfl, ?_, ?_⟩
        · intro fields hfields p hp
          split_ifs at hfields with hnone
          · cases hfields
          · cases hfields
            rcases mem_append.1 (mem_of_mem_filter hp) with hp | hp
            · exact hwritable p hp
            · exact hnulls p hp
        · rintro (hnull | ⟨p, hp, hthrows⟩ | hprimitive)
          · cases hnull
          · exact not_writable_iff.2 hthrows (hall p hp)
          · exact hobject hprimitive
      · exact .inr ⟨thrown, by rw [hdelta, hthrown]; rfl, .inr (.inr ⟨hkeys, hobject⟩)⟩
    · exact .inr ⟨thrown, by rw [hthrown]; rfl, .inr (.inl ⟨p, hp, not_writable_iff.1 hread⟩)⟩

theorem eq_ofJson_of_cloneState {state copy : Value} (h : cloneState state = .ok copy) :
    ∃ json, state.stringify = .ok (some json) ∧ copy = ofJson json := by
  unfold cloneState at h
  cases hs : state.stringify with
  | error thrown => rw [hs] at h; cases h
  | ok json =>
    rw [hs] at h
    cases json with
    | none => cases h
    | some json => exact ⟨json, rfl, (Except.ok.inj h).symm⟩

/-! ### When a mutation leaves no trace -/

theorem Runtime.SameAs.refl (room : Runtime) : room.SameAs room := by
  constructor <;> intros <;> rfl

theorem thrown_sendPlayerDelta (room : Runtime) {delta : List (String × Value)}
    (h : ∀ p ∈ delta, p.2.Writable) (userId : String) (version : ℚ) :
    (room.sendPlayerDelta userId delta version).thrown = none := by
  obtain ⟨json, hjson⟩ := stringifyFields_ok h
  simp only [Runtime.sendPlayerDelta, hjson]

theorem untraced_iff_of_unchanged (room : Runtime) (thrown : Thrown) {p : Prop} (hp : p) :
    Outcome.Untraced room { room, thrown := some thrown } ↔ p :=
  ⟨fun _ => hp, fun _ _ => ⟨.refl room, rfl⟩⟩

/-- A statement about what a state is updated to is one about the value that the updater returns. -/
theorem forall_updated {updater : Updater} {state : Except Thrown Value}
    {p : Value → Value → Prop} (hstate : state = .ok oldState)
    (hupdater : updater oldState = .ok newState) :
    (∀ oldState newState, state = .ok oldState → updater oldState = .ok newState →
      p oldState newState) ↔ p oldState newState := by
  constructor
  · exact fun h => h oldState newState hstate hupdater
  · intro h old new hold hnew
    cases hstate.symm.trans hold
    cases hupdater.symm.trans hnew
    exact h

/-- `setSharedState` leaves no trace if what it puts back is what was there, and what it does not
put back can be described. -/
theorem untraced_setSharedState (env : Env) (now : ℕ) (room : Runtime) (updater : Updater) :
    (room.setSharedState env now updater).Untraced room ↔
      (Mutation.setSharedState updater).Undone env now room := by
  unfold Runtime.setSharedState
  cases hclone : cloneState room.sharedState with
  | error thrown =>
    exact untraced_iff_of_unchanged room thrown fun _ _ h => by rw [hclone] at h; cases h
  | ok oldState =>
    cases hupdater : updater oldState with
    | error thrown =>
      simp only [hupdater]
      refine untraced_iff_of_unchanged room thrown fun old new hold hnew => ?_
      cases hclone.symm.trans hold
      cases hupdater.symm.trans hnew
    | ok newState =>
      have hundone := forall_updated (p := fun oldState newState =>
        ((room.putShared env now newState).Fits env → ¬ Undescribed oldState newState) ∧
          (¬ (room.putShared env now newState).Fits env → oldState = room.sharedState))
        hclone hupdater
      rw [Mutation.Undone, hundone]
      simp only [hupdater]
      cases hcheck : (room.putShared env now newState).checkStateSizeLimit env with
      | error thrown =>
        have hunfit : ¬ (room.putShared env now newState).Fits env := by
          simp [Runtime.Fits, hcheck]
        constructor
        · intro h
          exact ⟨fun hfit => absurd hfit hunfit, fun _ => (h (by simp)).1.sharedState⟩
        · intro h _
          obtain rfl := h.2 hunfit
          exact ⟨.refl room, rfl⟩
      | ok _ =>
        have hfit : (room.putShared env now newState).Fits env := hcheck
        obtain ⟨json, -, rfl⟩ := eq_ofJson_of_cloneState hclone
        rcases computeDelta_cases json newState with
          ⟨delta, hdelta, -, hdescribed⟩ | ⟨thrown, hthrown, hundescribed⟩
        · refine iff_of_true ?_ ⟨fun _ => hdescribed, fun hunfit => absurd hfit hunfit⟩
          simp only [hdelta]
          cases delta with
          | none => exact fun h => absurd rfl h
          | some delta => exact fun h => absurd rfl h
        · simp only [hthrown]
          refine iff_of_false (fun h => ?_) fun h => h.1 hfit hundescribed
          -- the version shows it
          have hversion : room.sharedVersion + 1 = room.sharedVersion :=
            (h (by simp)).1.sharedVersion
          exact absurd hversion (by simp)

theorem playerVersion_putPlayer (env : Env) (now : ℕ) (room : Runtime) (userId : String)
    (newState : Value) : (room.putPlayer env now userId newState).playerVersion userId =
      room.playerVersion userId + 1 := by
  simp [Runtime.putPlayer, Runtime.markDirty, Runtime.playerVersion]

/-- An update of a player that is put back leaves no trace if the state that is put in the place of
one is that one. -/
theorem untraced_reverted_player (env : Env) (now : ℕ) (room : Runtime) (userId : String)
    (oldState newState : Value) (thrown : Thrown) :
    Outcome.Untraced room
      { room := { room.putPlayer env now userId newState with
          playerStates :=
            if (room.playerStates.lookup userId).isSome then
              Assoc.set (room.putPlayer env now userId newState).playerStates userId oldState
            else
              restrict (· ≠ userId) (room.putPlayer env now userId newState).playerStates
          playerVersions :=
            Assoc.set (room.putPlayer env now userId newState).playerVersions userId
              (room.playerVersion userId)
          dirty := room.dirty
          stateSaveAt := room.stateSaveAt }
        thrown := some thrown } ↔
      ∀ state, room.playerStates.lookup userId = some state → oldState = state := by
  constructor
  · intro h state hstate
    have hsame := (h (by simp)).1.playerState userId
    simpa [hstate] using hsame
  · intro h _
    refine ⟨⟨rfl, rfl, fun id => ?_, fun id => ?_, rfl, rfl, rfl, rfl⟩, rfl⟩
    · by_cases hid : id = userId
      · subst hid
        cases hstate : room.playerStates.lookup id with
        | none => simp [lookup_restrict]
        | some state => simp [h state hstate]
      · have hput : (room.putPlayer env now userId newState).playerStates.lookup id =
            room.playerStates.lookup id := lookup_set_of_ne _ hid _
        split_ifs
        · rw [lookup_set_of_ne _ hid, hput]
        · rw [lookup_restrict, if_pos (by simpa using hid), hput]
    · by_cases hid : id = userId
      · subst hid
        simp [Runtime.playerVersion]
      · simp [Runtime.playerVersion, Runtime.putPlayer, Runtime.markDirty,
          lookup_set_of_ne _ hid]

/-- `setPlayerState` as well, for the state of a player who has one. -/
theorem untraced_setPlayerState (env : Env) (now : ℕ) (room : Runtime) (userId : String)
    (updater : Updater) : (room.setPlayerState env now userId updater).Untraced room ↔
      (Mutation.setPlayerState userId updater).Undone env now room := by
  unfold Runtime.setPlayerState
  cases hclone : cloneState (room.playerState userId) with
  | error thrown =>
    exact untraced_iff_of_unchanged room thrown fun _ _ h => by rw [hclone] at h; cases h
  | ok oldState =>
    cases hupdater : updater oldState with
    | error thrown =>
      simp only [hupdater]
      refine untraced_iff_of_unchanged room thrown fun old new hold hnew => ?_
      cases hclone.symm.trans hold
      cases hupdater.symm.trans hnew
    | ok newState =>
      have hundone := forall_updated (p := fun oldState newState =>
        ((room.putPlayer env now userId newState).Fits env → ¬ Undescribed oldState newState) ∧
          (¬ (room.putPlayer env now userId newState).Fits env →
            ∀ state, room.playerStates.lookup userId = some state → oldState = state))
        hclone hupdater
      rw [Mutation.Undone, hundone]
      simp only [hupdater]
      cases hcheck : (room.putPlayer env now userId newState).checkStateSizeLimit env with
      | error thrown =>
        have hunfit : ¬ (room.putPlayer env now userId newState).Fits env := by
          simp [Runtime.Fits, hcheck]
        have hback := untraced_reverted_player env now room userId oldState newState thrown
        exact hback.trans ⟨fun h => ⟨fun hfit => absurd hfit hunfit, fun _ => h⟩,
          fun h => h.2 hunfit⟩
      | ok _ =>
        have hfit : (room.putPlayer env now userId newState).Fits env := hcheck
        obtain ⟨json, -, rfl⟩ := eq_ofJson_of_cloneState hclone
        rcases computeDelta_cases json newState with
          ⟨delta, hdelta, hwritable, hdescribed⟩ | ⟨thrown, hthrown, hundescribed⟩
        · refine iff_of_true ?_ ⟨fun _ => hdescribed, fun hunfit => absurd hfit hunfit⟩
          simp only [hdelta]
          cases delta with
          | none => exact fun h => absurd rfl h
          | some delta =>
            exact fun h => absurd (thrown_sendPlayerDelta _ (hwritable delta rfl) userId _) h
        · simp only [hthrown]
          refine iff_of_false (fun h => ?_) fun h => h.1 hfit hundescribed
          have hversion := (h (by simp)).1.playerVersion userId
          rw [playerVersion_putPlayer] at hversion
          exact absurd hversion (by simp)

/-- `setServerState` puts back the very state that was there. -/
theorem untraced_setServerState (env : Env) (now : ℕ) (room : Runtime) (updater : Updater) :
    (room.setServerState env now updater).Untraced room := by
  unfold Runtime.setServerState
  cases cloneState room.serverState with
  | error thrown => exact fun _ => ⟨.refl room, rfl⟩
  | ok state =>
    dsimp only
    cases updater state with
    | error thrown => exact fun _ => ⟨.refl room, rfl⟩
    | ok newState =>
      dsimp only
      cases (room.putServer env now newState).checkStateSizeLimit env with
      | error thrown => exact fun _ => ⟨.refl room, rfl⟩
      | ok _ => exact fun h => absurd rfl h

def bigTotal : Value :=
  .custom (some (some (.obj [("total", .str "10")])))
    [("total", .unwritable), ("toJSON", .undefined)]

end EdgeBase.RoomMutations
