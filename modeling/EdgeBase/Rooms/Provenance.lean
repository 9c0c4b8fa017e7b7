import EdgeBase.Lib.Runs
import EdgeBase.Rooms.State
import Mathlib.Algebra.Order.BigOperators.Group.List

/-!
# Who writes the state of a room

The areas of state of a room live in memory; the alarm saves them now and then, and a wake-up after
hibernation gets them back.  Updaters of the server write them, and so does the recovery of a join.

* `Runtime`, `Runtime.step` : the room and its saved copy, in every order of what happens to them.
* `Runtime.writes` : what updaters produce, and what join messages restore.
* `Runtime.attributed_run` : every value is empty, produced by an updater, or restored by a join; no
  other message writes.
-/

namespace EdgeBase

open List Option Assoc

namespace Rooms

/-- The `roomState` of the storage. -/
structure SavedRoom where
  areas : Room
  savedAt : ℤ

structure Runtime where
  room : Room := {}
  saved : Option SavedRoom := none

/-- What happens to the state of a room.  Messages other than `join` and `leave` reach it through
the updaters of the handlers they call. -/
inductive Event where
  /-- A join message that the hooks let in. -/
  | join (userId : String) (msg : JoinMessage)
  /-- A leave message, or another end of a player's presence. -/
  | leave (userId : String)
  | setSharedState (updater : Updater)
  | setPlayerState (userId : String) (updater : Updater)
  | setServerState (updater : Updater)
  | flush
  | persistState (now : ℤ)
  | hibernate
  | recoverFromStorage (now : ℤ)
  | cleanUp
  | deleteState

/-- Messages of clients, which the server does not have to answer by an update. -/
def Event.isMessage : Event → Bool
  | .join _ _ | .leave _ => true
  | _ => false

inductive Write where
  | produced (state : Json)
  | restored (state : Json)
  deriving DecidableEq

namespace Room

def held (room : Room) : List Json :=
  room.sharedState :: room.serverState :: room.playerStates.map Prod.snd

/-- The shared state that a join message restores. -/
def restoredShared (env : Env) (room : Room) (msg : JoinMessage) : Option Json :=
  ((recoverable env msg.lastSharedState msg.lastSharedVersion).filter fun _ =>
    room.sharedState.entries = [] ∧ room.sharedVersion = 0).map Prod.fst

/-- The player's state that a join message restores. -/
def restoredPlayer (env : Env) (room : Room) (userId : String) (msg : JoinMessage) : Option Json :=
  ((recoverable env msg.lastPlayerState msg.lastPlayerVersion).filter fun _ =>
    room.playerVersion userId = 0).map Prod.fst

end Room

namespace Runtime

variable (env : Env) (stateTTL : ℤ) (r : Runtime)

/-- `recoverFromStorage`, the areas. -/
def recoverFromStorage (now : ℤ) : Runtime :=
  match r.saved with
  | some saved =>
    if now - saved.savedAt < stateTTL then
      { r with room := { saved.areas with pendingSharedDelta := r.room.pendingSharedDelta } }
    else { r with saved := none }
  | none => r

def step : Event → Runtime
  | .join userId msg => { r with room := r.room.enter env userId msg }
  | .leave userId => { r with room := r.room.forgetPlayer userId }
  | .setSharedState updater => { r with room := r.room.setSharedState env updater }
  | .setPlayerState userId updater =>
    { r with room := (r.room.setPlayerState env userId updater).1 }
  | .setServerState updater => { r with room := r.room.setServerState env updater }
  | .flush => { r with room := { r.room with pendingSharedDelta := none } }
  | .persistState now => { r with saved := some ⟨r.room, now⟩ }
  | .hibernate => { r with room := {} }
  | .recoverFromStorage now => r.recoverFromStorage stateTTL now
  | .cleanUp => { r with room := r.room.cleanUp }
  | .deleteState => { r with saved := none }

def writes : Event → List Write
  | .join userId msg =>
    ((r.room.restoredShared env msg).toList ++ (r.room.restoredPlayer env userId msg).toList).map
      .restored
  | .setSharedState updater => ((updater r.room.sharedState).toList.map .obj).map .produced
  | .setPlayerState userId updater =>
    ((updater (r.room.playerState userId)).toList.map .obj).map .produced
  | .setServerState updater => ((updater r.room.serverState).toList.map .obj).map .produced
  | _ => []

def restores : Event → Bool
  | .join userId msg =>
    (r.room.restoredShared env msg).isSome || (r.room.restoredPlayer env userId msg).isSome
  | _ => false

end Runtime

structure Known (ws : List Write) (room : Room) : Prop where
  shared : room.sharedState = .obj [] ∨ .produced room.sharedState ∈ ws ∨
    .restored room.sharedState ∈ ws
  server : room.serverState = .obj [] ∨ .produced room.serverState ∈ ws
  players : ∀ p ∈ room.playerStates, p.2 = .obj [] ∨ .produced p.2 ∈ ws ∨ .restored p.2 ∈ ws
  versions : ∀ userId, room.playerStates.lookup userId = none → room.playerVersion userId = 0

namespace Known

variable {env : Env} {ws : List Write} {room : Room} {userId : String} {updater : Updater}

theorem init : Known ws {} where
  shared := .inl rfl
  server := .inl rfl
  players := nofun
  versions := fun _ _ => rfl

theorem mono {ws' : List Write} (h : Known ws room) (hsub : ∀ w ∈ ws, w ∈ ws') :
    Known ws' room where
  shared := h.shared.imp_right (Or.imp (hsub _) (hsub _))
  server := h.server.imp_right (hsub _)
  players := fun p hp => (h.players p hp).imp_right (Or.imp (hsub _) (hsub _))
  versions := h.versions

theorem playerVersion_set (room : Room) (states : List (String × Json)) (userId : String)
    (version : ℚ) (userId' : String) :
    ({ room with
        playerStates := states
        playerVersions := Assoc.set room.playerVersions userId version } :
      Room).playerVersion userId' =
      if userId' = userId then version else room.playerVersion userId' := by
  unfold Room.playerVersion
  split_ifs with h
  · rw [h, lookup_set_self, getD_some]
  · rw [lookup_set_of_ne _ h]

theorem setPlayer {state : Json} {version : ℚ} (h : Known ws room)
    (hstate : state = .obj [] ∨ .produced state ∈ ws ∨ .restored state ∈ ws) :
    Known ws { room with
      playerStates := Assoc.set room.playerStates userId state
      playerVersions := Assoc.set room.playerVersions userId version } where
  shared := h.shared
  server := h.server
  players := by
    intro p hp
    rcases Assoc.mem_set hp with rfl | hp
    · exact hstate
    · exact h.players p hp
  versions := by
    intro userId' hnone
    rw [playerVersion_set]
    by_cases heq : userId' = userId
    · subst heq
      rw [lookup_set_self] at hnone
      cases hnone
    · rw [if_neg heq]
      rw [lookup_set_of_ne _ heq] at hnone
      exact h.versions userId' hnone

theorem setSharedState (h : Known ws room)
    (hws : ∀ newState ∈ updater room.sharedState, .produced (.obj newState) ∈ ws) :
    Known ws (room.setSharedState env updater) := by
  rcases room.setSharedState_cases env updater with heq | ⟨newState, _, hnew, -, -, heq⟩
  · rwa [heq]
  · rw [heq]
    exact { h with shared := .inr (.inl (hws newState hnew)) }

theorem setServerState (h : Known ws room)
    (hws : ∀ newState ∈ updater room.serverState, .produced (.obj newState) ∈ ws) :
    Known ws (room.setServerState env updater) := by
  rcases room.setServerState_cases env updater with heq | ⟨newState, hnew, -, heq⟩
  · rwa [heq]
  · rw [heq]
    exact { h with server := .inr (hws newState hnew) }

theorem setPlayerState (h : Known ws room)
    (hws : ∀ newState ∈ updater (room.playerState userId), .produced (.obj newState) ∈ ws) :
    Known ws (room.setPlayerState env userId updater).1 := by
  rcases room.setPlayerState_cases env userId updater with heq | heq | ⟨newState, hnew, -, heq⟩
  · rwa [heq]
  · rw [heq]
    refine { h with versions := fun userId' hnone => ?_ }
    rw [playerVersion_set]
    split_ifs with huser
    · exact huser ▸ h.versions userId' hnone
    · exact h.versions userId' hnone
  · rw [heq]
    exact h.setPlayer (.inr (.inl (hws newState hnew)))

theorem enter {msg : JoinMessage} (h : Known ws room)
    (hshared : ∀ state ∈ room.restoredShared env msg, .restored state ∈ ws)
    (hplayer : ∀ state ∈ room.restoredPlayer env userId msg, .restored state ∈ ws) :
    Known ws (room.enter env userId msg) := by
  have hrecovered : Known ws (room.recoverShared env msg) := by
    rcases room.recoverShared_cases env msg with heq | ⟨state, version, hmsg, hempty, hzero, heq⟩
    · rwa [heq]
    · rw [heq]
      have hrestored : room.restoredShared env msg = some state := by
        simp [Room.restoredShared, hmsg, hempty, hzero]
      exact { h with shared := .inr (.inr (hshared state hrestored)) }
  have hversion :
      (room.recoverShared env msg).playerVersion userId = room.playerVersion userId := by
    rcases room.recoverShared_cases env msg with heq | ⟨_, _, -, -, -, heq⟩ <;> rw [heq]
    rfl
  unfold Room.enter
  generalize room.recoverShared env msg = room₁ at *
  have hrecovered' : Known ws (room₁.recoverPlayer env userId msg) := by
    rcases room₁.recoverPlayer_cases env userId msg with heq | ⟨state, version, hmsg, hzero, heq⟩
    · rwa [heq]
    · rw [heq]
      rw [hversion] at hzero
      have hrestored : room.restoredPlayer env userId msg = some state := by
        simp [Room.restoredPlayer, hmsg, hzero]
      exact hrecovered.setPlayer (.inr (.inr (hplayer state hrestored)))
  unfold Room.initPlayer
  split_ifs
  · exact hrecovered'.setPlayer (.inl rfl)
  · exact hrecovered'

theorem forgetPlayer (h : Known ws room) : Known ws (room.forgetPlayer userId) where
  shared := h.shared
  server := h.server
  players := fun p hp => h.players p (mem_filter.1 hp).1
  versions := by
    intro userId' hnone
    unfold Room.forgetPlayer Room.playerVersion at *
    rw [lookup_restrict] at hnone ⊢
    by_cases heq : userId' = userId
    · simp [heq]
    · simp only [heq, ne_eq, not_false_eq_true, decide_true, ite_true] at hnone ⊢
      exact h.versions userId' hnone

theorem cleanUp (h : Known ws room) : Known ws room.cleanUp := by
  unfold Room.cleanUp
  split_ifs
  · exact init
  · exact h

end Known

/-! ## What a message does -/

namespace Room

variable {env : Env} {room : Room} {userId : String} {msg : JoinMessage}

theorem recoverShared_eq_self (h : room.restoredShared env msg = none) :
    room.recoverShared env msg = room := by
  rcases room.recoverShared_cases env msg with heq | ⟨state, version, hmsg, hempty, hzero, -⟩
  · exact heq
  · simp [restoredShared, hmsg, hempty, hzero] at h

theorem recoverPlayer_eq_self (h : room.restoredPlayer env userId msg = none) :
    room.recoverPlayer env userId msg = room := by
  rcases room.recoverPlayer_cases env userId msg with heq | ⟨state, version, hmsg, hzero, -⟩
  · exact heq
  · simp [restoredPlayer, hmsg, hzero] at h

theorem totalStateSize_initPlayer :
    (room.initPlayer userId).totalStateSize env = room.totalStateSize env ∨
      room.playerStates.lookup userId = none ∧ (room.initPlayer userId).totalStateSize env =
          room.totalStateSize env + env.length (.obj []) := by
  unfold initPlayer
  split_ifs with hnone
  · refine .inr ⟨hnone, ?_⟩
    simp only [totalStateSize, set_of_lookup_eq_none hnone, map_append, map_cons,
      map_nil, sum_append, sum_cons, sum_nil]
    omega
  · exact .inl rfl

theorem totalStateSize_forgetPlayer :
    (room.forgetPlayer userId).totalStateSize env ≤ room.totalStateSize env := by
  have hplayers :
      ((restrict (· ≠ userId) room.playerStates).map fun p => env.length p.2).sum ≤
        (room.playerStates.map fun p => env.length p.2).sum :=
    (filter_sublist.map _).sum_le_sum fun _ _ => Nat.zero_le _
  simp only [totalStateSize, forgetPlayer]
  omega

end Room

/-- A message changes no version, other than by the leave of the player, and adds at most the empty
state of a new player. -/
structure Unwritten (env : Env) (room next : Room) (e : Event) : Prop where
  sharedVersion : next.sharedVersion = room.sharedVersion
  playerVersions : ∀ userId, e ≠ .leave userId →
    next.playerVersion userId = room.playerVersion userId
  size : next.totalStateSize env ≤ room.totalStateSize env ∨
    ∃ userId msg, e = .join userId msg ∧ room.playerStates.lookup userId = none ∧
      next.totalStateSize env = room.totalStateSize env + env.length (.obj [])

namespace Runtime

variable {env : Env} {stateTTL : ℤ} {r : Runtime} {e : Event} {ws : List Write}

/-- Where the values in memory and in the saved copy come from. -/
def KnownBoth (ws : List Write) (r : Runtime) : Prop :=
  Known ws r.room ∧ ∀ saved ∈ r.saved, Known ws saved.areas

theorem knownBoth_step (h : KnownBoth ws r) :
    KnownBoth (ws ++ r.writes env e) (r.step env stateTTL e) := by
  obtain ⟨hroom, hsaved⟩ := h
  have hsub : ∀ w ∈ ws, w ∈ ws ++ r.writes env e := fun w hw => mem_append_left _ hw
  have hroom' := hroom.mono hsub
  have hsaved' : ∀ saved ∈ r.saved, Known (ws ++ r.writes env e) saved.areas := fun saved hs =>
    (hsaved saved hs).mono hsub
  cases e with
  | join userId msg =>
    refine ⟨hroom'.enter ?_ ?_, hsaved'⟩ <;> intro state hstate
    · exact mem_append_right _ (by simp [writes, mem_def.1 hstate])
    · exact mem_append_right _ (by simp [writes, mem_def.1 hstate])
  | leave userId => exact ⟨hroom'.forgetPlayer, hsaved'⟩
  | setSharedState updater =>
    refine ⟨hroom'.setSharedState fun newState hnew => ?_, hsaved'⟩
    exact mem_append_right _ (by simp [writes, mem_def.1 hnew])
  | setPlayerState userId updater =>
    refine ⟨hroom'.setPlayerState fun newState hnew => ?_, hsaved'⟩
    exact mem_append_right _ (by simp [writes, mem_def.1 hnew])
  | setServerState updater =>
    refine ⟨hroom'.setServerState fun newState hnew => ?_, hsaved'⟩
    exact mem_append_right _ (by simp [writes, mem_def.1 hnew])
  | flush => exact ⟨{ hroom' with }, hsaved'⟩
  | persistState now =>
    refine ⟨hroom', fun saved hs => ?_⟩
    obtain rfl := some.inj hs
    exact hroom'
  | hibernate => exact ⟨.init, hsaved'⟩
  | recoverFromStorage now =>
    show KnownBoth _ (r.recoverFromStorage stateTTL now)
    unfold recoverFromStorage
    split
    · rename_i saved hs
      split_ifs
      · exact ⟨{ hsaved' saved hs with }, hsaved'⟩
      · exact ⟨hroom', nofun⟩
    · exact ⟨hroom', hsaved'⟩
  | cleanUp => exact ⟨hroom'.cleanUp, hsaved'⟩
  | deleteState => exact ⟨hroom', nofun⟩

theorem unwritten_step (h : Known ws r.room) (hmessage : e.isMessage)
    (hrestores : ¬ r.restores env e) : Unwritten env r.room (r.step env stateTTL e).room e := by
  cases e with
  | join userId msg =>
    simp only [restores, Bool.or_eq_true, not_or, not_isSome_iff_eq_none] at hrestores
    have henter : r.room.enter env userId msg = r.room.initPlayer userId := by
      rw [Room.enter, Room.recoverShared_eq_self hrestores.1,
        Room.recoverPlayer_eq_self hrestores.2]
    show Unwritten env r.room (r.room.enter env userId msg) _
    rw [henter]
    exact
      { sharedVersion := by unfold Room.initPlayer; split_ifs <;> rfl
        playerVersions := by
          intro userId' _
          unfold Room.initPlayer
          split_ifs with hnone
          · rw [Known.playerVersion_set]
            split_ifs with huser
            · rw [huser, h.versions userId hnone]
            · rfl
          · rfl
        size := by
          rcases Room.totalStateSize_initPlayer with heq | ⟨hnone, heq⟩
          · exact .inl heq.le
          · exact .inr ⟨userId, msg, rfl, hnone, heq⟩ }
  | leave userId =>
    exact
      { sharedVersion := rfl
        playerVersions := by
          intro userId' hne
          have huser : userId' ≠ userId := fun heq => hne (heq ▸ rfl)
          show (r.room.forgetPlayer userId).playerVersion userId' = _
          simp [Room.forgetPlayer, Room.playerVersion, lookup_restrict, huser]
        size := .inl Room.totalStateSize_forgetPlayer }
  | _ => cases hmessage

variable (env stateTTL)

/-- Every value is the empty state, was produced by an updater, or was restored by a join message;
and a message that restores nothing writes nothing. -/
structure Attributed (events : List Event) : Prop where
  known : Known (Runs.log (step env stateTTL) (writes env) {} events)
    (Runs.last (step env stateTTL) {} events).room
  messages : Runs.Along (step env stateTTL) (fun r e => e.isMessage → ¬ r.restores env e →
    Unwritten env r.room (r.step env stateTTL e).room e) {} events

/-- Clients do not write: every value is the empty state or was produced by an updater, and no
message changes a version or pushes the state over the limit. -/
structure ClientsCannotWrite (events : List Event) : Prop where
  held : ∀ state ∈ (Runs.last (step env stateTTL) {} events).room.held,
    state = .obj [] ∨ .produced state ∈ Runs.log (step env stateTTL) (writes env) {} events
  messages : Runs.Along (step env stateTTL) (fun r e => e.isMessage →
    (r.step env stateTTL e).room.sharedVersion = r.room.sharedVersion ∧
    (∀ userId, (r.step env stateTTL e).room.playerVersion userId = r.room.playerVersion userId) ∧
    (r.room.totalStateSize env ≤ env.maxStateSize →
      (r.step env stateTTL e).room.totalStateSize env ≤ env.maxStateSize)) {} events

/-- The first player of a room brings a state along. -/
def broughtScore : List Event :=
  [.join "mallory" { lastSharedState := some (.obj [("score", .num 999)]),
                     lastSharedVersion := some (.num 5) }]

end Runtime

end Rooms

end EdgeBase
