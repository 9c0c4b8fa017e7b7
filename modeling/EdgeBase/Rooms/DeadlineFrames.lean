import EdgeBase.Rooms.Deadlines
import Mathlib.Data.List.MinMax

/-!
# What arms the alarm

Most of what a handler does to the deadlines is to add or delete one, to write them to the storage
and to set the alarm anew.

* `armed_exec` : every section leaves the alarm armed.
-/

namespace EdgeBase

open List

namespace Rooms

namespace Deadlines

variable {env : Settings} {s s' s'' : RoomRuntime} {outcome : Outcome} {sec : Section}

/-- The alarm is set for no later than each deadline, or the next millisecond. -/
def Armed (s : RoomRuntime) : Prop := ∀ d ∈ s.deadlines, ∃ a ∈ s.alarmAt, a ≤ max d (s.now + 1)

instance : Decidable (Armed s) := by
  unfold Armed
  infer_instance

theorem armed_scheduleNextAlarm (s : RoomRuntime) : Armed s.scheduleNextAlarm := by
  unfold RoomRuntime.scheduleNextAlarm
  cases hmin : s.deadlines.min? with
  | none =>
    intro d hd
    rw [List.min?_eq_none_iff.1 hmin] at hd
    cases hd
  | some earliest =>
    intro d hd
    refine ⟨_, rfl, max_le_max ?_ le_rfl⟩
    exact (List.min?_eq_some_iff.1 hmin).2 d hd

structure Fewer (s s' : RoomRuntime) : Prop where
  timers : s'.timers ⊆ s.timers
  pendingAuth : s'.pendingAuth ⊆ s.pendingAuth
  disconnectTimers : s'.disconnectTimers ⊆ s.disconnectTimers
  emptyRoomCleanupAt : s'.emptyRoomCleanupAt.toList ⊆ s.emptyRoomCleanupAt.toList
  stateSaveAt : s'.stateSaveAt.toList ⊆ s.stateSaveAt.toList
  stateTTLAlarmAt : s'.stateTTLAlarmAt.toList ⊆ s.stateTTLAlarmAt.toList
  socketHeartbeatCheckAt : s'.socketHeartbeatCheckAt.toList ⊆ s.socketHeartbeatCheckAt.toList
  alarmAt : s'.alarmAt = s.alarmAt
  now : s.now ≤ s'.now

theorem Fewer.refl (s : RoomRuntime) : Fewer s s where
  timers := fun _ => id
  pendingAuth := fun _ => id
  disconnectTimers := fun _ => id
  emptyRoomCleanupAt := fun _ => id
  stateSaveAt := fun _ => id
  stateTTLAlarmAt := fun _ => id
  socketHeartbeatCheckAt := fun _ => id
  alarmAt := rfl
  now := le_rfl

theorem Fewer.deadlines (h : Fewer s s') : s'.deadlines ⊆ s.deadlines := by
  intro d
  simp only [RoomRuntime.deadlines, mem_append, mem_map]
  rintro ((((((⟨t, ht, rfl⟩ | ⟨p, hp, rfl⟩) | ⟨t, ht, rfl⟩) | hd) | hd) | hd) | hd)
  · exact .inl (.inl (.inl (.inl (.inl (.inl ⟨t, h.timers ht, rfl⟩)))))
  · exact .inl (.inl (.inl (.inl (.inl (.inr ⟨p, h.pendingAuth hp, rfl⟩)))))
  · exact .inl (.inl (.inl (.inl (.inr ⟨t, h.disconnectTimers ht, rfl⟩))))
  · exact .inl (.inl (.inl (.inr (h.emptyRoomCleanupAt hd))))
  · exact .inl (.inl (.inr (h.stateSaveAt hd)))
  · exact .inl (.inr (h.stateTTLAlarmAt hd))
  · exact .inr (h.socketHeartbeatCheckAt hd)

theorem Armed.of_fewer (harmed : Armed s) (h : Fewer s s') : Armed s' := by
  intro d hd
  obtain ⟨a, ha, hle⟩ := harmed d (h.deadlines hd)
  have hnow := h.now
  exact ⟨a, h.alarmAt ▸ ha, hle.trans (max_le_max le_rfl (by omega))⟩

/-- A change that leaves the sockets, the players, the named timers and what is seen of them, and
leaves the alarm armed. -/
structure Minor (s s' : RoomRuntime) : Prop where
  sockets : s'.sockets = s.sockets
  players : s'.players = s.players
  playerStates : s'.playerStates = s.playerStates
  hasState : s'.hasState = s.hasState
  timers : s'.timers = s.timers
  pendingAuth : s'.pendingAuth = s.pendingAuth
  stateRecoveryNeeded : s'.stateRecoveryNeeded = s.stateRecoveryNeeded
  saved : s'.saved = s.saved
  storedTimers : s'.storedTimers = s.storedTimers
  drawn : s'.drawn = s.drawn
  calls : s'.calls = s.calls
  now : s'.now = s.now
  history : s'.history = s.history
  armed : Armed s → Armed s'

namespace Minor

theorem refl (s : RoomRuntime) : Minor s s where
  sockets := rfl
  players := rfl
  playerStates := rfl
  hasState := rfl
  timers := rfl
  pendingAuth := rfl
  stateRecoveryNeeded := rfl
  saved := rfl
  storedTimers := rfl
  drawn := rfl
  calls := rfl
  now := rfl
  history := rfl
  armed := id

theorem trans (h : Minor s s') (h' : Minor s' s'') : Minor s s'' where
  sockets := h'.sockets.trans h.sockets
  players := h'.players.trans h.players
  playerStates := h'.playerStates.trans h.playerStates
  hasState := h'.hasState.trans h.hasState
  timers := h'.timers.trans h.timers
  pendingAuth := h'.pendingAuth.trans h.pendingAuth
  stateRecoveryNeeded := h'.stateRecoveryNeeded.trans h.stateRecoveryNeeded
  saved := h'.saved.trans h.saved
  storedTimers := h'.storedTimers.trans h.storedTimers
  drawn := h'.drawn.trans h.drawn
  calls := h'.calls.trans h.calls
  now := h'.now.trans h.now
  history := h'.history.trans h.history
  armed := h'.armed ∘ h.armed

end Minor

theorem minor_syncEphemeralTimersToStorage (s : RoomRuntime) :
    Minor s s.syncEphemeralTimersToStorage := by
  unfold RoomRuntime.syncEphemeralTimersToStorage
  split_ifs
  · exact .refl s
  · exact { Minor.refl s with armed := fun h => h.of_fewer { Fewer.refl s with } }

theorem minor_scheduleNextAlarm (s : RoomRuntime) : Minor s s.scheduleNextAlarm := by
  have harmed := armed_scheduleNextAlarm s
  unfold RoomRuntime.scheduleNextAlarm at harmed ⊢
  split
  · rename_i hmin
    rw [hmin] at harmed
    exact { Minor.refl s with armed := fun _ => harmed }
  · exact .refl s

theorem minor_flush (s : RoomRuntime) : Minor s s.syncEphemeralTimersToStorage.scheduleNextAlarm :=
  (minor_syncEphemeralTimersToStorage s).trans (minor_scheduleNextAlarm _)

theorem minor_deleteTimer (s : RoomRuntime) (userId : String) : Minor s (s.deleteTimer userId) := by
  unfold RoomRuntime.deleteTimer
  split_ifs
  · exact { minor_flush _ with armed := fun _ => armed_scheduleNextAlarm _ }
  · exact .refl s

theorem minor_startReconnectTimer (s : RoomRuntime) (connectionId userId : String) :
    Minor s (s.startReconnectTimer env connectionId userId) :=
  { minor_flush _ with armed := fun _ => armed_scheduleNextAlarm _ }

theorem minor_scheduleEmptyRoomCleanup (s : RoomRuntime) :
    Minor s (s.scheduleEmptyRoomCleanup env) :=
  { minor_flush _ with armed := fun _ => armed_scheduleNextAlarm _ }

theorem minor_scheduleIfEmpty (s : RoomRuntime) : Minor s (s.scheduleIfEmpty env) := by
  unfold RoomRuntime.scheduleIfEmpty
  split_ifs
  · exact minor_scheduleEmptyRoomCleanup s
  · exact .refl s

theorem minor_ensureSocketHeartbeatCheckScheduled (s : RoomRuntime) :
    Minor s (s.ensureSocketHeartbeatCheckScheduled env) := by
  unfold RoomRuntime.ensureSocketHeartbeatCheckScheduled
  dsimp only
  split_ifs
  · exact { Minor.refl s with
      armed := fun h => h.of_fewer { Fewer.refl s with socketHeartbeatCheckAt := nofun } }
  · exact { minor_scheduleNextAlarm _ with armed := fun _ => armed_scheduleNextAlarm _ }
  · exact .refl s

theorem armed_markDirty (s : RoomRuntime) : Armed (s.markDirty env) := by
  unfold RoomRuntime.markDirty
  dsimp only
  split <;> exact armed_scheduleNextAlarm _

theorem minor_markDirty (s : RoomRuntime) : Minor s (s.markDirty env) := by
  unfold RoomRuntime.markDirty
  dsimp only
  split
  · exact { minor_flush _ with armed := fun _ => armed_scheduleNextAlarm _ }
  · exact { minor_scheduleNextAlarm _ with armed := fun _ => armed_scheduleNextAlarm _ }

/-! ## Sections -/

theorem armed_deletePendingAuth (h : Armed s) (connectionId : String) :
    Armed (s.deletePendingAuth connectionId) := by
  unfold RoomRuntime.deletePendingAuth
  split_ifs
  · exact armed_scheduleNextAlarm _
  · exact h

theorem armed_recoverRuntimeStateFromSockets (h : Armed s) :
    Armed (s.recoverRuntimeStateFromSockets env) := by
  unfold RoomRuntime.recoverRuntimeStateFromSockets
  refine (minor_ensureSocketHeartbeatCheckScheduled _).armed ?_
  split_ifs
  · exact armed_scheduleNextAlarm _
  · exact h.of_fewer { Fewer.refl s with }

theorem armed_recover (s : RoomRuntime) : Armed (s.recover env) := by
  have hstorage : Armed (s.recoverFromStorage env) := armed_scheduleNextAlarm _
  have hsockets :
      Armed ((s.recoverFromStorage env).recoverRuntimeStateFromSockets env) :=
    armed_recoverRuntimeStateFromSockets hstorage
  unfold RoomRuntime.recover
  generalize (s.recoverFromStorage env).recoverRuntimeStateFromSockets env = s₁ at hsockets ⊢
  exact hsockets.of_fewer { Fewer.refl s₁ with }

variable (h : Armed s)
include h

theorem armed_recoverStateIfNeeded : Armed (s.recoverStateIfNeeded env) := by
  unfold RoomRuntime.recoverStateIfNeeded
  split_ifs
  · exact armed_recover s
  · exact h

theorem armed_mapSockets (p : Socket → Bool) (f : Socket → Socket) :
    Armed (s.mapSockets p f) := h.of_fewer { Fewer.refl s with }

theorem armed_removePlayers (connectionIds : List String) :
    Armed (s.removePlayers connectionIds) := h.of_fewer { Fewer.refl s with }

theorem armed_addPlayer (connectionId userId : String) :
    Armed (s.addPlayer connectionId userId) := h.of_fewer { Fewer.refl s with }

theorem armed_receive (connectionId : String) (message : Message) :
    Armed (s.receive connectionId message).1 := by
  unfold RoomRuntime.receive
  split
  · exact h
  · cases message <;> exact armed_mapSockets h _ _

theorem armed_authenticate (connectionId userId : String)
    (before : Option String) : Armed (s.authenticate connectionId userId before).1 := by
  unfold RoomRuntime.authenticate
  dsimp only
  split_ifs
  · exact h
  · refine armed_addPlayer ((minor_deleteTimer _ userId).armed ?_) _ _
    exact armed_deletePendingAuth (armed_mapSockets h _ _) connectionId
  · exact armed_deletePendingAuth (armed_mapSockets h _ _) connectionId

variable (connectionId : String)

theorem armed_handleExplicitLeave : Armed (s.handleExplicitLeave connectionId).1 := by
  unfold RoomRuntime.handleExplicitLeave
  split
  · exact armed_mapSockets h _ _
  · exact (minor_deleteTimer _ _).armed (armed_removePlayers h _)

theorem armed_handleDisconnect (code : CloseCode) :
    Armed (s.handleDisconnect env connectionId code).1 := by
  unfold RoomRuntime.handleDisconnect
  have hremove := armed_removePlayers h [connectionId]
  split
  · exact h
  · dsimp only
    split
    · exact (minor_scheduleIfEmpty _).armed hremove
    · cases code with
      | kicked => exact (minor_deleteTimer _ _).armed hremove
      | clientLeave => exact (minor_deleteTimer _ _).armed hremove
      | other =>
        dsimp only
        split_ifs
        · exact (minor_scheduleIfEmpty _).armed ((minor_startReconnectTimer _ _ _).armed hremove)
        · exact hremove

theorem armed_webSocketClose (code : CloseCode) :
    Armed (s.webSocketClose env connectionId code).1 :=
  (minor_ensureSocketHeartbeatCheckScheduled _).armed
    (armed_deletePendingAuth (armed_handleDisconnect h connectionId code) connectionId)

theorem armed_expireAuth : Armed s.expireAuth := by
  have hclose (p : Socket → Bool) : Armed
      ({ s with pendingAuth := s.pendingAuth.filter fun p => ¬ p.2 ≤ s.now }.closeSockets p) :=
    h.of_fewer { Fewer.refl s with pendingAuth := filter_sublist.subset }
  unfold RoomRuntime.expireAuth
  dsimp only
  split_ifs
  · exact hclose _
  · exact (minor_syncEphemeralTimersToStorage _).armed (hclose _)

theorem armed_alarm : Armed (s.alarm env).1 := by
  have hrecover : Armed (if s.shouldRecoverBeforeAlarm then s.recover env else s) := by
    split_ifs
    · exact armed_recover s
    · exact h
  unfold RoomRuntime.alarm
  generalize (if s.shouldRecoverBeforeAlarm then s.recover env else s) = s₁ at hrecover ⊢
  exact (armed_expireAuth hrecover).of_fewer
    { Fewer.refl s₁.expireAuth with timers := filter_sublist.subset }

theorem armed_timersFired (now : ℤ) (expired : Bool) : Armed (s.timersFired env now expired).1 := by
  have hdirty : Armed (if expired then s.markDirty env else s) := by
    split_ifs
    · exact (minor_markDirty s).armed h
    · exact h
  unfold RoomRuntime.timersFired
  dsimp only
  generalize (if expired then s.markDirty env else s) = s₁ at hdirty
  exact hdirty.of_fewer { Fewer.refl s₁ with disconnectTimers := filter_sublist.subset }

theorem armed_exec : Armed (s.exec env outcome sec).1 := by
  cases sec with
  | receive connectionId message =>
    exact armed_receive (armed_recoverStateIfNeeded h) connectionId message
  | recoverStateIfNeeded => exact armed_recoverStateIfNeeded h
  | authenticate connectionId userId before =>
    cases outcome with
    | ok => exact armed_authenticate h connectionId userId before
    | failed =>
      unfold RoomRuntime.exec
      dsimp only
      split_ifs
      · exact armed_mapSockets h _ _
      · exact h
    | unavailable => exact h
  | authorized connectionId message =>
    cases outcome with
    | ok =>
      unfold RoomRuntime.exec
      dsimp only
      split_ifs
      · exact armed_handleExplicitLeave h connectionId
      · exact h
    | failed => exact armed_mapSockets h _ _
    | unavailable => exact h
  | closeLeaver => exact armed_mapSockets ((minor_scheduleIfEmpty s).armed h) _ _
  | disconnect connectionId code => exact armed_webSocketClose h connectionId code
  | disconnected => exact (minor_scheduleIfEmpty s).armed h
  | kickPlayer userId => exact (minor_deleteTimer _ userId).armed (armed_removePlayers h _)
  | closeKicked => exact armed_mapSockets h _ _
  | finalizePlayerLeave => exact h
  | forgetPlayer => exact h.of_fewer { Fewer.refl s with }
  | roomDestroyed => exact armed_scheduleNextAlarm _
  | playerLeft => exact h
  | alarm => exact armed_alarm h
  | fireTimer => exact h
  | runTimer => exact h.of_fewer { Fewer.refl s with }
  | timersFired now expired => exact armed_timersFired h now expired
  | cleanUp => exact armed_scheduleNextAlarm _

omit h

/-! ## What follows -/

def Section.isFirst : Section → Bool
  | .receive _ _ | .disconnect _ _ | .kickPlayer _ | .alarm => true
  | _ => false

/-- A section that follows another one, but for those of an alarm. -/
def Section.isSequel : Section → Bool
  | .authenticate _ _ _ | .recoverStateIfNeeded | .authorized _ _ | .closeLeaver _ => true
  | .disconnected | .closeKicked _ => true
  | .finalizePlayerLeave _ | .forgetPlayer _ | .roomDestroyed | .playerLeft => true
  | _ => false

theorem isSequel_exec {sec' : Section} (h : sec' ∈ (s.exec env outcome sec).2.sections)
    (halarm : sec ≠ .alarm) (hfire : ∀ name timer, sec ≠ .fireTimer name timer)
    (hfired : ∀ now expired, sec ≠ .timersFired now expired) : sec'.isSequel = true := by
  have single {sec₀ : Section} (hmem : sec' ∈ [sec₀]) (hsequel : sec₀.isSequel = true) :
      sec'.isSequel = true := mem_singleton.1 hmem ▸ hsequel
  have pair {sec₁ sec₂ : Section} (hmem : sec' ∈ [sec₁, sec₂]) (h₁ : sec₁.isSequel = true)
      (h₂ : sec₂.isSequel = true) : sec'.isSequel = true := by
    rcases mem_pair.1 hmem with rfl | rfl
    · exact h₁
    · exact h₂
  cases sec with
  | receive connectionId message =>
    unfold RoomRuntime.exec RoomRuntime.receive at h
    dsimp only at h
    split at h
    · cases h
    · cases message with
      | auth => exact single h rfl
      | _ =>
        dsimp only at h
        split_ifs at h
        · exact single h rfl
        · cases h
  | authenticate connectionId userId before =>
    cases outcome with
    | ok =>
      unfold RoomRuntime.exec RoomRuntime.authenticate at h
      dsimp only at h
      split_ifs at h
      · cases h
      · exact single h rfl
      · exact single h rfl
    | _ => cases h
  | authorized connectionId message =>
    cases outcome with
    | ok =>
      unfold RoomRuntime.exec RoomRuntime.handleExplicitLeave at h
      dsimp only at h
      split_ifs at h
      · split at h
        · cases h
        · dsimp only [Handlers.Next.sections] at h
          split_ifs at h
          · exact single h rfl
          · exact pair h rfl rfl
      · cases h
    | _ => cases h
  | disconnect connectionId code =>
    unfold RoomRuntime.exec RoomRuntime.webSocketClose RoomRuntime.handleDisconnect at h
    dsimp only at h
    split at h
    · cases h
    · split at h
      · cases h
      · cases code with
        | kicked => exact pair h rfl rfl
        | clientLeave => exact pair h rfl rfl
        | other =>
          dsimp only at h
          split_ifs at h
          · cases h
          · exact pair h rfl rfl
  | kickPlayer userId =>
    unfold RoomRuntime.exec RoomRuntime.kickPlayer at h
    dsimp only [Handlers.Next.sections] at h
    split_ifs at h
    · cases h
    · exact pair h rfl rfl
  | finalizePlayerLeave => exact single h rfl
  | forgetPlayer userId =>
    unfold RoomRuntime.exec RoomRuntime.forgetPlayer at h
    dsimp only at h
    split_ifs at h
    · exact pair h rfl rfl
    · exact single h rfl
  | alarm => exact (halarm rfl).elim
  | fireTimer name timer => exact (hfire name timer rfl).elim
  | timersFired now expired => exact (hfired now expired rfl).elim
  | _ => cases h

theorem isFirst_exec {sec' : Section} (h : sec' ∈ (s.exec env outcome sec).2.sections) :
    sec'.isFirst = false := by
  have of_sequel (hsequel : sec'.isSequel = true) : sec'.isFirst = false := by
    cases sec' <;> first | rfl | cases hsequel
  cases sec with
  | alarm =>
    rcases mem_append.1 h with h | h
    · obtain ⟨timer, -, rfl⟩ := mem_map.1 h
      rfl
    · rw [mem_singleton.1 h]
      rfl
  | fireTimer =>
    rw [mem_singleton.1 h]
    rfl
  | timersFired =>
    rcases mem_append.1 h with h | h
    · obtain ⟨timer, -, rfl⟩ := mem_map.1 h
      rfl
    · rw [mem_singleton.1 h]
      rfl
  | _ => exact of_sequel (isSequel_exec h nofun nofun nofun)

end Deadlines

end Rooms

end EdgeBase
