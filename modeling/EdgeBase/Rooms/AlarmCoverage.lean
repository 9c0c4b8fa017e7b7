import EdgeBase.Rooms.DeadlineFrames

/-!
# What waits for the alarm

A socket that is open and has not authenticated has a deadline, and the alarm is set for no later
than any deadline.  The cleanup of an empty room deletes the deadlines of the sockets that have yet
to authenticate: these are no players, and the room counts as empty.

* `covered_run` : as long as the room keeps its memory, no deadline is missing, and none is later
  than the alarm, exactly if no section abandons a socket.
-/

namespace EdgeBase

open List

namespace Rooms

namespace Deadlines

def Socket.waits (socket : Socket) : Bool := socket.isOpen && !socket.authenticated

def SomeoneWaits (s : RoomRuntime) : Prop := ∃ socket ∈ s.sockets, socket.waits = true

/-- Every socket that has yet to authenticate has a deadline. -/
def Guarded (s : RoomRuntime) : Prop :=
  ∀ socket ∈ s.sockets, socket.waits = true → ∃ p ∈ s.pendingAuth, p.1 = socket.connectionId

/-- A section of a running alarm; the last one sets the alarm anew. -/
def Section.ofAlarm : Section → Bool
  | .alarm | .timersFired _ _ | .cleanUp _ _ => true
  | _ => false

def AlarmRuns (s : Room) : Prop := ∃ sec ∈ s.pending, sec.ofAlarm = true

/-- The sockets that have yet to authenticate have deadlines, and the alarm is set for no later than
each deadline, or is being handled. -/
def Covered (s : Room) : Prop := Guarded s.state ∧ (Armed s.state ∨ AlarmRuns s)

/-- A section that deletes the deadlines of all sockets while one has yet to authenticate. -/
def Abandons (s : RoomRuntime) : Section → Prop
  | .roomDestroyed => SomeoneWaits s
  | .cleanUp now _ =>
    s.emptyRoomCleanupAt.any (· ≤ now) = true ∧ s.players = [] ∧
      (s.hasState = true ∨ s.playerStates ≠ []) ∧ SomeoneWaits s
  | _ => False

def StepAbandons (s : Room) (a : Step) : Prop :=
  a = .proceed ∧ ∃ sec ∈ s.current, Abandons s.state sec

instance (s : RoomRuntime) : Decidable (SomeoneWaits s) :=
  inferInstanceAs (Decidable (∃ socket ∈ s.sockets, _))

instance (s : RoomRuntime) (sec : Section) : Decidable (Abandons s sec) := by
  unfold Abandons
  split <;> infer_instance

instance (s : Room) (a : Step) : Decidable (StepAbandons s a) :=
  inferInstanceAs (Decidable (_ ∧ ∃ sec ∈ s.current, _))

instance (s : Room) : Decidable (Covered s) :=
  inferInstanceAs (Decidable ((∀ socket ∈ s.state.sockets, _ → ∃ p ∈ s.state.pendingAuth, _) ∧
    (_ ∨ ∃ sec ∈ s.pending, _)))

variable {env : Settings} {s s' s'' : RoomRuntime} {outcome : Outcome} {sec : Section}

theorem minor_syncIf (s : RoomRuntime) (expired : Bool) :
    Minor s (if expired then s.syncEphemeralTimersToStorage else s) ∧
      (if expired then s.syncEphemeralTimersToStorage else s).emptyRoomCleanupAt =
        s.emptyRoomCleanupAt := by
  split_ifs
  · refine ⟨minor_syncEphemeralTimersToStorage s, ?_⟩
    unfold RoomRuntime.syncEphemeralTimersToStorage
    split_ifs <;> rfl
  · exact ⟨.refl s, rfl⟩

/-! ## The sockets that wait -/

/-- A change that leaves no socket without a deadline. -/
structure Watch (s s' : RoomRuntime) : Prop where
  ids : s'.sockets.map (·.connectionId) = s.sockets.map (·.connectionId)
  drawn : s'.drawn = s.drawn
  stateRecoveryNeeded : s'.stateRecoveryNeeded = s.stateRecoveryNeeded
  guarded : Guarded s → Guarded s'

namespace Watch

theorem refl (s : RoomRuntime) : Watch s s where
  ids := rfl
  drawn := rfl
  stateRecoveryNeeded := rfl
  guarded := id

theorem trans (h : Watch s s') (h' : Watch s' s'') : Watch s s'' where
  ids := h'.ids.trans h.ids
  drawn := h'.drawn.trans h.drawn
  stateRecoveryNeeded := h'.stateRecoveryNeeded.trans h.stateRecoveryNeeded
  guarded := h'.guarded ∘ h.guarded

theorem of_minor (h : Minor s s') : Watch s s' where
  ids := by rw [h.sockets]
  drawn := h.drawn
  stateRecoveryNeeded := h.stateRecoveryNeeded
  guarded := by
    unfold Guarded
    rw [h.sockets, h.pendingAuth]
    exact id

theorem mapSockets (s : RoomRuntime) (p : Socket → Bool) {f : Socket → Socket}
    (hid : ∀ socket, (f socket).connectionId = socket.connectionId)
    (hwaits : ∀ socket, (f socket).waits = true → socket.waits = true) :
    Watch s (s.mapSockets p f) where
  ids := by
    unfold RoomRuntime.mapSockets
    rw [map_map]
    refine map_congr_left fun socket _ => ?_
    simp only [Function.comp_apply]
    split_ifs
    · exact hid socket
    · rfl
  drawn := rfl
  stateRecoveryNeeded := rfl
  guarded := by
    intro hguarded socket' hsocket' hwaits'
    obtain ⟨socket, hsocket, rfl⟩ := mem_map.1 hsocket'
    split_ifs at hwaits' ⊢
    · rw [hid]
      exact hguarded socket hsocket (hwaits socket hwaits')
    · exact hguarded socket hsocket hwaits'

theorem closeSockets (s : RoomRuntime) (p : Socket → Bool) : Watch s (s.closeSockets p) :=
  mapSockets s p (fun _ => rfl) nofun

theorem removePlayers (s : RoomRuntime) (connectionIds : List String) :
    Watch s (s.removePlayers connectionIds) := { refl s with }

theorem deletePendingAuth {connectionId : String}
    (h : ∀ socket ∈ s.sockets, socket.connectionId = connectionId → socket.waits = false) :
    Watch s (s.deletePendingAuth connectionId) := by
  unfold RoomRuntime.deletePendingAuth
  split_ifs
  · refine trans ?_ (of_minor (minor_flush _))
    refine { refl s with guarded := fun hguarded socket hsocket hwaits => ?_ }
    obtain ⟨p, hp, hid⟩ := hguarded socket hsocket hwaits
    refine ⟨p, mem_filter.2 ⟨hp, decide_eq_true fun hconnection => ?_⟩, hid⟩
    rw [h socket hsocket (hid ▸ hconnection)] at hwaits
    cases hwaits
  · exact refl s

theorem receive (s : RoomRuntime) (connectionId : String) (message : Message) :
    Watch s (s.receive connectionId message).1 := by
  unfold RoomRuntime.receive
  split
  · exact refl s
  · cases message <;> exact mapSockets s _ (fun _ => rfl) fun _ => id

theorem settle (s : RoomRuntime) (connectionId : String) {f : Socket → Socket}
    (hid : ∀ socket, (f socket).connectionId = socket.connectionId)
    (hwaits : ∀ socket, (f socket).waits = false) :
    Watch s ((s.setWSMeta connectionId f).deletePendingAuth connectionId) := by
  have hmap : Watch s (s.setWSMeta connectionId f) :=
    mapSockets s _ hid fun socket h => by rw [hwaits] at h; cases h
  refine hmap.trans (deletePendingAuth fun socket' hsocket' hconnection => ?_)
  obtain ⟨socket, -, rfl⟩ := mem_map.1 hsocket'
  split_ifs at hconnection ⊢ with hp
  · exact hwaits socket
  · exact (hp (decide_eq_true hconnection)).elim

theorem authenticate (s : RoomRuntime) (connectionId userId : String) (before : Option String) :
    Watch s (s.authenticate connectionId userId before).1 := by
  have hsettle := settle s connectionId
    (f := fun socket =>
      { socket with authenticated := true, userId := some userId, lastSeenAt := s.now })
    (fun _ => rfl) (by simp [Socket.waits])
  unfold RoomRuntime.authenticate
  dsimp only
  split_ifs
  · exact refl s
  · exact (hsettle.trans (of_minor (minor_deleteTimer _ userId))).trans { refl _ with }
  · exact hsettle

theorem handleExplicitLeave (s : RoomRuntime) (connectionId : String) :
    Watch s (s.handleExplicitLeave connectionId).1 := by
  unfold RoomRuntime.handleExplicitLeave
  split
  · exact closeSockets s _
  · exact (removePlayers s _).trans (of_minor (minor_deleteTimer _ _))

theorem handleDisconnect (env : Settings) (s : RoomRuntime) (connectionId : String)
    (code : CloseCode) : Watch s (s.handleDisconnect env connectionId code).1 := by
  unfold RoomRuntime.handleDisconnect
  have hremove := removePlayers s [connectionId]
  split
  · exact refl s
  · dsimp only
    split
    · exact hremove.trans (of_minor (minor_scheduleIfEmpty _))
    · cases code with
      | kicked => exact hremove.trans (of_minor (minor_deleteTimer _ _))
      | clientLeave => exact hremove.trans (of_minor (minor_deleteTimer _ _))
      | other =>
        dsimp only
        split_ifs
        · exact (hremove.trans (of_minor (minor_startReconnectTimer _ _ _))).trans
            (of_minor (minor_scheduleIfEmpty _))
        · exact hremove

theorem expireAuth (s : RoomRuntime) : Watch s s.expireAuth := by
  let expired := s.pendingAuth.filter (·.2 ≤ s.now)
  let s₁ : RoomRuntime :=
    { s with pendingAuth := s.pendingAuth.filter fun p => ¬ p.2 ≤ s.now }.closeSockets fun socket =>
      expired.any (·.1 = socket.connectionId) && !socket.authenticated
  have hclose : Watch s s₁ := by
    refine { (closeSockets s _) with guarded := fun hguarded socket' hsocket' hwaits' => ?_ }
    obtain ⟨socket, hsocket, rfl⟩ := mem_map.1 hsocket'
    split_ifs at hwaits' ⊢ with hexpired
    · cases hwaits'
    · obtain ⟨p, hp, hid⟩ := hguarded socket hsocket hwaits'
      refine ⟨p, mem_filter.2 ⟨hp, decide_eq_true fun hdue => hexpired ?_⟩, hid⟩
      have hauth : socket.authenticated = false := by simpa using (Bool.and_eq_true_iff.1 hwaits').2
      have hany : expired.any (·.1 = socket.connectionId) = true := any_eq_true.2
        ⟨p, mem_filter.2 ⟨hp, decide_eq_true hdue⟩, decide_eq_true hid⟩
      simp only [hany, hauth, Bool.not_false, Bool.and_self]
  unfold RoomRuntime.expireAuth
  dsimp only
  split_ifs
  · exact hclose
  · exact hclose.trans (of_minor (minor_syncEphemeralTimersToStorage _))

theorem alarm (h : Watch s (if s.shouldRecoverBeforeAlarm then s.recover env else s)) :
    Watch s (s.alarm env).1 := by
  unfold RoomRuntime.alarm
  generalize (if s.shouldRecoverBeforeAlarm then s.recover env else s) = s₁ at h ⊢
  exact (h.trans (expireAuth s₁)).trans { refl s₁.expireAuth with }

theorem timersFired (s : RoomRuntime) (now : ℤ) (expired : Bool) :
    Watch s (s.timersFired env now expired).1 := by
  have hdirty : Watch s (if expired then s.markDirty env else s) := by
    split_ifs
    · exact of_minor (minor_markDirty s)
    · exact refl s
  unfold RoomRuntime.timersFired
  dsimp only
  generalize (if expired then s.markDirty env else s) = s₁ at hdirty
  exact hdirty.trans { refl s₁ with }

theorem persistState (s : RoomRuntime) : Watch s (s.persistState env) := by
  unfold RoomRuntime.persistState
  refine trans ?_ (of_minor (minor_flush _))
  exact { refl s with }

theorem deleteStorage (s : RoomRuntime) : Watch s s.deleteStorage := { refl s with }

theorem sync (s : RoomRuntime) : Watch s s.syncEphemeralTimersToStorage :=
  of_minor (minor_syncEphemeralTimersToStorage s)

theorem saveIfDue (s : RoomRuntime) (now : ℤ) : Watch s (s.saveIfDue env now) := by
  unfold RoomRuntime.saveIfDue
  split_ifs
  · refine trans ?_ (sync _)
    dsimp only
    split_ifs
    · refine trans ?_ (persistState _)
      exact { refl s with }
    · exact { refl s with }
  · exact refl s

theorem expireStateIfDue (s : RoomRuntime) (now : ℤ) : Watch s (s.expireStateIfDue now) := by
  unfold RoomRuntime.expireStateIfDue
  split_ifs
  · refine trans ?_ (sync _)
    dsimp only
    split_ifs
    · refine trans ?_ (deleteStorage _)
      exact { refl s with }
    · exact { refl s with }
  · exact refl s

theorem checkHeartbeatsIfDue (s : RoomRuntime) (now : ℤ) :
    Watch s (s.checkHeartbeatsIfDue env now) := by
  unfold RoomRuntime.checkHeartbeatsIfDue
  split_ifs
  · refine trans ?_ (sync _)
    refine trans ?_ (of_minor (minor_ensureSocketHeartbeatCheckScheduled _))
    refine trans ?_ (closeSockets _ _)
    exact { refl s with }
  · exact refl s

theorem cleanUpIfDue {now : ℤ} (h : ¬ Abandons s (.cleanUp now false)) :
    Watch s (s.cleanUpIfDue env now) := by
  unfold RoomRuntime.cleanUpIfDue
  split_ifs with hdue
  · refine trans ?_ (sync _)
    dsimp only
    split_ifs with hempty
    · unfold RoomRuntime.cleanUpRoom
      split_ifs with hstate
      · refine trans (trans ?_ (deleteStorage _)) (sync _)
        refine { refl s with guarded := fun _ socket hsocket hwaits => ?_ }
        exact (h ⟨hdue, hempty, hstate, socket, hsocket, hwaits⟩).elim
      · refine trans ?_ (deleteStorage _)
        exact { refl s with }
    · exact { refl s with }
  · exact refl s

theorem cleanUp {now : ℤ} {expired : Bool} (h : ¬ Abandons s (.cleanUp now expired)) :
    Watch s (s.cleanUp env now expired) := by
  obtain ⟨hsync, hcleanup⟩ := minor_syncIf s expired
  unfold RoomRuntime.cleanUp
  generalize (if expired then s.syncEphemeralTimersToStorage else s) = s₁ at hsync hcleanup
  have h₁ : ¬ Abandons s₁ (.cleanUp now false) := by
    unfold Abandons SomeoneWaits at h ⊢
    rwa [hcleanup, hsync.players, hsync.hasState, hsync.playerStates, hsync.sockets]
  exact ((((of_minor hsync).trans (cleanUpIfDue h₁)).trans (saveIfDue _ now)).trans
    (expireStateIfDue _ now)).trans
      ((checkHeartbeatsIfDue _ now).trans (of_minor (minor_scheduleNextAlarm _)))

end Watch

structure SameWaits (s s' : RoomRuntime) : Prop where
  waiting : (s'.sockets.filter (·.waits)).map (·.connectionId) =
    (s.sockets.filter (·.waits)).map (·.connectionId)
  pendingAuth : s'.pendingAuth = s.pendingAuth

namespace SameWaits

theorem of_minor (h : Minor s s') : SameWaits s s' := ⟨by rw [h.sockets], h.pendingAuth⟩

theorem trans (h : SameWaits s s') (h' : SameWaits s' s'') : SameWaits s s'' :=
  ⟨h'.waiting.trans h.waiting, h'.pendingAuth.trans h.pendingAuth⟩

theorem guarded (h : SameWaits s s') : Guarded s' ↔ Guarded s := by
  have hiff (s : RoomRuntime) : Guarded s ↔
      ∀ c ∈ (s.sockets.filter (·.waits)).map (·.connectionId), ∃ p ∈ s.pendingAuth, p.1 = c := by
    unfold Guarded
    simp only [mem_map, mem_filter]
    refine ⟨?_, fun h socket hsocket hwaits => h _ ⟨socket, ⟨hsocket, hwaits⟩, rfl⟩⟩
    rintro h c ⟨socket, ⟨hsocket, hwaits⟩, rfl⟩
    exact h socket hsocket hwaits
  rw [hiff, hiff, h.waiting, h.pendingAuth]

theorem sync (s : RoomRuntime) : SameWaits s s.syncEphemeralTimersToStorage :=
  of_minor (minor_syncEphemeralTimersToStorage s)

theorem saveIfDue (env : Settings) (s : RoomRuntime) (now : ℤ) :
    SameWaits s (s.saveIfDue env now) := by
  unfold RoomRuntime.saveIfDue
  split_ifs
  · refine trans ?_ (sync _)
    dsimp only
    split_ifs
    · refine trans ?_ (of_minor (minor_flush _))
      exact ⟨rfl, rfl⟩
    · exact ⟨rfl, rfl⟩
  · exact ⟨rfl, rfl⟩

theorem expireStateIfDue (s : RoomRuntime) (now : ℤ) : SameWaits s (s.expireStateIfDue now) := by
  unfold RoomRuntime.expireStateIfDue
  split_ifs
  · refine trans ?_ (sync _)
    dsimp only
    split_ifs <;> exact ⟨rfl, rfl⟩
  · exact ⟨rfl, rfl⟩

theorem checkHeartbeatsIfDue (env : Settings) (s : RoomRuntime) (now : ℤ) :
    SameWaits s (s.checkHeartbeatsIfDue env now) := by
  unfold RoomRuntime.checkHeartbeatsIfDue
  split_ifs
  · refine trans ?_ (sync _)
    refine trans ?_ (of_minor (minor_ensureSocketHeartbeatCheckScheduled _))
    refine ⟨?_, rfl⟩
    unfold RoomRuntime.closeSockets RoomRuntime.mapSockets
    dsimp only
    induction s.sockets with
    | nil => rfl
    | cons socket sockets ih =>
      cases hauth : socket.authenticated with
      | false =>
        rw [map_cons, if_neg (by simp [hauth]), filter_cons, filter_cons]
        split_ifs
        · rw [map_cons, map_cons, ih]
        · exact ih
      | true =>
        have hnot : socket.waits = false := by simp [Socket.waits, hauth]
        rw [map_cons, filter_cons_of_neg, filter_cons_of_neg, ih]
        · simp [hnot]
        · split_ifs <;> simp [Socket.waits, hauth]
  · exact ⟨rfl, rfl⟩

end SameWaits

theorem not_guarded (hwaits : SomeoneWaits s) (h : s.pendingAuth = []) : ¬ Guarded s := by
  intro hguarded
  obtain ⟨socket, hsocket, hwaits⟩ := hwaits
  obtain ⟨p, hp, -⟩ := hguarded socket hsocket hwaits
  rw [h] at hp
  cases hp

theorem not_guarded_exec (h : Abandons s sec) : ¬ Guarded (s.exec env outcome sec).1 := by
  cases sec with
  | roomDestroyed =>
    have hminor : Minor _ (s.roomDestroyed env) := minor_scheduleEmptyRoomCleanup _
    have hnot : ¬ Guarded (s.roomDestroyed env) := by
      rw [(SameWaits.of_minor hminor).guarded]
      exact not_guarded h rfl
    exact hnot
  | cleanUp now expired =>
    have hnot : ¬ Guarded (s.cleanUp env now expired) := by
      obtain ⟨hsync, hcleanup⟩ := minor_syncIf s expired
      unfold RoomRuntime.cleanUp
      generalize (if expired then s.syncEphemeralTimersToStorage else s) = s₁ at hsync hcleanup
      obtain ⟨hdue, hempty, hstate, hwaits⟩ := h
      rw [← hcleanup] at hdue
      rw [← hsync.players] at hempty
      rw [← hsync.hasState, ← hsync.playerStates] at hstate
      have hcleaned : SameWaits (s₁.cleanUpIfDue env now) _ :=
        ((SameWaits.saveIfDue env _ now).trans (.expireStateIfDue _ now)).trans
          ((SameWaits.checkHeartbeatsIfDue env _ now).trans
            (.of_minor (minor_scheduleNextAlarm _)))
      rw [hcleaned.guarded]
      unfold RoomRuntime.cleanUpIfDue RoomRuntime.cleanUpRoom
      rw [if_pos hdue]
      dsimp only
      rw [if_pos hempty, if_pos hstate, (SameWaits.sync _).guarded, (SameWaits.sync _).guarded]
      refine not_guarded ?_ rfl
      unfold SomeoneWaits at hwaits ⊢
      rwa [← hsync.sockets] at hwaits
    exact hnot
  | _ => exact h.elim

/-! ## Steps -/

/-- What holds of a room that keeps its memory, and abandons no socket. -/
structure CoverInv (s : RoomRuntime) (pending : List Section) : Prop where
  guarded : Guarded s
  armed : Armed s ∨ ∃ sec ∈ pending, sec.ofAlarm = true
  recovered : s.stateRecoveryNeeded = false
  drawn : ∀ connectionId ∈ s.sockets.map (·.connectionId), connectionId ∈ s.drawn
  gone : ∀ connectionId code, .disconnect connectionId code ∈ pending →
    connectionId ∈ s.drawn ∧ connectionId ∉ s.sockets.map (·.connectionId)

theorem recoverStateIfNeeded_of_recovered (h : s.stateRecoveryNeeded = false) :
    s.recoverStateIfNeeded env = s := by
  unfold RoomRuntime.recoverStateIfNeeded
  rw [h]
  rfl

theorem recover_sockets (env : Settings) (s : RoomRuntime) :
    (s.recover env).sockets = s.sockets ∧ (s.recover env).drawn = s.drawn := by
  have hstorage : (s.recoverFromStorage env).sockets = s.sockets ∧
      (s.recoverFromStorage env).drawn = s.drawn := by
    unfold RoomRuntime.recoverFromStorage
    rw [(minor_scheduleNextAlarm _).sockets, (minor_scheduleNextAlarm _).drawn]
    dsimp only
    split
    · split_ifs <;> exact ⟨rfl, rfl⟩
    · exact ⟨rfl, rfl⟩
  rw [← hstorage.1, ← hstorage.2]
  unfold RoomRuntime.recover
  generalize s.recoverFromStorage env = s₁
  unfold RoomRuntime.recoverRuntimeStateFromSockets
  dsimp only
  rw [(minor_ensureSocketHeartbeatCheckScheduled _).sockets,
    (minor_ensureSocketHeartbeatCheckScheduled _).drawn]
  split_ifs
  · rw [(minor_flush _).sockets, (minor_flush _).drawn]
    exact ⟨rfl, rfl⟩
  · exact ⟨rfl, rfl⟩

theorem watch_recover (hrecovered : s.stateRecoveryNeeded = false) (h : s.sockets = []) :
    Watch s (s.recover env) := by
  obtain ⟨hsockets, hdrawn⟩ := recover_sockets env s
  refine ⟨by rw [hsockets], hdrawn, hrecovered.symm, fun _ socket hsocket => ?_⟩
  rw [hsockets, h] at hsocket
  cases hsocket

theorem watch_exec {pending : List Section} (hinv : CoverInv s (sec :: pending))
    (hnot : ¬ Abandons s sec) : Watch s (s.exec env outcome sec).1 := by
  cases sec with
  | receive connectionId message =>
    unfold RoomRuntime.exec
    rw [recoverStateIfNeeded_of_recovered hinv.recovered]
    exact .receive s connectionId message
  | recoverStateIfNeeded =>
    unfold RoomRuntime.exec
    rw [recoverStateIfNeeded_of_recovered hinv.recovered]
    exact .refl s
  | authenticate connectionId userId before =>
    cases outcome with
    | ok => exact .authenticate s connectionId userId before
    | failed =>
      unfold RoomRuntime.exec
      dsimp only
      split_ifs
      · exact .closeSockets s _
      · exact .refl s
    | unavailable => exact .refl s
  | authorized connectionId message =>
    cases outcome with
    | ok =>
      unfold RoomRuntime.exec
      dsimp only
      split_ifs
      · exact .handleExplicitLeave s connectionId
      · exact .refl s
    | failed => exact .mapSockets s _ (fun _ => rfl) nofun
    | unavailable => exact .refl s
  | closeLeaver => exact (Watch.of_minor (minor_scheduleIfEmpty s)).trans (.closeSockets _ _)
  | disconnect connectionId code =>
    have hdisconnect := Watch.handleDisconnect env s connectionId code
    refine (hdisconnect.trans (.deletePendingAuth fun socket hsocket hid => ?_)).trans
      (.of_minor (minor_ensureSocketHeartbeatCheckScheduled _))
    have hmem := mem_map_of_mem (f := (·.connectionId)) hsocket
    rw [hdisconnect.ids, hid] at hmem
    exact ((hinv.gone connectionId code mem_cons_self).2 hmem).elim
  | disconnected => exact .of_minor (minor_scheduleIfEmpty s)
  | kickPlayer userId =>
    exact (Watch.removePlayers s _).trans (.of_minor (minor_deleteTimer _ userId))
  | closeKicked => exact .closeSockets s _
  | finalizePlayerLeave => exact .refl s
  | forgetPlayer => exact { Watch.refl s with }
  | roomDestroyed =>
    unfold RoomRuntime.exec RoomRuntime.roomDestroyed
    refine Watch.trans ?_ (.of_minor (minor_scheduleEmptyRoomCleanup _))
    exact { Watch.refl s with guarded := fun _ socket hsocket hwaits =>
      (hnot ⟨socket, hsocket, hwaits⟩).elim }
  | playerLeft => exact .refl s
  | alarm =>
    refine .alarm ?_
    split_ifs with hneeded
    · refine watch_recover hinv.recovered ?_
      unfold RoomRuntime.shouldRecoverBeforeAlarm at hneeded
      rw [hinv.recovered] at hneeded
      simp only [Bool.false_or, Bool.and_eq_true, decide_eq_true_eq] at hneeded
      exact hneeded.1.1.1.1.1.1.1.1.1.1.1
    · exact .refl s
  | fireTimer => exact .refl s
  | runTimer => exact { Watch.refl s with }
  | timersFired now expired => exact .timersFired s now expired
  | cleanUp => exact .cleanUp hnot

theorem alarm_exec (s : RoomRuntime) (h : sec.ofAlarm = true) : Armed (s.exec env outcome sec).1 ∨
      ∃ sec' ∈ (s.exec env outcome sec).2.sections, sec'.ofAlarm = true := by
  cases sec with
  | alarm => exact .inr ⟨_, mem_append_right _ mem_cons_self, rfl⟩
  | timersFired => exact .inr ⟨_, mem_append_right _ mem_cons_self, rfl⟩
  | cleanUp => exact .inl (armed_scheduleNextAlarm _)
  | _ => cases h

theorem armed_or_alarm_exec {pending : List Section}
    (h : Armed s ∨ ∃ sec' ∈ sec :: pending, sec'.ofAlarm = true) :
    Armed (s.exec env outcome sec).1 ∨
      ∃ sec' ∈ (s.exec env outcome sec).2.sections ++ pending, sec'.ofAlarm = true := by
  rcases h with harmed | ⟨sec', hsec', halarm⟩
  · exact .inl (armed_exec harmed)
  · rcases mem_cons.1 hsec' with rfl | hmem
    · refine (alarm_exec s halarm).imp_right fun ⟨sec, hsec, halarm⟩ => ?_
      exact ⟨sec, mem_append_left _ hsec, halarm⟩
    · exact .inr ⟨sec', mem_append_right _ hmem, halarm⟩

namespace CoverInv

variable {pending : List Section}

theorem perm {pending' : List Section} (hperm : pending.Perm pending')
    (h : CoverInv s pending) : CoverInv s pending' where
  guarded := h.guarded
  armed := h.armed.imp_right fun ⟨sec, hsec, halarm⟩ => ⟨sec, hperm.subset hsec, halarm⟩
  recovered := h.recovered
  drawn := h.drawn
  gone := fun connectionId code hmem => h.gone connectionId code (hperm.symm.subset hmem)

protected theorem exec (h : CoverInv s (sec :: pending)) (hnot : ¬ Abandons s sec) :
    CoverInv (s.exec env outcome sec).1 ((s.exec env outcome sec).2.sections ++ pending) := by
  have hwatch : Watch s (s.exec env outcome sec).1 := watch_exec h hnot
  refine ⟨hwatch.guarded h.guarded, armed_or_alarm_exec h.armed,
    hwatch.stateRecoveryNeeded.trans h.recovered, ?_, ?_⟩
  · rw [hwatch.ids, hwatch.drawn]
    exact h.drawn
  · intro connectionId code hmem
    rw [hwatch.ids, hwatch.drawn]
    rcases mem_append.1 hmem with hnext | hmem
    · have := isFirst_exec hnext
      cases this
    · exact h.gone connectionId code (mem_cons_of_mem _ hmem)

theorem of_watch (h : CoverInv s pending) (hwatch : Watch s s') (harmed : Armed s → Armed s')
    {started : List Section}
    (hstarted : ∀ connectionId code, .disconnect connectionId code ∉ started) :
    CoverInv s' (started ++ pending) where
  guarded := hwatch.guarded h.guarded
  armed := by
    refine h.armed.imp harmed fun ⟨sec, hsec, halarm⟩ => ?_
    exact ⟨sec, mem_append_right _ hsec, halarm⟩
  recovered := hwatch.stateRecoveryNeeded.trans h.recovered
  drawn := by
    rw [hwatch.ids, hwatch.drawn]
    exact h.drawn
  gone := by
    rw [hwatch.ids, hwatch.drawn]
    intro connectionId code hmem
    exact h.gone connectionId code
      ((mem_append.1 hmem).resolve_left (hstarted connectionId code))

theorem of_quiet (h : CoverInv s pending) (hwatch : Watch s s') (harmed : Armed s → Armed s') :
    CoverInv s' pending :=
  h.of_watch hwatch harmed (fun _ _ => not_mem_nil)

theorem upgrade (h : CoverInv s pending) (connectionId : String) :
    CoverInv (s.upgrade env connectionId) pending := by
  unfold RoomRuntime.upgrade
  split_ifs with hrefused
  · exact h
  · have hnew : connectionId ∉ s.drawn := by simpa using (not_or.1 hrefused).1
    have haccept : Minor (s.acceptWebSocket connectionId)
        ((s.acceptWebSocket connectionId).ensureSocketHeartbeatCheckScheduled env) :=
      minor_ensureSocketHeartbeatCheckScheduled _
    dsimp only
    generalize (s.acceptWebSocket connectionId).ensureSocketHeartbeatCheckScheduled env = s₁
      at haccept
    have hsockets : s₁.sockets = s.sockets ++ [{ connectionId, lastSeenAt := s.now }] :=
      haccept.sockets
    have hdrawn : s₁.drawn = s.drawn ++ [connectionId] := haccept.drawn
    have hids : s₁.sockets.map (·.connectionId) =
        s.sockets.map (·.connectionId) ++ [connectionId] := by
      rw [hsockets, map_append]
      rfl
    have hflush := minor_flush
      { s₁ with pendingAuth := Assoc.set s₁.pendingAuth connectionId (s₁.now + env.authTimeout) }
    refine ⟨(Watch.of_minor hflush).guarded ?_, .inl (armed_scheduleNextAlarm _), ?_, ?_, ?_⟩
    · intro socket hsocket hwaits
      have hkey : socket.connectionId ∈
          (Assoc.set s₁.pendingAuth connectionId (s₁.now + env.authTimeout)).map Prod.fst := by
        rw [Assoc.mem_keys_set, haccept.pendingAuth]
        change socket ∈ s₁.sockets at hsocket
        rw [hsockets] at hsocket
        rcases mem_append.1 hsocket with hsocket | hsocket
        · exact .inr (mem_map.2 (h.guarded socket hsocket hwaits))
        · exact .inl (by rw [mem_singleton.1 hsocket])
      exact mem_map.1 hkey
    · exact hflush.stateRecoveryNeeded.trans (haccept.stateRecoveryNeeded.trans h.recovered)
    · rw [hflush.sockets, hflush.drawn]
      change ∀ c ∈ s₁.sockets.map (·.connectionId), c ∈ s₁.drawn
      rw [hids, hdrawn]
      intro c hc
      rcases mem_append.1 hc with hc | hc
      · exact mem_append_left _ (h.drawn c hc)
      · exact mem_append_right _ hc
    · rw [hflush.sockets, hflush.drawn]
      change ∀ c code, _ → c ∈ s₁.drawn ∧ c ∉ s₁.sockets.map (·.connectionId)
      rw [hids, hdrawn]
      intro c code hmem
      obtain ⟨hc, hnot⟩ := h.gone c code hmem
      refine ⟨mem_append_left _ hc, fun hmem => ?_⟩
      rcases mem_append.1 hmem with hmem | hmem
      · exact hnot hmem
      · rw [mem_singleton.1 hmem] at hc
        exact hnew hc

theorem close (h : CoverInv s pending) {connectionId : String} {code : CloseCode} {socket : Socket}
    (hsocket : s.socket connectionId = some socket) :
    CoverInv { s with sockets := s.sockets.filter (·.connectionId ≠ connectionId) }
      (.disconnect connectionId code :: pending) where
  guarded := fun socket hsocket => h.guarded socket (mem_filter.1 hsocket).1
  armed := by
    refine h.armed.imp (fun harmed => harmed.of_fewer { Fewer.refl s with }) ?_
    rintro ⟨sec, hsec, halarm⟩
    exact ⟨sec, mem_cons_of_mem _ hsec, halarm⟩
  recovered := h.recovered
  drawn := fun c hc => h.drawn c ((filter_sublist.map _).subset hc)
  gone := by
    intro c code' hmem
    rcases mem_cons.1 hmem with heq | hmem
    · obtain ⟨rfl, rfl⟩ := Section.disconnect.inj heq
      refine ⟨h.drawn c ?_, fun hmem => ?_⟩
      · exact mem_map.2 ⟨socket, List.mem_of_find?_eq_some hsocket,
          by simpa using List.find?_some hsocket⟩
      · obtain ⟨socket, hsocket, hid⟩ := mem_map.1 hmem
        exact of_decide_eq_true (mem_filter.1 hsocket).2 hid
    · obtain ⟨hc, hnot⟩ := h.gone c code' hmem
      exact ⟨hc, fun hmem => hnot ((filter_sublist.map _).subset hmem)⟩

theorem markDirty (h : CoverInv s pending) (hwatch : Watch s s') :
    CoverInv (s'.markDirty env) pending :=
  h.of_quiet (hwatch.trans (.of_minor (minor_markDirty s'))) fun _ => armed_markDirty s'

theorem scheduleNextAlarm (h : CoverInv s pending) (hwatch : Watch s s') :
    CoverInv s'.scheduleNextAlarm pending :=
  h.of_quiet (hwatch.trans (.of_minor (minor_scheduleNextAlarm s')))
    fun _ => armed_scheduleNextAlarm s'

protected theorem call (h : CoverInv s pending) (e : RoomEvent) :
    CoverInv (s.call env e) pending := by
  unfold RoomRuntime.call
  cases e with
  | enter =>
    exact h.of_quiet { Watch.refl s with } fun harmed => harmed.of_fewer { Fewer.refl s with }
  | setSharedState => exact h.markDirty { Watch.refl s with }
  | setPlayerState => exact h.markDirty { Watch.refl s with }
  | rejectState =>
    have hdirty : Minor s (s.markDirty env) := minor_markDirty s
    dsimp only
    generalize s.markDirty env = s₁ at hdirty
    refine h.scheduleNextAlarm (.trans ?_ (.of_minor (minor_syncEphemeralTimersToStorage _)))
    exact (Watch.of_minor hdirty).trans { Watch.refl s₁ with }
  | setMetadata =>
    exact h.of_quiet { Watch.refl s with } fun harmed => harmed.of_fewer { Fewer.refl s with }
  | saveState =>
    refine h.scheduleNextAlarm (.trans ?_ (.of_minor (minor_syncEphemeralTimersToStorage _)))
    exact { Watch.refl s with }
  | setTimer =>
    refine h.scheduleNextAlarm (.trans ?_ (.of_minor (minor_markDirty _)))
    exact { Watch.refl s with }
  | clearTimer => exact h.scheduleNextAlarm { Watch.refl s with }
  | _ => exact h

protected theorem handle (h : CoverInv s pending) (e : RoomEvent) :
    CoverInv (s.handle env e).1 (Handlers.started (s.handle env e).2 ++ pending) := by
  cases e with
  | upgrade connectionId => exact h.upgrade connectionId
  | message =>
    refine h.of_watch (.refl s) id ?_
    simp [Handlers.started, RoomRuntime.handle]
  | close connectionId code =>
    unfold RoomRuntime.handle
    dsimp only
    cases hsocket : s.socket connectionId with
    | none => exact h
    | some socket => exact h.close hsocket
  | drop => exact h.of_quiet (.closeSockets s _) fun harmed => armed_mapSockets harmed _ _
  | kick =>
    refine h.of_watch (.refl s) id ?_
    simp [Handlers.started, RoomRuntime.handle, h.recovered]
  | alarm =>
    unfold RoomRuntime.handle
    dsimp only
    split_ifs
    · exact
        { guarded := h.guarded
          armed := .inr ⟨.alarm, by simp [Handlers.started], rfl⟩
          recovered := h.recovered
          drawn := h.drawn
          gone := fun c code hmem => h.gone c code (by simpa [Handlers.started] using hmem) }
    · exact h
  | tick ms =>
    have hnow : s.now ≤ s.now + ms := by omega
    exact h.of_quiet { Watch.refl s with } fun harmed =>
      harmed.of_fewer { Fewer.refl s with now := hnow }
  | _ =>
    unfold RoomRuntime.handle
    dsimp only
    rw [h.recovered, if_neg Bool.false_ne_true]
    exact h.call _

end CoverInv

variable {room : Room} {a : Step}

protected theorem CoverInv.step (h : CoverInv room.state room.pending) (ha : a ≠ .restart)
    (hnot : ¬ StepAbandons room a) :
    CoverInv (step env room a).state (step env room a).pending := by
  refine Handlers.step_induction (m := machine env) (fun hperm h => h.perm hperm)
    (fun e _ _ => h.handle e) (fun sec hproceed hsec => ?_) (fun h => (ha h).elim) h
  rw [Handlers.System.pending_eq hsec] at h
  exact h.exec fun habandons => hnot ⟨hproceed, sec, hsec, habandons⟩

theorem covered_step (h : CoverInv room.state room.pending) (ha : a ≠ .restart) :
    ¬ StepAbandons room a ↔ Covered (step env room a) := by
  refine ⟨fun hnot => ?_, fun hcovered habandons => ?_⟩
  · have hinv : CoverInv (step env room a).state (step env room a).pending := h.step ha hnot
    exact ⟨hinv.guarded, hinv.armed⟩
  · obtain ⟨rfl, sec, hsec, habandons⟩ := habandons
    have hnot : ¬ Guarded (room.state.exec env room.returned sec).1 := not_guarded_exec habandons
    have hguarded := hcovered.1
    unfold step at hguarded
    rw [Handlers.state_proceed hsec] at hguarded
    exact hnot hguarded

theorem CoverInv.init : CoverInv init.state init.pending where
  guarded := nofun
  armed := .inl nofun
  recovered := rfl
  drawn := nofun
  gone := nofun

/-- As long as a room keeps its memory, every socket that has yet to authenticate has a deadline and
the alarm is set for no later than any deadline, exactly if no section abandons a socket. -/
theorem covered_run (env : Settings) (as : List Step) (h : ∀ a ∈ as, a ≠ .restart) :
    Runs.Along (step env) (fun s a => ¬ StepAbandons s a) init as ↔
      Runs.Along (step env) (fun s a => Covered (step env s a)) init as := by
  have hrestart : Runs.Along (step env) (fun _ a => a ≠ .restart) init as := .of_forall h
  have hiff : Runs.Along (step env) (fun s a => a ≠ .restart ∧ ¬ StepAbandons s a) init as ↔
      Runs.Along (step env) (fun s a => a ≠ .restart ∧ Covered (step env s a)) init as := by
    refine Runs.Along.iff_of_invariant (I := fun s => CoverInv s.state s.pending) .init
      (fun s a hinv => and_congr_right (covered_step hinv)) fun s a hinv ha => hinv.step ha.1 ha.2
  rw [Runs.Along.and, Runs.Along.and] at hiff
  exact ⟨fun h => (hiff.1 ⟨hrestart, h⟩).2, fun h => (hiff.2 ⟨hrestart, h⟩).2⟩

/-- A socket does not authenticate in time, and the only player leaves. -/
def tardy : List Step :=
  arriving "c1" "ann" ++ script [.event (.upgrade "c2"), .event (.setTimer "round" 9000),
    .event (.tick 5000), .event .alarm, .event (.close "c2" .other), .event (.kick "ann"),
    .resume 0 .ok, .resume 0 .ok, .resume 0 .ok]

theorem tardy_covered : Runs.Along (step {}) (fun s a => Covered (step {} s a)) init tardy :=
  (covered_run {} tardy (by decide +kernel)).1 (by decide +kernel)

/-- The only player leaves while a socket has yet to authenticate. -/
def emptying : List Step :=
  arriving "c1" "ann" ++ script [.event (.upgrade "c2"), .event (.kick "ann"), .resume 0 .ok,
    .resume 0 .ok, .resume 0 .ok]

theorem emptying_not_covered :
    (Runs.last (step {}) init emptying).state.sockets.map (fun s => (s.connectionId, s.waits)) =
        [("c1", false), ("c2", true)] ∧
      (Runs.last (step {}) init emptying).state.pendingAuth = [] ∧
      (Runs.last (step {}) init emptying).pending = [] ∧
      ¬ Covered (Runs.last (step {}) init emptying) := by
  decide +kernel

end Deadlines

end Rooms

end EdgeBase
