import EdgeBase.Rooms.AlarmCoverage

/-!
# Named timers

A named timer lives in memory.  The storage has the timers of the last save: what was set, cleared
or fired since is not in it, and a room that loses its memory goes on with what the storage has.

* `Pending` : a timer is in memory, or in the storage of a room that has yet to read it, and the
  alarm comes in time; or its handler is about to run.
* `timersKept_run` : in a run of such steps every timer that is due is pending, and no other fires.
-/

namespace EdgeBase

open List TimerLog

namespace Rooms

namespace Deadlines

/-- The timer that an alarm has taken out, and whose handler is yet to run. -/
def Section.queued : Section → Option (String × Timer)
  | .fireTimer name timer | .runTimer name timer => some (name, timer)
  | _ => none

def queue (pending : List Section) : List (String × Timer) := pending.filterMap Section.queued

/-- The timers of a room: those in the storage, if it has yet to read them. -/
def kept (s : RoomRuntime) : List (String × Timer) :=
  if s.stateRecoveryNeeded then s.storedTimers else s.timers

/-- The alarm is set for no later than the deadline, or the next millisecond. -/
def InTime (s : RoomRuntime) (timer : Timer) : Prop :=
  ∃ a ∈ s.alarmAt, a ≤ max timer.fireAt (s.now + 1)

def Pending (s : Room) (b : String × Timer) : Prop :=
  b ∈ queue s.pending ∨ b ∈ kept s.state ∧ (InTime s.state b.2 ∨ AlarmRuns s)

/-- Each call of `setTimer` leads to one run of the handler at most, none once the timer has been
cleared or replaced, and until then the timer is pending. -/
structure TimersKept (s : Room) : Prop where
  once : ((TimerLog.fires s.state.history).map (·.2.call)).Nodup
  cleared : ∀ name timer,
    ¬ [.set name timer, .clear name, .fire name timer].Sublist s.state.history
  replaced : ∀ name timer timer', timer ≠ timer' →
    ¬ [.set name timer, .set name timer', .fire name timer].Sublist s.state.history
  pending : ∀ b ∈ TimerLog.due s.state.history, Pending s b

/-! ## The conditions -/

def HasTimers (s : RoomRuntime) : Prop := s.timers ≠ [] ∨ s.storedTimers ≠ []

/-- A step that does not take a room with named timers for an empty one. -/
def Occupied (s : Room) (a : Step) : Prop :=
  HasTimers s.state →
    match a, s.current with
    | .restart, _ => s.state.sockets ≠ []
    | .proceed, some .alarm => s.state.sockets ≠ []
    | .proceed, some .roomDestroyed => False
    | .proceed, some (.cleanUp _ _) => s.state.players ≠ []
    | _, _ => True

/-- The state that was saved has not expired. -/
def Recoverable (env : Settings) (s : RoomRuntime) : Prop :=
  s.storedTimers = [] ∨ ∃ saved ∈ s.saved, s.now - saved.savedAt < env.stateTTL

/-- One of some deadlines comes before each timer in the storage. -/
def Sooner (s : RoomRuntime) (ds : List ℤ) : Prop :=
  ∀ b ∈ s.storedTimers, ∃ d ∈ ds, d ≤ max b.2.fireAt (s.now + 1)

def withPendingAuth (s : RoomRuntime) (pendingAuth : List (String × ℤ)) : RoomRuntime :=
  { s with pendingAuth := pendingAuth }

/-- The next check of the heartbeats, and the deadlines in memory but for that of a connection. -/
def otherDeadlines (env : Settings) (s : RoomRuntime) (connectionId : String) : List ℤ :=
  (s.now + env.heartbeatCheckInterval) ::
    (withPendingAuth s (s.pendingAuth.filter (·.1 ≠ connectionId))).deadlines

/-- A timer of this name waits for an alarm that has taken it out. -/
def Queued (s : Room) (name : String) : Prop := ∃ b ∈ queue s.pending, b.1 = name

/-- A step that neither loses nor revives a timer. -/
def Mindful (env : Settings) (s : Room) (a : Step) : Prop :=
  match a, s.current with
  | .restart, _ =>
    ¬ AlarmRuns s ∧ queue s.pending = [] ∧ (s.state.stateRecoveryNeeded = false →
      (∀ b ∈ s.state.timers, b ∈ s.state.storedTimers) ∧
        ∀ b ∈ s.state.storedTimers, b ∈ s.state.timers)
  | .event (.setTimer name _), _ => ¬ Queued s name
  | .event (.clearTimer name), _ => ¬ Queued s name
  | .event (.upgrade connectionId), _ =>
    s.state.stateRecoveryNeeded = true →
      Sooner s.state
        ((s.state.now + env.authTimeout) :: otherDeadlines env s.state connectionId)
  | .proceed, some (.disconnect connectionId _) =>
    s.state.stateRecoveryNeeded = true →
      s.state.sockets ≠ [] ∧ Sooner s.state (otherDeadlines env s.state connectionId)
  | .proceed, some (.receive _ _) =>
    s.state.stateRecoveryNeeded = true → Recoverable env s.state
  | .proceed, some .alarm => s.state.stateRecoveryNeeded = true → Recoverable env s.state
  | _, _ => True

instance (s : RoomRuntime) : Decidable (HasTimers s) := inferInstanceAs (Decidable (_ ∨ _))

instance (s : Room) (a : Step) : Decidable (Occupied s a) := by
  unfold Occupied
  split <;> infer_instance

instance (env : Settings) (s : RoomRuntime) : Decidable (Recoverable env s) :=
  inferInstanceAs (Decidable (_ ∨ ∃ saved ∈ s.saved, _))

instance (s : RoomRuntime) (ds : List ℤ) : Decidable (Sooner s ds) :=
  inferInstanceAs (Decidable (∀ b ∈ s.storedTimers, ∃ d ∈ ds, _))

instance (s : Room) (name : String) : Decidable (Queued s name) :=
  inferInstanceAs (Decidable (∃ b ∈ queue s.pending, _))

instance (s : Room) : Decidable (AlarmRuns s) :=
  inferInstanceAs (Decidable (∃ sec ∈ s.pending, _))

instance (env : Settings) (s : Room) (a : Step) : Decidable (Mindful env s a) := by
  unfold Mindful
  split <;> infer_instance

variable {env : Settings} {s s' s'' : RoomRuntime} {outcome : Outcome} {sec : Section}
  {pending : List Section}

/-! ## Changes that leave the timers -/

/-- A change that leaves the named timers, but may save them. -/
structure Untouched (s s' : RoomRuntime) : Prop where
  timers : s'.timers = s.timers
  storedTimers : s'.storedTimers = s.storedTimers ∨ s'.storedTimers = s.timers
  history : s'.history = s.history
  calls : s'.calls = s.calls
  stateRecoveryNeeded : s'.stateRecoveryNeeded = s.stateRecoveryNeeded

namespace Untouched

theorem of_minor (h : Minor s s') : Untouched s s' where
  timers := h.timers
  storedTimers := .inl h.storedTimers
  history := h.history
  calls := h.calls
  stateRecoveryNeeded := h.stateRecoveryNeeded

theorem refl (s : RoomRuntime) : Untouched s s := of_minor (.refl s)

theorem trans (h : Untouched s s') (h' : Untouched s' s'') : Untouched s s'' where
  timers := h'.timers.trans h.timers
  storedTimers := by
    rcases h'.storedTimers with heq | heq
    · rw [heq]
      exact h.storedTimers
    · exact .inr (heq.trans h.timers)
  history := h'.history.trans h.history
  calls := h'.calls.trans h.calls
  stateRecoveryNeeded := h'.stateRecoveryNeeded.trans h.stateRecoveryNeeded

theorem mapSockets (s : RoomRuntime) (p : Socket → Bool) (f : Socket → Socket) :
    Untouched s (s.mapSockets p f) := { refl s with }

theorem removePlayers (s : RoomRuntime) (connectionIds : List String) :
    Untouched s (s.removePlayers connectionIds) := { refl s with }

theorem sync (s : RoomRuntime) : Untouched s s.syncEphemeralTimersToStorage :=
  of_minor (minor_syncEphemeralTimersToStorage s)

theorem schedule (s : RoomRuntime) : Untouched s s.scheduleNextAlarm :=
  of_minor (minor_scheduleNextAlarm s)

theorem deletePendingAuth (s : RoomRuntime) (connectionId : String) :
    Untouched s (s.deletePendingAuth connectionId) := by
  unfold RoomRuntime.deletePendingAuth
  split_ifs
  · refine (trans ?_ (sync _)).trans (schedule _)
    exact { refl s with }
  · exact refl s

theorem receive (s : RoomRuntime) (connectionId : String) (message : Message) :
    Untouched s (s.receive connectionId message).1 := by
  unfold RoomRuntime.receive
  split
  · exact refl s
  · cases message <;> exact mapSockets s _ _

theorem authenticate (s : RoomRuntime) (connectionId userId : String) (before : Option String) :
    Untouched s (s.authenticate connectionId userId before).1 := by
  have hmeta (f : Socket → Socket) :
      Untouched s ((s.setWSMeta connectionId f).deletePendingAuth connectionId) :=
    (mapSockets s _ f).trans (deletePendingAuth _ _)
  have hplayer (s : RoomRuntime) : Untouched s (s.addPlayer connectionId userId) :=
    { refl s with }
  unfold RoomRuntime.authenticate
  dsimp only
  split_ifs
  · exact refl s
  · exact ((hmeta _).trans (of_minor (minor_deleteTimer _ userId))).trans (hplayer _)
  · exact hmeta _

theorem handleExplicitLeave (s : RoomRuntime) (connectionId : String) :
    Untouched s (s.handleExplicitLeave connectionId).1 := by
  unfold RoomRuntime.handleExplicitLeave
  split
  · exact mapSockets s _ _
  · exact (removePlayers s _).trans (of_minor (minor_deleteTimer _ _))

theorem handleDisconnect (s : RoomRuntime) (connectionId : String) (code : CloseCode) :
    Untouched s (s.handleDisconnect env connectionId code).1 := by
  unfold RoomRuntime.handleDisconnect
  have hremove := removePlayers s [connectionId]
  split
  · exact refl s
  · dsimp only
    split
    · exact hremove.trans (of_minor (minor_scheduleIfEmpty _))
    · cases code with
      | kicked => exact hremove.trans (of_minor (minor_deleteTimer _ _))
      | clientLeave => exact hremove.trans (of_minor (minor_deleteTimer _ _))
      | other =>
        dsimp only
        split_ifs
        · exact (hremove.trans (of_minor (minor_startReconnectTimer _ _ _))).trans
            (of_minor (minor_scheduleIfEmpty _))
        · exact hremove

theorem webSocketClose (s : RoomRuntime) (connectionId : String) (code : CloseCode) :
    Untouched s (s.webSocketClose env connectionId code).1 :=
  ((handleDisconnect s connectionId code).trans (deletePendingAuth _ connectionId)).trans
    (of_minor (minor_ensureSocketHeartbeatCheckScheduled _))

theorem timersFired (s : RoomRuntime) (now : ℤ) (expired : Bool) :
    Untouched s (s.timersFired env now expired).1 := by
  have hdirty : Untouched s (if expired then s.markDirty env else s) := by
    split_ifs
    · exact of_minor (minor_markDirty s)
    · exact refl s
  exact hdirty.trans { refl (if expired then s.markDirty env else s) with }

theorem expireAuth (s : RoomRuntime) : Untouched s s.expireAuth := by
  have hclose (p : Socket → Bool) : Untouched s
      ({ s with pendingAuth := s.pendingAuth.filter fun p => ¬ p.2 ≤ s.now }.closeSockets p) :=
    { refl s with }
  unfold RoomRuntime.expireAuth
  dsimp only
  split_ifs
  · exact hclose _
  · exact (hclose _).trans (sync _)

theorem persistState (s : RoomRuntime) : Untouched s (s.persistState env) := by
  unfold RoomRuntime.persistState
  refine (trans ?_ (sync _)).trans (schedule _)
  exact { refl s with storedTimers := .inr rfl }

theorem saveIfDue (env : Settings) (s : RoomRuntime) (now : ℤ) :
    Untouched s (s.saveIfDue env now) ∧ (s.saveIfDue env now).players = s.players := by
  have hdue : Untouched s { s with stateSaveAt := none } := { refl s with }
  unfold RoomRuntime.saveIfDue
  split_ifs
  · dsimp only
    rw [(minor_syncEphemeralTimersToStorage _).players]
    split_ifs
    · exact ⟨(hdue.trans (persistState _)).trans (sync _), (minor_flush _).players⟩
    · exact ⟨hdue.trans (sync _), rfl⟩
  · exact ⟨refl s, rfl⟩

theorem checkHeartbeatsIfDue (s : RoomRuntime) (now : ℤ) :
    Untouched s (s.checkHeartbeatsIfDue env now) := by
  have hdue : Untouched s { s with socketHeartbeatCheckAt := none } := { refl s with }
  unfold RoomRuntime.checkHeartbeatsIfDue
  split_ifs
  · exact ((hdue.trans (mapSockets _ _ _)).trans
      (of_minor (minor_ensureSocketHeartbeatCheckScheduled _))).trans (sync _)
  · exact refl s

theorem deleteStorage (h : s.storedTimers = []) : Untouched s s.deleteStorage :=
  { refl s with storedTimers := .inl h.symm }

theorem expireStateIfDue (now : ℤ) (h : s.players = [] → s.storedTimers = []) :
    Untouched s (s.expireStateIfDue now) := by
  have hdue : Untouched s { s with stateTTLAlarmAt := none } := { refl s with }
  unfold RoomRuntime.expireStateIfDue
  split_ifs
  · dsimp only
    split_ifs with hempty
    · exact (hdue.trans (deleteStorage (h hempty))).trans (sync _)
    · exact hdue.trans (sync _)
  · exact refl s

theorem cleanUpIfDue (env : Settings) (now : ℤ)
    (h : s.players = [] → s.timers = [] ∧ s.storedTimers = []) :
    Untouched s (s.cleanUpIfDue env now) ∧ (s.cleanUpIfDue env now).players = s.players := by
  have hdue : Untouched s { s with emptyRoomCleanupAt := none } := { refl s with }
  unfold RoomRuntime.cleanUpIfDue
  split_ifs
  · dsimp only
    rw [(minor_syncEphemeralTimersToStorage _).players]
    split_ifs with hempty
    · obtain ⟨htimers, hstored⟩ := h hempty
      unfold RoomRuntime.cleanUpRoom
      split_ifs
      · rw [(minor_syncEphemeralTimersToStorage _).players]
        refine ⟨(trans ?_ (sync _)).trans (sync _), rfl⟩
        exact { refl s with timers := htimers.symm, storedTimers := .inl hstored.symm }
      · refine ⟨trans ?_ (sync _), rfl⟩
        exact { refl s with storedTimers := .inl hstored.symm }
    · exact ⟨hdue.trans (sync _), rfl⟩
  · exact ⟨refl s, rfl⟩

theorem cleanUp (now : ℤ) (expired : Bool)
    (h : s.players = [] → s.timers = [] ∧ s.storedTimers = []) :
    Untouched s (s.cleanUp env now expired) := by
  obtain ⟨hsync, -⟩ := minor_syncIf s expired
  unfold RoomRuntime.cleanUp
  generalize (if expired then s.syncEphemeralTimersToStorage else s) = s₁ at hsync
  -- Each phase keeps the players, and the lack of named timers.
  have keeps {s s' : RoomRuntime} (hs : s.players = [] → s.timers = [] ∧ s.storedTimers = [])
      (h : Untouched s s') (hplayers : s'.players = s.players) :
      s'.players = [] → s'.timers = [] ∧ s'.storedTimers = [] := by
    intro hempty
    obtain ⟨htimers, hstored⟩ := hs (hplayers ▸ hempty)
    refine ⟨h.timers.trans htimers, ?_⟩
    rcases h.storedTimers with heq | heq
    · exact heq.trans hstored
    · exact heq.trans htimers
  have h₁ : s₁.players = [] → s₁.timers = [] ∧ s₁.storedTimers = [] := by
    rwa [hsync.players, hsync.timers, hsync.storedTimers]
  obtain ⟨hclean, hclean'⟩ := cleanUpIfDue env now h₁
  obtain ⟨hsave, hsave'⟩ := saveIfDue env (s₁.cleanUpIfDue env now) now
  have h₂ := keeps (keeps h₁ hclean hclean') hsave hsave'
  have hexpire := expireStateIfDue now fun hempty => (h₂ hempty).2
  exact ((((of_minor hsync).trans hclean).trans hsave).trans hexpire).trans
    ((checkHeartbeatsIfDue _ now).trans (schedule _))

end Untouched

/-! ## The log -/

/-- The timers that are due are kept, or are about to fire. -/
structure LogInv (s : RoomRuntime) (pending : List Section) : Prop where
  sound : TimerLog.Sound s.history
  due : ∀ b, b ∈ TimerLog.due s.history ↔ b ∈ kept s ∨ b ∈ queue pending
  nodup : (queue pending).Nodup
  disjoint : ∀ b ∈ queue pending, b ∉ kept s
  keys : (s.timers.map Prod.fst).Nodup
  storedKeys : (s.storedTimers.map Prod.fst).Nodup
  /-- The calls of `setTimer` have numbers of their own. -/
  sets : ((TimerLog.sets s.history).map (·.2.call)).Nodup
  calls : ∀ b ∈ TimerLog.sets s.history, b.2.call < s.calls

theorem kept_of_recovered (h : s.stateRecoveryNeeded = false) : kept s = s.timers := by
  unfold kept
  rw [h, if_neg Bool.false_ne_true]

theorem kept_with_timers (h : s.stateRecoveryNeeded = false) {timers : List (String × Timer)}
    {calls : ℕ} {history : List Report} :
    kept { s with timers := timers, calls := calls, history := history } = timers :=
  kept_of_recovered h

theorem kept_of_forgotten (h : s.stateRecoveryNeeded = true) : kept s = s.storedTimers := by
  unfold kept
  rw [h, if_pos rfl]

theorem recoverFromStorage_timers (h : Recoverable env s) (hforgotten : s.timers = []) :
    (s.recoverFromStorage env).timers = s.storedTimers ∧
      (s.recoverFromStorage env).storedTimers = s.storedTimers ∧
        (s.recoverFromStorage env).history = s.history ∧
          (s.recoverFromStorage env).calls = s.calls := by
  have hread : (if s.storedTimers = [] then s.timers else s.storedTimers) = s.storedTimers := by
    split_ifs with hnil
    · rw [hforgotten, hnil]
    · rfl
  unfold RoomRuntime.recoverFromStorage
  rw [(minor_scheduleNextAlarm _).timers, (minor_scheduleNextAlarm _).storedTimers,
    (minor_scheduleNextAlarm _).history, (minor_scheduleNextAlarm _).calls]
  dsimp only
  split
  · rename_i saved hsaved
    by_cases hvalid : s.now - saved.savedAt < env.stateTTL
    · rw [if_pos hvalid]
      exact ⟨hread, rfl, rfl, rfl⟩
    · -- The state has expired, and the storage has no timers.
      rw [if_neg hvalid]
      have hnil : s.storedTimers = [] := by
        refine h.resolve_right ?_
        rintro ⟨saved', hsaved', hvalid'⟩
        rw [hsaved] at hsaved'
        obtain rfl := Option.some.inj hsaved'
        exact hvalid hvalid'
      exact ⟨hforgotten.trans hnil.symm, hnil.symm, rfl, rfl⟩
  · rename_i hsaved
    have hnil : s.storedTimers = [] := by
      refine h.resolve_right ?_
      rintro ⟨saved, hsaved', -⟩
      rw [hsaved] at hsaved'
      cases hsaved'
    exact ⟨hforgotten.trans hnil.symm, hnil.symm, rfl, rfl⟩

theorem Untouched.recoverRuntimeStateFromSockets (env : Settings) (s : RoomRuntime) :
    Untouched s (s.recoverRuntimeStateFromSockets env) := by
  unfold RoomRuntime.recoverRuntimeStateFromSockets
  refine Untouched.trans ?_ (.of_minor (minor_ensureSocketHeartbeatCheckScheduled _))
  split_ifs
  · refine Untouched.trans ?_ (.of_minor (minor_flush _))
    exact { Untouched.refl s with }
  · exact { Untouched.refl s with }

theorem recover_timers (h : Recoverable env s) (hforgotten : s.timers = []) :
    (s.recover env).timers = s.storedTimers ∧ (s.recover env).storedTimers = s.storedTimers ∧
      (s.recover env).history = s.history ∧ (s.recover env).calls = s.calls ∧
        (s.recover env).stateRecoveryNeeded = false := by
  obtain ⟨htimers, hstored, hhistory, hcalls⟩ := recoverFromStorage_timers h hforgotten
  have hsockets := Untouched.recoverRuntimeStateFromSockets env (s.recoverFromStorage env)
  unfold RoomRuntime.recover
  generalize (s.recoverFromStorage env).recoverRuntimeStateFromSockets env = s₁ at hsockets ⊢
  refine ⟨hsockets.timers.trans htimers, ?_, hsockets.history.trans hhistory,
    hsockets.calls.trans hcalls, rfl⟩
  rcases hsockets.storedTimers with heq | heq
  · exact heq.trans hstored
  · exact heq.trans htimers

namespace LogInv

theorem perm {pending' : List Section} (hperm : (queue pending').Perm (queue pending))
    (h : LogInv s pending) : LogInv s pending' :=
  { h with
    due := fun b => (h.due b).trans (or_congr_right hperm.mem_iff.symm)
    nodup := hperm.nodup_iff.2 h.nodup
    disjoint := fun b hb => h.disjoint b (hperm.mem_iff.1 hb) }

variable (h : LogInv s pending)
include h

theorem of_same (huntouched : Untouched s s')
    (hstored : s'.storedTimers = s.storedTimers) : LogInv s' pending := by
  have hkept : kept s' = kept s := by
    unfold kept
    rw [huntouched.stateRecoveryNeeded, huntouched.timers, hstored]
  exact
    { sound := huntouched.history ▸ h.sound
      due := by
        rw [huntouched.history, hkept]
        exact h.due
      nodup := h.nodup
      disjoint := by
        rw [hkept]
        exact h.disjoint
      keys := huntouched.timers ▸ h.keys
      storedKeys := hstored ▸ h.storedKeys
      sets := huntouched.history ▸ h.sets
      calls := by
        rw [huntouched.history, huntouched.calls]
        exact h.calls }

theorem of_untouched (huntouched : Untouched s s')
    (hrecovered : s.stateRecoveryNeeded = false) : LogInv s' pending := by
  have hkept : kept s' = kept s := by
    rw [kept_of_recovered hrecovered,
      kept_of_recovered (huntouched.stateRecoveryNeeded.trans hrecovered), huntouched.timers]
  exact
    { sound := huntouched.history ▸ h.sound
      due := by
        rw [huntouched.history, hkept]
        exact h.due
      nodup := h.nodup
      disjoint := by
        rw [hkept]
        exact h.disjoint
      keys := huntouched.timers ▸ h.keys
      storedKeys := by
        rcases huntouched.storedTimers with heq | heq
        · exact heq ▸ h.storedKeys
        · exact heq ▸ h.keys
      sets := huntouched.history ▸ h.sets
      calls := by
        rw [huntouched.history, huntouched.calls]
        exact h.calls }

theorem recover (hrecoverable : Recoverable env s)
    (hforgotten : s.timers = []) (hkept : kept s = s.storedTimers) :
    LogInv (s.recover env) pending := by
  obtain ⟨htimers, hstored, hhistory, hcalls, hrecovered⟩ := recover_timers hrecoverable hforgotten
  have hkept' : kept (s.recover env) = kept s := by
    rw [kept_of_recovered hrecovered, htimers, hkept]
  exact
    { sound := hhistory ▸ h.sound
      due := by
        rw [hhistory, hkept']
        exact h.due
      nodup := h.nodup
      disjoint := by
        rw [hkept']
        exact h.disjoint
      keys := htimers ▸ h.storedKeys
      storedKeys := hstored ▸ h.storedKeys
      sets := hhistory ▸ h.sets
      calls := by
        rw [hhistory, hcalls]
        exact h.calls }

theorem expire (hrecovered : s.stateRecoveryNeeded = false)
    (p : String × Timer → Bool) (rest : List Section) (hrest : queue rest = []) :
    LogInv { s with timers := s.timers.filter fun b => !p b }
      ((s.timers.filter p).map (fun b => .fireTimer b.1 b.2) ++ rest ++ pending) := by
  have hqueue : queue ((s.timers.filter p).map (fun b => Section.fireTimer b.1 b.2) ++ rest ++
      pending) = s.timers.filter p ++ queue pending := by
    have hfired : queue ((s.timers.filter p).map fun b => Section.fireTimer b.1 b.2) =
        s.timers.filter p := by
      unfold queue
      rw [filterMap_map]
      exact filterMap_some
    unfold queue at hrest hfired ⊢
    rw [filterMap_append, filterMap_append, hrest, hfired, append_nil]
  have hkept : kept s = s.timers := kept_of_recovered hrecovered
  have hkept' : kept { s with timers := s.timers.filter fun b => !p b } =
      s.timers.filter fun b => !p b := kept_with_timers hrecovered
  refine { h with due := ?_, nodup := ?_, disjoint := ?_, keys := ?_ }
  · intro b
    rw [h.due, hqueue, hkept, hkept', mem_append, mem_filter, mem_filter]
    cases hb : p b <;> simp
  · rw [hqueue, nodup_append]
    refine ⟨(List.Nodup.of_map _ h.keys).filter _, h.nodup, fun b hb b' hb' heq => ?_⟩
    subst heq
    refine h.disjoint b hb' ?_
    rw [hkept]
    exact (mem_filter.1 hb).1
  · intro b hb hmem
    rw [hqueue] at hb
    rw [hkept'] at hmem
    obtain ⟨htimer, hnot⟩ := mem_filter.1 hmem
    rcases mem_append.1 hb with hb | hb
    · rw [(mem_filter.1 hb).2] at hnot
      cases hnot
    · exact h.disjoint b hb (hkept ▸ htimer)
  · exact h.keys.sublist (filter_sublist.map _)

omit h

theorem fire {name : String} {timer : Timer} (h : LogInv s (.runTimer name timer :: pending)) :
    LogInv { s with history := s.history ++ [.fire name timer] } pending := by
  have hqueue : queue (.runTimer name timer :: pending) = (name, timer) :: queue pending := rfl
  obtain ⟨hnew, hnodup⟩ := nodup_cons.1 (hqueue ▸ h.nodup)
  have hmem : (name, timer) ∈ queue (.runTimer name timer :: pending) := by
    rw [hqueue]
    exact mem_cons_self
  have hsets : TimerLog.sets (s.history ++ [.fire name timer]) = TimerLog.sets s.history := by
    rw [sets_append]
    exact append_nil _
  refine
    { h with
      sound := sound_concat.2 ⟨h.sound, (h.due _).2 (.inr hmem)⟩
      due := fun b => ?_
      nodup := hnodup
      disjoint := fun b hb => h.disjoint b (by rw [hqueue]; exact mem_cons_of_mem _ hb)
      sets := hsets ▸ h.sets
      calls := hsets ▸ h.calls }
  rw [due_concat, mem_next_fire, h.due, hqueue, mem_cons]
  constructor
  · rintro ⟨hkept | heq | hb, hne⟩
    · exact .inl hkept
    · exact (hne heq).elim
    · exact .inr hb
  · rintro (hkept | hb)
    · refine ⟨.inl hkept, ?_⟩
      rintro rfl
      exact h.disjoint _ hmem hkept
    · refine ⟨.inr (.inr hb), ?_⟩
      rintro rfl
      exact hnew hb

theorem set (h : LogInv s pending) (hrecovered : s.stateRecoveryNeeded = false) {name : String}
    (hqueued : ∀ b ∈ queue pending, b.1 ≠ name) (fireAt : ℤ) :
    LogInv { s with
      timers := Assoc.set s.timers name ⟨fireAt, s.calls⟩
      calls := s.calls + 1
      history := s.history ++ [.set name ⟨fireAt, s.calls⟩] } pending := by
  have hkept : kept s = s.timers := kept_of_recovered hrecovered
  have hmem (b : String × Timer) : b ∈ Assoc.set s.timers name ⟨fireAt, s.calls⟩ ↔
      b = (name, ⟨fireAt, s.calls⟩) ∨ b ∈ s.timers ∧ b.1 ≠ name := Assoc.mem_set_iff h.keys
  have hsets : TimerLog.sets (s.history ++ [.set name ⟨fireAt, s.calls⟩]) =
      TimerLog.sets s.history ++ [(name, ⟨fireAt, s.calls⟩)] := sets_append
  refine
    { h with
      sound := sound_concat.2 ⟨h.sound, trivial⟩
      due := fun b => ?_
      disjoint := fun b hb hkept' => ?_
      keys := Assoc.nodup_keys_set h.keys name _
      sets := ?_
      calls := ?_ }
  · rw [due_concat, mem_next_set, h.due, hkept, kept_with_timers hrecovered]
    rw [hmem]
    constructor
    · rintro (⟨htimer | hb, hne⟩ | rfl)
      · exact .inl (.inr ⟨htimer, hne⟩)
      · exact .inr hb
      · exact .inl (.inl rfl)
    · rintro ((rfl | htimer) | hb)
      · exact .inr rfl
      · exact .inl ⟨.inl htimer.1, htimer.2⟩
      · exact .inl ⟨.inr hb, hqueued b hb⟩
  · rw [kept_with_timers hrecovered] at hkept'
    rcases (hmem b).1 hkept' with rfl | ⟨htimer, -⟩
    · exact hqueued _ hb rfl
    · exact h.disjoint b hb (hkept ▸ htimer)
  · rw [hsets, map_append, nodup_append]
    refine ⟨h.sets, nodup_singleton _, fun c hc c' hc' => ?_⟩
    obtain ⟨b, hb, rfl⟩ := mem_map.1 hc
    rw [mem_singleton.1 hc']
    exact Nat.ne_of_lt (h.calls b hb)
  · intro b hb
    rw [hsets] at hb
    rcases mem_append.1 hb with hb | hb
    · exact Nat.lt_succ_of_lt (h.calls b hb)
    · rw [mem_singleton.1 hb]
      exact Nat.lt_succ_self _

theorem clear (h : LogInv s pending) (hrecovered : s.stateRecoveryNeeded = false) {name : String}
    (hqueued : ∀ b ∈ queue pending, b.1 ≠ name) :
    LogInv { s with
      timers := s.timers.filter (·.1 ≠ name)
      history := s.history ++ [.clear name] } pending := by
  have hkept : kept s = s.timers := kept_of_recovered hrecovered
  have hmem (b : String × Timer) :
      b ∈ s.timers.filter (·.1 ≠ name) ↔ b ∈ s.timers ∧ b.1 ≠ name := by
    rw [mem_filter, decide_eq_true_eq]
  have hsets : TimerLog.sets (s.history ++ [.clear name]) = TimerLog.sets s.history := by
    rw [sets_append]
    exact append_nil _
  refine
    { h with
      sound := sound_concat.2 ⟨h.sound, trivial⟩
      due := fun b => ?_
      disjoint := fun b hb hkept' => ?_
      keys := h.keys.sublist (filter_sublist.map _)
      sets := hsets ▸ h.sets
      calls := hsets ▸ h.calls }
  · rw [due_concat, mem_next_clear, h.due, hkept, kept_with_timers hrecovered]
    rw [hmem]
    constructor
    · rintro ⟨htimer | hb, hne⟩
      · exact .inl ⟨htimer, hne⟩
      · exact .inr hb
    · rintro (htimer | hb)
      · exact ⟨.inl htimer.1, htimer.2⟩
      · exact ⟨.inr hb, hqueued b hb⟩
  · rw [kept_with_timers hrecovered] at hkept'
    exact h.disjoint b hb (hkept ▸ ((hmem b).1 hkept').1)

end LogInv

/-! ## The invariant -/

/-- A section that is the first of its handler, and recovers the state or leaves it. -/
def Section.isEarly : Section → Bool
  | .receive _ _ | .disconnect _ _ | .alarm => true
  | _ => false

/-- What holds of a room while no timer is lost or revived. -/
structure TimerInv (s : RoomRuntime) (pending : List Section) : Prop where
  log : LogInv s pending
  armed : Armed s ∨ ∃ sec ∈ pending, sec.ofAlarm = true
  /-- The alarm comes in time for the timers that are yet to be read from the storage. -/
  inTime : s.stateRecoveryNeeded = true →
    (∀ b ∈ s.storedTimers, InTime s b.2) ∨ ∃ sec ∈ pending, sec.ofAlarm = true
  /-- Nothing is in memory before the storage is read. -/
  forgotten : s.stateRecoveryNeeded = true →
    s.timers = [] ∧ s.players = [] ∧ ∀ sec ∈ pending, sec.isEarly = true

theorem TimerInv.perm {pending' : List Section} (hperm : pending.Perm pending')
    (h : TimerInv s pending) : TimerInv s pending' := by
  have halarm : (∃ sec ∈ pending, sec.ofAlarm = true) → ∃ sec ∈ pending', sec.ofAlarm = true :=
    fun ⟨sec, hsec, h⟩ => ⟨sec, hperm.subset hsec, h⟩
  refine ⟨h.log.perm (hperm.symm.filterMap _), h.armed.imp_right halarm,
    fun hneeded => (h.inTime hneeded).imp_right halarm, fun hneeded => ?_⟩
  obtain ⟨htimers, hplayers, hearly⟩ := h.forgotten hneeded
  exact ⟨htimers, hplayers, fun sec hsec => hearly sec (hperm.symm.subset hsec)⟩

theorem TimerInv.of_recovered (hlog : LogInv s pending) (hrecovered : s.stateRecoveryNeeded = false)
    (harmed : Armed s ∨ ∃ sec ∈ pending, sec.ofAlarm = true) : TimerInv s pending := by
  refine ⟨hlog, harmed, fun hneeded => ?_, fun hneeded => ?_⟩
  · rw [hrecovered] at hneeded
    cases hneeded
  · rw [hrecovered] at hneeded
    cases hneeded

/-! ## Sections -/

theorem queue_append (pending pending' : List Section) :
    queue (pending ++ pending') = queue pending ++ queue pending' := filterMap_append

theorem queue_cons (h : sec.queued = none) (pending : List Section) :
    queue (sec :: pending) = queue pending := filterMap_cons_none h

theorem queue_exec (halarm : sec ≠ .alarm) (hrun : ∀ name timer, sec ≠ .runTimer name timer) :
    queue (s.exec env outcome sec).2.sections = sec.queued.toList := by
  have none_of (h : ∀ sec' ∈ (s.exec env outcome sec).2.sections, sec'.queued = none)
      (hsec : sec.queued = none) :
      queue (s.exec env outcome sec).2.sections = sec.queued.toList := by
    rw [hsec]
    exact filterMap_eq_nil_iff.2 h
  have of_sequel {sec' : Section} (h : sec'.isSequel = true) : sec'.queued = none := by
    cases sec' <;> first | rfl | cases h
  cases sec with
  | alarm => exact (halarm rfl).elim
  | fireTimer => rfl
  | runTimer name timer => exact (hrun name timer rfl).elim
  | timersFired now expired =>
    refine none_of (fun sec' hsec' => ?_) rfl
    rcases mem_append.1 hsec' with h | h
    · obtain ⟨timer, -, rfl⟩ := mem_map.1 h
      rfl
    · rw [mem_singleton.1 h]
      rfl
  | _ => exact none_of (fun sec' hsec' => of_sequel (isSequel_exec hsec' nofun nofun nofun)) rfl

def Section.Keeps (s : RoomRuntime) : Section → Prop
  | .roomDestroyed => False
  | .cleanUp _ _ => s.players ≠ []
  | _ => True

theorem untouched_exec (hrecovered : s.stateRecoveryNeeded = false)
    (hkeeps : HasTimers s → sec.Keeps s) (halarm : sec ≠ .alarm)
    (hrun : ∀ name timer, sec ≠ .runTimer name timer) : Untouched s (s.exec env outcome sec).1 := by
  cases sec with
  | receive connectionId message =>
    unfold RoomRuntime.exec
    rw [recoverStateIfNeeded_of_recovered hrecovered]
    exact .receive s connectionId message
  | recoverStateIfNeeded =>
    unfold RoomRuntime.exec
    rw [recoverStateIfNeeded_of_recovered hrecovered]
    exact .refl s
  | authenticate connectionId userId before =>
    cases outcome with
    | ok => exact .authenticate s connectionId userId before
    | failed =>
      unfold RoomRuntime.exec
      dsimp only
      split_ifs
      · exact .mapSockets s _ _
      · exact .refl s
    | unavailable => exact .refl s
  | authorized connectionId message =>
    cases outcome with
    | ok =>
      unfold RoomRuntime.exec
      dsimp only
      split_ifs
      · exact .handleExplicitLeave s connectionId
      · exact .refl s
    | failed => exact .mapSockets s _ _
    | unavailable => exact .refl s
  | closeLeaver =>
    exact (Untouched.of_minor (minor_scheduleIfEmpty s)).trans (.mapSockets _ _ _)
  | disconnect connectionId code => exact .webSocketClose s connectionId code
  | disconnected => exact .of_minor (minor_scheduleIfEmpty s)
  | kickPlayer userId =>
    exact (Untouched.removePlayers s _).trans (.of_minor (minor_deleteTimer _ userId))
  | closeKicked => exact .mapSockets s _ _
  | finalizePlayerLeave => exact .refl s
  | forgetPlayer => exact { Untouched.refl s with }
  | roomDestroyed =>
    have hnone : ¬ HasTimers s := hkeeps
    obtain ⟨htimers, hstored⟩ := not_or.1 hnone
    unfold RoomRuntime.exec RoomRuntime.roomDestroyed
    refine Untouched.trans ?_ (.of_minor (minor_scheduleEmptyRoomCleanup _))
    exact { Untouched.refl s with
      timers := (not_not.1 htimers).symm
      storedTimers := .inl (not_not.1 hstored).symm }
  | playerLeft => exact .refl s
  | alarm => exact (halarm rfl).elim
  | fireTimer => exact .refl s
  | runTimer name timer => exact (hrun name timer rfl).elim
  | timersFired now expired => exact .timersFired s now expired
  | cleanUp now expired =>
    refine .cleanUp now expired fun hempty => ?_
    have hnone : ¬ HasTimers s := fun htimers => hkeeps htimers hempty
    exact ⟨not_not.1 (not_or.1 hnone).1, not_not.1 (not_or.1 hnone).2⟩

namespace TimerInv

theorem exec_untouched (h : TimerInv s (sec :: pending))
    (hrecovered : s.stateRecoveryNeeded = false)
    (huntouched : Untouched s (s.exec env outcome sec).1)
    (hqueue : queue (s.exec env outcome sec).2.sections = sec.queued.toList) :
    TimerInv (s.exec env outcome sec).1 ((s.exec env outcome sec).2.sections ++ pending) := by
  have hperm : queue ((s.exec env outcome sec).2.sections ++ pending) = queue (sec :: pending) := by
    rw [queue_append, hqueue]
    unfold queue
    rw [filterMap_cons]
    cases sec.queued <;> rfl
  refine of_recovered ((h.log.of_untouched huntouched hrecovered).perm (.of_eq hperm))
    (huntouched.stateRecoveryNeeded.trans hrecovered) (armed_or_alarm_exec h.armed)

theorem exec_runTimer {name : String} {timer : Timer}
    (h : TimerInv s (.runTimer name timer :: pending))
    (hrecovered : s.stateRecoveryNeeded = false) :
    TimerInv (s.exec env outcome (.runTimer name timer)).1
      ((s.exec env outcome (.runTimer name timer)).2.sections ++ pending) :=
  of_recovered h.log.fire hrecovered (armed_or_alarm_exec h.armed)

theorem recover_alarm (h : TimerInv s (.alarm :: pending)) (hsockets : HasTimers s → s.sockets ≠ [])
    (hrecoverable : s.stateRecoveryNeeded = true → Recoverable env s) :
    LogInv (if s.shouldRecoverBeforeAlarm then s.recover env else s) pending ∧
      (if s.shouldRecoverBeforeAlarm then s.recover env else s).stateRecoveryNeeded = false := by
  have hlog : LogInv s pending := h.log.perm (.of_eq (queue_cons rfl pending).symm)
  have hrecover (hr : Recoverable env s) (hforgotten : s.timers = [])
      (hkept : kept s = s.storedTimers) :
      LogInv (s.recover env) pending ∧ (s.recover env).stateRecoveryNeeded = false :=
    ⟨hlog.recover hr hforgotten hkept, (recover_timers hr hforgotten).2.2.2.2⟩
  split_ifs with hneeds
  · cases hneeded : s.stateRecoveryNeeded with
    | true =>
      exact hrecover (hrecoverable hneeded) (h.forgotten hneeded).1 (kept_of_forgotten hneeded)
    | false =>
      -- A room without sockets has no named timers.
      unfold RoomRuntime.shouldRecoverBeforeAlarm at hneeds
      rw [hneeded] at hneeds
      simp only [Bool.false_or, Bool.and_eq_true, decide_eq_true_eq] at hneeds
      have hnosocket := hneeds.1.1.1.1.1.1.1.1.1.1.1
      have hnone : ¬ HasTimers s := fun htimers => hsockets htimers hnosocket
      have htimers : s.timers = [] := not_not.1 (not_or.1 hnone).1
      have hstored : s.storedTimers = [] := not_not.1 (not_or.1 hnone).2
      exact hrecover (.inl hstored) htimers
        ((kept_of_recovered hneeded).trans (htimers.trans hstored.symm))
  · refine ⟨hlog, ?_⟩
    unfold RoomRuntime.shouldRecoverBeforeAlarm at hneeds
    cases hneeded : s.stateRecoveryNeeded with
    | true => simp [hneeded] at hneeds
    | false => rfl

theorem exec_alarm (h : TimerInv s (.alarm :: pending)) (hsockets : HasTimers s → s.sockets ≠ [])
    (hrecoverable : s.stateRecoveryNeeded = true → Recoverable env s) :
    TimerInv (s.exec env outcome .alarm).1 ((s.exec env outcome .alarm).2.sections ++ pending) := by
  obtain ⟨hlog, hrecovered⟩ := h.recover_alarm hsockets hrecoverable
  have harmed : Armed (s.exec env outcome .alarm).1 ∨
      ∃ sec' ∈ (s.exec env outcome .alarm).2.sections ++ pending, sec'.ofAlarm = true :=
    armed_or_alarm_exec h.armed
  unfold RoomRuntime.exec RoomRuntime.alarm at harmed ⊢
  generalize (if s.shouldRecoverBeforeAlarm then s.recover env else s) = s₁
    at hlog hrecovered harmed ⊢
  have hexpire := Untouched.expireAuth s₁
  have hrecovered' := hexpire.stateRecoveryNeeded.trans hrecovered
  have hnext := (hlog.of_untouched hexpire hrecovered).expire hrecovered'
    (fun b => decide (b.2.fireAt ≤ s₁.expireAuth.now))
    [.timersFired s₁.expireAuth.now
      (s₁.expireAuth.timers.filter (·.2.fireAt ≤ s₁.expireAuth.now) ≠ [])] rfl
  simp only [← decide_not] at hnext
  exact of_recovered hnext hrecovered' harmed

theorem exec_receive {connectionId : String} {message : Message}
    (h : TimerInv s (.receive connectionId message :: pending))
    (hneeded : s.stateRecoveryNeeded = true) (hrecoverable : Recoverable env s) :
    TimerInv (s.exec env outcome (.receive connectionId message)).1
      ((s.exec env outcome (.receive connectionId message)).2.sections ++ pending) := by
  have hrecovered : (s.recover env).stateRecoveryNeeded = false := by
    have := recover_timers hrecoverable (h.forgotten hneeded).1
    exact this.2.2.2.2
  have hrecover : TimerInv (s.recover env) (.receive connectionId message :: pending) :=
    of_recovered (h.log.recover hrecoverable (h.forgotten hneeded).1 (kept_of_forgotten hneeded))
      hrecovered (.inl (armed_recover s))
  have hexec : s.exec env outcome (.receive connectionId message) =
      (s.recover env).exec env outcome (.receive connectionId message) := by
    unfold RoomRuntime.exec
    rw [recoverStateIfNeeded_of_recovered hrecovered]
    unfold RoomRuntime.recoverStateIfNeeded
    rw [if_pos hneeded]
  rw [hexec]
  refine hrecover.exec_untouched hrecovered ?_ (queue_exec nofun nofun)
  exact untouched_exec hrecovered (fun _ => trivial) nofun nofun

end TimerInv

/-! ## Before the storage has been read -/

theorem inTime_of_sooner {ds : List ℤ} (h : ∀ b ∈ s.storedTimers, InTime s b.2)
    (hstored : s'.storedTimers = s.storedTimers) (hnow : s'.now = s.now) (hsooner : Sooner s ds)
    (hds : ∀ d ∈ ds, ∃ d' ∈ s'.deadlines, d' ≤ d) (halarm : s'.alarmAt = s.alarmAt ∨ Armed s') :
    ∀ b ∈ s'.storedTimers, InTime s' b.2 := by
  intro b hb
  rw [hstored] at hb
  rcases halarm with heq | harmed
  · unfold InTime
    rw [heq, hnow]
    exact h b hb
  · obtain ⟨d, hd, hle⟩ := hsooner b hb
    obtain ⟨d', hd', hle'⟩ := hds d hd
    obtain ⟨a, ha, hmax⟩ := harmed d' hd'
    refine ⟨a, ha, hmax.trans (max_le ((hle'.trans hle).trans ?_) (le_max_right _ _))⟩
    rw [hnow]

theorem deadlines_ensure (env : Settings) (h : s.sockets ≠ [])
    (pendingAuth : List (String × ℤ)) {d : ℤ} (hd : d = s.now + env.heartbeatCheckInterval ∨
      d ∈ (withPendingAuth s pendingAuth).deadlines) :
    ∃ d' ∈ (withPendingAuth (s.ensureSocketHeartbeatCheckScheduled env) pendingAuth).deadlines,
      d' ≤ d := by
  have hcheck (s : RoomRuntime) {d : ℤ} (hd : d ∈ s.socketHeartbeatCheckAt) :
      d ∈ (withPendingAuth s pendingAuth).deadlines :=
    mem_append_right _ (Option.mem_toList.2 hd)
  have hschedule (s : RoomRuntime) : (withPendingAuth s.scheduleNextAlarm pendingAuth).deadlines =
      (withPendingAuth s pendingAuth).deadlines := by
    unfold RoomRuntime.scheduleNextAlarm
    split <;> rfl
  unfold RoomRuntime.ensureSocketHeartbeatCheckScheduled
  dsimp only
  rw [if_neg h]
  split_ifs with hall
  · -- The check is earlier than the one before.
    rw [hschedule]
    rcases hd with rfl | hd
    · exact ⟨_, hcheck _ rfl, le_rfl⟩
    · rcases mem_append.1 hd with hd' | hd'
      · exact ⟨d, mem_append_left _ hd', le_rfl⟩
      · rw [Option.mem_toList] at hd'
        change d ∈ s.socketHeartbeatCheckAt at hd'
        rw [hd'] at hall
        exact ⟨_, hcheck _ rfl, (of_decide_eq_true hall).le⟩
  · rcases hd with rfl | hd
    · cases hcheckAt : s.socketHeartbeatCheckAt with
      | none => exact (hall (by rw [hcheckAt]; rfl)).elim
      | some d' =>
        rw [hcheckAt] at hall
        exact ⟨d', hcheck s hcheckAt, not_lt.1 fun hlt => hall (decide_eq_true hlt)⟩
    · exact ⟨d, hd, le_rfl⟩

theorem deadlines_flush (s : RoomRuntime) :
    s.syncEphemeralTimersToStorage.scheduleNextAlarm.deadlines = s.deadlines := by
  unfold RoomRuntime.scheduleNextAlarm RoomRuntime.syncEphemeralTimersToStorage
  split_ifs <;> split <;> rfl

theorem deadlines_deletePendingAuth (s : RoomRuntime) (connectionId : String) :
    (s.deletePendingAuth connectionId).deadlines =
      (withPendingAuth s (s.pendingAuth.filter (·.1 ≠ connectionId))).deadlines := by
  unfold RoomRuntime.deletePendingAuth
  split_ifs with hany
  · exact deadlines_flush _
  · have hall : s.pendingAuth.filter (·.1 ≠ connectionId) = s.pendingAuth := by
      refine filter_eq_self.2 fun p hp => decide_eq_true fun heq => hany ?_
      exact any_eq_true.2 ⟨p, hp, decide_eq_true heq⟩
    rw [hall]
    rfl

namespace TimerInv

theorem start (h : TimerInv s pending) (huntouched : Untouched s s')
    (hstored : s'.storedTimers = s.storedTimers) (hplayers : s'.players = s.players)
    (started : List Section) (hearly : ∀ sec ∈ started, sec.isEarly = true)
    (harmed : Armed s → Armed s' ∨ ∃ sec ∈ started, sec.ofAlarm = true)
    (hinTime : s.stateRecoveryNeeded = true → (∀ b ∈ s.storedTimers, InTime s b.2) →
      (∀ b ∈ s'.storedTimers, InTime s' b.2) ∨ ∃ sec ∈ started, sec.ofAlarm = true) :
    TimerInv s' (started ++ pending) := by
  have hqueue : queue (started ++ pending) = queue pending := by
    rw [queue_append]
    refine append_left_eq_self.2 (filterMap_eq_nil_iff.2 fun sec hsec => ?_)
    have hsec := hearly sec hsec
    cases sec <;> first | rfl | cases hsec
  have halarm {l : List Section} (hl : l ⊆ started ++ pending) :
      (∃ sec ∈ l, sec.ofAlarm = true) → ∃ sec ∈ started ++ pending, sec.ofAlarm = true :=
    fun ⟨sec, hsec, h⟩ => ⟨sec, hl hsec, h⟩
  refine ⟨(h.log.of_same huntouched hstored).perm (.of_eq hqueue), ?_, fun hneeded => ?_,
    fun hneeded => ?_⟩
  · rcases h.armed with h | h
    · exact (harmed h).imp_right (halarm (subset_append_left _ _))
    · exact .inr (halarm (subset_append_right _ _) h)
  · rw [huntouched.stateRecoveryNeeded] at hneeded
    rcases h.inTime hneeded with h | h
    · exact (hinTime hneeded h).imp_right (halarm (subset_append_left _ _))
    · exact .inr (halarm (subset_append_right _ _) h)
  · rw [huntouched.stateRecoveryNeeded] at hneeded
    obtain ⟨htimers, hnobody, hpending⟩ := h.forgotten hneeded
    refine ⟨huntouched.timers.trans htimers, hplayers.trans hnobody, fun sec hsec => ?_⟩
    exact (mem_append.1 hsec).elim (hearly sec) (hpending sec)

theorem exec_disconnect {connectionId : String} {code : CloseCode}
    (h : TimerInv s (.disconnect connectionId code :: pending))
    (hneeded : s.stateRecoveryNeeded = true) (hsockets : s.sockets ≠ [])
    (hsooner : Sooner s (otherDeadlines env s connectionId)) :
    TimerInv (s.exec env outcome (.disconnect connectionId code)).1
      ((s.exec env outcome (.disconnect connectionId code)).2.sections ++ pending) := by
  obtain ⟨-, hplayers, hearly⟩ := h.forgotten hneeded
  have hexec : s.exec env outcome (.disconnect connectionId code) =
      ((s.deletePendingAuth connectionId).ensureSocketHeartbeatCheckScheduled env, .run []) := by
    unfold RoomRuntime.exec RoomRuntime.webSocketClose RoomRuntime.handleDisconnect
    rw [hplayers]
    rfl
  have hrest : TimerInv s pending := by
    have drop : (∃ sec ∈ .disconnect connectionId code :: pending, sec.ofAlarm = true) →
        ∃ sec ∈ pending, sec.ofAlarm = true := by
      rintro ⟨sec, hsec, halarm⟩
      rcases mem_cons.1 hsec with rfl | hsec
      · cases halarm
      · exact ⟨sec, hsec, halarm⟩
    exact ⟨h.log.perm (.of_eq (queue_cons rfl pending).symm), h.armed.imp_right drop,
      fun hneeded => (h.inTime hneeded).imp_right drop, fun hneeded =>
        ⟨(h.forgotten hneeded).1, hplayers, fun sec hsec =>
          hearly sec (mem_cons_of_mem _ hsec)⟩⟩
  rw [hexec]
  -- The deadline of the connection is deleted, and the heartbeats are to be checked.
  have hdelete : Untouched s (s.deletePendingAuth connectionId) := .deletePendingAuth s connectionId
  have hfields : (s.deletePendingAuth connectionId).storedTimers = s.storedTimers ∧
      (s.deletePendingAuth connectionId).players = s.players ∧
      (s.deletePendingAuth connectionId).sockets = s.sockets ∧
      (s.deletePendingAuth connectionId).now = s.now ∧
      ((s.deletePendingAuth connectionId).alarmAt = s.alarmAt ∨
        Armed (s.deletePendingAuth connectionId)) := by
    unfold RoomRuntime.deletePendingAuth
    split_ifs
    · have hminor := minor_flush
        { s with pendingAuth := s.pendingAuth.filter (·.1 ≠ connectionId) }
      exact ⟨hminor.storedTimers, hminor.players, hminor.sockets, hminor.now,
        .inr (armed_scheduleNextAlarm _)⟩
    · exact ⟨rfl, rfl, rfl, rfl, .inl rfl⟩
  have hdeadlines := deadlines_deletePendingAuth s connectionId
  have harmed : Armed s → Armed (s.deletePendingAuth connectionId) :=
    fun h => armed_deletePendingAuth h connectionId
  generalize s.deletePendingAuth connectionId = s₁ at hdelete hfields hdeadlines harmed ⊢
  obtain ⟨hstored, hplayers₁, hsockets₁, hnow, halarm⟩ := hfields
  have hensure : Minor s₁ (s₁.ensureSocketHeartbeatCheckScheduled env) :=
    minor_ensureSocketHeartbeatCheckScheduled s₁
  refine hrest.start (hdelete.trans (.of_minor hensure))
    (hensure.storedTimers.trans hstored) (hensure.players.trans hplayers₁) [] (forall_mem_nil _)
    (fun h => .inl (hensure.armed (harmed h))) fun _ hinTime => .inl ?_
  refine inTime_of_sooner hinTime (hensure.storedTimers.trans hstored) (hensure.now.trans hnow)
    hsooner (fun d hd => ?_) ?_
  · have hearlier := deadlines_ensure env (d := d) (hsockets₁ ▸ hsockets) s₁.pendingAuth
    have hsame : withPendingAuth (s₁.ensureSocketHeartbeatCheckScheduled env) s₁.pendingAuth =
        s₁.ensureSocketHeartbeatCheckScheduled env := by
      rw [← hensure.pendingAuth]
      rfl
    rw [hsame] at hearlier
    refine hearlier ?_
    change d = s₁.now + _ ∨ d ∈ s₁.deadlines
    rw [hnow, hdeadlines]
    exact mem_cons.1 hd
  · unfold RoomRuntime.ensureSocketHeartbeatCheckScheduled
    dsimp only
    rw [if_neg (hsockets₁ ▸ hsockets)]
    split_ifs
    · exact .inr (armed_scheduleNextAlarm _)
    · exact halarm

theorem upgrade (env : Settings) {connectionId : String} (h : TimerInv s pending)
    (hsooner : s.stateRecoveryNeeded = true →
      Sooner s ((s.now + env.authTimeout) :: otherDeadlines env s connectionId)) :
    TimerInv (s.upgrade env connectionId) pending := by
  unfold RoomRuntime.upgrade
  split_ifs with hrefused
  · exact h
  · have hensure : Minor (s.acceptWebSocket connectionId)
        ((s.acceptWebSocket connectionId).ensureSocketHeartbeatCheckScheduled env) :=
      minor_ensureSocketHeartbeatCheckScheduled _
    have hsockets : (s.acceptWebSocket connectionId).sockets ≠ [] :=
      append_ne_nil_of_right_ne_nil _ (cons_ne_nil _ _)
    let pendingAuth := Assoc.set s.pendingAuth connectionId (s.now + env.authTimeout)
    have hnext {d : ℤ} (hd : d ∈ (s.now + env.authTimeout) :: otherDeadlines env s connectionId) :
        ∃ d' ∈ (withPendingAuth
          ((s.acceptWebSocket connectionId).ensureSocketHeartbeatCheckScheduled env)
            pendingAuth).deadlines, d' ≤ d := by
      have hset : (connectionId, s.now + env.authTimeout) ∈ pendingAuth :=
        Assoc.mem_of_lookup (Assoc.lookup_set_self _ _ _)
      refine deadlines_ensure env hsockets pendingAuth ?_
      rcases mem_cons.1 hd with rfl | hd
      · right
        simp only [RoomRuntime.deadlines, mem_append, mem_map]
        exact .inl (.inl (.inl (.inl (.inl (.inr ⟨_, hset, rfl⟩)))))
      · refine (mem_cons.1 hd).imp_right fun hd => ?_
        have hfewer : Fewer (withPendingAuth s pendingAuth)
            (withPendingAuth s (s.pendingAuth.filter (·.1 ≠ connectionId))) :=
          { Fewer.refl s with
            pendingAuth := fun p hp =>
              Assoc.mem_set_of_ne (mem_filter.1 hp).1
                (of_decide_eq_true (mem_filter.1 hp).2) }
        exact hfewer.deadlines hd
    dsimp only
    generalize (s.acceptWebSocket connectionId).ensureSocketHeartbeatCheckScheduled env = s₁
      at hensure hnext ⊢
    have hset : Assoc.set s₁.pendingAuth connectionId (s₁.now + env.authTimeout) = pendingAuth := by
      rw [hensure.pendingAuth, hensure.now]
      rfl
    rw [hset]
    have hflush := minor_flush { s₁ with pendingAuth := pendingAuth }
    have huntouched : Untouched s { s₁ with pendingAuth := pendingAuth } := by
      have haccept : Untouched s (s.acceptWebSocket connectionId) := { Untouched.refl s with }
      exact (haccept.trans (.of_minor hensure)).trans { Untouched.refl s₁ with }
    refine h.start (huntouched.trans (.of_minor hflush))
      (hflush.storedTimers.trans hensure.storedTimers) (hflush.players.trans hensure.players) []
      (forall_mem_nil _)
      (fun _ => .inl (armed_scheduleNextAlarm _)) fun hneeded hinTime => .inl ?_
    refine inTime_of_sooner hinTime (hflush.storedTimers.trans hensure.storedTimers)
      (hflush.now.trans hensure.now) (hsooner hneeded) (fun d hd => ?_)
      (.inr (armed_scheduleNextAlarm _))
    rw [deadlines_flush]
    exact hnext hd

end TimerInv

/-! ## Steps -/

theorem untouched_call (e : RoomEvent) (hset : ∀ name ms, e ≠ .setTimer name ms)
    (hclear : ∀ name, e ≠ .clearTimer name) : Untouched s (s.call env e) := by
  unfold RoomRuntime.call
  cases e with
  | enter => exact { Untouched.refl s with }
  | setSharedState =>
    refine Untouched.trans ?_ (.of_minor (minor_markDirty _))
    exact { Untouched.refl s with }
  | setPlayerState =>
    refine Untouched.trans ?_ (.of_minor (minor_markDirty _))
    exact { Untouched.refl s with }
  | rejectState =>
    have hdirty : Minor s (s.markDirty env) := minor_markDirty s
    dsimp only
    generalize s.markDirty env = s₁ at hdirty
    refine Untouched.trans ?_ (.of_minor (minor_flush _))
    exact (Untouched.of_minor hdirty).trans { Untouched.refl s₁ with }
  | setMetadata => exact { Untouched.refl s with }
  | saveState => exact .persistState s
  | setTimer name ms => exact (hset name ms rfl).elim
  | clearTimer name => exact (hclear name rfl).elim
  | _ => exact .refl s

theorem armed_call (h : Armed s) (e : RoomEvent) : Armed (s.call env e) := by
  cases e with
  | enter => exact h.of_fewer { Fewer.refl s with }
  | setMetadata => exact h.of_fewer { Fewer.refl s with }
  | setSharedState => exact armed_markDirty _
  | setPlayerState => exact armed_markDirty _
  | rejectState => exact armed_scheduleNextAlarm _
  | saveState => exact armed_scheduleNextAlarm _
  | setTimer => exact armed_scheduleNextAlarm _
  | clearTimer => exact armed_scheduleNextAlarm _
  | _ => exact h

namespace TimerInv

protected theorem call (h : TimerInv s pending) (hrecovered : s.stateRecoveryNeeded = false)
    (e : RoomEvent) (hset : ∀ name ms, e = .setTimer name ms → ∀ b ∈ queue pending, b.1 ≠ name)
    (hclear : ∀ name, e = .clearTimer name → ∀ b ∈ queue pending, b.1 ≠ name) :
    TimerInv (s.call env e) pending := by
  have harmed : Armed (s.call env e) ∨ ∃ sec ∈ pending, sec.ofAlarm = true :=
    h.armed.imp_left fun h => armed_call h e
  have hother (huntouched : Untouched s (s.call env e)) : TimerInv (s.call env e) pending :=
    of_recovered (h.log.of_untouched huntouched hrecovered)
      (huntouched.stateRecoveryNeeded.trans hrecovered) harmed
  cases e with
  | setTimer name ms =>
    have hlog := h.log.set hrecovered (hset name ms rfl) (s.now + ms)
    unfold RoomRuntime.call at harmed ⊢
    have hminor (s : RoomRuntime) : Minor s (s.markDirty env).scheduleNextAlarm :=
      (minor_markDirty s).trans (minor_scheduleNextAlarm _)
    exact of_recovered (hlog.of_untouched (.of_minor (hminor _)) hrecovered)
      ((hminor _).stateRecoveryNeeded.trans hrecovered) harmed
  | clearTimer name =>
    have hlog := h.log.clear hrecovered (hclear name rfl)
    unfold RoomRuntime.call at harmed ⊢
    exact of_recovered (hlog.of_untouched (.of_minor (minor_scheduleNextAlarm _)) hrecovered)
      ((minor_scheduleNextAlarm _).stateRecoveryNeeded.trans hrecovered) harmed
  | _ => exact hother (untouched_call _ nofun nofun)

theorem start_early (h : TimerInv s pending) (huntouched : Untouched s s')
    (hstored : s'.storedTimers = s.storedTimers) (hplayers : s'.players = s.players)
    (hdeadlines : Fewer s s') (started : List Section)
    (hearly : ∀ sec ∈ started, sec.isEarly = true) : TimerInv s' (started ++ pending) := by
  refine h.start huntouched hstored hplayers started hearly (fun h => .inl (h.of_fewer hdeadlines))
    fun _ hinTime => .inl fun b hb => ?_
  rw [hstored] at hb
  obtain ⟨a, ha, hle⟩ := hinTime b hb
  have hnow := hdeadlines.now
  exact ⟨a, hdeadlines.alarmAt ▸ ha, hle.trans (max_le_max le_rfl (by omega))⟩

end TimerInv

variable {room : Room} {a : Step}

theorem TimerInv.handle {e : RoomEvent} (h : TimerInv room.state room.pending)
    (hmindful : Mindful env room (.event e)) : TimerInv (room.state.handle env e).1
      (Handlers.started (room.state.handle env e).2 ++ room.pending) := by
  have hcall (hset : ∀ name ms, e = .setTimer name ms → ∀ b ∈ queue room.pending, b.1 ≠ name)
      (hclear : ∀ name, e = .clearTimer name → ∀ b ∈ queue room.pending, b.1 ≠ name) :
      TimerInv (if room.state.stateRecoveryNeeded then room.state else room.state.call env e)
        room.pending := by
    split_ifs with hneeded
    · exact h
    · exact h.call (Bool.not_eq_true _ ▸ hneeded) e hset hclear
  generalize hs : room.state = s at h hcall ⊢
  cases e with
  | upgrade connectionId =>
    refine h.upgrade env fun hneeded => ?_
    rw [← hs] at hneeded ⊢
    exact hmindful hneeded
  | message connectionId message =>
    refine h.start_early (.refl s) rfl rfl (.refl s) _ ?_
    simp [Handlers.started, RoomRuntime.handle, Section.isEarly]
  | close connectionId code =>
    unfold RoomRuntime.handle
    dsimp only
    cases s.socket connectionId with
    | none => exact h
    | some socket =>
      have hclosed : Untouched s
          { s with sockets := s.sockets.filter (·.connectionId ≠ connectionId) } :=
        { Untouched.refl s with }
      refine h.start_early hclosed rfl rfl { Fewer.refl s with } _ ?_
      simp [Handlers.started, Section.isEarly]
  | drop =>
    exact h.start_early (.mapSockets s _ _) rfl rfl { Fewer.refl s with } [] (forall_mem_nil _)
  | kick userId =>
    unfold RoomRuntime.handle
    dsimp only
    split_ifs with hneeded
    · exact h
    · have hrecovered : s.stateRecoveryNeeded = false := Bool.not_eq_true _ ▸ hneeded
      refine of_recovered (h.log.perm (.of_eq (queue_cons rfl _))) hrecovered ?_
      exact h.armed.imp_right fun harmed =>
        harmed.imp fun _ halarm => halarm.imp_left (mem_cons_of_mem _)
  | alarm =>
    unfold RoomRuntime.handle
    dsimp only
    split_ifs
    · have halarm : Untouched s { s with alarmAt := none } := { Untouched.refl s with }
      refine h.start halarm rfl rfl _ ?_ ?_ ?_
      · simp [Handlers.started, Section.isEarly]
      · exact fun _ => .inr ⟨.alarm, mem_singleton_self _, rfl⟩
      · exact fun _ _ => .inr ⟨.alarm, mem_singleton_self _, rfl⟩
    · exact h
  | tick ms =>
    have hnow : s.now ≤ s.now + ms := by omega
    have htick : Untouched s { s with now := s.now + ms } := { Untouched.refl s with }
    exact h.start_early htick rfl rfl { Fewer.refl s with now := hnow } [] (forall_mem_nil _)
  | setTimer name ms =>
    refine hcall (fun name' ms' heq b hb hname => hmindful ⟨b, hb, ?_⟩) fun _ heq => by cases heq
    cases heq
    exact hname
  | clearTimer name =>
    refine hcall (fun _ _ heq => by cases heq) fun name' heq b hb hname => hmindful ⟨b, hb, ?_⟩
    cases heq
    exact hname
  | _ => exact hcall (fun _ _ heq => by cases heq) fun _ heq => by cases heq

theorem TimerInv.exec (h : TimerInv room.state (sec :: pending)) (hsec : room.current = some sec)
    (hoccupied : Occupied room .proceed) (hmindful : Mindful env room .proceed) :
    TimerInv (room.state.exec env outcome sec).1
      ((room.state.exec env outcome sec).2.sections ++ pending) := by
  unfold Occupied at hoccupied
  unfold Mindful at hmindful
  rw [hsec] at hoccupied hmindful
  cases hneeded : room.state.stateRecoveryNeeded with
  | true =>
    have hearly := (h.forgotten hneeded).2.2 sec mem_cons_self
    cases sec with
    | receive => exact h.exec_receive hneeded (hmindful hneeded)
    | disconnect => exact h.exec_disconnect hneeded (hmindful hneeded).1 (hmindful hneeded).2
    | alarm => exact h.exec_alarm hoccupied hmindful
    | _ => cases hearly
  | false =>
    cases sec with
    | alarm => exact h.exec_alarm hoccupied hmindful
    | runTimer => exact h.exec_runTimer hneeded
    | roomDestroyed =>
      exact h.exec_untouched hneeded (untouched_exec hneeded hoccupied nofun nofun)
        (queue_exec nofun nofun)
    | cleanUp =>
      exact h.exec_untouched hneeded (untouched_exec hneeded hoccupied nofun nofun)
        (queue_exec nofun nofun)
    | _ =>
      exact h.exec_untouched hneeded (untouched_exec hneeded (fun _ => trivial) nofun nofun)
        (queue_exec nofun nofun)

theorem TimerInv.hibernate (h : TimerInv room.state room.pending)
    (hoccupied : Occupied room .restart) (hmindful : Mindful env room .restart) :
    TimerInv room.state.hibernate [] := by
  obtain ⟨halarm, hqueue, hsaved⟩ := hmindful
  have harmed : Armed room.state := h.armed.resolve_right halarm
  have hhas : HasTimers room.state → room.state.sockets ≠ [] := hoccupied
  generalize room.state = s at h hhas hsaved harmed ⊢
  -- What is kept is in the storage.
  have hkept (b : String × Timer) : b ∈ kept s ↔ b ∈ s.storedTimers := by
    cases hneeded : s.stateRecoveryNeeded with
    | true => rw [kept_of_forgotten hneeded]
    | false =>
      rw [kept_of_recovered hneeded]
      exact ⟨(hsaved hneeded).1 b, (hsaved hneeded).2 b⟩
  have hkept' (b : String × Timer) : b ∈ kept s.hibernate ↔ b ∈ s.storedTimers := by
    by_cases hsockets : s.sockets = []
    · have hstored : s.storedTimers = [] :=
        not_not.1 fun hne => hhas (.inr hne) hsockets
      rw [kept_of_recovered (s := s.hibernate) (decide_eq_false (not_not.2 hsockets)), hstored]
      exact Iff.rfl
    · rw [kept_of_forgotten (s := s.hibernate) (decide_eq_true hsockets)]
      exact Iff.rfl
  have hlog : LogInv s.hibernate [] := by
    refine { h.log with
      due := fun b => ?_, nodup := .nil, disjoint := forall_mem_nil _, keys := .nil }
    rw [hkept', ← hkept]
    have hdue := h.log.due b
    rw [hqueue] at hdue
    exact hdue
  refine ⟨hlog, .inl (forall_mem_nil _), fun _ => .inl fun b hb => ?_,
    fun _ => ⟨rfl, rfl, forall_mem_nil _⟩⟩
  cases hneeded : s.stateRecoveryNeeded with
  | true => exact (h.inTime hneeded).resolve_right halarm b hb
  | false =>
    refine harmed b.2.fireAt ?_
    simp only [RoomRuntime.deadlines, mem_append, mem_map]
    exact .inl (.inl (.inl (.inl (.inl (.inl ⟨b, (hsaved hneeded).2 b hb, rfl⟩)))))

protected theorem TimerInv.step (h : TimerInv room.state room.pending) (hoccupied : Occupied room a)
    (hmindful : Mindful env room a) :
    TimerInv (step env room a).state (step env room a).pending := by
  refine Handlers.step_induction (m := machine env) (fun hperm h => h.perm hperm)
    (fun e he _ => ?_) (fun sec hproceed hsec => ?_) (fun hrestart => ?_) h
  · subst he
    exact h.handle hmindful
  · subst hproceed
    rw [Handlers.System.pending_eq hsec] at h
    exact h.exec hsec hoccupied hmindful
  · subst hrestart
    exact h.hibernate hoccupied hmindful

theorem TimerInv.init : TimerInv init.state init.pending where
  log :=
    { sound := trivial
      due := fun b => by simp [TimerLog.due, kept, queue, Deadlines.init, Handlers.System.pending]
      nodup := .nil
      disjoint := forall_mem_nil _
      keys := .nil
      storedKeys := .nil
      sets := .nil
      calls := (forall_mem_nil _) }
  armed := .inl (forall_mem_nil _)
  inTime := nofun
  forgotten := nofun

theorem TimerInv.kept (h : TimerInv room.state room.pending) : TimersKept room := by
  have hsets : (TimerLog.sets room.state.history).Nodup := h.log.sets.of_map _
  refine ⟨?_, fun _ _ => h.log.sound.not_cleared hsets,
    fun _ _ _ => h.log.sound.not_replaced hsets, fun b hb => ?_⟩
  · refine (h.log.sound.once hsets).map_on fun b hb b' hb' heq => ?_
    exact inj_on_of_nodup_map h.log.sets (h.log.sound.fires_subset hb)
      (h.log.sound.fires_subset hb') heq
  · rcases (h.log.due b).1 hb with hkept | hqueue
    · refine .inr ⟨hkept, ?_⟩
      cases hneeded : room.state.stateRecoveryNeeded with
      | true =>
        rw [kept_of_forgotten hneeded] at hkept
        exact (h.inTime hneeded).imp_left fun hin => hin b hkept
      | false =>
        rw [kept_of_recovered hneeded] at hkept
        refine h.armed.imp_left fun harmed => harmed b.2.fireAt ?_
        simp only [RoomRuntime.deadlines, mem_append, mem_map]
        exact .inl (.inl (.inl (.inl (.inl (.inl ⟨b, hkept, rfl⟩)))))
    · exact .inl hqueue

/-- While no step loses or revives a timer, each call of `setTimer` leads to one run of its handler
at most, none once the timer has been cleared or replaced, and the timers that are due are
pending. -/
theorem timersKept_run (env : Settings) {as : List Step}
    (h : Runs.Along (step env) (fun s a => Occupied s a ∧ Mindful env s a) init as) :
    Runs.Along (step env) (fun s a => TimersKept (step env s a)) init as := by
  have hstep (s : Room) (a : Step) (hs : TimerInv s.state s.pending)
      (ha : Occupied s a ∧ Mindful env s a) :
      TimerInv (step env s a).state (step env s a).pending := hs.step ha.1 ha.2
  refine (Runs.Along.of_invariant (I := fun s => TimerInv s.state s.pending) h .init hstep ?_).1
  exact fun s a hs ha => (hstep s a hs ha).kept

def saving : List Step :=
  arriving "c1" "ann" ++ script [.event (.setTimer "round" 9000), .event (.setTimer "lap" 3000),
    .event .saveState, .restart, .event (.message "c1" .other), .resume 0 .ok,
    .event (.clearTimer "lap"), .event (.setTimer "lap" 2000), .event (.tick 5000), .event .alarm,
    .resume 0 .ok, .resume 0 .ok, .event .saveState, .restart]

theorem saving_timersKept :
    Runs.Along (step {}) (fun s a => TimersKept (step {} s a)) init saving :=
  timersKept_run {} (by decide +kernel)

/-- The room hibernates after a timer has fired, and before the next save. -/
def refiring : List Step :=
  arriving "c1" "ann" ++ script [.event (.setTimer "round" 9000), .event .saveState,
    .event (.tick 9000), .event .alarm, .resume 0 .ok, .resume 0 .ok, .restart,
    .event (.message "c1" .other), .event (.tick 1), .event .alarm, .resume 1 .ok]

/-- The room was never empty, and one call of `setTimer` leads to two runs of the handler. -/
theorem refiring_not_timersKept :
    Runs.Along (step {}) Occupied init refiring ∧
      (Runs.last (step {}) init refiring).state.history =
        [.set "round" ⟨9000, 0⟩, .fire "round" ⟨9000, 0⟩, .fire "round" ⟨9000, 0⟩] ∧
      ¬ TimersKept (Runs.last (step {}) init refiring) := by
  have hhistory : (Runs.last (step {}) init refiring).state.history =
      [.set "round" ⟨9000, 0⟩, .fire "round" ⟨9000, 0⟩, .fire "round" ⟨9000, 0⟩] := by
    decide +kernel
  refine ⟨by decide +kernel, hhistory, fun hkept => ?_⟩
  have honce := hkept.once
  rw [hhistory] at honce
  exact absurd honce (by decide)

end Deadlines

end Rooms

end EdgeBase
