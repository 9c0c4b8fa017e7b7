import EdgeBase.Rooms.Orderly

/-!
# The capacity of a room

An upgrade is refused while the room is full, but a player is counted once its socket has
authenticated: the sockets that were upgraded before then may be more than the room has places for.

* `players_exec` : no other section adds a player.
* `fits_run` : the players are never too many, exactly if no step overfills the room.
-/

namespace EdgeBase

namespace Rooms

def Fits (env : Settings) (s : RoomsDO) : Prop := s.players.length ≤ env.maxPlayers

/-- The sockets that have authenticated are more than the places. -/
def Crowded (env : Settings) (s : RoomsDO) : Prop :=
  env.maxPlayers < s.sockets.countP (·.userId.isSome)

/-- A socket authenticates while the room is full, or the players are read from too many sockets. -/
def Overfills (env : Settings) (s : RoomsDO) (e : RoomEvent) : Prop :=
  match e, s.running.sections with
  | .proceed, .authenticate connectionId _ none :: _ =>
    (s.players.lookup connectionId).isNone ∧ env.maxPlayers ≤ s.players.length
  | .proceed, .recoverStateIfNeeded :: _ => s.stateRecoveryNeeded = true ∧ Crowded env s
  | .proceed, .recoverBeforeAlarm :: _ => s.shouldRecoverBeforeAlarm = true ∧ Crowded env s
  | _, _ => False

variable {env : Settings} {s : RoomsDO} {e : RoomEvent} {sec : Section} {ok : Bool}

/-! ## The players after a section -/

theorem deleteTimer_players (s : RoomsDO) (userId : String) :
    (s.deleteTimer userId).players = s.players := by
  unfold RoomsDO.deleteTimer
  split_ifs <;> rfl

theorem removePlayers_sublist (s : RoomsDO) (connectionIds : List String) (userId : String) :
    ((s.removePlayers connectionIds).deleteTimer userId).players.Sublist s.players := by
  rw [deleteTimer_players]
  exact List.filter_sublist

theorem recover_players (env : Settings) (s : RoomsDO) :
    (s.recover env).players.length = s.sockets.countP (·.userId.isSome) := by
  have hplayers : (s.recover env).players = s.sockets.filterMap fun socket =>
      socket.userId.map fun userId => (socket.connectionId, userId) := by
    unfold RoomsDO.recover
    dsimp only
    split
    · split_ifs <;> rfl
    · rfl
  rw [hplayers]
  induction s.sockets with
  | nil => rfl
  | cons socket sockets ih =>
    cases huser : socket.userId with
    | none => simp [huser, ih]
    | some userId => simp [huser, ih]

theorem authenticate_players (s : RoomsDO) (connectionId userId : String) :
    (s.authenticate connectionId userId none).players =
      Assoc.set s.players connectionId userId := by
  unfold RoomsDO.authenticate
  dsimp only
  split_ifs
  · rw [deleteTimer_players]
  · rw [deleteTimer_players]
    rfl

theorem handleExplicitLeave_players (s : RoomsDO) (connectionId userId : String) :
    (s.handleExplicitLeave connectionId userId).1.players.Sublist s.players := by
  unfold RoomsDO.handleExplicitLeave
  dsimp only
  split
  · split_ifs
    · rw [(quiet_memberDisconnected _ _ _).players]
      exact .refl _
    · exact .refl _
  · exact removePlayers_sublist _ _ _

theorem handleDisconnect_players (env : Settings) (s : RoomsDO) (connectionId userId : String)
    (code : CloseCode) :
    (s.handleDisconnect env connectionId userId code).1.players.Sublist s.players := by
  unfold RoomsDO.handleDisconnect
  dsimp only
  split
  · split_ifs
    · rw [(quiet_memberDisconnected _ _ _).players]
    · exact .refl _
  · split
    · exact List.filter_sublist
    · cases code with
      | kicked => exact removePlayers_sublist _ _ _
      | clientLeave => exact removePlayers_sublist _ _ _
      | other =>
        dsimp only
        split_ifs
        · exact List.filter_sublist
        · exact List.filter_sublist

theorem receive_players (s : RoomsDO) (connectionId : String) (message : Message) :
    (s.receive connectionId message).1.players.Sublist s.players := by
  have hreceived := received_receive s connectionId message
  generalize s.receive connectionId message = r at hreceived
  cases hreceived with
  | quiet h => exact h.players ▸ .refl _
  | authenticate _ h => exact h.players ▸ .refl _
  | join _ _ _ _ h => exact h.players ▸ .refl _
  | leave _ _ h => exact h.players ▸ handleExplicitLeave_players _ _ _
  | send _ _ h => exact h.players ▸ .refl _

theorem letIn_players (s : RoomsDO) (connectionId userId : String)
    (hadMember wasReconnecting : Bool) :
    (s.letIn connectionId userId hadMember wasReconnecting).1.players = s.players := by
  let s₁ : RoomsDO :=
    { s with
      playerStates := if s.playerStates.contains userId then s.playerStates
        else s.playerStates ++ [userId] }
  have henter : (s.enter connectionId userId).players = s.players :=
    (quiet_flushSharedDelta (s₁.report (.accepted userId))).players
  unfold RoomsDO.letIn
  dsimp only
  split_ifs <;> exact henter

theorem cleanUp_players (s : RoomsDO) (now : ℤ) (expired : Bool) :
    (s.cleanUp now expired).players = s.players := by
  have hroom (s : RoomsDO) : s.cleanUpRoom.players = s.players := by
    unfold RoomsDO.cleanUpRoom
    dsimp only
    split_ifs <;> rfl
  have hsync : (if expired then s.syncEphemeralTimersToStorage else s).players = s.players := by
    split_ifs <;> rfl
  unfold RoomsDO.cleanUp
  dsimp only
  generalize (if expired then s.syncEphemeralTimersToStorage else s) = s₁ at hsync
  rw [← hsync]
  split
  · change (ite _ _ _ : RoomsDO).players = _
    split_ifs
    · exact hroom _
    · rfl
  · rfl

def Section.adds : Section → Bool
  | .authenticate _ _ none | .recoverStateIfNeeded | .recoverBeforeAlarm => true
  | _ => false

theorem players_exec (env : Settings) (s : RoomsDO) (ok : Bool) (h : sec.adds = false) :
    (s.exec env ok sec).1.players.Sublist s.players := by
  cases sec with
  | receive connectionId message => exact receive_players s connectionId message
  | authenticate connectionId userId before =>
    cases before with
    | none => cases h
    | some user =>
      unfold RoomsDO.exec RoomsDO.authenticate
      dsimp only
      split_ifs <;> exact .refl _
  | create =>
    unfold RoomsDO.exec
    dsimp only
    split_ifs <;> exact .refl _
  | letIn connectionId userId hadMember wasReconnecting =>
    unfold RoomsDO.exec
    dsimp only
    split_ifs
    · exact letIn_players s connectionId userId hadMember wasReconnecting ▸ .refl _
    · exact .refl _
  | welcome => exact .refl _
  | refreshAttachments => exact .refl _
  | runAction =>
    unfold RoomsDO.exec
    dsimp only
    split_ifs <;> exact .refl _
  | flush => exact (quiet_flushSharedDelta s).players ▸ .refl _
  | closeLeaver connectionId userId wasJoined =>
    have hclose := (quiet_scheduleIfEmpty env s).trans (quiet_closeSockets _ [connectionId])
    unfold RoomsDO.exec
    dsimp only
    split_ifs
    · exact (hclose.trans (quiet_memberDisconnected _ _ _)).players ▸ .refl _
    · exact hclose.players ▸ .refl _
  | disconnect connectionId userId code =>
    exact handleDisconnect_players env s connectionId userId code
  | disconnected connectionId userId wasJoined =>
    unfold RoomsDO.exec
    dsimp only
    split_ifs
    · exact ((quiet_scheduleIfEmpty env s).trans (quiet_memberDisconnected _ _ _)).players ▸ .refl _
    · exact (quiet_scheduleIfEmpty env s).players ▸ .refl _
  | kickPlayer userId => exact removePlayers_sublist s _ userId
  | forgetPlayer =>
    unfold RoomsDO.exec RoomsDO.forgetPlayer
    dsimp only
    split_ifs <;> exact .refl _
  | cleanUp now expired => exact cleanUp_players s now expired ▸ .refl _
  | recoverStateIfNeeded => cases h
  | recoverBeforeAlarm => cases h
  | _ => exact .refl _

theorem handle_players (env : Settings) (s : RoomsDO) (e : RoomEvent) :
    (s.handle env e).players.Sublist s.players := by
  cases e with
  | connect =>
    unfold RoomsDO.handle
    dsimp only
    split_ifs <;> exact .refl _
  | message =>
    unfold RoomsDO.handle
    dsimp only
    split_ifs <;> exact .refl _
  | close =>
    unfold RoomsDO.handle
    dsimp only
    split <;> exact .refl _
  | alarm =>
    unfold RoomsDO.handle
    dsimp only
    split_ifs <;> exact .refl _
  | resume =>
    unfold RoomsDO.handle
    dsimp only
    split <;> exact .refl _
  | flush => exact (quiet_flushSharedDelta s).players ▸ .refl _
  | expireState =>
    unfold RoomsDO.handle
    dsimp only
    split_ifs <;> exact .refl _
  | hibernate => exact List.nil_sublist _
  | _ => exact .refl _

/-! ## Runs -/

theorem step_players_proceed {rest : List Section} (hrunning : s.running.sections = sec :: rest) :
    (s.step env .proceed).players = (s.exec env s.verdict sec).1.players := by
  obtain ⟨tasks, running, verdict, hproceed, -, -⟩ := proceed_spec env hrunning
  have hstep : s.step env .proceed = s.proceed env := by
    unfold RoomsDO.step
    rw [hrunning]
    rfl
  rw [hstep, hproceed]

theorem adds_of_overfills {rest : List Section} (hrunning : s.running.sections = sec :: rest)
    (h : Overfills env s e) : e = .proceed ∧ sec.adds = true := by
  unfold Overfills at h
  rw [hrunning] at h
  split at h
  · rename_i heq
    obtain ⟨rfl, -⟩ := List.cons.inj heq
    exact ⟨rfl, rfl⟩
  · rename_i heq
    obtain ⟨rfl, -⟩ := List.cons.inj heq
    exact ⟨rfl, rfl⟩
  · rename_i heq
    obtain ⟨rfl, -⟩ := List.cons.inj heq
    exact ⟨rfl, rfl⟩
  · exact h.elim

theorem not_overfills_of_idle (hrunning : s.running.sections = []) : ¬ Overfills env s e := by
  unfold Overfills
  rw [hrunning]
  cases e <;> exact id

theorem fits_recover : Fits env (s.recover env) ↔ ¬ Crowded env s := by
  unfold Fits Crowded
  rw [recover_players, not_lt]

theorem fits_step (hs : Fits env s) : ¬ Overfills env s e ↔ Fits env (s.step env e) := by
  have of_sublist {s' : RoomsDO} (h : s'.players.Sublist s.players) : Fits env s' :=
    h.length_le.trans hs
  cases hrunning : s.running.sections with
  | nil =>
    rw [step_eq_handle env e hrunning]
    exact ⟨fun _ => of_sublist (handle_players env s e), fun _ => not_overfills_of_idle hrunning⟩
  | cons sec rest =>
    by_cases hadds : e = .proceed ∧ sec.adds = true
    · obtain ⟨rfl, hadds⟩ := hadds
      unfold Fits Overfills
      rw [step_players_proceed hrunning, hrunning]
      cases sec with
      | authenticate connectionId userId before =>
        cases before with
        | none =>
          change ¬ (_ ∧ _) ↔ (s.authenticate connectionId userId none).players.length ≤ _
          rw [authenticate_players, Assoc.length_set]
          unfold Fits at hs
          split_ifs with hnew <;> simp [hnew] <;> omega
        | some => cases hadds
      | recoverStateIfNeeded =>
        unfold RoomsDO.exec
        dsimp only
        split_ifs with hneeded
        · change _ ↔ Fits env (s.recover env)
          simp [hneeded, fits_recover]
        · simp only [hneeded, Bool.false_eq_true, false_and, not_false_eq_true, true_iff]
          exact hs
      | recoverBeforeAlarm =>
        unfold RoomsDO.exec
        dsimp only
        split_ifs with hneeded
        · change _ ↔ Fits env (s.recover env)
          simp [hneeded, fits_recover]
        · simp only [hneeded, Bool.false_eq_true, false_and, not_false_eq_true, true_iff]
          exact hs
      | _ => cases hadds
    · refine ⟨fun _ => ?_, fun _ h => hadds (adds_of_overfills hrunning h)⟩
      rcases step_eq_proceed env e hrunning with hstep | ⟨rfl, hstep⟩
      · rw [hstep]
        exact hs
      · unfold Fits
        rw [step_players_proceed hrunning]
        exact of_sublist (players_exec env s s.verdict (by simpa using hadds))

/-- The players are never more than the room has places for, exactly if no socket authenticates in
a full room and the room never wakes up with more authenticated sockets than places. -/
theorem fits_run (env : Settings) (es : List RoomEvent) :
    Runs.Along (RoomsDO.step env) (fun s e => ¬ Overfills env s e) {} es ↔
      Runs.Along (RoomsDO.step env) (fun s e => Fits env (s.step env e)) {} es := by
  refine Runs.Along.iff_of_invariant (I := Fits env) (Nat.zero_le _) (fun s e hs => fits_step hs)
    fun s e hs he => (fits_step hs).1 he

/-- Two sockets are upgraded in a room for one, and authenticate. -/
def overbooking : List RoomEvent :=
  script [.connect "c1", .connect "c2", .message "c1" (.auth "ann"), .message "c2" (.auth "bob"),
    .resume 0 true, .resume 0 true]

theorem overbooking_not_fits :
    (Runs.last (RoomsDO.step { maxPlayers := 1 }) {} overbooking).players =
        [("c1", "ann"), ("c2", "bob")] ∧
      ¬ Fits { maxPlayers := 1 } (Runs.last (RoomsDO.step { maxPlayers := 1 }) {} overbooking) := by
  unfold Fits
  decide +kernel

end Rooms

end EdgeBase
