import EdgeBase.Rooms.Handlers

/-!
# What the sections of the handlers leave alone

Most of what a handler does is quiet: it sends frames, writes attachments, closes sockets and keeps
the connections of the members, but leaves the players, the deadlines and the entries of the users
as they are.

* `quiet_memberDisconnected`, `quiet_scheduleIfEmpty`, .. : the quiet helpers.
* `step_eq_proceed`, `step_eq_handle` : a step is a section of the handler that runs, or an event.
-/

namespace EdgeBase

open List

namespace Rooms

def Report.isFrame : Report → Bool
  | .frame _ _ => true
  | _ => false

def Report.isEnd : Report → Bool
  | .onDestroy | .cleanedUp => true
  | _ => false

/-- The creation or the end of a room, or of its memory. -/
def Report.isLifecycle : Report → Bool
  | .onCreate | .onDestroy | .cleanedUp | .hibernated => true
  | _ => false

def users (sockets : List Socket) : List (String × Option String) :=
  sockets.map fun socket => (socket.connectionId, socket.userId)

/-- A change that leaves the players, the deadlines and the entries of the users as they are. -/
structure Quiet (s s' : RoomsDO) : Prop where
  users : users s'.sockets = users s.sockets
  players : s'.players = s.players
  playerStates : s'.playerStates = s.playerStates
  members : s'.members.map Prod.fst = s.members.map Prod.fst
  disconnectTimers : s'.disconnectTimers = s.disconnectTimers
  roomCreated : s'.roomCreated = s.roomCreated
  stateRecoveryNeeded : s'.stateRecoveryNeeded = s.stateRecoveryNeeded
  saved : s'.saved = s.saved
  storedTimers : s'.storedTimers = s.storedTimers ∨ s'.storedTimers = s.disconnectTimers
  tasks : s'.tasks = s.tasks
  running : s'.running = s.running
  drawn : s'.drawn = s.drawn
  now : s'.now = s.now
  history : ∃ rs, (∀ r ∈ rs, r.isFrame) ∧ s'.history = s.history ++ rs

namespace Quiet

variable {env : Settings} {s s' s'' : RoomsDO}

theorem refl (s : RoomsDO) : Quiet s s where
  users := rfl
  players := rfl
  playerStates := rfl
  members := rfl
  disconnectTimers := rfl
  roomCreated := rfl
  stateRecoveryNeeded := rfl
  saved := rfl
  storedTimers := .inl rfl
  tasks := rfl
  running := rfl
  drawn := rfl
  now := rfl
  history := ⟨[], nofun, (append_nil _).symm⟩

theorem trans (h : Quiet s s') (h' : Quiet s' s'') : Quiet s s'' where
  users := h'.users.trans h.users
  players := h'.players.trans h.players
  playerStates := h'.playerStates.trans h.playerStates
  members := h'.members.trans h.members
  disconnectTimers := h'.disconnectTimers.trans h.disconnectTimers
  roomCreated := h'.roomCreated.trans h.roomCreated
  stateRecoveryNeeded := h'.stateRecoveryNeeded.trans h.stateRecoveryNeeded
  saved := h'.saved.trans h.saved
  storedTimers := by
    rcases h'.storedTimers with heq | heq
    · rw [heq]
      exact h.storedTimers
    · exact .inr (heq.trans h.disconnectTimers)
  tasks := h'.tasks.trans h.tasks
  running := h'.running.trans h.running
  drawn := h'.drawn.trans h.drawn
  now := h'.now.trans h.now
  history := by
    obtain ⟨rs, hrs, heq⟩ := h.history
    obtain ⟨rs', hrs', heq'⟩ := h'.history
    refine ⟨rs ++ rs', fun r hr => ?_, by rw [heq', heq, append_assoc]⟩
    rcases mem_append.1 hr with hr | hr
    · exact hrs r hr
    · exact hrs' r hr

theorem of_sockets {f : Socket → Socket} (hf : ∀ socket,
      (f socket).connectionId = socket.connectionId ∧ (f socket).userId = socket.userId) :
    Quiet s { s with sockets := s.sockets.map f } :=
  { refl s with
    users := by
      unfold Rooms.users
      rw [map_map]
      refine map_congr_left fun socket _ => ?_
      simp only [Function.comp_apply, hf socket] }

theorem of_history {rs : List Report} (hrs : ∀ r ∈ rs, r.isFrame) :
    Quiet s { s with history := s.history ++ rs } :=
  { refl s with history := ⟨rs, hrs, rfl⟩ }

end Quiet

variable (env : Settings) (s : RoomsDO)

theorem quiet_sendFrame (type : FrameType) (p : Socket → String → Bool) :
    Quiet s (s.sendFrame type p) := by
  refine Quiet.of_history fun r hr => ?_
  obtain ⟨socket, -, hsocket⟩ := mem_filterMap.1 hr
  split at hsocket
  · split_ifs at hsocket
    obtain rfl := Option.some.inj hsocket
    rfl
  · cases hsocket

theorem quiet_closeSockets (connectionIds : List String) :
    Quiet s (s.closeSockets connectionIds) := by
  refine Quiet.of_sockets fun socket => ?_
  split_ifs <;> exact ⟨rfl, rfl⟩

theorem quiet_writeAttachments (p : Socket → Bool) : Quiet s (s.writeAttachments p) := by
  refine Quiet.of_sockets fun socket => ?_
  split_ifs <;> exact ⟨rfl, rfl⟩

theorem quiet_scheduleIfEmpty : Quiet s (s.scheduleIfEmpty env) := by
  unfold RoomsDO.scheduleIfEmpty
  split_ifs
  · exact { Quiet.refl s with storedTimers := .inr rfl }
  · exact Quiet.refl s

theorem quiet_flushSharedDelta : Quiet s s.flushSharedDelta := by
  unfold RoomsDO.flushSharedDelta
  split_ifs
  · exact { quiet_sendFrame s .sharedDelta fun _ _ => true with }
  · exact Quiet.refl s

theorem quiet_broadcastMembersSync : Quiet s s.broadcastMembersSync := quiet_sendFrame s _ _

theorem quiet_memberDisconnected (userId connectionId : String) :
    Quiet s (s.memberDisconnected userId connectionId) := by
  have hremove : Quiet s (s.removeMemberConnection userId connectionId) :=
    { Quiet.refl s with
      members := by
        unfold RoomsDO.removeMemberConnection
        rw [map_map]
        refine map_congr_left fun m _ => ?_
        simp only [Function.comp_apply]
        split_ifs <;> rfl }
  unfold RoomsDO.memberDisconnected
  dsimp only
  split_ifs
  · exact (hremove.trans (quiet_writeAttachments _ _)).trans (quiet_broadcastMembersSync _)
  · exact hremove

/-! ## Messages -/

/-- What a message does, up to its first await. -/
inductive Received (s : RoomsDO) (connectionId : String) (message : Message) :
    RoomsDO × Next → Prop
  | quiet {s' : RoomsDO} (h : Quiet s s') : Received s connectionId message (s', .run [])
  | authenticate {s' : RoomsDO} {socket : Socket} {userId : String}
      (hsocket : s.socket connectionId = some socket) (h : Quiet s s') :
    Received s connectionId message (s', .await [.authenticate connectionId userId socket.userId])
  | join {s' : RoomsDO} {socket : Socket} {userId : String} {hadMember wasReconnecting : Bool}
      (hmessage : message = .join) (hsocket : s.socket connectionId = some socket)
      (huser : socket.userId = some userId) (hblocked : userId ∉ s.blockedMembers)
      (h : Quiet s s') : Received s connectionId message
        (s', .await [.create connectionId userId hadMember wasReconnecting])
  | leave {s' : RoomsDO} {socket : Socket} {userId : String}
      (hsocket : s.socket connectionId = some socket) (huser : socket.userId = some userId)
      (h : Quiet s s') :
    Received s connectionId message (s'.handleExplicitLeave connectionId userId)
  | send {s' : RoomsDO} {socket : Socket} {userId : String}
      (hsocket : s.socket connectionId = some socket) (huser : socket.userId = some userId)
      (h : Quiet s s') : Received s connectionId message (s', .await [.runAction userId])

theorem received_receive (connectionId : String) (message : Message) :
    Received s connectionId message (s.receive connectionId message) := by
  unfold RoomsDO.receive
  cases hsocket : s.socket connectionId with
  | none => exact .quiet (.refl s)
  | some socket =>
    have hwrite := quiet_writeAttachments s fun socket =>
      decide (socket.connectionId = connectionId)
    dsimp only
    cases huser : socket.userId with
    | none =>
      cases message with
      | auth userId =>
        rw [← huser]
        exact .authenticate hsocket hwrite
      | _ => exact .quiet hwrite
    | some userId =>
      cases message with
      | auth userId =>
        rw [← huser]
        exact .authenticate hsocket hwrite
      | join =>
        dsimp only
        split_ifs with hblocked
        · exact .quiet (hwrite.trans (quiet_closeSockets _ _))
        · exact .join rfl hsocket huser (by simpa using hblocked) hwrite
      | leave => exact .leave hsocket huser hwrite
      | send => exact .send hsocket huser hwrite
      | memberState =>
        dsimp only
        split_ifs
        · exact .quiet ((hwrite.trans (quiet_writeAttachments _ _)).trans
            (quiet_broadcastMembersSync _))
        · exact .quiet hwrite

/-! ## What most sections leave alone -/

variable {env s} {s' : RoomsDO}

/-- A change that leaves the users of the sockets and the handlers that wait. -/
structure Frame (s s' : RoomsDO) : Prop where
  users : users s'.sockets = users s.sockets
  tasks : s'.tasks = s.tasks
  drawn : s'.drawn = s.drawn

/-- .. and neither creates nor ends the room. -/
structure Steady (s s' : RoomsDO) : Prop extends Frame s s' where
  roomCreated : s'.roomCreated = s.roomCreated
  history : ∃ rs, (∀ r ∈ rs, r.isLifecycle = false) ∧ s'.history = s.history ++ rs

namespace Steady

theorem of_quiet (h : Quiet s s') : Steady s s' where
  users := h.users
  tasks := h.tasks
  drawn := h.drawn
  roomCreated := h.roomCreated
  history := by
    obtain ⟨rs, hrs, heq⟩ := h.history
    refine ⟨rs, fun r hr => ?_, heq⟩
    have := hrs r hr
    cases r <;> first | rfl | cases this

theorem refl (s : RoomsDO) : Steady s s := of_quiet (.refl s)

theorem trans {s'' : RoomsDO} (h : Steady s s') (h' : Steady s' s'') : Steady s s'' where
  users := h'.users.trans h.users
  tasks := h'.tasks.trans h.tasks
  drawn := h'.drawn.trans h.drawn
  roomCreated := h'.roomCreated.trans h.roomCreated
  history := by
    obtain ⟨rs, hrs, heq⟩ := h.history
    obtain ⟨rs', hrs', heq'⟩ := h'.history
    refine ⟨rs ++ rs', fun r hr => ?_, by rw [heq', heq, append_assoc]⟩
    rcases mem_append.1 hr with hr | hr
    · exact hrs r hr
    · exact hrs' r hr

theorem report (s : RoomsDO) {r : Report} (hr : r.isLifecycle = false) : Steady s (s.report r) :=
  { refl s with history := ⟨[r], by simpa using hr, rfl⟩ }

theorem deleteTimer (s : RoomsDO) (userId : String) : Steady s (s.deleteTimer userId) := by
  unfold RoomsDO.deleteTimer
  split_ifs
  · exact { refl s with }
  · exact refl s

theorem recover (s : RoomsDO) : Steady s (s.recover env) := by
  unfold RoomsDO.recover
  split
  · split_ifs <;> exact { refl s with }
  · exact { refl s with }

theorem handleExplicitLeave (s : RoomsDO) (connectionId userId : String) :
    Steady s (s.handleExplicitLeave connectionId userId).1 := by
  unfold RoomsDO.handleExplicitLeave
  dsimp only
  split
  · have hclose := of_quiet (quiet_closeSockets s [connectionId])
    split_ifs
    · exact hclose.trans (of_quiet (quiet_memberDisconnected _ _ _))
    · exact hclose
  · exact ({ refl s with } : Steady s (s.removePlayers [connectionId])).trans (deleteTimer _ _)

theorem receive (s : RoomsDO) (connectionId : String) (message : Message) :
    Steady s (s.receive connectionId message).1 := by
  have hreceived := received_receive s connectionId message
  generalize s.receive connectionId message = r at hreceived
  cases hreceived with
  | quiet h => exact of_quiet h
  | authenticate _ h => exact of_quiet h
  | join _ _ _ _ h => exact of_quiet h
  | leave _ _ h => exact (of_quiet h).trans (handleExplicitLeave _ _ _)
  | send _ _ h => exact of_quiet h

theorem reauthenticate (s : RoomsDO) (connectionId userId user : String) :
    Steady s (s.authenticate connectionId userId (some user)) := by
  unfold RoomsDO.authenticate
  dsimp only
  split_ifs
  · exact of_quiet (quiet_writeAttachments _ _)
  · exact refl s

theorem authenticate (s : RoomsDO) (connectionId userId : String) :
    Steady { s with sockets := (s.authenticate connectionId userId none).sockets }
      (s.authenticate connectionId userId none) := by
  have hpresent : Steady s
      (if s.registered userId || s.waiting userId then s else s.report (.present userId)) := by
    split_ifs
    · exact refl s
    · exact report s rfl
  have htimer := hpresent.trans (deleteTimer _ userId)
  exact { htimer with users := rfl }

theorem enter (s : RoomsDO) (connectionId userId : String) :
    Steady s (s.enter connectionId userId) := by
  let s₁ : RoomsDO :=
    { s with
      playerStates := if s.playerStates.contains userId then s.playerStates
        else s.playerStates ++ [userId] }
  have hreport : Steady s (s₁.report (.accepted userId)) :=
    ({ refl s with } : Steady s s₁).trans (report s₁ rfl)
  exact (hreport.trans (of_quiet (quiet_flushSharedDelta _))).trans
    (of_quiet (quiet_sendFrame _ _ _))

theorem letIn (s : RoomsDO) (connectionId userId : String) (hadMember wasReconnecting : Bool) :
    Steady s (s.letIn connectionId userId hadMember wasReconnecting).1 := by
  unfold RoomsDO.letIn
  dsimp only
  split_ifs
  · exact (enter s connectionId userId).trans { refl (s.enter connectionId userId) with }
  · exact (enter s connectionId userId).trans { refl (s.enter connectionId userId) with }
  · exact enter s connectionId userId

theorem handleDisconnect (s : RoomsDO) (connectionId userId : String) (code : CloseCode) :
    Steady s (s.handleDisconnect env connectionId userId code).1 := by
  unfold RoomsDO.handleDisconnect
  have hremove : Steady s (s.removePlayers [connectionId]) := { refl s with }
  dsimp only
  split
  · split_ifs
    · exact of_quiet (quiet_memberDisconnected _ _ _)
    · exact refl s
  · split
    · exact hremove
    · cases code with
      | kicked => exact hremove.trans (deleteTimer _ _)
      | clientLeave => exact hremove.trans (deleteTimer _ _)
      | other =>
        dsimp only
        split_ifs
        · exact { refl s with }
        · exact hremove

end Steady

inductive Effect (s : RoomsDO) (ok : Bool) : Section → RoomsDO → Prop
  | steady {sec : Section} {s' : RoomsDO} (h : Steady s s') : Effect s ok sec s'
  | authenticated (connectionId userId : String) :
    Effect s ok (.authenticate connectionId userId none) (s.authenticate connectionId userId none)
  | created (connectionId userId : String) (hadMember wasReconnecting : Bool) (hok : ok = true)
      (h : s.roomCreated = false) :
    Effect s ok (.create connectionId userId hadMember wasReconnecting)
      { s.report .onCreate with roomCreated := true }
  | ended {sec : Section} {s' : RoomsDO} (r : Report) (hr : r.isEnd) (hframe : Frame s s')
      (hhistory : s'.history = s.history ++ [r]) : Effect s ok sec s'

theorem Effect.quiet {ok : Bool} {sec : Section} (h : Quiet s s') : Effect s ok sec s' :=
  .steady (.of_quiet h)

theorem cleanUpRoom_spec (s : RoomsDO) :
    Frame s s.cleanUpRoom ∧ s.cleanUpRoom.history = s.history ++ [.cleanedUp] := by
  unfold RoomsDO.cleanUpRoom
  dsimp only
  split_ifs
  · exact ⟨{ (Steady.refl s).toFrame with }, rfl⟩
  · exact ⟨{ (Steady.refl s).toFrame with }, rfl⟩

theorem effect_cleanUp (s : RoomsDO) (ok : Bool) (now : ℤ) (expired : Bool) :
    Effect s ok (.cleanUp now expired) (s.cleanUp now expired) := by
  unfold RoomsDO.cleanUp
  dsimp only
  have hsync : Steady s (if expired then s.syncEphemeralTimersToStorage else s) ∧
      (if expired then s.syncEphemeralTimersToStorage else s).history = s.history := by
    split_ifs
    · exact ⟨{ Steady.refl s with }, rfl⟩
    · exact ⟨.refl s, rfl⟩
  generalize (if expired then s.syncEphemeralTimersToStorage else s) = s₁ at hsync
  obtain ⟨hsteady, hhistory⟩ := hsync
  split
  · by_cases hempty : s₁.players = []
    · rw [if_pos hempty]
      obtain ⟨hframe, hcleaned⟩ := cleanUpRoom_spec { s₁ with emptyRoomCleanupAt := none }
      refine .ended .cleanedUp rfl ?_ (hcleaned.trans (by rw [hhistory]))
      exact
        { users := hframe.users.trans hsteady.users
          tasks := hframe.tasks.trans hsteady.tasks
          drawn := hframe.drawn.trans hsteady.drawn }
    · rw [if_neg hempty]
      exact .steady (hsteady.trans { Steady.refl s₁ with })
  · exact .steady hsteady

theorem effect_exec (env : Settings) (s : RoomsDO) (ok : Bool) (sec : Section) :
    Effect s ok sec (s.exec env ok sec).1 := by
  cases sec with
  | recoverStateIfNeeded =>
    unfold RoomsDO.exec
    dsimp only
    split_ifs
    · exact .steady (.recover s)
    · exact .steady (.refl s)
  | receive connectionId message => exact .steady (.receive s connectionId message)
  | authenticate connectionId userId before =>
    cases before with
    | none => exact .authenticated connectionId userId
    | some user => exact .steady (.reauthenticate s connectionId userId user)
  | create connectionId userId hadMember wasReconnecting =>
    unfold RoomsDO.exec
    dsimp only
    split_ifs with hok hcreated
    · exact .steady (.refl s)
    · exact .created _ _ _ _ hok (by simpa using hcreated)
    · exact .quiet (quiet_closeSockets s _)
  | greet => exact .steady (.refl s)
  | letIn connectionId userId hadMember wasReconnecting =>
    unfold RoomsDO.exec
    dsimp only
    split_ifs
    · exact .steady (.letIn s connectionId userId hadMember wasReconnecting)
    · exact .quiet (quiet_closeSockets s _)
  | welcome => exact .quiet ((quiet_broadcastMembersSync s).trans (quiet_sendFrame _ _ _))
  | refreshAttachments => exact .quiet (quiet_writeAttachments s _)
  | runAction userId =>
    unfold RoomsDO.exec
    dsimp only
    split_ifs
    · exact .steady (.report s rfl)
    · exact .steady (.refl s)
  | flush => exact .quiet (quiet_flushSharedDelta s)
  | closeLeaver connectionId userId wasJoined =>
    have hclose := (quiet_scheduleIfEmpty env s).trans (quiet_closeSockets _ [connectionId])
    unfold RoomsDO.exec
    dsimp only
    split_ifs
    · exact .quiet (hclose.trans (quiet_memberDisconnected _ _ _))
    · exact .quiet hclose
  | disconnect connectionId userId code =>
    exact .steady (.handleDisconnect s connectionId userId code)
  | disconnected connectionId userId wasJoined =>
    unfold RoomsDO.exec
    dsimp only
    split_ifs
    · exact .quiet ((quiet_scheduleIfEmpty env s).trans (quiet_memberDisconnected _ _ _))
    · exact .quiet (quiet_scheduleIfEmpty env s)
  | block => exact .steady { Steady.refl s with }
  | blocked => exact .steady (.report s rfl)
  | kickPlayer userId =>
    have hremove (connections : List String) : Steady s (s.removePlayers connections) :=
      { Steady.refl s with }
    exact .steady ((hremove _).trans (.deleteTimer _ userId))
  | closeKicked => exact .quiet (quiet_closeSockets s _)
  | finalizePlayerLeave => exact .steady (.report s rfl)
  | forgetPlayer =>
    unfold RoomsDO.exec RoomsDO.forgetPlayer
    dsimp only
    split_ifs
    · exact .ended .onDestroy rfl { (Steady.refl s).toFrame with } rfl
    · exact .steady { Steady.refl s with }
  | roomDestroyed => exact .steady { Steady.refl s with }
  | leaveMember => exact .steady (.refl s)
  | deleteMember => exact .steady { Steady.refl s with }
  | memberLeft => exact .quiet (quiet_broadcastMembersSync s)
  | recoverBeforeAlarm =>
    unfold RoomsDO.exec
    dsimp only
    split_ifs
    · exact .steady (.recover s)
    · exact .steady (.refl s)
  | alarm => exact .steady { Steady.refl s with }
  | cleanUp now expired => exact effect_cleanUp s ok now expired

/-! ## What is seen of a section -/

/-- Frames are sent, and some of these are seen. -/
def Adds (l : List Report) (s s' : RoomsDO) : Prop :=
  ∃ rs, (∀ r ∈ rs, r.isFrame = true ∨ r ∈ l) ∧ s'.history = s.history ++ rs

namespace Adds

variable {l : List Report}

theorem of_quiet (h : Quiet s s') : Adds l s s' := by
  obtain ⟨rs, hrs, hhistory⟩ := h.history
  exact ⟨rs, fun r hr => .inl (hrs r hr), hhistory⟩

theorem of_eq (h : s'.history = s.history) : Adds l s s' :=
  ⟨[], nofun, h.trans (append_nil _).symm⟩

theorem report (s : RoomsDO) {r : Report} (hr : r ∈ l) : Adds l s (s.report r) :=
  ⟨[r], fun _ hr' => .inr (mem_singleton.1 hr' ▸ hr), rfl⟩

theorem trans {s'' : RoomsDO} (h : Adds l s s') (h' : Adds l s' s'') : Adds l s s'' := by
  obtain ⟨rs, hrs, heq⟩ := h
  obtain ⟨rs', hrs', heq'⟩ := h'
  refine ⟨rs ++ rs', fun r hr => ?_, by rw [heq', heq, append_assoc]⟩
  rcases mem_append.1 hr with hr | hr
  · exact hrs r hr
  · exact hrs' r hr

theorem mem (h : Adds l s s') {r : Report} (hr : r ∈ s'.history) (hframe : r.isFrame = false) :
    r ∈ s.history ∨ r ∈ l := by
  obtain ⟨rs, hrs, heq⟩ := h
  rw [heq] at hr
  rcases mem_append.1 hr with hr | hr
  · exact .inl hr
  · refine .inr ((hrs r hr).resolve_left ?_)
    rw [hframe]
    exact Bool.false_ne_true

theorem pair_sublist (h : Adds l s s') {r r' : Report} (hr' : r' ∉ l)
    (hframe : r'.isFrame = false) : [r, r'].Sublist s'.history ↔ [r, r'].Sublist s.history := by
  obtain ⟨rs, hrs, heq⟩ := h
  rw [heq]
  refine Runs.pair_sublist_append fun hmem => ?_
  rcases hrs r' hmem with h | h
  · rw [hframe] at h
    cases h
  · exact hr' h

end Adds

def Section.reports : Section → List Report
  | .authenticate _ userId none => [.present userId]
  | .create _ _ _ _ => [.onCreate]
  | .letIn _ userId _ _ => [.accepted userId]
  | .runAction userId => [.action userId]
  | .blocked userId => [.blocked userId]
  | .finalizePlayerLeave userId _ => [.onLeave userId]
  | .forgetPlayer _ _ _ => [.onDestroy]
  | .cleanUp _ _ => [.cleanedUp]
  | _ => []

theorem deleteTimer_history (s : RoomsDO) (userId : String) :
    (s.deleteTimer userId).history = s.history := by
  unfold RoomsDO.deleteTimer
  split_ifs <;> rfl

theorem recover_history (env : Settings) (s : RoomsDO) : (s.recover env).history = s.history := by
  unfold RoomsDO.recover
  dsimp only
  split
  · split_ifs <;> rfl
  · rfl

theorem adds_handleExplicitLeave (s : RoomsDO) (connectionId userId : String) {l : List Report} :
    Adds l s (s.handleExplicitLeave connectionId userId).1 := by
  unfold RoomsDO.handleExplicitLeave
  dsimp only
  split
  · have hclose := quiet_closeSockets s [connectionId]
    split_ifs
    · exact .of_quiet (hclose.trans (quiet_memberDisconnected _ _ _))
    · exact .of_quiet hclose
  · exact .of_eq (deleteTimer_history _ _)

theorem adds_receive (s : RoomsDO) (connectionId : String) (message : Message) {l : List Report} :
    Adds l s (s.receive connectionId message).1 := by
  have hreceived := received_receive s connectionId message
  generalize s.receive connectionId message = r at hreceived
  cases hreceived with
  | quiet h => exact .of_quiet h
  | authenticate _ h => exact .of_quiet h
  | join _ _ _ _ h => exact .of_quiet h
  | leave _ _ h => exact (Adds.of_quiet h).trans (adds_handleExplicitLeave _ _ _)
  | send _ _ h => exact .of_quiet h

theorem adds_authenticate (s : RoomsDO) (connectionId userId : String) :
    Adds [.present userId] s (s.authenticate connectionId userId none) := by
  have hpresent : Adds [.present userId] s
      (if s.registered userId || s.waiting userId then s else s.report (.present userId)) := by
    split_ifs
    · exact .of_eq rfl
    · exact .report s mem_cons_self
  exact hpresent.trans (.of_eq (deleteTimer_history _ userId))

theorem adds_enter (s : RoomsDO) (connectionId userId : String) :
    Adds [.accepted userId] s (s.enter connectionId userId) := by
  let s₁ : RoomsDO :=
    { s with
      playerStates := if s.playerStates.contains userId then s.playerStates
        else s.playerStates ++ [userId] }
  have hreport : Adds [.accepted userId] s (s₁.report (.accepted userId)) :=
    .report s mem_cons_self
  exact (hreport.trans (.of_quiet (quiet_flushSharedDelta _))).trans
    (.of_quiet (quiet_sendFrame _ _ _))

theorem adds_letIn (s : RoomsDO) (connectionId userId : String) (hadMember wasReconnecting : Bool) :
    Adds [.accepted userId] s (s.letIn connectionId userId hadMember wasReconnecting).1 := by
  unfold RoomsDO.letIn
  dsimp only
  split_ifs
  · exact (adds_enter s connectionId userId).trans (.of_eq rfl)
  · exact (adds_enter s connectionId userId).trans (.of_eq rfl)
  · exact adds_enter s connectionId userId

theorem adds_handleDisconnect (s : RoomsDO) (connectionId userId : String) (code : CloseCode)
    {l : List Report} : Adds l s (s.handleDisconnect env connectionId userId code).1 := by
  unfold RoomsDO.handleDisconnect
  dsimp only
  split
  · split_ifs
    · exact .of_quiet (quiet_memberDisconnected _ _ _)
    · exact .of_eq rfl
  · split
    · exact .of_eq rfl
    · cases code with
      | kicked => exact .of_eq (deleteTimer_history _ _)
      | clientLeave => exact .of_eq (deleteTimer_history _ _)
      | other =>
        dsimp only
        split_ifs <;> exact .of_eq rfl

theorem adds_cleanUp (s : RoomsDO) (now : ℤ) (expired : Bool) :
    Adds [.cleanedUp] s (s.cleanUp now expired) := by
  have hsync : (if expired then s.syncEphemeralTimersToStorage else s).history = s.history := by
    split_ifs <;> rfl
  unfold RoomsDO.cleanUp
  dsimp only
  generalize (if expired then s.syncEphemeralTimersToStorage else s) = s₁ at hsync
  refine (Adds.of_eq hsync).trans ?_
  split
  · by_cases hempty : s₁.players = []
    · rw [if_pos hempty]
      exact ⟨[.cleanedUp], fun r hr => .inr hr, (cleanUpRoom_spec _).2⟩
    · rw [if_neg hempty]
      exact .of_eq rfl
  · exact .of_eq rfl

theorem adds_exec (env : Settings) (s : RoomsDO) (ok : Bool) (sec : Section) :
    Adds sec.reports s (s.exec env ok sec).1 := by
  cases sec with
  | recoverStateIfNeeded =>
    unfold RoomsDO.exec
    dsimp only
    split_ifs
    · exact .of_eq (recover_history env s)
    · exact .of_eq rfl
  | receive connectionId message => exact adds_receive s connectionId message
  | authenticate connectionId userId before =>
    cases before with
    | none => exact adds_authenticate s connectionId userId
    | some user =>
      unfold RoomsDO.exec RoomsDO.authenticate
      dsimp only
      split_ifs <;> exact .of_eq rfl
  | create =>
    unfold RoomsDO.exec
    dsimp only
    split_ifs
    · exact .of_eq rfl
    · exact ⟨_, fun r hr => .inr hr, rfl⟩
    · exact .of_eq rfl
  | letIn connectionId userId hadMember wasReconnecting =>
    unfold RoomsDO.exec
    dsimp only
    split_ifs
    · exact adds_letIn s connectionId userId hadMember wasReconnecting
    · exact .of_eq rfl
  | welcome => exact .of_quiet ((quiet_broadcastMembersSync s).trans (quiet_sendFrame _ _ _))
  | runAction userId =>
    unfold RoomsDO.exec
    dsimp only
    split_ifs
    · exact .report s mem_cons_self
    · exact .of_eq rfl
  | flush => exact .of_quiet (quiet_flushSharedDelta s)
  | closeLeaver connectionId userId wasJoined =>
    have hclose := (quiet_scheduleIfEmpty env s).trans (quiet_closeSockets _ [connectionId])
    unfold RoomsDO.exec
    dsimp only
    split_ifs
    · exact .of_quiet (hclose.trans (quiet_memberDisconnected _ _ _))
    · exact .of_quiet hclose
  | disconnect connectionId userId code => exact adds_handleDisconnect s connectionId userId code
  | disconnected connectionId userId wasJoined =>
    unfold RoomsDO.exec
    dsimp only
    split_ifs
    · exact .of_quiet ((quiet_scheduleIfEmpty env s).trans (quiet_memberDisconnected _ _ _))
    · exact .of_quiet (quiet_scheduleIfEmpty env s)
  | blocked => exact .report s mem_cons_self
  | kickPlayer userId => exact .of_eq (deleteTimer_history _ userId)
  | finalizePlayerLeave => exact .report s mem_cons_self
  | forgetPlayer =>
    unfold RoomsDO.exec RoomsDO.forgetPlayer
    dsimp only
    split_ifs
    · exact ⟨_, fun r hr => .inr hr, rfl⟩
    · exact .of_eq rfl
  | memberLeft => exact .of_quiet (quiet_broadcastMembersSync s)
  | recoverBeforeAlarm =>
    unfold RoomsDO.exec
    dsimp only
    split_ifs
    · exact .of_eq (recover_history env s)
    · exact .of_eq rfl
  | cleanUp now expired => exact adds_cleanUp s now expired
  | _ => exact .of_eq rfl

/-! ## Steps -/

variable (env) (e : RoomEvent)

theorem step_eq_handle (h : s.running.sections = []) : s.step env e = s.handle env e := by
  unfold RoomsDO.step
  rw [h]

theorem step_eq_proceed {sec : Section} {rest : List Section}
    (h : s.running.sections = sec :: rest) :
    s.step env e = s ∨ e = .proceed ∧ s.step env e = s.proceed env := by
  unfold RoomsDO.step
  rw [h]
  dsimp only
  split_ifs with he
  · exact .inr ⟨he, rfl⟩
  · exact .inl rfl

/-- What a handler still does once a section has been executed. -/
def Next.sections : Next → List Section
  | .run sections => sections
  | .await sections => sections

/-- The handlers that wait, and the one that runs, have these sections to do. -/
def RoomsDO.pending (s : RoomsDO) : List Section :=
  s.running.sections ++ s.tasks.flatMap (·.sections)

/-- The next section runs on, or its handler waits: the room is as the section leaves it, and what
the handlers still have to do is what follows, and what they had to do otherwise. -/
theorem proceed_spec {sec : Section} {rest : List Section} (h : s.running.sections = sec :: rest) :
    ∃ tasks running verdict,
      s.proceed env =
          { (s.exec env s.verdict sec).1 with
            tasks := tasks
            running := running
            verdict := verdict } ∧
        (∀ task ∈ running :: tasks, task ∈ (s.exec env s.verdict sec).1.tasks ∨ task.sections = [] ∨
          task = ⟨s.running.owner, (s.exec env s.verdict sec).2.sections ++ rest⟩) ∧
        (s.proceed env).pending.Perm
          ((s.exec env s.verdict sec).2.sections ++
            (rest ++ (s.exec env s.verdict sec).1.tasks.flatMap (·.sections))) := by
  unfold RoomsDO.proceed
  rw [h]
  dsimp only
  cases hexec : s.exec env s.verdict sec with
  | mk s' next =>
    cases next with
    | run sections =>
      refine ⟨_, _, _, rfl, fun task htask => ?_, ?_⟩
      · rcases mem_cons.1 htask with rfl | htask
        · exact .inr (.inr rfl)
        · exact .inl htask
      · change (sections ++ rest ++ _).Perm _
        rw [append_assoc]
        exact .refl _
    | await sections =>
      refine ⟨_, _, _, rfl, fun task htask => ?_, ?_⟩
      · rcases mem_cons.1 htask with rfl | htask
        · exact .inr (.inl rfl)
        · rcases mem_append.1 htask with htask | htask
          · exact .inl htask
          · exact .inr (.inr (mem_singleton.1 htask))
      · simp only [RoomsDO.pending, RoomsDO.start, flatMap_append, nil_append,
          flatMap_singleton, Next.sections]
        rw [← append_assoc sections]
        exact perm_append_comm

end Rooms

end EdgeBase
