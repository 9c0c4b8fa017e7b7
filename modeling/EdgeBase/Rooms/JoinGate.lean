import EdgeBase.Rooms.Orderly

/-!
# The gate of a room

A player whose join the access rule or `onJoin` rejects is authenticated all the same.  RoomsDO
sends `sync` and `members_sync` to those that have joined; the broadcasts of the base and the
actions ask for authentication alone.

* `unseen_run` : a rejected user sees nothing of the room, exactly if no step leaks.
-/

namespace EdgeBase

open List Option

namespace Rooms

inductive Gate where
  | accessJoin | onJoin
  deriving DecidableEq

def Rejects (gate : Gate) (userId : String) (s : RoomsDO) (e : RoomEvent) : Prop :=
  match e, s.running.sections with
  | .proceed, .create _ u _ _ :: _ => gate = .accessJoin → u = userId → s.verdict = false
  | .proceed, .letIn _ u _ _ :: _ => gate = .onJoin → u = userId → s.verdict = false
  | _, _ => True

instance (gate : Gate) (userId : String) (s : RoomsDO) (e : RoomEvent) :
    Decidable (Rejects gate userId s e) := by
  unfold Rejects
  rcases s.running with ⟨_, _ | ⟨sec, _⟩⟩ <;> cases e <;> try infer_instance
  cases sec <;> infer_instance

/-- A frame to the user, or an action on his behalf. -/
def Report.reaches (userId : String) : Report → Bool
  | .frame u _ => u = userId
  | .action u => u = userId
  | _ => false

def Unseen (userId : String) (s : RoomsDO) : Prop := ∀ r ∈ s.history, r.reaches userId = false

instance (userId : String) (s : RoomsDO) : Decidable (Unseen userId s) :=
  inferInstanceAs (Decidable (∀ r ∈ s.history, r.reaches userId = false))

def Listens (userId : String) (s : RoomsDO) : Prop :=
  ∃ socket ∈ s.sockets, socket.userId = some userId ∧ socket.isOpen = true

/-- A shared delta waits, and a socket of the user is open. -/
def Overhears (userId : String) (s : RoomsDO) : Prop :=
  s.pendingSharedDelta = true ∧ Listens userId s

/-- A step that reaches the user whether he has joined or not. -/
def Leaks (userId : String) (s : RoomsDO) (e : RoomEvent) : Prop :=
  match e, s.running.sections with
  | .proceed, .runAction u :: _ => u = userId ∧ s.verdict = true
  | .proceed, .flush :: _ => Overhears userId s
  | .proceed, .letIn _ _ _ _ :: _ => s.verdict = true ∧ Overhears userId s
  | .flush, [] => Overhears userId s
  | .setPlayerState u, [] => u = userId ∧ Listens userId s
  | .sendMessage exclude, [] => userId ∉ exclude ∧ Listens userId s
  | .sendMessageTo u, [] => u = userId ∧ Listens userId s
  | _, _ => False

instance (userId : String) (s : RoomsDO) (e : RoomEvent) : Decidable (Leaks userId s e) := by
  unfold Leaks Overhears Listens
  rcases s.running with ⟨_, _ | ⟨sec, _⟩⟩ <;> cases e <;> try infer_instance
  cases sec <;> infer_instance

def IsOther (userId : String) (user : Option String) : Prop := ∃ u, user = some u ∧ u ≠ userId

/-- The user has not joined, and has seen nothing of the room. -/
structure Outside (userId : String) (s : RoomsDO) : Prop where
  joined : ∀ connectionId ∈ s.joinedConnectionIds, connectionId ∈ s.drawn ∧
    ∀ user, (connectionId, user) ∈ users s.sockets → IsOther userId user
  attached : ∀ socket ∈ s.sockets, socket.joined = true → IsOther userId socket.userId
  unseen : Unseen userId s

/-- A section that a rejected user does not come to. -/
def Section.passed (gate : Gate) (userId : String) : Section → Prop
  | .greet _ u _ _ => u = userId ∧ gate = .accessJoin
  | .letIn _ u _ _ => u = userId ∧ gate = .accessJoin
  | .welcome _ u _ => u = userId
  | _ => False

def Gated (gate : Gate) (userId : String) (s : RoomsDO) : Prop :=
  ∀ sec ∈ s.pending, ¬ sec.passed gate userId

variable {env : Settings} {gate : Gate} {userId : String} {s s' : RoomsDO} {e : RoomEvent}
  {sec : Section} {ok : Bool}

/-! ## Frames -/

theorem mem_sendFrame {type : FrameType} {p : Socket → String → Bool} {r : Report} :
    r ∈ (s.sendFrame type p).history ↔ r ∈ s.history ∨ ∃ socket ∈ s.sockets, ∃ u,
      socket.userId = some u ∧ socket.isOpen = true ∧ p socket u = true ∧ r = .frame u type := by
  rw [RoomsDO.sendFrame_history, mem_append, mem_filterMap]
  refine or_congr_right (exists_congr fun socket => and_congr_right fun _ => ?_)
  cases socket.userId with
  | none => simp
  | some u =>
    dsimp only
    constructor
    · intro h
      split_ifs at h with hopen
      obtain ⟨hopen, hp⟩ := Bool.and_eq_true_iff.1 hopen
      exact ⟨u, rfl, hopen, hp, (some.inj h).symm⟩
    · rintro ⟨u', hu, hopen, hp, rfl⟩
      obtain rfl := some.inj hu
      rw [hopen, hp]
      rfl

namespace Unseen

theorem sendFrame (h : Unseen userId s) {type : FrameType} {p : Socket → String → Bool}
    (hp : ∀ socket ∈ s.sockets, socket.userId = some userId → socket.isOpen = true →
      p socket userId = false) : Unseen userId (s.sendFrame type p) := by
  intro r hr
  rcases mem_sendFrame.1 hr with hr | ⟨socket, hsocket, u, huser, hopen, hpu, rfl⟩
  · exact h r hr
  · refine decide_eq_false fun heq => ?_
    rw [heq] at huser hpu
    rw [hp socket hsocket huser hopen] at hpu
    cases hpu

theorem report (h : Unseen userId s) {r : Report} (hr : r.reaches userId = false) :
    Unseen userId (s.report r) := by
  intro r' hr'
  rcases mem_append.1 hr' with hr' | hr'
  · exact h r' hr'
  · rwa [mem_singleton.1 hr']

theorem flushSharedDelta (h : Unseen userId s) (hs : ¬ Overhears userId s) :
    Unseen userId s.flushSharedDelta := by
  unfold RoomsDO.flushSharedDelta
  split_ifs with hpending
  · have hsend : Unseen userId (s.sendFrame .sharedDelta fun _ _ => true) :=
      h.sendFrame fun socket hsocket huser hopen =>
        (hs ⟨hpending, socket, hsocket, huser, hopen⟩).elim
    exact hsend
  · exact h

end Unseen

/-! ## What keeps the user outside -/

theorem not_isOther_self : ¬ IsOther userId (some userId) := by
  rintro ⟨u, heq, hne⟩
  exact hne (some.inj heq).symm

namespace Outside

variable (h : Outside userId s)
include h

theorem sendFrame {type : FrameType} {p : Socket → String → Bool}
    (hp : ∀ socket ∈ s.sockets, socket.userId = some userId → socket.isOpen = true →
      p socket userId = false) : Outside userId (s.sendFrame type p) :=
  { h with unseen := h.unseen.sendFrame hp }

theorem broadcastMembersSync : Outside userId s.broadcastMembersSync := by
  refine h.sendFrame fun socket hsocket huser _ => ?_
  rw [Bool.eq_false_iff, ne_eq, contains_iff_mem]
  intro hjoined
  have hother := (h.joined _ hjoined).2 _ (mem_users hsocket)
  rw [huser] at hother
  exact not_isOther_self hother

theorem map_sockets {f : Socket → Socket}
    (hf : ∀ socket, (f socket).connectionId = socket.connectionId ∧
      (f socket).userId = socket.userId) (hjoined : ∀ socket, (f socket).joined = true →
      socket.joined = true ∨ socket.connectionId ∈ s.joinedConnectionIds) :
    Outside userId { s with sockets := s.sockets.map f } where
  joined := by
    rw [(Quiet.of_sockets hf : Quiet s _).users]
    exact h.joined
  attached := by
    intro socket' hsocket' hattached
    obtain ⟨socket, hsocket, rfl⟩ := List.mem_map.1 hsocket'
    rw [(hf socket).2]
    rcases hjoined socket hattached with hattached | hmem
    · exact h.attached socket hsocket hattached
    · exact (h.joined _ hmem).2 _ (mem_users hsocket)
  unseen := h.unseen

theorem closeSockets (connectionIds : List String) :
    Outside userId (s.closeSockets connectionIds) := by
  refine h.map_sockets (fun socket => ?_) fun socket hjoined => ?_
  · split_ifs <;> exact ⟨rfl, rfl⟩
  · split_ifs at hjoined <;> exact .inl hjoined

theorem writeAttachments (p : Socket → Bool) : Outside userId (s.writeAttachments p) := by
  refine h.map_sockets (fun socket => ?_) fun socket hjoined => ?_
  · split_ifs <;> exact ⟨rfl, rfl⟩
  · split_ifs at hjoined
    · exact .inr (by simpa using hjoined)
    · exact .inl hjoined

theorem leave {joined : List String} (members : List (String × List String))
    (hsub : joined ⊆ s.joinedConnectionIds) :
    Outside userId { s with joinedConnectionIds := joined, members := members } :=
  { h with joined := fun connectionId hmem => h.joined connectionId (hsub hmem) }

theorem memberDisconnected (u connectionId : String) :
    Outside userId (s.memberDisconnected u connectionId) := by
  have hremove : Outside userId (s.removeMemberConnection u connectionId) :=
    h.leave _ (filter_subset_self _)
  unfold RoomsDO.memberDisconnected
  dsimp only
  split_ifs
  · exact (hremove.writeAttachments _).broadcastMembersSync
  · exact hremove

theorem scheduleIfEmpty : Outside userId (s.scheduleIfEmpty env) := by
  unfold RoomsDO.scheduleIfEmpty
  split_ifs
  · exact { h with }
  · exact h

theorem deleteTimer (u : String) : Outside userId (s.deleteTimer u) := by
  unfold RoomsDO.deleteTimer
  split_ifs
  · exact { h with }
  · exact h

theorem handleExplicitLeave (connectionId u : String) :
    Outside userId (s.handleExplicitLeave connectionId u).1 := by
  unfold RoomsDO.handleExplicitLeave
  dsimp only
  split
  · split_ifs
    · exact (h.closeSockets _).memberDisconnected _ _
    · exact h.closeSockets _
  · have hremove : Outside userId (s.removePlayers [connectionId]) := { h with }
    exact hremove.deleteTimer _

theorem handleDisconnect (connectionId u : String) (code : CloseCode) :
    Outside userId (s.handleDisconnect env connectionId u code).1 := by
  unfold RoomsDO.handleDisconnect
  have hremove : Outside userId (s.removePlayers [connectionId]) := { h with }
  dsimp only
  split
  · split_ifs
    · exact h.memberDisconnected _ _
    · exact h
  · split
    · exact hremove
    · cases code with
      | kicked => exact hremove.deleteTimer _
      | clientLeave => exact hremove.deleteTimer _
      | other =>
        dsimp only
        split_ifs
        · exact { h with }
        · exact hremove

theorem receive (connectionId : String) (message : Message) :
    Outside userId (s.receive connectionId message).1 := by
  unfold RoomsDO.receive
  cases s.socket connectionId with
  | none => exact h
  | some socket =>
    have hwrite := h.writeAttachments fun socket => decide (socket.connectionId = connectionId)
    dsimp only
    split
    · exact hwrite
    · split_ifs
      · exact hwrite.closeSockets _
      · exact hwrite
    · exact hwrite.handleExplicitLeave _ _
    · exact hwrite
    · split_ifs
      · exact (hwrite.writeAttachments _).broadcastMembersSync
      · exact hwrite
    · exact hwrite

theorem recover (hs : Orderly s) : Outside userId (s.recover env) := by
  have hsockets : (s.recover env).sockets = s.sockets ∧ (s.recover env).drawn = s.drawn ∧
      (s.recover env).history = s.history ∧ (s.recover env).joinedConnectionIds =
        (s.sockets.filter fun socket => socket.userId.isSome && socket.joined).map
          (·.connectionId) := by
    unfold RoomsDO.recover
    dsimp only
    split
    · split_ifs <;> exact ⟨rfl, rfl, rfl, rfl⟩
    · exact ⟨rfl, rfl, rfl, rfl⟩
  obtain ⟨hsockets, hdrawn, hhistory, hjoined⟩ := hsockets
  refine ⟨fun connectionId hmem => ?_, ?_, ?_⟩
  · rw [hjoined] at hmem
    obtain ⟨socket, hsocket, rfl⟩ := List.mem_map.1 hmem
    obtain ⟨hsocket, hattached⟩ := mem_filter.1 hsocket
    rw [hsockets, hdrawn]
    refine ⟨hs.drawn _ (List.mem_map_of_mem (mem_users hsocket)), fun user huser => ?_⟩
    have heq := congrArg Prod.snd (inj_on_of_nodup_map hs.nodup huser (mem_users hsocket) rfl)
    rw [show user = socket.userId from heq]
    exact h.attached socket hsocket (Bool.and_eq_true_iff.1 hattached).2
  · rw [hsockets]
    exact h.attached
  · unfold Unseen
    rw [hhistory]
    exact h.unseen

theorem authenticate (connectionId u : String) (hnone : HasUser s.sockets connectionId none) :
    Outside userId (s.authenticate connectionId u none) := by
  have hfield : (s.authenticate connectionId u none).joinedConnectionIds = s.joinedConnectionIds ∧
      (s.authenticate connectionId u none).drawn = s.drawn ∧
      Unseen userId (s.authenticate connectionId u none) := by
    unfold RoomsDO.authenticate RoomsDO.deleteTimer
    dsimp only
    have hpresent := h.unseen.report (r := .present u) rfl
    split_ifs
    · exact ⟨rfl, rfl, h.unseen⟩
    · exact ⟨rfl, rfl, h.unseen⟩
    · exact ⟨rfl, rfl, hpresent⟩
    · exact ⟨rfl, rfl, hpresent⟩
  obtain ⟨hjoined, hdrawn, hunseen⟩ := hfield
  have hnot (socket : Socket) (hsocket : socket ∈ s.sockets)
      (hid : socket.connectionId = connectionId) : connectionId ∉ s.joinedConnectionIds := by
    intro hmem
    have hmem' := mem_users hsocket
    rw [hid] at hmem'
    obtain ⟨u', heq, -⟩ := (h.joined connectionId hmem).2 _ hmem'
    rw [hnone _ hmem'] at heq
    cases heq
  refine ⟨fun c hc => ?_, ?_, hunseen⟩
  · rw [hjoined] at hc
    rw [hdrawn, users_authenticate]
    refine ⟨(h.joined c hc).1, fun user huser => ?_⟩
    obtain ⟨p, hp, heq⟩ := List.mem_map.1 huser
    split_ifs at heq with hid
    · obtain ⟨socket, hsocket, rfl⟩ := List.mem_map.1 hp
      obtain ⟨rfl, -⟩ := Prod.mk.inj heq
      exact (hnot socket hsocket hid (hid ▸ hc)).elim
    · rw [heq] at hp
      exact (h.joined c hc).2 user hp
  · rw [sockets_authenticate]
    intro socket' hsocket' hattached
    obtain ⟨socket, hsocket, rfl⟩ := List.mem_map.1 hsocket'
    split_ifs at hattached ⊢ with hid
    · exact (hnot socket hsocket hid (by simpa using hattached)).elim
    · exact h.attached socket hsocket hattached

theorem flushSharedDelta (hover : ¬ Overhears userId s) : Outside userId s.flushSharedDelta := by
  have hunseen := h.unseen.flushSharedDelta hover
  unfold RoomsDO.flushSharedDelta at hunseen ⊢
  split_ifs at hunseen ⊢
  · exact { h with unseen := hunseen }
  · exact h

variable {connectionId u : String}

theorem enter (hne : u ≠ userId)
    (huser : HasUser s.sockets connectionId (some u)) (hover : ¬ Overhears userId s) :
    Outside userId (s.enter connectionId u) := by
  let s₁ : RoomsDO :=
    { s with
      playerStates := if s.playerStates.contains u then s.playerStates else s.playerStates ++ [u] }
  have hreport : Outside userId (s₁.report (.accepted u)) :=
    { h with unseen := (show Unseen userId s₁ from h.unseen).report rfl }
  refine (hreport.flushSharedDelta hover).sendFrame fun socket hsocket hself _ => decide_eq_false ?_
  intro hid
  have hmem := mem_users hsocket
  rw [hid, (quiet_flushSharedDelta _).users, hself] at hmem
  exact hne (some.inj (huser _ hmem)).symm

theorem letIn (hne : u ≠ userId)
    (hdrawn : connectionId ∈ s.drawn) (huser : HasUser s.sockets connectionId (some u))
    (hover : ¬ Overhears userId s) (hadMember wasReconnecting : Bool) :
    Outside userId (s.letIn connectionId u hadMember wasReconnecting).1 := by
  have henter := h.enter hne huser hover
  have hsteady := Steady.enter s connectionId u
  have hjoin : Outside userId
      { s.enter connectionId u with
        joinedConnectionIds := (s.enter connectionId u).joinedConnectionIds ++ [connectionId]
        members := Assoc.set (s.enter connectionId u).members u
          ((s.enter connectionId u).connectionsOf u ++ [connectionId]) } :=
    { henter with
      joined := by
        intro c hc
        rcases mem_append.1 hc with hc | hc
        · exact henter.joined c hc
        · obtain rfl := mem_singleton.1 hc
          refine ⟨?_, fun user hmem => ⟨u, hsteady.toFrame.hasUser huser user hmem, hne⟩⟩
          change c ∈ (s.enter c u).drawn
          rwa [hsteady.drawn] }
  unfold RoomsDO.letIn
  dsimp only
  split_ifs
  · exact hjoin
  · exact hjoin
  · exact henter

theorem welcome (hne : u ≠ userId) (huser : HasUser s.sockets connectionId (some u)) :
    Outside userId (s.broadcastMembersSync.sendFrame .membersSync fun socket _ =>
      socket.connectionId = connectionId) := by
  refine h.broadcastMembersSync.sendFrame fun socket hsocket hself _ => decide_eq_false ?_
  intro hid
  have hmem := mem_users hsocket
  rw [hid, hself] at hmem
  exact hne (some.inj (huser _ hmem)).symm

theorem cleanUp (now : ℤ) (expired : Bool) : Outside userId (s.cleanUp now expired) := by
  have hroom {s : RoomsDO} (h : Outside userId s) : Outside userId s.cleanUpRoom := by
    have hunseen := h.unseen.report (r := .cleanedUp) rfl
    unfold RoomsDO.cleanUpRoom
    dsimp only
    split_ifs
    · exact { h with unseen := hunseen }
    · exact { h with unseen := hunseen }
  have hsync : Outside userId (if expired then s.syncEphemeralTimersToStorage else s) := by
    split_ifs
    · exact { h with }
    · exact h
  unfold RoomsDO.cleanUp
  dsimp only
  generalize (if expired then s.syncEphemeralTimersToStorage else s) = s₁ at hsync
  split
  · have hroom' : Outside userId
        (if s₁.players = [] then RoomsDO.cleanUpRoom { s₁ with emptyRoomCleanupAt := none }
          else { s₁ with emptyRoomCleanupAt := none }) := by
      split_ifs
      · exact hroom { hsync with }
      · exact { hsync with }
    exact { hroom' with }
  · exact hsync

end Outside

/-! ## Steps -/

theorem Orderly.knows_running (hs : Orderly s) {rest : List Section}
    (hrunning : s.running.sections = sec :: rest) {connectionId : String} {user : Option String}
    (h : sec.socket = some (connectionId, user)) :
    connectionId ∈ s.drawn ∧ HasUser s.sockets connectionId user := by
  refine hs.knows sec ?_ connectionId user h
  rw [pending_eq hrunning]
  exact mem_cons_self

theorem Gated.running (hgated : Gated gate userId s) {rest : List Section}
    (hrunning : s.running.sections = sec :: rest) : ¬ sec.passed gate userId := by
  refine hgated sec ?_
  rw [pending_eq hrunning]
  exact mem_cons_self

theorem Outside.exec (h : Outside userId s) (hs : Orderly s) (hgated : Gated gate userId s)
    {rest : List Section} (hrunning : s.running.sections = sec :: rest)
    (hrejects : Rejects gate userId s .proceed) (hleaks : ¬ Leaks userId s .proceed) :
    Outside userId (s.exec env s.verdict sec).1 := by
  have hpassed := hgated.running hrunning
  unfold Rejects at hrejects
  unfold Leaks at hleaks
  rw [hrunning] at hrejects hleaks
  cases sec with
  | recoverStateIfNeeded =>
    unfold RoomsDO.exec
    dsimp only
    split_ifs
    · exact h.recover hs
    · exact h
  | receive connectionId message => exact h.receive connectionId message
  | authenticate connectionId u before =>
    cases before with
    | none => exact h.authenticate connectionId u (hs.knows_running hrunning rfl).2
    | some user =>
      unfold RoomsDO.exec RoomsDO.authenticate
      dsimp only
      split_ifs
      · exact h.writeAttachments _
      · exact h
  | create connectionId u =>
    unfold RoomsDO.exec
    dsimp only
    split_ifs
    · exact h
    · exact { h with unseen := h.unseen.report rfl }
    · exact h.closeSockets _
  | greet => exact h
  | letIn connectionId u hadMember wasReconnecting =>
    unfold RoomsDO.exec
    dsimp only at hrejects hleaks ⊢
    obtain ⟨hdrawn, huser⟩ := hs.knows_running hrunning rfl
    split_ifs with hok
    · have hne : u ≠ userId := by
        intro heq
        cases gate with
        | accessJoin => exact hpassed ⟨heq, rfl⟩
        | onJoin =>
          have := hrejects rfl heq
          rw [hok] at this
          cases this
      exact h.letIn hne hdrawn huser (fun hover => hleaks ⟨hok, hover⟩) _ _
    · exact h.closeSockets _
  | welcome connectionId u => exact h.welcome hpassed (hs.knows_running hrunning rfl).2
  | refreshAttachments => exact h.writeAttachments _
  | runAction u =>
    unfold RoomsDO.exec
    dsimp only at hleaks ⊢
    split_ifs with hok
    · exact { h with unseen := h.unseen.report (decide_eq_false fun heq => hleaks ⟨heq, hok⟩) }
    · exact h
  | flush => exact h.flushSharedDelta hleaks
  | closeLeaver connectionId u wasJoined =>
    have hclose : Outside userId ((s.scheduleIfEmpty env).closeSockets [connectionId]) :=
      h.scheduleIfEmpty.closeSockets _
    unfold RoomsDO.exec
    dsimp only
    split_ifs
    · exact hclose.memberDisconnected _ _
    · exact hclose
  | disconnect connectionId u code => exact h.handleDisconnect connectionId u code
  | disconnected connectionId u wasJoined =>
    unfold RoomsDO.exec
    dsimp only
    split_ifs
    · exact h.scheduleIfEmpty.memberDisconnected _ _
    · exact h.scheduleIfEmpty
  | block => exact { h with }
  | blocked => exact { h with unseen := h.unseen.report rfl }
  | kickPlayer u =>
    have hremove (connections : List String) : Outside userId (s.removePlayers connections) :=
      { h with }
    exact (hremove _).deleteTimer u
  | closeKicked => exact h.closeSockets _
  | finalizePlayerLeave => exact { h with unseen := h.unseen.report rfl }
  | forgetPlayer u =>
    have hreport := h.unseen.report (r := .onDestroy) rfl
    unfold RoomsDO.exec RoomsDO.forgetPlayer
    dsimp only
    split_ifs
    · exact { h with unseen := hreport }
    · exact { h with }
  | roomDestroyed => exact { h with }
  | leaveMember => exact h
  | deleteMember u => exact h.leave _ (filter_subset_self _)
  | memberLeft => exact h.broadcastMembersSync
  | recoverBeforeAlarm =>
    unfold RoomsDO.exec
    dsimp only
    split_ifs
    · exact h.recover hs
    · exact h
  | alarm => exact { h with }
  | cleanUp now expired => exact h.cleanUp now expired

theorem not_passed_of_isFirst (h : sec.isFirst = true) : ¬ sec.passed gate userId := by
  cases sec <;> first | exact id | cases h

theorem joins_of_passed (h : sec.passed gate userId) : sec.joins userId = true := by
  cases sec <;> first | exact decide_eq_true h | exact decide_eq_true h.1 | exact h.elim

theorem passed_exec {sec' : Section} (h : sec' ∈ (s.exec env ok sec).2.sections)
    (hpassed : sec'.passed gate userId) : sec.passed gate userId ∨ ok = true ∧
      ((∃ connectionId hadMember wasReconnecting,
          sec = .create connectionId userId hadMember wasReconnecting ∧ gate = .accessJoin) ∨
        ∃ connectionId hadMember wasReconnecting,
          sec = .letIn connectionId userId hadMember wasReconnecting) := by
  rcases join_steps h (joins_of_passed hpassed) with ⟨_, _, _, _, -, -, -, -, rfl⟩ |
    ⟨c, hadMember, wasReconnecting, rfl, hok, rfl⟩ | ⟨_, _, _, rfl, rfl⟩ |
    ⟨c, hadMember, wasReconnecting, rfl, hok, -⟩
  · exact hpassed.elim
  · exact .inr ⟨hok, .inl ⟨c, hadMember, wasReconnecting, rfl, hpassed.2⟩⟩
  · exact .inl hpassed
  · exact .inr ⟨hok, .inr ⟨c, hadMember, wasReconnecting, rfl⟩⟩

theorem Gated.proceed (hgated : Gated gate userId s) {rest : List Section}
    (hrunning : s.running.sections = sec :: rest) (hrejects : Rejects gate userId s .proceed) :
    Gated gate userId (s.proceed env) := by
  have hsec : ¬ sec.passed gate userId := hgated.running hrunning
  intro sec' hsec' hpassed
  rcases (mem_pending_proceed hrunning).1 hsec' with hnext | hmem
  · unfold Rejects at hrejects
    rw [hrunning] at hrejects
    rcases passed_exec hnext hpassed with h | ⟨hok, ⟨c, hadMember, wasReconnecting, rfl, hgate⟩ |
      ⟨c, hadMember, wasReconnecting, rfl⟩⟩
    · exact hsec h
    · have := hrejects hgate rfl
      rw [hok] at this
      cases this
    · cases gate with
      | accessJoin => exact hsec ⟨rfl, rfl⟩
      | onJoin =>
        have := hrejects rfl rfl
        rw [hok] at this
        cases this
  · refine hgated sec' ?_ hpassed
    rw [pending_eq hrunning]
    exact mem_cons_of_mem _ hmem

theorem Outside.handle (h : Outside userId s) (hidle : s.running.sections = [])
    (hleaks : ¬ Leaks userId s e) : Outside userId (s.handle env e) := by
  unfold Leaks at hleaks
  rw [hidle] at hleaks
  cases e with
  | connect connectionId =>
    unfold RoomsDO.handle
    dsimp only
    split_ifs with hfull
    · exact h
    · have hdrawn : connectionId ∉ s.drawn := fun hmem => hfull (.inl (by simpa using hmem))
      refine ⟨fun c hc => ?_, fun socket hsocket hattached => ?_, h.unseen⟩
      · refine ⟨mem_append_left _ (h.joined c hc).1, fun user huser => ?_⟩
        have hsplit : users (s.sockets ++ [({ connectionId } : Socket)]) =
            users s.sockets ++ [(connectionId, none)] := map_append
        rw [hsplit] at huser
        rcases mem_append.1 huser with huser | huser
        · exact (h.joined c hc).2 user huser
        · obtain ⟨rfl, -⟩ := Prod.mk.inj (mem_singleton.1 huser)
          exact (hdrawn (h.joined c hc).1).elim
      · rcases mem_append.1 hsocket with hsocket | hsocket
        · exact h.attached socket hsocket hattached
        · rw [mem_singleton.1 hsocket] at hattached
          cases hattached
  | message =>
    unfold RoomsDO.handle
    dsimp only
    split_ifs
    · exact h
    · exact { h with }
  | close connectionId code =>
    unfold RoomsDO.handle
    dsimp only
    split
    · have hsub : s.sockets.filter (·.connectionId ≠ connectionId) ⊆ s.sockets :=
        filter_subset_self _
      exact
        { joined := fun c hc => ⟨(h.joined c hc).1, fun user huser =>
            (h.joined c hc).2 user (map_subset _ hsub huser)⟩
          attached := fun socket hsocket => h.attached socket (hsub hsocket)
          unseen := h.unseen }
    · exact h
  | drop => exact h.closeSockets _
  | kick => exact { h with }
  | block => exact { h with }
  | alarm =>
    unfold RoomsDO.handle
    dsimp only
    split_ifs
    · exact h
    · exact { h with }
  | resume n ok =>
    unfold RoomsDO.handle
    dsimp only
    split
    · exact { h with }
    · exact h
  | proceed => exact h
  | setSharedState => exact { h with }
  | setPlayerState u =>
    have hsend : Outside userId (s.sendFrame .playerDelta fun _ u' => u' = u) :=
      h.sendFrame fun socket hsocket huser hopen =>
        decide_eq_false fun heq => hleaks ⟨heq.symm, socket, hsocket, huser, hopen⟩
    exact { hsend with }
  | flush => exact h.flushSharedDelta hleaks
  | sendMessage exclude =>
    refine h.sendFrame fun socket hsocket huser hopen => ?_
    by_contra hcontains
    refine hleaks ⟨fun hmem => hcontains ?_, socket, hsocket, huser, hopen⟩
    simp [hmem]
  | sendMessageTo u =>
    exact h.sendFrame fun socket hsocket huser hopen =>
      decide_eq_false fun heq => hleaks ⟨heq.symm, socket, hsocket, huser, hopen⟩
  | saveState => exact { h with }
  | expireState =>
    unfold RoomsDO.handle
    dsimp only
    split_ifs
    · exact { h with }
    · exact h
  | hibernate =>
    exact ⟨forall_mem_nil _, h.attached, h.unseen.report (r := .hibernated) rfl⟩
  | tick => exact { h with }

/-- What holds of a room that a user has never been let into. -/
structure GateInv (gate : Gate) (userId : String) (s : RoomsDO) : Prop where
  orderly : Orderly s
  outside : Outside userId s
  gated : Gated gate userId s

theorem GateInv.init : GateInv gate userId {} where
  orderly := .init
  outside := ⟨forall_mem_nil _, forall_mem_nil _, forall_mem_nil _⟩
  gated := forall_mem_nil _

theorem GateInv.step (hinv : GateInv gate userId s) (hrejects : Rejects gate userId s e)
    (hleaks : ¬ Leaks userId s e) : GateInv gate userId (s.step env e) := by
  suffices h : Outside userId (s.step env e) ∧ Gated gate userId (s.step env e) from
    ⟨hinv.orderly.step e, h.1, h.2⟩
  cases hrunning : s.running.sections with
  | nil =>
    rw [step_eq_handle env e hrunning]
    refine ⟨hinv.outside.handle hrunning hleaks, fun sec hsec hpassed => ?_⟩
    rcases mem_pending_handle hrunning hsec with hmem | hfirst
    · exact hinv.gated sec hmem hpassed
    · exact not_passed_of_isFirst hfirst hpassed
  | cons sec rest =>
    rcases step_eq_proceed env e hrunning with hstep | ⟨rfl, hstep⟩ <;> rw [hstep]
    · exact ⟨hinv.outside, hinv.gated⟩
    · refine ⟨?_, hinv.gated.proceed hrunning hrejects⟩
      obtain ⟨tasks, running, verdict, hproceed, -, -⟩ := proceed_spec env hrunning
      have hexec : Outside userId (s.exec env s.verdict sec).1 :=
        hinv.outside.exec hinv.orderly hinv.gated hrunning hrejects hleaks
      rw [hproceed]
      exact { hexec with }

/-! ## The leaks -/

theorem seen_of_sendFrame {type : FrameType} {p : Socket → String → Bool}
    (hlistens : ∃ socket ∈ s.sockets, socket.userId = some userId ∧ socket.isOpen = true ∧
      p socket userId = true) : ¬ Unseen userId (s.sendFrame type p) := by
  obtain ⟨socket, hsocket, huser, hopen, hp⟩ := hlistens
  intro hunseen
  have := hunseen (.frame userId type)
    (mem_sendFrame.2 (.inr ⟨socket, hsocket, userId, huser, hopen, hp, rfl⟩))
  simp [Report.reaches] at this

theorem seen_of_overhears (h : Overhears userId s) : ¬ Unseen userId s.flushSharedDelta := by
  obtain ⟨hpending, socket, hsocket, huser, hopen⟩ := h
  unfold RoomsDO.flushSharedDelta
  rw [if_pos hpending]
  exact seen_of_sendFrame (s := s) ⟨socket, hsocket, huser, hopen, rfl⟩

theorem unseen_step_proceed {rest : List Section} (hrunning : s.running.sections = sec :: rest) :
    Unseen userId (s.step env .proceed) ↔ Unseen userId (s.exec env s.verdict sec).1 := by
  obtain ⟨tasks, running, verdict, hproceed, -, -⟩ := proceed_spec env hrunning
  have hstep : s.step env .proceed = s.proceed env := by
    unfold RoomsDO.step
    rw [hrunning]
    rfl
  rw [hstep, hproceed]
  rfl

theorem seen_of_letIn (h : Overhears userId s) (connectionId u : String)
    (hadMember wasReconnecting : Bool) :
    ¬ Unseen userId (s.letIn connectionId u hadMember wasReconnecting).1 := by
  let s₁ : RoomsDO :=
    { s with
      playerStates := if s.playerStates.contains u then s.playerStates else s.playerStates ++ [u] }
  have hflush : ¬ Unseen userId (s₁.report (.accepted u)).flushSharedDelta := seen_of_overhears h
  have henter : ¬ Unseen userId (s.enter connectionId u) := fun hunseen =>
    hflush fun r hr => hunseen r (mem_append_left _ hr)
  unfold RoomsDO.letIn
  dsimp only
  split_ifs <;> exact henter

theorem seen_of_leaks (h : Leaks userId s e) : ¬ Unseen userId (s.step env e) := by
  unfold Leaks at h
  split at h
  · rename_i u rest hrunning
    rw [unseen_step_proceed hrunning]
    unfold RoomsDO.exec
    dsimp only
    rw [if_pos h.2]
    intro hunseen
    have := hunseen (.action u) (mem_append_right _ mem_cons_self)
    simp [Report.reaches, h.1] at this
  · rename_i hrunning
    rw [unseen_step_proceed hrunning]
    exact seen_of_overhears h
  · rename_i hrunning
    rw [unseen_step_proceed hrunning]
    unfold RoomsDO.exec
    dsimp only
    rw [if_pos h.1]
    exact seen_of_letIn h.2 _ _ _ _
  · rename_i hrunning
    rw [step_eq_handle env _ hrunning]
    exact seen_of_overhears h
  · rename_i u hrunning
    rw [step_eq_handle env _ hrunning]
    obtain ⟨rfl, socket, hsocket, huser, hopen⟩ := h
    have hsend : ¬ Unseen u (s.sendFrame .playerDelta fun _ u' => u' = u) :=
      seen_of_sendFrame ⟨socket, hsocket, huser, hopen, decide_eq_true rfl⟩
    exact hsend
  · rename_i exclude hrunning
    rw [step_eq_handle env _ hrunning]
    obtain ⟨hexclude, socket, hsocket, huser, hopen⟩ := h
    exact seen_of_sendFrame ⟨socket, hsocket, huser, hopen, by simpa using hexclude⟩
  · rename_i u hrunning
    rw [step_eq_handle env _ hrunning]
    obtain ⟨rfl, socket, hsocket, huser, hopen⟩ := h
    exact seen_of_sendFrame ⟨socket, hsocket, huser, hopen, decide_eq_true rfl⟩
  · exact h.elim

/-! ## Runs -/

/-- A user whose joins are all rejected sees nothing of the room, exactly if no broadcast of the
base finds a socket of his open and no action of his passes its own rule. -/
theorem unseen_run (gate : Gate) (userId : String) (env : Settings) (es : List RoomEvent)
    (hrejects : Runs.Along (RoomsDO.step env) (Rejects gate userId) {} es) :
    Runs.Along (RoomsDO.step env) (fun s e => ¬ Leaks userId s e) {} es ↔
      Runs.Along (RoomsDO.step env) (fun s e => Unseen userId (s.step env e)) {} es := by
  have hiff : Runs.Along (RoomsDO.step env)
      (fun s e => Rejects gate userId s e ∧ ¬ Leaks userId s e) {} es ↔
        Runs.Along (RoomsDO.step env)
          (fun s e => Rejects gate userId s e ∧ Unseen userId (s.step env e)) {} es := by
    refine Runs.Along.iff_of_invariant (I := GateInv gate userId) .init (fun s e hinv => ?_)
      fun s e hinv h => hinv.step h.1 h.2
    refine and_congr_right fun hrejects => ⟨fun hleaks => ?_, fun hunseen hleaks => ?_⟩
    · exact (hinv.step hrejects hleaks).outside.unseen
    · exact seen_of_leaks hleaks hunseen
  rw [Runs.Along.and, Runs.Along.and] at hiff
  exact ⟨fun h => (hiff.1 ⟨hrejects, h⟩).2, fun h => (hiff.2 ⟨hrejects, h⟩).2⟩

def turnedAway : List RoomEvent :=
  joining "c1" "ann" ++ script [.connect "c2", .message "c2" (.auth "eve"), .resume 0 true,
    .message "c2" .join, .resume 0 false, .setSharedState true, .flush]

theorem turnedAway_unseen :
    Runs.Along (RoomsDO.step {}) (fun s e => Unseen "eve" (s.step {} e)) {} turnedAway :=
  (unseen_run .accessJoin "eve" {} turnedAway (by decide +kernel)).1 (by decide +kernel)

/-- A player authenticates and does not ask to join. -/
def eavesdropping : List RoomEvent :=
  joining "c1" "ann" ++ script [.connect "c2", .message "c2" (.auth "eve"), .resume 0 true,
    .setSharedState true, .flush, .message "c2" .send, .resume 0 true]

theorem eavesdropping_seen :
    Runs.Along (RoomsDO.step {}) (Rejects .accessJoin "eve") {} eavesdropping ∧
      .frame "eve" .sharedDelta ∈ (Runs.last (RoomsDO.step {}) {} eavesdropping).history ∧
      .action "eve" ∈ (Runs.last (RoomsDO.step {}) {} eavesdropping).history ∧
      ¬ Runs.Along (RoomsDO.step {}) (fun s e => Unseen "eve" (s.step {} e)) {} eavesdropping := by
  decide +kernel

end Rooms

end EdgeBase
