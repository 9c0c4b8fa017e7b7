import EdgeBase.Rooms.Orderly

/-!
# Blocked members

`block` puts a member on a list, and kicks him.  The list is looked at when a join is received, and
is kept in memory alone: a join that was in flight is not stopped, and a room that hibernates
forgets the list.

* `members_exec` : who becomes a member in a section.
* `obeyed_run` : in a run of such steps nobody who is blocked joins, or is a member.
-/

namespace EdgeBase

open List

namespace Rooms

def Joining (userId : String) (s : RoomsDO) : Prop := ∃ sec ∈ s.pending, sec.joins userId = true

/-- The block of the user has taken effect: it has succeeded, or a handler is about to say so. -/
def Barred (userId : String) (s : RoomsDO) : Prop :=
  .blocked userId ∈ s.history ∨
    ∃ task ∈ s.running :: s.tasks, .blocked userId ∈ task.sections ∧ .block userId ∉ task.sections

/-- A socket of the user, that had joined, is attached. -/
def Attached (userId : String) (s : RoomsDO) : Prop :=
  ∃ socket ∈ s.sockets, socket.userId = some userId ∧ socket.joined = true

/-- A user whose block has succeeded is no member, and has not joined since. -/
def Obeyed (userId : String) (s : RoomsDO) : Prop :=
  .blocked userId ∈ s.history → s.isMember userId = false ∧
    ¬ [Report.blocked userId, .accepted userId].Sublist s.history

/-- A step that does not get around a block of the user. -/
def Holds (userId : String) (s : RoomsDO) (e : RoomEvent) : Prop :=
  match e, s.running.sections with
  | .proceed, .block u :: _ => u = userId → ¬ Joining userId s
  | .proceed, .kickPlayer u :: rest =>
    u = userId → .blocked userId ∈ rest → s.isMember userId = true →
      ∃ socket ∈ s.sockets, socket.userId = some userId
  | .proceed, .receive connectionId .join :: _ =>
    Barred userId s → (s.socket connectionId).any (·.userId = some userId) = true →
      userId ∈ s.blockedMembers
  | .proceed, .recoverStateIfNeeded :: _ =>
    Barred userId s → s.stateRecoveryNeeded = true → ¬ Attached userId s
  | .proceed, .recoverBeforeAlarm :: _ =>
    Barred userId s → s.shouldRecoverBeforeAlarm = true → ¬ Attached userId s
  | _, _ => True

instance (userId : String) (s : RoomsDO) : Decidable (Obeyed userId s) :=
  inferInstanceAs (Decidable (_ → _ ∧ ¬ _))

instance (userId : String) (s : RoomsDO) (e : RoomEvent) : Decidable (Holds userId s e) := by
  unfold Holds Barred Joining Attached
  split <;> infer_instance

variable {env : Settings} {userId : String} {s s' : RoomsDO} {e : RoomEvent} {sec : Section}
  {ok : Bool}

/-! ## The members after a section -/

theorem isMember_iff : s.isMember userId = true ↔ userId ∈ s.members.map Prod.fst := by
  unfold RoomsDO.isMember
  simp

theorem Quiet.isMember (h : Quiet s s') : s'.isMember userId = s.isMember userId := by
  rw [Bool.eq_iff_iff, isMember_iff, isMember_iff, h.members]

theorem isMember_of_members (h : s'.members = s.members) :
    s'.isMember userId = s.isMember userId := by
  unfold RoomsDO.isMember
  rw [h]

theorem deleteTimer_members (s : RoomsDO) (u : String) : (s.deleteTimer u).members = s.members := by
  unfold RoomsDO.deleteTimer
  split_ifs <;> rfl

theorem isMember_handleExplicitLeave (s : RoomsDO) (connectionId u : String) :
    (s.handleExplicitLeave connectionId u).1.isMember userId = s.isMember userId := by
  unfold RoomsDO.handleExplicitLeave
  dsimp only
  split
  · have hclose := quiet_closeSockets s [connectionId]
    split_ifs
    · exact (hclose.trans (quiet_memberDisconnected _ _ _)).isMember
    · exact hclose.isMember
  · exact isMember_of_members (deleteTimer_members _ _)

theorem isMember_receive (s : RoomsDO) (connectionId : String) (message : Message) :
    (s.receive connectionId message).1.isMember userId = s.isMember userId := by
  have hreceived := received_receive s connectionId message
  generalize s.receive connectionId message = r at hreceived
  cases hreceived with
  | quiet h => exact h.isMember
  | authenticate _ h => exact h.isMember
  | join _ _ _ _ h => exact h.isMember
  | leave _ _ h => rw [isMember_handleExplicitLeave, h.isMember]
  | send _ _ h => exact h.isMember

theorem isMember_handleDisconnect (env : Settings) (s : RoomsDO) (connectionId u : String)
    (code : CloseCode) :
    (s.handleDisconnect env connectionId u code).1.isMember userId = s.isMember userId := by
  unfold RoomsDO.handleDisconnect
  dsimp only
  split
  · split_ifs
    · exact (quiet_memberDisconnected _ _ _).isMember
    · rfl
  · split
    · rfl
    · cases code with
      | kicked => exact isMember_of_members (deleteTimer_members _ _)
      | clientLeave => exact isMember_of_members (deleteTimer_members _ _)
      | other =>
        dsimp only
        split_ifs <;> rfl

theorem isMember_authenticate (s : RoomsDO) (connectionId u : String) (before : Option String) :
    (s.authenticate connectionId u before).isMember userId = s.isMember userId := by
  unfold RoomsDO.authenticate
  cases before with
  | some user =>
    dsimp only
    split_ifs <;> rfl
  | none =>
    refine isMember_of_members ?_
    dsimp only
    split_ifs
    · exact deleteTimer_members _ _
    · exact deleteTimer_members _ _

theorem isMember_enter (s : RoomsDO) (connectionId u : String) :
    (s.enter connectionId u).isMember userId = s.isMember userId := by
  let s₁ : RoomsDO :=
    { s with
      playerStates := if s.playerStates.contains u then s.playerStates else s.playerStates ++ [u] }
  have hflush := (quiet_flushSharedDelta (s₁.report (.accepted u))).trans
    (quiet_sendFrame _ .sync fun socket _ => socket.connectionId = connectionId)
  exact hflush.isMember

theorem isMember_letIn (s : RoomsDO) (connectionId u : String) (hadMember wasReconnecting : Bool)
    (h : (s.letIn connectionId u hadMember wasReconnecting).1.isMember userId = true) :
    u = userId ∨ s.isMember userId = true := by
  rw [← isMember_enter s connectionId u]
  unfold RoomsDO.letIn at h
  dsimp only at h
  split_ifs at h with hopen hhad
  · rw [isMember_iff] at h ⊢
    obtain ⟨m, hm, heq⟩ := mem_map.1 h
    rcases Assoc.mem_set hm with rfl | hm
    · exact .inl heq
    · exact .inr (mem_map.2 ⟨m, hm, heq⟩)
  · rw [isMember_iff] at h ⊢
    obtain ⟨m, hm, heq⟩ := mem_map.1 h
    rcases Assoc.mem_set hm with rfl | hm
    · exact .inl heq
    · exact .inr (mem_map.2 ⟨m, hm, heq⟩)
  · exact .inr h

theorem cleanUp_members (s : RoomsDO) (now : ℤ) (expired : Bool) :
    (s.cleanUp now expired).members = s.members := by
  have hroom (s : RoomsDO) : s.cleanUpRoom.members = s.members := by
    unfold RoomsDO.cleanUpRoom
    dsimp only
    split_ifs <;> rfl
  have hsync : (if expired then s.syncEphemeralTimersToStorage else s).members = s.members := by
    split_ifs <;> rfl
  unfold RoomsDO.cleanUp
  dsimp only
  generalize (if expired then s.syncEphemeralTimersToStorage else s) = s₁ at hsync
  rw [← hsync]
  split
  · change (ite _ _ _ : RoomsDO).members = _
    split_ifs
    · exact hroom _
    · rfl
  · rfl

theorem mem_foldl_members (sockets : List Socket) (acc : List (String × List String)) :
    userId ∈ (sockets.foldl (fun members socket =>
      match socket.userId with
      | some userId =>
        if socket.joined then
          Assoc.set members userId ((members.lookup userId).getD [] ++ [socket.connectionId])
        else members
      | none => members) acc).map Prod.fst →
    userId ∈ acc.map Prod.fst ∨
      ∃ socket ∈ sockets, socket.userId = some userId ∧ socket.joined = true := by
  induction sockets generalizing acc with
  | nil => exact .inl
  | cons socket sockets ih =>
    intro hmem
    rcases ih _ hmem with hmem | ⟨socket', hsocket', h⟩
    · dsimp only at hmem
      cases huser : socket.userId with
      | none =>
        rw [huser] at hmem
        exact .inl hmem
      | some u =>
        rw [huser] at hmem
        dsimp only at hmem
        split_ifs at hmem with hjoined
        · obtain ⟨m, hm, heq⟩ := mem_map.1 hmem
          rcases Assoc.mem_set hm with rfl | hm
          · obtain rfl : u = userId := heq
            exact .inr ⟨socket, mem_cons_self, huser, hjoined⟩
          · exact .inl (mem_map.2 ⟨m, hm, heq⟩)
        · exact .inl hmem
    · exact .inr ⟨socket', mem_cons_of_mem _ hsocket', h⟩

theorem attached_of_recover (h : (s.recover env).isMember userId = true) : Attached userId s := by
  have hmembers : (s.recover env).members = RoomsDO.attachedMembers s.sockets := by
    unfold RoomsDO.recover
    dsimp only
    split
    · split_ifs <;> rfl
    · rfl
  rw [isMember_iff, hmembers] at h
  exact (mem_foldl_members s.sockets [] h).resolve_left (by simp)

/-- The section reads the members from the sockets. -/
def Recovers (s : RoomsDO) (sec : Section) : Prop :=
  sec = .recoverStateIfNeeded ∧ s.stateRecoveryNeeded = true ∨
    sec = .recoverBeforeAlarm ∧ s.shouldRecoverBeforeAlarm = true

theorem members_exec (h : (s.exec env ok sec).1.isMember userId = true) : s.isMember userId = true ∨
      (∃ connectionId hadMember wasReconnecting,
        sec = .letIn connectionId userId hadMember wasReconnecting) ∨
      Recovers s sec ∧ Attached userId s := by
  have same (heq : (s.exec env ok sec).1.isMember userId = s.isMember userId) :
      s.isMember userId = true := heq ▸ h
  cases sec with
  | recoverStateIfNeeded =>
    unfold RoomsDO.exec at h
    dsimp only at h
    split_ifs at h with hneeded
    · exact .inr (.inr ⟨.inl ⟨rfl, hneeded⟩, attached_of_recover h⟩)
    · exact .inl h
  | recoverBeforeAlarm =>
    unfold RoomsDO.exec at h
    dsimp only at h
    split_ifs at h with hneeded
    · exact .inr (.inr ⟨.inr ⟨rfl, hneeded⟩, attached_of_recover h⟩)
    · exact .inl h
  | receive connectionId message => exact .inl (same (isMember_receive s connectionId message))
  | authenticate connectionId u before =>
    exact .inl (same (isMember_authenticate s connectionId u before))
  | create =>
    unfold RoomsDO.exec at h
    dsimp only at h
    split_ifs at h <;> exact .inl h
  | letIn connectionId u hadMember wasReconnecting =>
    unfold RoomsDO.exec at h
    dsimp only at h
    split_ifs at h
    · rcases isMember_letIn s connectionId u hadMember wasReconnecting h with rfl | h
      · exact .inr (.inl ⟨_, _, _, rfl⟩)
      · exact .inl h
    · exact .inl h
  | runAction =>
    unfold RoomsDO.exec at h
    dsimp only at h
    split_ifs at h <;> exact .inl h
  | flush => exact .inl (same (quiet_flushSharedDelta s).isMember)
  | closeLeaver connectionId u wasJoined =>
    have hclose := (quiet_scheduleIfEmpty env s).trans (quiet_closeSockets _ [connectionId])
    unfold RoomsDO.exec at h
    dsimp only at h
    split_ifs at h
    · exact .inl ((hclose.trans (quiet_memberDisconnected _ _ _)).isMember ▸ h)
    · exact .inl (hclose.isMember ▸ h)
  | disconnect connectionId u code =>
    exact .inl (same (isMember_handleDisconnect env s connectionId u code))
  | disconnected connectionId u wasJoined =>
    unfold RoomsDO.exec at h
    dsimp only at h
    split_ifs at h
    · exact .inl (((quiet_scheduleIfEmpty env s).trans
        (quiet_memberDisconnected _ _ _)).isMember ▸ h)
    · exact .inl ((quiet_scheduleIfEmpty env s).isMember ▸ h)
  | kickPlayer u => exact .inl (same (isMember_of_members (deleteTimer_members _ u)))
  | forgetPlayer =>
    unfold RoomsDO.exec RoomsDO.forgetPlayer at h
    dsimp only at h
    split_ifs at h <;> exact .inl h
  | deleteMember u =>
    rw [isMember_iff] at h ⊢
    exact .inl ((filter_sublist.map Prod.fst).subset h)
  | cleanUp now expired => exact .inl (same (isMember_of_members (cleanUp_members s now expired)))
  | _ => exact .inl h

/-! ## What follows a section -/

theorem joins_exec {sec' : Section} (h : sec' ∈ (s.exec env ok sec).2.sections)
    (hjoins : sec'.joins userId = true) :
    sec.joins userId = true ∨ ∃ connectionId, sec = .receive connectionId .join ∧
      (s.socket connectionId).any (·.userId = some userId) = true ∧ userId ∉ s.blockedMembers := by
  rcases join_steps h hjoins with ⟨c, socket, _, _, rfl, hsocket, huser, hblocked, -⟩ |
    ⟨_, _, _, rfl, -, -⟩ | ⟨_, _, _, rfl, -⟩ | ⟨_, _, _, rfl, -, -⟩
  · refine .inr ⟨c, rfl, ?_, hblocked⟩
    rw [hsocket]
    exact decide_eq_true huser
  · exact .inl (decide_eq_true rfl)
  · exact .inl (decide_eq_true rfl)
  · exact .inl (decide_eq_true rfl)

/-- A section that is going to take the user out of the members. -/
def Section.removes (userId : String) : Section → Bool
  | .kickPlayer u | .finalizePlayerLeave u _ | .deleteMember u => u = userId
  | .forgetPlayer u _ wasMember | .roomDestroyed u _ wasMember => u = userId && wasMember
  | .leaveMember u _ wasMember => u = userId && wasMember
  | _ => false

theorem removes_exec (hremoves : sec.removes userId = true)
    (hkick : sec = .kickPlayer userId → ∃ socket ∈ s.sockets, socket.userId = some userId)
    (hmember : (s.exec env ok sec).1.isMember userId = true) :
    ∃ sec' ∈ (s.exec env ok sec).2.sections, sec'.removes userId = true := by
  cases sec with
  | kickPlayer u =>
    obtain rfl := of_decide_eq_true hremoves
    obtain ⟨socket, hsocket, huser⟩ := hkick rfl
    have hconnections : (s.sockets.filter (·.userId = some u)).map (·.connectionId) ≠ [] := by
      intro hnil
      have hmem : socket ∈ s.sockets.filter (·.userId = some u) :=
        mem_filter.2 ⟨hsocket, decide_eq_true huser⟩
      rw [map_eq_nil_iff.1 hnil] at hmem
      cases hmem
    refine ⟨.finalizePlayerLeave u .kicked, ?_, decide_eq_true rfl⟩
    unfold RoomsDO.exec RoomsDO.kickPlayer
    dsimp only
    rw [if_neg hconnections]
    exact mem_cons_self
  | finalizePlayerLeave u reason =>
    obtain rfl := of_decide_eq_true hremoves
    refine ⟨_, mem_cons_self, ?_⟩
    change decide (u = u) && s.isMember u
    rw [show s.isMember u = true from hmember, decide_eq_true rfl]
    rfl
  | forgetPlayer u reason wasMember =>
    unfold RoomsDO.exec RoomsDO.forgetPlayer
    dsimp only
    split_ifs
    · exact ⟨_, mem_cons_self, hremoves⟩
    · exact ⟨_, mem_cons_self, hremoves⟩
  | roomDestroyed u reason wasMember => exact ⟨_, mem_cons_self, hremoves⟩
  | leaveMember u reason wasMember =>
    obtain ⟨hu, rfl⟩ := Bool.and_eq_true_iff.1 hremoves
    unfold RoomsDO.exec
    dsimp only
    split_ifs with hwas
    · cases hwas
    · exact ⟨_, mem_cons_self, hu⟩
    · exact ⟨_, mem_cons_self, hu⟩
  | deleteMember u =>
    obtain rfl := of_decide_eq_true hremoves
    rw [isMember_iff] at hmember
    obtain ⟨m, hm, heq⟩ := mem_map.1 hmember
    have hne := of_decide_eq_true (mem_filter.1 hm).2
    exact (hne heq).elim
  | _ => cases hremoves

theorem reports_blocked (h : .blocked userId ∈ sec.reports) : sec = .blocked userId := by
  cases sec with
  | authenticate _ _ before => cases before <;> simp [Section.reports] at h
  | blocked u => rw [Report.blocked.inj (mem_singleton.1 h)]
  | _ => simp [Section.reports] at h

theorem reports_accepted (h : .accepted userId ∈ sec.reports) : sec.joins userId = true := by
  cases sec with
  | authenticate _ _ before => cases before <;> simp [Section.reports] at h
  | letIn => exact decide_eq_true (Report.accepted.inj (mem_singleton.1 h)).symm
  | _ => simp [Section.reports] at h

def Section.blocks (userId : String) : Section → Bool
  | .block u | .blocked u => u = userId
  | _ => false

theorem blocks_exec {sec' : Section} (h : sec' ∈ (s.exec env ok sec).2.sections) :
    sec'.blocks userId = false := by
  have hfirst := isFirst_exec h
  cases sec' <;> first | rfl | cases hfirst

/-! ## Runs -/

/-- How far a handler is with the block of the user, who is a member or not. -/
inductive BlockTask (userId : String) (member : Bool) : List Section → Prop
  | other {sections : List Section} (h : ∀ sec ∈ sections, sec.blocks userId = false) :
    BlockTask userId member sections
  | starting : BlockTask userId member
      [.recoverStateIfNeeded, .block userId, .kickPlayer userId, .blocked userId]
  | blocking : BlockTask userId member [.block userId, .kickPlayer userId, .blocked userId]
  /-- The member is yet to be taken out. -/
  | barred {sections : List Section} (h : ∀ sec ∈ sections, sec.blocks userId = false)
      (hremoves : member = true → ∃ sec ∈ sections, sec.removes userId = true) :
    BlockTask userId member (sections ++ [.blocked userId])

/-- What holds while nobody gets around the block of a user. -/
structure BlockInv (userId : String) (s : RoomsDO) : Prop where
  tasks : ∀ task ∈ s.running :: s.tasks, BlockTask userId (s.isMember userId) task.sections
  /-- No join is in flight once the block has taken effect. -/
  notJoining : Barred userId s → ¬ Joining userId s
  obeyed : Obeyed userId s

namespace BlockTask

variable {member member' : Bool} {sections rest : List Section}

theorem notMem_of_blocks {sec : Section} (h : ∀ sec ∈ sections, sec.blocks userId = false)
    (hsec : sec.blocks userId = true) : sec ∉ sections := by
  intro hmem
  rw [h sec hmem] at hsec
  cases hsec

theorem of_blocked (h : BlockTask userId member (.blocked userId :: rest)) :
    rest = [] ∧ member = false := by
  generalize hsections : Section.blocked userId :: rest = sections at h
  cases h with
  | other h =>
    have := h (.blocked userId) (hsections ▸ mem_cons_self)
    simp [Section.blocks] at this
  | starting => cases hsections
  | blocking => cases hsections
  | @barred sections h hremoves =>
    cases sections with
    | nil =>
      refine ⟨(List.cons.inj hsections).2, ?_⟩
      cases member with
      | false => rfl
      | true =>
        obtain ⟨sec, hsec, -⟩ := hremoves rfl
        cases hsec
    | cons sec sections =>
      obtain ⟨rfl, -⟩ := List.cons.inj hsections
      have := h (.blocked userId) mem_cons_self
      simp [Section.blocks] at this

theorem mono (h : BlockTask userId member sections)
    (hmember : .blocked userId ∈ sections → .block userId ∉ sections →
      member' = true → member = true) : BlockTask userId member' sections := by
  cases h with
  | other h => exact .other h
  | starting => exact .starting
  | blocking => exact .blocking
  | barred h hremoves =>
    refine .barred h fun hmember' => hremoves (hmember (by simp) ?_ hmember')
    have hnot : Section.block userId ∉ _ := notMem_of_blocks h (decide_eq_true rfl)
    simpa using hnot

theorem exec (h : BlockTask userId (s.isMember userId) (sec :: rest))
    (hmember : .blocked userId ∈ sec :: rest → .block userId ∉ sec :: rest →
      (s.exec env ok sec).1.isMember userId = true → s.isMember userId = true)
    (hkick : sec = .kickPlayer userId → .blocked userId ∈ rest → s.isMember userId = true →
      ∃ socket ∈ s.sockets, socket.userId = some userId) :
    BlockTask userId ((s.exec env ok sec).1.isMember userId)
      ((s.exec env ok sec).2.sections ++ rest) := by
  generalize hsections : sec :: rest = sections at h
  cases h with
  | other h =>
    refine .other fun sec' hsec' => ?_
    rcases mem_append.1 hsec' with hnext | hrest
    · exact blocks_exec hnext
    · exact h sec' (hsections ▸ mem_cons_of_mem _ hrest)
  | starting =>
    obtain ⟨rfl, rfl⟩ := List.cons.inj hsections
    exact .blocking
  | blocking =>
    obtain ⟨rfl, rfl⟩ := List.cons.inj hsections
    have hkick : ∀ sec ∈ [Section.kickPlayer userId], sec.blocks userId = false := by
      intro sec hsec
      obtain rfl := mem_singleton.1 hsec
      rfl
    exact .barred hkick fun _ =>
      ⟨.kickPlayer userId, mem_singleton.2 rfl, decide_eq_true rfl⟩
  | @barred sections h hremoves =>
    cases sections with
    | nil =>
      obtain ⟨rfl, rfl⟩ := List.cons.inj hsections
      exact .other (forall_mem_nil _)
    | cons sec₀ sections =>
      change sec :: rest = sec₀ :: (sections ++ [.blocked userId]) at hsections
      obtain ⟨rfl, rfl⟩ := List.cons.inj hsections
      have hnot : Section.block userId ∉ _ := notMem_of_blocks h (decide_eq_true rfl)
      rw [← append_assoc]
      refine .barred (fun sec' hsec' => ?_) fun hmember' => ?_
      · rcases mem_append.1 hsec' with hnext | hrest
        · exact blocks_exec hnext
        · exact h sec' (mem_cons_of_mem _ hrest)
      · have hwas : s.isMember userId = true :=
          hmember (by simp) (by simpa using hnot) hmember'
        obtain ⟨sec', hsec', hsecRemoves⟩ := hremoves hwas
        rcases mem_cons.1 hsec' with rfl | hsec'
        · obtain ⟨sec', hsec', h'⟩ := removes_exec hsecRemoves
            (fun heq => hkick heq (by simp) hwas) hmember'
          exact ⟨sec', mem_append_left _ hsec', h'⟩
        · exact ⟨sec', mem_append_right _ hsec', hsecRemoves⟩

end BlockTask

theorem kept_exec (hinv : BlockInv userId s) {rest : List Section}
    (hrunning : s.running.sections = sec :: rest) (hholds : Holds userId s .proceed)
    (hbarred : Barred userId s) (h : (s.exec env ok sec).1.isMember userId = true) :
    s.isMember userId = true := by
  unfold Holds at hholds
  rw [hrunning] at hholds
  rcases members_exec h with h | ⟨connectionId, hadMember, wasReconnecting, rfl⟩ |
    ⟨⟨rfl, hneeded⟩ | ⟨rfl, hneeded⟩, hattached⟩
  · exact h
  · refine (hinv.notJoining hbarred ⟨.letIn connectionId userId hadMember wasReconnecting, ?_,
      decide_eq_true rfl⟩).elim
    rw [pending_eq hrunning]
    exact mem_cons_self
  · exact (hholds hbarred hneeded hattached).elim
  · exact (hholds hbarred hneeded hattached).elim

theorem notJoining_exec (hinv : BlockInv userId s) {rest : List Section}
    (hrunning : s.running.sections = sec :: rest) (hholds : Holds userId s .proceed)
    (hbarred : Barred userId s ∨ sec = .block userId) : ¬ Joining userId (s.proceed env) := by
  unfold Holds at hholds
  rw [hrunning] at hholds
  have hnot : ¬ Joining userId s := by
    rcases hbarred with h | rfl
    · exact hinv.notJoining h
    · exact hholds rfl
  rintro ⟨sec', hsec', hjoins⟩
  rcases (mem_pending_proceed hrunning).1 hsec' with hnext | hrest
  · rcases joins_exec hnext hjoins with h | ⟨connectionId, rfl, huser, hblocked⟩
    · refine hnot ⟨sec, ?_, h⟩
      rw [pending_eq hrunning]
      exact mem_cons_self
    · rcases hbarred with h | h
      · exact hblocked (hholds h huser)
      · cases h
  · refine hnot ⟨sec', ?_, hjoins⟩
    rw [pending_eq hrunning]
    exact mem_cons_of_mem _ hrest

theorem mem_pending : sec ∈ s.pending ↔ ∃ task ∈ s.running :: s.tasks, sec ∈ task.sections := by
  unfold RoomsDO.pending
  simp

namespace BlockInv

theorem barred_proceed (hinv : BlockInv userId s) {rest : List Section}
    (hrunning : s.running.sections = sec :: rest) (h : Barred userId (s.proceed env)) :
    Barred userId s ∨ sec = .block userId := by
  by_cases hsec : sec = .block userId
  · exact .inr hsec
  refine .inl ?_
  have hofRunning (hblocked : .blocked userId ∈ sec :: rest) (hblock : .block userId ∉ rest) :
      Barred userId s := by
    refine .inr ⟨s.running, mem_cons_self, hrunning ▸ hblocked, ?_⟩
    rw [hrunning]
    simp [hblock, Ne.symm hsec]
  obtain ⟨tasks, running, verdict, hproceed, htasks, -⟩ := proceed_spec env hrunning
  rw [exec_tasks] at htasks
  rcases h with hhistory | ⟨task, htask, hblocked, hblock⟩
  · rw [hproceed] at hhistory
    rcases (adds_exec env s s.verdict sec).mem hhistory rfl with h | h
    · exact .inl h
    · obtain rfl := reports_blocked h
      have htask := hinv.tasks s.running mem_cons_self
      rw [hrunning] at htask
      refine hofRunning mem_cons_self ?_
      rw [htask.of_blocked.1]
      exact not_mem_nil
  · rw [hproceed] at htask
    rcases htasks task htask with hmem | hnil | rfl
    · exact .inr ⟨task, mem_cons_of_mem _ hmem, hblocked, hblock⟩
    · rw [hnil] at hblocked
      cases hblocked
    · refine hofRunning (mem_cons_of_mem _ ?_) fun hmem =>
        hblock (mem_append_right _ hmem)
      refine (mem_append.1 hblocked).resolve_left fun hnext => ?_
      have := isFirst_exec hnext
      cases this

protected theorem proceed (hinv : BlockInv userId s) {rest : List Section}
    (hrunning : s.running.sections = sec :: rest) (hholds : Holds userId s .proceed) :
    BlockInv userId (s.proceed env) := by
  have hbarred : Barred userId (s.proceed env) → _ := hinv.barred_proceed hrunning
  have hkept (hbarred : Barred userId s)
      (h : (s.exec env s.verdict sec).1.isMember userId = true) : s.isMember userId = true :=
    kept_exec hinv hrunning hholds hbarred h
  obtain ⟨tasks, running, verdict, hproceed, htasks, -⟩ := proceed_spec env hrunning
  have hmember : (s.proceed env).isMember userId =
      (s.exec env s.verdict sec).1.isMember userId := by
    rw [hproceed]
    rfl
  rw [exec_tasks] at htasks
  refine ⟨?_, fun h => notJoining_exec hinv hrunning hholds (hbarred h), ?_⟩
  · rw [hmember, hproceed]
    intro task htask
    rcases htasks task htask with hmem | hnil | rfl
    · have hmem := mem_cons_of_mem s.running hmem
      exact (hinv.tasks task hmem).mono fun hblocked hblock =>
        hkept (.inr ⟨task, hmem, hblocked, hblock⟩)
    · rw [hnil]
      exact .other (forall_mem_nil _)
    · have hrunningTask := hinv.tasks s.running mem_cons_self
      rw [hrunning] at hrunningTask
      refine hrunningTask.exec (fun hblocked hblock => hkept ?_) ?_
      · exact .inr ⟨s.running, mem_cons_self, hrunning ▸ hblocked, hrunning ▸ hblock⟩
      · rintro rfl hblocked
        unfold Holds at hholds
        rw [hrunning] at hholds
        exact hholds rfl hblocked
  · have hadds := adds_exec env s s.verdict sec
    have hhistory : (s.proceed env).history = (s.exec env s.verdict sec).1.history := by
      rw [hproceed]
    unfold Obeyed
    rw [hmember, hhistory]
    intro hblocked
    have hseen := hadds.mem hblocked rfl
    have hbarred : Barred userId s := by
      refine (hbarred (.inl (hhistory ▸ hblocked))).elim id ?_
      rintro rfl
      exact .inl (hseen.resolve_right not_mem_nil)
    refine ⟨Bool.eq_false_iff.2 fun hmember' => ?_, ?_⟩
    · have hwas := hkept hbarred hmember'
      rcases hseen with h | h
      · rw [(hinv.obeyed h).1] at hwas
        cases hwas
      · obtain rfl := reports_blocked h
        have htask := hinv.tasks s.running mem_cons_self
        rw [hrunning] at htask
        rw [htask.of_blocked.2] at hwas
        cases hwas
    · rw [hadds.pair_sublist ?_ rfl]
      · intro hsublist
        exact (hinv.obeyed (hsublist.subset mem_cons_self)).2 hsublist
      · intro haccepted
        refine hinv.notJoining hbarred ⟨sec, ?_, reports_accepted haccepted⟩
        rw [pending_eq hrunning]
        exact mem_cons_self

theorem init : BlockInv userId {} where
  tasks := by
    intro task htask
    obtain rfl := mem_singleton.1 htask
    exact .other (forall_mem_nil _)
  notJoining := by
    rintro - ⟨sec, hsec, -⟩
    cases hsec
  obeyed := fun h => by cases h

def Fresh (userId : String) (sections : List Section) : Prop :=
  (∀ sec ∈ sections, sec.isFirst = true ∧ sec.blocks userId = false) ∨
    sections = [.recoverStateIfNeeded, .block userId, .kickPlayer userId, .blocked userId]

theorem of_fresh (hinv : BlockInv userId s)
    (hmember : s'.isMember userId = true → s.isMember userId = true)
    (htasks : ∀ task ∈ s'.running :: s'.tasks,
      task ∈ s.running :: s.tasks ∨ Fresh userId task.sections)
    (hadds : Adds [.hibernated] s s') : BlockInv userId s' := by
  have hblocked (h : .blocked userId ∈ s'.history) : .blocked userId ∈ s.history :=
    (hadds.mem h rfl).resolve_right (by simp)
  have hbarred (h : Barred userId s') : Barred userId s := by
    rcases h with h | ⟨task, htask, h, hblock⟩
    · exact .inl (hblocked h)
    · rcases htasks task htask with hmem | hfresh | heq
      · exact .inr ⟨task, hmem, h, hblock⟩
      · have := (hfresh _ h).2
        simp [Section.blocks] at this
      · rw [heq] at hblock
        simp at hblock
  refine ⟨fun task htask => ?_, ?_, fun h => ?_⟩
  · rcases htasks task htask with hmem | hfresh | heq
    · exact (hinv.tasks task hmem).mono fun _ _ => hmember
    · exact .other fun sec hsec => (hfresh sec hsec).2
    · rw [heq]
      exact .starting
  · rintro h ⟨sec, hsec, hjoins⟩
    rw [mem_pending] at hsec
    obtain ⟨task, htask, hsec⟩ := hsec
    rcases htasks task htask with hmem | hfresh | heq
    · exact hinv.notJoining (hbarred h) ⟨sec, mem_pending.2 ⟨task, hmem, hsec⟩, hjoins⟩
    · have := (hfresh sec hsec).1
      cases sec <;> first | cases hjoins | cases this
    · rw [heq] at hsec
      simp only [mem_cons, not_mem_nil, or_false] at hsec
      rcases hsec with rfl | rfl | rfl | rfl <;> cases hjoins
  · obtain ⟨hnot, hsublist⟩ := hinv.obeyed (hblocked h)
    refine ⟨Bool.eq_false_iff.2 fun h => ?_, ?_⟩
    · rw [hmember h] at hnot
      cases hnot
    · rwa [hadds.pair_sublist (by simp) rfl]

theorem start (hinv : BlockInv userId s) {owner : Owner} {sections : List Section}
    (h : Fresh userId sections) : BlockInv userId (s.start owner sections) := by
  refine hinv.of_fresh id (fun task htask => ?_) (.of_eq rfl)
  rcases mem_cons.1 htask with rfl | htask
  · exact .inr h
  · exact .inl (mem_cons_of_mem _ htask)

theorem of_same (hinv : BlockInv userId s) (hmembers : s'.isMember userId = s.isMember userId)
    (htasks : s'.tasks = s.tasks) (hrunning : s'.running = s.running)
    (hadds : Adds [] s s') : BlockInv userId s' := by
  refine hinv.of_fresh (hmembers ▸ id) (fun task htask => .inl ?_) ?_
  · rwa [htasks, hrunning] at htask
  · obtain ⟨rs, hrs, heq⟩ := hadds
    exact ⟨rs, fun r hr => .inl ((hrs r hr).resolve_right not_mem_nil), heq⟩

theorem of_quiet (hinv : BlockInv userId s) (h : Quiet s s') : BlockInv userId s' :=
  hinv.of_same h.isMember h.tasks h.running (.of_quiet h)

protected theorem handle (hinv : BlockInv userId s) : BlockInv userId (s.handle env e) := by
  have fresh {sections : List Section}
      (h : ∀ sec ∈ sections, sec.isFirst = true ∧ sec.blocks userId = false) :
      Fresh userId sections := .inl h
  cases e with
  | connect =>
    unfold RoomsDO.handle
    dsimp only
    split_ifs
    · exact hinv
    · exact hinv.of_same rfl rfl rfl (.of_eq rfl)
  | message =>
    unfold RoomsDO.handle
    dsimp only
    split_ifs
    · exact hinv
    · refine hinv.start (fresh fun sec hsec => ?_)
      rcases mem_pair.1 hsec with rfl | rfl <;> exact ⟨rfl, rfl⟩
  | close connectionId code =>
    unfold RoomsDO.handle
    dsimp only
    split
    · let s₁ : RoomsDO :=
        { s with sockets := s.sockets.filter (·.connectionId ≠ connectionId) }
      have hinv₁ : BlockInv userId s₁ := hinv.of_same rfl rfl rfl (.of_eq rfl)
      refine hinv₁.start (fresh fun sec hsec => ?_)
      obtain ⟨u, -, rfl⟩ := mem_map.1 hsec
      exact ⟨rfl, rfl⟩
    · exact hinv
  | drop connectionId => exact hinv.of_quiet (quiet_closeSockets s [connectionId])
  | kick =>
    refine hinv.start (fresh fun sec hsec => ?_)
    rcases mem_pair.1 hsec with rfl | rfl <;> exact ⟨rfl, rfl⟩
  | block u =>
    refine hinv.start ?_
    by_cases hu : u = userId
    · exact .inr (by rw [hu])
    · refine fresh fun sec hsec => ?_
      simp only [mem_cons, not_mem_nil, or_false] at hsec
      rcases hsec with rfl | rfl | rfl | rfl <;> simp [Section.isFirst, Section.blocks, hu]
  | alarm =>
    unfold RoomsDO.handle
    dsimp only
    split_ifs
    · exact hinv
    · refine hinv.start (fresh fun sec hsec => ?_)
      rcases mem_pair.1 hsec with rfl | rfl <;> exact ⟨rfl, rfl⟩
  | resume n ok =>
    unfold RoomsDO.handle
    dsimp only
    split
    · rename_i task hn
      refine hinv.of_fresh id (fun task' htask' => .inl (mem_cons_of_mem _ ?_)) (.of_eq rfl)
      rcases mem_cons.1 htask' with rfl | htask'
      · exact mem_of_getElem? hn
      · exact mem_of_mem_eraseIdx htask'
    · exact hinv
  | flush => exact hinv.of_quiet (quiet_flushSharedDelta s)
  | setPlayerState u =>
    let s₁ : RoomsDO :=
      { s with
        playerStates := if s.playerStates.contains u then s.playerStates
          else s.playerStates ++ [u] }
    have hinv₁ : BlockInv userId s₁ := hinv.of_same rfl rfl rfl (.of_eq rfl)
    exact hinv₁.of_quiet (quiet_sendFrame s₁ .playerDelta fun _ u' => u' = u)
  | sendMessage => exact hinv.of_quiet (quiet_sendFrame s _ _)
  | sendMessageTo => exact hinv.of_quiet (quiet_sendFrame s _ _)
  | expireState =>
    unfold RoomsDO.handle
    dsimp only
    split_ifs
    · exact hinv.of_same rfl rfl rfl (.of_eq rfl)
    · exact hinv
  | hibernate =>
    refine hinv.of_fresh (fun h => by cases h) (fun task htask => .inr (fresh ?_))
      ⟨[.hibernated], fun r hr => .inr hr, rfl⟩
    obtain rfl := mem_singleton.1 htask
    exact forall_mem_nil _
  | _ => exact hinv.of_same rfl rfl rfl (.of_eq rfl)

protected theorem step (hinv : BlockInv userId s) (h : Holds userId s e) :
    BlockInv userId (s.step env e) := by
  cases hrunning : s.running.sections with
  | nil =>
    rw [step_eq_handle env e hrunning]
    exact hinv.handle
  | cons sec rest =>
    rcases step_eq_proceed env e hrunning with heq | ⟨rfl, heq⟩
    · rw [heq]
      exact hinv
    · rw [heq]
      exact hinv.proceed hrunning h

end BlockInv

/-- In a run of steps that do not get around the block of a user, he neither joins nor is a member
once it has succeeded. -/
theorem obeyed_run (env : Settings) (userId : String) (es : List RoomEvent)
    (h : Runs.Along (RoomsDO.step env) (Holds userId) {} es) :
    Runs.Along (RoomsDO.step env) (fun s e => Obeyed userId (s.step env e)) {} es :=
  (h.of_invariant (I := BlockInv userId) .init (fun _ _ hinv h => hinv.step h)
    fun _ _ hinv h => (hinv.step h).obeyed).1

/-- Ann joins, is blocked, and may not join again. -/
def barring : List RoomEvent :=
  joining "c1" "ann" ++ script ([.block "ann"] ++ List.replicate 5 (.resume 0 true) ++
    [.connect "c2", .message "c2" (.auth "ann"), .resume 0 true, .message "c2" .join])

theorem barring_obeyed :
    .blocked "ann" ∈ (Runs.last (RoomsDO.step {}) {} barring).history ∧
      Runs.Along (RoomsDO.step {}) (fun s e => Obeyed "ann" (s.step {} e)) {} barring :=
  ⟨by decide +kernel, obeyed_run {} "ann" barring (by decide +kernel)⟩

/-- Bob joins and stays.  Ann joins, is blocked, and joins again once the room has hibernated. -/
def forgetting : List RoomEvent :=
  joining "c1" "bob" ++ joining "c2" "ann" ++
    script ([.message "c1" .memberState, .block "ann"] ++ List.replicate 5 (.resume 0 true) ++
      [.close "c2" .kicked, .hibernate]) ++ joining "c3" "ann"

theorem forgetting_not_obeyed :
    Runs.Along (RoomsDO.step {})
        (fun s _ => .blocked "ann" ∈ s.history → ⟨"c1", some "bob", true, true⟩ ∈ s.sockets) {}
        forgetting ∧
      (Runs.last (RoomsDO.step {}) {} forgetting).members = [("bob", ["c1"]), ("ann", ["c3"])] ∧
      ¬ Obeyed "ann" (Runs.last (RoomsDO.step {}) {} forgetting) := by
  decide +kernel

end Rooms

end EdgeBase
