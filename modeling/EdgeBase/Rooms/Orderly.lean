import EdgeBase.Rooms.Sections
import Mathlib.Data.List.Nodup
import Mathlib.Data.List.Perm.Basic

/-!
# The sockets and the handlers of a room

A socket takes one message after the other, and keeps its first user.  So whatever order the hooks
return in, a handler that goes on finds the user of its socket as it was.

* `Orderly.step` : every step keeps this.
-/

namespace EdgeBase

open List

namespace Rooms

def Section.connection : Section → Option String
  | .receive connectionId _ => some connectionId
  | .authenticate connectionId _ _ => some connectionId
  | .create connectionId _ _ _ => some connectionId
  | .greet connectionId _ _ _ => some connectionId
  | .letIn connectionId _ _ _ => some connectionId
  | .welcome connectionId _ _ => some connectionId
  | _ => none

/-- The connection of a section with the user of its socket, as the handler knows it. -/
def Section.socket : Section → Option (String × Option String)
  | .authenticate connectionId _ before => some (connectionId, before)
  | .create connectionId userId _ _ => some (connectionId, some userId)
  | .greet connectionId userId _ _ => some (connectionId, some userId)
  | .letIn connectionId userId _ _ => some (connectionId, some userId)
  | .welcome connectionId userId _ => some (connectionId, some userId)
  | _ => none

def HasUser (sockets : List Socket) (connectionId : String) (userId : Option String) : Prop :=
  ∀ user, (connectionId, user) ∈ users sockets → user = userId

/-- The connections of the sockets do not repeat, no two handlers have a message of one socket, and
each knows the user of its socket. -/
structure Orderly (s : RoomsDO) : Prop where
  nodup : ((users s.sockets).map Prod.fst).Nodup
  drawn : ∀ connectionId ∈ (users s.sockets).map Prod.fst, connectionId ∈ s.drawn
  owner : ∀ task ∈ s.running :: s.tasks, ∀ sec ∈ task.sections, ∀ connectionId,
    sec.connection = some connectionId → task.owner = .socket connectionId
  once : (s.pending.filterMap Section.connection).Nodup
  knows : ∀ sec ∈ s.pending, ∀ connectionId userId, sec.socket = some (connectionId, userId) →
    connectionId ∈ s.drawn ∧ HasUser s.sockets connectionId userId

/-! ## What follows a section -/

section Next

variable (env : Settings) (s : RoomsDO) (ok : Bool) {sec : Section}

theorem connection_of_socket {connectionId : String} {userId : Option String}
    (h : sec.socket = some (connectionId, userId)) : sec.connection = some connectionId := by
  cases sec <;> simp_all [Section.socket, Section.connection]

theorem connection_handleExplicitLeave (connectionId userId : String) :
    (s.handleExplicitLeave connectionId userId).2.sections.filterMap Section.connection = [] := by
  unfold RoomsDO.handleExplicitLeave
  dsimp only
  split
  · rfl
  · split_ifs <;> rfl

theorem connection_handleDisconnect (connectionId userId : String) (code : CloseCode) :
    (s.handleDisconnect env connectionId userId code).2.sections.filterMap Section.connection =
      [] := by
  unfold RoomsDO.handleDisconnect
  dsimp only
  split
  · rfl
  · split
    · rfl
    · cases code with
      | kicked => rfl
      | clientLeave => rfl
      | other =>
        dsimp only
        split_ifs <;> rfl

theorem connection_exec (sec : Section) :
    ((s.exec env ok sec).2.sections.filterMap Section.connection).Sublist
      sec.connection.toList := by
  have none_of {l : List String} (h : (s.exec env ok sec).2.sections.filterMap
      Section.connection = []) :
      ((s.exec env ok sec).2.sections.filterMap Section.connection).Sublist l := by
    rw [h]
    exact nil_sublist _
  cases sec with
  | receive connectionId message =>
    have hreceived := received_receive s connectionId message
    change ((s.receive connectionId message).2.sections.filterMap Section.connection).Sublist _
    generalize s.receive connectionId message = r at hreceived
    cases hreceived with
    | quiet => exact nil_sublist _
    | authenticate => exact .refl _
    | join => exact .refl _
    | leave =>
      rw [connection_handleExplicitLeave]
      exact nil_sublist _
    | send => exact nil_sublist _
  | authenticate => exact none_of rfl
  | create =>
    unfold RoomsDO.exec
    dsimp only
    split_ifs
    · exact .refl _
    · exact .refl _
    · exact nil_sublist _
  | greet => exact .refl _
  | letIn connectionId userId hadMember wasReconnecting =>
    unfold RoomsDO.exec RoomsDO.letIn
    dsimp only
    split_ifs
    · exact .refl _
    · exact .refl _
    · exact nil_sublist _
    · exact nil_sublist _
  | welcome =>
    refine none_of ?_
    unfold RoomsDO.exec
    dsimp only
    split_ifs <;> rfl
  | runAction =>
    refine none_of ?_
    unfold RoomsDO.exec
    dsimp only
    split_ifs <;> rfl
  | disconnect connectionId userId code =>
    exact none_of (connection_handleDisconnect env s connectionId userId code)
  | kickPlayer userId =>
    refine none_of ?_
    unfold RoomsDO.exec RoomsDO.kickPlayer
    dsimp only
    split_ifs <;> rfl
  | forgetPlayer =>
    refine none_of ?_
    unfold RoomsDO.exec RoomsDO.forgetPlayer
    dsimp only
    split_ifs <;> rfl
  | leaveMember =>
    refine none_of ?_
    unfold RoomsDO.exec
    dsimp only
    split_ifs <;> rfl
  | alarm =>
    refine none_of ?_
    unfold RoomsDO.exec RoomsDO.alarm
    simp [Next.sections, Section.connection, filterMap_append]
  | _ => exact none_of rfl

theorem socket_exec {sec' : Section} {connectionId : String} {userId : Option String}
    (h : sec' ∈ (s.exec env ok sec).2.sections)
    (hsocket : sec'.socket = some (connectionId, userId)) :
    sec.socket = some (connectionId, userId) ∨ sec.connection = some connectionId ∧
        ∃ socket, s.socket connectionId = some socket ∧ socket.userId = userId := by
  have hconnection : sec.connection = some connectionId := by
    have hmem : connectionId ∈ (s.exec env ok sec).2.sections.filterMap Section.connection :=
      mem_filterMap.2 ⟨sec', h, connection_of_socket hsocket⟩
    simpa using (connection_exec env s ok sec).subset hmem
  cases sec with
  | receive c message =>
    obtain rfl : c = connectionId := by simpa [Section.connection] using hconnection
    refine .inr ⟨rfl, ?_⟩
    have hreceived := received_receive s c message
    change sec' ∈ (s.receive c message).2.sections at h
    generalize s.receive c message = r at hreceived h
    cases hreceived with
    | quiet => cases h
    | authenticate hs =>
      obtain rfl := mem_singleton.1 h
      obtain ⟨-, rfl⟩ := Prod.mk.inj (Option.some.inj hsocket)
      exact ⟨_, hs, rfl⟩
    | join _ hs huser =>
      obtain rfl := mem_singleton.1 h
      obtain ⟨-, rfl⟩ := Prod.mk.inj (Option.some.inj hsocket)
      exact ⟨_, hs, huser⟩
    | leave =>
      have hmem := mem_filterMap.2 ⟨sec', h, connection_of_socket hsocket⟩
      rw [connection_handleExplicitLeave] at hmem
      cases hmem
    | send =>
      obtain rfl := mem_singleton.1 h
      cases hsocket
  | authenticate => cases h
  | create =>
    unfold RoomsDO.exec at h
    dsimp only at h
    split_ifs at h
    · obtain rfl := mem_singleton.1 h
      exact .inl hsocket
    · obtain rfl := mem_singleton.1 h
      exact .inl hsocket
    · cases h
  | greet =>
    obtain rfl := mem_singleton.1 h
    exact .inl hsocket
  | letIn =>
    unfold RoomsDO.exec RoomsDO.letIn at h
    dsimp only at h
    split_ifs at h
    · obtain rfl := mem_singleton.1 h
      exact .inl hsocket
    · obtain rfl := mem_singleton.1 h
      exact .inl hsocket
    · cases h
    · cases h
  | welcome =>
    unfold RoomsDO.exec at h
    dsimp only at h
    split_ifs at h
    · obtain rfl := mem_singleton.1 h
      cases hsocket
    · obtain rfl := mem_singleton.1 h
      cases hsocket
  | _ => cases hconnection

def Section.joins (userId : String) : Section → Bool
  | .create _ u _ _ | .greet _ u _ _ | .letIn _ u _ _ | .welcome _ u _ => u = userId
  | _ => false

theorem connection_of_joins {userId : String} (h : sec.joins userId = true) :
    ∃ connectionId, sec.connection = some connectionId := by
  cases sec <;> first | exact ⟨_, rfl⟩ | cases h

variable {env s ok}

theorem join_steps {sec' : Section} {userId : String} (h : sec' ∈ (s.exec env ok sec).2.sections)
    (hjoins : sec'.joins userId = true) :
    (∃ c socket hadMember wasReconnecting, sec = .receive c .join ∧ s.socket c = some socket ∧
      socket.userId = some userId ∧ userId ∉ s.blockedMembers ∧
        sec' = .create c userId hadMember wasReconnecting) ∨
    (∃ c hadMember wasReconnecting, sec = .create c userId hadMember wasReconnecting ∧ ok = true ∧
      sec' = .greet c userId hadMember wasReconnecting) ∨
    (∃ c hadMember wasReconnecting, sec = .greet c userId hadMember wasReconnecting ∧
      sec' = .letIn c userId hadMember wasReconnecting) ∨
    ∃ c hadMember wasReconnecting, sec = .letIn c userId hadMember wasReconnecting ∧ ok = true ∧
      sec' = .welcome c userId wasReconnecting := by
  obtain ⟨connectionId, hconnection'⟩ := connection_of_joins hjoins
  have hconnection : sec.connection = some connectionId := by
    simpa using (connection_exec env s ok sec).subset (mem_filterMap.2 ⟨sec', h, hconnection'⟩)
  cases sec with
  | receive c message =>
    have hreceived := received_receive s c message
    change sec' ∈ (s.receive c message).2.sections at h
    generalize s.receive c message = r at hreceived h
    cases hreceived with
    | quiet => cases h
    | authenticate =>
      obtain rfl := mem_singleton.1 h
      cases hjoins
    | join hmessage hsocket huser hblocked =>
      obtain rfl := mem_singleton.1 h
      obtain rfl := of_decide_eq_true hjoins
      exact .inl ⟨c, _, _, _, by rw [hmessage], hsocket, huser, hblocked, rfl⟩
    | leave =>
      have hmem := mem_filterMap.2 ⟨sec', h, hconnection'⟩
      rw [connection_handleExplicitLeave] at hmem
      cases hmem
    | send =>
      obtain rfl := mem_singleton.1 h
      cases hjoins
  | authenticate => cases h
  | create c u hadMember wasReconnecting =>
    unfold RoomsDO.exec at h
    dsimp only at h
    split_ifs at h with hok
    · obtain rfl := mem_singleton.1 h
      obtain rfl := of_decide_eq_true hjoins
      exact .inr (.inl ⟨_, _, _, rfl, hok, rfl⟩)
    · obtain rfl := mem_singleton.1 h
      obtain rfl := of_decide_eq_true hjoins
      exact .inr (.inl ⟨_, _, _, rfl, hok, rfl⟩)
    · cases h
  | greet =>
    obtain rfl := mem_singleton.1 h
    obtain rfl := of_decide_eq_true hjoins
    exact .inr (.inr (.inl ⟨_, _, _, rfl, rfl⟩))
  | letIn =>
    unfold RoomsDO.exec RoomsDO.letIn at h
    dsimp only at h
    split_ifs at h with hok
    · obtain rfl := mem_singleton.1 h
      obtain rfl := of_decide_eq_true hjoins
      exact .inr (.inr (.inr ⟨_, _, _, rfl, hok, rfl⟩))
    · obtain rfl := mem_singleton.1 h
      obtain rfl := of_decide_eq_true hjoins
      exact .inr (.inr (.inr ⟨_, _, _, rfl, hok, rfl⟩))
    · cases h
    · cases h
  | welcome =>
    unfold RoomsDO.exec at h
    dsimp only at h
    split_ifs at h
    · obtain rfl := mem_singleton.1 h
      cases hjoins
    · obtain rfl := mem_singleton.1 h
      cases hjoins
  | _ => cases hconnection

end Next

/-! ## Steps -/

variable {env : Settings} {s s' : RoomsDO} {e : RoomEvent}

theorem Frame.hasUser (h : Frame s s') {connectionId : String} {userId : Option String}
    (huser : HasUser s.sockets connectionId userId) : HasUser s'.sockets connectionId userId := by
  unfold HasUser
  rw [h.users]
  exact huser

theorem sockets_authenticate (connectionId userId : String) :
    (s.authenticate connectionId userId none).sockets =
      s.sockets.map fun socket =>
        if socket.connectionId = connectionId then
          { socket with
            userId := some userId
            joined := s.joinedConnectionIds.contains connectionId }
        else socket := by
  unfold RoomsDO.authenticate RoomsDO.deleteTimer
  dsimp only
  split_ifs <;> rfl

theorem users_authenticate (connectionId userId : String) :
    users (s.authenticate connectionId userId none).sockets =
      (users s.sockets).map fun p => if p.1 = connectionId then (p.1, some userId) else p := by
  rw [sockets_authenticate]
  unfold users
  rw [map_map, map_map]
  refine map_congr_left fun socket _ => ?_
  simp only [Function.comp_apply]
  split_ifs <;> rfl

theorem mem_users {sockets : List Socket} {socket : Socket} (h : socket ∈ sockets) :
    (socket.connectionId, socket.userId) ∈ users sockets :=
  mem_map_of_mem h

theorem mem_users_of_socket {connectionId : String} {socket : Socket}
    (h : s.socket connectionId = some socket) :
    (connectionId, socket.userId) ∈ users s.sockets := by
  unfold RoomsDO.socket at h
  have hid := List.find?_some h
  rw [← of_decide_eq_true hid]
  exact mem_users (List.mem_of_find?_eq_some h)

namespace Orderly

theorem hasUser_of_socket (hs : Orderly s) {connectionId : String} {socket : Socket}
    (h : s.socket connectionId = some socket) : HasUser s.sockets connectionId socket.userId := by
  intro user huser
  have hmem := mem_users_of_socket h
  exact congrArg Prod.snd (inj_on_of_nodup_map hs.nodup huser hmem rfl)

theorem connection_ne (hs : Orderly s) {sec sec' : Section} {rest : List Section}
    (hrunning : s.running.sections = sec :: rest)
    (h : sec' ∈ rest ++ s.tasks.flatMap (·.sections)) {connectionId : String}
    (hsec : sec.connection = some connectionId) : sec'.connection ≠ some connectionId := by
  intro hsec'
  have honce := hs.once
  unfold RoomsDO.pending at honce
  rw [hrunning, cons_append, filterMap_cons_some hsec] at honce
  exact (nodup_cons.1 honce).1 (mem_filterMap.2 ⟨sec', h, hsec'⟩)

end Orderly

/-- A section takes care of the socket that it is about: the others stay as they are known. -/
theorem exec_users (env : Settings) (s : RoomsDO) (ok : Bool) (sec : Section) :
    Frame s (s.exec env ok sec).1 ∨ ∃ connectionId userId,
      sec = .authenticate connectionId userId none ∧ users (s.exec env ok sec).1.sockets =
          (users s.sockets).map (fun p => if p.1 = connectionId then (p.1, some userId) else p) ∧
        (s.exec env ok sec).1.tasks = s.tasks ∧ (s.exec env ok sec).1.drawn = s.drawn := by
  have heffect := effect_exec env s ok sec
  generalize (s.exec env ok sec).1 = s' at heffect
  cases heffect with
  | steady h => exact .inl h.toFrame
  | authenticated connectionId userId =>
    have hsteady := Steady.authenticate s connectionId userId
    exact .inr ⟨connectionId, userId, rfl, users_authenticate connectionId userId, hsteady.tasks,
      hsteady.drawn⟩
  | created => exact .inl { (Steady.refl s).toFrame with }
  | ended r hr hframe => exact .inl hframe

theorem exec_tasks (env : Settings) (s : RoomsDO) (ok : Bool) (sec : Section) :
    (s.exec env ok sec).1.tasks = s.tasks := by
  rcases exec_users env s ok sec with h | ⟨_, _, _, _, h, _⟩
  · exact h.tasks
  · exact h

theorem exec_drawn (env : Settings) (s : RoomsDO) (ok : Bool) (sec : Section) :
    (s.exec env ok sec).1.drawn = s.drawn := by
  rcases exec_users env s ok sec with h | ⟨_, _, _, _, _, h⟩
  · exact h.drawn
  · exact h

theorem pending_eq {sec : Section} {rest : List Section} (h : s.running.sections = sec :: rest) :
    s.pending = sec :: (rest ++ s.tasks.flatMap (·.sections)) := by
  unfold RoomsDO.pending
  rw [h, cons_append]

theorem pending_resume (hidle : s.running.sections = []) {n : ℕ} {task : Task}
    (hn : s.tasks[n]? = some task) :
    (task.sections ++ (s.tasks.eraseIdx n).flatMap (·.sections)).Perm s.pending := by
  obtain ⟨hlt, rfl⟩ := List.getElem?_eq_some_iff.1 hn
  unfold RoomsDO.pending
  rw [hidle, nil_append]
  exact (getElem_cons_eraseIdx_perm hlt).flatMap_right _

def Section.isFirst : Section → Bool
  | .recoverStateIfNeeded | .receive _ _ | .disconnect _ _ _ => true
  | .block _ | .kickPlayer _ | .blocked _ => true
  | .recoverBeforeAlarm | .alarm => true
  | _ => false

theorem isFirst_exec {sec sec' : Section} {ok : Bool} (h : sec' ∈ (s.exec env ok sec).2.sections) :
    sec'.isFirst = false := by
  have single {sec₀ : Section} (hmem : sec' ∈ [sec₀]) (hfirst : sec₀.isFirst = false) :
      sec'.isFirst = false := mem_singleton.1 hmem ▸ hfirst
  cases sec with
  | receive connectionId message =>
    have hreceived := received_receive s connectionId message
    change sec' ∈ (s.receive connectionId message).2.sections at h
    generalize s.receive connectionId message = r at hreceived h
    cases hreceived with
    | quiet => cases h
    | authenticate => exact single h rfl
    | join => exact single h rfl
    | @leave s' _ userId =>
      unfold RoomsDO.handleExplicitLeave at h
      dsimp only at h
      split at h
      · cases h
      · rcases mem_append.1 h with h | h
        · split_ifs at h
          · cases h
          · exact single h rfl
        · exact single h rfl
    | send => exact single h rfl
  | create =>
    unfold RoomsDO.exec at h
    dsimp only at h
    split_ifs at h
    · exact single h rfl
    · exact single h rfl
    · cases h
  | letIn =>
    unfold RoomsDO.exec RoomsDO.letIn at h
    dsimp only at h
    split_ifs at h
    · exact single h rfl
    · exact single h rfl
    · cases h
    · cases h
  | runAction =>
    unfold RoomsDO.exec at h
    dsimp only at h
    split_ifs at h
    · exact single h rfl
    · cases h
  | welcome =>
    unfold RoomsDO.exec at h
    dsimp only at h
    split_ifs at h <;> exact single h rfl
  | disconnect connectionId userId code =>
    unfold RoomsDO.exec RoomsDO.handleDisconnect at h
    dsimp only at h
    split at h
    · cases h
    · split at h
      · exact single h rfl
      · have pair {sec₁ sec₂ : Section} (hmem : sec' ∈ [sec₁, sec₂])
            (h₁ : sec₁.isFirst = false) (h₂ : sec₂.isFirst = false) : sec'.isFirst = false := by
          rcases mem_pair.1 hmem with rfl | rfl
          · exact h₁
          · exact h₂
        cases code with
        | kicked => exact pair h rfl rfl
        | clientLeave => exact pair h rfl rfl
        | other =>
          dsimp only at h
          split_ifs at h
          · exact single h rfl
          · exact pair h rfl rfl
  | kickPlayer =>
    unfold RoomsDO.exec RoomsDO.kickPlayer at h
    dsimp only at h
    split_ifs at h
    · cases h
    · rcases mem_pair.1 h with rfl | rfl <;> rfl
  | forgetPlayer =>
    unfold RoomsDO.exec RoomsDO.forgetPlayer at h
    dsimp only at h
    split_ifs at h <;> exact single h rfl
  | leaveMember =>
    unfold RoomsDO.exec at h
    dsimp only at h
    split_ifs at h
    · cases h
    · exact single h rfl
    · exact single h rfl
  | alarm =>
    rcases mem_append.1 h with h | h
    · obtain ⟨timer, -, rfl⟩ := mem_map.1 h
      rfl
    · exact single h rfl
  | greet => exact single h rfl
  | finalizePlayerLeave => exact single h rfl
  | roomDestroyed => exact single h rfl
  | deleteMember => exact single h rfl
  | _ => cases h

theorem mem_pending_start {owner : Owner} {sections : List Section} {sec : Section}
    (h : sec ∈ (s.start owner sections).pending) : sec ∈ sections ∨ sec ∈ s.pending := by
  rcases mem_append.1 h with h | h
  · exact .inl h
  · exact .inr (mem_append_right _ h)

theorem mem_pending_handle {sec : Section} (hidle : s.running.sections = [])
    (h : sec ∈ (s.handle env e).pending) : sec ∈ s.pending ∨ sec.isFirst = true := by
  cases e with
  | connect =>
    unfold RoomsDO.handle at h
    dsimp only at h
    split_ifs at h <;> exact .inl h
  | message =>
    unfold RoomsDO.handle at h
    dsimp only at h
    split_ifs at h
    · exact .inl h
    · rcases mem_pending_start h with h | h
      · exact .inr (by rcases mem_pair.1 h with rfl | rfl <;> rfl)
      · exact .inl h
  | close connectionId code =>
    unfold RoomsDO.handle at h
    dsimp only at h
    split at h
    · rcases mem_pending_start h with h | h
      · obtain ⟨userId, -, rfl⟩ := mem_map.1 h
        exact .inr rfl
      · exact .inl h
    · exact .inl h
  | kick =>
    rcases mem_pending_start h with h | h
    · exact .inr (by rcases mem_pair.1 h with rfl | rfl <;> rfl)
    · exact .inl h
  | block =>
    rcases mem_pending_start h with h | h
    · simp only [mem_cons, not_mem_nil, or_false] at h
      exact .inr (by rcases h with rfl | rfl | rfl | rfl <;> rfl)
    · exact .inl h
  | alarm =>
    unfold RoomsDO.handle at h
    dsimp only at h
    split_ifs at h
    · exact .inl h
    · rcases mem_pending_start h with h | h
      · exact .inr (by rcases mem_pair.1 h with rfl | rfl <;> rfl)
      · exact .inl h
  | resume n ok =>
    unfold RoomsDO.handle at h
    dsimp only at h
    cases hn : s.tasks[n]? with
    | none =>
      rw [hn] at h
      exact .inl h
    | some task =>
      rw [hn] at h
      exact .inl ((pending_resume hidle hn).subset h)
  | flush =>
    have hquiet := quiet_flushSharedDelta s
    unfold RoomsDO.pending at h ⊢
    change sec ∈ s.flushSharedDelta.running.sections ++ _ at h
    rw [hquiet.running] at h
    change sec ∈ s.running.sections ++ s.flushSharedDelta.tasks.flatMap _ at h
    rw [hquiet.tasks] at h
    exact .inl h
  | expireState =>
    unfold RoomsDO.handle at h
    dsimp only at h
    split_ifs at h <;> exact .inl h
  | hibernate => cases h
  | _ => exact .inl h

theorem mem_pending_proceed {sec sec' : Section} {rest : List Section}
    (h : s.running.sections = sec :: rest) : sec' ∈ (s.proceed env).pending ↔
      sec' ∈ (s.exec env s.verdict sec).2.sections ∨
        sec' ∈ rest ++ s.tasks.flatMap (·.sections) := by
  obtain ⟨-, -, -, -, -, hpending⟩ := proceed_spec env h
  rw [exec_tasks] at hpending
  rw [hpending.mem_iff, mem_append]

namespace Orderly

protected theorem proceed (hs : Orderly s) {sec : Section} {rest : List Section}
    (hrunning : s.running.sections = sec :: rest) : Orderly (s.proceed env) := by
  obtain ⟨tasks, running, verdict, hproceed, htasks, hpending⟩ := proceed_spec env hrunning
  have husers := exec_users env s s.verdict sec
  have hids : (users (s.exec env s.verdict sec).1.sockets).map Prod.fst =
      (users s.sockets).map Prod.fst := by
    rcases husers with h | ⟨_, _, _, h, _, _⟩
    · rw [h.users]
    · rw [h, map_map]
      refine map_congr_left fun p _ => ?_
      simp only [Function.comp_apply]
      split_ifs <;> rfl
  rw [exec_tasks] at htasks hpending
  refine ⟨?_, ?_, ?_, ?_, ?_⟩
  · rw [hproceed]
    exact hids ▸ hs.nodup
  · rw [hproceed]
    intro connectionId hmem
    change connectionId ∈ (s.exec env s.verdict sec).1.drawn
    rw [exec_drawn]
    exact hs.drawn connectionId (hids ▸ hmem)
  · rw [hproceed]
    intro task htask sec' hsec' connectionId hconnection
    rcases htasks task htask with hmem | hnil | rfl
    · exact hs.owner task (mem_cons_of_mem _ hmem) sec' hsec' connectionId hconnection
    · rw [hnil] at hsec'
      cases hsec'
    · rcases mem_append.1 hsec' with hnext | hrest
      · have hmem : connectionId ∈ (s.exec env s.verdict sec).2.sections.filterMap
            Section.connection := mem_filterMap.2 ⟨sec', hnext, hconnection⟩
        have hsec : sec.connection = some connectionId := by
          simpa using (connection_exec env s s.verdict sec).subset hmem
        refine hs.owner s.running mem_cons_self sec ?_ connectionId hsec
        rw [hrunning]
        exact mem_cons_self
      · refine hs.owner s.running mem_cons_self sec' ?_ connectionId hconnection
        rw [hrunning]
        exact mem_cons_of_mem _ hrest
  · refine (hpending.filterMap Section.connection).nodup_iff.2 ?_
    have honce := hs.once
    rw [pending_eq hrunning] at honce
    rw [filterMap_append]
    refine List.Nodup.sublist ((connection_exec env s s.verdict sec).append (.refl _)) ?_
    cases hsec : sec.connection with
    | none => rwa [filterMap_cons_none hsec] at honce
    | some connectionId => rwa [filterMap_cons_some hsec] at honce
  · intro sec' hsec' connectionId userId hsocket
    have hknown : connectionId ∈ s.drawn ∧ HasUser s.sockets connectionId userId := by
      rcases mem_append.1 (hpending.mem_iff.1 hsec') with hnext | hmem
      · rcases socket_exec env s s.verdict hnext hsocket with hsec | ⟨-, socket, hs', rfl⟩
        · refine hs.knows sec ?_ connectionId userId hsec
          rw [pending_eq hrunning]
          exact mem_cons_self
        · exact ⟨hs.drawn _ (mem_map_of_mem (mem_users_of_socket hs')),
            hs.hasUser_of_socket hs'⟩
      · refine hs.knows sec' ?_ connectionId userId hsocket
        rw [pending_eq hrunning]
        exact mem_cons_of_mem _ hmem
    rw [hproceed]
    change connectionId ∈ (s.exec env s.verdict sec).1.drawn ∧ HasUser _ _ _
    rw [exec_drawn]
    refine ⟨hknown.1, ?_⟩
    rcases husers with h | ⟨connectionId', userId', rfl, husers, -, -⟩
    · exact h.hasUser hknown.2
    · -- Only this handler has a message of the socket that is authenticated.
      have hmem : sec' ∈ rest ++ s.tasks.flatMap (·.sections) := by
        rcases mem_append.1 (hpending.mem_iff.1 hsec') with hnext | hmem
        · cases hnext
        · exact hmem
      have hne : connectionId ≠ connectionId' := by
        rintro rfl
        exact hs.connection_ne hrunning hmem rfl (connection_of_socket hsocket)
      intro user huser
      change (connectionId, user) ∈ users (s.exec env s.verdict _).1.sockets at huser
      rw [husers] at huser
      obtain ⟨p, hp, heq⟩ := mem_map.1 huser
      split_ifs at heq with hp'
      · exact (hne (by rw [← hp', (Prod.mk.inj heq).1])).elim
      · exact hknown.2 user (heq ▸ hp)

variable (hs : Orderly s)
include hs

theorem of_frame (h : Frame s s') (hrunning : s'.running = s.running) : Orderly s' where
  nodup := by
    rw [h.users]
    exact hs.nodup
  drawn := by
    rw [h.users, h.drawn]
    exact hs.drawn
  owner := by
    rw [hrunning, h.tasks]
    exact hs.owner
  once := by
    unfold RoomsDO.pending
    rw [hrunning, h.tasks]
    exact hs.once
  knows := by
    intro sec hsec connectionId userId hsocket
    unfold RoomsDO.pending at hsec
    rw [hrunning, h.tasks] at hsec
    rw [h.drawn]
    have hknown := hs.knows sec hsec connectionId userId hsocket
    exact ⟨hknown.1, h.hasUser hknown.2⟩

theorem of_quiet (h : Quiet s s') : Orderly s' :=
  hs.of_frame (Steady.of_quiet h).toFrame h.running

theorem start (hidle : s.running.sections = []) (owner : Owner)
    {sections : List Section} (h : ∀ sec ∈ sections, sec.connection = none) :
    Orderly (s.start owner sections) where
  nodup := hs.nodup
  drawn := hs.drawn
  owner := by
    intro task htask sec hsec connectionId hconnection
    rcases mem_cons.1 htask with rfl | htask
    · rw [h sec hsec] at hconnection
      cases hconnection
    · exact hs.owner task (mem_cons_of_mem _ htask) sec hsec connectionId hconnection
  once := by
    have honce := hs.once
    unfold RoomsDO.pending at honce ⊢
    rw [hidle, nil_append] at honce
    rw [RoomsDO.start_running_sections, filterMap_append, filterMap_eq_nil_iff.2 h]
    exact honce
  knows := by
    intro sec hsec connectionId userId hsocket
    rcases mem_append.1 hsec with hsec | hsec
    · have hconnection := connection_of_socket hsocket
      rw [h sec hsec] at hconnection
      cases hconnection
    · exact hs.knows sec (mem_append_right _ hsec) connectionId userId hsocket

theorem start_message (hidle : s.running.sections = []) {connectionId : String}
    (hbusy : s.busy (.socket connectionId) = false) (message : Message) :
    Orderly (s.start (.socket connectionId)
      [.recoverStateIfNeeded, .receive connectionId message]) where
  nodup := hs.nodup
  drawn := hs.drawn
  owner := by
    intro task htask sec hsec connectionId' hconnection
    rcases mem_cons.1 htask with rfl | htask
    · rcases mem_cons.1 hsec with rfl | hsec
      · cases hconnection
      · obtain rfl := mem_singleton.1 hsec
        exact congrArg Owner.socket (Option.some.inj hconnection)
    · exact hs.owner task (mem_cons_of_mem _ htask) sec hsec connectionId' hconnection
  once := by
    have honce := hs.once
    unfold RoomsDO.pending at honce ⊢
    rw [hidle, nil_append] at honce
    refine nodup_cons.2 ⟨fun hmem => ?_, honce⟩
    obtain ⟨sec, hsec, hconnection⟩ := mem_filterMap.1 hmem
    obtain ⟨task, htask, hsec⟩ := mem_flatMap.1 hsec
    have howner := hs.owner task (mem_cons_of_mem _ htask) sec hsec connectionId hconnection
    have hany : s.busy (.socket connectionId) = true :=
      any_eq_true.2 ⟨task, htask, by simpa using howner⟩
    rw [hbusy] at hany
    cases hany
  knows := by
    intro sec hsec connectionId' userId hsocket
    rcases mem_append.1 hsec with hsec | hsec
    · rcases mem_cons.1 hsec with rfl | hsec
      · cases hsocket
      · obtain rfl := mem_singleton.1 hsec
        cases hsocket
    · exact hs.knows sec (mem_append_right _ hsec) connectionId' userId hsocket

theorem close (connectionId : String) :
    Orderly { s with sockets := s.sockets.filter (·.connectionId ≠ connectionId) } := by
  have hsub : (users (s.sockets.filter (·.connectionId ≠ connectionId))).Sublist
      (users s.sockets) := (filter_sublist).map _
  refine ⟨hs.nodup.sublist (hsub.map _), fun c hc => hs.drawn c ((hsub.map _).subset hc), hs.owner,
    hs.once, fun sec hsec c userId hsocket => ?_⟩
  obtain ⟨hdrawn, huser⟩ := hs.knows sec hsec c userId hsocket
  exact ⟨hdrawn, fun user hmem => huser user (hsub.subset hmem)⟩

theorem connect {connectionId : String} (h : connectionId ∉ s.drawn) :
    Orderly { s with
      sockets := s.sockets ++ [{ connectionId }]
      drawn := s.drawn ++ [connectionId] } := by
  have husers : users (s.sockets ++ [({ connectionId } : Socket)]) =
      users s.sockets ++ [(connectionId, none)] := map_append
  have hids : (users (s.sockets ++ [({ connectionId } : Socket)])).map Prod.fst =
      (users s.sockets).map Prod.fst ++ [connectionId] := by
    rw [husers, map_append]
    rfl
  refine ⟨?_, fun c hc => ?_, hs.owner, hs.once, fun sec hsec c userId hsocket => ?_⟩
  · rw [hids]
    exact nodup_append_comm.1 (nodup_cons.2 ⟨fun hmem => h (hs.drawn _ hmem), hs.nodup⟩)
  · rw [hids] at hc
    rcases mem_append.1 hc with hc | hc
    · exact mem_append_left _ (hs.drawn c hc)
    · exact mem_append_right _ hc
  · obtain ⟨hdrawn, huser⟩ := hs.knows sec hsec c userId hsocket
    refine ⟨mem_append_left _ hdrawn, fun user hmem => ?_⟩
    rw [husers] at hmem
    rcases mem_append.1 hmem with hmem | hmem
    · exact huser user hmem
    · obtain ⟨rfl, -⟩ := Prod.mk.inj (mem_singleton.1 hmem)
      exact (h hdrawn).elim

theorem resume (hidle : s.running.sections = []) {n : ℕ} {task : Task}
    (hn : s.tasks[n]? = some task) (ok : Bool) :
    Orderly { s with tasks := s.tasks.eraseIdx n, running := task, verdict := ok } := by
  have hperm : (task :: s.tasks.eraseIdx n).Perm s.tasks := by
    obtain ⟨hlt, rfl⟩ := List.getElem?_eq_some_iff.1 hn
    exact getElem_cons_eraseIdx_perm hlt
  have hpending := pending_resume hidle hn
  refine ⟨hs.nodup, hs.drawn, fun task' htask' => ?_, ?_, fun sec hsec => ?_⟩
  · exact hs.owner task' (mem_cons_of_mem _ (hperm.subset htask'))
  · exact (hpending.filterMap _).nodup_iff.2 hs.once
  · exact hs.knows sec (hpending.subset hsec)

theorem handle (hidle : s.running.sections = []) : Orderly (s.handle env e) := by
  cases e with
  | connect connectionId =>
    unfold RoomsDO.handle
    dsimp only
    split_ifs with hfull
    · exact hs
    · exact hs.connect fun hmem => hfull (.inl (by simpa using hmem))
  | message connectionId message =>
    unfold RoomsDO.handle
    dsimp only
    split_ifs with hbusy
    · exact hs
    · exact hs.start_message hidle (by simpa using hbusy) message
  | close connectionId code =>
    unfold RoomsDO.handle
    dsimp only
    cases hsocket : s.socket connectionId with
    | none => exact hs
    | some socket =>
      refine (hs.close connectionId).start hidle .api fun sec hsec => ?_
      obtain ⟨userId, -, rfl⟩ := mem_map.1 hsec
      rfl
  | drop => exact hs.of_quiet (quiet_closeSockets s _)
  | kick userId =>
    refine hs.start hidle .api fun sec hsec => ?_
    rcases mem_pair.1 hsec with rfl | rfl <;> rfl
  | block userId =>
    refine hs.start hidle .api fun sec hsec => ?_
    simp only [mem_cons, not_mem_nil, or_false] at hsec
    rcases hsec with rfl | rfl | rfl | rfl <;> rfl
  | alarm =>
    unfold RoomsDO.handle
    dsimp only
    split_ifs
    · exact hs
    · refine hs.start hidle .alarm fun sec hsec => ?_
      rcases mem_pair.1 hsec with rfl | rfl <;> rfl
  | resume n ok =>
    unfold RoomsDO.handle
    dsimp only
    cases hn : s.tasks[n]? with
    | none => exact hs
    | some task => exact hs.resume hidle hn ok
  | proceed => exact hs
  | setSharedState => exact hs.of_frame { (Steady.refl s).toFrame with } rfl
  | setPlayerState => exact hs.of_frame { (Steady.refl s).toFrame with } rfl
  | flush => exact hs.of_quiet (quiet_flushSharedDelta s)
  | sendMessage => exact hs.of_quiet (quiet_sendFrame s _ _)
  | sendMessageTo => exact hs.of_quiet (quiet_sendFrame s _ _)
  | saveState => exact hs.of_frame { (Steady.refl s).toFrame with } rfl
  | expireState =>
    unfold RoomsDO.handle
    dsimp only
    split_ifs
    · exact hs.of_frame { (Steady.refl s).toFrame with } rfl
    · exact hs
  | hibernate =>
    refine ⟨hs.nodup, hs.drawn, fun task htask sec hsec => ?_, nodup_nil, forall_mem_nil _⟩
    obtain rfl := mem_singleton.1 htask
    cases hsec
  | tick => exact hs.of_frame { (Steady.refl s).toFrame with } rfl

omit hs

protected theorem step (hs : Orderly s) (e : RoomEvent) : Orderly (s.step env e) := by
  cases hrunning : s.running.sections with
  | nil =>
    rw [step_eq_handle env e hrunning]
    exact hs.handle hrunning
  | cons sec rest =>
    rcases step_eq_proceed env e hrunning with hstep | ⟨rfl, hstep⟩ <;> rw [hstep]
    · exact hs
    · exact hs.proceed hrunning

theorem init : Orderly {} where
  nodup := nodup_nil
  drawn := forall_mem_nil _
  owner := by
    intro task htask sec hsec
    obtain rfl := mem_singleton.1 htask
    cases hsec
  once := nodup_nil
  knows := forall_mem_nil _

end Orderly

end Rooms

end EdgeBase
