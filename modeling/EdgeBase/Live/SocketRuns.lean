import EdgeBase.Live.Sockets

/-!
# The identity behind subscriptions

The handlers of the messages of a socket run in turns.  A channel may be accepted for one user and
subscribed for another, if the socket signs in again meanwhile.

* `Orderly` : no channel is subscribed for another user than it was asked for, no user is replaced
  without the loop over the channels, and no update is applied by half.
* `matches_run` : orderly runs.
-/

namespace EdgeBase.LiveSockets

open List

abbrev System := Handlers.System Socket Empty Section Answer

abbrev Action := Handlers.Action Event Answer

/-- The memory is lost when nothing is left to do. -/
def step (secret : Bool) (s : System) : Action → System
  | .restart => if s.pending = [] then s.step (machine secret) .restart else s
  | action => s.step (machine secret) action

def init (connectionId : String) : System where
  state := { memory := { connectionId := connectionId } }
  returned := default

/-! ## What is to hold -/

/-- Every channel was accepted for the user and the role, and the attachment is up to date. -/
def Matches (s : Socket) : Prop :=
  (∀ channel ∈ s.memory.subscribedChannels, (channel, s.memory.identity) ∈ s.accepted) ∧
    s.memory = s.restored

instance (s : Socket) : Decidable (Matches s) := inferInstanceAs (Decidable (_ ∧ _))

def OrderlyIn (s : Socket) (answer : Answer) : Section → Prop
  | .subscribed channel asked _ _ =>
    answer.passes = true →
      channel ∈ s.memory.subscribedChannels ∨ asked = none ∨ asked = some s.memory.identity
  | .authorized isReAuth _ userId _ role =>
    answer.active = .active →
      isReAuth = true ∨ s.memory.subscribedChannels = [] ∨ s.memory.identity = ⟨some userId, role⟩
  | .dispatch message => ¬HalfApplied s message
  | _ => True

def decidableOk {α ε : Type} {p : α → Prop} [∀ a, Decidable (p a)] :
    (x : Except ε α) → Decidable (∃ a, x = .ok a ∧ p a)
  | .ok a => decidable_of_iff (p a) ⟨fun h => ⟨a, rfl, h⟩, fun ⟨_, h, hp⟩ => Except.ok.inj h ▸ hp⟩
  | .error _ => .isFalse fun ⟨_, h, _⟩ => by cases h

def decidableError {α ε : Type} : (x : Except ε α) → Decidable (∃ e, x = .error e)
  | .ok _ => .isFalse fun ⟨_, h⟩ => by cases h
  | .error e => .isTrue ⟨e, rfl⟩

def decidableHalfApplied (s : Socket) : (message : Message) → Decidable (HalfApplied s message)
  | .updateFilters channel filters orFilters =>
    have := @decidableOk _ _ (· ≠ s.memory.channelFilters) (fun _ => inferInstance)
      (updateGroup s.memory.channelFilters channel "Filters" filters)
    have := decidableError (updateGroup s.memory.channelOrFilters channel "OR filters" orFilters)
    inferInstanceAs (Decidable (_ ∧ _ ∧ _ ∧ _))
  | .auth _ _ | .subscribe _ _ _ | .unsubscribe _ | .ping | .other _ =>
    inferInstanceAs (Decidable False)

instance (s : Socket) (answer : Answer) (sec : Section) : Decidable (OrderlyIn s answer sec) :=
  match sec with
  | .subscribed _ _ _ _ => inferInstanceAs (Decidable (_ → _))
  | .authorized _ _ _ _ _ => inferInstanceAs (Decidable (_ → _))
  | .dispatch message => have := decidableHalfApplied s message; inferInstanceAs (Decidable (¬_))
  | .auth _ _ | .verified _ _ | .reevaluate _ _ _ | .reevaluated _ _ _ _ _ | .receive _
  | .checked _ => inferInstanceAs (Decidable True)

def Orderly (s : System) (action : Action) : Prop :=
  action = .proceed → ∀ sec ∈ s.current, OrderlyIn s.state s.returned sec

instance (s : System) (action : Action) : Decidable (Orderly s action) :=
  inferInstanceAs (Decidable (_ → _))

/-! ## The invariant -/

/-- The loop that asks for the channel, or has asked for the user. -/
def Covers (identity : Identity) (channel : String) : Section → Prop
  | .reevaluate _ channels _ => channel ∈ channels
  | .reevaluated _ asking asked channels _ =>
    channel ∈ channels ∨ channel = asking ∧ (asked = none ∨ asked = some identity)
  | _ => False

/-- The loop will bring the attachment up to date. -/
def Loops : Section → Prop
  | .reevaluate _ _ _ | .reevaluated _ _ _ _ _ => True
  | _ => False

/-- Between two sections: what is not accepted yet is asked for, and what is not attached yet will
be. -/
structure Inv (s : Socket) (pending : List Section) : Prop where
  covered : ∀ channel ∈ s.memory.subscribedChannels,
    (channel, s.memory.identity) ∈ s.accepted ∨
      ∃ sec ∈ pending, Covers s.memory.identity channel sec
  attached : s.memory = s.restored ∨ ∃ sec ∈ pending, Loops sec

section

variable {secret : Bool} {s s' : Socket} {pending others : List Section} {sec : Section}
  {answer : Answer}

theorem Inv.mono (h : Inv s pending) (hsub : pending ⊆ others) : Inv s others where
  covered channel hchannel := (h.covered channel hchannel).imp_right fun ⟨sec, hsec, hcovers⟩ =>
    ⟨sec, hsub hsec, hcovers⟩
  attached := h.attached.imp_right fun ⟨sec, hsec, hloops⟩ => ⟨sec, hsub hsec, hloops⟩

theorem Inv.tail (h : Inv s (sec :: others)) (hloops : ¬Loops sec) : Inv s others where
  covered channel hchannel := by
    rcases h.covered channel hchannel with haccepted | ⟨sec', hsec', hcovers⟩
    · exact .inl haccepted
    · rcases mem_cons.1 hsec' with rfl | hsec'
      · refine absurd ?_ hloops
        cases sec' with
        | reevaluate => trivial
        | reevaluated => trivial
        | _ => exact hcovers.elim
      · exact .inr ⟨sec', hsec', hcovers⟩
  attached := by
    rcases h.attached with hattached | ⟨sec', hsec', hloops'⟩
    · exact .inl hattached
    · rcases mem_cons.1 hsec' with rfl | hsec'
      · exact absurd hloops' hloops
      · exact .inr ⟨sec', hsec', hloops'⟩

theorem Inv.send (h : Inv s pending) (frame : Frame) : Inv (s.send frame) pending :=
  ⟨h.covered, h.attached⟩

theorem Inv.setWSMeta (h : Inv s pending) {socket : WSMeta}
    (hidentity : socket.identity = s.memory.identity)
    (hchannels : socket.subscribedChannels ⊆ s.memory.subscribedChannels) :
    Inv (s.setWSMeta socket) pending where
  covered channel hchannel := by
    have hcovered := h.covered channel (hchannels hchannel)
    rw [← hidentity] at hcovered
    exact hcovered
  attached := .inl rfl

theorem Inv.revoke (h : Inv s pending) (text : String) :
    Inv (revokeLiveSession s text) pending := by
  have hset : Inv (s.setWSMeta { s.memory with authenticated := false }) pending :=
    h.setWSMeta rfl (List.Subset.refl _)
  exact hset.send _

theorem subscribedChannels_without (socket : WSMeta) (channel : String) :
    (socket.without channel).subscribedChannels ⊆ socket.subscribedChannels :=
  filter_subset_self _

theorem identity_signedIn (socket : WSMeta) (sdkVersion : Option String)
    (userId sessionId : String) (role : Option String) :
    (socket.signedIn sdkVersion userId sessionId role).identity = ⟨some userId, role⟩ := by
  unfold WSMeta.signedIn
  dsimp only
  cases LiveChannels.truthy sdkVersion <;> rfl

theorem channels_signedIn (socket : WSMeta) (sdkVersion : Option String)
    (userId sessionId : String) (role : Option String) :
    (socket.signedIn sdkVersion userId sessionId role).subscribedChannels =
      socket.subscribedChannels :=
  (Prod.mk.inj (view_signedIn socket sdkVersion userId sessionId role)).1

/-! ### The sections -/

def InvNext (others : List Section) (result : Socket × Next) : Prop :=
  Inv result.1 (result.2.sections ++ others)

variable (h : Inv s others)
include h

theorem Inv.of_send (frame : Frame) (sections : List Section) :
    Inv (s.send frame) (sections ++ others) :=
  (h.send frame).mono (subset_append_right _ _)

theorem Inv.failAuth (isReAuth : Bool) :
    InvNext others (failAuth s isReAuth) := h.of_send _ []

theorem Inv.handleAuth (token : String) (sdkVersion : Option String) :
    InvNext others (handleAuth secret s token sdkVersion) := by
  unfold LiveSockets.handleAuth
  split_ifs
  · exact h.of_send _ []
  · exact h.mono (subset_append_right _ _)
  · exact h.of_send _ []

theorem Inv.handleVerified (isReAuth : Bool) (sdkVersion : Option String) :
    InvNext others (handleVerified s answer isReAuth sdkVersion) := by
  unfold LiveSockets.handleVerified
  split
  · exact h.failAuth isReAuth
  · split
    · exact h.failAuth isReAuth
    · exact h.failAuth isReAuth
    · exact h.mono (subset_append_right _ _)

theorem Inv.handleAuthorized {isReAuth : Bool} {sdkVersion : Option String}
    {userId sessionId : String} {role : Option String}
    (horderly : OrderlyIn s answer (.authorized isReAuth sdkVersion userId sessionId role)) :
    InvNext others (handleAuthorized s answer isReAuth sdkVersion userId sessionId role) := by
  unfold LiveSockets.handleAuthorized
  split
  · exact h.of_send _ []
  · exact h.failAuth isReAuth
  · next hactive =>
    dsimp only
    split_ifs with hreauth
    · refine ⟨fun channel hchannel => .inr ⟨_, mem_cons_self, ?_⟩, .inl rfl⟩
      exact hchannel
    · have hset : Inv (s.setWSMeta (s.memory.signedIn sdkVersion userId sessionId role))
          others := by
        rcases horderly hactive with hreauth' | hempty | hidentity
        · exact absurd hreauth' hreauth
        · refine ⟨fun channel hchannel => ?_, .inl rfl⟩
          change channel ∈ (s.memory.signedIn _ _ _ _).subscribedChannels at hchannel
          rw [channels_signedIn, hempty] at hchannel
          exact absurd hchannel not_mem_nil
        · refine h.setWSMeta ?_ fun channel hchannel => ?_
          · rw [identity_signedIn, hidentity]
          · rw [channels_signedIn] at hchannel
            exact hchannel
      exact hset.of_send _ []

omit h

theorem Inv.handleReevaluate {userId : String} {channels revokedChannels : List String}
    (h : Inv s (.reevaluate userId channels revokedChannels :: others)) :
    InvNext others (handleReevaluate s userId channels revokedChannels) := by
  cases channels with
  | nil =>
    have hset : Inv (s.setWSMeta s.memory) others := by
      refine ⟨fun channel hchannel => ?_, .inl rfl⟩
      refine (h.covered channel hchannel).imp_right fun ⟨sec, hsec, hcovers⟩ => ?_
      rcases mem_cons.1 hsec with rfl | hsec
      · exact absurd hcovers not_mem_nil
      · exact ⟨sec, hsec, hcovers⟩
    exact hset.of_send _ []
  | cons asking channels =>
    refine ⟨fun channel hchannel => ?_, .inr ⟨_, mem_cons_self, trivial⟩⟩
    refine (h.covered channel hchannel).imp_right fun ⟨sec, hsec, hcovers⟩ => ?_
    rcases mem_cons.1 hsec with rfl | hsec
    · refine ⟨_, mem_cons_self, ?_⟩
      rcases mem_cons.1 hcovers with rfl | hmem
      · refine .inr ⟨rfl, ?_⟩
        unfold askAccess
        split_ifs
        · exact .inr rfl
        · exact .inl rfl
      · exact .inl hmem
    · exact ⟨sec, mem_cons_of_mem _ hsec, hcovers⟩

theorem Inv.handleReevaluated {userId asking : String} {asked : Option Identity}
    {channels revokedChannels : List String}
    (h : Inv s (.reevaluated userId asking asked channels revokedChannels :: others)) :
    InvNext others (handleReevaluated s answer userId asking asked channels revokedChannels) := by
  unfold LiveSockets.handleReevaluated
  cases haccept : s.accept asking asked answer with
  | none =>
    refine ⟨fun channel hchannel => ?_, .inr ⟨_, mem_cons_self, trivial⟩⟩
    obtain ⟨hchannel, hne⟩ := mem_filter.1 hchannel
    refine (h.covered channel hchannel).imp_right fun ⟨sec, hsec, hcovers⟩ => ?_
    rcases mem_cons.1 hsec with rfl | hsec
    · refine ⟨_, mem_cons_self, ?_⟩
      rcases hcovers with hmem | ⟨heq, -⟩
      · exact hmem
      · exact absurd heq (of_decide_eq_true hne)
    · exact ⟨sec, mem_cons_of_mem _ hsec, hcovers⟩
  | some s₁ =>
    obtain ⟨identity, rfl, rfl⟩ := accept_eq_some haccept
    refine ⟨fun channel hchannel => ?_, .inr ⟨_, mem_cons_self, trivial⟩⟩
    rcases h.covered channel hchannel with haccepted | ⟨sec, hsec, hcovers⟩
    · exact .inl (mem_cons_of_mem _ haccepted)
    · rcases mem_cons.1 hsec with rfl | hsec
      · rcases hcovers with hmem | ⟨rfl, hnone | hsome⟩
        · exact .inr ⟨_, mem_cons_self, hmem⟩
        · cases hnone
        · refine .inl (mem_cons.2 (.inl ?_))
          rw [Option.some.inj hsome]
      · exact .inr ⟨sec, mem_cons_of_mem _ hsec, hcovers⟩

variable (h : Inv s others)
include h

theorem Inv.handleReceive (message : Message) : InvNext others (handleReceive s message) := by
  unfold LiveSockets.handleReceive
  split_ifs
  · exact h.revoke _
  · exact h.mono (subset_append_right _ _)
  · exact h.of_send _ []

theorem Inv.handleChecked (message : Message) :
    InvNext others (handleChecked s answer message) := by
  unfold LiveSockets.handleChecked
  split
  · exact h.mono (subset_append_right _ _)
  · exact h.revoke _
  · exact h.of_send _ []

theorem Inv.handleSubscribe (channel : String) (filters orFilters : Option Json) :
    InvNext others (handleSubscribe s channel filters orFilters) := by
  unfold LiveSockets.handleSubscribe
  split_ifs
  · exact h.of_send _ []
  · split
    · exact h.of_send _ []
    · split
      · exact h.of_send _ []
      · exact h.mono (subset_append_right _ _)
  · exact h.of_send _ []

/-- A channel is subscribed for the user it was asked for, unless it is subscribed already. -/
theorem Inv.handleSubscribed {channel : String} {asked : Option Identity}
    {filters orFilters : Option (List FilterCondition)}
    (horderly : OrderlyIn s answer (.subscribed channel asked filters orFilters)) :
    InvNext others (handleSubscribed s answer channel asked filters orFilters) := by
  unfold LiveSockets.handleSubscribed
  cases haccept : s.accept channel asked answer with
  | none => exact h.of_send _ []
  | some s₁ =>
    have hpasses := passes_of_accept haccept
    obtain ⟨identity, rfl, rfl⟩ := accept_eq_some haccept
    refine Inv.of_send ⟨fun other hother => ?_, .inl rfl⟩ _ []
    have hold : other ∈ s.memory.subscribedChannels ∨
        other = channel ∧ channel ∉ s.memory.subscribedChannels := by
      change other ∈ (if channel ∈ s.memory.subscribedChannels then _ else _) at hother
      split_ifs at hother with hmem
      · exact .inl hother
      · rcases mem_append.1 hother with hother | hother
        · exact .inl hother
        · exact .inr ⟨mem_singleton.1 hother, hmem⟩
    rcases hold with hold | ⟨rfl, hnew⟩
    · exact (h.covered other hold).imp_left (mem_cons_of_mem _)
    · rcases horderly hpasses with hmem | hnone | hsome
      · exact absurd hmem hnew
      · cases hnone
      · refine .inl (mem_cons.2 (.inl ?_))
        rw [Option.some.inj hsome]
        rfl

theorem Inv.handleUnsubscribe (channel : String) : Inv (handleUnsubscribe s channel) others := by
  have hset : Inv (s.setWSMeta (s.memory.without channel)) others :=
    h.setWSMeta rfl (subscribedChannels_without _ _)
  exact hset.send _

theorem Inv.handleUpdateFilters {channel : String} {filters orFilters : Option Json}
    (hhalf : ¬HalfApplied s (.updateFilters channel filters orFilters)) :
    Inv (handleUpdateFilters s channel filters orFilters) others := by
  unfold LiveSockets.handleUpdateFilters
  split_ifs with hchannel
  · exact h.send _
  · obtain ⟨hne, hsubscribed⟩ := not_or.1 hchannel
    split
    · exact h.send _
    · next channelFilters hfilters =>
      dsimp only
      split
      · next error horFilters =>
        have hsame : channelFilters = s.memory.channelFilters := by
          by_contra hchanged
          exact hhalf ⟨hne, not_not.1 hsubscribed, ⟨channelFilters, hfilters, hchanged⟩, error,
            horFilters⟩
        subst hsame
        exact h.send _
      · next channelOrFilters horFilters =>
        have hset : Inv (s.setWSMeta { s.memory with
            channelFilters := channelFilters, channelOrFilters := channelOrFilters }) others :=
          h.setWSMeta rfl (List.Subset.refl _)
        exact hset.send _

theorem Inv.handleDispatch {message : Message}
    (hhalf : ¬HalfApplied s message) : InvNext others (handleDispatch s message) := by
  cases message with
  | subscribe channel filters orFilters => exact h.handleSubscribe channel filters orFilters
  | unsubscribe channel => exact h.handleUnsubscribe channel
  | updateFilters channel filters orFilters => exact h.handleUpdateFilters hhalf
  | _ => exact h.of_send _ []

omit h

/-! ### The steps -/

theorem Inv.exec (h : Inv s (sec :: others)) (horderly : OrderlyIn s answer sec) :
    InvNext others (exec secret s answer sec) := by
  cases sec with
  | auth token sdkVersion => exact (h.tail id).handleAuth token sdkVersion
  | verified isReAuth sdkVersion => exact (h.tail id).handleVerified isReAuth sdkVersion
  | authorized isReAuth sdkVersion userId sessionId role =>
    exact (h.tail id).handleAuthorized horderly
  | reevaluate userId channels revokedChannels => exact h.handleReevaluate
  | reevaluated userId channel asked channels revokedChannels => exact h.handleReevaluated
  | receive message => exact (h.tail id).handleReceive message
  | checked message => exact (h.tail id).handleChecked message
  | dispatch message => exact (h.tail id).handleDispatch horderly
  | subscribed channel asked filters orFilters => exact (h.tail id).handleSubscribed horderly

end

section

variable {secret : Bool} {s : System} {action : Action}

theorem Inv.step (h : Inv s.state s.pending) (horderly : Orderly s action) :
    Inv (step secret s action).state (step secret s action).pending := by
  have hsteps (hidle : action = .restart → s.pending = []) :
      Inv (s.step (machine secret) action).state (s.step (machine secret) action).pending := by
    refine Handlers.step_induction (m := machine secret)
      (fun hperm hinv => hinv.mono hperm.subset) (fun event _ _ => ?_)
      (fun sec hproceed hsec => ?_) (fun hrestart => ?_) h
    · cases event with
      | message message => exact h.mono (subset_append_right _ _)
      | revoke message => exact h.revoke message
    · rw [Handlers.System.pending_eq hsec] at h
      exact h.exec (horderly hproceed sec hsec)
    · rw [hidle hrestart] at h
      obtain hattached := h.attached.resolve_right fun ⟨_, hmem, _⟩ => not_mem_nil hmem
      change Inv { s.state with memory := s.state.restored } []
      rw [← hattached]
      exact h
  unfold LiveSockets.step
  split
  · split_ifs with hidle
    · exact hsteps fun _ => hidle
    · exact h
  · next hne => exact hsteps fun hrestart => absurd hrestart hne

theorem Inv.init (connectionId : String) :
    Inv (init connectionId).state (init connectionId).pending :=
  ⟨fun _ h => absurd h not_mem_nil, .inl rfl⟩

theorem Inv.matches_of_idle (h : Inv s.state s.pending) (hidle : s.pending = []) :
    Matches s.state := by
  rw [hidle] at h
  refine ⟨fun channel hchannel => ?_, ?_⟩
  · exact (h.covered channel hchannel).resolve_right fun ⟨_, hmem, _⟩ => not_mem_nil hmem
  · exact h.attached.resolve_right fun ⟨_, hmem, _⟩ => not_mem_nil hmem

end

/-! ### A subscription that outlives its user -/

/-- A message, up to the end of its first wait. -/
def signIn (n : ℕ) (userId : String) : List Action :=
  [.event (.message (.auth "token" none)), .proceed,
    .resume n (.verified (some ⟨userId, some "session", none⟩)), .proceed,
    .resume n (.authority .active), .proceed]

/-- A subscription, up to the wait for the rule of its channel. -/
def subscribe (channel : String) : List Action :=
  [.event (.message (.subscribe channel none none)), .proceed,
    .resume 0 (.authority .active), .proceed, .resume 0 .nothing, .proceed]

def allow : List Action := [.resume 0 (.allowed true), .proceed]

def following : List Action := signIn 0 "ada" ++ subscribe "dblive:shared:posts" ++ allow

/-- Someone else signs in while the rule is asked, and the channel is subscribed for her. -/
def outliving : List Action :=
  signIn 0 "ada" ++ subscribe "dblive:shared:posts" ++ signIn 1 "eve" ++ [.proceed] ++ allow

end EdgeBase.LiveSockets
