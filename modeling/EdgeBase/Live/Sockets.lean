import EdgeBase.Lib.Assoc
import EdgeBase.Lib.Handlers
import EdgeBase.Live.ChannelNames
import EdgeBase.Live.Hub

/-!
# The messages of a live socket

A socket subscribes to channels, changes its filters, and signs in again.  The hub keeps what it
knows of a socket in memory and in an attachment that outlives the memory.  A handler waits for the
authority of the session and for the rule of a channel, and other messages are handled meanwhile.

* `exec`, `machine` : the handlers, section by section.
* `fair_iff` : when that is so.
-/

namespace EdgeBase.LiveSockets

open List Option Handlers

open LiveChannels (truthy isDbLiveChannel)
open LiveHub (Authority)

/-! ### Sockets -/

abbrev FilterCondition := String × FilterOperator × Option Json

/-- The filters of channels, a `Map`. -/
abbrev ChannelFilters := List (String × List FilterCondition)

structure WSMeta where
  authenticated : Bool := false
  userId : Option String := none
  sessionId : Option String := none
  role : Option String := none
  connectionId : String
  subscribedChannels : List String := []
  channelFilters : ChannelFilters := []
  channelOrFilters : ChannelFilters := []
  sdkVersion : Option String := none
  supportsBatch : Bool := false
  deriving DecidableEq

structure Identity where
  userId : Option String
  role : Option String
  deriving DecidableEq

def WSMeta.identity (socket : WSMeta) : Identity := ⟨socket.userId, socket.role⟩

inductive Frame where
  | error (code message : String)
  | authSuccess (userId : String)
  | authRefreshed (userId : String) (revokedChannels : List String)
  | subscribed (channel : String) (serverFilter : Bool)
  | unsubscribed (channel : String)
  | filtersUpdated (channel : String) (serverFilter : Bool)
  | pong
  deriving DecidableEq

structure Socket where
  memory : WSMeta
  attachment : Option WSMeta := none
  sent : List Frame := []
  /-- The answers of `evaluateChannelAccess` that let a channel pass, and for whom. -/
  accepted : List (String × Identity) := []
  deriving DecidableEq

def Socket.send (s : Socket) (frame : Frame) : Socket := { s with sent := s.sent ++ [frame] }

def Socket.setWSMeta (s : Socket) (socket : WSMeta) : Socket :=
  { s with memory := socket, attachment := some socket }

/-- What `getWSMeta` finds when the memory is gone: the attachment, or what the tags say. -/
def Socket.restored (s : Socket) : WSMeta :=
  s.attachment.getD { connectionId := s.memory.connectionId }

/-! ### Filters -/

def MAX_FILTER_CONDITIONS : ℕ := 5

/-- `none` is `undefined`, `some none` is `null`. -/
def normalizeDatabaseLiveFilterPayload (input : Option Json) (label : String) :
    Except String (Option (Option (List FilterCondition))) :=
  match input with
  | none => .ok none
  | some .null => .ok (some none)
  | some (.arr items) =>
    if MAX_FILTER_CONDITIONS < items.length then
      .error (label ++ " must be an array with at most 5 conditions")
    else
      match items.mapM LiveFilters.normalizeFilterCondition with
      | none =>
        .error (label ++
          " must contain [field, op, value] tuples or \x7b field, op, value \x7d objects")
      | some conditions => .ok (some (some conditions))
  | some (.obj fields) =>
    match LiveFilters.normalizeFilterCondition (.obj fields) with
    | some condition => .ok (some (some [condition]))
    | none =>
      if MAX_FILTER_CONDITIONS < fields.length then
        .error (label ++ " must define at most 5 equality conditions")
      else .ok (some (some (fields.map fun field => (field.1, .eq, some field.2))))
  | some _ => .error (label ++ " must be an array, a filter object, or an equality map")

def deleteKey (filters : ChannelFilters) (channel : String) : ChannelFilters :=
  filters.filter fun entry => entry.1 ≠ channel

def putFilters (filters : ChannelFilters) (channel : String)
    (value : Option (List FilterCondition)) : ChannelFilters :=
  match value with
  | some (condition :: conditions) => Assoc.set filters channel (condition :: conditions)
  | _ => deleteKey filters channel

/-! ### Messages -/

inductive Message where
  | auth (token : String) (sdkVersion : Option String)
  | subscribe (channel : String) (filters orFilters : Option Json)
  | unsubscribe (channel : String)
  | updateFilters (channel : String) (filters orFilters : Option Json)
  | ping
  | other (type : String)
  deriving DecidableEq

structure Claims where
  sub : String
  sid : Option String
  role : Option String
  deriving DecidableEq

inductive Answer where
  | nothing
  | verified (claims : Option Claims)
  | authority (authority : Authority)
  | allowed (allowed : Bool)
  deriving DecidableEq

instance : Inhabited Answer := ⟨.nothing⟩

def Answer.claims : Answer → Option Claims
  | .verified claims => claims
  | _ => none

def Answer.active : Answer → Authority
  | .authority answer => answer
  | _ => .unavailable

def Answer.passes : Answer → Bool
  | .allowed passes => passes
  | _ => false

/-- A handler between two waits. -/
inductive Section where
  | auth (token : String) (sdkVersion : Option String)
  | verified (isReAuth : Bool) (sdkVersion : Option String)
  | authorized (isReAuth : Bool) (sdkVersion : Option String) (userId sessionId : String)
    (role : Option String)
  | reevaluate (userId : String) (channels revokedChannels : List String)
  | reevaluated (userId : String) (channel : String) (asked : Option Identity)
    (channels revokedChannels : List String)
  | receive (message : Message)
  | checked (message : Message)
  | dispatch (message : Message)
  | subscribed (channel : String) (asked : Option Identity)
    (filters orFilters : Option (List FilterCondition))
  deriving DecidableEq

abbrev Next := Handlers.Next Section

/-- The call of `evaluateChannelAccess`: whom the rule is asked for, if it is. -/
def askAccess (socket : WSMeta) (channel : String) : Option Identity :=
  if socket.authenticated ∧ (truthy socket.userId).isSome ∧ isDbLiveChannel channel then
    some socket.identity
  else none

/-- What `evaluateChannelAccess` returns, and what is remembered of it. -/
def Socket.accept (s : Socket) (channel : String) (asked : Option Identity) (answer : Answer) :
    Option Socket :=
  match asked with
  | none => none
  | some identity =>
    if answer.passes then some { s with accepted := (channel, identity) :: s.accepted } else none

def revokeLiveSession (s : Socket) (message : String) : Socket :=
  (s.setWSMeta { s.memory with authenticated := false }).send (.error "SESSION_REVOKED" message)

/-! ### Signing in -/

def AUTHORITY_UNAVAILABLE : Frame :=
  .error "AUTH_AUTHORITY_UNAVAILABLE"
    "Authentication session validation is temporarily unavailable."

def failAuth (s : Socket) (isReAuth : Bool) : Socket × Next :=
  (s.send (if isReAuth then
      .error "AUTH_REFRESH_FAILED" "Token refresh failed — existing auth preserved"
    else .error "AUTH_FAILED" "Invalid or expired token"), .run [])

def handleAuth (secret : Bool) (s : Socket) (token : String) (sdkVersion : Option String) :
    Socket × Next :=
  if token = "" then (s.send (.error "AUTH_FAILED" "Token required"), .run [])
  else if ¬secret then (s.send (.error "SERVER_ERROR" "JWT secret not configured"), .run [])
  else (s, .await [.verified s.memory.authenticated sdkVersion])

def handleVerified (s : Socket) (answer : Answer) (isReAuth : Bool) (sdkVersion : Option String) :
    Socket × Next :=
  match answer.claims with
  | none => failAuth s isReAuth
  | some claims =>
    match claims.sid with
    | none | some "" => failAuth s isReAuth
    | some sessionId =>
      (s, .await [.authorized isReAuth sdkVersion claims.sub sessionId claims.role])

def WSMeta.signedIn (socket : WSMeta) (sdkVersion : Option String) (userId sessionId : String)
    (role : Option String) : WSMeta :=
  let socket :=
    { socket with
      authenticated := true, userId := some userId, sessionId := some sessionId, role := role }
  match truthy sdkVersion with
  | some version => { socket with sdkVersion := some version, supportsBatch := true }
  | none => socket

def handleAuthorized (s : Socket) (answer : Answer) (isReAuth : Bool) (sdkVersion : Option String)
    (userId sessionId : String) (role : Option String) : Socket × Next :=
  match answer.active with
  | .unavailable => (s.send AUTHORITY_UNAVAILABLE, .run [])
  | .revoked => failAuth s isReAuth
  | .active =>
    let s := s.setWSMeta (s.memory.signedIn sdkVersion userId sessionId role)
    if isReAuth then (s, .run [.reevaluate userId s.memory.subscribedChannels []])
    else (s.send (.authSuccess userId), .run [])

/-- The next channel of the loop, or what follows the loop. -/
def handleReevaluate (s : Socket) (userId : String) (channels revokedChannels : List String) :
    Socket × Next :=
  match channels with
  | [] => ((s.setWSMeta s.memory).send (.authRefreshed userId revokedChannels), .run [])
  | channel :: channels =>
    (s, .await [.reevaluated userId channel (askAccess s.memory channel) channels revokedChannels])

def WSMeta.without (socket : WSMeta) (channel : String) : WSMeta :=
  { socket with
    subscribedChannels := socket.subscribedChannels.filter (· ≠ channel)
    channelFilters := deleteKey socket.channelFilters channel
    channelOrFilters := deleteKey socket.channelOrFilters channel }

def handleReevaluated (s : Socket) (answer : Answer) (userId channel : String)
    (asked : Option Identity) (channels revokedChannels : List String) : Socket × Next :=
  match s.accept channel asked answer with
  | some s => (s, .run [.reevaluate userId channels revokedChannels])
  | none =>
    ({ s with memory := s.memory.without channel },
      .run [.reevaluate userId channels (revokedChannels ++ [channel])])

/-! ### Other messages -/

def handleSubscribe (s : Socket) (channel : String) (filters orFilters : Option Json) :
    Socket × Next :=
  if channel = "" then (s.send (.error "INVALID_CHANNEL" "Channel name required"), .run [])
  else if ¬isDbLiveChannel channel then
    (s.send (.error "INVALID_CHANNEL" ("Database live only supports DB channels: " ++ channel)),
      .run [])
  else
    match normalizeDatabaseLiveFilterPayload filters "Filters" with
    | .error message => (s.send (.error "INVALID_FILTERS" message), .run [])
    | .ok normalizedFilters =>
      match normalizeDatabaseLiveFilterPayload orFilters "OR filters" with
      | .error message => (s.send (.error "INVALID_FILTERS" message), .run [])
      | .ok normalizedOrFilters =>
        (s, .await [.subscribed channel (askAccess s.memory channel) (normalizedFilters.join)
          (normalizedOrFilters.join)])

/-- The socket with one channel more, or with new filters for it. -/
def WSMeta.subscribe (socket : WSMeta) (channel : String)
    (filters orFilters : Option (List FilterCondition)) : WSMeta :=
  { socket with
    subscribedChannels :=
      if channel ∈ socket.subscribedChannels then socket.subscribedChannels
      else socket.subscribedChannels ++ [channel]
    channelFilters := putFilters socket.channelFilters channel filters
    channelOrFilters := putFilters socket.channelOrFilters channel orFilters }

/-- `serverFilter` of the frames. -/
def WSMeta.serverFilter (socket : WSMeta) (channel : String) : Bool :=
  (socket.channelFilters.lookup channel).isSome || (socket.channelOrFilters.lookup channel).isSome

def handleSubscribed (s : Socket) (answer : Answer) (channel : String) (asked : Option Identity)
    (filters orFilters : Option (List FilterCondition)) : Socket × Next :=
  match s.accept channel asked answer with
  | none =>
    (s.send (.error "CHANNEL_ACCESS_DENIED" ("Access denied to channel: " ++ channel)), .run [])
  | some s =>
    let socket := s.memory.subscribe channel filters orFilters
    ((s.setWSMeta socket).send (.subscribed channel (socket.serverFilter channel)), .run [])

def handleUnsubscribe (s : Socket) (channel : String) : Socket :=
  (s.setWSMeta (s.memory.without channel)).send (.unsubscribed channel)

/-- One group of filters of an update: absent, `null`, or new filters. -/
def updateGroup (filters : ChannelFilters) (channel label : String) (input : Option Json) :
    Except String ChannelFilters :=
  match input with
  | none => .ok filters
  | some .null => .ok (deleteKey filters channel)
  | some input =>
    match normalizeDatabaseLiveFilterPayload (some input) label with
    | .error message => .error message
    | .ok (some none) => .error (label ++ " update must not be null.")
    | .ok next => .ok (putFilters filters channel next.join)

def handleUpdateFilters (s : Socket) (channel : String) (filters orFilters : Option Json) :
    Socket :=
  if channel = "" ∨ channel ∉ s.memory.subscribedChannels then
    s.send (.error "NOT_SUBSCRIBED" ("Not subscribed to channel: " ++ channel))
  else
    match updateGroup s.memory.channelFilters channel "Filters" filters with
    | .error message => s.send (.error "INVALID_FILTERS" message)
    | .ok channelFilters =>
      -- in memory, whatever follows
      let s := { s with memory := { s.memory with channelFilters := channelFilters } }
      match updateGroup s.memory.channelOrFilters channel "OR filters" orFilters with
      | .error message => s.send (.error "INVALID_FILTERS" message)
      | .ok channelOrFilters =>
        let socket := { s.memory with channelOrFilters := channelOrFilters }
        (s.setWSMeta socket).send (.filtersUpdated channel (socket.serverFilter channel))

/-- What comes before the authority is asked. -/
def handleReceive (s : Socket) (message : Message) : Socket × Next :=
  if ¬s.memory.authenticated then
    (s.send (.error "NOT_AUTHENTICATED" "Send auth message first"), .run [])
  else if (truthy s.memory.sessionId).isNone ∨ (truthy s.memory.userId).isNone then
    (revokeLiveSession s "Authentication session metadata is missing.", .run [])
  else (s, .await [.checked message])

/-- What comes after it; the recovery of the hub's filters is waited for. -/
def handleChecked (s : Socket) (answer : Answer) (message : Message) : Socket × Next :=
  match answer.active with
  | .active => (s, .await [.dispatch message])
  | .revoked =>
    (revokeLiveSession s "Authentication session was revoked. Reconnect required.", .run [])
  | .unavailable => (s.send AUTHORITY_UNAVAILABLE, .run [])

def handleDispatch (s : Socket) : Message → Socket × Next
  | .subscribe channel filters orFilters => handleSubscribe s channel filters orFilters
  | .unsubscribe channel => (handleUnsubscribe s channel, .run [])
  | .updateFilters channel filters orFilters =>
    (handleUpdateFilters s channel filters orFilters, .run [])
  | .ping => (s.send .pong, .run [])
  | .auth _ _ => (s.send (.error "UNKNOWN_TYPE" "Unknown message type: auth"), .run [])
  | .other type => (s.send (.error "UNKNOWN_TYPE" ("Unknown message type: " ++ type)), .run [])

/-! ### The machine -/

def exec (secret : Bool) (s : Socket) (answer : Answer) : Section → Socket × Next
  | .auth token sdkVersion => handleAuth secret s token sdkVersion
  | .verified isReAuth sdkVersion => handleVerified s answer isReAuth sdkVersion
  | .authorized isReAuth sdkVersion userId sessionId role =>
    handleAuthorized s answer isReAuth sdkVersion userId sessionId role
  | .reevaluate userId channels revokedChannels =>
    handleReevaluate s userId channels revokedChannels
  | .reevaluated userId channel asked channels revokedChannels =>
    handleReevaluated s answer userId channel asked channels revokedChannels
  | .receive message => handleReceive s message
  | .checked message => handleChecked s answer message
  | .dispatch message => handleDispatch s message
  | .subscribed channel asked filters orFilters =>
    handleSubscribed s answer channel asked filters orFilters

def webSocketMessage : Message → List Section
  | .auth token sdkVersion => [.auth token sdkVersion]
  | message => [.receive message]

/-- What happens to a socket: a message, or a change finds its session revoked. -/
inductive Event where
  | message (message : Message)
  | revoke (message : String)
  deriving DecidableEq

def machine (secret : Bool) : Handlers.Machine Socket Empty Section Event Answer where
  exec s answer sec := exec secret s answer sec
  handle s
    | .message message => (s, some ⟨none, webSocketMessage message⟩)
    | .revoke message => (revokeLiveSession s message, none)
  restart s := { s with memory := s.restored }

/-- A message that is handled alone, with the frames that are sent meanwhile. -/
def Served (secret : Bool) (s : Socket) (message : Message) (s' : Socket) : Prop :=
  Handlers.Alone (machine secret) { s with sent := [] } default (webSocketMessage message) s'

/-! ## What is to hold -/

def WSMeta.view (socket : WSMeta) : List String × ChannelFilters × ChannelFilters :=
  (socket.subscribedChannels, socket.channelFilters, socket.channelOrFilters)

/-- A group of filters after an update: the one that is named has the new filters, and others are
what they were. -/
def Renewed (filters filters' : ChannelFilters) (channel label : String) (input : Option Json) :
    Prop :=
  match input with
  | none => filters' = filters
  | some input =>
    (∃ value, normalizeDatabaseLiveFilterPayload (some input) label = .ok value ∧
      filters'.lookup channel = value.join.filter (· ≠ [])) ∧
    ∀ other, other ≠ channel → filters'.lookup other = filters.lookup other

def WSMeta.Renewed (socket socket' : WSMeta) (channel : String) (filters orFilters : Option Json) :
    Prop :=
  socket'.subscribedChannels = socket.subscribedChannels ∧
    LiveSockets.Renewed socket.channelFilters socket'.channelFilters channel "Filters" filters ∧
    LiveSockets.Renewed socket.channelOrFilters socket'.channelOrFilters channel "OR filters"
      orFilters

/-- A message that is answered with an error changes nothing, in memory or in the attachment, and
an accepted update changes what it names. -/
def Fair (s : Socket) (message : Message) (s' : Socket) : Prop :=
  ((∃ code text, .error code text ∈ s'.sent) →
    s'.memory.view = s.memory.view ∧ s'.restored.view = s.restored.view) ∧
  ∀ channel filters orFilters, message = .updateFilters channel filters orFilters →
    (∃ serverFilter, .filtersUpdated channel serverFilter ∈ s'.sent) →
      s.memory.Renewed s'.memory channel filters orFilters ∧
        s.restored.Renewed s'.restored channel filters orFilters

/-- The group that comes first is accepted and changes the filters, and the other one is not
accepted. -/
def HalfApplied (s : Socket) : Message → Prop
  | .updateFilters channel filters orFilters =>
    channel ≠ "" ∧ channel ∈ s.memory.subscribedChannels ∧
      (∃ channelFilters, updateGroup s.memory.channelFilters channel "Filters" filters =
        .ok channelFilters ∧ channelFilters ≠ s.memory.channelFilters) ∧
      ∃ error, updateGroup s.memory.channelOrFilters channel "OR filters" orFilters = .error error
  | _ => False

/-- The message is not for a socket that has signed in, or the attachment is up to date and the
message is not applied by half. -/
def HoldsWhen (s : Socket) : Message → Prop
  | .auth _ _ => True
  | message => s.memory.authenticated = true →
    s.memory.view = s.restored.view ∧
      ((truthy s.memory.sessionId).isSome → (truthy s.memory.userId).isSome →
        ¬HalfApplied s message)

/-! ## Signing in -/

section

variable {secret : Bool} {s s' : Socket}

theorem view_signedIn (socket : WSMeta) (sdkVersion : Option String) (userId sessionId : String)
    (role : Option String) :
    (socket.signedIn sdkVersion userId sessionId role).view = socket.view := by
  unfold WSMeta.signedIn
  dsimp only
  cases truthy sdkVersion <;> rfl

def Quiet (s : Socket) : Prop := ∀ code text, .error code text ∉ s.sent

theorem accept_eq_some {channel : String} {asked : Option Identity} {answer : Answer}
    (h : s.accept channel asked answer = some s') : ∃ identity, asked = some identity ∧
      s' = { s with accepted := (channel, identity) :: s.accepted } := by
  unfold Socket.accept at h
  cases asked with
  | none => cases h
  | some identity =>
    dsimp only at h
    split_ifs at h
    exact ⟨identity, rfl, (some.inj h).symm⟩

theorem passes_of_accept {channel : String} {asked : Option Identity} {answer : Answer}
    (h : s.accept channel asked answer = some s') : answer.passes = true := by
  unfold Socket.accept at h
  cases asked with
  | none => cases h
  | some identity =>
    dsimp only at h
    split_ifs at h with hpasses
    exact hpasses

theorem alone_iff {answer : Answer} {sec : Section} :
    Handlers.Alone (machine secret) s answer [sec] s' ↔
      Handlers.After (machine secret) [] s' (exec secret s answer sec) := alone_cons

theorem quiet_of_reevaluate {userId : String} {channels revokedChannels : List String}
    {answer : Answer} (hquiet : Quiet s)
    (h : Handlers.Alone (machine secret) s answer [.reevaluate userId channels revokedChannels]
      s') : Quiet s' := by
  induction channels generalizing s answer revokedChannels with
  | nil =>
    obtain rfl := alone_nil.1 (alone_iff.1 h)
    intro code text hmem
    rcases mem_append.1 hmem with hmem | hmem
    · exact hquiet code text hmem
    · cases mem_singleton.1 hmem
  | cons channel channels ih =>
    obtain ⟨answer', h⟩ := alone_iff.1 h
    have h := alone_iff.1 h
    rw [exec, handleReevaluated] at h
    cases haccept : s.accept channel (askAccess s.memory channel) answer' with
    | none =>
      rw [haccept] at h
      have hquiet' : Quiet { s with memory := s.memory.without channel } := hquiet
      exact ih hquiet' h
    | some s₁ =>
      rw [haccept] at h
      obtain ⟨identity, -, rfl⟩ := accept_eq_some haccept
      have hquiet' : Quiet { s with accepted := (channel, identity) :: s.accepted } := hquiet
      exact ih hquiet' h

theorem fair_send {message : Message} {frame : Frame}
    (hframe : ∀ channel serverFilter, frame ≠ .filtersUpdated channel serverFilter) :
    Fair s message (({ s with sent := [] } : Socket).send frame) := by
  refine ⟨fun _ => ⟨rfl, rfl⟩, fun channel _ _ _ hupdated => ?_⟩
  obtain ⟨serverFilter, hmem⟩ := hupdated
  exact absurd (mem_singleton.1 hmem).symm (hframe channel serverFilter)

theorem fair_failAuth {message : Message} {isReAuth : Bool} :
    Fair s message (failAuth { s with sent := [] } isReAuth).1 := by
  unfold failAuth
  cases isReAuth <;> exact fair_send (by simp)

theorem fair_auth {token : String} {sdkVersion : Option String}
    (h : Served secret s (.auth token sdkVersion) s') : Fair s (.auth token sdkVersion) s' := by
  have h := alone_iff.1 h
  rw [exec, handleAuth] at h
  split_ifs at h
  · rw [alone_nil.1 h]
    exact fair_send (by simp)
  · obtain ⟨answer, h⟩ := h
    have h := alone_iff.1 h
    rw [exec, handleVerified] at h
    split at h
    · rw [alone_nil.1 h]
      exact fair_failAuth
    · split at h
      · rw [alone_nil.1 h]
        exact fair_failAuth
      · rw [alone_nil.1 h]
        exact fair_failAuth
      · obtain ⟨answer', h⟩ := h
        have h := alone_iff.1 h
        rw [exec, handleAuthorized] at h
        split at h
        · rw [alone_nil.1 h]
          exact fair_send (by simp [AUTHORITY_UNAVAILABLE])
        · rw [alone_nil.1 h]
          exact fair_failAuth
        · have hquiet : Quiet s' := by
            dsimp only at h
            split_ifs at h
            · exact quiet_of_reevaluate (fun code text hmem => not_mem_nil hmem) h
            · rw [alone_nil.1 h]
              intro code text hmem
              cases mem_singleton.1 hmem
          refine ⟨fun ⟨code, text, hmem⟩ => absurd hmem (hquiet code text), ?_⟩
          exact fun _ _ _ hmessage => by cases hmessage
  · rw [alone_nil.1 h]
    exact fair_send (by simp)

/-! ## Other messages -/

theorem lookup_deleteKey (filters : ChannelFilters) (channel other : String) :
    (deleteKey filters channel).lookup other =
      if other = channel then none else filters.lookup other := by
  have hrestrict := Assoc.lookup_restrict (· ≠ channel) filters other
  by_cases heq : other = channel
  · rw [if_pos heq]
    refine Eq.trans ?_ (hrestrict.trans (if_neg (by simp [heq])))
    rfl
  · rw [if_neg heq]
    exact hrestrict.trans (if_pos (decide_eq_true heq))

theorem lookup_putFilters (filters : ChannelFilters) (channel other : String)
    (value : Option (List FilterCondition)) : (putFilters filters channel value).lookup other =
      if other = channel then value.filter (· ≠ []) else filters.lookup other := by
  match value with
  | none => exact lookup_deleteKey filters channel other
  | some [] => exact lookup_deleteKey filters channel other
  | some (condition :: conditions) =>
    rw [putFilters]
    by_cases heq : other = channel
    · rw [if_pos heq, heq, Assoc.lookup_set_self]
      rfl
    · rw [if_neg heq, Assoc.lookup_set_of_ne _ heq]

theorem renewed_of_updateGroup {filters filters' : ChannelFilters} {channel label : String}
    {input : Option Json} (h : updateGroup filters channel label input = .ok filters') :
    Renewed filters filters' channel label input := by
  unfold updateGroup at h
  split at h
  · exact (Except.ok.inj h).symm
  · rw [← Except.ok.inj h]
    refine ⟨⟨_, rfl, ?_⟩, fun other hne => ?_⟩
    · rw [lookup_deleteKey, if_pos rfl]
      rfl
    · rw [lookup_deleteKey, if_neg hne]
  · split at h
    · cases h
    · cases h
    · next next hnext =>
      rw [← Except.ok.inj h]
      refine ⟨⟨_, hnext, ?_⟩, fun other hne => ?_⟩
      · rw [lookup_putFilters, if_pos rfl]
      · rw [lookup_putFilters, if_neg hne]

theorem fair_revoke {message : Message} {text : String} (hview : s.memory.view = s.restored.view) :
    Fair s message (revokeLiveSession { s with sent := [] } text) := by
  refine ⟨fun _ => ⟨rfl, hview⟩, fun channel _ _ _ hupdated => ?_⟩
  obtain ⟨serverFilter, hmem⟩ := hupdated
  cases mem_singleton.1 hmem

theorem fair_updateFilters {channel : String} {filters orFilters : Option Json}
    (hview : s.memory.view = s.restored.view)
    (hhalf : ¬HalfApplied s (.updateFilters channel filters orFilters)) :
    Fair s (.updateFilters channel filters orFilters)
      (handleUpdateFilters { s with sent := [] } channel filters orFilters) := by
  unfold handleUpdateFilters
  split_ifs with hchannel
  · exact fair_send (by simp)
  · obtain ⟨hne, hsubscribed⟩ := not_or.1 hchannel
    split
    · exact fair_send (by simp)
    · next channelFilters hfilters =>
      dsimp only
      split
      · next error horFilters =>
        -- the first group is what it was
        have hsame : channelFilters = s.memory.channelFilters := by
          by_contra hchanged
          exact hhalf ⟨hne, not_not.1 hsubscribed, ⟨channelFilters, hfilters, hchanged⟩, error,
            horFilters⟩
        subst hsame
        exact fair_send (by simp)
      · next channelOrFilters horFilters =>
        refine ⟨fun ⟨code, text, hmem⟩ => ?_, fun _ _ _ hmessage _ => ?_⟩
        · cases mem_singleton.1 hmem
        · cases hmessage
          have hrenewed : s.memory.Renewed { s.memory with
              channelFilters := channelFilters, channelOrFilters := channelOrFilters }
              channel filters orFilters :=
            ⟨rfl, renewed_of_updateGroup hfilters, renewed_of_updateGroup horFilters⟩
          refine ⟨hrenewed, ?_⟩
          obtain ⟨hchannels, hrest⟩ := Prod.mk.inj hview
          obtain ⟨hands, hors⟩ := Prod.mk.inj hrest
          unfold WSMeta.Renewed at hrenewed ⊢
          rw [← hchannels, ← hands, ← hors]
          exact hrenewed

theorem fair_subscribe {channel : String} {filters orFilters : Option Json} {answer : Answer}
    (h : Handlers.Alone (machine secret) { s with sent := [] } answer
      [.dispatch (.subscribe channel filters orFilters)] s') :
    Fair s (.subscribe channel filters orFilters) s' := by
  have h := alone_iff.1 h
  rw [exec, handleDispatch, handleSubscribe] at h
  split_ifs at h
  · rw [alone_nil.1 h]
    exact fair_send (by simp)
  · split at h
    · rw [alone_nil.1 h]
      exact fair_send (by simp)
    · split at h
      · rw [alone_nil.1 h]
        exact fair_send (by simp)
      · obtain ⟨answer', h⟩ := h
        have h := alone_iff.1 h
        rw [exec, handleSubscribed] at h
        split at h
        · rw [alone_nil.1 h]
          exact fair_send (by simp)
        · next s₁ haccept =>
          obtain ⟨identity, -, rfl⟩ := accept_eq_some haccept
          rw [alone_nil.1 h]
          refine ⟨fun ⟨code, text, hmem⟩ => ?_, fun _ _ _ hmessage => by cases hmessage⟩
          cases mem_singleton.1 hmem
  · rw [alone_nil.1 h]
    exact fair_send (by simp)

variable {message : Message}

theorem fair_dispatch {answer : Answer}
    (hview : s.memory.view = s.restored.view) (hhalf : ¬HalfApplied s message)
    (h : Handlers.Alone (machine secret) { s with sent := [] } answer [.dispatch message] s') :
    Fair s message s' := by
  cases message with
  | subscribe channel filters orFilters => exact fair_subscribe h
  | unsubscribe channel =>
    rw [alone_nil.1 (alone_iff.1 h)]
    refine ⟨fun ⟨code, text, hmem⟩ => ?_, fun _ _ _ hmessage => by cases hmessage⟩
    cases mem_singleton.1 hmem
  | updateFilters channel filters orFilters =>
    rw [alone_nil.1 (alone_iff.1 h)]
    exact fair_updateFilters hview hhalf
  | ping =>
    rw [alone_nil.1 (alone_iff.1 h)]
    exact fair_send (by simp)
  | auth token sdkVersion =>
    rw [alone_nil.1 (alone_iff.1 h)]
    exact fair_send (by simp)
  | other type =>
    rw [alone_nil.1 (alone_iff.1 h)]
    exact fair_send (by simp)

theorem fair_receive
    (hholds : s.memory.authenticated = true → s.memory.view = s.restored.view ∧
      ((truthy s.memory.sessionId).isSome → (truthy s.memory.userId).isSome →
        ¬HalfApplied s message))
    (h : Handlers.Alone (machine secret) { s with sent := [] } default [.receive message] s') :
    Fair s message s' := by
  have h := alone_iff.1 h
  rw [exec, handleReceive] at h
  split_ifs at h with hauthenticated hsession
  · rw [alone_nil.1 h]
    exact fair_revoke (hholds hauthenticated).1
  · obtain ⟨hview, hhalf⟩ := hholds hauthenticated
    rw [not_or, Bool.not_eq_true, Bool.not_eq_true, isNone_eq_false_iff,
      isNone_eq_false_iff] at hsession
    obtain ⟨answer, h⟩ := h
    have h := alone_iff.1 h
    rw [exec, handleChecked] at h
    split at h
    · obtain ⟨answer', h⟩ := h
      exact fair_dispatch hview (hhalf hsession.1 hsession.2) h
    · rw [alone_nil.1 h]
      exact fair_revoke hview
    · rw [alone_nil.1 h]
      exact fair_send (by simp [AUTHORITY_UNAVAILABLE])
  · rw [alone_nil.1 h]
    exact fair_send (by simp)

/-! ## Every message -/

theorem exists_revoked (hauthenticated : s.memory.authenticated = true) :
    ∃ text, Handlers.Alone (machine secret) { s with sent := [] } default [.receive message]
      (revokeLiveSession { s with sent := [] } text) := by
  by_cases hsession : (truthy s.memory.sessionId).isNone ∨ (truthy s.memory.userId).isNone
  · refine ⟨"Authentication session metadata is missing.", alone_iff.2 ?_⟩
    rw [exec, handleReceive, if_neg (not_not.2 hauthenticated), if_pos hsession]
    exact alone_nil.2 rfl
  · refine ⟨"Authentication session was revoked. Reconnect required.", alone_iff.2 ?_⟩
    rw [exec, handleReceive, if_neg (not_not.2 hauthenticated), if_neg hsession]
    exact ⟨.authority .revoked, alone_iff.2 (alone_nil.2 rfl)⟩

theorem exists_updated {channel : String} {filters orFilters : Option Json}
    (hauthenticated : s.memory.authenticated = true)
    (hsession : (truthy s.memory.sessionId).isSome) (huser : (truthy s.memory.userId).isSome) :
    Served secret s (.updateFilters channel filters orFilters)
      (handleUpdateFilters { s with sent := [] } channel filters orFilters) := by
  have hnot : ¬((truthy s.memory.sessionId).isNone = true ∨
      (truthy s.memory.userId).isNone = true) := by
    rw [not_or, Bool.not_eq_true, Bool.not_eq_true, isNone_eq_false_iff,
      isNone_eq_false_iff]
    exact ⟨hsession, huser⟩
  refine alone_iff.2 ?_
  rw [exec, handleReceive, if_neg (not_not.2 hauthenticated), if_neg hnot]
  refine ⟨.authority .active, alone_iff.2 ⟨.nothing, alone_iff.2 ?_⟩⟩
  exact alone_nil.2 rfl

theorem not_fair_of_halfApplied {channel : String} {filters orFilters : Option Json}
    (h : HalfApplied s (.updateFilters channel filters orFilters)) :
    ¬Fair s (.updateFilters channel filters orFilters)
      (handleUpdateFilters { s with sent := [] } channel filters orFilters) := by
  obtain ⟨hne, hsubscribed, ⟨channelFilters, hfilters, hchanged⟩, error, horFilters⟩ := h
  rintro ⟨hkept, -⟩
  have hnot : ¬(channel = "" ∨ channel ∉ s.memory.subscribedChannels) :=
    not_or.2 ⟨hne, not_not.2 hsubscribed⟩
  have heq : handleUpdateFilters { s with sent := [] } channel filters orFilters =
      ({ s with memory := { s.memory with channelFilters := channelFilters }, sent := [] } :
        Socket).send (.error "INVALID_FILTERS" error) := by
    unfold handleUpdateFilters
    rw [if_neg hnot, hfilters]
    dsimp only
    rw [horFilters]
  rw [heq] at hkept
  obtain ⟨hview, -⟩ := hkept ⟨_, error, mem_singleton_self _⟩
  exact hchanged (Prod.mk.inj (Prod.mk.inj hview).2).1

end

/-! ### An update applied by half -/

def readerMeta : WSMeta where
  authenticated := true
  userId := some "user"
  sessionId := some "session"
  connectionId := "c1"
  subscribedChannels := ["dblive:shared:posts"]

def reader : Socket where
  memory := readerMeta
  attachment := some readerMeta

/-- One condition, and a number where other conditions are expected. -/
def brokenUpdate : Message :=
  .updateFilters "dblive:shared:posts" (some (.arr [.arr [.str "status", .str "==", .str "open"]]))
    (some (.num 5))

end EdgeBase.LiveSockets
