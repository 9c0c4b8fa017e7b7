import EdgeBase.Live.Conditions

/-!
# The hub of live changes

Every change goes to one durable object, which sends it to the sockets whose users may see it.

* `evaluateRowReadAccess`, `shouldSend` : what a change must pass.
-/

namespace EdgeBase

namespace LiveHub

/-! ### Sockets -/

/-- `WSMeta`; channels have names. -/
structure WSMeta where
  authenticated : Bool
  userId : Option String
  sessionId : Option String
  role : Option String
  subscribedChannels : List String
  channelFilters : List (String × List Json)
  channelOrFilters : List (String × List Json)
  supportsBatch : Bool
  named : ∀ channel ∈ subscribedChannels, channel ≠ ""

/-- The rule `read` of a table. -/
inductive ReadRule where
  | undefined
  | constant (allowed : Bool)
  /-- A function of the user's id and role and the row; one that fails or takes too long denies. -/
  | check (rule : Option (String × Option String) → Row → Bool)

/-- What `isAuthSessionActive` says. -/
inductive Authority where
  | active
  | revoked
  | unavailable
  deriving DecidableEq

def evaluateRowReadAccess (rule : ReadRule) (socket : WSMeta) (row : Option Row) : Bool :=
  match rule with
  | .undefined => socket.authenticated
  | .constant allowed => allowed
  | .check rule =>
    match row with
    | none => false
    | some row =>
      rule (if socket.authenticated then some (socket.userId.getD "", socket.role) else none) row

/-- The filters of a socket, on a change of a channel; the removal of a row passes. -/
def shouldSend (text : NumberText) (socket : WSMeta) (channel : String) (data : Option Row) :
    Option Bool :=
  let filters := (socket.channelFilters.lookup channel).getD []
  let orFilters := (socket.channelOrFilters.lookup channel).getD []
  if filters.isEmpty && orFilters.isEmpty then some true
  else
    match data with
    | some data => LiveFilters.evaluateDatabaseLiveFilters text data filters orFilters
    | none => some true

/-- Whether a change is for a socket; a filter may throw. -/
def passes (text : NumberText) (rule : ReadRule) (socket : WSMeta) (channel : String)
    (data : Option Row) : Option Bool :=
  if evaluateRowReadAccess rule socket data then shouldSend text socket channel data
  else some false

/-! ### Frames -/

/-- A row, or `null`. -/
def jsonRow : Option Row → Json
  | some row => .obj row
  | none => .null

structure Change where
  type : String
  docId : String
  data : Option Row
  timestamp : String
  deriving DecidableEq

/-- A list of changes, as the worker hands it to the hub. -/
structure Batch where
  channel : String
  table : String
  changes : List Change
  total : ℕ

def dbChange (channel table : String) (change : Change) : Row :=
  [("type", .str "db_change"), ("channel", .str channel), ("changeType", .str change.type),
    ("table", .str table), ("docId", .str change.docId), ("data", jsonRow change.data),
    ("timestamp", .str change.timestamp)]

def batchEntry (change : Change) : Json :=
  .obj [("event", .str change.type), ("docId", .str change.docId), ("data", jsonRow change.data),
    ("timestamp", .str change.timestamp)]

def batchMsg (channel : String) (changes : List Change) (total : ℕ) : Row :=
  [("type", .str "batch_changes"), ("channel", .str channel),
    ("changes", .arr (changes.map batchEntry)), ("total", .num total)]

def errorFrame (code message : String) : Row :=
  [("type", .str "error"), ("code", .str code), ("message", .str message)]

/-- `ensureLiveSessionAuthority`: the frame of a refusal. -/
def ensureLiveSessionAuthority (authority : Authority) (socket : WSMeta) : Except Row Unit :=
  if socket.sessionId.getD "" = "" ∨ socket.userId.getD "" = "" then
    .error (errorFrame "SESSION_REVOKED" "Authentication session metadata is missing.")
  else
    match authority with
    | .active => .ok ()
    | .revoked => .error (errorFrame "SESSION_REVOKED"
        "Authentication session was revoked. Reconnect required.")
    | .unavailable => .error (errorFrame "AUTH_AUTHORITY_UNAVAILABLE"
        "Authentication session validation is temporarily unavailable.")

/-! ### One socket -/

variable (text : NumberText) (rule : ReadRule) (authority : Authority)

/-- The callback of `broadcastWithFilters`: what a socket is sent, and whether it has thrown. -/
def sendEvent (channel table : String) (change : Change) (socket : WSMeta) : List Row × Bool :=
  if !socket.authenticated then ([], false)
  else if channel ≠ "" ∧ channel ∉ socket.subscribedChannels then ([], false)
  else
    match ensureLiveSessionAuthority authority socket with
    | .error frame => ([frame], false)
    | .ok () =>
      match passes text rule socket channel change.data with
      | some true => ([dbChange channel table change], false)
      | some false => ([], false)
      | none => ([], true)

/-- The changes of a batch that pass, unless a filter throws. -/
def filteredChanges (pass : Change → Option Bool) : List Change → Option (List Change)
  | [] => some []
  | change :: changes => do
    let send ← pass change
    let rest ← filteredChanges pass changes
    return if send then change :: rest else rest

/-- The changes of a batch that pass one by one, as far as no filter throws. -/
def sendChanges (pass : Change → Option Bool) (channel table : String) : List Change → List Row
  | [] => []
  | change :: changes =>
    match pass change with
    | some true => dbChange channel table change :: sendChanges pass channel table changes
    | some false => sendChanges pass channel table changes
    | none => []

/-- The callback of `handleInternalBatchEvent`. -/
def sendBatch (batch : Batch) (socket : WSMeta) : List Row :=
  if !socket.authenticated then []
  else if batch.channel ∉ socket.subscribedChannels then []
  else
    match ensureLiveSessionAuthority authority socket with
    | .error frame => [frame]
    | .ok () =>
      let pass (change : Change) := passes text rule socket batch.channel change.data
      if socket.supportsBatch then
        match filteredChanges pass batch.changes with
        | none => []
        | some [] => []
        | some filtered =>
          -- the frame that is written once, if all changes pass
          [if filtered.length = batch.changes.length then
              batchMsg batch.channel batch.changes batch.total
            else batchMsg batch.channel filtered filtered.length]
      else sendChanges pass batch.channel batch.table batch.changes

end LiveHub

end EdgeBase
