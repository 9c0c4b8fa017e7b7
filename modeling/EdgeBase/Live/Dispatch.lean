import EdgeBase.Lib.Assoc
import EdgeBase.Lib.Runs
import EdgeBase.Live.Batches

/-!
# Handlers that subscribe and unsubscribe

The client calls the handlers of a channel for every change.  It walks over the lists it keeps, and
a handler may change these lists while it is called.

* `Client` : the subscriptions and the filters of their channels.
* `resyncFilters`, `resubscribeAll` : the channels are registered again.
-/

namespace EdgeBase.LiveDispatch

open LiveHub (DbChange matchesClientFilter matchesDatabaseLiveChannel)

/-! ### The client -/

structure InternalSubscription where
  id : ℕ
  channel : String
  filters : Option Row := none
  serverFilters : List Json := []
  serverOrFilters : List Json := []
  deriving DecidableEq

/-- A channel with its list; a list is as old as its number. -/
structure Entry where
  stamp : ℕ
  channel : String
  subs : List InternalSubscription
  deriving DecidableEq

inductive Request where
  | subscribe (channel : String) (filters orFilters : List Json)
  | unsubscribe (channel : String)
  deriving DecidableEq

structure Client where
  /-- `subscriptions`, a `Map` of lists. -/
  subscriptions : List Entry := []
  /-- The number of the next list, or subscription. -/
  next : ℕ := 0
  connectedChannels : List String := []
  channelFilters : List (String × List Json) := []
  channelOrFilters : List (String × List Json) := []
  connected : Bool := false
  authenticated : Bool := false
  sent : List Request := []
  deriving DecidableEq

def Request.channel : Request → String
  | .subscribe channel _ _ => channel
  | .unsubscribe channel => channel

namespace Client

variable (c : Client)

/-- `this.subscriptions.get(channel)`. -/
def entry (channel : String) : Option Entry := c.subscriptions.find? fun e => e.channel = channel

def subs (channel : String) : List InternalSubscription :=
  ((c.entry channel).map (·.subs)).getD []

def sendRaw (request : Request) : Client :=
  if c.connected then { c with sent := c.sent ++ [request] } else c

def sendSubscribe (channel : String) : Client :=
  if ¬c.authenticated then c
  else
    c.sendRaw (.subscribe channel ((c.channelFilters.lookup channel).getD [])
      ((c.channelOrFilters.lookup channel).getD []))

def sendUnsubscribe (channel : String) : Client :=
  let c := { c with connectedChannels := c.connectedChannels.filter (· ≠ channel) }
  if c.authenticated then c.sendRaw (.unsubscribe channel) else c

/-- The filters of the first subscription that has some. -/
def pick (filters : List (String × List Json)) (channel : String) (found : List (List Json)) :
    List (String × List Json) :=
  match found.find? (· ≠ []) with
  | some first => Assoc.set filters channel first
  | none => filters.filter fun entry => entry.1 ≠ channel

def recomputeChannelFilters (channel : String) : Client :=
  { c with
    channelFilters := pick c.channelFilters channel ((c.subs channel).map (·.serverFilters))
    channelOrFilters := pick c.channelOrFilters channel ((c.subs channel).map (·.serverOrFilters)) }

/-- The part of `connect` that does not open a socket. -/
def connect (channel : String) : Client :=
  let c :=
    { c with
      connectedChannels :=
        if channel ∈ c.connectedChannels then c.connectedChannels
        else c.connectedChannels ++ [channel] }
  if c.connected then c.sendSubscribe channel else c

/-- A subscription at the end of its list, which may be new. -/
def push (channel : String) (sub : InternalSubscription) : List Entry :=
  if (c.entry channel).isSome then
    c.subscriptions.map fun (e : Entry) =>
      if e.channel = channel then { e with subs := e.subs ++ [sub] } else e
  else c.subscriptions ++ [⟨c.next, channel, [sub]⟩]

def onSnapshot (channel : String) (filters : Option Row)
    (serverFilters serverOrFilters : List Json) : Client :=
  let sub : InternalSubscription := ⟨c.next, channel, filters, serverFilters, serverOrFilters⟩
  let c := { c with subscriptions := c.push channel sub, next := c.next + 1 }
  (c.recomputeChannelFilters channel).connect channel

def drop (channel : String) : Client :=
  { c with
    subscriptions := c.subscriptions.filter fun e => e.channel ≠ channel
    channelFilters := c.channelFilters.filter fun entry => entry.1 ≠ channel
    channelOrFilters := c.channelOrFilters.filter fun entry => entry.1 ≠ channel }

/-- What `onSnapshot` returns. -/
def unsubscribe (channel : String) (id : ℕ) : Client :=
  match c.entry channel with
  | none => c
  | some e =>
    let rest := e.subs.filter fun sub => sub.id ≠ id
    if rest = [] then (c.drop channel).sendUnsubscribe channel
    else
      let c :=
        { c with
          subscriptions := c.subscriptions.map fun (e : Entry) =>
            if e.channel = channel then { e with subs := rest } else e }
      (c.recomputeChannelFilters channel).sendSubscribe channel

end Client

/-! ### Handlers -/

inductive Op where
  | onSnapshot (channel : String) (filters : Option Row) (serverFilters serverOrFilters : List Json)
  | unsubscribe (channel : String) (id : ℕ)
  deriving DecidableEq

def Client.perform (c : Client) : Op → Client
  | .onSnapshot channel filters serverFilters serverOrFilters =>
    c.onSnapshot channel filters serverFilters serverOrFilters
  | .unsubscribe channel id => c.unsubscribe channel id

def Client.performAll (c : Client) (ops : List Op) : Client := ops.foldl Client.perform c

/-- A place in the lists: behind so many subscriptions of a list. -/
structure Cursor where
  stamp : ℕ
  index : ℕ
  deriving DecidableEq

def Cursor.before (cursor other : Cursor) : Bool :=
  cursor.stamp < other.stamp ∨ cursor.stamp = other.stamp ∧ cursor.index < other.index

/-- A change, and the channel its frame names. -/
structure Incoming where
  change : DbChange
  messageChannel : Option Json

def InternalSubscription.takes (sub : InternalSubscription) (incoming : Incoming) : Bool :=
  match sub.filters, incoming.change.data with
  | some filters, some (.obj data) => matchesClientFilter data filters
  | _, _ => true

def Entry.takes (e : Entry) (incoming : Incoming) : Bool :=
  matchesDatabaseLiveChannel e.channel incoming.change incoming.messageChannel

/-- The places of a list, each with the subscription before it. -/
def Entry.places (e : Entry) : List (Cursor × InternalSubscription) :=
  e.subs.zipIdx.map fun p => (⟨e.stamp, p.2 + 1⟩, p.1)

/-- The places at which a handler is called, if nothing changes. -/
def Client.places (c : Client) (incoming : Incoming) : List (Cursor × InternalSubscription) :=
  (c.subscriptions.filter (·.takes incoming)).flatMap fun e =>
    e.places.filter fun p => p.2.takes incoming

def Client.remaining (c : Client) (incoming : Incoming) (cursor : Cursor) :
    List (Cursor × InternalSubscription) :=
  (c.places incoming).filter fun p => cursor.before p.1

/-- A call of a handler: the place behind it, the client before it, and what it does. -/
structure Call where
  before : Client
  cursor : Cursor
  sub : InternalSubscription
  ops : List Op

/-- The calls, the client after them, and what later calls will do. -/
structure Dispatched where
  calls : List Call
  client : Client
  script : List (List Op)

/-- The loops over the lists; the script says what the handlers do at their calls, one after the
other, and the calls beyond it do nothing. -/
def dispatch (incoming : Incoming) : List (List Op) → Client → Cursor → Dispatched
  | [], c, cursor => ⟨(c.remaining incoming cursor).map fun p => ⟨c, p.1, p.2, []⟩, c, []⟩
  | ops :: script, c, cursor =>
    match c.remaining incoming cursor with
    | [] => ⟨[], c, ops :: script⟩
    | (cursor, sub) :: _ =>
      let rest := dispatch incoming script (c.performAll ops) cursor
      { rest with calls := ⟨c, cursor, sub, ops⟩ :: rest.calls }

def dispatchAll :
    List Incoming → List (List Op) → Client → List (Incoming × Client × List Call) × Client
  | [], _, c => ([], c)
  | incoming :: changes, script, c =>
    let first := dispatch incoming script c ⟨0, 0⟩
    let rest := dispatchAll changes first.script first.client
    ((incoming, c, first.calls) :: rest.1, rest.2)

/-! ### Frames -/

/-- The body of the loop of `resyncFilters`. -/
def resyncChannel (c : Client) (channel : String) : Client :=
  let filters := (c.channelFilters.lookup channel).getD []
  let orFilters := (c.channelOrFilters.lookup channel).getD []
  if filters ≠ [] ∨ orFilters ≠ [] then c.sendRaw (.subscribe channel filters orFilters) else c

def resyncFilters (c : Client) : Client := (c.channelFilters.map Prod.fst).foldl resyncChannel c

def resubscribeAll (c : Client) : Client :=
  c.connectedChannels.foldl Client.sendSubscribe c

/-- `revokedChannels`. -/
def revoke (c : Client) (revoked : List String) : Client :=
  revoked.foldl (fun c channel =>
    { c.drop channel with connectedChannels := c.connectedChannels.filter (· ≠ channel) }) c

inductive Event where
  | perform (op : Op)
  /-- `connect`, also when the client connects again. -/
  | connect (channel : String)
  /-- A `db_change`, or the changes of a `batch_changes`. -/
  | changes (changes : List Incoming) (script : List (List Op))
  | filterResync
  | opened
  /-- `auth_success` or `auth_refreshed`, while the client signs in. -/
  | signedIn (revoked : List String)
  | authRefreshed (revoked : List String)
  /-- The server has lost the session. -/
  | notAuthenticated
  | closed
  | disconnect

def Client.signIn (c : Client) (revoked : List String) : Client :=
  resubscribeAll (revoke { c with authenticated := true } revoked)

def step (c : Client) : Event → Client
  | .perform op => c.perform op
  | .connect channel => c.connect channel
  | .changes changes script => (dispatchAll changes script c).2
  | .filterResync => resyncFilters c
  | .opened => { c with connected := true }
  | .signedIn revoked => c.signIn revoked
  | .authRefreshed revoked => revoke c revoked
  | .notAuthenticated => { c with authenticated := false }
  | .closed => { c with connected := false, authenticated := false }
  | .disconnect =>
    { c with
      connected := false, authenticated := false, connectedChannels := [], subscriptions := []
      channelFilters := [], channelOrFilters := [] }

/-! ### What the client owes -/

/-- The filters of a channel: those of its first subscription that has some. -/
def Client.filters (c : Client) (channel : String) : List Json :=
  (((c.subs channel).map (·.serverFilters)).find? (· ≠ [])).getD []

def Client.orFilters (c : Client) (channel : String) : List Json :=
  (((c.subs channel).map (·.serverOrFilters)).find? (· ≠ [])).getD []

/-- What is sent registers every channel that has filters, with just these. -/
def Registered (c : Client) (sent : List Request) : Prop :=
  ∀ channel, c.filters channel ≠ [] ∨ c.orFilters channel ≠ [] →
    sent.filter (fun request => request.channel = channel) =
      [.subscribe channel (c.filters channel) (c.orFilters channel)]

def Call.ahead (incoming : Incoming) (call : Call) : List InternalSubscription :=
  (call.before.remaining incoming call.cursor).map Prod.snd

/-- A handler is called once for a change, unless it is unsubscribed while its turn is still to
come. -/
def Served (incoming : Incoming) (sub : InternalSubscription) (calls : List Call) : Prop :=
  calls.countP (fun call => call.sub = sub) = 1 ∨
    calls.countP (fun call => call.sub = sub) = 0 ∧
      ∃ call ∈ calls, sub ∈ call.ahead incoming ∧ .unsubscribe sub.channel sub.id ∈ call.ops

instance (incoming : Incoming) (sub : InternalSubscription) (calls : List Call) :
    Decidable (Served incoming sub calls) :=
  inferInstanceAs (Decidable (_ ∨ _ ∧ _))

/-- Every handler that is there when the frame arrives gets the change. -/
def CalledOnce (arrived : Client) (incoming : Incoming) (c : Client) (calls : List Call) : Prop :=
  ∀ e ∈ c.subscriptions, e.takes incoming → ∀ sub ∈ e.subs, sub.id < arrived.next →
    sub.takes incoming → Served incoming sub calls

instance (arrived : Client) (incoming : Incoming) (c : Client) (calls : List Call) :
    Decidable (CalledOnce arrived incoming c calls) :=
  inferInstanceAs (Decidable (∀ e ∈ c.subscriptions, e.takes incoming → ∀ sub ∈ e.subs,
    sub.id < arrived.next → sub.takes incoming → Served incoming sub calls))

def Right (c : Client) : Event → Prop
  | .changes changes script =>
    ∀ turn ∈ (dispatchAll changes script c).1, CalledOnce c turn.1 turn.2.1 turn.2.2
  | .filterResync =>
    c.connected → Registered c ((step c .filterResync).sent.drop c.sent.length)
  | .signedIn revoked =>
    c.connected →
      Registered (step c (.signedIn revoked)) ((step c (.signedIn revoked)).sent.drop c.sent.length)
  | _ => True

/-! ### When it does so -/

/-- Whether a subscription stays when a handler has been called. -/
def keeps (ops : List Op) (sub : InternalSubscription) : Bool :=
  .unsubscribe sub.channel sub.id ∉ ops

/-- The subscriptions that a call makes the loop pass over: as many of those behind the place as
leave the list before it. -/
def Entry.missed (e : Entry) (index : ℕ) (ops : List Op) : List InternalSubscription :=
  ((e.subs.drop index).filter (keeps ops)).take
    ((e.subs.take index).filter (!keeps ops ·)).length

def Call.missed (call : Call) : List InternalSubscription :=
  (call.before.subscriptions.filter (·.stamp = call.cursor.stamp)).flatMap
    (·.missed call.cursor.index call.ops)

/-- No handler is passed over that is there when the frame arrives and takes the change, and no
channel has alternative filters alone when the filters are asked for. -/
def HoldsWhen (c : Client) : Event → Prop
  | .changes changes script =>
    ∀ turn ∈ (dispatchAll changes script c).1, ∀ call ∈ turn.2.2, ∀ sub ∈ call.missed,
      sub.id < c.next → ¬sub.takes turn.1
  | .filterResync =>
    c.connected → ∀ channel, c.orFilters channel ≠ [] → c.filters channel ≠ []
  | _ => True

end EdgeBase.LiveDispatch
