import EdgeBase.Live.Hub
import Mathlib.Data.List.Flatten
import Mathlib.Data.List.TakeWhile

/-!
# Changes in batches and one by one

A socket whose client understands batches gets the changes of a list in one frame, others get a
frame for each.  The frame of a batch does not say which table the changes are of.

* `equivalent_iff` : when they do.
-/

namespace EdgeBase

open List

namespace LiveHub

/-! ### The client -/

/-- `DbChange`, as the handlers get it. -/
structure DbChange where
  changeType : Option Json
  table : Option Json
  docId : Option Json
  data : Option Json
  timestamp : Option Json
  deriving DecidableEq

/-- A subscription: its handler, and the filters that the client checks. -/
structure Subscription where
  handler : ℕ
  filters : Option Row

abbrev Subscriptions := List (String × List Subscription)

def matchesClientFilter (data filters : Row) : Bool :=
  filters.all fun f => Json.strictEq (data.lookup f.1) (some f.2)

def matchesDatabaseLiveChannel (channel : String) (change : DbChange)
    (messageChannel : Option Json) : Bool :=
  match messageChannel with
  | some (.str messageChannel) =>
    if messageChannel ≠ "" then channel == messageChannel else byParts
  | _ => byParts
where
  byParts : Bool :=
    let names (part : List Char) : Bool := change.table = some (.str (String.ofList part))
    let isDoc (part : List Char) : Bool := change.docId = some (.str (String.ofList part))
    match channel.toList.splitOn ':' with
    | ['d', 'b', 'l', 'i', 'v', 'e'] :: parts =>
      match parts with
      | [] => false
      | [table] => names table
      | [_, table] => names table
      | [_, second, third] => names second && isDoc third || names third
      | _ :: _ :: third :: fourth :: _ => names third && isDoc fourth
    | _ => false

def Subscription.takes (sub : Subscription) (data : Option Json) : Bool :=
  match sub.filters, data with
  | some filters, some (.obj data) => matchesClientFilter data filters
  | _, _ => true

def deliver (subs : Subscriptions) (messageChannel : Option Json) (change : DbChange) :
    List (ℕ × DbChange) :=
  subs.flatMap fun (channel, subs) =>
    if matchesDatabaseLiveChannel channel change messageChannel then
      (subs.filter (·.takes change.data)).map fun sub => (sub.handler, change)
    else []

/-- The object of a `db_change`. -/
def singleChange (msg : Row) : DbChange where
  changeType := msg.lookup "changeType"
  table := msg.lookup "table"
  docId := msg.lookup "docId"
  data := msg.lookup "data"
  timestamp := msg.lookup "timestamp"

/-- The object of an entry of `batch_changes`; `table` is a field of the whole message. -/
def entryChange (msg entry : Row) : DbChange where
  changeType := entry.lookup "event"
  table :=
    match msg.lookup "table" with
    | none | some .null => some (.str "")
    | some table => some table
  docId := entry.lookup "docId"
  data := entry.lookup "data"
  timestamp := entry.lookup "timestamp"

/-- `handleMessage`: which handlers get which objects. -/
def handleMessage (subs : Subscriptions) (msg : Row) : List (ℕ × DbChange) :=
  match msg.lookup "type" with
  | some (.str "db_change") => deliver subs (msg.lookup "channel") (singleChange msg)
  | some (.str "batch_changes") =>
    match msg.lookup "changes" with
    | some (.arr changes) =>
      changes.flatMap fun entry =>
        match entry with
        | .obj entry => deliver subs (msg.lookup "channel") (entryChange msg entry)
        | _ => []
    | _ => []
  | _ => []

def received (subs : Subscriptions) (frames : List Row) (handler : ℕ) : List DbChange :=
  ((frames.flatMap (handleMessage subs)).filter (·.1 = handler)).map Prod.snd

/-- The changes in a frame, however it is laid out. -/
def frameChanges (msg : Row) : List (Option Json × Option Json × Option Json × Option Json) :=
  match msg.lookup "type" with
  | some (.str "db_change") =>
    [(msg.lookup "changeType", msg.lookup "docId", msg.lookup "data", msg.lookup "timestamp")]
  | some (.str "batch_changes") =>
    match msg.lookup "changes" with
    | some (.arr changes) =>
      changes.map fun entry =>
        match entry with
        | .obj entry =>
          (entry.lookup "event", entry.lookup "docId", entry.lookup "data",
            entry.lookup "timestamp")
        | _ => (none, none, none, none)
    | _ => []
  | _ => []

/-! ### The two ways -/

section Ways

variable (text : NumberText) (rule : ReadRule) (authority : Authority) (batch : Batch)
  (socket : WSMeta)

/-- A socket like another, whose client understands batches or does not. -/
def WSMeta.withBatches (socket : WSMeta) (supportsBatch : Bool) : WSMeta :=
  { socket with supportsBatch }

variable (supportsBatch : Bool)

@[simp] theorem withBatches_authenticated :
    (socket.withBatches supportsBatch).authenticated = socket.authenticated := rfl

@[simp] theorem withBatches_subscribedChannels :
    (socket.withBatches supportsBatch).subscribedChannels = socket.subscribedChannels := rfl

@[simp] theorem ensureLiveSessionAuthority_withBatches :
    ensureLiveSessionAuthority authority (socket.withBatches supportsBatch) =
      ensureLiveSessionAuthority authority socket := rfl

def framesOf (supportsBatch : Bool) : List Row :=
  sendBatch text rule authority batch (socket.withBatches supportsBatch)

/-- Both ways bring the same changes in the same order, and each handler the same objects. -/
def Equivalent (subs : Subscriptions) : Prop :=
  (framesOf text rule authority batch socket true).flatMap frameChanges =
      (framesOf text rule authority batch socket false).flatMap frameChanges ∧
    ∀ handler, received subs (framesOf text rule authority batch socket true) handler =
      received subs (framesOf text rule authority batch socket false) handler

def Served : Prop :=
  socket.authenticated = true ∧ batch.channel ∈ socket.subscribedChannels ∧
    ensureLiveSessionAuthority authority socket = .ok ()

/-- A change is for a socket and comes before any at which a filter throws. -/
def Sent (change : Change) : Prop :=
  change ∈ batch.changes.takeWhile (passes text rule socket batch.channel ·.data ≠ none) ∧
    passes text rule socket batch.channel change.data = some true

def Taken (subs : Subscriptions) (change : Change) : Prop :=
  ∃ sub ∈ (subs.filter (·.1 = batch.channel)).flatMap Prod.snd,
    sub.takes (some (jsonRow change.data)) = true

/-- If a filter throws, nothing has been sent before; and the table has no name, or no subscription
takes a change that is sent. -/
def HoldsWhen (subs : Subscriptions) : Prop :=
  Served authority batch socket →
    ((∃ change ∈ batch.changes, passes text rule socket batch.channel change.data = none) →
      ∀ change, ¬Sent text rule batch socket change) ∧
    (batch.table = "" ∨ ∀ change, Sent text rule batch socket change → ¬Taken batch subs change)

end Ways

/-! ### What the client makes of the frames -/

def objectOf (table : String) (change : Change) : DbChange where
  changeType := some (.str change.type)
  table := some (.str table)
  docId := some (.str change.docId)
  data := some (jsonRow change.data)
  timestamp := some (.str change.timestamp)

/-- The handlers of a channel that get a change. -/
def takers (subs : Subscriptions) (channel : String) (change : Change) : List ℕ :=
  (((subs.filter (·.1 = channel)).flatMap Prod.snd).filter
    (·.takes (some (jsonRow change.data)))).map (·.handler)

theorem deliver_eq {channel : String} (hchannel : channel ≠ "") (subs : Subscriptions)
    (table : String) (change : Change) :
    deliver subs (some (.str channel)) (objectOf table change) =
      (takers subs channel change).map fun handler => (handler, objectOf table change) := by
  have hmatches : ∀ name, matchesDatabaseLiveChannel name (objectOf table change)
      (some (.str channel)) = (name == channel) := by
    intro name
    unfold matchesDatabaseLiveChannel
    simp [hchannel]
  have hdata : (objectOf table change).data = some (jsonRow change.data) := rfl
  unfold deliver takers
  induction subs with
  | nil => rfl
  | cons entry subs ih =>
    obtain ⟨name, sub⟩ := entry
    rw [flatMap_cons, ih]
    by_cases hname : name = channel
    · simp [hmatches, hname, hdata]
    · simp [hmatches, hname]

theorem handleMessage_batchMsg (subs : Subscriptions) (channel : String) (changes : List Change)
    (total : ℕ) :
    handleMessage subs (batchMsg channel changes total) =
      changes.flatMap fun change => deliver subs (some (.str channel)) (objectOf "" change) := by
  change (changes.map batchEntry).flatMap _ = _
  rw [flatMap_map]
  rfl

def summary (change : Change) : Option Json × Option Json × Option Json × Option Json :=
  (some (.str change.type), some (.str change.docId), some (jsonRow change.data),
    some (.str change.timestamp))

theorem frameChanges_batchMsg (channel : String) (changes : List Change) (total : ℕ) :
    frameChanges (batchMsg channel changes total) = changes.map summary := by
  change (changes.map batchEntry).map _ = _
  rw [map_map]
  rfl

/-! ### What the hub sends -/

section Pass

variable {pass : Change → Option Bool} {changes : List Change}

def sentChanges (pass : Change → Option Bool) (changes : List Change) : List Change :=
  (changes.takeWhile (pass · ≠ none)).filter (pass · = some true)

theorem sendChanges_eq (channel table : String) (changes : List Change) :
    sendChanges pass channel table changes =
      (sentChanges pass changes).map (dbChange channel table) := by
  induction changes with
  | nil => rfl
  | cons change changes ih =>
    unfold sendChanges sentChanges
    unfold sentChanges at ih
    cases hpass : pass change with
    | none => simp [hpass]
    | some b => cases b <;> simp [hpass, ih]

theorem filteredChanges_of_throws (h : ∃ change ∈ changes, pass change = none) :
    filteredChanges pass changes = none := by
  induction changes with
  | nil => simp at h
  | cons change changes ih =>
    unfold filteredChanges
    cases hpass : pass change with
    | none => rfl
    | some b =>
      have hrest : ∃ change ∈ changes, pass change = none := by simpa [hpass] using h
      rw [ih hrest]
      rfl

variable (h : ∀ change ∈ changes, pass change ≠ none)
include h

theorem filteredChanges_of_not_throws :
    filteredChanges pass changes = some (sentChanges pass changes) := by
  induction changes with
  | nil => rfl
  | cons change changes ih =>
    obtain ⟨hchange, hchanges⟩ := forall_mem_cons.1 h
    unfold filteredChanges sentChanges
    rw [ih hchanges]
    unfold sentChanges
    cases hpass : pass change with
    | none => exact absurd hpass hchange
    | some b => cases b <;> simp [hpass]

theorem sentChanges_of_length (hlength : (sentChanges pass changes).length = changes.length) :
    sentChanges pass changes = changes := by
  have htake : changes.takeWhile (pass · ≠ none) = changes :=
    takeWhile_eq_self_iff.2 fun change hchange => by simpa using h change hchange
  unfold sentChanges at hlength ⊢
  rw [htake] at hlength ⊢
  exact filter_eq_self.2 (length_filter_eq_length_iff.1 hlength)

end Pass

section Sending

variable {text : NumberText} {rule : ReadRule} {authority : Authority} {batch : Batch}
  {socket : WSMeta}

abbrev passOf (text : NumberText) (rule : ReadRule) (batch : Batch) (socket : WSMeta)
    (change : Change) : Option Bool :=
  passes text rule socket batch.channel change.data

theorem sent_iff {change : Change} : Sent text rule batch socket change ↔
    change ∈ sentChanges (passOf text rule batch socket) batch.changes := by
  unfold Sent sentChanges
  rw [mem_filter, decide_eq_true_eq]

theorem framesOf_of_served (h : Served authority batch socket) (supportsBatch : Bool) :
    framesOf text rule authority batch socket supportsBatch =
      if supportsBatch then
        match filteredChanges (passOf text rule batch socket) batch.changes with
        | none => []
        | some [] => []
        | some filtered =>
          [if filtered.length = batch.changes.length then
              batchMsg batch.channel batch.changes batch.total
            else batchMsg batch.channel filtered filtered.length]
      else sendChanges (passOf text rule batch socket) batch.channel batch.table batch.changes := by
  obtain ⟨hauth, hchannel, hsession⟩ := h
  unfold framesOf sendBatch
  simp only [withBatches_authenticated, withBatches_subscribedChannels,
    ensureLiveSessionAuthority_withBatches, hauth, hchannel, hsession, Bool.not_true,
    Bool.false_eq_true, not_true_eq_false, if_false]
  rfl

/-- Whether a socket is served does not depend on the batches that its client understands. -/
theorem framesOf_of_not_served (h : ¬Served authority batch socket) :
    framesOf text rule authority batch socket true =
      framesOf text rule authority batch socket false := by
  unfold framesOf sendBatch
  simp only [withBatches_authenticated, withBatches_subscribedChannels,
    ensureLiveSessionAuthority_withBatches]
  by_cases hauth : socket.authenticated = true
  · by_cases hchannel : batch.channel ∈ socket.subscribedChannels
    · cases hsession : ensureLiveSessionAuthority authority socket with
      | error frame => rfl
      | ok _ => exact absurd ⟨hauth, hchannel, hsession⟩ h
    · simp [hchannel]
  · simp [hauth]

variable (h : Served authority batch socket)
include h

theorem framesOf_false : framesOf text rule authority batch socket false =
      (sentChanges (passOf text rule batch socket) batch.changes).map
        (dbChange batch.channel batch.table) := by
  rw [framesOf_of_served h, ← sendChanges_eq]
  rfl

theorem framesOf_true_of_throws
    (hthrows : ∃ change ∈ batch.changes, passOf text rule batch socket change = none) :
    framesOf text rule authority batch socket true = [] := by
  rw [framesOf_of_served h, filteredChanges_of_throws hthrows]
  rfl

theorem framesOf_true
    (hthrows : ∀ change ∈ batch.changes, passOf text rule batch socket change ≠ none) :
    (sentChanges (passOf text rule batch socket) batch.changes = [] ∧
        framesOf text rule authority batch socket true = []) ∨
      ∃ total, framesOf text rule authority batch socket true =
        [batchMsg batch.channel (sentChanges (passOf text rule batch socket) batch.changes)
          total] := by
  have hlength := sentChanges_of_length hthrows
  rw [framesOf_of_served h, filteredChanges_of_not_throws hthrows, if_pos rfl]
  cases hsent : sentChanges (passOf text rule batch socket) batch.changes with
  | nil => exact .inl ⟨rfl, rfl⟩
  | cons change changes =>
    rw [hsent] at hlength
    dsimp only
    split_ifs with hall
    · rw [hlength hall]
      exact .inr ⟨_, rfl⟩
    · exact .inr ⟨_, rfl⟩

omit h

theorem flatMap_true {β : Type*} (h : Served authority batch socket)
    (hthrows : ∀ change ∈ batch.changes, passOf text rule batch socket change ≠ none)
    {f : Row → List β} {g : Change → List β}
    (hf : ∀ changes total, f (batchMsg batch.channel changes total) = changes.flatMap g) :
    (framesOf text rule authority batch socket true).flatMap f =
      (sentChanges (passOf text rule batch socket) batch.changes).flatMap g := by
  rcases framesOf_true h hthrows with ⟨hnil, hframes⟩ | ⟨total, hframes⟩
  · rw [hframes, hnil]
    rfl
  · rw [hframes, flatMap_singleton, hf]

theorem flatMap_false {β : Type*} (h : Served authority batch socket) (f : Row → List β) :
    (framesOf text rule authority batch socket false).flatMap f =
      (sentChanges (passOf text rule batch socket) batch.changes).flatMap fun change =>
        f (dbChange batch.channel batch.table change) := by
  rw [framesOf_false h, flatMap_map]

variable {subs : Subscriptions}

theorem received_eq {frames : List Row} {table channel : String}
    {changes : List Change} (hchannel : channel ≠ "")
    (hframes : frames.flatMap (handleMessage subs) =
      changes.flatMap fun change => deliver subs (some (.str channel)) (objectOf table change))
    (handler : ℕ) :
    received subs frames handler = changes.flatMap fun change =>
      ((takers subs channel change).filter (· = handler)).map fun _ => objectOf table change := by
  unfold received
  rw [hframes]
  clear hframes
  induction changes with
  | nil => rfl
  | cons change changes ih =>
    rw [flatMap_cons, filter_append, map_append, deliver_eq hchannel,
      flatMap_cons, filter_map, map_map, ih]
    rfl

theorem taken_iff {change : Change} :
    Taken batch subs change ↔ ∃ handler, handler ∈ takers subs batch.channel change := by
  unfold Taken takers
  constructor
  · rintro ⟨sub, hsub, htakes⟩
    exact ⟨sub.handler, mem_map_of_mem (mem_filter.2 ⟨hsub, htakes⟩)⟩
  · rintro ⟨handler, hmem⟩
    obtain ⟨sub, hsub, -⟩ := mem_map.1 hmem
    exact ⟨sub, (mem_filter.1 hsub).1, (mem_filter.1 hsub).2⟩

/-- Handlers get objects of one table as they get those of another only if the tables are the same
or they get none. -/
theorem objects_eq_iff {channel table table' : String} {changes : List Change} :
    (∀ handler, (changes.flatMap fun change =>
        ((takers subs channel change).filter (· = handler)).map fun _ => objectOf table change) =
      changes.flatMap fun change =>
        ((takers subs channel change).filter (· = handler)).map fun _ => objectOf table' change) ↔
      table' = table ∨ ∀ change ∈ changes, ∀ handler, handler ∉ takers subs channel change := by
  constructor
  · intro h
    by_contra hnot
    push Not at hnot
    obtain ⟨hne, change, hchange, handler, hhandler⟩ := hnot
    have hmem : objectOf table' change ∈ changes.flatMap fun change =>
        ((takers subs channel change).filter (· = handler)).map fun _ => objectOf table change := by
      rw [h handler]
      refine mem_flatMap.2 ⟨change, hchange, mem_map.2 ⟨handler, ?_, rfl⟩⟩
      exact mem_filter.2 ⟨hhandler, decide_eq_true rfl⟩
    obtain ⟨other, -, hother⟩ := mem_flatMap.1 hmem
    obtain ⟨-, -, heq⟩ := mem_map.1 hother
    have htable := congrArg DbChange.table heq
    simp only [objectOf, Option.some.injEq, Json.str.injEq] at htable
    exact hne htable.symm
  · rintro (rfl | hnone) handler
    · rfl
    · have hfilter : ∀ change ∈ changes,
          (takers subs channel change).filter (· = handler) = [] := by
        intro change hchange
        rw [eq_nil_iff_forall_not_mem.2 (hnone change hchange)]
        rfl
      rw [flatMap_eq_nil_iff.2 fun change hchange => by rw [hfilter change hchange]; rfl,
        flatMap_eq_nil_iff.2 fun change hchange => by rw [hfilter change hchange]; rfl]

/-- **Batches.**  A client that understands batches and one that does not get the same changes, and
their handlers the same objects, if and only if a filter that throws does so before anything is
sent, and the table has no name or no subscription takes a change that is sent. -/
theorem equivalent_iff (text : NumberText) (rule : ReadRule) (authority : Authority)
    (batch : Batch) (socket : WSMeta) (subs : Subscriptions) :
    Equivalent text rule authority batch socket subs ↔
      HoldsWhen text rule authority batch socket subs := by
  unfold Equivalent HoldsWhen
  by_cases hserved : Served authority batch socket
  · have hchannel : batch.channel ≠ "" := socket.named _ hserved.2.1
    rw [forall_prop_of_true hserved]
    simp only [sent_iff, taken_iff, not_exists]
    generalize hkept : sentChanges (passOf text rule batch socket) batch.changes = kept
    have hsingle : ∀ {β : Type} (f : Row → List β),
        (framesOf text rule authority batch socket false).flatMap f =
          kept.flatMap fun change => f (dbChange batch.channel batch.table change) :=
      fun f => hkept ▸ flatMap_false hserved f
    have hobjects := received_eq hchannel (hsingle (handleMessage subs))
    have hchanges : (framesOf text rule authority batch socket false).flatMap frameChanges =
        kept.map summary := by
      rw [hsingle]
      exact flatMap_pure_eq_map _ _
    by_cases hthrows : ∃ change ∈ batch.changes, passOf text rule batch socket change = none
    · rw [framesOf_true_of_throws hserved hthrows, hchanges]
      constructor
      · intro h
        obtain rfl := map_eq_nil_iff.1 h.1.symm
        exact ⟨fun _ _ => not_mem_nil, .inr nofun⟩
      · intro h
        obtain rfl := eq_nil_iff_forall_not_mem.2 (h.1 hthrows)
        exact ⟨rfl, fun handler => (hobjects handler).symm⟩
    · have hnot : ∀ change ∈ batch.changes, passOf text rule batch socket change ≠ none :=
        fun change hchange hnone => hthrows ⟨change, hchange, hnone⟩
      have hbatch := flatMap_true hserved hnot (handleMessage_batchMsg subs batch.channel)
      have hsummaries := flatMap_true hserved hnot (g := fun change => [summary change])
        fun changes total => (frameChanges_batchMsg batch.channel changes total).trans
          (flatMap_pure_eq_map _ _).symm
      rw [hkept] at hbatch hsummaries
      have hobjects' := received_eq hchannel hbatch
      rw [hsummaries, hchanges]
      simp only [hobjects, hobjects', objects_eq_iff]
      exact ⟨fun h => ⟨fun hthrow => absurd hthrow hthrows, h.2⟩,
        fun h => ⟨flatMap_pure_eq_map _ _, h.2⟩⟩
  · rw [framesOf_of_not_served hserved]
    exact ⟨fun _ h => absurd h hserved, fun _ => ⟨rfl, fun _ => rfl⟩⟩

end Sending

/-! ### A batch of one post -/

def postAdded : Batch where
  channel := "dblive:shared:posts"
  table := "posts"
  changes := [⟨"added", "p1", some [("id", .str "p1")], "2024-06-01T00:00:00.000Z"⟩]
  total := 1

def follower : WSMeta where
  authenticated := true
  userId := some "u1"
  sessionId := some "s1"
  role := none
  subscribedChannels := ["dblive:shared:posts"]
  channelFilters := []
  channelOrFilters := []
  supportsBatch := true
  named := by decide

/-- The handler of a client that understands batches gets a change of no table. -/
theorem postAdded_not_equivalent : ¬Equivalent ⟨fun _ => "", fun _ => none⟩ .undefined .active
    postAdded follower [("dblive:shared:posts", [⟨0, none⟩])] := by
  intro h
  have htable := congrArg (List.map DbChange.table) (h.2 0)
  have hbatch : (received [("dblive:shared:posts", [⟨0, none⟩])] (framesOf
      ⟨fun _ => "", fun _ => none⟩ .undefined .active postAdded follower true) 0).map
        DbChange.table = [some (.str "")] := by decide +kernel
  have hsingle : (received [("dblive:shared:posts", [⟨0, none⟩])] (framesOf
      ⟨fun _ => "", fun _ => none⟩ .undefined .active postAdded follower false) 0).map
        DbChange.table = [some (.str "posts")] := by decide +kernel
  rw [hbatch, hsingle] at htable
  exact absurd htable (by decide)

end LiveHub

end EdgeBase
