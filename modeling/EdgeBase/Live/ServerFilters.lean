import EdgeBase.Live.Snapshots

/-!
# Filters on the server

A client keeps one pair of filters for a channel, those of its first subscription that has some,
and the hub sends it only the changes that pass.  The subscriptions of the channel share what comes.

* `recomputeChannelFilters`, `LiveClient.step` : the client.
* `serverFilters_transparent_iff` : in runs of such changes nobody sees that the hub filters, and
  only in those.
-/

namespace EdgeBase

open List Subscriber

/-! ### The hub -/

/-- `evaluateDatabaseLiveFilters` on equalities. -/
def evaluateDatabaseLiveFilters (data : Row) (filters orFilters : List Equality) : Bool :=
  if !filters.all (·.holds data) then false
  else if orFilters.isEmpty then true
  else orFilters.any (·.holds data)

/-- `MAX_FILTER_CONDITIONS`. -/
def maxFilterConditions : ℕ := 5

structure HubChannel where
  subscribed : Bool := false
  filters : List Equality := []
  orFilters : List Equality := []
  deriving DecidableEq

namespace HubChannel

/-- `handleSubscribe`; `allowed` is the access to the channel. -/
def handleSubscribe (allowed : Bool) (channel : HubChannel) (filters orFilters : List Equality) :
    HubChannel :=
  if maxFilterConditions < filters.length ∨ maxFilterConditions < orFilters.length then channel
  else if !allowed then channel
  else { subscribed := true, filters, orFilters }

def shouldSend (channel : HubChannel) (change : LiveChange) : Bool :=
  if channel.filters.isEmpty && channel.orFilters.isEmpty then true
  else change.data.all fun data =>
    evaluateDatabaseLiveFilters data channel.filters channel.orFilters

/-- Whether the hub sends a change; `readable` is the access to its row. -/
def sends (readable : LiveChange → Bool) (channel : HubChannel) (change : LiveChange) : Bool :=
  channel.subscribed && readable change && channel.shouldSend change

end HubChannel

/-! ### The client -/

def Subscriber.serverFilters (sub : Subscriber) : List Equality :=
  if sub.serverFilter then sub.filters else []

/-- The alternatives that a subscription gives to the client. -/
def Subscriber.serverOrFilters (sub : Subscriber) : List Equality :=
  if sub.serverFilter then sub.orFilters else []

/-- `recomputeChannelFilters`: each kind of filters is taken from the first open subscription that
has some. -/
def recomputeChannelFilters (subs : List Subscriber) : List Equality × List Equality :=
  let subs := subs.filter Subscriber.isOpen
  (((subs.map Subscriber.serverFilters).find? (!·.isEmpty)).getD [],
    ((subs.map Subscriber.serverOrFilters).find? (!·.isEmpty)).getD [])

inductive LiveAction where
  /-- `onSnapshot` of a query. -/
  | subscribe (filters orFilters : List Equality) (serverFilter : Bool)
  /-- The subscription that was opened as the i-th one is closed. -/
  | unsubscribe (i : ℕ)
  | change (change : LiveChange)
  /-- The timers of the subscriptions fire. -/
  | flush

/-- A client with its subscriptions of a channel, in the order of their opening, and the hub. -/
structure LiveClient where
  subs : List Subscriber := []
  channel : HubChannel := {}
  deriving DecidableEq

namespace LiveClient

variable (allowed : Bool) (readable : LiveChange → Bool)

/-- `sendSubscribe`, which the hub handles before the next change. -/
def sendSubscribe (client : LiveClient) : LiveClient :=
  let filters := recomputeChannelFilters client.subs
  { client with channel := client.channel.handleSubscribe allowed filters.1 filters.2 }

def step (client : LiveClient) : LiveAction → LiveClient
  | .subscribe filters orFilters serverFilter =>
    sendSubscribe allowed
      { client with subs := client.subs ++ [{ filters, orFilters, serverFilter }] }
  | .unsubscribe i =>
    if client.subs.any Subscriber.isOpen then
      let subs := client.subs.modify i fun sub => { sub with isOpen := false }
      if subs.any Subscriber.isOpen then sendSubscribe allowed { client with subs }
      else { subs, channel := {} }
    else client
  | .change change =>
    if client.channel.sends readable change then
      { client with
        subs := client.subs.map fun sub => if sub.isOpen then sub.handle change else sub }
    else client
  | .flush => { client with subs := client.subs.map Subscriber.flush }

def run (client : LiveClient) (actions : List LiveAction) : LiveClient :=
  actions.foldl (step allowed readable) client

def seen (client : LiveClient) : List (List Snapshot) := client.subs.map Subscriber.seen

end LiveClient

/-- The same with `{ serverFilter: false }`. -/
def LiveAction.plain : LiveAction → LiveAction
  | .subscribe filters orFilters _ => .subscribe filters orFilters false
  | action => action

/-- The number of conditions that the hub accepts. -/
def LiveAction.Small : LiveAction → Prop
  | .subscribe filters orFilters _ =>
    filters.length ≤ maxFilterConditions ∧ orFilters.length ≤ maxFilterConditions
  | _ => True

/-- A change that the hub keeps back only because of the filters would have been ignored by every
subscription. -/
def Unnoticed (readable : LiveChange → Bool) (client : LiveClient) (change : LiveChange) : Prop :=
  client.channel.subscribed = true → readable change = true →
    client.channel.shouldSend change = false →
    ∀ sub ∈ client.subs, sub.isOpen = true → sub.Ignores change

/-- All changes of a run are unnoticed when they come. -/
def Calm (allowed : Bool) (readable : LiveChange → Bool) : LiveClient → List LiveAction → Prop
  | _, [] => True
  | client, action :: actions =>
    (∀ change, action = .change change → Unnoticed readable client change) ∧
      Calm allowed readable (client.step allowed readable action) actions

/-! ### The two runs -/

/-- A subscription with `{ serverFilter: false }`. -/
def Subscriber.plain (sub : Subscriber) : Subscriber := { sub with serverFilter := false }

namespace Subscriber

variable {sub : Subscriber}

theorem handle_plain (change : LiveChange) :
    sub.plain.handle change = (sub.handle change).plain := by
  unfold handle
  simp only [show sub.plain.hasFilterConstraints = sub.hasFilterConstraints from rfl,
    show sub.plain.hasItem change = sub.hasItem change from rfl,
    show sub.plain.wants change = sub.wants change from rfl]
  split_ifs <;> rfl

theorem flush_plain : sub.plain.flush = sub.flush.plain := by
  unfold flush
  simp only [show sub.plain.pending = sub.pending from rfl]
  split_ifs <;> rfl

end Subscriber

/-- The client whose hub filters, and the one whose hub does not. -/
structure Alike (filtered plain : LiveClient) : Prop where
  subs : plain.subs = filtered.subs.map Subscriber.plain
  subscribed : plain.channel.subscribed = filtered.channel.subscribed
  filters : plain.channel.filters = []
  orFilters : plain.channel.orFilters = []
  small : ∀ sub ∈ filtered.subs, sub.filters.length ≤ maxFilterConditions ∧
    sub.orFilters.length ≤ maxFilterConditions

section Runs

variable {allowed : Bool} {readable : LiveChange → Bool} {filtered plain : LiveClient}

theorem length_recomputeChannelFilters {subs : List Subscriber}
    (h : ∀ sub ∈ subs, sub.filters.length ≤ maxFilterConditions ∧
      sub.orFilters.length ≤ maxFilterConditions) :
    (recomputeChannelFilters subs).1.length ≤ maxFilterConditions ∧
      (recomputeChannelFilters subs).2.length ≤ maxFilterConditions := by
  have hfind : ∀ f : Subscriber → List Equality,
      (∀ sub ∈ subs, (f sub).length ≤ maxFilterConditions) →
      ((((subs.filter Subscriber.isOpen).map f).find? (!·.isEmpty)).getD []).length ≤
        maxFilterConditions := by
    intro f hf
    cases hfound : ((subs.filter Subscriber.isOpen).map f).find? (!·.isEmpty) with
    | none => exact Nat.zero_le _
    | some filters =>
      obtain ⟨sub, hsub, rfl⟩ := mem_map.1 (List.mem_of_find?_eq_some hfound)
      exact hf sub (mem_of_mem_filter hsub)
  constructor
  · refine hfind _ fun sub hsub => ?_
    unfold Subscriber.serverFilters
    split
    · exact (h sub hsub).1
    · exact Nat.zero_le _
  · refine hfind _ fun sub hsub => ?_
    unfold Subscriber.serverOrFilters
    split
    · exact (h sub hsub).2
    · exact Nat.zero_le _

theorem recomputeChannelFilters_plain (subs : List Subscriber) :
    recomputeChannelFilters (subs.map Subscriber.plain) = ([], []) := by
  have hfind : ∀ f : Subscriber → List Equality, (∀ sub : Subscriber, f sub.plain = []) →
      (((subs.map Subscriber.plain).filter Subscriber.isOpen).map f).find? (!·.isEmpty) = none := by
    intro f hf
    refine List.find?_eq_none.2 fun filters hfilters => ?_
    obtain ⟨sub, hsub, rfl⟩ := mem_map.1 hfilters
    obtain ⟨sub, -, rfl⟩ := mem_map.1 (mem_of_mem_filter hsub)
    simp [hf]
  unfold recomputeChannelFilters
  dsimp only
  rw [hfind _ fun _ => rfl, hfind _ fun _ => rfl]
  rfl

theorem Alike.sendSubscribe (h : Alike filtered plain) :
    Alike (filtered.sendSubscribe allowed) (plain.sendSubscribe allowed) := by
  have hlength := length_recomputeChannelFilters h.small
  have hplain : recomputeChannelFilters plain.subs = ([], []) := by
    rw [h.subs, recomputeChannelFilters_plain]
  have hfiltered : filtered.channel.handleSubscribe allowed
      (recomputeChannelFilters filtered.subs).1 (recomputeChannelFilters filtered.subs).2 =
      if !allowed then filtered.channel
      else ⟨true, (recomputeChannelFilters filtered.subs).1,
        (recomputeChannelFilters filtered.subs).2⟩ := by
    rw [HubChannel.handleSubscribe, if_neg (by omega)]
  have hhub : plain.channel.handleSubscribe allowed [] [] =
      if !allowed then plain.channel else ⟨true, [], []⟩ := by
    rw [HubChannel.handleSubscribe, if_neg (by simp)]
  unfold LiveClient.sendSubscribe
  rw [hplain]
  dsimp only
  rw [hfiltered, hhub]
  cases allowed with
  | false => exact ⟨h.subs, h.subscribed, h.filters, h.orFilters, h.small⟩
  | true => exact ⟨h.subs, rfl, rfl, rfl, h.small⟩

theorem any_isOpen_plain (subs : List Subscriber) :
    (subs.map Subscriber.plain).any Subscriber.isOpen = subs.any Subscriber.isOpen := by
  rw [any_map]
  rfl

theorem Alike.sends (h : Alike filtered plain) (change : LiveChange) :
    plain.channel.sends readable change = (filtered.channel.subscribed && readable change) := by
  simp [HubChannel.sends, HubChannel.shouldSend, h.filters, h.orFilters, h.subscribed]

theorem map_handle_plain (change : LiveChange) (subs : List Subscriber) :
    (subs.map Subscriber.plain).map (fun sub => if sub.isOpen then sub.handle change else sub) =
      (subs.map fun sub => if sub.isOpen then sub.handle change else sub).map Subscriber.plain := by
  rw [map_map, map_map]
  refine map_congr_left fun sub _ => ?_
  dsimp only [Function.comp_apply]
  rw [show sub.plain.isOpen = sub.isOpen from rfl]
  split
  · exact handle_plain change
  · rfl

/-- An entry of a modified list was there before, or is what the modification made of one. -/
theorem mem_of_mem_modify {α : Type*} {f : α → α} {a : α} :
    ∀ {l : List α} {i : ℕ}, a ∈ l.modify i f → ∃ b ∈ l, a = b ∨ a = f b
  | [], _, h => by simp at h
  | b :: l, 0, h => by
    rw [modify_zero_cons] at h
    rcases mem_cons.1 h with rfl | h
    · exact ⟨b, mem_cons_self, .inr rfl⟩
    · exact ⟨a, mem_cons_of_mem b h, .inl rfl⟩
  | b :: l, i + 1, h => by
    rw [modify_succ_cons] at h
    rcases mem_cons.1 h with rfl | h
    · exact ⟨a, mem_cons_self, .inl rfl⟩
    · obtain ⟨c, hc, hac⟩ := mem_of_mem_modify h
      exact ⟨c, mem_cons_of_mem b hc, hac⟩

theorem modify_plain : ∀ (subs : List Subscriber) (i : ℕ),
    (subs.map Subscriber.plain).modify i (fun sub => { sub with isOpen := false }) =
      (subs.modify i fun sub => { sub with isOpen := false }).map Subscriber.plain
  | [], _ => by simp
  | sub :: subs, 0 => rfl
  | sub :: subs, i + 1 => by
    rw [map_cons, modify_succ_cons, modify_succ_cons, modify_plain subs i]
    rfl

theorem Alike.change (h : Alike filtered plain) {change : LiveChange}
    (hunnoticed : Unnoticed readable filtered change) :
    Alike (filtered.step allowed readable (.change change))
      (plain.step allowed readable (.change change)) := by
  have hsends : filtered.channel.sends readable change =
      ((filtered.channel.subscribed && readable change) && filtered.channel.shouldSend change) := rfl
  dsimp only [LiveClient.step]
  rw [h.sends, hsends]
  cases hreach : filtered.channel.subscribed && readable change with
  | false => simpa using h
  | true =>
    have hsubs : plain.subs.map (fun sub => if sub.isOpen then sub.handle change else sub) =
        (filtered.subs.map fun sub => if sub.isOpen then sub.handle change else sub).map
          Subscriber.plain := by
      rw [h.subs, map_handle_plain]
    obtain ⟨hsubscribed, hreadable⟩ := Bool.and_eq_true_iff.1 hreach
    cases hsend : filtered.channel.shouldSend change with
    | true =>
      refine ⟨hsubs, h.subscribed, h.filters, h.orFilters, fun sub hsub => ?_⟩
      obtain ⟨sub, hold, rfl⟩ := mem_map.1 hsub
      have hfilters : (sub.handle change).filters = sub.filters ∧
          (sub.handle change).orFilters = sub.orFilters := by
        unfold Subscriber.handle
        split_ifs <;> exact ⟨rfl, rfl⟩
      split
      · rw [hfilters.1, hfilters.2]
        exact h.small sub hold
      · exact h.small sub hold
    | false =>
      -- the change that did not come would have changed nothing
      have hignored : filtered.subs.map
          (fun sub => if sub.isOpen then sub.handle change else sub) = filtered.subs := by
        refine (map_congr_left fun sub hsub => ?_).trans (map_id _)
        split
        · next hopen =>
          exact handle_of_ignores
            (hunnoticed hsubscribed hreadable hsend sub hsub hopen)
        · rfl
      rw [hignored] at hsubs
      exact ⟨hsubs, h.subscribed, h.filters, h.orFilters, h.small⟩

theorem Alike.step (h : Alike filtered plain) {action : LiveAction} (hsmall : action.Small)
    (hcalm : ∀ change, action = .change change → Unnoticed readable filtered change) :
    Alike (filtered.step allowed readable action) (plain.step allowed readable action.plain) := by
  cases action with
  | subscribe filters orFilters serverFilter =>
    refine Alike.sendSubscribe ⟨?_, h.subscribed, h.filters, h.orFilters, fun sub hsub => ?_⟩
    · dsimp only
      rw [h.subs, map_append]
      rfl
    · rcases mem_append.1 hsub with hsub | hsub
      · exact h.small sub hsub
      · obtain rfl := mem_singleton.1 hsub
        exact hsmall
  | unsubscribe i =>
    have hmodify : plain.subs.modify i (fun sub => { sub with isOpen := false }) =
        (filtered.subs.modify i fun sub => { sub with isOpen := false }).map Subscriber.plain := by
      rw [h.subs, modify_plain]
    have hsmallModify : ∀ sub ∈ filtered.subs.modify i fun sub => { sub with isOpen := false },
        sub.filters.length ≤ maxFilterConditions ∧ sub.orFilters.length ≤ maxFilterConditions :=
      fun sub hsub => by
        obtain ⟨old, hold, heq⟩ := mem_of_mem_modify hsub
        rcases heq with rfl | rfl
        · exact h.small sub hold
        · exact h.small old hold
    dsimp only [LiveClient.step, LiveAction.plain]
    rw [hmodify, any_isOpen_plain, h.subs, any_isOpen_plain]
    split
    · split
      · exact Alike.sendSubscribe ⟨rfl, h.subscribed, h.filters, h.orFilters, hsmallModify⟩
      · exact ⟨rfl, rfl, rfl, rfl, hsmallModify⟩
    · exact h
  | change change => exact h.change (hcalm change rfl)
  | flush =>
    refine ⟨?_, h.subscribed, h.filters, h.orFilters, fun sub hsub => ?_⟩
    · dsimp only [LiveClient.step, LiveAction.plain]
      rw [h.subs, map_map, map_map]
      exact map_congr_left fun sub _ => flush_plain
    · obtain ⟨sub, hold, rfl⟩ := mem_map.1 hsub
      have hfilters : sub.flush.filters = sub.filters ∧ sub.flush.orFilters = sub.orFilters := by
        unfold Subscriber.flush
        split_ifs <;> exact ⟨rfl, rfl⟩
      rw [hfilters.1, hfilters.2]
      exact h.small sub hold

theorem Alike.run : ∀ {actions : List LiveAction} {filtered plain : LiveClient},
    Alike filtered plain → (∀ action ∈ actions, action.Small) →
    Calm allowed readable filtered actions →
    Alike (filtered.run allowed readable actions)
      (plain.run allowed readable (actions.map LiveAction.plain))
  | [], _, _, h, _, _ => h
  | action :: _, _, _, h, hsmall, ⟨hunnoticed, hcalm⟩ =>
    (h.step (hsmall action mem_cons_self) hunnoticed).run
      (fun action h => hsmall action (mem_cons_of_mem _ h)) hcalm

theorem Alike.seen (h : Alike filtered plain) : filtered.seen = plain.seen := by
  unfold LiveClient.seen
  rw [h.subs, map_map]
  rfl

theorem seen_change_flush (client : LiveClient) (change : LiveChange) :
    (client.run allowed readable [.change change, .flush]).seen = client.subs.map fun sub =>
        (if client.channel.sends readable change && sub.isOpen then sub.handle change
          else sub).flush.seen := by
  dsimp only [LiveClient.run, foldl_cons, foldl_nil, LiveClient.step, LiveClient.seen]
  cases client.channel.sends readable change with
  | false => simp
  | true =>
    simp only [if_true, map_map, Bool.true_and]
    rfl

theorem Alike.seen_change_flush_iff (h : Alike filtered plain) (change : LiveChange) :
    (filtered.run allowed readable [.change change, .flush]).seen =
        (plain.run allowed readable [.change change, .flush]).seen ↔
      Unnoticed readable filtered change := by
  refine ⟨fun hseen hsubscribed hreadable hkept sub hsub hopen => ?_, fun hunnoticed => ?_⟩
  · have hfiltered : filtered.channel.sends readable change = false := by
      rw [HubChannel.sends, hkept, Bool.and_false]
    have hplain : plain.channel.sends readable change = true := by
      rw [h.sends, hsubscribed, hreadable, Bool.and_self]
    rw [seen_change_flush, seen_change_flush, hfiltered, hplain, h.subs, map_map,
      map_inj_left] at hseen
    have hsame : sub.flush.seen = (sub.plain.handle change).flush.seen := by
      have hsame := hseen sub hsub
      dsimp only [Function.comp_apply] at hsame
      rwa [show sub.plain.isOpen = true from hopen, Bool.and_self, if_pos rfl,
        Bool.false_and, if_neg Bool.false_ne_true] at hsame
    -- the number of the changes that were seen gives the difference away
    by_contra hignores
    have htotal := total_handle_of_not_ignores hignores
    rw [total_of_flushed, total_of_flushed, hsame,
      handle_plain, flush_plain] at htotal
    exact absurd htotal (Nat.succ_ne_self _).symm
  · have hchange : Alike (filtered.step allowed readable (.change change))
        (plain.step allowed readable (.change change)) := h.change hunnoticed
    have hflush : Alike (filtered.run allowed readable [.change change, .flush])
        (plain.run allowed readable [.change change, .flush]) := by
      refine @Alike.step allowed readable _ _ hchange .flush trivial fun other hother => ?_
      cases hother
    exact hflush.seen

end Runs

/-- In a calm run every subscriber sees what it would see if the hub did not filter; and after
it, one more change is seen alike exactly when it goes unnoticed too. -/
theorem serverFilters_transparent_iff (allowed : Bool) (readable : LiveChange → Bool)
    {actions : List LiveAction} (hsmall : ∀ action ∈ actions, action.Small)
    (hcalm : Calm allowed readable {} actions) : (LiveClient.run allowed readable {} actions).seen =
        (LiveClient.run allowed readable {} (actions.map LiveAction.plain)).seen ∧
      ∀ change : LiveChange,
        ((LiveClient.run allowed readable {} (actions ++ [.change change, .flush])).seen =
            (LiveClient.run allowed readable {}
              ((actions ++ [LiveAction.change change, .flush]).map LiveAction.plain)).seen ↔
          Unnoticed readable (LiveClient.run allowed readable {} actions) change) := by
  have hstart : Alike {} {} := ⟨rfl, rfl, rfl, rfl, by simp⟩
  have halike : Alike (LiveClient.run allowed readable {} actions)
      (LiveClient.run allowed readable {} (actions.map LiveAction.plain)) :=
    hstart.run hsmall hcalm
  refine ⟨halike.seen, fun change => ?_⟩
  have happend : ∀ (client : LiveClient) (first second : List LiveAction),
      client.run allowed readable (first ++ second) =
        (client.run allowed readable first).run allowed readable second := fun _ _ _ =>
    foldl_append
  rw [map_append, happend, happend]
  exact halike.seen_change_flush_iff change

/-! ### A filter that is too strict -/

def statusIs (status : String) : Equality := ⟨"status", .str status⟩

def taskChange (type : ChangeType) (id status : String) : LiveChange where
  type
  docId := some (.str id)
  data := some [("id", .str id), ("status", .str status)]

/-- A task is opened and closed under the eyes of a subscriber to the open tasks. -/
def closedTask : List LiveAction :=
  [.subscribe [statusIs "open"] [] true, .change (taskChange .added "t1" "open"), .flush,
    .change (taskChange .modified "t1" "closed"), .flush]

/-- A task is closed under the eyes of a subscriber to the open ones and of one to all. -/
def closedForAll : List LiveAction :=
  [.subscribe [statusIs "open"] [] true, .subscribe [] [] true,
    .change (taskChange .added "t1" "closed"), .flush]

/-- The closed task stays in the snapshot of the open ones, and the filter of one subscriber hides
a task from the other. -/
theorem serverFilters_of_closed_task :
    (LiveClient.run true (fun _ => true) {} closedTask).seen ≠
        (LiveClient.run true (fun _ => true) {} (closedTask.map LiveAction.plain)).seen ∧
      (LiveClient.run true (fun _ => true) {} closedTask).subs.map Subscriber.items =
        [[(some (.str "t1"), [("id", .str "t1"), ("status", .str "open")])]] ∧
      (LiveClient.run true (fun _ => true) {} (closedTask.map LiveAction.plain)).subs.map
        Subscriber.items = [[]] ∧
      (LiveClient.run true (fun _ => true) {} closedForAll).seen ≠
        (LiveClient.run true (fun _ => true) {} (closedForAll.map LiveAction.plain)).seen := by
  decide

/-- An open task comes, and then a closed one that nobody watches. -/
def watchedTask : List LiveAction :=
  [.subscribe [statusIs "open"] [] true, .change (taskChange .added "t1" "open"), .flush,
    .change (taskChange .added "t2" "closed"), .flush]

theorem serverFilters_transparent_watched :
    (LiveClient.run true (fun _ => true) {} watchedTask).seen =
        (LiveClient.run true (fun _ => true) {} (watchedTask.map LiveAction.plain)).seen ∧
      (LiveClient.run true (fun _ => true) {} watchedTask).seen ≠ [[]] := by
  refine ⟨(serverFilters_transparent_iff true (fun _ => true) ?_ ?_).1, by decide⟩
  · intro action haction
    simp only [watchedTask, mem_cons, not_mem_nil, or_false] at haction
    rcases haction with rfl | rfl | rfl | rfl | rfl <;>
      simp [LiveAction.Small, maxFilterConditions]
  · refine ⟨by simp, ?_, by simp, ?_, by simp, trivial⟩
    · rintro change ⟨⟩
      unfold Unnoticed
      decide
    · rintro change ⟨⟩
      unfold Unnoticed
      decide

end EdgeBase
