import EdgeBase.Live.Turns

/-!
# Channels are registered with their filters

The client keeps the filters of its channels in two maps.  When it connects again it goes through
the channels, when it is asked for the filters through one of the two maps.

* `registered_resubscribe`, `registered_resync_iff` : the two ways to register the channels.
* `right_iff` : when the client does what it should.
-/

namespace EdgeBase.LiveDispatch

open List Client Assoc

variable {c c' : Client} {channel : String}

/-! ### The maps of filters -/

/-- The maps have the filters of every channel, and every channel that has subscriptions is
connected. -/
structure Synced (c : Client) : Prop where
  connected : ∀ e ∈ c.subscriptions, e.channel ∈ c.connectedChannels
  distinct : c.connectedChannels.Nodup
  keys : (c.channelFilters.map Prod.fst).Nodup
  filters : ∀ channel,
    c.channelFilters.lookup channel = ((c.subs channel).map (·.serverFilters)).find? (· ≠ [])
  orFilters : ∀ channel,
    c.channelOrFilters.lookup channel = ((c.subs channel).map (·.serverOrFilters)).find? (· ≠ [])

theorem lookup_without (filters : List (String × List Json)) (channel name : String) :
    (filters.filter fun entry => entry.1 ≠ channel).lookup name =
      if name = channel then none else filters.lookup name := by
  have h := lookup_restrict (fun k => decide (k ≠ channel)) filters name
  rw [restrict] at h
  rw [h]
  by_cases hname : name = channel <;> simp [hname]

theorem lookup_pick (filters : List (String × List Json)) (channel name : String)
    (found : List (List Json)) : (pick filters channel found).lookup name =
      if name = channel then found.find? (· ≠ []) else filters.lookup name := by
  unfold pick
  cases hfound : found.find? (· ≠ []) with
  | none =>
    dsimp only
    rw [lookup_without]
  | some first =>
    dsimp only
    split_ifs with hname
    · rw [hname, lookup_set_self]
    · exact lookup_set_of_ne _ hname _

theorem nodup_pick {filters : List (String × List Json)} (h : (filters.map Prod.fst).Nodup)
    (channel : String) (found : List (List Json)) :
    ((pick filters channel found).map Prod.fst).Nodup := by
  unfold pick
  split
  · exact nodup_keys_set h _ _
  · exact h.sublist (filter_sublist.map _)

theorem subs_of_filter {name : String}
    (h : c'.subscriptions.filter (·.channel = name) = c.subscriptions.filter (·.channel = name)) :
    c'.subs name = c.subs name := by
  rw [Client.subs, Client.subs, Client.entry, Client.entry, ← List.head?_filter, h,
    List.head?_filter]

theorem subs_of_map {name : String} (hname : name ≠ channel) (f : Entry → List InternalSubscription)
    (h : c'.subscriptions = c.subscriptions.map fun (e : Entry) =>
      if e.channel = channel then { e with subs := f e } else e) : c'.subs name = c.subs name := by
  refine subs_of_filter ?_
  rw [h, filter_map]
  have hsame : ∀ e : Entry, (if e.channel = channel then { e with subs := f e } else e).channel =
      e.channel := by
    intro e
    split_ifs <;> rfl
  rw [filter_congr fun e _ => by rw [Function.comp, hsame e]]
  refine (map_congr_left fun e he => ?_).trans (map_id _)
  have hchannel : e.channel = name := by simpa using (mem_filter.1 he).2
  rw [if_neg (hchannel ▸ hname), id]

namespace Synced

theorem empty : Synced {} where
  connected _ he := absurd he not_mem_nil
  distinct := nodup_nil
  keys := nodup_nil
  filters _ := rfl
  orFilters _ := rfl

theorem congr (hc : Synced c) (hsubscriptions : c'.subscriptions = c.subscriptions)
    (hconnected : c'.connectedChannels = c.connectedChannels)
    (hfilters : c'.channelFilters = c.channelFilters)
    (horFilters : c'.channelOrFilters = c.channelOrFilters) : Synced c' := by
  have hsubs : c'.subs = c.subs := by
    funext name
    rw [Client.subs, Client.subs, Client.entry, Client.entry, hsubscriptions]
  constructor
  · rw [hsubscriptions, hconnected]
    exact hc.connected
  · rw [hconnected]
    exact hc.distinct
  · rw [hfilters]
    exact hc.keys
  · rw [hfilters, hsubs]
    exact hc.filters
  · rw [horFilters, hsubs]
    exact hc.orFilters

theorem recompute (hc : Synced c) (channel : String)
    (hsubs : ∀ name ≠ channel, c'.subs name = c.subs name)
    (hconnected : ∀ e ∈ c'.subscriptions, e.channel ∈ c'.connectedChannels)
    (hdistinct : c'.connectedChannels.Nodup) (hfilters : c'.channelFilters =
      pick c.channelFilters channel ((c'.subs channel).map (·.serverFilters)))
    (horFilters : c'.channelOrFilters =
      pick c.channelOrFilters channel ((c'.subs channel).map (·.serverOrFilters))) :
    Synced c' where
  connected := hconnected
  distinct := hdistinct
  keys := by
    rw [hfilters]
    exact nodup_pick hc.keys _ _
  filters name := by
    rw [hfilters, lookup_pick]
    split_ifs with hname
    · rw [hname]
    · rw [hc.filters, hsubs name hname]
  orFilters name := by
    rw [horFilters, lookup_pick]
    split_ifs with hname
    · rw [hname]
    · rw [hc.orFilters, hsubs name hname]

theorem drop (hc : Synced c) (channel : String)
    (hsubscriptions : c'.subscriptions = c.subscriptions.filter fun e => e.channel ≠ channel)
    (hconnected : c'.connectedChannels = c.connectedChannels.filter (· ≠ channel))
    (hfilters : c'.channelFilters = c.channelFilters.filter fun entry => entry.1 ≠ channel)
    (horFilters : c'.channelOrFilters =
      c.channelOrFilters.filter fun entry => entry.1 ≠ channel) : Synced c' := by
  have hgone : c'.subs channel = [] := by
    have hentry : c'.entry channel = none := by
      simp [Client.entry, hsubscriptions]
    rw [Client.subs, hentry]
    rfl
  refine hc.recompute channel (fun name hname => subs_of_filter ?_) ?_ ?_ ?_ ?_
  · rw [hsubscriptions, filter_filter]
    refine filter_congr fun e _ => ?_
    by_cases h : e.channel = name <;> simp [h, hname]
  · intro e he
    rw [hsubscriptions] at he
    obtain ⟨he, hne⟩ := mem_filter.1 he
    rw [hconnected]
    exact mem_filter.2 ⟨hc.connected e he, hne⟩
  · rw [hconnected]
    exact hc.distinct.filter _
  · rw [hfilters, hgone]
    rfl
  · rw [horFilters, hgone]
    rfl

theorem nodup_insert (hc : Synced c) (channel : String) :
    (if channel ∈ c.connectedChannels then c.connectedChannels
      else c.connectedChannels ++ [channel]).Nodup := by
  split_ifs with hmem
  · exact hc.distinct
  · refine nodup_append.2 ⟨hc.distinct, nodup_singleton _, ?_⟩
    intro name hname name' hname' heq
    exact hmem (mem_singleton.1 hname' ▸ heq ▸ hname)

theorem mem_insert (channels : List String) {name : String} (h : name = channel ∨ name ∈ channels) :
    name ∈ if channel ∈ channels then channels else channels ++ [channel] := by
  split_ifs with hmem
  · rcases h with rfl | h
    · exact hmem
    · exact h
  · rcases h with rfl | h
    · exact mem_append_right _ mem_cons_self
    · exact mem_append_left _ h

theorem connect (hc : Synced c) (channel : String) : Synced (c.connect channel) := by
  obtain ⟨sent, h⟩ := c.connect_eq channel
  rw [h]
  exact ⟨fun e he => mem_insert _ (.inr (hc.connected e he)), hc.nodup_insert channel, hc.keys,
    hc.filters, hc.orFilters⟩

theorem onSnapshot (hc : Synced c) (channel : String) (filters : Option Row)
    (serverFilters serverOrFilters : List Json) :
    Synced (c.onSnapshot channel filters serverFilters serverOrFilters) := by
  obtain ⟨sent, h⟩ := onSnapshot_eq (c := c) channel filters serverFilters serverOrFilters
  rw [h]
  refine hc.recompute channel ?_ ?_ (hc.nodup_insert channel) rfl rfl
  · intro name hname
    by_cases hentry : (c.entry channel).isSome
    · exact subs_of_map hname _ (if_pos hentry)
    · refine subs_of_filter ?_
      have hpush : ∀ sub, c.push channel sub = c.subscriptions ++ [⟨c.next, channel, [sub]⟩] :=
        fun _ => if_neg hentry
      dsimp only [Client.recomputeChannelFilters]
      rw [hpush, filter_append, filter_cons_of_neg (by simpa using hname.symm),
        filter_nil, append_nil]
  · intro e he
    refine mem_insert _ ?_
    dsimp only [Client.recomputeChannelFilters, Client.push] at he
    split_ifs at he
    · obtain ⟨e', he', rfl⟩ := mem_map.1 he
      refine .inr ?_
      split_ifs <;> exact hc.connected e' he'
    · rcases mem_append.1 he with he | he
      · exact .inr (hc.connected e he)
      · rw [mem_singleton.1 he]
        exact .inl rfl

variable (hlisted : Listed c)
include hlisted

theorem unsubscribe (hc : Synced c) (channel : String) (id : ℕ) :
    Synced (c.unsubscribe channel id) := by
  rcases unsubscribe_cases hlisted channel id with
    ⟨-, h⟩ | ⟨e, -, ⟨-, sent, h⟩ | ⟨-, sent, h⟩⟩ <;> rw [h]
  · exact hc
  · exact hc.drop channel rfl rfl rfl rfl
  · refine hc.recompute channel (fun name hname => subs_of_map hname _ rfl) ?_
      hc.distinct rfl rfl
    intro e he
    obtain ⟨e', he', rfl⟩ := mem_map.1 he
    split_ifs <;> exact hc.connected e' he'

theorem perform (hc : Synced c) (op : Op) : Synced (c.perform op) := by
  cases op with
  | onSnapshot channel filters serverFilters serverOrFilters => exact hc.onSnapshot _ _ _ _
  | unsubscribe channel id => exact hc.unsubscribe hlisted channel id

theorem performAll (hc : Synced c) (ops : List Op) : Synced (c.performAll ops) := by
  induction ops generalizing c with
  | nil => exact hc
  | cons op ops ih => exact ih (hlisted.perform op) (hc.perform hlisted op)

theorem dispatch (hc : Synced c) (incoming : Incoming) (script : List (List Op)) (cursor : Cursor) :
    Synced (LiveDispatch.dispatch incoming script c cursor).client := by
  induction script generalizing c cursor with
  | nil => exact hc
  | cons ops script ih =>
    cases hremaining : c.remaining incoming cursor with
    | nil =>
      rw [dispatch_of_nil hremaining]
      exact hc
    | cons p rest =>
      obtain ⟨k, called⟩ := p
      rw [dispatch_of_cons hremaining]
      exact ih (hlisted.performAll ops) (hc.performAll hlisted ops) k

theorem dispatchAll (hc : Synced c) (changes : List Incoming)
    (script : List (List Op)) : Synced (LiveDispatch.dispatchAll changes script c).2 := by
  induction changes generalizing c script with
  | nil => exact hc
  | cons incoming changes ih =>
    exact ih (hlisted.dispatch incoming script ⟨0, 0⟩).1
      (hc.dispatch hlisted incoming script ⟨0, 0⟩) _

end Synced

/-! ### What is registered -/

/-- What `sendSubscribe` sends. -/
def Client.request (c : Client) (channel : String) : Request :=
  .subscribe channel ((c.channelFilters.lookup channel).getD [])
    ((c.channelOrFilters.lookup channel).getD [])

theorem foldl_sendSubscribe (hconnected : c.connected) (hauthenticated : c.authenticated)
    (channels : List String) (sent : List Request) :
    channels.foldl Client.sendSubscribe { c with sent := sent } =
      { c with sent := sent ++ channels.map c.request } := by
  induction channels generalizing sent with
  | nil => rw [foldl_nil, map_nil, append_nil]
  | cons channel channels ih =>
    have hsend : Client.sendSubscribe { c with sent := sent } channel =
        { c with sent := sent ++ [c.request channel] } := by
      rw [Client.sendSubscribe, if_neg (not_not.2 hauthenticated), sendRaw,
        if_pos hconnected]
      rfl
    rw [foldl_cons, hsend, ih, append_assoc]
    rfl

/-- Whether `resyncFilters` sends something for a channel. -/
def Client.hasFilters (c : Client) (channel : String) : Bool :=
  (c.channelFilters.lookup channel).getD [] ≠ [] ∨ (c.channelOrFilters.lookup channel).getD [] ≠ []

theorem foldl_resyncChannel (hconnected : c.connected) (channels : List String)
    (sent : List Request) :
    channels.foldl resyncChannel { c with sent := sent } =
      { c with sent := sent ++ (channels.filter c.hasFilters).map c.request } := by
  induction channels generalizing sent with
  | nil => rw [foldl_nil, filter_nil, map_nil, append_nil]
  | cons channel channels ih =>
    have hsend : resyncChannel { c with sent := sent } channel =
        { c with sent := if c.hasFilters channel then sent ++ [c.request channel] else sent } := by
      unfold resyncChannel
      by_cases hfilters : c.hasFilters channel = true
      · rw [if_pos hfilters, if_pos (of_decide_eq_true hfilters), sendRaw, if_pos hconnected]
        rfl
      · rw [if_neg hfilters, if_neg fun h => hfilters (decide_eq_true h)]
    rw [foldl_cons, hsend, ih, filter_cons]
    split_ifs
    · rw [append_assoc]
      rfl
    · rfl

variable (hc : Synced c)
include hc

theorem registered_iff {names : List String} (hnames : names.Nodup) :
    Registered c (names.map c.request) ↔
      ∀ channel, c.filters channel ≠ [] ∨ c.orFilters channel ≠ [] → channel ∈ names := by
  refine forall_congr' fun channel => imp_congr_right fun _ => ?_
  have hrequest : c.request channel =
      .subscribe channel (c.filters channel) (c.orFilters channel) := by
    rw [Client.request, hc.filters, hc.orFilters]
    rfl
  have hfilter : (names.map c.request).filter (fun request => request.channel = channel) =
      (names.filter fun name => name = channel).map c.request := by
    rw [filter_map]
    rfl
  rw [hfilter, ← hrequest]
  by_cases hmem : channel ∈ names
  · refine iff_of_true ?_ hmem
    rw [filter_eq, count_eq_one_of_mem hnames hmem]
    rfl
  · refine iff_of_false ?_ hmem
    rw [filter_eq_nil_iff.2 fun name hname => by
      simpa using fun heq : name = channel => hmem (heq ▸ hname)]
    exact cons_ne_nil _ _ ∘ Eq.symm

theorem getD_lookup (channel : String) :
    (c.channelFilters.lookup channel).getD [] = c.filters channel ∧
      (c.channelOrFilters.lookup channel).getD [] = c.orFilters channel := by
  rw [hc.filters, hc.orFilters]
  exact ⟨rfl, rfl⟩

theorem mem_connected {channel : String}
    (h : c.filters channel ≠ [] ∨ c.orFilters channel ≠ []) : channel ∈ c.connectedChannels := by
  cases hentry : c.entry channel with
  | none =>
    have hsubs : c.subs channel = [] := by
      rw [Client.subs, hentry]
      rfl
    rw [Client.filters, Client.orFilters, hsubs] at h
    simp at h
  | some e =>
    obtain ⟨he, rfl⟩ := entry_eq_some hentry
    exact hc.connected e he

theorem registered_resubscribe (hconnected : c.connected) (hauthenticated : c.authenticated) :
    Registered (resubscribeAll c) ((resubscribeAll c).sent.drop c.sent.length) := by
  have h : resubscribeAll c = { c with sent := c.sent ++ c.connectedChannels.map c.request } :=
    foldl_sendSubscribe hconnected hauthenticated _ c.sent
  rw [h, drop_left]
  exact (registered_iff hc hc.distinct).2 fun channel h => mem_connected hc h

/-- Who is asked for the filters does so only where no channel has alternative filters alone. -/
theorem registered_resync_iff (hconnected : c.connected) :
    Registered c ((resyncFilters c).sent.drop c.sent.length) ↔
      ∀ channel, c.orFilters channel ≠ [] → c.filters channel ≠ [] := by
  have hsent : (resyncFilters c).sent = c.sent ++
      ((c.channelFilters.map Prod.fst).filter c.hasFilters).map c.request :=
    congrArg Client.sent (foldl_resyncChannel hconnected _ c.sent)
  have hmem : ∀ channel, channel ∈ (c.channelFilters.map Prod.fst).filter c.hasFilters ↔
      c.filters channel ≠ [] := by
    intro channel
    obtain ⟨hfilters, horFilters⟩ := getD_lookup hc channel
    rw [mem_filter, hasFilters, decide_eq_true_eq, hfilters, horFilters]
    constructor
    · rintro ⟨hkey, -⟩
      obtain ⟨entry, hentry, rfl⟩ := mem_map.1 hkey
      have hlookup := lookup_of_mem hc.keys hentry
      rw [hc.filters] at hlookup
      have hne := List.find?_some hlookup
      rw [Client.filters, hlookup]
      exact of_decide_eq_true hne
    · intro hne
      refine ⟨?_, .inl hne⟩
      rw [← hfilters] at hne
      cases hlookup : c.channelFilters.lookup channel with
      | none =>
        rw [hlookup] at hne
        exact absurd rfl hne
      | some filters => exact mem_map_of_mem (mem_of_lookup hlookup)
  rw [hsent, drop_left, registered_iff hc (hc.keys.filter _)]
  simp only [hmem]
  constructor
  · exact fun h channel hor => h channel (.inr hor)
  · exact fun h channel hsome => hsome.elim id (h channel)

omit hc

/-! ### Whole runs -/

theorem revoke_kept (hlisted : Listed c) (hsynced : Synced c) (revoked : List String) :
    Listed (revoke c revoked) ∧ Synced (revoke c revoked) := by
  induction revoked generalizing c with
  | nil => exact ⟨hlisted, hsynced⟩
  | cons channel revoked ih =>
    refine ih (hlisted.sublist filter_sublist rfl) ?_
    exact hsynced.drop channel rfl rfl rfl rfl

theorem revoke_rest (c : Client) (revoked : List String) :
    (revoke c revoked).connected = c.connected ∧
      (revoke c revoked).authenticated = c.authenticated ∧ (revoke c revoked).sent = c.sent := by
  induction revoked generalizing c with
  | nil => exact ⟨rfl, rfl, rfl⟩
  | cons channel revoked ih => exact ih _

theorem foldl_sent {f : Client → String → Client}
    (h : ∀ c channel, ∃ sent, f c channel = { c with sent := sent }) (channels : List String)
    (c : Client) : ∃ sent, channels.foldl f c = { c with sent := sent } := by
  induction channels generalizing c with
  | nil => exact ⟨c.sent, rfl⟩
  | cons channel channels ih =>
    obtain ⟨sent, hsent⟩ := h c channel
    obtain ⟨sent', hsent'⟩ := ih (f c channel)
    rw [foldl_cons, hsent', hsent]
    exact ⟨sent', rfl⟩

theorem resyncFilters_sent (c : Client) : ∃ sent, resyncFilters c = { c with sent := sent } := by
  refine foldl_sent (fun c channel => ?_) _ c
  unfold resyncChannel
  dsimp only
  split_ifs
  · exact c.sendRaw_eq _
  · exact ⟨c.sent, rfl⟩

theorem resubscribeAll_sent (c : Client) : ∃ sent, resubscribeAll c = { c with sent := sent } :=
  foldl_sent sendSubscribe_eq _ c

/-- What happens to the client leaves its lists in order, and its maps in accordance with them. -/
theorem step_kept (hlisted : Listed c) (hsynced : Synced c) (event : Event) :
    Listed (step c event) ∧ Synced (step c event) := by
  have hsame : ∀ c' : Client, c'.subscriptions = c.subscriptions → c'.next = c.next →
      c'.connectedChannels = c.connectedChannels → c'.channelFilters = c.channelFilters →
      c'.channelOrFilters = c.channelOrFilters → Listed c' ∧ Synced c' :=
    fun _ hsubscriptions hnext hconnected hfilters horFilters =>
      ⟨hlisted.congr hsubscriptions hnext,
        hsynced.congr hsubscriptions hconnected hfilters horFilters⟩
  cases event with
  | perform op => exact ⟨hlisted.perform op, hsynced.perform hlisted op⟩
  | connect channel =>
    refine ⟨?_, hsynced.connect channel⟩
    obtain ⟨sent, h⟩ := c.connect_eq channel
    rw [step, h]
    exact hlisted.congr rfl rfl
  | changes changes script =>
    exact ⟨(hlisted.dispatchAll changes script).2, hsynced.dispatchAll hlisted changes script⟩
  | filterResync =>
    obtain ⟨sent, h⟩ := resyncFilters_sent c
    rw [step, h]
    exact hsame _ rfl rfl rfl rfl rfl
  | opened => exact hsame _ rfl rfl rfl rfl rfl
  | signedIn revoked =>
    obtain ⟨hlisted', hsynced'⟩ := hsame { c with authenticated := true } rfl rfl rfl rfl rfl
    obtain ⟨hrevoked, hrevoked'⟩ := revoke_kept hlisted' hsynced' revoked
    obtain ⟨sent, h⟩ := resubscribeAll_sent (revoke { c with authenticated := true } revoked)
    rw [step, Client.signIn, h]
    exact ⟨hrevoked.congr rfl rfl, hrevoked'.congr rfl rfl rfl rfl⟩
  | authRefreshed revoked => exact revoke_kept hlisted hsynced revoked
  | notAuthenticated => exact hsame _ rfl rfl rfl rfl rfl
  | closed => exact hsame _ rfl rfl rfl rfl rfl
  | disconnect =>
    exact ⟨⟨nodup_nil, List.Pairwise.nil, fun _ he => absurd he not_mem_nil⟩,
      fun _ he => absurd he not_mem_nil, nodup_nil, nodup_nil, fun _ => rfl,
      fun _ => rfl⟩

theorem run_kept (events : List Event) :
    Listed (Runs.last step {} events) ∧ Synced (Runs.last step {} events) := by
  suffices h : ∀ c, Listed c → Synced c →
      Listed (Runs.last step c events) ∧ Synced (Runs.last step c events) from
    h {} Listed.empty Synced.empty
  induction events with
  | nil => exact fun c hlisted hsynced => ⟨hlisted, hsynced⟩
  | cons event events ih =>
    intro c hlisted hsynced
    obtain ⟨hlisted, hsynced⟩ := step_kept hlisted hsynced event
    exact ih _ hlisted hsynced

/-- Whatever happened to a client, it does with an event what it should if and only if no call
passes over a handler, and no channel has alternative filters alone. -/
theorem right_iff (events : List Event) (event : Event) :
    Right (Runs.last step {} events) event ↔ HoldsWhen (Runs.last step {} events) event := by
  obtain ⟨hlisted, hsynced⟩ := run_kept events
  generalize Runs.last step {} events = c at hlisted hsynced
  cases event with
  | changes changes script =>
    refine forall₂_congr fun turn hturn => ?_
    obtain ⟨hturn, hle, script', hcalls⟩ := (hlisted.dispatchAll changes script).1 turn hturn
    rw [hcalls]
    exact calledOnce_iff hturn hle
  | filterResync =>
    exact imp_congr_right fun hconnected => registered_resync_iff hsynced hconnected
  | signedIn revoked =>
    refine iff_of_true (fun hconnected => ?_) trivial
    obtain ⟨hrevoked, hauthenticated, hsent⟩ := revoke_rest { c with authenticated := true } revoked
    have hkept := (revoke_kept (c := { c with authenticated := true }) (hlisted.congr rfl rfl)
      (hsynced.congr rfl rfl rfl rfl) revoked).2
    have h := registered_resubscribe hkept (hrevoked.trans hconnected) hauthenticated
    rw [hsent] at h
    exact h
  | _ => exact Iff.rfl

def pair : Client :=
  Runs.last step {} [.perform (.onSnapshot "dblive:notes" none [] []),
    .perform (.onSnapshot "dblive:notes" none [] [])]

def noteChange : Incoming :=
  ⟨⟨some (.str "modified"), some (.str "notes"), some (.str "1"), some (.obj []), none⟩,
    some (.str "dblive:notes")⟩

/-- The first handler unsubscribes itself, and the second is passed over. -/
theorem second_not_served :
    ¬Right pair (.changes [noteChange] [[.unsubscribe "dblive:notes" 0]]) := by
  have h : ¬∀ turn ∈ (dispatchAll [noteChange] [[.unsubscribe "dblive:notes" 0]] pair).1,
      CalledOnce pair turn.1 turn.2.1 turn.2.2 := by
    decide
  exact h

end EdgeBase.LiveDispatch
