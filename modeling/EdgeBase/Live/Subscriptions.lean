import EdgeBase.Live.Dispatch
import Mathlib.Data.List.Nodup

/-!
# The lists of the live client

* `Listed.performAll`, `Grown.performAll` : both for all that a handler does.
-/

namespace EdgeBase.LiveDispatch

open List Client

namespace Client

variable (c : Client) (channel : String)

/-! ### The methods -/

theorem sendRaw_eq (request : Request) : ∃ sent, c.sendRaw request = { c with sent := sent } := by
  unfold sendRaw
  split_ifs
  · exact ⟨_, rfl⟩
  · exact ⟨c.sent, rfl⟩

theorem sendSubscribe_eq : ∃ sent, c.sendSubscribe channel = { c with sent := sent } := by
  unfold sendSubscribe
  split_ifs
  · exact sendRaw_eq _ _
  · exact ⟨c.sent, rfl⟩

theorem sendUnsubscribe_eq : ∃ sent, c.sendUnsubscribe channel =
    { c with connectedChannels := c.connectedChannels.filter (· ≠ channel), sent := sent } := by
  unfold sendUnsubscribe
  dsimp only
  split_ifs
  · exact sendRaw_eq _ _
  · exact ⟨c.sent, rfl⟩

theorem connect_eq : ∃ sent, c.connect channel = { c with
      connectedChannels :=
        if channel ∈ c.connectedChannels then c.connectedChannels
        else c.connectedChannels ++ [channel]
      sent := sent } := by
  unfold connect
  dsimp only
  by_cases hc : c.connected = true
  · rw [if_pos hc]
    exact sendSubscribe_eq _ _
  · rw [if_neg hc]
    exact ⟨c.sent, rfl⟩

end Client

/-! ### The lists -/

/-- A list, and what was created before. -/
structure Entry.Sound (next : ℕ) (e : Entry) : Prop where
  stamp_lt : e.stamp < next
  id_lt : ∀ sub ∈ e.subs, sub.id < next
  channel : ∀ sub ∈ e.subs, sub.channel = e.channel
  ids : (e.subs.map (·.id)).Nodup

/-- The lists are in the order of their creation, and no channel has two of them. -/
structure Listed (c : Client) : Prop where
  channels : (c.subscriptions.map (·.channel)).Nodup
  stamps : (c.subscriptions.map (·.stamp)).Pairwise (· < ·)
  sound : ∀ e ∈ c.subscriptions, e.Sound c.next

theorem Entry.Sound.mono {e : Entry} {next next' : ℕ} (he : e.Sound next) (h : next ≤ next') :
    e.Sound next' where
  stamp_lt := he.stamp_lt.trans_le h
  id_lt sub hsub := (he.id_lt sub hsub).trans_le h
  channel := he.channel
  ids := he.ids

theorem Entry.Sound.nodup {e : Entry} {next : ℕ} (he : e.Sound next) : e.subs.Nodup :=
  List.Nodup.of_map _ he.ids

theorem Entry.Sound.filter {e : Entry} {next : ℕ} (he : e.Sound next)
    (p : InternalSubscription → Bool) :
    ({ e with subs := e.subs.filter p } : Entry).Sound next where
  stamp_lt := he.stamp_lt
  id_lt sub hsub := he.id_lt sub (mem_of_mem_filter hsub)
  channel sub hsub := he.channel sub (mem_of_mem_filter hsub)
  ids := he.ids.sublist (filter_sublist.map _)

theorem Entry.Sound.push {e : Entry} {next : ℕ} (he : e.Sound next) {sub : InternalSubscription}
    (hid : sub.id = next) (hchannel : sub.channel = e.channel) :
    ({ e with subs := e.subs ++ [sub] } : Entry).Sound (next + 1) where
  stamp_lt := he.stamp_lt.trans (Nat.lt_succ_self _)
  id_lt s hs := by
    rcases mem_append.1 hs with hs | hs
    · exact (he.id_lt s hs).trans (Nat.lt_succ_self _)
    · rw [mem_singleton.1 hs, hid]
      exact Nat.lt_succ_self _
  channel s hs := by
    rcases mem_append.1 hs with hs | hs
    · exact he.channel s hs
    · rw [mem_singleton.1 hs, hchannel]
  ids := by
    rw [map_append, nodup_append]
    refine ⟨he.ids, nodup_singleton _, ?_⟩
    intro i hi j hj
    obtain ⟨s, hs, rfl⟩ := mem_map.1 hi
    have hlt := he.id_lt s hs
    have hj : j = next := (mem_singleton.1 hj).trans hid
    exact Nat.ne_of_lt (hj ▸ hlt)

namespace Listed

variable {c : Client}

theorem empty : Listed {} where
  channels := nodup_nil
  stamps := List.Pairwise.nil
  sound _ he := absurd he not_mem_nil

theorem eq_of_channel (hc : Listed c) {e e' : Entry} (he : e ∈ c.subscriptions)
    (he' : e' ∈ c.subscriptions) (h : e.channel = e'.channel) : e = e' :=
  inj_on_of_nodup_map hc.channels he he' h

theorem eq_of_stamp (hc : Listed c) {e e' : Entry} (he : e ∈ c.subscriptions)
    (he' : e' ∈ c.subscriptions) (h : e.stamp = e'.stamp) : e = e' :=
  inj_on_of_nodup_map (hc.stamps.imp Nat.ne_of_lt) he he' h

theorem eq_of_mem (hc : Listed c) {e e' : Entry} (he : e ∈ c.subscriptions)
    (he' : e' ∈ c.subscriptions) {sub : InternalSubscription} (hsub : sub ∈ e.subs)
    (hsub' : sub ∈ e'.subs) : e = e' := by
  refine hc.eq_of_channel he he' ?_
  rw [← (hc.sound e he).channel sub hsub, (hc.sound e' he').channel sub hsub']

theorem congr {c' : Client} (hc : Listed c) (h : c'.subscriptions = c.subscriptions)
    (hnext : c'.next = c.next) : Listed c' := by
  constructor
  · rw [h]; exact hc.channels
  · rw [h]; exact hc.stamps
  · rw [h, hnext]; exact hc.sound

theorem sublist {c' : Client} (hc : Listed c) (h : List.Sublist c'.subscriptions c.subscriptions)
    (hnext : c'.next = c.next) : Listed c' where
  channels := hc.channels.sublist (h.map _)
  stamps := hc.stamps.sublist (h.map _)
  sound e he := hnext ▸ hc.sound e (h.subset he)

theorem map {c' : Client} (hc : Listed c) (f : Entry → Entry)
    (h : c'.subscriptions = c.subscriptions.map f) (hchannel : ∀ e, (f e).channel = e.channel)
    (hstamp : ∀ e, (f e).stamp = e.stamp) (hf : ∀ e ∈ c.subscriptions, (f e).Sound c'.next) :
    Listed c' where
  channels := by
    rw [h, map_map]
    exact (map_congr_left fun e _ => hchannel e) ▸ hc.channels
  stamps := by
    rw [h, map_map]
    exact (map_congr_left fun e _ => hstamp e) ▸ hc.stamps
  sound := by
    rw [h]
    exact forall_mem_map.2 hf

end Listed

/-! ### What a call leaves of the lists -/

def Fresh (next : ℕ) (subs : List InternalSubscription) : Prop := ∀ sub ∈ subs, next ≤ sub.id

/-- Of the lists the subscriptions that stay are left, and new ones are behind them. -/
structure Grown (stays : InternalSubscription → Bool) (c c' : Client) : Prop where
  next_le : c.next ≤ c'.next
  kept : ∀ e ∈ c.subscriptions, e.subs.filter stays ≠ [] → ∃ new, Fresh c.next new ∧
    { e with subs := e.subs.filter stays ++ new } ∈ c'.subscriptions
  old : ∀ e' ∈ c'.subscriptions,
    (∃ e ∈ c.subscriptions, ∃ new, Fresh c.next new ∧
      e' = { e with subs := e.subs.filter stays ++ new }) ∨
    c.next ≤ e'.stamp ∧ Fresh c.next e'.subs

namespace Grown

variable {stays stays' : InternalSubscription → Bool} {c c' c'' : Client}

theorem congr (h : Grown stays c c') (hstays : ∀ sub, stays sub = stays' sub) :
    Grown stays' c c' := by
  obtain rfl := funext hstays
  exact h

theorem refl (c : Client) : Grown (fun _ => true) c c where
  next_le := le_rfl
  kept e he _ := ⟨[], forall_mem_nil _, by simpa using he⟩
  old e he := .inl ⟨e, he, [], forall_mem_nil _, by simp⟩

theorem trans (h : Grown stays c c') (h' : Grown stays' c' c'') :
    Grown (fun sub => stays sub && stays' sub) c c'' where
  next_le := h.next_le.trans h'.next_le
  kept e he hne := by
    have hboth : e.subs.filter (fun sub => stays sub && stays' sub) =
        (e.subs.filter stays).filter stays' := by
      rw [filter_filter]
      exact filter_congr fun sub _ => Bool.and_comm _ _
    rw [hboth] at hne ⊢
    have hstays : e.subs.filter stays ≠ [] := by
      intro hnil
      rw [hnil] at hne
      exact hne rfl
    obtain ⟨new, hnew, he'⟩ := h.kept e he hstays
    have hne' : (e.subs.filter stays ++ new).filter stays' ≠ [] := by
      rw [filter_append]
      exact append_ne_nil_of_left_ne_nil hne _
    obtain ⟨new', hnew', he''⟩ := h'.kept _ he' hne'
    refine ⟨new.filter stays' ++ new', ?_, ?_⟩
    · intro sub hsub
      rcases mem_append.1 hsub with hsub | hsub
      · exact hnew sub (mem_of_mem_filter hsub)
      · exact h.next_le.trans (hnew' sub hsub)
    · rwa [filter_append, append_assoc] at he''
  old e'' he'' := by
    rcases h'.old e'' he'' with ⟨e', he', new', hnew', rfl⟩ | ⟨hstamp, hfresh⟩
    · have hnew'' : Fresh c.next new' := fun sub hsub => h.next_le.trans (hnew' sub hsub)
      rcases h.old e' he' with ⟨e, he, new, hnew, rfl⟩ | ⟨hstamp, hfresh⟩
      · refine .inl ⟨e, he, new.filter stays' ++ new', ?_, ?_⟩
        · intro sub hsub
          rcases mem_append.1 hsub with hsub | hsub
          · exact hnew sub (mem_of_mem_filter hsub)
          · exact hnew'' sub hsub
        · simp only [filter_append, filter_filter, append_assoc, Bool.and_comm]
      · refine .inr ⟨hstamp, fun sub hsub => ?_⟩
        rcases mem_append.1 hsub with hsub | hsub
        · exact hfresh sub (mem_of_mem_filter hsub)
        · exact hnew'' sub hsub
    · exact .inr ⟨h.next_le.trans hstamp, fun sub hsub => h.next_le.trans (hfresh sub hsub)⟩

end Grown

/-! ### One call of a method -/

section Methods

variable {c : Client}

theorem Client.entry_eq_some {channel : String} {e : Entry} (h : c.entry channel = some e) :
    e ∈ c.subscriptions ∧ e.channel = channel :=
  ⟨List.mem_of_find?_eq_some h, by simpa using List.find?_some h⟩

theorem Client.entry_eq_none {channel : String} (h : c.entry channel = none) :
    ∀ e ∈ c.subscriptions, e.channel ≠ channel := by
  simpa [Client.entry] using h

theorem Client.onSnapshot_eq (channel : String) (filters : Option Row)
    (serverFilters serverOrFilters : List Json) :
    ∃ sent, c.onSnapshot channel filters serverFilters serverOrFilters =
      { Client.recomputeChannelFilters { c with
            subscriptions :=
              c.push channel ⟨c.next, channel, filters, serverFilters, serverOrFilters⟩
            next := c.next + 1 } channel with
        connectedChannels :=
          if channel ∈ c.connectedChannels then c.connectedChannels
          else c.connectedChannels ++ [channel]
        sent := sent } :=
  connect_eq _ channel

def Client.without (c : Client) (channel : String) (id : ℕ) : List Entry :=
  c.subscriptions.map fun (e : Entry) =>
    if e.channel = channel then { e with subs := e.subs.filter fun sub => sub.id ≠ id } else e

theorem Client.unsubscribe_cases (hc : Listed c) (channel : String) (id : ℕ) :
    c.entry channel = none ∧ c.unsubscribe channel id = c ∨
    ∃ e, c.entry channel = some e ∧
      ((e.subs.filter fun sub => sub.id ≠ id) = [] ∧
        (∃ sent, c.unsubscribe channel id =
          { c.drop channel with
            connectedChannels := c.connectedChannels.filter (· ≠ channel), sent := sent }) ∨
      (e.subs.filter fun sub => sub.id ≠ id) ≠ [] ∧
        ∃ sent, c.unsubscribe channel id =
          { Client.recomputeChannelFilters
              { c with subscriptions := c.without channel id } channel with sent := sent }) := by
  unfold Client.unsubscribe
  cases hentry : c.entry channel with
  | none => exact .inl ⟨rfl, rfl⟩
  | some e =>
    refine .inr ⟨e, rfl, ?_⟩
    dsimp only
    split_ifs with hrest
    · exact .inl ⟨hrest, sendUnsubscribe_eq _ channel⟩
    · refine .inr ⟨hrest, ?_⟩
      obtain ⟨he, hchannel⟩ := entry_eq_some hentry
      have hwithout : (c.subscriptions.map fun (e' : Entry) =>
          if e'.channel = channel then
            { e' with subs := e.subs.filter fun sub => sub.id ≠ id } else e') =
          c.without channel id := by
        refine map_congr_left fun e' he' => ?_
        by_cases h : e'.channel = channel
        · rw [hc.eq_of_channel he' he (h.trans hchannel.symm)]
        · rw [if_neg h, if_neg h]
      rw [hwithout]
      exact sendSubscribe_eq _ channel

theorem Listed.onSnapshot (hc : Listed c) (channel : String) (filters : Option Row)
    (serverFilters serverOrFilters : List Json) :
    Listed (c.onSnapshot channel filters serverFilters serverOrFilters) := by
  obtain ⟨sent, h⟩ := onSnapshot_eq (c := c) channel filters serverFilters serverOrFilters
  rw [h]
  cases hentry : c.entry channel with
  | none =>
    have hnew := entry_eq_none hentry
    have hpush : ∀ sub, c.push channel sub = c.subscriptions ++ [⟨c.next, channel, [sub]⟩] :=
      fun sub => by simp [Client.push, hentry]
    refine ⟨?_, ?_, ?_⟩ <;> dsimp only [Client.recomputeChannelFilters] <;> rw [hpush]
    · rw [map_append, nodup_append]
      refine ⟨hc.channels, nodup_singleton _, ?_⟩
      intro name hname name' hname'
      obtain ⟨e, he, rfl⟩ := mem_map.1 hname
      rw [mem_singleton.1 hname']
      exact hnew e he
    · rw [map_append, pairwise_append]
      refine ⟨hc.stamps, pairwise_singleton _ _, ?_⟩
      intro stamp hstamp stamp' hstamp'
      obtain ⟨e, he, rfl⟩ := mem_map.1 hstamp
      rw [mem_singleton.1 hstamp']
      exact (hc.sound e he).stamp_lt
    · intro e he
      rcases mem_append.1 he with he | he
      · exact (hc.sound e he).mono (Nat.le_succ _)
      · rw [mem_singleton.1 he]
        exact ⟨Nat.lt_succ_self _, by simp, by simp, by simp⟩
  | some e₀ =>
    refine hc.map (fun e =>
      if e.channel = channel then
        { e with subs := e.subs ++ [⟨c.next, channel, filters, serverFilters, serverOrFilters⟩] }
      else e) ?_ ?_ ?_ ?_
    · simp [Client.recomputeChannelFilters, Client.push, hentry]
    · intro e
      split_ifs <;> rfl
    · intro e
      split_ifs <;> rfl
    · intro e he
      by_cases hchannel : e.channel = channel
      · rw [if_pos hchannel]
        exact (hc.sound e he).push rfl hchannel.symm
      · rw [if_neg hchannel]
        exact (hc.sound e he).mono (Nat.le_succ _)

theorem Listed.unsubscribe (hc : Listed c) (channel : String) (id : ℕ) :
    Listed (c.unsubscribe channel id) := by
  rcases unsubscribe_cases hc channel id with
    ⟨-, h⟩ | ⟨e, -, ⟨-, sent, h⟩ | ⟨-, sent, h⟩⟩ <;> rw [h]
  · exact hc
  · exact hc.sublist filter_sublist rfl
  · refine hc.map _ rfl ?_ ?_ ?_
    · intro e
      split_ifs <;> rfl
    · intro e
      split_ifs <;> rfl
    · intro e he
      split_ifs
      · exact (hc.sound e he).filter _
      · exact hc.sound e he

theorem Listed.perform (hc : Listed c) (op : Op) : Listed (c.perform op) := by
  cases op with
  | onSnapshot channel filters serverFilters serverOrFilters => exact hc.onSnapshot _ _ _ _
  | unsubscribe channel id => exact hc.unsubscribe channel id

theorem Grown.onSnapshot (c : Client) (channel : String) (filters : Option Row)
    (serverFilters serverOrFilters : List Json) :
    Grown (fun _ => true) c (c.onSnapshot channel filters serverFilters serverOrFilters) := by
  obtain ⟨sent, h⟩ := onSnapshot_eq (c := c) channel filters serverFilters serverOrFilters
  rw [h]
  generalize hsub : (⟨c.next, channel, filters, serverFilters, serverOrFilters⟩ :
    InternalSubscription) = sub
  have hfresh : Fresh c.next [sub] := by
    intro s hs
    rw [mem_singleton.1 hs, ← hsub]
  refine ⟨Nat.le_succ _, ?_, ?_⟩ <;> dsimp only [Client.recomputeChannelFilters, Client.push]
  · intro e he _
    rw [filter_true]
    split_ifs with hentry
    · by_cases hchannel : e.channel = channel
      · refine ⟨[sub], hfresh, mem_map.2 ⟨e, he, ?_⟩⟩
        rw [if_pos hchannel]
      · refine ⟨[], forall_mem_nil _, mem_map.2 ⟨e, he, ?_⟩⟩
        rw [if_neg hchannel, append_nil]
    · refine ⟨[], forall_mem_nil _, mem_append_left _ ?_⟩
      rwa [append_nil]
  · intro e' he'
    split_ifs at he' with hentry
    · obtain ⟨e, he, rfl⟩ := mem_map.1 he'
      left
      refine ⟨e, he, if e.channel = channel then [sub] else [], ?_, ?_⟩
      · split_ifs
        · exact hfresh
        · exact forall_mem_nil _
      · rw [filter_true]
        split_ifs
        · rfl
        · rw [append_nil]
    · rcases mem_append.1 he' with he' | he'
      · exact .inl ⟨e', he', [], forall_mem_nil _, by simp⟩
      · rw [mem_singleton.1 he']
        exact .inr ⟨le_rfl, hfresh⟩

theorem filter_keeps {e : Entry} {next : ℕ} (he : e.Sound next) (channel : String) (id : ℕ) :
    e.subs.filter (keeps [.unsubscribe channel id]) =
      if e.channel = channel then e.subs.filter fun sub => sub.id ≠ id else e.subs := by
  split_ifs with hchannel
  · refine filter_congr fun sub hsub => ?_
    simp [keeps, he.channel sub hsub, hchannel]
  · refine filter_eq_self.2 fun sub hsub => ?_
    simp [keeps, he.channel sub hsub, hchannel]

theorem Grown.unsubscribe (hc : Listed c) (channel : String) (id : ℕ) :
    Grown (keeps [.unsubscribe channel id]) c (c.unsubscribe channel id) := by
  rcases unsubscribe_cases hc channel id with
    ⟨hentry, h⟩ | ⟨e₀, hentry, ⟨hrest, sent, h⟩ | ⟨hrest, sent, h⟩⟩ <;> rw [h]
  · -- there is no such list
    have hsame : ∀ e ∈ c.subscriptions,
        e.subs.filter (keeps [.unsubscribe channel id]) = e.subs := by
      intro e he
      rw [filter_keeps (hc.sound e he), if_neg (entry_eq_none hentry e he)]
    refine ⟨le_rfl, fun e he _ => ⟨[], forall_mem_nil _, ?_⟩, fun e he => ?_⟩
    · rwa [hsame e he, append_nil]
    · exact .inl ⟨e, he, [], forall_mem_nil _, by rw [hsame e he, append_nil]⟩
  · -- the list goes
    obtain ⟨he₀, hchannel₀⟩ := entry_eq_some hentry
    refine ⟨le_rfl, ?_, ?_⟩ <;> dsimp only [Client.drop]
    · intro e he hne
      rw [filter_keeps (hc.sound e he)] at hne ⊢
      by_cases hchannel : e.channel = channel
      · rw [if_pos hchannel, hc.eq_of_channel he he₀ (hchannel.trans hchannel₀.symm)] at hne
        exact absurd hrest hne
      · refine ⟨[], forall_mem_nil _, mem_filter.2 ⟨?_, decide_eq_true hchannel⟩⟩
        rwa [if_neg hchannel, append_nil]
    · intro e he
      obtain ⟨he, hchannel⟩ := mem_filter.1 he
      refine .inl ⟨e, he, [], forall_mem_nil _, ?_⟩
      rw [filter_keeps (hc.sound e he), if_neg (of_decide_eq_true hchannel), append_nil]
  · -- the list becomes shorter
    have hmap : ∀ e ∈ c.subscriptions,
        { e with subs := e.subs.filter (keeps [.unsubscribe channel id]) ++ [] } =
          (if e.channel = channel then { e with subs := e.subs.filter fun sub => sub.id ≠ id }
          else e) := by
      intro e he
      rw [filter_keeps (hc.sound e he), append_nil]
      split_ifs <;> rfl
    refine ⟨le_rfl, ?_, ?_⟩ <;> dsimp only [Client.recomputeChannelFilters, Client.without]
    · intro e he _
      exact ⟨[], forall_mem_nil _, mem_map.2 ⟨e, he, (hmap e he).symm⟩⟩
    · intro e' he'
      obtain ⟨e, he, rfl⟩ := mem_map.1 he'
      exact .inl ⟨e, he, [], forall_mem_nil _, (hmap e he).symm⟩

theorem Grown.perform (hc : Listed c) (op : Op) : Grown (keeps [op]) c (c.perform op) := by
  cases op with
  | onSnapshot channel filters serverFilters serverOrFilters =>
    exact (Grown.onSnapshot c channel filters serverFilters serverOrFilters).congr fun _ => by
      simp [keeps]
  | unsubscribe channel id => exact Grown.unsubscribe hc channel id

theorem Listed.performAll (hc : Listed c) (ops : List Op) : Listed (c.performAll ops) := by
  induction ops generalizing c with
  | nil => exact hc
  | cons op ops ih => exact ih (hc.perform op)

theorem Grown.performAll (hc : Listed c) (ops : List Op) :
    Grown (keeps ops) c (c.performAll ops) := by
  induction ops generalizing c with
  | nil => exact (Grown.refl c).congr fun _ => by simp [keeps]
  | cons op ops ih =>
    refine ((Grown.perform hc op).trans (ih (hc.perform op))).congr fun sub => ?_
    simp [keeps]

end Methods

end EdgeBase.LiveDispatch
