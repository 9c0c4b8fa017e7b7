import EdgeBase.Live.Subscriptions

/-!
# Every handler has its turn

While a frame is delivered, a handler that unsubscribes moves the handlers behind it to the front,
and the loop passes over as many of them.

* `mem_ahead_performAll` : whose turn is still to come when a handler has been called.
* `served_iff` : one handler, and one change.
* `calledOnce_iff` : every handler is called once if none is passed over.
-/

namespace EdgeBase.LiveDispatch

open List Cursor

/-! ### Places -/

namespace Cursor

theorem before_iff {a b : Cursor} : a.before b = true ↔
    a.stamp < b.stamp ∨ a.stamp = b.stamp ∧ a.index < b.index := decide_eq_true_iff

theorem before_trans {a b d : Cursor} (hab : a.before b) (hbd : b.before d) : a.before d := by
  rw [before_iff] at *
  omega

theorem not_before_self (a : Cursor) : a.before a = false := by
  have h : ¬a.before a := by
    rw [before_iff]
    omega
  simpa using h

end Cursor

section Places

variable {c : Client} {incoming : Incoming} {cursor : Cursor}

theorem Entry.mem_places {e : Entry} {p : Cursor × InternalSubscription} :
    p ∈ e.places ↔ ∃ i, e.subs[i]? = some p.2 ∧ p.1 = ⟨e.stamp, i + 1⟩ := by
  rw [Entry.places, mem_map]
  constructor
  · rintro ⟨q, hq, rfl⟩
    exact ⟨q.2, List.mem_zipIdx_iff_getElem?.1 hq, rfl⟩
  · rintro ⟨i, hi, hp⟩
    exact ⟨(p.2, i), List.mem_zipIdx_iff_getElem?.2 hi, by rw [← hp]⟩

theorem Entry.map_snd_places (e : Entry) : e.places.map Prod.snd = e.subs := by
  rw [Entry.places, map_map]
  exact zipIdx_map_fst 0 e.subs

theorem mem_places {p : Cursor × InternalSubscription} : p ∈ c.places incoming ↔
    ∃ e ∈ c.subscriptions, e.takes incoming ∧ p.2.takes incoming ∧ p ∈ e.places := by
  simp only [Client.places, mem_flatMap, mem_filter]
  constructor
  · rintro ⟨e, ⟨he, htakes⟩, hp, hsub⟩
    exact ⟨e, he, htakes, hsub, hp⟩
  · rintro ⟨e, he, htakes, hsub, hp⟩
    exact ⟨e, ⟨he, htakes⟩, hp, hsub⟩

theorem pairwise_places (hc : Listed c) :
    (c.places incoming).Pairwise fun p q => p.1.before q.1 := by
  rw [Client.places, pairwise_flatMap]
  constructor
  · intro e _
    refine List.Pairwise.filter _ ?_
    rw [Entry.places, pairwise_map]
    have hidx : (e.subs.zipIdx.map Prod.snd).Pairwise (· < ·) := by
      rw [zipIdx_map_snd]
      exact pairwise_lt_range'
    refine (pairwise_map.1 hidx).imp fun h => ?_
    exact before_iff.2 (.inr ⟨rfl, Nat.succ_lt_succ h⟩)
  · refine ((pairwise_map.1 hc.stamps).filter _).imp fun {e e'} h p hp q hq => ?_
    obtain ⟨i, -, hp⟩ := Entry.mem_places.1 (mem_of_mem_filter hp)
    obtain ⟨j, -, hq⟩ := Entry.mem_places.1 (mem_of_mem_filter hq)
    rw [hp, hq]
    exact before_iff.2 (.inl h)

theorem remaining_of_cons (hc : Listed c) {k : Cursor} {sub : InternalSubscription}
    {rest : List (Cursor × InternalSubscription)}
    (h : c.remaining incoming cursor = (k, sub) :: rest) : c.remaining incoming k = rest := by
  have hk : cursor.before k :=
    (mem_filter.1 (h ▸ mem_cons_self : (k, sub) ∈ c.remaining incoming cursor)).2
  have hsub : c.remaining incoming k = (c.remaining incoming cursor).filter (k.before ·.1) := by
    rw [Client.remaining, Client.remaining, filter_filter]
    refine filter_congr fun p _ => ?_
    by_cases hp : k.before p.1
    · rw [hp, before_trans hk hp, Bool.and_true]
    · rw [Bool.eq_false_of_not_eq_true hp, Bool.false_and]
  have hsorted : ((k, sub) :: rest).Pairwise fun p q => p.1.before q.1 :=
    h ▸ (pairwise_places hc).filter _
  rw [hsub, h, filter_cons_of_neg (by simp [not_before_self])]
  exact filter_eq_self.2 (pairwise_cons.1 hsorted).1

theorem remaining_subset {k : Cursor} (h : cursor.before k) :
    c.remaining incoming k ⊆ c.remaining incoming cursor := by
  intro p hp
  obtain ⟨hp, hbefore⟩ := mem_filter.1 hp
  exact mem_filter.2 ⟨hp, before_trans h hbefore⟩

theorem mem_ahead {sub : InternalSubscription} :
    sub ∈ (c.remaining incoming cursor).map Prod.snd ↔ sub.takes incoming ∧
      ∃ e ∈ c.subscriptions, e.takes incoming ∧ (cursor.stamp < e.stamp ∧ sub ∈ e.subs ∨
          cursor.stamp = e.stamp ∧ sub ∈ e.subs.drop cursor.index) := by
  simp only [Client.remaining, mem_map, mem_filter, mem_places]
  constructor
  · rintro ⟨p, ⟨⟨e, he, htakes, hsub, hp⟩, hbefore⟩, rfl⟩
    obtain ⟨i, hi, hcursor⟩ := Entry.mem_places.1 hp
    refine ⟨hsub, e, he, htakes, ?_⟩
    rw [hcursor, before_iff] at hbefore
    rcases hbefore with hlt | ⟨heq, hidx⟩
    · exact .inl ⟨hlt, mem_iff_getElem?.2 ⟨i, hi⟩⟩
    · refine .inr ⟨heq, mem_iff_getElem?.2 ⟨i - cursor.index, ?_⟩⟩
      rw [List.getElem?_drop, Nat.add_sub_cancel' (Nat.le_of_lt_succ hidx), hi]
  · rintro ⟨hsub, e, he, htakes, ⟨hlt, hmem⟩ | ⟨heq, hmem⟩⟩
    · obtain ⟨i, hi⟩ := mem_iff_getElem?.1 hmem
      refine ⟨(⟨e.stamp, i + 1⟩, sub), ⟨⟨e, he, htakes, hsub, ?_⟩, ?_⟩, rfl⟩
      · exact Entry.mem_places.2 ⟨i, hi, rfl⟩
      · exact before_iff.2 (.inl hlt)
    · obtain ⟨i, hi⟩ := mem_iff_getElem?.1 hmem
      rw [List.getElem?_drop] at hi
      refine ⟨(⟨e.stamp, cursor.index + i + 1⟩, sub), ⟨⟨e, he, htakes, hsub, ?_⟩, ?_⟩, rfl⟩
      · exact Entry.mem_places.2 ⟨_, hi, rfl⟩
      · exact before_iff.2 (.inr ⟨heq, Nat.lt_succ_of_le (Nat.le_add_right _ _)⟩)

theorem nodup_ahead (hc : Listed c) (incoming : Incoming) (cursor : Cursor) :
    ((c.remaining incoming cursor).map Prod.snd).Nodup := by
  refine List.Nodup.sublist (filter_sublist.map _) ?_
  rw [Client.places, map_flatMap, nodup_flatMap]
  constructor
  · intro e he
    refine List.Nodup.sublist (filter_sublist.map _) ?_
    rw [Entry.map_snd_places]
    exact (hc.sound e (mem_of_mem_filter he)).nodup
  · have hstamps := (pairwise_map.1 hc.stamps).filter (·.takes incoming)
    refine hstamps.imp_of_mem fun {e e'} he he' hlt sub hsub hsub' => ?_
    have hmem : ∀ e : Entry,
        sub ∈ (e.places.filter fun p => p.2.takes incoming).map Prod.snd → sub ∈ e.subs := by
      intro e hsub
      rw [← Entry.map_snd_places]
      exact (filter_sublist.map _).subset hsub
    have heq := hc.eq_of_mem (mem_of_mem_filter he) (mem_of_mem_filter he')
      (hmem e hsub) (hmem e' hsub')
    rw [heq] at hlt
    exact lt_irrefl _ hlt

end Places

/-! ### Handlers that are passed over -/

theorem mem_drop_iff {α : Type*} {l : List α} (hl : l.Nodup) (n : ℕ) {x : α} :
    x ∈ l.drop n ↔ x ∈ l ∧ x ∉ l.take n := by
  constructor
  · exact fun h => ⟨mem_of_mem_drop h, fun h' => disjoint_take_drop hl le_rfl h' h⟩
  · rintro ⟨h, hnot⟩
    rw [← take_append_drop n l] at h
    exact (mem_append.1 h).resolve_left hnot

/-- Where a loop goes on in a list that has become shorter: behind as many more as are gone
before its place. -/
theorem mem_drop_filter {α : Type*} {l new : List α} (p : α → Bool) {n : ℕ} (hn : n ≤ l.length)
    (hl : l.Nodup) {x : α} (hx : x ∉ new) :
    x ∈ (l.filter p ++ new).drop n ↔ x ∈ (l.drop n).filter p ∧
      x ∉ ((l.drop n).filter p).take ((l.take n).filter (!p ·)).length := by
  have hsplit : l.filter p = (l.take n).filter p ++ (l.drop n).filter p := by
    rw [← filter_append, take_append_drop]
  have hlength : n = ((l.take n).filter p).length + ((l.take n).filter (!p ·)).length := by
    rw [← length_eq_length_filter_add, length_take_of_le hn]
  have hdrop : (l.filter p ++ new).drop n =
      ((l.drop n).filter p ++ new).drop ((l.take n).filter (!p ·)).length := by
    rw [hsplit, append_assoc]
    generalize (l.drop n).filter p = back
    generalize (l.take n).filter p = front at hlength ⊢
    generalize ((l.take n).filter (!p ·)).length = gone at hlength ⊢
    rw [hlength, drop_length_add_append]
  rw [hdrop, drop_append, mem_append, ← mem_drop_iff ((hl.sublist
    (drop_sublist n l)).filter _)]
  exact or_iff_left fun h => hx (mem_of_mem_drop h)

section Calls

variable {c : Client} {incoming : Incoming} {cursor : Cursor} {sub sub' : InternalSubscription}
  {ops : List Op}

theorem mem_missed (hc : Listed c) {e : Entry} (he : e ∈ c.subscriptions)
    (hstamp : e.stamp = cursor.stamp) :
    sub ∈ (Call.mk c cursor sub' ops).missed ↔ sub ∈ e.missed cursor.index ops := by
  simp only [Call.missed, mem_flatMap, mem_filter, decide_eq_true_eq]
  constructor
  · rintro ⟨e', ⟨he', hstamp'⟩, hsub⟩
    rwa [hc.eq_of_stamp he' he (hstamp'.trans hstamp.symm)] at hsub
  · exact fun hsub => ⟨e, ⟨he, hstamp⟩, hsub⟩

theorem keeps_of_missed {call : Call} (h : sub ∈ call.missed) : keeps call.ops sub := by
  obtain ⟨e, -, hsub⟩ := mem_flatMap.1 h
  exact (mem_filter.1 (mem_of_mem_take hsub)).2

theorem Entry.mem_of_missed {e : Entry} {index : ℕ} (h : sub ∈ e.missed index ops) :
    sub ∈ e.subs.drop index ∧ keeps ops sub :=
  mem_filter.1 (mem_of_mem_take h)

/-- After a call, who is behind the called handler was so before, has not been unsubscribed, and is
not passed over. -/
theorem mem_ahead_performAll (hc : Listed c) (ops : List Op)
    (hplace : (cursor, sub') ∈ c.places incoming) (hold : sub.id < c.next) :
    sub ∈ ((c.performAll ops).remaining incoming cursor).map Prod.snd ↔
      sub ∈ (c.remaining incoming cursor).map Prod.snd ∧ keeps ops sub ∧
        sub ∉ (Call.mk c cursor sub' ops).missed := by
  have hgrown := Grown.performAll hc ops
  have hnew : ∀ {new}, Fresh c.next new → sub ∉ new := fun hfresh hsub =>
    absurd (hfresh sub hsub) (Nat.not_le.2 hold)
  obtain ⟨e₀, he₀, -, -, hcursor⟩ := mem_places.1 hplace
  obtain ⟨i, hi, hcursor⟩ := Entry.mem_places.1 hcursor
  have hstamp₀ : e₀.stamp = cursor.stamp := by rw [show cursor = _ from hcursor]
  have hlength : cursor.index ≤ e₀.subs.length := by
    rw [show cursor = _ from hcursor]
    exact (List.getElem?_eq_some_iff.1 hi).1
  rw [mem_missed hc he₀ hstamp₀, mem_ahead, mem_ahead]
  constructor
  · rintro ⟨htakes, e', he', htakes', hplace'⟩
    rcases hgrown.old e' he' with ⟨e, he, new, hfresh, rfl⟩ | ⟨-, hfresh⟩
    · rcases hplace' with ⟨hlt, hsub⟩ | ⟨heq, hsub⟩
      · have hsub := (mem_append.1 hsub).resolve_right (hnew hfresh)
        obtain ⟨hsub, hkeeps⟩ := mem_filter.1 hsub
        refine ⟨⟨htakes, e, he, htakes', .inl ⟨hlt, hsub⟩⟩, hkeeps, fun hmissed => ?_⟩
        -- it is in another list
        have hdrop := (Entry.mem_of_missed hmissed).1
        obtain rfl := hc.eq_of_mem he he₀ hsub (mem_of_mem_drop hdrop)
        exact Nat.ne_of_gt hlt hstamp₀
      · obtain rfl := hc.eq_of_stamp he he₀ (heq.symm.trans hstamp₀.symm)
        obtain ⟨hsub, hmissed⟩ :=
          (mem_drop_filter _ hlength (hc.sound e he).nodup (hnew hfresh)).1 hsub
        obtain ⟨hsub, hkeeps⟩ := mem_filter.1 hsub
        exact ⟨⟨htakes, e, he, htakes', .inr ⟨heq, hsub⟩⟩, hkeeps, hmissed⟩
    · have hsub : sub ∈ e'.subs := by
        rcases hplace' with ⟨-, hsub⟩ | ⟨-, hsub⟩
        · exact hsub
        · exact mem_of_mem_drop hsub
      exact absurd hsub (hnew hfresh)
  · rintro ⟨⟨htakes, e, he, htakes', hplace'⟩, hkeeps, hmissed⟩
    have hsub : sub ∈ e.subs := by
      rcases hplace' with ⟨-, hsub⟩ | ⟨-, hsub⟩
      · exact hsub
      · exact mem_of_mem_drop hsub
    have hstays : sub ∈ e.subs.filter (keeps ops) := mem_filter.2 ⟨hsub, hkeeps⟩
    obtain ⟨new, hfresh, he'⟩ := hgrown.kept e he (ne_nil_of_mem hstays)
    refine ⟨htakes, _, he', htakes', ?_⟩
    rcases hplace' with ⟨hlt, -⟩ | ⟨heq, hdrop⟩
    · exact .inl ⟨hlt, mem_append_left _ hstays⟩
    · obtain rfl := hc.eq_of_stamp he he₀ (heq.symm.trans hstamp₀.symm)
      refine .inr ⟨heq, (mem_drop_filter _ hlength (hc.sound e he).nodup (hnew hfresh)).2 ?_⟩
      exact ⟨mem_filter.2 ⟨hdrop, hkeeps⟩, hmissed⟩

theorem mem_ahead_of_missed (hc : Listed c) (hplace : (cursor, sub') ∈ c.places incoming)
    (htakes : sub.takes incoming) (h : sub ∈ (Call.mk c cursor sub' ops).missed) :
    sub ∈ (c.remaining incoming cursor).map Prod.snd := by
  obtain ⟨e, he, htakes', -, hcursor⟩ := mem_places.1 hplace
  obtain ⟨i, -, hcursor⟩ := Entry.mem_places.1 hcursor
  have hstamp : e.stamp = cursor.stamp := by rw [show cursor = _ from hcursor]
  rw [mem_missed hc he hstamp] at h
  exact mem_ahead.2 ⟨htakes, e, he, htakes', .inr ⟨hstamp.symm, (Entry.mem_of_missed h).1⟩⟩

end Calls

/-! ### The loops -/

section Loops

variable {c : Client} {incoming : Incoming} {cursor k : Cursor} {sub called : InternalSubscription}
  {ops : List Op} {script : List (List Op)} {rest : List (Cursor × InternalSubscription)}

theorem dispatch_of_nil (h : c.remaining incoming cursor = []) :
    dispatch incoming script c cursor = ⟨[], c, script⟩ := by
  cases script with
  | nil => rw [dispatch, h, map_nil]
  | cons ops script => rw [dispatch, h]

theorem dispatch_of_cons (h : c.remaining incoming cursor = (k, called) :: rest) :
    dispatch incoming (ops :: script) c cursor =
      { dispatch incoming script (c.performAll ops) k with
        calls := ⟨c, k, called, ops⟩ ::
          (dispatch incoming script (c.performAll ops) k).calls } := by
  rw [dispatch, h]

theorem Listed.dispatch (hc : Listed c) (incoming : Incoming) (script : List (List Op))
    (cursor : Cursor) : Listed (LiveDispatch.dispatch incoming script c cursor).client ∧
      c.next ≤ (LiveDispatch.dispatch incoming script c cursor).client.next := by
  induction script generalizing c cursor with
  | nil => exact ⟨hc, le_rfl⟩
  | cons ops script ih =>
    cases hremaining : c.remaining incoming cursor with
    | nil =>
      rw [dispatch_of_nil hremaining]
      exact ⟨hc, le_rfl⟩
    | cons p rest =>
      obtain ⟨k, called⟩ := p
      rw [dispatch_of_cons hremaining]
      obtain ⟨hlisted, hle⟩ := ih (hc.performAll ops) k
      exact ⟨hlisted, (Grown.performAll hc ops).next_le.trans hle⟩

theorem mem_of_remaining_cons (h : c.remaining incoming cursor = (k, called) :: rest) :
    (k, called) ∈ c.places incoming ∧ cursor.before k :=
  mem_filter.1 (h ▸ mem_cons_self : (k, called) ∈ c.remaining incoming cursor)

def Call.Spares (incoming : Incoming) (sub : InternalSubscription) (call : Call) : Prop :=
  call.sub ≠ sub ∧ sub ∉ call.ahead incoming ∧ sub ∉ call.missed

theorem spares_of_notMem (hc : Listed c) (htakes : sub.takes incoming)
    (h : sub ∉ (c.remaining incoming cursor).map Prod.snd)
    {p : Cursor × InternalSubscription} (hp : p ∈ c.remaining incoming cursor) (ops : List Op) :
    (Call.mk c p.1 p.2 ops).Spares incoming sub := by
  obtain ⟨hplace, hbefore⟩ := mem_filter.1 hp
  have hahead : sub ∉ (Call.mk c p.1 p.2 ops).ahead incoming := fun hahead =>
    h (map_subset _ (remaining_subset hbefore) hahead)
  exact ⟨fun heq => h (mem_map.2 ⟨p, hp, heq⟩), hahead,
    fun hmissed => hahead (mem_ahead_of_missed hc hplace htakes hmissed)⟩

theorem dispatch_of_notMem (script : List (List Op)) (hc : Listed c) (hold : sub.id < c.next)
    (htakes : sub.takes incoming) (h : sub ∉ (c.remaining incoming cursor).map Prod.snd) :
    ∀ call ∈ (dispatch incoming script c cursor).calls, call.Spares incoming sub := by
  induction script generalizing c cursor with
  | nil =>
    intro call hmem
    obtain ⟨p, hp, rfl⟩ := mem_map.1 hmem
    exact spares_of_notMem hc htakes h hp []
  | cons ops script ih =>
    cases hremaining : c.remaining incoming cursor with
    | nil =>
      rw [dispatch_of_nil hremaining]
      exact forall_mem_nil _
    | cons p rest =>
      obtain ⟨k, called⟩ := p
      obtain ⟨hplace, -⟩ := mem_of_remaining_cons hremaining
      have hspares := spares_of_notMem hc htakes h (hremaining ▸ mem_cons_self) ops
      rw [dispatch_of_cons hremaining]
      refine forall_mem_cons.2 ⟨hspares, ?_⟩
      refine ih (hc.performAll ops) (hold.trans_le (Grown.performAll hc ops).next_le) ?_
      exact fun hmem => hspares.2.1 ((mem_ahead_performAll hc ops hplace hold).1 hmem).1

theorem countP_of_spares {calls : List Call} (h : ∀ call ∈ calls, call.Spares incoming sub) :
    calls.countP (fun call => call.sub = sub) = 0 :=
  countP_eq_zero.2 fun call hcall => by simpa using (h call hcall).1

theorem not_served_of_spares {calls : List Call} (h : ∀ call ∈ calls, call.Spares incoming sub) :
    ¬Served incoming sub calls := by
  rintro (hone | ⟨-, call, hcall, hahead, -⟩)
  · rw [countP_of_spares h] at hone
    exact Nat.zero_ne_one hone
  · exact (h call hcall).2.1 hahead

theorem served_cons_iff {call : Call} {calls : List Call} (hne : call.sub ≠ sub)
    (hkeeps : keeps call.ops sub) :
    Served incoming sub (call :: calls) ↔ Served incoming sub calls := by
  have hunsub : .unsubscribe sub.channel sub.id ∉ call.ops := by simpa [keeps] using hkeeps
  unfold Served
  rw [countP_cons_of_neg (by simpa using hne)]
  simp only [exists_mem_cons_iff, hunsub, and_false, false_or]

theorem served_iff (hc : Listed c) (hold : sub.id < c.next) (htakes : sub.takes incoming)
    (h : sub ∈ (c.remaining incoming cursor).map Prod.snd) :
    Served incoming sub (dispatch incoming script c cursor).calls ↔
      ∀ call ∈ (dispatch incoming script c cursor).calls, sub ∉ call.missed := by
  induction script generalizing c cursor with
  | nil =>
    have hmissed : ∀ call ∈ (dispatch incoming [] c cursor).calls, sub ∉ call.missed := by
      intro call hcall hmem
      obtain ⟨p, -, rfl⟩ := mem_map.1 hcall
      simp [Call.missed, Entry.missed, keeps] at hmem
    refine iff_of_true (.inl ?_) hmissed
    have hcount : ((c.remaining incoming cursor).map Prod.snd).count sub = 1 :=
      count_eq_one_of_mem (nodup_ahead hc incoming cursor) h
    rw [List.count, countP_map] at hcount
    rw [dispatch, countP_map, ← hcount]
    exact countP_congr fun p _ => by simp
  | cons ops script ih =>
    cases hremaining : c.remaining incoming cursor with
    | nil =>
      rw [hremaining] at h
      exact absurd h not_mem_nil
    | cons p rest =>
      obtain ⟨k, called⟩ := p
      obtain ⟨hplace, -⟩ := mem_of_remaining_cons hremaining
      have hahead : (Call.mk c k called ops).ahead incoming = rest.map Prod.snd := by
        rw [Call.ahead, remaining_of_cons hc hremaining]
      have hnodup : ((called :: rest.map Prod.snd)).Nodup := by
        simpa [hremaining] using nodup_ahead hc incoming cursor
      have hold' := hold.trans_le (Grown.performAll hc ops).next_le
      have hafter := mem_ahead_performAll hc ops hplace hold
      rw [remaining_of_cons hc hremaining] at hafter
      rw [dispatch_of_cons hremaining, forall_mem_cons]
      rw [hremaining] at h
      rcases mem_cons.1 h with rfl | hrest
      · -- it is called now, and not again
        have hnot := (nodup_cons.1 hnodup).1
        have hspares := dispatch_of_notMem script (hc.performAll ops) hold' htakes
          fun hmem => hnot (hafter.1 hmem).1
        refine iff_of_true (.inl ?_) ⟨fun hmissed => ?_, fun call hcall => (hspares call hcall).2.2⟩
        · rw [countP_cons_of_pos (by simp), countP_of_spares hspares]
        · have hmem := mem_ahead_of_missed hc hplace htakes hmissed
          rw [remaining_of_cons hc hremaining] at hmem
          exact hnot hmem
      · have hne : called ≠ sub := fun heq => (nodup_cons.1 hnodup).1 (heq ▸ hrest)
        by_cases hturn : sub ∈ ((c.performAll ops).remaining incoming k).map Prod.snd
        · -- its turn is still to come
          obtain ⟨-, hkeeps, hmissed⟩ := hafter.1 hturn
          rw [served_cons_iff hne hkeeps, ih (hc.performAll ops) hold' hturn]
          exact (and_iff_right hmissed).symm
        · have hspares := dispatch_of_notMem script (hc.performAll ops) hold' htakes hturn
          by_cases hkeeps : keeps ops sub
          · -- it is passed over
            refine iff_of_false ?_ fun hnone => hturn (hafter.2 ⟨hrest, hkeeps, hnone.1⟩)
            rw [served_cons_iff hne hkeeps]
            exact not_served_of_spares hspares
          · -- it is unsubscribed in time
            refine iff_of_true (.inr ⟨?_, ?_⟩)
              ⟨fun hmissed => hkeeps (keeps_of_missed hmissed),
                fun call hcall => (hspares call hcall).2.2⟩
            · rw [countP_cons_of_neg (by simpa using hne), countP_of_spares hspares]
            · refine ⟨_, mem_cons_self, hahead ▸ hrest, ?_⟩
              simpa [keeps] using hkeeps

theorem mem_ahead_start : sub ∈ (c.remaining incoming ⟨0, 0⟩).map Prod.snd ↔
    sub.takes incoming ∧ ∃ e ∈ c.subscriptions, e.takes incoming ∧ sub ∈ e.subs := by
  rw [mem_ahead]
  refine and_congr_right fun _ => exists_congr fun e => and_congr_right fun _ =>
    and_congr_right fun _ => ?_
  rw [drop_zero]
  constructor
  · rintro (⟨-, hsub⟩ | ⟨-, hsub⟩) <;> exact hsub
  · intro hsub
    rcases Nat.eq_zero_or_pos e.stamp with hzero | hpos
    · exact .inr ⟨hzero.symm, hsub⟩
    · exact .inl ⟨hpos, hsub⟩

/-- For one change every handler is served if no handler is passed over that takes the change. -/
theorem calledOnce_iff (hc : Listed c) {arrived : Client} (hle : arrived.next ≤ c.next) :
    CalledOnce arrived incoming c (dispatch incoming script c ⟨0, 0⟩).calls ↔
      ∀ call ∈ (dispatch incoming script c ⟨0, 0⟩).calls, ∀ sub ∈ call.missed,
        sub.id < arrived.next → ¬sub.takes incoming := by
  constructor
  · intro h call hcall sub hmissed hid htakes
    have hold := hid.trans_le hle
    by_cases hsub : sub ∈ (c.remaining incoming ⟨0, 0⟩).map Prod.snd
    · obtain ⟨-, e, he, htakes', hmem⟩ := mem_ahead_start.1 hsub
      have hserved := h e he htakes' sub hmem hid htakes
      exact (served_iff hc hold htakes hsub).1 hserved call hcall hmissed
    · exact (dispatch_of_notMem script hc hold htakes hsub call hcall).2.2 hmissed
  · intro h e he htakes' sub hmem hid htakes
    have hsub := mem_ahead_start.2 ⟨htakes, e, he, htakes', hmem⟩
    refine (served_iff hc (hid.trans_le hle) htakes hsub).2 fun call hcall hmissed => ?_
    exact h call hcall sub hmissed hid htakes

/-- Every change of a frame is delivered with the lists as the changes before it leave them. -/
theorem Listed.dispatchAll (hc : Listed c) (changes : List Incoming) (script : List (List Op)) :
    (∀ turn ∈ (LiveDispatch.dispatchAll changes script c).1, Listed turn.2.1 ∧
      c.next ≤ turn.2.1.next ∧
      ∃ script, turn.2.2 = (LiveDispatch.dispatch turn.1 script turn.2.1 ⟨0, 0⟩).calls) ∧
    Listed (LiveDispatch.dispatchAll changes script c).2 := by
  induction changes generalizing c script with
  | nil => exact ⟨forall_mem_nil _, hc⟩
  | cons incoming changes ih =>
    obtain ⟨hlisted, hle⟩ := hc.dispatch incoming script ⟨0, 0⟩
    obtain ⟨hturns, hlast⟩ := ih hlisted (LiveDispatch.dispatch incoming script c ⟨0, 0⟩).script
    refine ⟨forall_mem_cons.2 ⟨⟨hc, le_rfl, script, rfl⟩, fun turn hturn => ?_⟩, hlast⟩
    obtain ⟨hturn, hnext, script', hcalls⟩ := hturns turn hturn
    exact ⟨hturn, hle.trans hnext, script', hcalls⟩

end Loops

end EdgeBase.LiveDispatch
