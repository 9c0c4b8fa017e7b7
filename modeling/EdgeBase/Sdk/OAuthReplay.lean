import EdgeBase.Lib.Runs
import EdgeBase.Sdk.OAuthRecovery

/-!
# An OAuth callback is accepted once

The tabs of a browser start flows, consume, clear and prune their records, in any order, at any
time, and with any of their operations on the storage failing.  A nonce is accepted at most once: a
call that accepts it has read its record and has removed it, and no other call writes one again.

* `Browser`, `step` : the tabs and what happens to them.
* `accepted_once` : over every run of the tabs.
* `evicted` : the ninth flow removes the record of the first.
-/

namespace EdgeBase.OAuthRecovery

open FaultyStore Audited

/-! ### The browser -/

structure Browser where
  items : List (Key × Item)
  now : ℤ
  tabs : ℕ → Memory
  /-- The calls of `consumePendingOAuthRecovery` that wait, with their tabs. -/
  waiting : List (ℕ × Consume)
  /-- The nonces that were drawn, one for each flow. -/
  drawn : List Nonce
  /-- The nonces for which a call returned true. -/
  accepted : List Nonce

inductive Event where
  | tick (now : ℤ)
  /-- A tab is opened or loads its page again. -/
  | load (tab : ℕ)
  | advance (tab : ℕ)
  | mark (tab : ℕ) (nonce : Nonce)
  | prune (tab : ℕ)
  | clear (tab : ℕ) (nonce : Nonce)
  | start (tab ownerId : ℕ) (nonce : Nonce) (callbackEpoch : ℤ)
  /-- The `i`th waiting call goes on. -/
  | resume (i : ℕ)
  deriving DecidableEq

/-- The flows whose records are there count as drawn. -/
def Browser.init (items : List (Key × Item)) (now : ℤ) : Browser where
  items := items
  now := now
  tabs _ := {}
  waiting := []
  drawn := items.filterMap fun b => match b.1 with
    | .pending nonce => some nonce
    | _ => none
  accepted := []

namespace Browser

variable (w : Browser)

def area (tab : ℕ) (faults : List Bool) : Area Key Item Memory := ⟨w.items, w.tabs tab, faults⟩

def after (tab : ℕ) (s : Area Key Item Memory) : Browser :=
  { w with items := s.items, tabs := Function.update w.tabs tab s.memory }

def record (nonce : Nonce) : Option Item := w.items.lookup (.pending nonce)

end Browser

/-- An event, and which of the operations on the storage fail in it. -/
def step (webLocks : Bool) (w : Browser) : Event × List Bool → Browser
  | (.tick now, _) => { w with now }
  | (.load tab, _) => { w with
      tabs := Function.update w.tabs tab {}, waiting := w.waiting.filter (·.1 ≠ tab) }
  | (.advance tab, faults) => w.after tab (advanceAuthEpoch (w.area tab faults)).state
  | (.mark tab nonce, faults) => { w.after tab
      (markPendingOAuthRecovery w.now nonce (w.area tab faults)).state with
      drawn := nonce :: w.drawn }
  | (.prune tab, faults) => w.after tab (readPendingOAuthRecoveries w.now (w.area tab faults)).state
  | (.clear tab nonce, faults) =>
    w.after tab (clearPendingOAuthRecovery nonce (w.area tab faults)).state
  | (.start tab ownerId nonce callbackEpoch, faults) =>
    let outcome := startConsume webLocks w.now ownerId nonce callbackEpoch (w.area tab faults)
    { w.after tab outcome.state with
      waiting := w.waiting ++ match outcome.result with
        | .ok (some call) => [(tab, call)]
        | _ => [] }
  | (.resume i, faults) => match w.waiting[i]? with
    | none => w
    | some (tab, call) =>
      let outcome := resumeConsume w.now call (w.area tab faults)
      { w.after tab outcome.state with
        waiting := w.waiting.eraseIdx i
        accepted := match outcome.result with
          | .ok true => call.nonce :: w.accepted
          | _ => w.accepted }

/-! ### What is accepted -/

/-- The record that a call accepts: it is fresh, and of the epoch of the callback, which is the
current one of the tab. -/
def Accepts (now : ℤ) (call : Consume) (items : List (Key × Item)) (memory : Memory) : Prop :=
  ∃ e, entryAt now items call.nonce = some e ∧ e.authEpoch = call.callbackEpoch ∧
    call.callbackEpoch = max memory.authEpoch (readPersistedAuthEpoch (items.lookup .authEpoch))

section Accepts

variable {now : ℤ} {call : Consume} {items₀ : List (Key × Item)} {memory₀ : Memory}
  {J : List (Key × Item) → Prop}

def Epochs (items₀ : List (Key × Item)) (memory₀ : Memory) (items : List (Key × Item))
    (memory : Memory) : Prop :=
  items.lookup .authEpoch = items₀.lookup .authEpoch ∧ memory.authEpoch = memory₀.authEpoch

theorem yields_currentAuthEpoch :
    Yields (fun s => Epochs items₀ memory₀ s.items s.memory ∧ J s.items) currentAuthEpoch
      fun epoch s => epoch = max memory₀.authEpoch
        (readPersistedAuthEpoch (items₀.lookup .authEpoch)) ∧ J s.items := by
  have hread : Keeps (fun items memory => Epochs items₀ memory₀ items memory ∧ J items)
      (· = items₀.lookup .authEpoch) (getItem .authEpoch) := .getItem fun _ _ h => h.1.1
  refine .bind (hread.yields fun _ h => h) fun persisted => .assume fun hpersisted => ?_
  refine .bind (Q := fun memory s => memory.authEpoch = memory₀.authEpoch ∧ J s.items)
    (.read fun s h => ⟨h.1.2, h.2⟩) fun memory => .assume fun hmemory => ?_
  exact .bind (.update fun s h => h) fun _ => .pure fun s h => ⟨by rw [hmemory, hpersisted], h⟩

theorem yields_consume :
    Yields (fun s => s.items = items₀ ∧ s.memory = memory₀) (consume now call) fun accepted s =>
      accepted = true → s.items.lookup (.pending call.nonce) = none ∧
        Accepts now call items₀ memory₀ := by
  have hread : Keeps (fun items memory => items = items₀ ∧ memory = memory₀)
      (· = items₀.lookup (.pending call.nonce)) (getItem (.pending call.nonce)) :=
    .getItem fun _ _ h => by rw [h.1]
  refine .bind (hread.yields fun _ h => h) fun item => .assume fun hitem => ?_
  subst hitem
  cases hentry : parsePendingOAuthRecoveryEntry now call.nonce
      (items₀.lookup (.pending call.nonce)) with
  | none => exact .bind .any fun _ => .pure fun _ _ h => nomatch h
  | some entry =>
    -- the epochs are as they were until they are read; the record is gone once it is removed
    refine .bind (Q := fun _ s => Epochs items₀ memory₀ s.items s.memory)
      (.update fun s h => ⟨by rw [h.1], by rw [h.2]⟩) fun _ => ?_
    have hset : Keeps (Epochs items₀ memory₀) (fun _ => True)
        (setItem (.consumeLock call.nonce) (.lock .consumed call.now)) :=
      .setItem fun _ _ h => ⟨(Assoc.lookup_set_of_ne _ (by simp) _).trans h.1, h.2⟩
    have hremove : Keeps (Epochs items₀ memory₀) (fun _ => True)
        (removeItem (.pending call.nonce)) :=
      .removeItem fun _ _ h => ⟨(lookup_restrict_of_ne (by simp)).trans h.1, h.2⟩
    have hunlock : Keeps (fun items memory => Epochs items₀ memory₀ items memory ∧
        items.lookup (.pending call.nonce) = none) (fun _ => True)
        (removeItem (.consumeLock call.nonce)) :=
      .removeItem fun _ _ h => ⟨⟨(lookup_restrict_of_ne (by simp)).trans h.1.1, h.1.2⟩,
        lookup_restrict_of_none h.2⟩
    refine .bind (hset.attempt.yields fun _ h => h) fun _ => ?_
    refine .bind (Q := fun removed s => Epochs items₀ memory₀ s.items s.memory ∧
      (removed = true → s.items.lookup (.pending call.nonce) = none))
      (fun s hs removed hr => ⟨hremove.attempt.state hs.2,
        yields_attempt_removeItem (P := fun _ => True) _ s trivial _ hr⟩)
      fun removed => .ite (fun hremoved => ?_) fun _ => .pure fun _ _ h => nomatch h
    refine .bind (hunlock.attempt.yields fun s hs => ⟨hs.1, hs.2 hremoved⟩) fun _ => ?_
    refine .bind (.assume fun _ => yields_currentAuthEpoch
      (J := fun items => items.lookup (.pending call.nonce) = none)) fun epoch =>
        .assume fun hepoch => .pure fun s hs haccept => ⟨hs, entry, hentry, ?_⟩
    rw [Bool.and_eq_true, decide_eq_true_iff, decide_eq_true_iff, hepoch] at haccept
    exact haccept

theorem yields_resumeConsume :
    Yields (fun s => s.items = items₀ ∧ s.memory = memory₀) (resumeConsume now call)
      fun accepted s => accepted = true → s.items.lookup (.pending call.nonce) = none ∧
        Accepts now call items₀ memory₀ := by
  unfold resumeConsume
  cases call.ownerId with
  | none => exact yields_consume
  | some ownerId =>
    have hread : Keeps (fun items memory => items = items₀ ∧ memory = memory₀) (fun _ => True)
        (getItem (.consumeLock call.nonce)) := .getItem_any
    refine .bind (hread.yields fun _ h => h) fun item => .ite (fun _ => ?_) fun _ =>
      .pure fun _ _ h => nomatch h
    refine yields_finish (fun s hs => yields_consume s hs.2) fun accepted => ?_
    cases accepted with
    | false => exact .weaken .any fun _ _ _ h => nomatch h
    | true =>
      have hlast : Keeps (fun items _ => items.lookup (.pending call.nonce) = none)
          (fun _ => True) (do
            let currentClaim ← getItem (.consumeLock call.nonce)
            removeWhen (isClaimOf ownerId currentClaim) (.consumeLock call.nonce) : Run Unit) :=
        .bind .getItem_any fun _ _ => keeps_removeWhen _ fun _ _ h => lookup_restrict_of_none h
      exact fun s hs u hu _ => ⟨hlast.state (hs rfl).1, (hs rfl).2⟩

end Accepts

/-! ### What an event does to the records -/

section Step

variable {webLocks : Bool} {w : Browser} {faults : List Bool} {nonce : Nonce}
  {J : List (Key × Item) → Prop}

theorem keeps_clear (h : ∀ items k, nonce = [] ∨ k = .pending nonce ∨ k = .consumeLock nonce →
      J items → J (Assoc.restrict (· != k) items)) :
    Keeps (fun items _ => J items) (fun _ => True) (clearPendingOAuthRecovery nonce) := by
  refine .ite (fun hnonce => .ite (fun _ => ?_) fun _ => .pure trivial) fun hnonce => ?_
  · exact .bind (.removeItem fun items _ => h items _ (.inr (.inl rfl))) fun _ _ =>
      .removeItem fun items _ => h items _ (.inr (.inr rfl))
  · have hremove (k : Key) : Keeps (fun items (_ : Memory) => J items) (fun _ => True)
        (removeItem k) := .removeItem fun items _ => h items k (.inl (not_not.1 hnonce))
    refine .bind .keys fun keys _ => .bind (Keeps.forEach (g := fun _ => ()) keys fun k _ => ?_)
      fun _ _ => hremove _
    cases k with
    | pending _ | consumeLock _ | completion _ => exact (hremove _).weaken fun _ _ => rfl
    | pendingRecoveries | authEpoch | other _ => exact .pure rfl

theorem keeps_advance (h : ∀ items v, J items → J (Assoc.set items .authEpoch v)) :
    Keeps (fun items _ => J items) (fun _ => True) advanceAuthEpoch :=
  .bind keeps_currentAuthEpoch fun _ _ => .bind (.setItem fun items _ => h items _) fun _ _ =>
    .remember fun _ _ h => h

/-- Which records may change in an event: that of its own nonce, and for a flow that starts and for
pruning, those that are not to be kept. -/
def Spares (w : Browser) (e : Event) (w' : Browser) : Prop :=
  ∀ m, w'.record m = w.record m ∨ match e with
    | .mark _ nonce => m = nonce ∨ w'.record m = none ∧ ∃ createdAt authEpoch,
        Prunable w.now (Assoc.set w.items (.pending nonce) (.recovery createdAt authEpoch)) m
    | .prune _ => w'.record m = none ∧ Prunable w.now w.items m
    | .clear _ nonce => nonce = [] ∨ m = nonce
    | .resume i => ∃ tab call, w.waiting[i]? = some (tab, call) ∧ m = call.nonce
    | _ => False

theorem spares_step (e : Event) : Spares w e (step webLocks w (e, faults)) := by
  intro m
  cases e with
  | tick now => exact .inl rfl
  | load tab => exact .inl rfl
  | advance tab =>
    exact .inl <| (keeps_advance (J := fun items => items.lookup (.pending m) = w.record m)
      fun _ _ h => (Assoc.lookup_set_of_ne _ (by simp) _).trans h).state
        (s := w.area tab faults) rfl
  | mark tab nonce =>
    by_cases hm : m = nonce
    · exact .inr (.inl hm)
    · exact (mark_spec (s := w.area tab faults) m hm).imp_right .inr
  | prune tab => exact prune_spec (s := w.area tab faults) m
  | clear tab nonce =>
    by_cases hm : nonce = [] ∨ m = nonce
    · exact .inr hm
    · rw [not_or] at hm
      refine .inl <| (keeps_clear (J := fun items => items.lookup (.pending m) = w.record m)
        fun items k hk h => ?_).state (s := w.area tab faults) rfl
      have hne : Key.pending m ≠ k := by
        rcases hk with hk | rfl | rfl
        · exact absurd hk hm.1
        · simp [hm.2]
        · simp
      exact (lookup_restrict_of_ne hne).trans h
  | start tab ownerId nonce callbackEpoch =>
    exact .inl <| (keeps_startConsume (allowsClaim_record (v := w.record m))).state
      (s := w.area tab faults) rfl
  | resume i =>
    unfold step
    dsimp only
    cases hcall : w.waiting[i]? with
    | none => exact .inl rfl
    | some p =>
      by_cases hm : m = p.2.nonce
      · exact .inr ⟨p.1, p.2, rfl, hm⟩
      · exact .inl <| (keeps_resumeConsume (allows_record (v := w.record m) hm)).state
          (s := w.area p.1 faults) rfl

theorem absent_step {e : Event} (he : ∀ tab, e ≠ .mark tab nonce) (h : w.record nonce = none) :
    (step webLocks w (e, faults)).record nonce = none := by
  have hspares : Spares w e (step webLocks w (e, faults)) := spares_step e
  obtain hsame | hother := hspares nonce
  · exact hsame.trans h
  · cases e with
    | tick _ | load _ | advance _ | start _ _ _ _ => exact hother.elim
    | mark tab nonce' =>
      obtain rfl | hgone := hother
      · exact absurd rfl (he tab)
      · exact hgone.1
    | prune tab => exact hother.1
    | clear tab nonce' =>
      exact (keeps_clear (J := fun items => items.lookup (.pending nonce) = none)
        fun _ _ _ h => lookup_restrict_of_none h).state (s := w.area tab faults) h
    | resume i =>
      obtain ⟨tab, call, hcall, -⟩ := hother
      dsimp only [step]
      rw [hcall]
      exact (keeps_resumeConsume allows_absent).state (s := w.area tab faults) h

/-- What is accepted is the nonce of a call that goes on, and has no record any more. -/
def Accepted (w : Browser) (e : Event) (w' : Browser) : Prop :=
  w'.accepted = w.accepted ∨ ∃ i tab call, e = .resume i ∧ w.waiting[i]? = some (tab, call) ∧
    w'.accepted = call.nonce :: w.accepted ∧ w'.record call.nonce = none ∧
    Accepts w.now call w.items (w.tabs tab)

theorem accepted_step (e : Event) : Accepted w e (step webLocks w (e, faults)) := by
  cases e with
  | tick _ | load _ | advance _ | mark _ _ | prune _ | clear _ _ | start _ _ _ _ => exact .inl rfl
  | resume i =>
    cases hcall : w.waiting[i]? with
    | none =>
      dsimp only [step]
      rw [hcall]
      exact .inl rfl
    | some p =>
      obtain ⟨tab, call⟩ := p
      dsimp only [Accepted, step]
      rw [hcall]
      dsimp only
      cases hresult : (resumeConsume w.now call (w.area tab faults)).result with
      | error _ => exact .inl rfl
      | ok accepted =>
        cases accepted with
        | false => exact .inl rfl
        | true =>
          obtain ⟨hgone, haccepts⟩ :=
            yields_resumeConsume (w.area tab faults) ⟨rfl, rfl⟩ true hresult rfl
          exact .inr ⟨i, tab, call, rfl, hcall, rfl, hgone, haccepts⟩

/-! ### Runs -/

def Browser.records (w : Browser) (n : Nonce) : ℕ := if (w.record n).isSome then 1 else 0

theorem records_le_one (w : Browser) (n : Nonce) : w.records n ≤ 1 := by
  unfold Browser.records
  split_ifs <;> simp

theorem records_eq_zero {n : Nonce} (h : w.record n = none) : w.records n = 0 := by
  rw [Browser.records, h]
  rfl

theorem records_step {e : Event} {n : Nonce} (he : ∀ tab, e ≠ .mark tab n) :
    (step webLocks w (e, faults)).records n ≤ w.records n := by
  cases hrecord : w.record n with
  | none => exact (records_eq_zero (absent_step he hrecord)).trans_le (Nat.zero_le _)
  | some item =>
    rw [show w.records n = 1 by simp [Browser.records, hrecord]]
    exact records_le_one _ n

/-- A nonce was accepted, and has a record now, at most as often together as it was drawn. -/
def Sound (w : Browser) : Prop := ∀ n, w.accepted.count n + w.records n ≤ w.drawn.count n

theorem sound_init (items : List (Key × Item)) (now : ℤ) : Sound (.init items now) := by
  intro n
  have hcount : (Browser.init items now).accepted.count n = 0 := rfl
  rw [hcount, Nat.zero_add]
  cases hrecord : (Browser.init items now).record n with
  | none => exact (records_eq_zero hrecord).trans_le (Nat.zero_le _)
  | some item =>
    refine (records_le_one _ n).trans (List.count_pos_iff.2 (List.mem_filterMap.2 ?_))
    exact ⟨_, Assoc.mem_of_lookup hrecord, rfl⟩

theorem count_drawn_step {e : Event} {n : Nonce} (he : ∀ tab, e ≠ .mark tab n) :
    (step webLocks w (e, faults)).drawn.count n = w.drawn.count n := by
  cases e with
  | mark tab nonce => exact List.count_cons_of_ne fun h => he tab (congrArg _ h)
  | tick _ | load _ | advance _ | prune _ | clear _ _ | start _ _ _ _ => rfl
  | resume i =>
    dsimp only [step]
    split <;> rfl

theorem Sound.step (h : Sound w) (e : Event) : Sound (step webLocks w (e, faults)) := by
  intro n
  have hn := h n
  by_cases he : ∃ tab, e = .mark tab n
  · -- the nonce is drawn once more, and has one record at most
    obtain ⟨tab, rfl⟩ := he
    have hdrawn : (OAuthRecovery.step webLocks w (.mark tab n, faults)).drawn.count n =
        w.drawn.count n + 1 := List.count_cons_self
    have hrecords := records_le_one (OAuthRecovery.step webLocks w (.mark tab n, faults)) n
    have hsame : (OAuthRecovery.step webLocks w (.mark tab n, faults)).accepted = w.accepted := rfl
    rw [hdrawn, hsame]
    omega
  · have he' : ∀ tab, e ≠ .mark tab n := fun tab htab => he ⟨tab, htab⟩
    have hrecords : (OAuthRecovery.step webLocks w (e, faults)).records n ≤ w.records n :=
      records_step he'
    have haccepted : Accepted w e (OAuthRecovery.step webLocks w (e, faults)) := accepted_step e
    rw [count_drawn_step he']
    obtain hsame | ⟨i, tab, call, -, -, hcons, hgone, entry, hentry, -⟩ := haccepted
    · rw [hsame]
      omega
    · rw [hcons]
      by_cases hcall : call.nonce = n
      · -- it is accepted for the one record that it had
        subst hcall
        have hone : w.records call.nonce = 1 := by
          cases hrecord : w.record call.nonce with
          | some item => simp [Browser.records, hrecord]
          | none =>
            rw [entryAt, show w.items.lookup _ = none from hrecord] at hentry
            exact nomatch hentry
        rw [List.count_cons_self, records_eq_zero hgone]
        omega
      · rw [List.count_cons_of_ne hcall]
        omega

variable (webLocks) in
/-- **A nonce is accepted at most once**, and only for a fresh record of the current epoch; the
records of other nonces change only if they are not to be kept, or all are cleared. -/
theorem accepted_once (items : List (Key × Item)) (now : ℤ) (events : List (Event × List Bool))
    (hdrawn : (Runs.last (step webLocks) (.init items now) events).drawn.Nodup) :
    (∀ n, (Runs.last (OAuthRecovery.step webLocks) (.init items now) events).accepted.count n ≤ 1) ∧
      Runs.Along (OAuthRecovery.step webLocks) (fun w e =>
        Accepted w e.1 (OAuthRecovery.step webLocks w e) ∧
          Spares w e.1 (OAuthRecovery.step webLocks w e)) (.init items now) events := by
  have hany : Runs.Along (OAuthRecovery.step webLocks) (fun _ _ => True) (.init items now) events :=
    .of_forall fun _ _ => trivial
  have hsound : Sound (Runs.last (OAuthRecovery.step webLocks) (.init items now) events) :=
    (hany.of_invariant (Q := fun _ _ => True) (sound_init items now)
      (fun w e h _ => h.step e.1) fun _ _ _ _ => trivial).2
  have halong := hany.imp (Q := fun w e => Accepted w e.1 (OAuthRecovery.step webLocks w e) ∧
    Spares w e.1 (OAuthRecovery.step webLocks w e)) fun w e _ => ⟨accepted_step e.1, spares_step e.1⟩
  refine ⟨fun n => ?_, halong⟩
  have hcount := List.nodup_iff_count_le_one.1 hdrawn n
  exact (Nat.le_add_right _ _).trans ((hsound n).trans hcount)

end Step

/-! ### The ninth flow -/

def flow (k : ℕ) : Nonce := List.replicate 63 '0' ++ [Char.ofNat (48 + k)]

def starts (k : ℕ) : List (Event × List Bool) :=
  (List.range k).map fun i => (.mark 0 (flow i), [])

theorem accepted_once_flow : (Runs.last (step false) (.init [] 0) (starts 1 ++
      [(.start 0 0 (flow 0) 0, []), (.resume 0, [])])).accepted = [flow 0] ∧
    (∀ n, (Runs.last (step false) (.init [] 0) (starts 1 ++
      [(.start 0 0 (flow 0) 0, []), (.resume 0, [])])).accepted.count n ≤ 1) := by
  constructor
  · decide +kernel
  · exact (accepted_once false [] 0 _ (by decide +kernel)).1

/-- The eight flows that were started have fresh records; the ninth removes that of the first. -/
theorem evicted : (Runs.last (step false) (.init [] 0) (starts 9)).drawn.Nodup ∧
      (entryAt 0 (Runs.last (step false) (.init [] 0) (starts 8)).items (flow 0)).isSome ∧
      (Runs.last (step false) (.init [] 0) (starts 9)).record (flow 0) = none := by
  decide +kernel

end EdgeBase.OAuthRecovery
