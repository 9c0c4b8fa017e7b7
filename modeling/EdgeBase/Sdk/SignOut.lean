import EdgeBase.Sdk.Sound

/-!
# Signing out in all tabs

What is adopted after an epoch has been compared is of an operation that was started since the last
sign-out.  What a tab takes from the broadcast of another is not compared with anything: it may be of
before the sign-out, and come after it.

* `World.sound_step` : what such a step keeps.
* `World.signedOut_run` : in a run of such steps every sign-out is final.
-/

namespace EdgeBase

open List

namespace Sdk

/-- The tokens of a broadcast are not of before the last sign-out. -/
def Message.Timely (signOuts : ℕ) : Message → Prop
  | .tokenRefreshed accessToken refreshToken =>
    signOuts ≤ accessToken.born ∧ signOuts ≤ refreshToken.born
  | .sessionRefreshed | .signedOut => True

instance (signOuts : ℕ) : (m : Message) → Decidable (m.Timely signOuts)
  | .tokenRefreshed _ _ => inferInstanceAs (Decidable (_ ∧ _))
  | .sessionRefreshed | .signedOut => inferInstanceAs (Decidable True)

/-- What an operation has still to adopt leaves something in the storage. -/
def Phase.Announced {τ : Type} (config : Config) (s : Storage τ) : Phase → Prop
  | .synchronising _ result => result.Announced config s
  | _ => True

instance {τ : Type} (config : Config) (s : Storage τ) :
    (phase : Phase) → Decidable (phase.Announced config s)
  | .synchronising _ result => inferInstanceAs (Decidable (result.Announced config s))
  | .called | .queued _ | .mutating _ | .verifying _ _ | .following _ | .leading _ _
  | .refreshing _ _ => inferInstanceAs (Decidable True)

namespace World

variable {τ : Type} [DecidableEq τ] (config : Config) (w : World τ)

instance [Fintype τ] (b : τ) : Decidable (w.Warned config b) := inferInstanceAs (Decidable (_ ∨ _))

instance [Fintype τ] : Decidable w.Settled :=
  have (a : τ) : Decidable (∀ b, w.messages a b = [] ∧ w.events a b = []) := inferInstance
  inferInstanceAs (Decidable (_ ∧ _))

instance [Fintype τ] : Decidable w.SignedOut := inferInstanceAs (Decidable (_ → _))

/-- An operation was started since the last sign-out when it captures its epoch, and a sign-out that
finds another one pending finds no operation that has captured the epoch.  No broadcast of before the
last sign-out reaches a tab that knows of it.  Without a `BroadcastChannel`, every answer leaves
something in the storage by which the other tabs learn of a sign-out. -/
def InTime : TabAction τ → Prop
  | .start i _ | .complete i | .mutate i =>
    w.resumed = false → ∀ o ∈ w.operations[i]?, o.phase = .called → o.born = w.signOuts
  | .respond _ (.tokens accessToken _ _) _ =>
    config.hasBroadcastChannel = false → config.usesHttpOnlyCookie = true →
      accessToken.user.filter (· ≠ "") ≠ none
  | .synchronise i =>
    config.hasBroadcastChannel = false →
      ∀ o ∈ w.operations[i]?, o.phase.Announced config w.storage
  | .mutated _ (some result) =>
    config.hasBroadcastChannel = false → result.Announced config w.storage
  | .signOutPending _ =>
    w.hasPendingSignOut config = true →
      ∀ o ∈ w.operations, o.phase.epoch? ≠ some w.storage.authEpoch
  | .deliver a b _ =>
    w.resumed = false → config.usesHttpOnlyCookie = false →
      ∀ m ∈ (w.messages a b).head?, m.Timely w.signOuts ∨ w.Warned config b
  | _ => True

instance [Fintype τ] : (action : TabAction τ) → Decidable (w.InTime config action)
  | .start i _ | .complete i | .mutate i => inferInstanceAs (Decidable (w.resumed = false →
      ∀ o ∈ w.operations[i]?, o.phase = .called → o.born = w.signOuts))
  | .respond _ (.tokens accessToken _ _) _ => inferInstanceAs (Decidable
      (config.hasBroadcastChannel = false → config.usesHttpOnlyCookie = true →
        accessToken.user.filter (· ≠ "") ≠ none))
  | .synchronise i => inferInstanceAs (Decidable (config.hasBroadcastChannel = false →
      ∀ o ∈ w.operations[i]?, o.phase.Announced config w.storage))
  | .mutated _ (some result) => inferInstanceAs (Decidable
      (config.hasBroadcastChannel = false → result.Announced config w.storage))
  | .signOutPending _ => inferInstanceAs (Decidable (w.hasPendingSignOut config = true →
      ∀ o ∈ w.operations, o.phase.epoch? ≠ some w.storage.authEpoch))
  | .deliver a b _ => inferInstanceAs (Decidable (w.resumed = false →
      config.usesHttpOnlyCookie = false →
        ∀ m ∈ (w.messages a b).head?, m.Timely w.signOuts ∨ w.Warned config b))
  | .call .. | .verify _ | .request .. | .respond _ .unauthorized _ | .respond _ .forbidden _
  | .respond _ .unavailable _ | .respond _ .failed _ | .resume .. | .poll .. | .giveUp _
  | .mutated _ none | .clearTokens _ | .clearSession _ | .completePendingSignOut _
  | .invalidateAccessToken _ | .storageEvent .. | .removeRefreshResult _ =>
    inferInstanceAs (Decidable True)

variable {config} {w} {a b : τ} {i : ℕ} {o : Operation τ} {epoch : ℕ}

/-! ### What one operation keeps -/

theorem Sound.releaseRefreshLock (h : w.Sound config) (o : Operation τ) (fresh : Bool) :
    (w.releaseRefreshLock o fresh).Sound config := by
  refine h.write_of_eq o.tab fun s => ?_
  split <;> exact ⟨rfl, rfl, rfl, rfl⟩

theorem keeps_releaseRefreshLock (w : World τ) (o : Operation τ) (fresh : Bool) :
    w.Keeps (w.releaseRefreshLock o fresh) := by
  refine keeps_write o.tab w ?_
  split <;> rfl

theorem Sound.giveBack (h : w.Sound config) (i : ℕ) (o : Operation τ) (fresh : Bool) :
    ((w.releaseRefreshLock o fresh).finish i).Sound config :=
  (h.releaseRefreshLock o fresh).finish i

omit [DecidableEq τ] in
theorem Sound.follow (h : w.Sound config) (ho : ∀ phase : Phase, phase.epoch? = some epoch →
    OperationSound config w.storage.authEpoch w.signOuts w.resumed { o with phase }) :
    (w.follow config i o epoch).Sound config := by
  unfold World.follow
  split
  · exact h.finish i
  · exact h.setPhase (ho _ rfl)

variable (h : w.Sound config)
include h

theorem Sound.elect (fresh : Bool) (ho : ∀ phase : Phase, phase.epoch? = some epoch →
      OperationSound config w.storage.authEpoch w.signOuts w.resumed { o with phase }) :
    (w.elect config i o epoch fresh).Sound config := by
  unfold World.elect
  split
  · exact h.finish i
  · split
    · exact h.follow ho
    · exact (h.setPhase (ho _ rfl)).write_of_eq o.tab fun _ => ⟨rfl, rfl, rfl, rfl⟩

variable (ho : o ∈ w.operations)
include ho

theorem Sound.start (fresh : Bool)
    (hborn : w.resumed = false → o.born = w.signOuts) : (w.start config i o fresh).Sound config := by
  unfold World.start
  split
  · exact h
  · split
    · exact h.finish i
    · split
      · exact h.finish i
      · next hstored =>
        split
        · exact h.finish i
        · refine h.elect fresh fun phase hphase => (h.operations o ho).capture
            (h.currentAuthEpoch o.tab).le (fun hresumed => ⟨hborn hresumed, fun hbare => ?_⟩) hphase
          -- without a refresh token there is nothing to refresh
          refine Nat.eq_zero_of_not_pos fun hpos => hstored ?_
          rw [hbare.2, h.bare hbare hresumed hpos]
          rfl

theorem Sound.verify (hphase : o.phase.epoch? = some epoch) (refreshToken : Option Token) :
    (w.verify config i o epoch refreshToken).Sound config := by
  unfold World.verify
  split
  · exact h.setPhase_of_epoch ho hphase.symm
  · exact h.follow fun phase he => (h.operations o ho).setPhase (he.trans hphase.symm)

theorem Sound.request
    (hphase : o.phase.epoch? = some epoch) (tokenForRefresh : Option Token) (fresh : Bool) :
    (w.request config i o epoch tokenForRefresh fresh).Sound config := by
  unfold World.request
  split
  · exact h.setPhase_of_epoch ho hphase.symm
  · exact h.giveBack i o fresh

theorem Sound.adoptRefresh
    (hphase : o.phase.epoch? = some epoch) {accessToken : Issued} (refreshToken : Option Issued)
    (user : Option String) (fresh : Bool)
    (hid : config.hasBroadcastChannel = false → config.usesHttpOnlyCookie = true →
      accessToken.user.filter (· ≠ "") ≠ none) :
    (w.adoptRefresh config i o epoch accessToken refreshToken user fresh).Sound config := by
  unfold World.adoptRefresh
  split
  · exact h.giveBack i o fresh
  · next hadopt =>
    have hcurrent : w.isAuthEpochCurrent config o.tab epoch = true := by
      by_contra hnot
      rw [Bool.eq_false_of_not_eq_true hnot] at hadopt
      exact hadopt rfl
    have hallows : w.Allows config (accessToken.token o.born).born := h.allows ho hphase hcurrent
    have hset := h.setTokens (a := o.tab) (refreshToken.map (·.token o.born)) none hallows
      (fun t ht => by
        obtain ⟨issued, -, rfl⟩ := Option.map_eq_some_iff.1 ht
        rfl) hid
    have hkept := keeps_setTokens config o.tab w (accessToken.token o.born)
      (refreshToken.map (·.token o.born)) none
    have htold := hset.broadcastTokenRefreshed (a := o.tab) (refreshToken.map (·.token o.born))
      (hkept.allows hallows)
    have hkept := hkept.trans (keeps_broadcastTokenRefreshed config o.tab _
      (accessToken.token o.born) (refreshToken.map (·.token o.born)))
    dsimp only
    split
    · have hkept := hkept.trans (keeps_releaseRefreshLock _ o fresh)
      refine (htold.releaseRefreshLock o fresh).setPhase (hkept.operationSound ?_)
      exact (h.operations o ho).capture (h.operations o ho).started
        (h.born_of_current ho hphase hcurrent) rfl
    · exact htold.giveBack i o fresh

omit ho

theorem Sound.rejectRefresh (o : Operation τ) (tokenForRefresh : Option Token) :
    (w.rejectRefresh config o tokenForRefresh).Sound config := by
  unfold World.rejectRefresh
  split
  · exact h.forget (h.epochs o.tab) rfl
  · exact h.clearTokens o.tab

theorem Sound.respond (ho : o ∈ w.operations)
    (hphase : o.phase.epoch? = some epoch) (tokenForRefresh : Option Token) (answer : RefreshAnswer)
    (fresh : Bool) (hid : ∀ accessToken refreshToken user,
      answer = .tokens accessToken refreshToken user → config.hasBroadcastChannel = false →
        config.usesHttpOnlyCookie = true → accessToken.user.filter (· ≠ "") ≠ none) :
    (w.respond config i o epoch tokenForRefresh answer fresh).Sound config := by
  cases answer with
  | tokens accessToken refreshToken user =>
    rw [World.respond]
    split
    · exact h.giveBack i o fresh
    · exact h.adoptRefresh ho hphase refreshToken user fresh (hid _ _ _ rfl)
  | unauthorized => exact (h.rejectRefresh o tokenForRefresh).giveBack i o fresh
  | forbidden =>
    rw [World.respond]
    split
    · exact (h.rejectRefresh o tokenForRefresh).giveBack i o fresh
    · exact h.giveBack i o fresh
  | unavailable =>
    have hpromoted : (World.promoteCookieSessionMarkerUser config o.tab w).Sound config := by
      unfold World.promoteCookieSessionMarkerUser
      split
      · exact h.onTab_of_subset (h.epochs o.tab) fun _ ht => ht
      · exact h
    exact hpromoted.giveBack i o fresh
  | failed => exact h.giveBack i o fresh

theorem Sound.synchronise (ho : o ∈ w.operations)
    (hphase : o.phase.epoch? = some epoch) {result : AuthResult}
    (hannounced : config.hasBroadcastChannel = false → result.Announced config w.storage) :
    (w.synchronise config i o epoch result).Sound config := by
  unfold World.synchronise
  split
  · next hcurrent =>
    exact (h.syncAuthResult false (h.allows ho hphase hcurrent) hannounced).finish i
  · exact h.finish i

theorem Sound.poll (hbare : config.Bare) (fresh : Bool) :
    (w.poll config i o fresh).Sound config := by
  unfold World.poll
  split
  · split
    · exact (h.consumeFallbackRefreshResult hbare _).finish i
    · exact h
  · exact h
  · exact h.finish i

omit h

omit [DecidableEq τ] in
theorem Sound.mutate (h : w.Sound config)
    (ho : OperationSound config w.storage.authEpoch w.signOuts w.resumed
      { o with phase := .mutating epoch }) : (w.mutate config i o epoch).Sound config := by
  unfold World.mutate
  split
  · exact h.setPhase ho
  · exact h.finish i

theorem Sound.mutated (h : w.Sound config) (ho : o ∈ w.operations)
    (hphase : o.phase.epoch? = some epoch) {result : AuthResult}
    (hannounced : config.hasBroadcastChannel = false → result.Announced config w.storage) :
    (w.mutated config i o epoch result).Sound config := by
  unfold World.mutated
  split
  · next hcurrent =>
    exact (h.syncAuthResult _ (h.allows ho hphase hcurrent) hannounced).finish i
  · exact h.finish i

theorem Sound.complete (h : w.Sound config) (ho : o ∈ w.operations) (hkind : o.kind = .completion)
    (hborn : w.resumed = false → o.born = w.signOuts) :
    ((World.advanceAuthEpoch o.tab w).setPhase i o (.queued (w.currentAuthEpoch o.tab + 1))).Sound
      config := by
  have hadvanced := (h.advanceAuthEpoch o.tab).1
  refine hadvanced.setPhase ((hadvanced.operations o ho).capture le_rfl (fun hresumed => ?_) rfl)
  have hzero := (hresumed ▸ hadvanced.operations o ho).signOuts_eq_zero (hkind ▸ rfl)
    (hborn hresumed)
  exact ⟨hborn hresumed, fun _ => hzero⟩

/-! ### What a delivery keeps -/

theorem accessToken_handleCookieSessionMarkerChange (hcookie : config.usesHttpOnlyCookie = true)
    (a : τ) (w : World τ) (offline : Bool) :
    ((World.handleCookieSessionMarkerChange config a w offline none).tabs a).accessToken = none := by
  unfold World.handleCookieSessionMarkerChange
  rw [hcookie]
  split
  · next hfalse => cases hfalse
  · split
    · rw [tabs_onTab]
    · exact congrArg TokenManager.accessToken (tabs_onTab a w _)

theorem Sound.settleFollowers (h : w.Sound config) (a : τ) (m : Message) :
    (w.settleFollowers a m).Sound config := by
  cases m with
  | sessionRefreshed => exact h
  | tokenRefreshed accessToken refreshToken => exact h.ofSubset fun _ ho => mem_of_mem_filter ho
  | signedOut => exact h.ofSubset fun _ ho => mem_of_mem_filter ho

theorem messages_settleFollowers (w : World τ) (a : τ) (m : Message) :
    (w.settleFollowers a m).messages = w.messages := by
  cases m <;> rfl

theorem Sound.deliver (h : w.Sound config) (offline : Bool) {m : Message} {ms : List Message}
    (hhead : w.messages a b = m :: ms) (hchannel : config.hasBroadcastChannel = true)
    (hm : w.resumed = false → config.usesHttpOnlyCookie = false →
      m.Timely w.signOuts ∨ w.Warned config b) :
    (((World.onmessage config b w offline m).settleFollowers b m).popMessage a b).Sound config := by
  have htold := h.onmessage (b := b) offline (m := m) hchannel
    fun accessToken refreshToken hm' hbody hresumed => by
      have := hm hresumed hbody
      rw [hm'] at this
      exact this
  refine (htold.settleFollowers b m).popMessage ?_
  by_cases hsignedOut : m = .signedOut
  · obtain ⟨hcleared, -⟩ := cleared_clearTokensInternal config b
      (World.onTab b w fun t => { t with authEpoch := max t.authEpoch w.storage.authEpoch }) false
      (w.hasPendingSignOut config)
    rw [hsignedOut]
    exact .inr ⟨hcleared.accessToken, hcleared.refreshToken⟩
  · rw [messages_settleFollowers, messages_onmessage, hhead]
    exact .inl fun m' hm' => Option.some.inj hm' ▸ hsignedOut

theorem Sound.storageEvent (h : w.Sound config) (offline fresh : Bool) {e : StorageEvent}
    {es : List StorageEvent} (hhead : w.events a b = e :: es) :
    ((World.onstorage config b w offline fresh e).popEvent a b).Sound config := by
  have htold := h.onstorage (b := b) offline fresh (e := e) fun t he => by
    cases hchannel : config.hasBroadcastChannel with
    | false => rfl
    | true =>
      have hmem : e ∈ w.events a b := hhead ▸ mem_cons_self
      exact absurd he (h.parked hchannel a b e hmem t)
  refine htold.popEvent fun hchannel => ?_
  rw [events_onstorage, hhead]
  by_cases hnotice : e = config.notice
  · refine .inr ?_
    cases hcookie : config.usesHttpOnlyCookie with
    | true =>
      rw [hnotice, Config.notice, if_pos hcookie]
      exact accessToken_handleCookieSessionMarkerChange hcookie b w offline
    | false =>
      rw [hnotice, Config.notice_of_bare ⟨hchannel, hcookie⟩, World.onstorage, hcookie]
      exact congrArg TokenManager.accessToken
        (tabs_onTab b w ({ · with accessToken := none, cachedUser := none }))
  · exact .inl fun e' he' => Option.some.inj he' ▸ hnotice

/-! ### Steps and runs -/

omit [DecidableEq τ] in
theorem sound_opened (config : Config) (storage : Storage τ) (users : τ → Option String) :
    (opened config storage users).Sound config := by
  have hepoch : (opened config storage users).storage.authEpoch = storage.authEpoch := by
    unfold opened
    dsimp only
    split <;> rfl
  exact
    { epochs := fun _ => hepoch.ge
      tabs := fun _ _ _ => nofun
      refreshToken := fun _ _ _ => .inl (Nat.zero_le _)
      refreshResult := fun _ _ _ => Nat.zero_le _
      parked := fun _ _ _ _ => nofun
      anchored := fun _ _ hne => absurd rfl hne
      bare := fun _ _ hpos => absurd hpos (lt_irrefl 0)
      operations := fun _ => nofun }

theorem Sound.call (h : w.Sound config) (a : τ) (kind : OperationKind) :
    (w.step config (.call a kind)).Sound config := by
  have hresumed : (w.resumed || kind = .signIn || kind = .completion) = false →
      w.resumed = false ∧ kind.isSignIn = false := fun hfalse => by
    cases kind <;> simp_all [OperationKind.isSignIn]
  exact
    { h with
      tabs := fun hfalse => h.tabs (hresumed hfalse).1
      refreshToken := fun hfalse => h.refreshToken (hresumed hfalse).1
      refreshResult := fun hfalse => h.refreshResult (hresumed hfalse).1
      bare := fun hbare hfalse => h.bare hbare (hresumed hfalse).1
      operations := fun o ho => by
        rcases mem_append.1 ho with ho | ho
        · exact
            { h.operations o ho with
              signIn := fun hkind hfalse => (h.operations o ho).signIn hkind (hresumed hfalse).1
              current := fun hepoch hfalse =>
                (h.operations o ho).current hepoch (hresumed hfalse).1 }
        · rw [mem_singleton.1 ho]
          exact
            { started := (h.currentAuthEpoch a).le
              born := le_rfl
              signIn := fun hkind hfalse =>
                absurd ((hresumed hfalse).2.symm.trans hkind) Bool.false_ne_true
              captured := fun _ => nofun
              current := nofun } }

theorem sound_step {action : TabAction τ} (h : w.Sound config) (hin : InTime config w action) :
    (step config w action).Sound config := by
  cases action with
  | call a kind => exact h.call a kind
  | start i fresh =>
    rw [step]
    split
    · next o ho =>
      split
      · next hphase =>
        exact h.start (mem_of_getElem? ho) fresh fun hresumed => hin hresumed o ho hphase
      · exact h
    · exact h
  | verify i =>
    rw [step]
    split
    · next o ho =>
      split
      · next epoch refreshToken hphase =>
        exact h.verify (mem_of_getElem? ho) (congrArg Phase.epoch? hphase) refreshToken
      · exact h
    · exact h
  | request i fresh =>
    rw [step]
    split
    · next o ho =>
      split
      · next epoch tokenForRefresh hphase =>
        exact h.request (mem_of_getElem? ho) (congrArg Phase.epoch? hphase) tokenForRefresh
          fresh
      · exact h
    · exact h
  | respond i answer fresh =>
    rw [step]
    split
    · next o ho =>
      split
      · next epoch tokenForRefresh hphase =>
        refine h.respond (mem_of_getElem? ho) (congrArg Phase.epoch? hphase) tokenForRefresh
          answer fresh ?_
        rintro accessToken refreshToken user rfl
        exact hin
      · exact h
    · exact h
  | synchronise i =>
    rw [step]
    split
    · next o ho =>
      split
      · next epoch result hphase =>
        refine h.synchronise (mem_of_getElem? ho) (congrArg Phase.epoch? hphase)
          fun hchannel => ?_
        have hannounced := hin hchannel o ho
        rw [hphase] at hannounced
        exact hannounced
      · exact h
    · exact h
  | resume i fresh =>
    rw [step]
    split
    · next o ho =>
      split
      · next epoch hphase =>
        split
        · exact h.elect fresh fun phase he => (h.operations o (mem_of_getElem? ho)).setPhase
            (he.trans (congrArg Phase.epoch? hphase).symm)
        · exact h
      · exact h
    · exact h
  | poll i fresh =>
    rw [step]
    split
    · next o ho =>
      split
      · split
        · exact h
        · next hbare =>
          obtain ⟨hbody, hchannel⟩ :=
            Bool.or_eq_false_iff.1 (Bool.eq_false_of_not_eq_true hbare)
          exact h.poll ⟨hchannel, hbody⟩ fresh
      · exact h
    · exact h
  | giveUp i =>
    rw [step]
    split
    · split
      · exact (h.finish i).write_of_eq _ fun _ => ⟨rfl, rfl, rfl, rfl⟩
      · exact h
    · exact h
  | complete i =>
    rw [step]
    split
    · next o ho =>
      split
      · next hcalled =>
        exact h.complete (mem_of_getElem? ho) hcalled.2 fun hresumed =>
          hin hresumed o ho hcalled.1
      · exact h
    · exact h
  | mutate i =>
    rw [step]
    split
    · next o ho =>
      have hop := h.operations o (mem_of_getElem? ho)
      split
      · next hphase =>
        split
        · next hkind =>
          refine h.mutate (hop.capture (h.currentAuthEpoch o.tab).le (fun hresumed => ?_) rfl)
          have hborn := hin hresumed o ho hphase
          exact ⟨hborn, fun _ => (hresumed ▸ hop).signOuts_eq_zero (hkind ▸ rfl) hborn⟩
        · exact h
      · next epoch hphase =>
        exact h.mutate (hop.setPhase (congrArg Phase.epoch? hphase).symm)
      · exact h
    · exact h
  | mutated i result =>
    rw [step]
    split
    · next o ho =>
      split
      · next epoch result hphase =>
        exact h.mutated (mem_of_getElem? ho) (congrArg Phase.epoch? hphase) hin
      · exact h.finish i
      · exact h
    · exact h
  | clearTokens a => exact h.clearTokens a
  | signOutPending a =>
    rw [step]
    split
    · exact h.signOutPending a fun hpending o ho => hin hpending o ho
    · exact h
  | clearSession a =>
    rw [step]
    split
    · exact h.clearTokensInternal a false true
    · exact h
  | completePendingSignOut a =>
    rw [step]
    split
    · next hcookie =>
      have hremoved := h.removeRefreshToken (a := a)
        fun hbare => absurd (hbare.2.symm.trans hcookie) Bool.false_ne_true
      exact hremoved.write_of_eq a fun _ => ⟨rfl, rfl, rfl, rfl⟩
    · exact h
  | invalidateAccessToken a =>
    rw [step]
    exact h.forget (h.epochs a) rfl
  | deliver a b offline =>
    rw [step]
    split
    · next m ms hhead =>
      split
      · next hchannel =>
        exact h.deliver offline hhead hchannel fun hresumed hbody =>
          hin hresumed hbody m (by rw [hhead]; rfl)
      · exact h
    · exact h
  | storageEvent a b offline fresh =>
    rw [step]
    split
    · next e es hhead => exact h.storageEvent offline fresh hhead
    · exact h
  | removeRefreshResult a => exact h.removeRefreshResult a

omit [DecidableEq τ] in
theorem Sound.signedOut (h : w.Sound config) : w.SignedOut := by
  intro hsettled hresumed
  have hwarned : ∀ a, ¬w.Warned config a := by
    rintro a (⟨-, b, m, hm, -⟩ | ⟨-, b, e, he, -⟩)
    · rw [(hsettled.2 b a).1] at hm
      cases hm
    · rw [(hsettled.2 b a).2] at he
      cases he
  refine ⟨fun a t ht => ?_, fun t ht => ?_, h.refreshResult hresumed⟩
  · exact (h.tabs hresumed a t ht).resolve_right (hwarned a)
  · exact (h.refreshToken hresumed t ht).resolve_right fun ⟨_, a, ha⟩ => hwarned a ha

/-- In a run whose steps are in time, every sign-out is final in all tabs. -/
theorem signedOut_run (storage : Storage τ) (users : τ → Option String)
    (actions : List (TabAction τ))
    (h : Runs.Along (step config) (InTime config) (opened config storage users) actions) :
    (Runs.last (step config) (opened config storage users) actions).SignedOut :=
  (h.of_invariant (sound_opened config storage users) (fun _ _ => sound_step)
    fun _ _ _ hin => hin).2.signedOut

/-! ### Two tabs with a broadcast on the way -/

def session : Storage Bool :=
  { refreshToken := some ((Issued.mk "r0" (some "u")).token 0) }

def refreshes : List (TabAction Bool) :=
  [.call true .refresh, .start 0 false, .verify 0, .request 0 false,
    .respond 0 (.tokens ⟨"a1", some "u"⟩ (some ⟨"r1", some "u"⟩) (some "u")) false]

def settles : List (TabAction Bool) :=
  [.storageEvent true false false false, .storageEvent false true false false,
    .storageEvent false true false false, .storageEvent false true false false]

/-- The other tab learns of the tokens, and signs out. -/
theorem signedOut_refreshedBefore :
    (Runs.last (step ⟨false, true⟩) (opened ⟨false, true⟩ session fun _ => none)
      (refreshes ++ [.deliver true false false, .clearTokens false, .deliver false true false] ++
        settles)).Settled ∧
    (Runs.last (step ⟨false, true⟩) (opened ⟨false, true⟩ session fun _ => none)
      (refreshes ++ [.deliver true false false, .clearTokens false, .deliver false true false] ++
        settles)).SignedOut :=
  ⟨by decide +kernel, signedOut_run session (fun _ => none) _ (by decide +kernel)⟩

/-- The other tab signs out, and the tokens reach it afterwards. -/
theorem refreshedLate_not_signedOut :
    ¬(Runs.last (step ⟨false, true⟩) (opened ⟨false, true⟩ session fun _ => none)
      (refreshes ++ [.clearTokens false, .deliver false true false, .deliver true false false] ++
        settles)).SignedOut := by
  decide +kernel

end World

end Sdk

end EdgeBase
