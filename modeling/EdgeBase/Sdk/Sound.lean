import EdgeBase.Sdk.Tabs

/-!
# What holds of all tabs

A sign-out advances the epoch of the namespace, clears its tab and the storage, and tells the other
tabs.  A tab that still holds an older token has yet to be told; and what an operation has captured
since the last sign-out is all that is current.

* `World.Sound.setTokens`, `World.Sound.signOut`, ... : what each function keeps.
-/

namespace EdgeBase

open Option Channels

namespace Sdk

/-- Tabs that learn of each other by storage events only, and keep their refresh token there. -/
def Config.Bare (config : Config) : Prop :=
  config.hasBroadcastChannel = false ∧ config.usesHttpOnlyCookie = false

def OperationKind.isSignIn : OperationKind → Bool
  | .signIn | .completion => true
  | .refresh | .refreshSession => false

/-- The storage event by which tabs without a `BroadcastChannel` learn of a sign-out. -/
def Config.notice (config : Config) : StorageEvent :=
  if config.usesHttpOnlyCookie then .cookieSession none else .refreshToken none

/-- There is something in the storage whose removal is the notice. -/
def Storage.Anchored {τ : Type} (config : Config) (s : Storage τ) : Prop :=
  if config.usesHttpOnlyCookie then s.cookieSession ≠ none else s.refreshToken ≠ none

theorem Config.notice_of_bare {config : Config} (h : config.Bare) :
    config.notice = .refreshToken none :=
  if_neg (Bool.eq_false_iff.1 h.2)

theorem Storage.anchored_of_cookie {τ : Type} {config : Config} {s : Storage τ}
    (h : config.usesHttpOnlyCookie = true) : s.Anchored config ↔ s.cookieSession ≠ none := by
  unfold Storage.Anchored
  rw [if_pos h]

theorem Storage.anchored_of_body {τ : Type} {config : Config} {s : Storage τ}
    (h : config.usesHttpOnlyCookie = false) : s.Anchored config ↔ s.refreshToken ≠ none := by
  unfold Storage.Anchored
  rw [h]
  exact Iff.rfl

namespace World

variable {τ : Type} (config : Config) (w : World τ)

/-! ### What a sign-out leaves to others -/

/-- A tab has still to learn of a sign-out. -/
def Warned (b : τ) : Prop :=
  (config.hasBroadcastChannel = true ∧ w.messages.Pending b (· = .signedOut)) ∨
    (config.hasBroadcastChannel = false ∧ w.events.Pending b (· = config.notice))

structure OperationSound (authEpoch signOuts : ℕ) (resumed : Bool) (o : Operation τ) : Prop where
  started : o.startEpoch ≤ authEpoch
  born : o.born ≤ signOuts
  signIn : o.kind.isSignIn = true → resumed = false → 0 < signOuts → o.born < signOuts
  captured : ∀ epoch ∈ o.phase.epoch?, epoch ≤ authEpoch
  /-- An epoch that is still current was captured since the last sign-out. -/
  current : authEpoch ∈ o.phase.epoch? → resumed = false →
    o.born = signOuts ∧ (config.Bare → signOuts = 0)

structure Sound : Prop where
  epochs : ∀ a, (w.tabs a).authEpoch ≤ w.storage.authEpoch
  tabs : w.resumed = false → ∀ a, ∀ t ∈ (w.tabs a).accessToken,
    w.signOuts ≤ t.born ∨ w.Warned config a
  refreshToken : w.resumed = false → ∀ t ∈ w.storage.refreshToken,
    w.signOuts ≤ t.born ∨ config.hasBroadcastChannel = true ∧ ∃ a, w.Warned config a
  refreshResult : w.resumed = false → ∀ t ∈ w.storage.refreshResult, w.signOuts ≤ t.born
  parked : config.hasBroadcastChannel = true → ∀ a b, ∀ e ∈ w.events a b, ∀ t,
    e ≠ .refreshResult (some t)
  anchored : config.hasBroadcastChannel = false → ∀ a, (w.tabs a).accessToken ≠ none →
    w.storage.Anchored config ∨ w.Warned config a
  bare : config.Bare → w.resumed = false → 0 < w.signOuts → w.storage.refreshToken = none
  operations : ∀ o ∈ w.operations,
    OperationSound config w.storage.authEpoch w.signOuts w.resumed o

variable {config} {w} {a b : τ} {i : ℕ} {o : Operation τ} {epoch : ℕ}

variable {authEpoch signOuts : ℕ}

theorem OperationSound.setPhase {resumed : Bool}
    (h : OperationSound config authEpoch signOuts resumed o) {phase : Phase}
    (hphase : phase.epoch? = o.phase.epoch?) :
    OperationSound config authEpoch signOuts resumed { o with phase } :=
  { h with
    captured := fun epoch he => h.captured epoch (hphase ▸ he)
    current := fun he => h.current (hphase ▸ he) }

theorem OperationSound.capture {resumed : Bool}
    (h : OperationSound config authEpoch signOuts resumed o) (hepoch : epoch ≤ authEpoch)
    (hborn : resumed = false → o.born = signOuts ∧ (config.Bare → signOuts = 0)) {phase : Phase}
    (hphase : phase.epoch? = some epoch) :
    OperationSound config authEpoch signOuts resumed { o with phase } :=
  { h with
    captured := fun _ he => some.inj (hphase.symm.trans he) ▸ hepoch
    current := fun _ => hborn }

theorem OperationSound.signOuts_eq_zero
    (h : OperationSound config authEpoch signOuts false o) (hkind : o.kind.isSignIn = true)
    (hborn : o.born = signOuts) : signOuts = 0 :=
  Nat.eq_zero_of_not_pos fun hpos => (h.signIn hkind rfl hpos).ne hborn

variable (h : w.Sound config)
include h

theorem Sound.ofSubset {operations : List (Operation τ)}
    (hsub : ∀ o ∈ operations, o ∈ w.operations) : Sound config { w with operations } :=
  { h with operations := fun o ho => h.operations o (hsub o ho) }

theorem Sound.finish (i : ℕ) : (w.finish i).Sound config :=
  h.ofSubset fun _ ho => List.mem_of_mem_eraseIdx ho

theorem Sound.setPhase {phase : Phase}
    (ho : OperationSound config w.storage.authEpoch w.signOuts w.resumed { o with phase }) :
    (w.setPhase i o phase).Sound config :=
  { h with
    operations := fun o' ho' => by
      rcases List.mem_or_eq_of_mem_set ho' with ho' | rfl
      · exact h.operations o' ho'
      · exact ho }

theorem Sound.setPhase_of_epoch (ho : o ∈ w.operations) {phase : Phase}
    (hepoch : phase.epoch? = o.phase.epoch?) : (w.setPhase i o phase).Sound config :=
  h.setPhase ((h.operations o ho).setPhase hepoch)

/-! ### What an operation may leave -/

/-- What an operation that was started after so many sign-outs may leave. -/
def Allows (config : Config) (w : World τ) (born : ℕ) : Prop :=
  w.resumed = false → w.signOuts ≤ born ∧ (config.Bare → w.signOuts = 0)

theorem Sound.currentAuthEpoch (a : τ) :
    w.currentAuthEpoch a = w.storage.authEpoch := max_eq_right (h.epochs a)

theorem Sound.eq_of_current
    (hcurrent : w.isAuthEpochCurrent config a epoch = true) : epoch = w.storage.authEpoch := by
  have := of_decide_eq_true (Bool.and_eq_true_iff.1 hcurrent).2
  rw [← this, h.currentAuthEpoch]

theorem Sound.born_of_current (ho : o ∈ w.operations) (hepoch : o.phase.epoch? = some epoch)
    (hcurrent : w.isAuthEpochCurrent config a epoch = true) (hresumed : w.resumed = false) :
    o.born = w.signOuts ∧ (config.Bare → w.signOuts = 0) :=
  (h.operations o ho).current (hepoch.trans (congrArg some (h.eq_of_current hcurrent))) hresumed

theorem Sound.allows (ho : o ∈ w.operations) (hepoch : o.phase.epoch? = some epoch)
    (hcurrent : w.isAuthEpochCurrent config a epoch = true) : w.Allows config o.born :=
  fun hresumed => (h.born_of_current ho hepoch hcurrent hresumed).imp_left Eq.ge

omit h

/-- The operations, and what tells which of them are current, are as before. -/
structure Keeps (w w' : World τ) : Prop where
  operations : w'.operations = w.operations
  signOuts : w'.signOuts = w.signOuts
  resumed : w'.resumed = w.resumed
  authEpoch : w'.storage.authEpoch = w.storage.authEpoch

theorem Keeps.trans {w₁ w₂ w₃ : World τ} (h : w₁.Keeps w₂) (h' : w₂.Keeps w₃) : w₁.Keeps w₃ where
  operations := h'.operations.trans h.operations
  signOuts := h'.signOuts.trans h.signOuts
  resumed := h'.resumed.trans h.resumed
  authEpoch := h'.authEpoch.trans h.authEpoch

theorem Keeps.allows {w' : World τ} (h : w.Keeps w') {born : ℕ} (hallows : w.Allows config born) :
    w'.Allows config born := by
  unfold Allows at hallows ⊢
  rw [h.signOuts, h.resumed]
  exact hallows

theorem Keeps.operationSound {w' : World τ} (h : w.Keeps w')
    (ho : OperationSound config w.storage.authEpoch w.signOuts w.resumed o) :
    OperationSound config w'.storage.authEpoch w'.signOuts w'.resumed o := by
  rw [h.authEpoch, h.signOuts, h.resumed]
  exact ho

variable [DecidableEq τ]

/-! ### Memory, storage and broadcasts -/

theorem Warned.write (h : w.Warned config b) (a : τ) (f : Storage τ → Storage τ)
    (e : Option StorageEvent) : (write a w f e).Warned config b :=
  h.imp_right fun h => ⟨h.1, by
    cases e with
    | none => exact h.2
    | some e => exact h.2.post a e⟩

theorem warned_write (hchannel : config.hasBroadcastChannel = false) (hb : b ≠ a)
    (f : Storage τ → Storage τ) : (write a w f (some config.notice)).Warned config b :=
  .inr ⟨hchannel, pending_post hb rfl⟩

theorem Warned.postMessage (h : w.Warned config b) (a : τ) (m : Message) :
    (postMessage a w m).Warned config b :=
  h.imp_left fun h => ⟨h.1, h.2.post a m⟩

theorem Sound.postMessage (h : w.Sound config) (a : τ) (m : Message) :
    (postMessage a w m).Sound config :=
  { h with
    tabs := fun hresumed b t ht => (h.tabs hresumed b t ht).imp_right (·.postMessage a m)
    refreshToken := fun hresumed t ht => (h.refreshToken hresumed t ht).imp_right fun hwarned =>
      ⟨hwarned.1, hwarned.2.imp fun _ hb => hb.postMessage a m⟩
    anchored := fun hchannel b hb => (h.anchored hchannel b hb).imp_right (·.postMessage a m) }

theorem Sound.write (h : w.Sound config) {f : Storage τ → Storage τ} {e : Option StorageEvent}
    (hepoch : (f w.storage).authEpoch = w.storage.authEpoch)
    (hrefresh : w.resumed = false → ∀ t ∈ (f w.storage).refreshToken,
      w.signOuts ≤ t.born ∨ config.hasBroadcastChannel = true ∧ ∃ b, w.Warned config b)
    (hresult : w.resumed = false → ∀ t ∈ (f w.storage).refreshResult, w.signOuts ≤ t.born)
    (hparked : config.hasBroadcastChannel = true → ∀ t, e ≠ some (.refreshResult (some t)))
    (hanchored : config.hasBroadcastChannel = false → w.storage.Anchored config →
      (f w.storage).Anchored config ∨ e = some config.notice ∧ (w.tabs a).accessToken = none)
    (hbare : config.Bare → w.resumed = false → 0 < w.signOuts → (f w.storage).refreshToken = none) :
    (World.write a w f e).Sound config where
  epochs b := (h.epochs b).trans hepoch.ge
  tabs hresumed b t ht := (h.tabs hresumed b t ht).imp_right (·.write a f e)
  refreshToken hresumed t ht := (hrefresh hresumed t ht).imp_right fun hwarned =>
    ⟨hwarned.1, hwarned.2.imp fun _ hb => hb.write a f e⟩
  refreshResult := hresult
  parked hchannel x y e' he' t := by
    cases e with
    | none => exact h.parked hchannel x y e' he' t
    | some e =>
      rcases mem_post.1 he' with he' | ⟨-, rfl⟩
      · exact h.parked hchannel x y e' he' t
      · exact fun heq => hparked hchannel t (congrArg some heq)
  anchored hchannel b hb := by
    rcases h.anchored hchannel b hb with hold | hwarned
    · rcases hanchored hchannel hold with hnew | ⟨rfl, ha⟩
      · exact .inl hnew
      · -- the tab itself holds nothing, and the others learn by the notice
        refine .inr (warned_write hchannel ?_ f)
        rintro rfl
        exact hb ha
    · exact .inr (hwarned.write a f e)
  bare := hbare
  operations o ho := by
    have hold := h.operations o ho
    rw [← hepoch] at hold
    exact hold

theorem tabs_onTab (a : τ) (w : World τ) (f : TokenManager → TokenManager) :
    (onTab a w f).tabs a = f (w.tabs a) := Function.update_self ..

theorem tabs_onTab_of_ne (h : b ≠ a) (w : World τ) (f : TokenManager → TokenManager) :
    (onTab a w f).tabs b = w.tabs b := Function.update_of_ne h ..

variable (h : w.Sound config)
include h

variable {f : TokenManager → TokenManager}

theorem Sound.onTab (hepoch : (f (w.tabs a)).authEpoch ≤ w.storage.authEpoch)
    (htoken : w.resumed = false → ∀ t ∈ (f (w.tabs a)).accessToken,
      w.signOuts ≤ t.born ∨ w.Warned config a)
    (hanchored : config.hasBroadcastChannel = false → (f (w.tabs a)).accessToken ≠ none →
      w.storage.Anchored config ∨ w.Warned config a) : (World.onTab a w f).Sound config :=
  { h with
    epochs := fun b => by
      by_cases hb : b = a
      · rw [hb, tabs_onTab]
        exact hepoch
      · rw [tabs_onTab_of_ne hb]
        exact h.epochs b
    tabs := fun hresumed b t ht => by
      by_cases hb : b = a
      · rw [hb, tabs_onTab] at ht
        exact hb ▸ htoken hresumed t ht
      · rw [tabs_onTab_of_ne hb] at ht
        exact h.tabs hresumed b t ht
    anchored := fun hchannel b hne => by
      by_cases hb : b = a
      · rw [hb, tabs_onTab] at hne
        exact hb ▸ hanchored hchannel hne
      · rw [tabs_onTab_of_ne hb] at hne
        exact h.anchored hchannel b hne }

theorem Sound.onTab_of_subset (hepoch : (f (w.tabs a)).authEpoch ≤ w.storage.authEpoch)
    (htoken : ∀ t ∈ (f (w.tabs a)).accessToken, t ∈ (w.tabs a).accessToken) :
    (World.onTab a w f).Sound config := by
  refine h.onTab hepoch (fun hresumed t ht => h.tabs hresumed a t (htoken t ht))
    fun hchannel hne => h.anchored hchannel a ?_
  obtain ⟨t, ht⟩ := ne_none_iff_exists'.1 hne
  have hold := htoken t ht
  rw [mem_def] at hold
  rw [hold]
  exact some_ne_none t

theorem Sound.forget (hepoch : (f (w.tabs a)).authEpoch ≤ w.storage.authEpoch)
    (hf : (f (w.tabs a)).accessToken = none) : (World.onTab a w f).Sound config :=
  h.onTab_of_subset hepoch fun _ ht => absurd (hf.symm.trans ht) nofun

/-! ### What is written -/

theorem Sound.setRefreshToken {t : Token} (ht : w.resumed = false → w.signOuts ≤ t.born ∨
      config.hasBroadcastChannel = true ∧ ∃ b, w.Warned config b)
    (hbare : config.Bare → w.resumed = false → w.signOuts = 0) :
    (World.setRefreshToken a w t).Sound config := by
  refine h.write rfl (fun hresumed t' ht' => some.inj ht' ▸ ht hresumed) h.refreshResult
    (fun _ _ => nofun) (fun _ hold => .inl ?_)
    fun hb hresumed hpos => absurd (hbare hb hresumed) hpos.ne'
  cases hcookie : config.usesHttpOnlyCookie with
  | true =>
    have hmarker : w.storage.cookieSession ≠ none := (Storage.anchored_of_cookie hcookie).1 hold
    exact (Storage.anchored_of_cookie hcookie).2 hmarker
  | false => exact (Storage.anchored_of_body hcookie).2 (some_ne_none t)

theorem Sound.removeRefreshToken (ha : config.Bare → (w.tabs a).accessToken = none) :
    (World.removeRefreshToken a w).Sound config := by
  refine h.write rfl (fun _ => nofun) h.refreshResult (fun _ t heq => ?_) (fun hchannel hold => ?_)
    fun _ _ _ => rfl
  · split at heq <;> cases heq
  · cases hcookie : config.usesHttpOnlyCookie with
    | true =>
      have hmarker : w.storage.cookieSession ≠ none := (Storage.anchored_of_cookie hcookie).1 hold
      exact .inl ((Storage.anchored_of_cookie hcookie).2 hmarker)
    | false =>
      have hbare : config.Bare := ⟨hchannel, hcookie⟩
      refine .inr ⟨?_, ha hbare⟩
      rw [if_neg ((Storage.anchored_of_body hcookie).1 hold), Config.notice_of_bare hbare]

theorem Sound.setRefreshResult {t : Token} (hchannel : config.hasBroadcastChannel = false)
    (ht : w.resumed = false → w.signOuts ≤ t.born) : (World.setRefreshResult a w t).Sound config :=
  h.write rfl h.refreshToken (fun hresumed _ ht' => some.inj ht' ▸ ht hresumed)
    (fun htrue => absurd (hchannel.symm.trans htrue) Bool.false_ne_true) (fun _ hold => .inl hold)
    h.bare

theorem Sound.removeRefreshResult (a : τ) : (World.removeRefreshResult a w).Sound config := by
  refine h.write rfl h.refreshToken (fun _ => nofun) (fun _ t heq => ?_) (fun _ hold => .inl hold)
    h.bare
  split at heq <;> cases heq

theorem Sound.putCookieSession (marker : Option String)
    (ha : config.hasBroadcastChannel = false → config.usesHttpOnlyCookie = true → marker = none →
      (w.tabs a).accessToken = none) : (World.putCookieSession a w marker).Sound config := by
  refine h.write rfl h.refreshToken h.refreshResult (fun _ t heq => ?_) (fun hchannel hold => ?_)
    h.bare
  · split at heq <;> cases heq
  · cases hcookie : config.usesHttpOnlyCookie with
    | false =>
      have hrefresh : w.storage.refreshToken ≠ none := (Storage.anchored_of_body hcookie).1 hold
      exact .inl ((Storage.anchored_of_body hcookie).2 hrefresh)
    | true =>
      by_cases hmarker : marker = none
      · refine .inr ⟨?_, ha hchannel hcookie hmarker⟩
        rw [hmarker, if_neg ((Storage.anchored_of_cookie hcookie).1 hold), Config.notice,
          if_pos hcookie]
      · exact .inl ((Storage.anchored_of_cookie hcookie).2 hmarker)

theorem Sound.write_of_eq (a : τ) {f : Storage τ → Storage τ}
    (hf : ∀ s, (f s).authEpoch = s.authEpoch ∧ (f s).refreshToken = s.refreshToken ∧
      (f s).refreshResult = s.refreshResult ∧ (f s).cookieSession = s.cookieSession) :
    (World.write a w f none).Sound config := by
  obtain ⟨hepoch, hrefresh, hresult, hmarker⟩ := hf w.storage
  refine h.write hepoch (fun hresumed => hrefresh ▸ h.refreshToken hresumed)
    (fun hresumed => hresult ▸ h.refreshResult hresumed) (fun _ _ => nofun)
    (fun _ hold => .inl ?_) fun hb hresumed hpos => hrefresh.trans (h.bare hb hresumed hpos)
  unfold Storage.Anchored at hold ⊢
  rw [hrefresh, hmarker]
  exact hold

theorem Sound.advanceAuthEpoch (a : τ) : (World.advanceAuthEpoch a w).Sound config ∧
      ∀ o ∈ w.operations, (World.advanceAuthEpoch a w).storage.authEpoch ∉ o.phase.epoch? := by
  have hlt : w.storage.authEpoch < w.currentAuthEpoch a + 1 :=
    Nat.lt_succ_of_le (le_max_right _ _)
  have hpast : ∀ o ∈ w.operations, w.currentAuthEpoch a + 1 ∉ o.phase.epoch? := fun o ho hepoch =>
    absurd ((h.operations o ho).captured _ hepoch) (not_le.2 hlt)
  have hnext : Sound config { w with storage.authEpoch := w.currentAuthEpoch a + 1 } :=
    { h with
      epochs := fun b => (h.epochs b).trans hlt.le
      operations := fun o ho =>
        { h.operations o ho with
          started := (h.operations o ho).started.trans hlt.le
          captured := fun epoch hepoch => ((h.operations o ho).captured epoch hepoch).trans hlt.le
          current := fun hepoch => absurd hepoch (hpast o ho) } }
  have hwritten := hnext.write (a := a) (f := id) (e := some .authEpoch) rfl hnext.refreshToken
    hnext.refreshResult (fun _ _ => nofun) (fun _ hold => .inl hold) hnext.bare
  have htab := hwritten.onTab_of_subset (a := a)
    (f := ({ · with authEpoch := w.currentAuthEpoch a + 1 })) le_rfl fun t ht => ht
  exact ⟨htab, hpast⟩

/-! ### Tokens are adopted -/

theorem Sound.adopt {f : TokenManager → TokenManager} {t : Token}
    (hepoch : (f (w.tabs a)).authEpoch = (w.tabs a).authEpoch)
    (hf : (f (w.tabs a)).accessToken = some t)
    (ht : w.resumed = false → w.signOuts ≤ t.born ∨ w.Warned config a)
    (hanchored : config.hasBroadcastChannel = false → w.storage.Anchored config) :
    (World.onTab a w f).Sound config := by
  refine h.onTab (hepoch ▸ h.epochs a) (fun hresumed t' ht' => ?_)
    fun hchannel _ => .inl (hanchored hchannel)
  rw [hf] at ht'
  exact some.inj ht' ▸ ht hresumed

theorem Sound.persistCookieSessionMarkerFor (user : Option String)
    (ha : config.hasBroadcastChannel = false → config.usesHttpOnlyCookie = true →
      user.filter (· ≠ "") = none → (w.tabs a).accessToken = none) :
    (World.persistCookieSessionMarkerFor config a w user).Sound config := by
  unfold World.persistCookieSessionMarkerFor
  split
  · exact h.putCookieSession _ ha
  · exact h

omit h

theorem keeps_write (a : τ) (w : World τ) {f : Storage τ → Storage τ} {e : Option StorageEvent}
    (hf : (f w.storage).authEpoch = w.storage.authEpoch) : w.Keeps (write a w f e) :=
  ⟨rfl, rfl, rfl, hf⟩

theorem keeps_persistCookieSessionMarkerFor (config : Config) (a : τ) (w : World τ)
    (user : Option String) : w.Keeps (World.persistCookieSessionMarkerFor config a w user) := by
  unfold World.persistCookieSessionMarkerFor
  split
  · exact keeps_write a w rfl
  · exact ⟨rfl, rfl, rfl, rfl⟩

theorem cookieSession_persist (hcookie : config.usesHttpOnlyCookie = true) (a : τ) (w : World τ)
    (user : Option String) :
    (World.persistCookieSessionMarkerFor config a w user).storage.cookieSession =
      user.filter (· ≠ "") := by
  unfold World.persistCookieSessionMarkerFor
  rw [if_pos hcookie]
  rfl

/-- What `setTokens` is given leaves something by which the others learn of a sign-out. -/
theorem Sound.setTokens (h : w.Sound config) {accessToken : Token} (refreshToken : Option Token)
    (userOverride : Option String) (hallows : w.Allows config accessToken.born)
    (hborn : ∀ t ∈ refreshToken, t.born = accessToken.born)
    (hid : config.hasBroadcastChannel = false → config.usesHttpOnlyCookie = true →
      (userOverride.or accessToken.user).filter (· ≠ "") ≠ none) :
    (World.setTokens config a w accessToken refreshToken userOverride).Sound config := by
  unfold World.setTokens
  split
  · next hcookie =>
    have hnotBare : ¬config.Bare := fun hbare => absurd (hbare.2.symm.trans hcookie) Bool.false_ne_true
    have hremoved := h.removeRefreshToken (a := a) fun hbare => absurd hbare hnotBare
    dsimp only
    split
    · refine (hremoved.forget (h.epochs a) rfl).putCookieSession none fun _ _ _ => ?_
      rw [tabs_onTab]
    · have hpersisted := hremoved.persistCookieSessionMarkerFor (a := a)
        (userOverride.or accessToken.user) fun hchannel hcookie hnone => absurd hnone (hid hchannel hcookie)
      have hforgotten := hpersisted.onTab_of_subset (a := a)
        (f := ({ · with expectedCookieUserId := none })) (hpersisted.epochs a) fun _ ht => ht
      have hkeeps : w.Keeps (World.removeRefreshToken a w) := keeps_write a w rfl
      have hkeeps := hkeeps.trans
        (keeps_persistCookieSessionMarkerFor config a _ (userOverride.or accessToken.user))
      refine hforgotten.adopt rfl rfl (fun hresumed => .inl ?_) fun hchannel => ?_
      · exact (hkeeps.allows hallows hresumed).1
      · have hmarker := cookieSession_persist hcookie a (World.removeRefreshToken a w)
          (userOverride.or accessToken.user)
        exact (Storage.anchored_of_cookie hcookie).2 fun hnone =>
          hid hchannel hcookie (hmarker.symm.trans hnone)
  · next hbody =>
    cases refreshToken with
    | none => exact h
    | some refreshToken =>
      have hstored := h.setRefreshToken (a := a) (t := refreshToken)
        (fun hresumed => .inl (hborn refreshToken rfl ▸ (hallows hresumed).1))
        fun hbare hresumed => (hallows hresumed).2 hbare
      refine hstored.adopt rfl rfl (fun hresumed => .inl (hallows hresumed).1) fun _ => ?_
      exact (Storage.anchored_of_body (Bool.eq_false_of_not_eq_true hbody)).2
        (some_ne_none refreshToken)

theorem keeps_setTokens (config : Config) (a : τ) (w : World τ) (accessToken : Token)
    (refreshToken : Option Token) (userOverride : Option String) :
    w.Keeps (World.setTokens config a w accessToken refreshToken userOverride) := by
  unfold World.setTokens
  dsimp only
  split
  · have hremoved : w.Keeps (World.removeRefreshToken a w) := keeps_write a w rfl
    split
    · exact hremoved.trans ⟨rfl, rfl, rfl, rfl⟩
    · have hpersisted := hremoved.trans
        (keeps_persistCookieSessionMarkerFor config a _ (userOverride.or accessToken.user))
      exact hpersisted.trans ⟨rfl, rfl, rfl, rfl⟩
  · cases refreshToken with
    | none => exact ⟨rfl, rfl, rfl, rfl⟩
    | some refreshToken => exact ⟨rfl, rfl, rfl, rfl⟩

theorem Sound.setAccessToken (h : w.Sound config) {accessToken : Token}
    {userOverride : Option String} (hbody : config.usesHttpOnlyCookie = false)
    (hallows : w.Allows config accessToken.born)
    (hrefresh : config.hasBroadcastChannel = false → w.storage.refreshToken ≠ none) :
    (World.setAccessToken config a w accessToken userOverride).Sound config := by
  unfold World.setAccessToken World.persistCookieSessionMarkerFor
  rw [hbody]
  exact h.adopt rfl rfl (fun hresumed => .inl (hallows hresumed).1)
    fun hchannel => (Storage.anchored_of_body hbody).2 (hrefresh hchannel)

theorem Sound.setCurrentUser (h : w.Sound config) {user : String}
    (hid : config.hasBroadcastChannel = false → config.usesHttpOnlyCookie = true → user ≠ "") :
    (World.setCurrentUser config a w (some user)).Sound config := by
  have hpersisted := h.persistCookieSessionMarkerFor (a := a) (some user)
    fun hchannel hcookie hnone => by
      rw [filter_some, if_pos (decide_eq_true (hid hchannel hcookie))] at hnone
      cases hnone
  exact hpersisted.onTab_of_subset (hpersisted.epochs a) fun _ ht => ht

end World

/-- An answer leaves something in the storage by which other tabs learn of a sign-out. -/
def AuthResult.Announced {τ : Type} (config : Config) (s : Storage τ) (result : AuthResult) : Prop :=
  if config.usesHttpOnlyCookie then
    result.user ≠ some "" ∧
      ∀ t ∈ result.accessToken, (result.user.or t.user).filter (· ≠ "") ≠ none
  else result.accessToken = none ∨ result.refreshToken ≠ none ∨ s.refreshToken ≠ none

instance {τ : Type} (config : Config) (s : Storage τ) (result : AuthResult) :
    Decidable (result.Announced config s) :=
  inferInstanceAs (Decidable (if config.usesHttpOnlyCookie = true then _ ∧ _ else _ ∨ _))

namespace World

variable {τ : Type} {config : Config} {w : World τ} {a b : τ} [DecidableEq τ]

theorem Sound.syncAuthResult (h : w.Sound config) {born : ℕ} {result : AuthResult}
    (authoritative : Bool) (hallows : w.Allows config born)
    (hannounced : config.hasBroadcastChannel = false → result.Announced config w.storage) :
    (World.syncAuthResult config a w born result authoritative).Sound config := by
  obtain ⟨w', hw', hsound, hallows, hrefresh⟩ : ∃ w', w' = (if authoritative then
      World.advanceAuthEpoch a w else w) ∧ w'.Sound config ∧ w'.Allows config born ∧
      w'.storage.refreshToken = w.storage.refreshToken := by
    refine ⟨_, rfl, ?_⟩
    split
    · exact ⟨(h.advanceAuthEpoch a).1, hallows, rfl⟩
    · exact ⟨h, hallows, rfl⟩
  unfold World.syncAuthResult
  rw [← hw']
  dsimp only
  cases haccess : result.accessToken with
  | none =>
    cases huser : result.user with
    | none => exact hsound
    | some user =>
      refine hsound.setCurrentUser fun hchannel hcookie => ?_
      have hnamed := hannounced hchannel
      unfold AuthResult.Announced at hnamed
      rw [if_pos hcookie, huser] at hnamed
      exact fun heq => hnamed.1 (congrArg some heq)
  | some accessToken =>
    dsimp only
    split
    · refine hsound.setTokens _ _ hallows (fun t ht => ?_) fun hchannel hcookie => ?_
      · obtain ⟨issued, -, rfl⟩ := map_eq_some_iff.1 ht
        rfl
      · have hnamed := hannounced hchannel
        unfold AuthResult.Announced at hnamed
        rw [if_pos hcookie] at hnamed
        exact hnamed.2 accessToken haccess
    · next hneither =>
      obtain ⟨hnone, hbody⟩ := not_or.1 hneither
      have hbody := Bool.eq_false_of_not_eq_true hbody
      refine hsound.setAccessToken hbody hallows fun hchannel => ?_
      have hstored := hannounced hchannel
      unfold AuthResult.Announced at hstored
      rw [hbody, if_neg Bool.false_ne_true] at hstored
      rw [hrefresh]
      rcases hstored with hstored | hstored | hstored
      · exact absurd (haccess.symm.trans hstored) (some_ne_none accessToken)
      · exact absurd hstored hnone
      · exact hstored

theorem Sound.updateUser (h : w.Sound config) (hbody : config.usesHttpOnlyCookie = false)
    (accessToken : Token) : (World.updateUser config a w accessToken).Sound config := by
  unfold World.updateUser World.persistCookieSessionMarkerFor
  rw [hbody]
  exact h.onTab_of_subset (f := ({ · with cachedUser := accessToken.user })) (h.epochs a)
    fun _ ht => ht

theorem Sound.broadcastTokenRefreshed (h : w.Sound config) {accessToken : Token}
    (refreshToken : Option Token) (hallows : w.Allows config accessToken.born) :
    (World.broadcastTokenRefreshed config a w accessToken refreshToken).Sound config := by
  unfold World.broadcastTokenRefreshed
  split
  · split
    · exact h.postMessage a _
    · exact h
  · split
    · cases refreshToken with
      | none => exact h
      | some refreshToken => exact h.postMessage a _
    · next hchannel =>
      exact h.setRefreshResult (Bool.eq_false_of_not_eq_true hchannel) fun hresumed =>
        (hallows hresumed).1

theorem keeps_broadcastTokenRefreshed (config : Config) (a : τ) (w : World τ) (accessToken : Token)
    (refreshToken : Option Token) :
    w.Keeps (World.broadcastTokenRefreshed config a w accessToken refreshToken) := by
  unfold World.broadcastTokenRefreshed
  split
  · split <;> exact ⟨rfl, rfl, rfl, rfl⟩
  · split
    · cases refreshToken <;> exact ⟨rfl, rfl, rfl, rfl⟩
    · exact ⟨rfl, rfl, rfl, rfl⟩

/-- Without a `BroadcastChannel`, a parked result is taken only where no sign-out is to be kept. -/
theorem Sound.consumeFallbackRefreshResult (h : w.Sound config) (hbare : config.Bare)
    (accessToken : Token) :
    (World.consumeFallbackRefreshResult config a w accessToken).Sound config := by
  unfold World.consumeFallbackRefreshResult
  split
  · exact h
  · next hstored =>
    have hnone : w.resumed = false → w.signOuts = 0 := fun hresumed =>
      Nat.eq_zero_of_not_pos fun hpos => hstored (h.bare hbare hresumed hpos)
    have hadopted := (h.removeRefreshResult a).adopt (a := a) (t := accessToken)
      (f := ({ · with accessToken := some accessToken })) rfl rfl
      (fun hresumed => .inl ((hnone hresumed).trans_le (Nat.zero_le _)))
      fun _ => (Storage.anchored_of_body hbare.2).2 hstored
    exact hadopted.updateUser hbare.2 accessToken

theorem Sound.receiveTokens (h : w.Sound config) {accessToken refreshToken : Token}
    (hchannel : config.hasBroadcastChannel = true) (hbody : config.usesHttpOnlyCookie = false)
    (hborn : w.resumed = false →
      w.signOuts ≤ accessToken.born ∧ w.signOuts ≤ refreshToken.born ∨ w.Warned config a) :
    (World.receiveTokens config a w accessToken refreshToken).Sound config := by
  have hadopted := h.adopt (a := a) (t := accessToken)
    (f := ({ · with accessToken := some accessToken })) rfl rfl
    (fun hresumed => (hborn hresumed).imp_left And.left)
    fun hfalse => absurd (hfalse.symm.trans hchannel) Bool.false_ne_true
  have hstored := hadopted.setRefreshToken (a := a) (t := refreshToken)
    (fun hresumed => (hborn hresumed).imp And.right fun hwarned => ⟨hchannel, a, hwarned⟩)
    fun hbare => absurd (hbare.1.symm.trans hchannel) Bool.false_ne_true
  exact hstored.updateUser hbody accessToken

/-! ### Signing out -/

/-- A tab and the storage hold nothing. -/
structure Cleared (w : World τ) (a : τ) : Prop where
  accessToken : (w.tabs a).accessToken = none
  refreshToken : w.storage.refreshToken = none
  refreshResult : w.storage.refreshResult = none
  cookieSession : w.storage.cookieSession = none

theorem cleared_clearTokensInternal (config : Config) (a : τ) (w : World τ)
    (shouldBroadcast preserveRefreshLock : Bool) :
    (World.clearTokensInternal config a w shouldBroadcast preserveRefreshLock).Cleared a ∧
      w.Keeps (World.clearTokensInternal config a w shouldBroadcast preserveRefreshLock) := by
  have htab : ((World.onTab a w ({ · with
      accessToken := none, expectedCookieUserId := none, cachedUser := none })).tabs a).accessToken =
      none := by
    rw [tabs_onTab]
  unfold World.clearTokensInternal
  cases preserveRefreshLock <;> dsimp only <;> split <;>
    exact ⟨⟨htab, rfl, rfl, rfl⟩, rfl, rfl, rfl, rfl⟩

theorem Sound.clearTokensInternal (h : w.Sound config) (a : τ)
    (shouldBroadcast preserveRefreshLock : Bool) :
    (World.clearTokensInternal config a w shouldBroadcast preserveRefreshLock).Sound config := by
  have htab := h.forget (a := a) (f := ({ · with
    accessToken := none, expectedCookieUserId := none, cachedUser := none })) (h.epochs a) rfl
  have hnone := tabs_onTab a w ({ · with
    accessToken := none, expectedCookieUserId := none, cachedUser := none })
  have hremoved := htab.removeRefreshToken (a := a) fun _ => by rw [hnone]
  have hunlocked := hremoved.write_of_eq a
    (f := fun s => if preserveRefreshLock then s else { s with refreshLock := none })
    fun s => by cases preserveRefreshLock <;> exact ⟨rfl, rfl, rfl, rfl⟩
  have hput := (hunlocked.removeRefreshResult a).putCookieSession (a := a) none
    fun _ _ _ => congrArg TokenManager.accessToken hnone
  unfold World.clearTokensInternal
  dsimp only
  split
  · exact hput.postMessage a _
  · exact hput

theorem warned_clearTokensInternal (hchannel : config.hasBroadcastChannel = true) (hb : b ≠ a)
    (w : World τ) (preserveRefreshLock : Bool) :
    (World.clearTokensInternal config a w true preserveRefreshLock).Warned config b := by
  unfold World.clearTokensInternal
  dsimp only
  rw [hchannel]
  exact .inl ⟨hchannel, pending_post hb rfl⟩

variable (h : w.Sound config)
include h

omit [DecidableEq τ] in
/-- A sign-out counts where all is cleared, the others are told, and no operation is current. -/
theorem Sound.signOut (hcleared : w.Cleared a)
    (hwarned : config.hasBroadcastChannel = true → ∀ b ≠ a, w.Warned config b)
    (hpast : ∀ o ∈ w.operations, w.storage.authEpoch ∉ o.phase.epoch?) : w.signOut.Sound config :=
  { h with
    tabs := fun _ b t ht => by
      have hb : b ≠ a := fun heq => by
        rw [heq] at ht
        exact absurd (hcleared.accessToken.symm.trans ht) nofun
      cases hchannel : config.hasBroadcastChannel with
      | true => exact .inr (hwarned hchannel b hb)
      | false =>
        have hne : (w.tabs b).accessToken ≠ none := fun hnone => by
          exact absurd (hnone.symm.trans ht) nofun
        refine .inr ((h.anchored hchannel b hne).resolve_left fun hanchored => ?_)
        cases hcookie : config.usesHttpOnlyCookie with
        | true =>
          exact (Storage.anchored_of_cookie hcookie).1 hanchored hcleared.cookieSession
        | false => exact (Storage.anchored_of_body hcookie).1 hanchored hcleared.refreshToken
    refreshToken := fun _ t ht => absurd (hcleared.refreshToken.symm.trans ht) nofun
    refreshResult := fun _ t ht => absurd (hcleared.refreshResult.symm.trans ht) nofun
    bare := fun _ _ _ => hcleared.refreshToken
    operations := fun o ho =>
      { started := (h.operations o ho).started
        born := (h.operations o ho).born.trans (Nat.le_succ _)
        signIn := fun _ _ _ => Nat.lt_succ_of_le (h.operations o ho).born
        captured := (h.operations o ho).captured
        current := fun hepoch => absurd hepoch (hpast o ho) } }

theorem Sound.clearTokens (a : τ) : (World.clearTokens config a w).Sound config := by
  obtain ⟨hadvanced, hpast⟩ := h.advanceAuthEpoch a
  obtain ⟨hcleared, hkeeps⟩ :=
    cleared_clearTokensInternal config a (World.advanceAuthEpoch a w) true false
  refine (hadvanced.clearTokensInternal a true false).signOut hcleared
    (fun hchannel b hb => warned_clearTokensInternal hchannel hb _ false) fun o ho => ?_
  rw [hkeeps.operations] at ho
  rw [hkeeps.authEpoch]
  exact hpast o ho

/-- A sign-out that finds another one pending relies on no operation having gone on since. -/
theorem Sound.signOutPending (a : τ) (hpending : w.hasPendingSignOut config = true →
      ∀ o ∈ w.operations, w.storage.authEpoch ∉ o.phase.epoch?) :
    (World.signOutPending config a w).Sound config := by
  obtain ⟨w', hw', hsound, hpast⟩ : ∃ w', w' = (if w.hasPendingSignOut config then w
      else World.advanceAuthEpoch a w) ∧ w'.Sound config ∧
      ∀ o ∈ w'.operations, w'.storage.authEpoch ∉ o.phase.epoch? := by
    refine ⟨_, rfl, ?_⟩
    split
    · next hp => exact ⟨h, hpending hp⟩
    · exact h.advanceAuthEpoch a
  unfold World.signOutPending
  rw [← hw']
  have hmarked := hsound.write_of_eq a (f := ({ · with pendingSignOut := true }))
    fun _ => ⟨rfl, rfl, rfl, rfl⟩
  obtain ⟨hcleared, hkeeps⟩ := cleared_clearTokensInternal config a
    (World.write a w' ({ · with pendingSignOut := true }) none) true true
  refine (hmarked.clearTokensInternal a true true).signOut hcleared
    (fun hchannel b hb => warned_clearTokensInternal hchannel hb _ true) fun o ho => ?_
  rw [hkeeps.operations] at ho
  rw [hkeeps.authEpoch]
  exact hpast o ho

/-! ### What the other tabs tell -/

theorem Sound.handleCookieSessionMarkerChange (a : τ) (offline : Bool) (marker : Option String) :
    (World.handleCookieSessionMarkerChange config a w offline marker).Sound config := by
  unfold World.handleCookieSessionMarkerChange
  split
  · exact h
  · split
    · exact h.forget (h.epochs a) rfl
    · split
      · exact h.forget (h.epochs a) rfl
      · split
        · split
          · exact h
          · have hadvanced := (h.advanceAuthEpoch a).1
            exact hadvanced.forget (hadvanced.epochs a) rfl
        · split <;> exact h.forget (h.epochs a) rfl

theorem Sound.catchUp (a : τ) :
    (World.onTab a w fun t => { t with authEpoch := max t.authEpoch w.storage.authEpoch }).Sound
      config :=
  h.onTab_of_subset (max_le (h.epochs a) le_rfl) fun _ ht => ht

theorem Sound.onmessage (offline : Bool) {m : Message}
    (hchannel : config.hasBroadcastChannel = true)
    (hm : ∀ accessToken refreshToken, m = .tokenRefreshed accessToken refreshToken →
      config.usesHttpOnlyCookie = false → w.resumed = false →
        w.signOuts ≤ accessToken.born ∧ w.signOuts ≤ refreshToken.born ∨ w.Warned config b) :
    (World.onmessage config b w offline m).Sound config := by
  cases m with
  | sessionRefreshed =>
    rw [World.onmessage]
    split
    · exact h
    · exact h.handleCookieSessionMarkerChange b offline _
  | tokenRefreshed accessToken refreshToken =>
    rw [World.onmessage]
    split
    · exact h
    · next hbody =>
      have hbody := Bool.eq_false_of_not_eq_true hbody
      exact h.receiveTokens hchannel hbody (hm _ _ rfl hbody)
  | signedOut => exact (h.catchUp b).clearTokensInternal b false _

theorem Sound.onstorage (offline fresh : Bool) {e : StorageEvent}
    (he : ∀ t, e = .refreshResult (some t) → config.hasBroadcastChannel = false) :
    (World.onstorage config b w offline fresh e).Sound config := by
  cases e with
  | authEpoch => exact h.catchUp b
  | cookieSession marker => exact h.handleCookieSessionMarkerChange b offline marker
  | refreshToken newValue =>
    cases newValue with
    | some t => exact h
    | none =>
      rw [World.onstorage]
      split
      · exact h
      · exact h.forget (h.epochs b) rfl
  | refreshResult newValue =>
    cases newValue with
    | none => exact h
    | some t =>
      rw [World.onstorage]
      split
      · exact h
      · next hbody =>
        have hbody := (Bool.or_eq_false_iff.1 (Bool.eq_false_of_not_eq_true hbody)).1
        exact h.consumeFallbackRefreshResult ⟨he t rfl, hbody⟩ t

omit h

theorem messages_handleCookieSessionMarkerChange (config : Config) (a : τ) (w : World τ)
    (offline : Bool) (marker : Option String) :
    (World.handleCookieSessionMarkerChange config a w offline marker).messages = w.messages := by
  unfold World.handleCookieSessionMarkerChange
  repeat' split
  all_goals rfl

theorem messages_onmessage (config : Config) (b : τ) (w : World τ) (offline : Bool) (m : Message) :
    (World.onmessage config b w offline m).messages = w.messages := by
  cases m with
  | sessionRefreshed =>
    rw [World.onmessage]
    split
    · rfl
    · exact messages_handleCookieSessionMarkerChange config b w offline _
  | tokenRefreshed accessToken refreshToken =>
    rw [World.onmessage]
    split
    · rfl
    · next hbody =>
      unfold World.receiveTokens World.updateUser World.persistCookieSessionMarkerFor
      rw [if_neg hbody]
      rfl
  | signedOut => rfl

theorem events_write_self (a b : τ) (w : World τ) (f : Storage τ → Storage τ)
    (e : Option StorageEvent) : (World.write b w f e).events a b = w.events a b := by
  cases e with
  | none => rfl
  | some e => exact post_self w.events a b e

theorem events_handleCookieSessionMarkerChange (config : Config) (a b : τ) (w : World τ)
    (offline : Bool) (marker : Option String) :
    (World.handleCookieSessionMarkerChange config b w offline marker).events a b =
      w.events a b := by
  unfold World.handleCookieSessionMarkerChange
  repeat' split
  all_goals first | rfl | exact post_self w.events a b .authEpoch

theorem events_onstorage (config : Config) (a b : τ) (w : World τ) (offline fresh : Bool)
    (e : StorageEvent) :
    (World.onstorage config b w offline fresh e).events a b = w.events a b := by
  cases e with
  | authEpoch => rfl
  | cookieSession marker => exact events_handleCookieSessionMarkerChange config a b w offline marker
  | refreshToken newValue =>
    cases newValue with
    | some t => rfl
    | none =>
      rw [World.onstorage]
      split <;> rfl
  | refreshResult newValue =>
    cases newValue with
    | none => rfl
    | some t =>
      rw [World.onstorage]
      split
      · rfl
      · next hbody =>
        have hbody := (Bool.or_eq_false_iff.1 (Bool.eq_false_of_not_eq_true hbody)).1
        unfold World.consumeFallbackRefreshResult
        split
        · rfl
        · have hremoved : (World.removeRefreshResult b w).events a b = w.events a b :=
            events_write_self a b w _ _
          unfold World.updateUser World.persistCookieSessionMarkerFor
          rw [hbody]
          exact hremoved

/-! ### What is delivered -/

theorem Warned.popMessage {d : τ} (h : w.Warned config d)
    (hkeep : d = b → ∀ m ∈ (w.messages a b).head?, m ≠ .signedOut) :
    (w.popMessage a b).Warned config d :=
  h.imp_left fun h => ⟨h.1, h.2.pop hkeep⟩

theorem Warned.popEvent {d : τ} (h : w.Warned config d)
    (hkeep : config.hasBroadcastChannel = false → d = b →
      ∀ e ∈ (w.events a b).head?, e ≠ config.notice) : (w.popEvent a b).Warned config d :=
  h.imp_right fun h => ⟨h.1, h.2.pop (hkeep h.1)⟩

/-- Where a tab learns of a sign-out, it holds nothing any more, and neither does the storage. -/
theorem Sound.popMessage (h : w.Sound config)
    (hlost : (∀ m ∈ (w.messages a b).head?, m ≠ .signedOut) ∨
      (w.tabs b).accessToken = none ∧ w.storage.refreshToken = none) :
    (w.popMessage a b).Sound config := by
  have hkeep : ∀ d, Warned config w d → (w.tabs d).accessToken ≠ none →
      (w.popMessage a b).Warned config d := fun d hwarned hne =>
    hwarned.popMessage fun hd => hlost.resolve_right fun hnone => hne (hd ▸ hnone.1)
  exact
    { h with
      tabs := fun hresumed d t ht => (h.tabs hresumed d t ht).imp_right fun hwarned =>
        hkeep d hwarned fun hnone => absurd (hnone.symm.trans ht) nofun
      refreshToken := fun hresumed t ht => (h.refreshToken hresumed t ht).imp_right fun hwarned =>
        ⟨hwarned.1, hwarned.2.imp fun _ hd => hd.popMessage fun _ =>
          hlost.resolve_right fun hnone => absurd (hnone.2.symm.trans ht) nofun⟩
      anchored := fun hchannel d hne => (h.anchored hchannel d hne).imp_right fun hwarned =>
        hkeep d hwarned hne }

/-- Without a `BroadcastChannel`, the notice makes a tab forget its token. -/
theorem Sound.popEvent (h : w.Sound config) (hlost : config.hasBroadcastChannel = false →
      (∀ e ∈ (w.events a b).head?, e ≠ config.notice) ∨ (w.tabs b).accessToken = none) :
    (w.popEvent a b).Sound config := by
  have hkeep : ∀ d, Warned config w d → (w.tabs d).accessToken ≠ none →
      (w.popEvent a b).Warned config d := fun d hwarned hne =>
    hwarned.popEvent fun hchannel hd => (hlost hchannel).resolve_right fun hnone => hne (hd ▸ hnone)
  exact
    { h with
      tabs := fun hresumed d t ht => (h.tabs hresumed d t ht).imp_right fun hwarned =>
        hkeep d hwarned fun hnone => absurd (hnone.symm.trans ht) nofun
      refreshToken := fun hresumed t ht => (h.refreshToken hresumed t ht).imp_right fun hwarned =>
        ⟨hwarned.1, hwarned.2.imp fun _ hd => hd.popEvent fun hfalse =>
          absurd (hwarned.1.symm.trans hfalse) Bool.noConfusion⟩
      parked := fun hchannel x y e he => h.parked hchannel x y e (mem_of_mem_pop he)
      anchored := fun hchannel d hne => (h.anchored hchannel d hne).imp_right fun hwarned =>
        hkeep d hwarned hne }

end World

end Sdk

end EdgeBase
