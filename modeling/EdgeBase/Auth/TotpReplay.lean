import EdgeBase.Auth.Identities
import EdgeBase.Auth.RecoveryCodes

/-!
# Replayed TOTP codes

A code that was used is remembered by its counter, in a row of `_auth_challenges` that lives for two
minutes.  A second use has to find the row gone or with a lower counter.  The row outlives the time
in which its code can be checked, and no other service takes it away before.

* `TotpState.singleUse` : the counters of a scope increase.
-/

namespace EdgeBase

open List Option Batch.Statement Batch Table

namespace Auth

/-! ### The window -/

def totpStep (now : Int) : Int := now / 1000 / 30

/-- `verifyTOTPWithCounter` over `generateTOTPCode`: the counter of a code that is valid. -/
def verifyTOTPWithCounter (generateTOTPCode : String → Int → String) (secret code : String)
    (now : Int) : Option Int :=
  if utf16Length code ≠ 6 then none
  else [totpStep now - 1, totpStep now, totpStep now + 1].find? fun counter =>
    generateTOTPCode secret counter = code

theorem verifyTOTPWithCounter_window {generateTOTPCode : String → Int → String}
    {secret code : String} {now counter : Int}
    (h : verifyTOTPWithCounter generateTOTPCode secret code now = some counter) :
    totpStep now - 1 ≤ counter ∧ counter ≤ totpStep now + 1 := by
  unfold verifyTOTPWithCounter at h
  split at h
  · cases h
  have hmem := List.mem_of_find?_eq_some h
  simp only [mem_cons, not_mem_nil, or_false] at hmem
  omega

/-! ### Counters that were used -/

/-- The range of `assertTotpCounter`. -/
def totpCounter (counter : Int) : Prop := 0 ≤ counter ∧ counter ≤ 2 ^ 53 - 1

instance : DecidablePred totpCounter := fun _ => inferInstanceAs (Decidable (_ ∧ _))

/-- `CAST(text AS BIGINT)`: the integer that a text starts with. -/
def castBigint (s : String) : Int :=
  match s.toList.dropWhile (· = ' ') with
  | '-' :: digits => -(Nat.ofDigitChars 10 (digits.takeWhile Char.isDigit) 0)
  | '+' :: digits => Nat.ofDigitChars 10 (digits.takeWhile Char.isDigit) 0
  | digits => Nat.ofDigitChars 10 (digits.takeWhile Char.isDigit) 0

theorem castBigint_toString {counter : Int} (h : 0 ≤ counter) :
    castBigint (toString counter) = counter := by
  obtain ⟨n, rfl⟩ := Int.eq_ofNat_of_zero_le h
  have hlist : (toString (n : Int)).toList = Nat.toDigits 10 n := Nat.toList_repr
  have hdigits : ∀ d ∈ Nat.toDigits 10 n, d.isDigit = true := fun d hd =>
    Nat.isDigit_of_mem_toDigits (by decide) (by decide) hd
  unfold castBigint
  rw [hlist]
  cases hds : Nat.toDigits 10 n with
  | nil => exact absurd hds Nat.toDigits_ne_nil
  | cons d ds =>
    rw [hds] at hdigits
    have hd : d.isDigit = true := hdigits d mem_cons_self
    -- a digit is no space and no sign
    have hne : ∀ x : Char, x.isDigit = false → d ≠ x := fun x hx h =>
      Bool.false_ne_true (hx.symm.trans (h ▸ hd))
    rw [dropWhile_cons_of_neg (by simpa using hne ' ' rfl)]
    split
    · next heq => exact absurd (List.cons.inj heq).1 (hne '-' rfl)
    · next heq => exact absurd (List.cons.inj heq).1 (hne '+' rfl)
    · rw [takeWhile_eq_self_iff.2 hdigits, ← hds,
        Nat.ofDigitChars_toDigits (by decide) (by decide)]

/-- The user, scope and counter of a code. -/
structure TotpInput where
  userId : String
  replayScope : String
  counter : Int
  deriving DecidableEq

section Services

variable (hash : String → String) (now : Int) (attemptId : Uuid) (input : TotpInput)

def TotpInput.record : Challenge where
  key := authChallengeKey hash "totp-replay" input.replayScope
  kind := "totp-replay"
  userId := some input.userId
  subject := some input.replayScope
  payload := some (toString input.counter)
  maxAttempts := 1
  expiresAt := now + 120000
  consumptionId := some attemptId
  createdAt := now

/-- What `ON CONFLICT (key) DO UPDATE` sets. -/
def Challenge.renew (r c : Challenge) : Challenge :=
  { c with
    userId := r.userId
    subject := r.subject
    payload := r.payload
    expiresAt := r.expiresAt
    consumptionId := r.consumptionId
    createdAt := r.createdAt }

/-- A row that a counter may replace: it has expired, or remembers a lower counter. -/
def Challenge.Outdated (counter : Int) (c : Challenge) : Prop :=
  c.expiresAt ≤ now ∨ castBigint (c.payload.getD "-1") < counter

instance (counter : Int) : DecidablePred (Challenge.Outdated now counter) :=
  fun _ => inferInstanceAs (Decidable (_ ∨ _))

def recordTotp (challenges : List Challenge) : List Challenge :=
  Table.upsert (·.key = (input.record hash now attemptId).key)
    (Challenge.Outdated now input.counter) (input.record hash now attemptId)
    (Challenge.renew (input.record hash now attemptId)) challenges

def TotpInput.Recorded (challenges : List Challenge) : Prop :=
  ∃ c ∈ challenges, c.key = (input.record hash now attemptId).key ∧
    c.consumptionId = some attemptId

instance : DecidablePred (input.Recorded hash now attemptId) :=
  fun _ => inferInstanceAs (Decidable (∃ _ ∈ _, _))

/-- `verifyMfaFactorWithTotpCounter`; `none` when it throws. -/
def verifyMfaFactorWithTotpCounter (factorId : String) : Batch.Statement Tables := fun t =>
  if ¬totpCounter input.counter then none
  else Batch.run
    [ .write fun t => { t with challenges := recordTotp hash now attemptId input t.challenges },
      .write fun t => { t with
        mfaFactors := Table.update
          (fun f => f.id = factorId ∧ f.userId = input.userId ∧ f.verified = false ∧
            input.Recorded hash now attemptId t.challenges)
          (fun f => { f with verified := true }) t.mfaFactors },
      .guard fun t =>
        (∃ f ∈ t.mfaFactors, f.id = factorId ∧ f.userId = input.userId ∧ f.verified = true) ∧
          input.Recorded hash now attemptId t.challenges ] t

/-- `completeMfaTotpChallenge`; `none` when it throws. -/
def completeMfaTotpChallenge (ticket : String) : Batch.Statement Tables := fun t =>
  if ¬totpCounter input.counter then none
  else Batch.run
    [ .write fun t => { t with
        challenges := stampTicket hash now attemptId ticket input.userId t.challenges },
      .write fun t => { t with challenges := recordTotp hash now attemptId input t.challenges },
      .guard fun t =>
        (∃ c ∈ t.challenges, c.key = authChallengeKey hash "mfa-ticket" ticket ∧
          c.kind = "mfa-ticket" ∧ c.userId = some input.userId ∧
          c.consumptionId = some attemptId ∧ c.consumedAt ≠ none) ∧
        ∃ c ∈ t.challenges, c.key = (input.record hash now attemptId).key ∧
          c.kind = "totp-replay" ∧ c.consumptionId = some attemptId,
      .write fun t => { t with challenges := dropTicket hash attemptId ticket t.challenges } ] t

end Services

/-! ### The other writers -/

def issuedKinds : List String :=
  ["mfa-ticket", "phone-otp", "phone-link-otp", "email-otp", "email-change"]

def keyText (kind lookupKey : String) : String := kind ++ "\x00" ++ lookupKey

theorem keyText_ne_totpReplay {kind : String} (hkind : kind ∈ "email-link-completion" :: issuedKinds)
    (lookupKey replayScope : String) : keyText kind lookupKey ≠ keyText "totp-replay" replayScope := by
  intro heq
  -- the kinds differ in their first letter
  have hhead := congrArg (fun s : String => s.toList.head?) heq
  simp only [issuedKinds, mem_cons, not_mem_nil, or_false] at hkind
  rcases hkind with rfl | rfl | rfl | rfl | rfl | rfl <;> simp [keyText] at hhead

section Spares

variable (hash : String → String) (texts : Set String)

/-- A row that remembers a counter, by its key. -/
def Challenge.IsReplay (c : Challenge) : Prop :=
  ∃ replayScope, keyText "totp-replay" replayScope ∈ texts ∧
    c.key = authChallengeKey hash "totp-replay" replayScope

/-- The rows that remember counters are of their kind, and not consumed. -/
def ReplayRows (challenges : List Challenge) : Prop :=
  ∀ c ∈ challenges, c.IsReplay hash texts → c.kind = "totp-replay" ∧ c.consumedAt = none

/-- A change of the challenges that takes no row that remembers a counter before it has expired, and
makes none. -/
structure Spares (now : Int) (n : Uuid) (challenges challenges' : List Challenge) : Prop where
  unique : Table.Unique Challenge.key challenges → Table.Unique Challenge.key challenges'
  stamped : Stamped (n + 1) challenges → Stamped (n + 1) challenges'
  kept : ReplayRows hash texts challenges →
    ∀ c ∈ challenges, c.IsReplay hash texts → c ∈ challenges' ∨ c.expiresAt ≤ now
  fresh : ReplayRows hash texts challenges →
    ∀ c ∈ challenges', c.IsReplay hash texts → c ∈ challenges

namespace Spares

variable {hash texts} {now : Int} {n : Uuid} {cs cs' cs'' : List Challenge}

theorem refl (cs : List Challenge) : Spares hash texts now n cs cs where
  unique := id
  stamped := id
  kept _ _ hc _ := .inl hc
  fresh _ _ hc _ := hc

theorem replayRows (h : Spares hash texts now n cs cs') (hcs : ReplayRows hash texts cs) :
    ReplayRows hash texts cs' := fun c hc hreplay => hcs c (h.fresh hcs c hc hreplay) hreplay

theorem trans (h : Spares hash texts now n cs cs') (h' : Spares hash texts now n cs' cs'') :
    Spares hash texts now n cs cs'' where
  unique := h'.unique ∘ h.unique
  stamped := h'.stamped ∘ h.stamped
  kept hcs c hc hreplay := (h.kept hcs c hc hreplay).elim
    (fun hc => h'.kept (h.replayRows hcs) c hc hreplay) .inr
  fresh hcs c hc hreplay := h.fresh hcs c (h'.fresh (h.replayRows hcs) c hc hreplay) hreplay

theorem delete {p : Challenge → Prop} [DecidablePred p]
    (hp : ∀ c, p c → c.IsReplay hash texts → c.kind = "totp-replay" → c.consumedAt = none →
      c.expiresAt ≤ now) : Spares hash texts now n cs (Table.delete p cs) where
  unique h := h.delete
  stamped h := h.of_subset (filter_subset_self _)
  kept hcs c hc hreplay := by
    by_cases hpc : p c
    · obtain ⟨hkind, hconsumed⟩ := hcs c hc hreplay
      exact .inr (hp c hpc hreplay hkind hconsumed)
    · exact .inl (mem_delete.2 ⟨hc, hpc⟩)
  fresh _ c hc _ := (mem_delete.1 hc).1

theorem update {p : Challenge → Prop} [DecidablePred p] {f : Challenge → Challenge}
    (hkey : ∀ c, p c → (f c).key = c.key) (hp : ∀ c, p c → c.kind ≠ "totp-replay")
    (hf : ∀ c, (f c).consumptionId = c.consumptionId ∨ (f c).consumptionId = some n) :
    Spares hash texts now n cs (Table.update p f cs) where
  unique h := h.update hkey
  stamped h := by
    intro c hc k hk
    obtain ⟨hc, -⟩ | ⟨x, hx, -, rfl⟩ := mem_update_cases hc
    · exact h c hc k hk
    · rcases hf x with heq | heq
      · exact h x hx k (heq ▸ hk)
      · rw [heq] at hk
        obtain rfl := some.inj hk
        exact Nat.lt_succ_self _
  kept hcs c hc hreplay :=
    .inl (mem_update_of_not hc fun hpc => hp c hpc (hcs c hc hreplay).1)
  fresh hcs c hc hreplay := by
    obtain ⟨hc, -⟩ | ⟨x, hx, hpx, rfl⟩ := mem_update_cases hc
    · exact hc
    · obtain ⟨replayScope, htext, hscope⟩ := hreplay
      exact absurd (hcs x hx ⟨replayScope, htext, (hkey x hpx).symm.trans hscope⟩).1 (hp x hpx)

theorem append {c : Challenge} (hkey : ∀ x ∈ cs, x.key ≠ c.key) (hc : ¬c.IsReplay hash texts)
    (hid : c.consumptionId = none ∨ c.consumptionId = some n) :
    Spares hash texts now n cs (cs ++ [c]) where
  unique h := h.append hkey
  stamped h := by
    intro x hx k hk
    rcases mem_append.1 hx with hx | hx
    · exact h x hx k hk
    · obtain rfl := mem_singleton.1 hx
      rcases hid with heq | heq
      · rw [heq] at hk
        cases hk
      · rw [heq] at hk
        obtain rfl := some.inj hk
        exact Nat.lt_succ_self _
  kept _ x hx _ := .inl (mem_append_left _ hx)
  fresh _ x hx hreplay := by
    rcases mem_append.1 hx with hx | hx
    · exact hx
    · obtain rfl := mem_singleton.1 hx
      exact absurd hreplay hc

end Spares

end Spares

section Writers

variable {hash : String → String} {texts : Set String} {now : Int} {n : Uuid} {t t' : Tables}

/-- A hash without collisions among some texts tells the keys of other challenges from those of the
counters. -/
theorem not_isReplay (hinj : Set.InjOn hash texts) {kind lookupKey : String}
    (hkind : kind ∈ "email-link-completion" :: issuedKinds) (htext : keyText kind lookupKey ∈ texts)
    {c : Challenge} (hc : c.key = authChallengeKey hash kind lookupKey) :
    ¬c.IsReplay hash texts := by
  rintro ⟨replayScope, hreplay, hkey⟩
  exact keyText_ne_totpReplay hkind lookupKey replayScope
    (hinj htext hreplay (hc.symm.trans hkey))

theorem spares_issueAuthChallenge (hinj : Set.InjOn hash texts) {input : IssueAuthChallengeInput}
    (hkind : input.kind ∈ issuedKinds) (htext : keyText input.kind input.lookupKey ∈ texts)
    (h : issueAuthChallenge hash now input t = some t') :
    Spares hash texts now n t.challenges t'.challenges := by
  have hnot : ∀ c : Challenge, c.key = (input.challenge hash now).key → ¬c.IsReplay hash texts :=
    fun c hc => not_isReplay hinj (mem_cons_of_mem _ hkind) htext hc
  rw [challenges_issueAuthChallenge h]
  refine (Spares.delete fun c hc _ _ hconsumed => ?_).trans
    ((Spares.delete fun c hc _ hreplay _ => ?_).trans
      ((Spares.delete fun c hc hreplay _ _ => absurd hreplay (hnot c hc)).trans
        (Spares.append (fun c hc => (mem_delete.1 hc).2) (hnot _ rfl) (.inl rfl))))
  · exact hc.resolve_right fun h => h.1 hconsumed
  · obtain ⟨-, -, -, -, hckind⟩ := hc
    rw [← hckind, hreplay] at hkind
    exact absurd hkind (by decide)

theorem spares_recordAuthChallengeFailure {kind lookupKey : String} (hkind : kind ∈ issuedKinds) :
    Spares hash texts now n t.challenges
      (recordAuthChallengeFailure hash now kind lookupKey t).2.challenges :=
  Spares.update (fun _ _ => rfl)
    (fun c hc hreplay => by
      rw [← hc.1.2.1, hreplay] at hkind
      exact absurd hkind (by decide))
    fun _ => .inl rfl

theorem spares_consumeAuthChallenge {kind lookupKey : String} (hkind : kind ∈ issuedKinds) :
    Spares hash texts now n t.challenges
      (consumeAuthChallenge hash now kind lookupKey t).2.challenges :=
  Spares.delete fun c hc _ hreplay _ => by
    rw [← hc.1.2.1, hreplay] at hkind
    exact absurd hkind (by decide)

theorem spares_stampTicket {ticket userId : String} {cs : List Challenge} :
    Spares hash texts now n cs (stampTicket hash now n ticket userId cs) :=
  Spares.update (fun _ _ => rfl) (fun c hc hreplay => by
    have hkind := hc.1.1.2.1
    rw [hreplay] at hkind
    exact absurd hkind (by decide)) fun _ => .inr rfl

theorem spares_dropTicket (hinj : Set.InjOn hash texts) {ticket : String}
    (htext : keyText "mfa-ticket" ticket ∈ texts) {cs : List Challenge} :
    Spares hash texts now n cs (dropTicket hash n ticket cs) :=
  Spares.delete fun _ hc hreplay _ _ =>
    absurd hreplay (not_isReplay hinj (by decide) htext hc.1)

theorem spares_completeMfaRecoveryChallenge (hinj : Set.InjOn hash texts)
    (ht : Stamped n t.challenges) {ticket userId recoveryCodeId : String}
    (htext : keyText "mfa-ticket" ticket ∈ texts)
    (h : completeMfaRecoveryChallenge hash now n ticket userId recoveryCodeId t = some t') :
    Spares hash texts now n t.challenges t'.challenges := by
  obtain ⟨-, -, rfl⟩ := (completeMfaRecoveryChallenge_eq_some_iff ht).1 h
  exact spares_stampTicket.trans (spares_dropTicket hinj htext)

theorem challenges_onContactIndex {kind : ContactKind}
    {f : List (Reservation String) → List (Reservation String)} (t : Tables) :
    (t.onContactIndex kind f).challenges = t.challenges := by
  cases kind <;> rfl

theorem challenges_upgradeStatements {kind : ContactKind} {value userId reservationId : String}
    {previousValue : Option String} {session : CreateSessionInput} {upgraded : UserRow → Prop}
    {completed : Tables → Prop} [DecidablePred upgraded] [DecidablePred completed]
    (h : Batch.run (upgradeStatements now kind value userId reservationId previousValue session
      upgraded completed) t = some t') : t'.challenges = t.challenges := by
  refine respects_run (R := fun t t' : Tables => t'.challenges = t.challenges)
    (fun _ => rfl) (fun _ _ _ h h' => h'.trans h) ?_ t t' h
  simp only [upgradeStatements, forall_mem_cons, not_mem_nil, false_implies,
    implies_true, and_true]
  exact ⟨respects_write fun t => challenges_onContactIndex t,
    respects_write fun t => challenges_onContactIndex t,
    respects_write fun _ => rfl, respects_write fun _ => rfl,
    respects_write fun _ => rfl, respects_guard fun _ => rfl,
    respects_guard fun _ => rfl⟩

theorem spares_finalizeAnonymousEmailUpgrade {env : IdentityEnv} (hinj : Set.InjOn env.hash texts)
    {input : FinalizeAnonymousEmailUpgradeInput}
    (htext : keyText "email-link-completion" (input.userId ++ "\x00" ++ input.email) ∈ texts)
    (h : finalizeAnonymousEmailUpgrade env now n input t = some t') :
    Spares env.hash texts now n t.challenges t'.challenges := by
  unfold finalizeAnonymousEmailUpgrade at h
  split at h
  · simp only [emailUpgradeStatements, cons_append, nil_append, run_write,
      run_guard_eq_some] at h
    rw [challenges_upgradeStatements h.2]
    refine (Spares.delete fun c hc _ _ _ => hc).trans ?_
    dsimp only
    split
    · next hcheckpoint =>
      exact Spares.append (fun c hc hkey => hcheckpoint.2 ⟨c, hc, hkey⟩)
        (not_isReplay hinj (by decide) htext rfl) (.inr rfl)
    · exact Spares.refl _
  · cases h

theorem spares_finalizeAnonymousPhoneUpgrade {input : FinalizeAnonymousPhoneUpgradeInput}
    (h : finalizeAnonymousPhoneUpgrade now n input t = some t') :
    Spares hash texts now n t.challenges t'.challenges := by
  unfold finalizeAnonymousPhoneUpgrade at h
  split at h
  · simp only [phoneUpgradeStatements, cons_append, nil_append, run_write] at h
    rw [challenges_upgradeStatements h]
    refine Spares.update (fun _ _ => rfl) (fun c hc hreplay => ?_) fun _ => .inr rfl
    have hkind := hc.1.1.2.1
    rw [hreplay] at hkind
    exact absurd hkind (by decide)
  · cases h

/-! ### A counter is recorded -/

/-- A counter that an attempt recorded found no row that forbids it: each row of its key was
outdated. -/
theorem outdated_of_recorded {input : TotpInput} {cs : List Challenge}
    (hunique : Table.Unique Challenge.key cs)
    (hfresh : ∀ c ∈ cs, c.key = (input.record hash now n).key → c.consumptionId ≠ some n)
    (h : ∃ c ∈ recordTotp hash now n input cs, c.key = (input.record hash now n).key ∧
      c.consumptionId = some n) :
    (∀ c ∈ cs, c.key = (input.record hash now n).key → c.Outdated now input.counter) ∧
    ∃ c ∈ recordTotp hash now n input cs, c.key = (input.record hash now n).key ∧
      c.payload = some (toString input.counter) ∧ c.expiresAt = now + 120000 := by
  obtain ⟨c, hc, hkey, hid⟩ := h
  obtain ⟨hcs, -⟩ | ⟨x, hx, ⟨hxkey, hxoutdated⟩, rfl⟩ | ⟨rfl, hnone⟩ :=
    mem_upsert_cases hc
  · exact absurd hid (hfresh c hcs hkey)
  · refine ⟨fun y hy hykey => ?_, _, hc, hkey, rfl, rfl⟩
    obtain rfl := hunique.eq_of_key hy hx (hykey.trans hxkey.symm)
    exact hxoutdated
  · exact ⟨fun y hy hykey => absurd hykey (hnone y hy), _, hc, hkey, rfl, rfl⟩

theorem unique_recordTotp {input : TotpInput} {cs : List Challenge}
    (h : Table.Unique Challenge.key cs) :
    Table.Unique Challenge.key (recordTotp hash now n input cs) :=
  h.upsert (f := Challenge.renew (input.record hash now n)) fun _ _ => rfl

theorem stamped_recordTotp {input : TotpInput} {cs : List Challenge} (h : Stamped (n + 1) cs) :
    Stamped (n + 1) (recordTotp hash now n input cs) := by
  intro c hc k hk
  obtain ⟨hc, -⟩ | ⟨x, -, -, rfl⟩ | ⟨rfl, -⟩ := mem_upsert_cases hc
  · exact h c hc k hk
  · obtain rfl := some.inj hk
    exact Nat.lt_succ_self _
  · obtain rfl := some.inj hk
    exact Nat.lt_succ_self _

theorem replayRows_recordTotp {input : TotpInput} {cs : List Challenge}
    (h : ReplayRows hash texts cs) : ReplayRows hash texts (recordTotp hash now n input cs) := by
  intro c hc hreplay
  obtain ⟨hc, -⟩ | ⟨x, hx, ⟨hxkey, -⟩, rfl⟩ | ⟨rfl, -⟩ := mem_upsert_cases hc
  · exact h c hc hreplay
  · exact h x hx hreplay
  · exact ⟨rfl, rfl⟩

end Writers

/-- An attempt that used its counter: every row that remembers a counter of its scope was outdated,
and now one remembers this counter. -/
structure Uses (hash : String → String) (texts : Set String) (now : Int) (n : Uuid)
    (input : TotpInput) (cs cs' : List Challenge) : Prop where
  counter : 0 ≤ input.counter
  recorded : ∃ cs₁, Spares hash texts now n cs cs₁ ∧
    (∀ c ∈ cs₁, c.key = (input.record hash now n).key → c.Outdated now input.counter) ∧
    (∃ c ∈ recordTotp hash now n input cs₁, c.key = (input.record hash now n).key ∧
      c.payload = some (toString input.counter) ∧ c.expiresAt = now + 120000) ∧
    Spares hash texts now n (recordTotp hash now n input cs₁) cs'

section Uses

variable {hash : String → String} {texts : Set String} {now : Int} {n : Uuid} {t t' : Tables}
  {input : TotpInput}

theorem uses_verifyMfaFactorWithTotpCounter (hunique : Table.Unique Challenge.key t.challenges)
    (hn : Stamped n t.challenges) {factorId : String}
    (h : verifyMfaFactorWithTotpCounter hash now n input factorId t = some t') :
    Uses hash texts now n input t.challenges t'.challenges := by
  unfold verifyMfaFactorWithTotpCounter at h
  split at h
  · cases h
  next hcounter =>
    simp only [run_write, run_guard_eq_some, run_nil, Option.some.injEq] at h
    obtain ⟨⟨-, hrecorded⟩, rfl⟩ := h
    obtain ⟨houtdated, hrow⟩ := outdated_of_recorded hunique (fun c hc _ => hn.fresh c hc) hrecorded
    exact ⟨(not_not.1 hcounter).1, _, Spares.refl _, houtdated, hrow, Spares.refl _⟩

theorem uses_completeMfaTotpChallenge (hinj : Set.InjOn hash texts)
    (hunique : Table.Unique Challenge.key t.challenges) (hn : Stamped n t.challenges)
    (hrows : ReplayRows hash texts t.challenges) {ticket : String}
    (hticket : keyText "mfa-ticket" ticket ∈ texts)
    (hscope : keyText "totp-replay" input.replayScope ∈ texts)
    (h : completeMfaTotpChallenge hash now n input ticket t = some t') :
    Uses hash texts now n input t.challenges t'.challenges := by
  unfold completeMfaTotpChallenge at h
  split at h
  · cases h
  next hcounter =>
    simp only [run_write, run_guard_eq_some, run_nil, Option.some.injEq] at h
    obtain ⟨⟨-, c, hc, hkey, -, hid⟩, rfl⟩ := h
    have hstamp : Spares hash texts now n t.challenges
        (stampTicket hash now n ticket input.userId t.challenges) := spares_stampTicket
    -- the ticket is no row that remembers a counter, so none of these has the new id
    have hfresh : ∀ c ∈ stampTicket hash now n ticket input.userId t.challenges,
        c.key = (input.record hash now n).key → c.consumptionId ≠ some n := fun c hc hkey =>
      hn.fresh c (hstamp.fresh hrows c hc ⟨input.replayScope, hscope, hkey⟩)
    obtain ⟨houtdated, hrow⟩ :=
      outdated_of_recorded (hstamp.unique hunique) hfresh ⟨c, hc, hkey, hid⟩
    exact ⟨(not_not.1 hcounter).1, _, hstamp, houtdated, hrow, spares_dropTicket hinj hticket⟩

end Uses

/-! ### Runs -/

/-- The database, the time of the last commit, and the number of random ids drawn. -/
structure TotpState where
  tables : Tables
  clock : Int
  drawn : Uuid := 0

/-- What the services do with challenges; a use of a counter comes with the time at which its code
was checked. -/
inductive TotpEvent where
  | verify (checkedAt : Int) (factorId : String) (input : TotpInput)
  | complete (checkedAt : Int) (ticket : String) (input : TotpInput)
  | issue (input : IssueAuthChallengeInput)
  | recordFailure (kind lookupKey : String)
  | consume (kind lookupKey : String)
  | recover (ticket userId recoveryCodeId : String)
  | emailUpgrade (input : FinalizeAnonymousEmailUpgradeInput)
  | phoneUpgrade (input : FinalizeAnonymousPhoneUpgradeInput)

/-- An event, the clock that its statements read, and the time at which it commits. -/
structure TotpAction where
  now : Int
  commitsAt : Int
  event : TotpEvent

structure TotpUse where
  replayScope : String
  counter : Int
  deriving DecidableEq

namespace TotpEvent

variable (env : IdentityEnv) (now : Int) (n : Uuid)

def run : TotpEvent → Batch.Statement Tables
  | .verify _ factorId input => verifyMfaFactorWithTotpCounter env.hash now n input factorId
  | .complete _ ticket input => completeMfaTotpChallenge env.hash now n input ticket
  | .issue input => issueAuthChallenge env.hash now input
  | .recordFailure kind lookupKey =>
    .write fun t => (recordAuthChallengeFailure env.hash now kind lookupKey t).2
  | .consume kind lookupKey =>
    .write fun t => (consumeAuthChallenge env.hash now kind lookupKey t).2
  | .recover ticket userId recoveryCodeId =>
    completeMfaRecoveryChallenge env.hash now n ticket userId recoveryCodeId
  | .emailUpgrade input => finalizeAnonymousEmailUpgrade env now n input
  | .phoneUpgrade input => finalizeAnonymousPhoneUpgrade now n input

def hashed : TotpEvent → List String
  | .verify _ _ input => [keyText "totp-replay" input.replayScope]
  | .complete _ ticket input =>
    [keyText "mfa-ticket" ticket, keyText "totp-replay" input.replayScope]
  | .issue input => [keyText input.kind input.lookupKey]
  | .recordFailure kind lookupKey => [keyText kind lookupKey]
  | .consume kind lookupKey => [keyText kind lookupKey]
  | .recover ticket _ _ => [keyText "mfa-ticket" ticket]
  | .emailUpgrade input =>
    [keyText "email-link-completion" (input.userId ++ "\x00" ++ input.email)]
  | .phoneUpgrade _ => []

/-- The code that an event uses, with the time at which it was checked. -/
def use : TotpEvent → Option (Int × TotpInput)
  | .verify checkedAt _ input => some (checkedAt, input)
  | .complete checkedAt _ input => some (checkedAt, input)
  | _ => none

/-- The kind of the challenges that the callers of an event name. -/
def kind : TotpEvent → Option String
  | .issue input => some input.kind
  | .recordFailure kind _ => some kind
  | .consume kind _ => some kind
  | _ => none

end TotpEvent

namespace TotpState

variable (env : IdentityEnv) (generateTOTPCode : String → Int → String) (texts : Set String)

def step (s : TotpState) (a : TotpAction) : TotpState where
  tables := Batch.commit (a.event.run env a.now s.drawn) s.tables
  clock := a.commitsAt
  drawn := s.drawn + 1

/-- The counter that an action uses, if it returns. -/
def used (s : TotpState) (a : TotpAction) : List TotpUse :=
  match a.event.use with
  | some (_, input) =>
    if (a.event.run env a.now s.drawn s.tables).isSome then
      [⟨input.replayScope, input.counter⟩]
    else []
  | none => []

/-- The clock moves forward; a code is checked within its window, and its transaction commits less
than 30 seconds later; the callers name the kinds that they issue; and what is hashed is among the
texts. -/
structure Timely (s : TotpState) (a : TotpAction) : Prop where
  clock : s.clock ≤ a.commitsAt
  now : a.now ≤ a.commitsAt
  use : ∀ checkedAt input, a.event.use = some (checkedAt, input) →
    (∃ secret code,
      verifyTOTPWithCounter generateTOTPCode secret code checkedAt = some input.counter) ∧
    checkedAt ≤ a.now ∧ a.commitsAt < checkedAt + 30000
  kind : ∀ kind ∈ a.event.kind, kind ∈ issuedKinds
  hashed : ∀ text ∈ a.event.hashed, text ∈ texts

/-- A run starts with unique keys, no id that is still to be drawn, and rows that remember counters
as they are made. -/
structure Sound (s : TotpState) : Prop where
  unique : Table.Unique Challenge.key s.tables.challenges
  stamped : Stamped s.drawn s.tables.challenges
  rows : ReplayRows env.hash texts s.tables.challenges

/-- A counter that was used is remembered, as long as its code can be checked. -/
def Remembers (b : TotpUse) (s : TotpState) : Prop :=
  30000 * (b.counter + 3) ≤ s.clock ∨
  (keyText "totp-replay" b.replayScope ∈ texts ∧ ∃ c ∈ s.tables.challenges,
    c.key = authChallengeKey env.hash "totp-replay" b.replayScope ∧
      b.counter ≤ castBigint (c.payload.getD "-1") ∧ 30000 * (b.counter + 3) ≤ c.expiresAt)

variable {env generateTOTPCode texts} {s : TotpState} {a : TotpAction}

/-- What an action does to the challenges: it uses a counter, or spares the rows that remember
them. -/
theorem challenges_step (hinj : Set.InjOn env.hash texts) (hs : Sound env texts s)
    (ha : Timely generateTOTPCode texts s a) :
    (s.used env a = [] ∧ Spares env.hash texts a.now s.drawn s.tables.challenges
      (s.step env a).tables.challenges) ∨
    ∃ checkedAt input, a.event.use = some (checkedAt, input) ∧
      s.used env a = [⟨input.replayScope, input.counter⟩] ∧
      keyText "totp-replay" input.replayScope ∈ texts ∧
      Uses env.hash texts a.now s.drawn input s.tables.challenges
        (s.step env a).tables.challenges := by
  cases hrun : a.event.run env a.now s.drawn s.tables with
  | none =>
    left
    rw [step, commit_of_none hrun]
    refine ⟨?_, Spares.refl _⟩
    unfold used
    split
    · rw [hrun]
      rfl
    · rfl
  | some t' =>
    have hstep : (s.step env a).tables = t' := commit_of_some hrun
    rw [hstep]
    obtain ⟨now, commitsAt, event⟩ := a
    have hused : ∀ checkedAt input, event.use = some (checkedAt, input) →
        s.used env ⟨now, commitsAt, event⟩ = [⟨input.replayScope, input.counter⟩] := by
      intro checkedAt input huse
      simp only [used, huse, hrun, isSome_some, if_true]
    have hhashed := ha.hashed
    have hkind := ha.kind
    cases event with
    | verify checkedAt factorId input =>
      exact .inr ⟨checkedAt, input, rfl, hused _ _ rfl, hhashed _ mem_cons_self,
        uses_verifyMfaFactorWithTotpCounter hs.unique hs.stamped hrun⟩
    | complete checkedAt ticket input =>
      have hscope := hhashed _ (mem_cons_of_mem _ mem_cons_self)
      exact .inr ⟨checkedAt, input, rfl, hused _ _ rfl, hscope,
        uses_completeMfaTotpChallenge hinj hs.unique hs.stamped hs.rows
          (hhashed _ mem_cons_self) hscope hrun⟩
    | issue input =>
      exact .inl ⟨rfl, spares_issueAuthChallenge hinj (hkind _ rfl) (hhashed _ mem_cons_self)
        hrun⟩
    | recordFailure kind lookupKey =>
      obtain rfl := some.inj hrun
      exact .inl ⟨rfl, spares_recordAuthChallengeFailure (hkind _ rfl)⟩
    | consume kind lookupKey =>
      obtain rfl := some.inj hrun
      exact .inl ⟨rfl, spares_consumeAuthChallenge (hkind _ rfl)⟩
    | recover ticket userId recoveryCodeId =>
      exact .inl ⟨rfl, spares_completeMfaRecoveryChallenge hinj hs.stamped
        (hhashed _ mem_cons_self) hrun⟩
    | emailUpgrade input =>
      exact .inl ⟨rfl, spares_finalizeAnonymousEmailUpgrade hinj (hhashed _ mem_cons_self)
        hrun⟩
    | phoneUpgrade input => exact .inl ⟨rfl, spares_finalizeAnonymousPhoneUpgrade hrun⟩

theorem Sound.step (hinj : Set.InjOn env.hash texts) (hs : Sound env texts s)
    (ha : Timely generateTOTPCode texts s a) : Sound env texts (s.step env a) := by
  have hstamped : Stamped (s.drawn + 1) s.tables.challenges := hs.stamped.mono (Nat.le_succ _)
  obtain ⟨-, h⟩ | ⟨_, _, -, -, -, -, cs, h, -, -, h'⟩ := challenges_step hinj hs ha
  · exact ⟨h.unique hs.unique, h.stamped hstamped, h.replayRows hs.rows⟩
  · exact ⟨h'.unique (unique_recordTotp (h.unique hs.unique)),
      h'.stamped (stamped_recordTotp (h.stamped hstamped)),
      h'.replayRows (replayRows_recordTotp (h.replayRows hs.rows))⟩

/-- A code whose counter is not above another one cannot be used any more, three steps after that. -/
theorem lt_of_late {checkedAt counter counter' commitsAt : Int}
    (hwindow : totpStep checkedAt - 1 ≤ counter') (hcommit : commitsAt < checkedAt + 30000)
    (hlate : 30000 * (counter + 3) ≤ commitsAt) : counter < counter' := by
  unfold totpStep at hwindow
  omega

theorem late_le_expiry {checkedAt counter now : Int} (hwindow : counter ≤ totpStep checkedAt + 1)
    (hnow : checkedAt ≤ now) : 30000 * (counter + 3) ≤ now + 120000 := by
  unfold totpStep at hwindow
  omega

variable (hinj : Set.InjOn env.hash texts)
include hinj

theorem remembers_of_used (hs : Sound env texts s)
    (ha : Timely generateTOTPCode texts s a) {b : TotpUse} (hb : b ∈ s.used env a) :
    Remembers env texts b (s.step env a) := by
  obtain ⟨hnone, -⟩ | ⟨checkedAt, input, huse, hused, htext, hcounter, cs, h, -, hrow, h'⟩ :=
    challenges_step hinj hs ha
  · rw [hnone] at hb
    cases hb
  · rw [hused] at hb
    obtain rfl := mem_singleton.1 hb
    obtain ⟨⟨secret, code, hcode⟩, hchecked, -⟩ := ha.use checkedAt input huse
    obtain ⟨-, hwindow⟩ := verifyTOTPWithCounter_window hcode
    obtain ⟨c, hc, hkey, hpayload, hexpires⟩ := hrow
    have hkept := h'.kept (replayRows_recordTotp (h.replayRows hs.rows)) c hc ⟨_, htext, hkey⟩
    refine .inr ⟨htext, c, hkept.resolve_right (by omega), hkey, ?_, ?_⟩
    · rw [hpayload, getD_some, castBigint_toString hcounter]
    · rw [hexpires]
      exact late_le_expiry hwindow hchecked

theorem Remembers.step (hs : Sound env texts s)
    (ha : Timely generateTOTPCode texts s a) {b : TotpUse} (hb : Remembers env texts b s) :
    Remembers env texts b (s.step env a) := by
  obtain hlate | ⟨htext, c, hc, hkey, hcounter, hexpires⟩ := hb
  · exact .inl (hlate.trans ha.clock)
  have hreplay : c.IsReplay env.hash texts := ⟨_, htext, hkey⟩
  -- a row that has expired is not needed any more
  have hexpired : c.expiresAt ≤ a.now → Remembers env texts b (s.step env a) := fun h =>
    .inl ((hexpires.trans h).trans ha.now)
  obtain ⟨-, h⟩ | ⟨checkedAt, input, huse, -, -, hinput, cs, h, houtdated, -, h'⟩ :=
    challenges_step hinj hs ha
  · exact (h.kept hs.rows c hc hreplay).elim
      (fun hc => .inr ⟨htext, c, hc, hkey, hcounter, hexpires⟩) hexpired
  · have hrows := h.replayRows hs.rows
    refine (h.kept hs.rows c hc hreplay).elim (fun hc => ?_) hexpired
    by_cases hsame : c.key = (input.record env.hash a.now s.drawn).key
    · refine (houtdated c hc hsame).elim hexpired fun hlower => ?_
      -- the row takes over the higher counter
      have hrenewed : (input.record env.hash a.now s.drawn).renew c ∈
          recordTotp env.hash a.now s.drawn input cs :=
        mem_upsert_of hc ⟨hsame, .inr hlower⟩
      obtain ⟨⟨secret, code, hcode⟩, hchecked, -⟩ := ha.use checkedAt input huse
      obtain ⟨-, hwindow⟩ := verifyTOTPWithCounter_window hcode
      have hkept := h'.kept (replayRows_recordTotp hrows) _ hrenewed ⟨_, htext, hkey⟩
      refine .inr ⟨htext, _, hkept.resolve_right ?_, hkey, ?_, ?_⟩
      · simp only [Challenge.renew, TotpInput.record]
        omega
      · simp only [Challenge.renew, TotpInput.record, getD_some]
        rw [castBigint_toString hinput]
        exact hcounter.trans hlower.le
      · have hbound := late_le_expiry hwindow hchecked
        simp only [Challenge.renew, TotpInput.record]
        omega
    · have hstays : c ∈ recordTotp env.hash a.now s.drawn input cs :=
        mem_upsert_of_not hc fun hupdate => hsame hupdate.1
      exact (h'.kept (replayRows_recordTotp hrows) c hstays hreplay).elim
        (fun hc => .inr ⟨htext, c, hc, hkey, hcounter, hexpires⟩) hexpired

theorem lt_of_used (hs : Sound env texts s)
    (ha : Timely generateTOTPCode texts s a) {b b' : TotpUse} (hb : Remembers env texts b s)
    (hb' : b' ∈ s.used env a) (hscope : b.replayScope = b'.replayScope) : b.counter < b'.counter := by
  obtain ⟨hnone, -⟩ | ⟨checkedAt, input, huse, hused, htext, -, cs, h, houtdated, -, -⟩ :=
    challenges_step hinj hs ha
  · rw [hnone] at hb'
    cases hb'
  rw [hused] at hb'
  obtain rfl := mem_singleton.1 hb'
  obtain ⟨⟨secret, code, hcode⟩, -, hcommit⟩ := ha.use checkedAt input huse
  obtain ⟨hwindow, -⟩ := verifyTOTPWithCounter_window hcode
  obtain hlate | ⟨-, c, hc, hkey, hcounter, hexpires⟩ := hb
  · exact lt_of_late hwindow hcommit (hlate.trans ha.clock)
  have hexpired : c.expiresAt ≤ a.now → b.counter < input.counter := fun hexpired =>
    lt_of_late hwindow hcommit ((hexpires.trans hexpired).trans ha.now)
  have hsame : c.key = (input.record env.hash a.now s.drawn).key := by
    rw [hkey, hscope]
    rfl
  rcases h.kept hs.rows c hc ⟨_, htext, hsame⟩ with hc | hgone
  · exact (houtdated c hc hsame).elim hexpired hcounter.trans_lt
  · exact hexpired hgone

omit hinj

/-- From every sound state, in every run in which the clock moves forward and every code is used in
time: the counters of a scope increase in the order of their use, so none is used twice. -/
theorem singleUse (env : IdentityEnv) (generateTOTPCode : String → Int → String)
    {texts : Set String} (hinj : Set.InjOn env.hash texts) {s : TotpState}
    (hs : Sound env texts s) {actions : List TotpAction}
    (hactions : Runs.Along (step env) (Timely generateTOTPCode texts) s actions) :
    (Runs.log (step env) (used env) s actions).Pairwise
      (fun b b' => b.replayScope = b'.replayScope → b.counter < b'.counter) ∧
    (Runs.log (step env) (used env) s actions).Nodup := by
  have hincreasing : (Runs.log (step env) (used env) s actions).Pairwise
      (fun b b' => b.replayScope = b'.replayScope → b.counter < b'.counter) := by
    refine Runs.pairwise_log (I := Sound env texts) (J := Remembers env texts) hactions hs
      (fun s a hs ha => hs.step hinj ha) (fun s a hs ha => ?_)
      (fun s a hs ha b hb => remembers_of_used hinj hs ha hb)
      (fun s a b hs ha hb => hb.step hinj hs ha)
      fun s a b hs ha hb b' hb' hscope => lt_of_used hinj hs ha hb hb' hscope
    unfold used
    split
    · split
      · exact pairwise_singleton ..
      · exact .nil
    · exact .nil
  refine ⟨hincreasing, hincreasing.imp fun {b b'} hlt heq => ?_⟩
  have hself := hlt (by rw [heq])
  rw [heq] at hself
  exact lt_irrefl _ hself

/-! ### A replayed code -/

def totpEnv : IdentityEnv where
  hash := id
  stringify _ := ""
  textOf _ := ""
  toLowerCase := id

def twoTotpTickets : TotpState where
  tables :=
    { mfaFactors := [{ id := "f", userId := "u", secret := "s", verified := true }]
      challenges := [RecoveryState.plainTicket "t1" "u", RecoveryState.plainTicket "t2" "u"] }
  clock := 100

/-- A code that completes two sign-ins, and the next code. -/
def replayedCode : List TotpAction :=
  [⟨200, 210, .complete 190 "t1" ⟨"u", "u:f", 0⟩⟩, ⟨220, 230, .complete 215 "t2" ⟨"u", "u:f", 0⟩⟩,
    ⟨240, 250, .complete 235 "t2" ⟨"u", "u:f", 1⟩⟩]

def threeCodes (_ : String) (counter : Int) : String :=
  if counter = 0 then "000000" else if counter = 1 then "111111" else "222222"

theorem sound_twoTotpTickets : Sound totpEnv Set.univ twoTotpTickets := by
  have hkind : ∀ c ∈ twoTotpTickets.tables.challenges, c.consumptionId = none ∧
      ∃ ticket, c.key = authChallengeKey id "mfa-ticket" ticket := by
    intro c hc
    rcases mem_cons.1 hc with rfl | hc
    · exact ⟨rfl, "t1", rfl⟩
    · obtain rfl := mem_singleton.1 hc
      exact ⟨rfl, "t2", rfl⟩
  refine ⟨by decide +kernel, fun c hc k hk => ?_, fun c hc hreplay => ?_⟩
  · rw [(hkind c hc).1] at hk
    cases hk
  · obtain ⟨-, ticket, hticket⟩ := hkind c hc
    exact absurd hreplay
      (not_isReplay Function.injective_id.injOn (by decide) (Set.mem_univ _) hticket)

/-- The replayed code is refused, and the next one is taken. -/
theorem singleUse_replayedCode :
    (Runs.log (step totpEnv) (used totpEnv) twoTotpTickets replayedCode).Pairwise
      (fun b b' => b.replayScope = b'.replayScope → b.counter < b'.counter) ∧
    (Runs.log (step totpEnv) (used totpEnv) twoTotpTickets replayedCode).Nodup := by
  refine singleUse totpEnv threeCodes Function.injective_id.injOn
    sound_twoTotpTickets ⟨⟨by decide, by decide, ?_, nofun, fun _ _ => Set.mem_univ _⟩,
      ⟨by decide, by decide, ?_, nofun, fun _ _ => Set.mem_univ _⟩,
      ⟨by decide, by decide, ?_, nofun, fun _ _ => Set.mem_univ _⟩, trivial⟩
  · rintro _ _ ⟨⟩
    exact ⟨⟨"s", "000000", by decide⟩, by decide, by decide⟩
  · rintro _ _ ⟨⟩
    exact ⟨⟨"s", "000000", by decide⟩, by decide, by decide⟩
  · rintro _ _ ⟨⟩
    exact ⟨⟨"s", "111111", by decide⟩, by decide, by decide⟩

example : Runs.log (step totpEnv) (used totpEnv) twoTotpTickets replayedCode =
    [⟨"u:f", 0⟩, ⟨"u:f", 1⟩] := by decide +kernel

end TotpState

end Auth

end EdgeBase
