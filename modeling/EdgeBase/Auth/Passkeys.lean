import EdgeBase.Auth.Tables

/-!
# Passkey assertions

An assertion consumes its challenge and advances the counter of its credential in one transaction.
The guard asks that the counter has the new value, whoever gave it that value.

* `completePasskeyAuthentication` : the transaction; `completePasskeyAuthentication_eq_some_iff`
  says when it commits.
-/

namespace EdgeBase

namespace Auth

structure CompletePasskeyAuthenticationInput where
  challenge : String
  credentialId : String
  userId : String
  expectedCounter : Int
  newCounter : Int
  deriving DecidableEq

/-- The range of `assertWebAuthnCounter`. -/
def webAuthnCounter (value : Int) : Prop := 0 ≤ value ∧ value ≤ 0xffffffff

instance : DecidablePred webAuthnCounter := fun _ => inferInstanceAs (Decidable (_ ∧ _))

/-- A challenge that is not consumed and has time left. -/
def WebAuthnChallenge.Live (now : Int) (challenge kind : String) (c : WebAuthnChallenge) : Prop :=
  c.challenge = challenge ∧ c.kind = kind ∧ c.consumptionId = none ∧ now < c.expiresAt

instance (now : Int) (challenge kind : String) :
    DecidablePred (WebAuthnChallenge.Live now challenge kind) :=
  fun _ => inferInstanceAs (Decidable (_ ∧ _ ∧ _ ∧ _))

def getWebAuthnChallenge (now : Int) (challenge kind : String) (t : Tables) :
    Option WebAuthnChallenge :=
  t.webauthnChallenges.find? (WebAuthnChallenge.Live now challenge kind ·)

def WebAuthnChallenge.OpenTo (userId : String) (c : WebAuthnChallenge) : Prop :=
  c.userId = none ∨ c.userId = some userId

instance (userId : String) : DecidablePred (WebAuthnChallenge.OpenTo userId) :=
  fun _ => inferInstanceAs (Decidable (_ ∨ _))

def Credential.Counts (credentialId userId : String) (counter : Int) (c : Credential) : Prop :=
  c.credentialId = credentialId ∧ c.userId = userId ∧ c.counter = counter

instance (credentialId userId : String) (counter : Int) :
    DecidablePred (Credential.Counts credentialId userId counter) :=
  fun _ => inferInstanceAs (Decidable (_ ∧ _ ∧ _))

section Complete

variable (now : Int) (consumptionId : Uuid) (input : CompletePasskeyAuthenticationInput)

def consumeWebAuthnChallenge (challenges : List WebAuthnChallenge) : List WebAuthnChallenge :=
  Table.update (fun c => c.Live now input.challenge "authentication" ∧ c.OpenTo input.userId)
    (fun c => { c with consumptionId := some consumptionId }) challenges

/-- `completePasskeyAuthentication`; `none` when it throws. -/
def completePasskeyAuthentication : Batch.Statement Tables := fun t =>
  if ¬webAuthnCounter input.expectedCounter ∨ ¬webAuthnCounter input.newCounter then none
  else Batch.run
    [ .write fun t => { t with
        webauthnChallenges :=
          consumeWebAuthnChallenge now consumptionId input t.webauthnChallenges },
      .write fun t => { t with
        credentials := Table.update
          (fun c => c.Counts input.credentialId input.userId input.expectedCounter ∧
            ∃ x ∈ t.webauthnChallenges,
              x.challenge = input.challenge ∧ x.consumptionId = some consumptionId)
          (fun c => { c with counter := input.newCounter }) t.credentials },
      .guard fun t =>
        (∃ x ∈ t.webauthnChallenges,
          x.challenge = input.challenge ∧ x.consumptionId = some consumptionId) ∧
        ∃ c ∈ t.credentials, c.Counts input.credentialId input.userId input.newCounter,
      .write fun t => { t with
        webauthnChallenges := Table.delete
          (fun x => x.challenge = input.challenge ∧ x.consumptionId = some consumptionId)
          t.webauthnChallenges } ] t

def ChallengeLive (t : Tables) : Prop :=
  ∃ c ∈ t.webauthnChallenges,
    c.Live now input.challenge "authentication" ∧ c.OpenTo input.userId

instance (t : Tables) : Decidable (ChallengeLive now input t) :=
  inferInstanceAs (Decidable (∃ _ ∈ _, _))

/-- The stored counter of the user's credential has a value. -/
def HasCounter (counter : Int) (t : Tables) : Prop :=
  ∃ c ∈ t.credentials, c.Counts input.credentialId input.userId counter

instance (counter : Int) (t : Tables) : Decidable (HasCounter input counter t) :=
  inferInstanceAs (Decidable (∃ _ ∈ _, _))

/-- The tables after a transaction that commits. -/
def asserted (t : Tables) : Tables :=
  { t with
    webauthnChallenges := Table.delete
      (fun x => x.challenge = input.challenge ∧ x.consumptionId = some consumptionId)
      (consumeWebAuthnChallenge now consumptionId input t.webauthnChallenges)
    credentials := Table.update
      (Credential.Counts input.credentialId input.userId input.expectedCounter)
      (fun c => { c with counter := input.newCounter }) t.credentials }

variable {now consumptionId input} {t t' : Tables}

/-- The transaction commits when the challenge is live and the counter has the expected value, or
has the new one already. -/
theorem completePasskeyAuthentication_eq_some_iff
    (ht : Drawn WebAuthnChallenge.consumptionId consumptionId t.webauthnChallenges) :
    completePasskeyAuthentication now consumptionId input t = some t' ↔
      webAuthnCounter input.expectedCounter ∧ webAuthnCounter input.newCounter ∧
      ChallengeLive now input t ∧
      (HasCounter input input.expectedCounter t ∨ HasCounter input input.newCounter t) ∧
      asserted now consumptionId input t = t' := by
  have hlive : (∃ x ∈ consumeWebAuthnChallenge now consumptionId input t.webauthnChallenges,
      x.challenge = input.challenge ∧ x.consumptionId = some consumptionId) ↔
        ChallengeLive now input t := by
    rw [consumeWebAuthnChallenge, Table.exists_marked fun x hx hmark => ht.fresh x hx hmark.2]
    exact exists_congr fun x => and_congr_right fun _ =>
      and_iff_left_of_imp fun hx => ⟨hx.1.1, rfl⟩
  unfold completePasskeyAuthentication
  by_cases hrange : ¬webAuthnCounter input.expectedCounter ∨ ¬webAuthnCounter input.newCounter
  · rw [if_pos hrange]
    exact ⟨nofun, fun h => absurd hrange (by tauto)⟩
  rw [if_neg hrange]
  obtain ⟨hexpected, hnew⟩ : webAuthnCounter input.expectedCounter ∧
      webAuthnCounter input.newCounter := by tauto
  simp only [Batch.run_write, Batch.run_guard_eq_some, Batch.run_nil, hlive, Option.some.injEq,
    and_assoc, hexpected, hnew, true_and]
  refine and_congr_right fun hchallenge => ?_
  simp only [hchallenge, and_true]
  refine and_congr ?_ Iff.rfl
  rw [Table.exists_mem_update]
  constructor
  · rintro (⟨c, hc, hcounts, -⟩ | ⟨c, hc, -, hcounts⟩)
    · exact .inl ⟨c, hc, hcounts⟩
    · exact .inr ⟨c, hc, hcounts⟩
  · rintro (⟨c, hc, hcounts⟩ | ⟨c, hc, hcounts⟩)
    · exact .inl ⟨c, hc, hcounts, hcounts.1, hcounts.2.1, rfl⟩
    · by_cases hsame : c.Counts input.credentialId input.userId input.expectedCounter
      · exact .inl ⟨c, hc, hsame, hsame.1, hsame.2.1, rfl⟩
      · exact .inr ⟨c, hc, hsame, hcounts⟩

end Complete

/-! ### Runs -/

/-- The database, and the number of random ids drawn. -/
structure PasskeyState where
  tables : Tables
  drawn : Uuid := 0
  deriving DecidableEq

structure PasskeyCall where
  now : Int
  input : CompletePasskeyAuthenticationInput
  deriving DecidableEq

/-- A call that returned, and the state in which its transaction started. -/
structure Assertion where
  call : PasskeyCall
  before : Tables
  deriving DecidableEq

/-- An assertion met a live challenge that was open to its user, and the counter it expected. -/
def Assertion.Swapped (a : Assertion) : Prop :=
  (∃ c, getWebAuthnChallenge a.call.now a.call.input.challenge "authentication" a.before = some c ∧
    c.OpenTo a.call.input.userId) ∧
  HasCounter a.call.input a.call.input.expectedCounter a.before

/-- Two assertions of one credential do not advance the same counter. -/
def Assertion.Apart (a b : Assertion) : Prop :=
  a.call.input.credentialId = b.call.input.credentialId →
    a.call.input.expectedCounter < a.call.input.newCounter →
      a.call.input.expectedCounter ≠ b.call.input.expectedCounter

namespace PasskeyState

def step (s : PasskeyState) (call : PasskeyCall) : PasskeyState where
  tables := Batch.commit (completePasskeyAuthentication call.now s.drawn call.input) s.tables
  drawn := s.drawn + 1

def returned (s : PasskeyState) (call : PasskeyCall) : List Assertion :=
  if (completePasskeyAuthentication call.now s.drawn call.input s.tables).isSome then
    [{ call, before := s.tables }]
  else []

/-- A run starts with unique challenges and credentials, and with no id that is still to be drawn. -/
structure Sound (s : PasskeyState) : Prop where
  challenges : Table.Unique WebAuthnChallenge.challenge s.tables.webauthnChallenges
  credentials : Table.Unique Credential.credentialId s.tables.credentials
  drawn : Drawn WebAuthnChallenge.consumptionId s.drawn s.tables.webauthnChallenges

/-- Every assertion swapped the counter that it expected; and so no two assertions advance the same
counter, if no call asks for a lower one. -/
def SwapsCounters (s : PasskeyState) (calls : List PasskeyCall) : Prop :=
  (∀ a ∈ Runs.log step returned s calls, a.Swapped) ∧
    ((∀ call ∈ calls, call.input.expectedCounter ≤ call.input.newCounter) →
      (Runs.log step returned s calls).Pairwise Assertion.Apart)

/-- A call that has a live challenge does not find the new counter in the place of the expected
one. -/
def Unanticipated (s : PasskeyState) (call : PasskeyCall) : Prop :=
  webAuthnCounter call.input.expectedCounter → webAuthnCounter call.input.newCounter →
    ChallengeLive call.now call.input s.tables → HasCounter call.input call.input.newCounter s.tables →
      HasCounter call.input call.input.expectedCounter s.tables

instance (s : PasskeyState) : DecidablePred s.Unanticipated :=
  fun _ => inferInstanceAs (Decidable (_ → _ → _ → _ → _))

variable {s : PasskeyState} {call : PasskeyCall}

theorem tables_step (hs : s.Sound) (call : PasskeyCall) : (s.step call).tables = s.tables ∨
      (HasCounter call.input call.input.expectedCounter s.tables ∨
        HasCounter call.input call.input.newCounter s.tables) ∧
      (s.step call).tables = asserted call.now s.drawn call.input s.tables := by
  cases h : completePasskeyAuthentication call.now s.drawn call.input s.tables with
  | none => exact .inl (Batch.commit_of_none h)
  | some t' =>
    obtain ⟨-, -, -, hcounter, htables⟩ :=
      (completePasskeyAuthentication_eq_some_iff hs.drawn).1 h
    exact .inr ⟨hcounter, (Batch.commit_of_some h).trans htables.symm⟩

theorem Sound.step (hs : s.Sound) (call : PasskeyCall) : (s.step call).Sound := by
  obtain heq | ⟨-, heq⟩ := tables_step hs call
  · refine ⟨?_, ?_, ?_⟩
    · rw [heq]
      exact hs.challenges
    · rw [heq]
      exact hs.credentials
    · rw [heq]
      exact hs.drawn.mono (Nat.le_succ _)
  · have hunique : Table.Unique WebAuthnChallenge.challenge
        (consumeWebAuthnChallenge call.now s.drawn call.input s.tables.webauthnChallenges) :=
      hs.challenges.update fun _ _ => rfl
    have hconsumed : Drawn WebAuthnChallenge.consumptionId (s.drawn + 1)
        (consumeWebAuthnChallenge call.now s.drawn call.input s.tables.webauthnChallenges) :=
      hs.drawn.update fun c => .inr rfl
    refine ⟨?_, ?_, ?_⟩
    · rw [heq]
      exact hunique.delete
    · rw [heq]
      exact hs.credentials.update fun _ _ => rfl
    · rw [heq]
      exact hconsumed.of_subset (List.filter_subset_self _)

theorem mem_returned {a : Assertion} (hs : s.Sound) : a ∈ s.returned call ↔
    a = { call, before := s.tables } ∧
      webAuthnCounter call.input.expectedCounter ∧ webAuthnCounter call.input.newCounter ∧
      ChallengeLive call.now call.input s.tables ∧
      (HasCounter call.input call.input.expectedCounter s.tables ∨
        HasCounter call.input call.input.newCounter s.tables) := by
  have hsome : (completePasskeyAuthentication call.now s.drawn call.input s.tables).isSome = true ↔
      webAuthnCounter call.input.expectedCounter ∧ webAuthnCounter call.input.newCounter ∧
      ChallengeLive call.now call.input s.tables ∧
      (HasCounter call.input call.input.expectedCounter s.tables ∨
        HasCounter call.input call.input.newCounter s.tables) := by
    simp only [Option.isSome_iff_exists, completePasskeyAuthentication_eq_some_iff hs.drawn,
      exists_and_left, exists_eq', and_true]
  rw [← hsome]
  unfold returned
  split
  · next h => simp [h]
  · next h => simp [h]

theorem getWebAuthnChallenge_of_live (hs : s.Sound)
    (hlive : ChallengeLive call.now call.input s.tables) :
    ∃ c, getWebAuthnChallenge call.now call.input.challenge "authentication" s.tables = some c ∧
      c.OpenTo call.input.userId := by
  obtain ⟨c, hc, hclive, hopen⟩ := hlive
  cases hfind : getWebAuthnChallenge call.now call.input.challenge "authentication" s.tables with
  | none =>
    have hnot := List.find?_eq_none.1 hfind c hc
    exact absurd (decide_eq_true hclive) hnot
  | some x =>
    have hxlive : x.Live call.now call.input.challenge "authentication" := by
      simpa using List.find?_some hfind
    obtain rfl := hs.challenges.eq_of_key hc (List.mem_of_find?_eq_some hfind)
      (hclive.1.trans hxlive.1.symm)
    exact ⟨c, rfl, hopen⟩

theorem counters_step (hs : s.Sound) {credentialId : String} {bound : Int}
    (hbound : ∀ c ∈ s.tables.credentials, c.credentialId = credentialId → bound < c.counter)
    (hle : call.input.expectedCounter ≤ call.input.newCounter) :
    ∀ c ∈ (s.step call).tables.credentials, c.credentialId = credentialId → bound < c.counter := by
  intro c hc hid
  obtain heq | ⟨-, heq⟩ := tables_step hs call
  · exact hbound c (heq ▸ hc) hid
  · rw [heq] at hc
    obtain ⟨hc, -⟩ | ⟨x, hx, hcounts, rfl⟩ := Table.mem_update_cases hc
    · exact hbound c hc hid
    · have hx := hbound x hx hid
      rw [hcounts.2.2] at hx
      exact hx.trans_le hle

/-- From every sound state: the assertions of a run swap the counters that they expect exactly when
no call with a live challenge finds the new counter in the place of the expected one. -/
theorem swapsCounters_iff {s : PasskeyState} (hs : s.Sound) (calls : List PasskeyCall) :
    SwapsCounters s calls ↔ Runs.Along step Unanticipated s calls := by
  constructor
  · rintro ⟨hswapped, -⟩
    induction calls generalizing s with
    | nil => trivial
    | cons call calls ih =>
      refine ⟨fun hexpected hnew hlive hcounter => ?_,
        ih (hs.step call) fun a ha => hswapped a (List.mem_append_right _ ha)⟩
      exact (hswapped _ (List.mem_append_left _
        ((mem_returned hs).2 ⟨rfl, hexpected, hnew, hlive, .inr hcounter⟩))).2
  · intro halong
    have hexpected : ∀ s call, Sound s → Unanticipated s call → ∀ a ∈ s.returned call,
        a = { call, before := s.tables } ∧ ChallengeLive call.now call.input s.tables ∧
          HasCounter call.input call.input.expectedCounter s.tables := by
      intro s call hs hun a ha
      obtain ⟨rfl, hrange, hrange', hlive, hcounter⟩ := (mem_returned hs).1 ha
      exact ⟨rfl, hlive, hcounter.elim id (hun hrange hrange' hlive)⟩
    refine ⟨Runs.forall_log (I := Sound) halong hs (fun s call hs _ => hs.step call)
      fun s call hs hun a ha => ?_, fun hle => ?_⟩
    · obtain ⟨rfl, hlive, hcounter⟩ := hexpected s call hs hun a ha
      exact ⟨getWebAuthnChallenge_of_live hs hlive, hcounter⟩
    · -- after an assertion that advances it, the counter stays above the expected one
      refine Runs.pairwise_log (I := Sound)
        (J := fun a s => a.call.input.expectedCounter < a.call.input.newCounter →
          ∀ c ∈ s.tables.credentials, c.credentialId = a.call.input.credentialId →
            a.call.input.expectedCounter < c.counter)
        (halong.and_forall hle) hs (fun s call hs _ => hs.step call) (fun s call hs _ => ?_)
        (fun s call hs hun a ha hlt c hc hid => ?_)
        (fun s call a hs hun hJ hlt => counters_step hs (hJ hlt) hun.2)
        fun s call a hs hun hJ b hb hid hlt heq => ?_
      · unfold returned
        split
        · exact List.pairwise_singleton ..
        · exact .nil
      · obtain ⟨rfl, hlive, x, hx, hxid, hxuser, hxcounter⟩ := hexpected s call hs hun.1 a ha
        have htables : (s.step call).tables = asserted call.now s.drawn call.input s.tables := by
          obtain ⟨-, hrange, hrange', hlive, hcounter⟩ := (mem_returned hs).1 ha
          exact Batch.commit_of_some ((completePasskeyAuthentication_eq_some_iff hs.drawn).2
            ⟨hrange, hrange', hlive, hcounter, rfl⟩)
        rw [htables] at hc
        obtain ⟨hc, hnot⟩ | ⟨_, -, -, rfl⟩ := Table.mem_update_cases hc
        · obtain rfl := hs.credentials.eq_of_key hc hx (hid.trans hxid.symm)
          exact absurd ⟨hxid, hxuser, hxcounter⟩ hnot
        · exact hlt
      · obtain ⟨rfl, -, c, hc, hcid, -, hccounter⟩ := hexpected s call hs hun.1 b hb
        have hbelow := hJ hlt c hc (hcid.trans hid.symm)
        rw [hccounter, ← heq] at hbelow
        exact lt_irrefl _ hbelow

/-! ### A cloned authenticator -/

/-- A credential with counter 5 and two challenges that end at 1000. -/
def twoChallenges : PasskeyState where
  tables :=
    { credentials := [{ credentialId := "k", userId := "u", counter := 5 }]
      webauthnChallenges :=
        [{ challenge := "a", kind := "authentication", expiresAt := 1000 },
          { challenge := "b", kind := "authentication", expiresAt := 1000 }] }

theorem sound_twoChallenges : twoChallenges.Sound := by
  have hunique : (["a", "b"] : List String).Nodup := by decide
  refine ⟨hunique, List.nodup_singleton _, fun c hc id hid => ?_⟩
  rcases List.mem_cons.1 hc with rfl | hc
  · cases hid
  · obtain rfl := List.mem_singleton.1 hc
    cases hid

def advance (challenge : String) : PasskeyCall where
  now := 10
  input :=
    { challenge, credentialId := "k", userId := "u", expectedCounter := 5, newCounter := 6 }

theorem swapsCounters_of_one : SwapsCounters twoChallenges [advance "a"] :=
  (swapsCounters_iff sound_twoChallenges _).2 (by decide +kernel)

/-- The assertion of the clone, which read the same counter, returns as well. -/
theorem clone_not_swapsCounters : twoChallenges.Sound ∧
    (Runs.log step returned twoChallenges [advance "a", advance "b"]).map Assertion.call =
      [advance "a", advance "b"] ∧
    ¬SwapsCounters twoChallenges [advance "a", advance "b"] := by
  have hcalls : (Runs.log step returned twoChallenges [advance "a", advance "b"]).map
      Assertion.call = [advance "a", advance "b"] := by decide +kernel
  have hmem : (⟨advance "b", (twoChallenges.step (advance "a")).tables⟩ : Assertion) ∈
      Runs.log step returned twoChallenges [advance "a", advance "b"] := by decide +kernel
  have hcounter : ¬HasCounter (advance "b").input 5 (twoChallenges.step (advance "a")).tables := by
    decide +kernel
  exact ⟨sound_twoChallenges, hcalls, fun h => hcounter (h.1 _ hmem).2⟩

end PasskeyState

end Auth

end EdgeBase
