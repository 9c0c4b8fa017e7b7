import EdgeBase.Auth.Challenges

/-!
# Recovery codes

A sign-in with a recovery code reads the unused codes of the user, and completes later, in one
transaction.  Its guard asks that the ticket was consumed here, but only that the code is used.

* `completeMfaRecoveryChallenge` : the transaction; `completeMfaRecoveryChallenge_eq_some_iff` says
  when it commits.
-/

namespace EdgeBase

open List Batch

namespace Auth

def RecoveryCode.use (code : RecoveryCode) : RecoveryCode := { code with used := true }

def listRecoveryCodes (userId : String) (t : Tables) : List RecoveryCode :=
  t.recoveryCodes.filter fun code => code.userId = userId ∧ code.used = false

def RecoveryCode.Unused (recoveryCodeId userId : String) (code : RecoveryCode) : Prop :=
  code.id = recoveryCodeId ∧ code.userId = userId ∧ code.used = false

instance (recoveryCodeId userId : String) : DecidablePred (RecoveryCode.Unused recoveryCodeId userId) :=
  fun _ => inferInstanceAs (Decidable (_ ∧ _ ∧ _))

def RecoveryCode.Used (recoveryCodeId userId : String) (code : RecoveryCode) : Prop :=
  code.id = recoveryCodeId ∧ code.userId = userId ∧ code.used = true

instance (recoveryCodeId userId : String) : DecidablePred (RecoveryCode.Used recoveryCodeId userId) :=
  fun _ => inferInstanceAs (Decidable (_ ∧ _ ∧ _))

/-- `completeMfaRecoveryChallenge`; `none` when it throws. -/
def completeMfaRecoveryChallenge (hash : String → String) (now : Int) (attemptId : Uuid)
    (ticket userId recoveryCodeId : String) : Batch.Statement Tables :=
  let ticketKey := authChallengeKey hash "mfa-ticket" ticket
  Batch.run
    [ .write fun t => { t with
        challenges := stampTicket hash now attemptId ticket userId t.challenges },
      .write fun t => { t with
        recoveryCodes := Table.update
          (fun code => code.Unused recoveryCodeId userId ∧
            ∃ c ∈ t.challenges, c.key = ticketKey ∧ c.consumptionId = some attemptId)
          RecoveryCode.use t.recoveryCodes },
      .guard fun t =>
        (∃ c ∈ t.challenges, c.key = ticketKey ∧ c.userId = some userId ∧
          c.consumptionId = some attemptId) ∧
        ∃ code ∈ t.recoveryCodes, code.Used recoveryCodeId userId,
      .write fun t => { t with challenges := dropTicket hash attemptId ticket t.challenges } ]

/-! ### The transaction -/

/-- The tables after a transaction that commits: the code is used, and the ticket is gone. -/
def recovered (hash : String → String) (now : Int) (attemptId : Uuid)
    (ticket userId recoveryCodeId : String) (t : Tables) : Tables :=
  { t with
    challenges := dropTicket hash attemptId ticket
      (stampTicket hash now attemptId ticket userId t.challenges)
    recoveryCodes := Table.update (RecoveryCode.Unused recoveryCodeId userId) RecoveryCode.use
      t.recoveryCodes }

/-- The transaction commits when the ticket is live and the user has the code, used or not. -/
theorem completeMfaRecoveryChallenge_eq_some_iff {hash : String → String} {now : Int} {n : Uuid}
    {ticket userId recoveryCodeId : String} {t t' : Tables} (ht : Stamped n t.challenges) :
    completeMfaRecoveryChallenge hash now n ticket userId recoveryCodeId t = some t' ↔
      TicketLive hash now ticket userId t ∧
      ((∃ code ∈ t.recoveryCodes, code.Unused recoveryCodeId userId) ∨
        ∃ code ∈ t.recoveryCodes, code.Used recoveryCodeId userId) ∧
      recovered hash now n ticket userId recoveryCodeId t = t' := by
  have hticket := exists_stamped hash now ticket userId ht
    (fun c => c.key = authChallengeKey hash "mfa-ticket" ticket ∧ c.consumptionId = some n)
    (fun c hc => hc.2) fun c hc => ⟨hc.1.1.1, rfl⟩
  have howned := exists_stamped hash now ticket userId ht
    (fun c => c.key = authChallengeKey hash "mfa-ticket" ticket ∧ c.userId = some userId ∧
      c.consumptionId = some n) (fun c hc => hc.2.2) fun c hc => ⟨hc.1.1.1, hc.2, rfl⟩
  unfold completeMfaRecoveryChallenge
  simp only [run_write, run_guard_eq_some, run_nil, hticket, howned,
    Option.some.injEq, and_assoc]
  refine and_congr_right fun hlive => ?_
  simp only [hlive, and_true]
  refine and_congr ?_ Iff.rfl
  rw [Table.exists_mem_update]
  constructor
  · rintro (⟨code, hcode, hunused, -⟩ | ⟨code, hcode, -, hused⟩)
    · exact .inl ⟨code, hcode, hunused⟩
    · exact .inr ⟨code, hcode, hused⟩
  · rintro (⟨code, hcode, hunused⟩ | ⟨code, hcode, hused⟩)
    · exact .inl ⟨code, hcode, hunused, hunused.1, hunused.2.1, rfl⟩
    · exact .inr ⟨code, hcode, fun h => Bool.false_ne_true (h.2.2.symm.trans hused.2.2), hused⟩

/-! ### Requests -/

/-- What the route computes: `hashAuthSecret` and `verifyRecoveryCode`. -/
structure RecoveryEnv where
  hash : String → String
  verifies : String → String → Bool

/-- Where a request of the route waits for its next turn. -/
inductive RecoveryPhase where
  /-- At `getAuthChallenge`. -/
  | findTicket (ticket code : String)
  /-- At `getUserById`. -/
  | loadUser (ticket code userId : String)
  /-- At `listRecoveryCodes`. -/
  | listCodes (ticket code userId : String)
  /-- At `recordAuthChallengeFailure`. -/
  | recordFailure (ticket : String)
  /-- At `completeMfaRecoveryChallenge`. -/
  | complete (ticket userId recoveryCodeId : String)
  deriving DecidableEq

/-- One turn of a request at a time: the tables after it, and where the request waits then, unless
it is answered. -/
def RecoveryPhase.proceed (env : RecoveryEnv) (now : Int) (attemptId : Uuid) (t : Tables) :
    RecoveryPhase → Tables × Option RecoveryPhase
  | .findTicket ticket code =>
    match (getAuthChallenge env.hash now "mfa-ticket" ticket t).bind Challenge.userId with
    | none | some "" => (t, none)
    | some userId => (t, some (.loadUser ticket code userId))
  | .loadUser ticket code userId =>
    match getUserById userId t with
    | none => (t, none)
    | some user => (t, if user.flag "disabled" then none else some (.listCodes ticket code userId))
  | .listCodes ticket code userId =>
    match listRecoveryCodes userId t with
    | [] => (t, none)
    | codes =>
      match codes.find? fun row => env.verifies code row.codeHash with
      | none => (t, some (.recordFailure ticket))
      | some row => (t, some (.complete ticket userId row.id))
  | .recordFailure ticket => ((recordAuthChallengeFailure env.hash now "mfa-ticket" ticket t).2, none)
  | .complete ticket userId recoveryCodeId =>
    (Batch.commit
      (completeMfaRecoveryChallenge env.hash now attemptId ticket userId recoveryCodeId) t, none)

/-- The database, the number of random ids drawn, and the requests that wait. -/
structure RecoveryState where
  tables : Tables
  drawn : Uuid := 0
  requests : List (ℕ × RecoveryPhase) := []
  deriving DecidableEq

inductive RecoveryAction where
  | signIn (r : ℕ) (ticket code : String)
  | turn (r : ℕ) (now : Int)
  /-- Another route issues a challenge, such as the ticket of a sign-in. -/
  | issue (now : Int) (input : IssueAuthChallengeInput)
  deriving DecidableEq

/-- A sign-in that was completed, and whether its code was unused when the transaction started. -/
structure Recovery where
  recoveryCodeId : String
  userId : String
  wasUnused : Bool
  deriving DecidableEq

namespace RecoveryState

variable (env : RecoveryEnv)

/-- What follows an action.  A number is of one request at a time. -/
def step (s : RecoveryState) : RecoveryAction → RecoveryState
  | .signIn r ticket code =>
    match s.requests.lookup r with
    | some _ => s
    | none => { s with requests := (r, .findTicket ticket code) :: s.requests }
  | .turn r now =>
    match s.requests.lookup r with
    | none => s
    | some phase =>
      let next := phase.proceed env now s.drawn s.tables
      { tables := next.1
        drawn := s.drawn + 1
        requests := (next.2.map fun p => (r, p)).toList ++ s.requests.filter (·.1 ≠ r) }
  | .issue now input =>
    { s with tables := Batch.commit (issueAuthChallenge env.hash now input) s.tables }

def completed (s : RecoveryState) : RecoveryAction → List Recovery
  | .turn r now =>
    match s.requests.lookup r with
    | some (.complete ticket userId recoveryCodeId) =>
      if (completeMfaRecoveryChallenge env.hash now s.drawn ticket userId recoveryCodeId
          s.tables).isSome then
        [{ recoveryCodeId, userId
           wasUnused := ∃ code ∈ s.tables.recoveryCodes, code.Unused recoveryCodeId userId }]
      else []
    | _ => []
  | _ => []

/-- A run starts with unique codes and with no id that is still to be drawn. -/
structure Sound (s : RecoveryState) : Prop where
  codes : Table.Unique RecoveryCode.id s.tables.recoveryCodes
  stamped : Stamped s.drawn s.tables.challenges

/-- Every code completes one sign-in at most, and only when it was unused. -/
def SingleUse (s : RecoveryState) (actions : List RecoveryAction) : Prop :=
  (Runs.log (step env) (completed env) s actions).Pairwise
      (fun a b => a.recoveryCodeId ≠ b.recoveryCodeId) ∧
    ∀ a ∈ Runs.log (step env) (completed env) s actions, a.wasUnused = true

/-- An action is not the turn of a request with a live ticket whose code was used since it was
read. -/
def Fresh (s : RecoveryState) : RecoveryAction → Prop
  | .turn r now =>
    match s.requests.lookup r with
    | some (.complete ticket userId recoveryCodeId) =>
      TicketLive env.hash now ticket userId s.tables →
        ∀ code ∈ s.tables.recoveryCodes, ¬code.Used recoveryCodeId userId
    | _ => True
  | _ => True

instance : DecidablePred (Fresh env s) := fun a => by
  unfold Fresh
  split
  · split <;> infer_instance
  · infer_instance

variable {env} {s : RecoveryState} {a : RecoveryAction}

theorem proceed_cases (env : RecoveryEnv) (phase : RecoveryPhase) (now : Int) (n : Uuid) (t : Tables) :
    (phase.proceed env now n t).1 = t ∨
    (∃ ticket, (phase.proceed env now n t).1 =
      (recordAuthChallengeFailure env.hash now "mfa-ticket" ticket t).2) ∨
    ∃ ticket userId recoveryCodeId, phase = .complete ticket userId recoveryCodeId ∧
      (phase.proceed env now n t).1 = Batch.commit
        (completeMfaRecoveryChallenge env.hash now n ticket userId recoveryCodeId) t := by
  cases phase with
  | findTicket ticket code =>
    left
    simp only [RecoveryPhase.proceed]
    split <;> rfl
  | loadUser ticket code userId =>
    left
    simp only [RecoveryPhase.proceed]
    split <;> rfl
  | listCodes ticket code userId =>
    left
    simp only [RecoveryPhase.proceed]
    split
    · rfl
    · split <;> rfl
  | recordFailure ticket => exact .inr (.inl ⟨ticket, rfl⟩)
  | complete ticket userId recoveryCodeId => exact .inr (.inr ⟨_, _, _, rfl, rfl⟩)

theorem recoveryCodes_step (env : RecoveryEnv) (hs : s.Sound) (a : RecoveryAction) :
    (s.step env a).tables.recoveryCodes = s.tables.recoveryCodes ∨
    ∃ recoveryCodeId userId, (s.step env a).tables.recoveryCodes =
      Table.update (RecoveryCode.Unused recoveryCodeId userId) RecoveryCode.use
        s.tables.recoveryCodes := by
  cases a with
  | signIn r ticket code =>
    left
    simp only [step]
    split <;> rfl
  | issue now input =>
    left
    exact commit_keeps
      (I := fun t : Tables => t.recoveryCodes = s.tables.recoveryCodes) rfl
      fun t' h => (congrArg Tables.recoveryCodes (mem_issueAuthChallenge h).1).trans rfl
  | turn r now =>
    simp only [step]
    split
    · exact .inl rfl
    · next phase _ =>
      obtain heq | ⟨ticket, heq⟩ | ⟨ticket, userId, recoveryCodeId, -, heq⟩ :=
        proceed_cases env phase now s.drawn s.tables
      · exact .inl (by rw [heq])
      · exact .inl (by rw [heq]; rfl)
      · dsimp only
        rw [heq]
        refine commit_keeps (I := fun t : Tables => t.recoveryCodes =
            s.tables.recoveryCodes ∨ ∃ recoveryCodeId userId, t.recoveryCodes = Table.update
              (RecoveryCode.Unused recoveryCodeId userId) RecoveryCode.use s.tables.recoveryCodes)
          (.inl rfl) fun t' h => .inr ⟨recoveryCodeId, userId, ?_⟩
        obtain ⟨-, -, rfl⟩ := (completeMfaRecoveryChallenge_eq_some_iff hs.stamped).1 h
        rfl

theorem Sound.step (hs : s.Sound) (a : RecoveryAction) : (s.step env a).Sound where
  codes := by
    obtain heq | ⟨recoveryCodeId, userId, heq⟩ := recoveryCodes_step env hs a
    · rw [heq]
      exact hs.codes
    · rw [heq]
      exact hs.codes.update fun _ _ => rfl
  stamped := by
    cases a with
    | signIn r ticket code =>
      simp only [RecoveryState.step]
      split <;> exact hs.stamped
    | issue now input =>
      exact commit_keeps (I := fun t : Tables => Stamped s.drawn t.challenges) hs.stamped
        fun t' h => hs.stamped.issueAuthChallenge h
    | turn r now =>
      simp only [RecoveryState.step]
      split
      · exact hs.stamped
      · next phase _ =>
        have hnext : Stamped (s.drawn + 1) s.tables.challenges := hs.stamped.mono (Nat.le_succ _)
        obtain heq | ⟨ticket, heq⟩ | ⟨ticket, userId, recoveryCodeId, -, heq⟩ :=
          proceed_cases env phase now s.drawn s.tables
        · dsimp only
          rwa [heq]
        · dsimp only
          rw [heq]
          exact hnext.recordFailure
        · dsimp only
          rw [heq]
          refine commit_keeps (I := fun t : Tables => Stamped (s.drawn + 1) t.challenges)
            hnext fun t' h => ?_
          obtain ⟨-, -, rfl⟩ := (completeMfaRecoveryChallenge_eq_some_iff hs.stamped).1 h
          exact hs.stamped.dropTicket

theorem used_step (hs : s.Sound) {recoveryCodeId : String}
    (hused : ∀ code ∈ s.tables.recoveryCodes, code.id = recoveryCodeId → code.used = true)
    (a : RecoveryAction) :
    ∀ code ∈ (s.step env a).tables.recoveryCodes, code.id = recoveryCodeId → code.used = true := by
  intro code hcode hid
  obtain heq | ⟨_, _, heq⟩ := recoveryCodes_step env hs a
  · exact hused code (heq ▸ hcode) hid
  · rw [heq] at hcode
    obtain ⟨hcode, -⟩ | ⟨_, -, -, rfl⟩ := Table.mem_update_cases hcode
    · exact hused code hcode hid
    · rfl

theorem mem_completed {b : Recovery} (hs : s.Sound) (hb : b ∈ s.completed env a) :
    ∃ r now ticket, a = .turn r now ∧
      s.requests.lookup r = some (.complete ticket b.userId b.recoveryCodeId) ∧
      TicketLive env.hash now ticket b.userId s.tables ∧
      (b.wasUnused = true ↔ ∃ code ∈ s.tables.recoveryCodes, code.Unused b.recoveryCodeId b.userId) ∧
      ((∃ code ∈ s.tables.recoveryCodes, code.Unused b.recoveryCodeId b.userId) ∨
        ∃ code ∈ s.tables.recoveryCodes, code.Used b.recoveryCodeId b.userId) ∧
      (s.step env a).tables =
        recovered env.hash now s.drawn ticket b.userId b.recoveryCodeId s.tables := by
  unfold completed at hb
  split at hb
  · next r now =>
    split at hb
    · next ticket userId recoveryCodeId hphase =>
      split at hb
      · next hsome =>
        obtain rfl := mem_singleton.1 hb
        obtain ⟨t', ht'⟩ := Option.isSome_iff_exists.1 hsome
        obtain ⟨hlive, hcode, htables⟩ :=
          (completeMfaRecoveryChallenge_eq_some_iff hs.stamped).1 ht'
        refine ⟨r, now, ticket, rfl, hphase, hlive, decide_eq_true_iff, hcode, ?_⟩
        simp only [step, hphase, RecoveryPhase.proceed]
        rw [commit_of_some ht', htables]
      · cases hb
    · cases hb
  · cases hb

theorem completed_of_live (hs : s.Sound) {r : ℕ} {now : Int} {ticket userId recoveryCodeId : String}
    (hphase : s.requests.lookup r = some (.complete ticket userId recoveryCodeId))
    (hlive : TicketLive env.hash now ticket userId s.tables) {code : RecoveryCode}
    (hcode : code ∈ s.tables.recoveryCodes) (hused : code.Used recoveryCodeId userId) :
    ∃ b ∈ s.completed env (.turn r now), b.wasUnused = false := by
  have hok := (completeMfaRecoveryChallenge_eq_some_iff (n := s.drawn) hs.stamped).2
    ⟨hlive, .inr ⟨code, hcode, hused⟩, rfl⟩
  have hnot : ¬∃ x ∈ s.tables.recoveryCodes, x.Unused recoveryCodeId userId := by
    rintro ⟨x, hx, hid, huser, hunused⟩
    obtain rfl := hs.codes.eq_of_key hx hcode (hid.trans hused.1.symm)
    exact Bool.false_ne_true (hunused.symm.trans hused.2.2)
  simp only [completed, hphase, hok, Option.isSome_some, if_true]
  exact ⟨_, mem_singleton_self _, decide_eq_false hnot⟩

/-- From every sound state: a run keeps the codes to a single use exactly when no turn meets a
live ticket and a code that was used since the request had read it. -/
theorem singleUse_iff (env : RecoveryEnv) {s : RecoveryState} (hs : s.Sound)
    (actions : List RecoveryAction) :
    SingleUse env s actions ↔ Runs.Along (step env) (Fresh env) s actions := by
  constructor
  · rintro ⟨-, hunused⟩
    induction actions generalizing s with
    | nil => trivial
    | cons a actions ih =>
      refine ⟨?_, ih (hs.step a) fun b hb => hunused b (mem_append_right _ hb)⟩
      cases a with
      | turn r now =>
        simp only [Fresh]
        split
        · next ticket userId recoveryCodeId hphase =>
          intro hlive code hcode hused
          obtain ⟨b, hb, hnot⟩ := completed_of_live hs hphase hlive hcode hused
          exact Bool.false_ne_true (hnot.symm.trans (hunused b (mem_append_left _ hb)))
        · trivial
      | _ => trivial
  · intro hfresh
    -- a code that completed a sign-in is used from then on
    have hown : ∀ s a, Sound s → Fresh env s a → ∀ b ∈ s.completed env a,
        ∃ code ∈ s.tables.recoveryCodes, code.Unused b.recoveryCodeId b.userId := by
      intro s a hs hfresh b hb
      obtain ⟨r, now, ticket, rfl, hphase, hlive, -, hcode, -⟩ := mem_completed hs hb
      simp only [Fresh, hphase] at hfresh
      exact hcode.resolve_right fun ⟨code, hcode, hused⟩ => hfresh hlive code hcode hused
    constructor
    · refine Runs.pairwise_log (I := Sound) (J := fun b s => ∀ code ∈ s.tables.recoveryCodes,
          code.id = b.recoveryCodeId → code.used = true) hfresh hs (fun s a hs _ => hs.step a)
        (fun s a hs _ => ?_) (fun s a hs hf b hb code hcode hid => ?_)
        (fun s a b hs _ hJ => used_step hs hJ a) fun s a b hs hf hJ b' hb' heq => ?_
      · unfold completed
        split
        · split
          · split
            · exact pairwise_singleton ..
            · exact .nil
          · exact .nil
        · exact .nil
      · obtain ⟨x, hx, hxid, hxuser, hxused⟩ := hown s a hs hf b hb
        obtain ⟨r, now, ticket, -, -, -, -, -, htables⟩ := mem_completed hs hb
        rw [htables] at hcode
        obtain ⟨hcode, hnot⟩ | ⟨_, -, -, rfl⟩ := Table.mem_update_cases hcode
        · obtain rfl := hs.codes.eq_of_key hcode hx (hid.trans hxid.symm)
          exact absurd ⟨hxid, hxuser, hxused⟩ hnot
        · rfl
      · obtain ⟨code, hcode, hid, -, hunused⟩ := hown s a hs hf b' hb'
        exact Bool.false_ne_true (hunused.symm.trans (hJ code hcode (hid.trans heq.symm)))
    · refine Runs.forall_log (I := Sound) hfresh hs (fun s a hs _ => hs.step a)
        fun s a hs hf b hb => ?_
      obtain ⟨_, _, _, -, -, -, hiff, -⟩ := mem_completed hs hb
      exact hiff.2 (hown s a hs hf b hb)

/-! ### Two tickets and one code -/

def plainEnv : RecoveryEnv where
  hash := id
  verifies code codeHash := code = codeHash

def plainTicket (ticket userId : String) : Challenge where
  key := authChallengeKey id "mfa-ticket" ticket
  kind := "mfa-ticket"
  userId := some userId
  maxAttempts := 5
  expiresAt := 1000
  createdAt := 0

def twoTickets : RecoveryState where
  tables :=
    { users := [{ id := "u", updatedAt := 0 }]
      recoveryCodes := [{ id := "c", userId := "u", codeHash := "x" }]
      challenges := [plainTicket "t1" "u", plainTicket "t2" "u"] }

/-- Two sign-ins read the code before one of them completes. -/
def twoRecoveries : List RecoveryAction :=
  [.signIn 1 "t1" "x", .signIn 2 "t2" "x", .turn 1 10, .turn 1 10, .turn 1 10, .turn 2 20,
    .turn 2 20, .turn 2 20, .turn 1 30, .turn 2 40]

theorem sound_twoTickets : twoTickets.Sound := by
  refine ⟨nodup_singleton _, fun c hc id hid => ?_⟩
  rcases mem_cons.1 hc with rfl | hc
  · cases hid
  · obtain rfl := mem_singleton.1 hc
    cases hid

/-- As long as one of them completes, the code is used once. -/
theorem singleUse_of_first : SingleUse plainEnv twoTickets (twoRecoveries.take 9) :=
  (singleUse_iff plainEnv sound_twoTickets _).2 (by decide +kernel)

theorem twoRecoveries_not_singleUse : twoTickets.Sound ∧
    Runs.log (step plainEnv) (completed plainEnv) twoTickets twoRecoveries =
      [⟨"c", "u", true⟩, ⟨"c", "u", false⟩] ∧
    ¬SingleUse plainEnv twoTickets twoRecoveries := by
  have hlog : Runs.log (step plainEnv) (completed plainEnv) twoTickets twoRecoveries =
      [⟨"c", "u", true⟩, ⟨"c", "u", false⟩] := by decide +kernel
  refine ⟨sound_twoTickets, hlog, fun h => ?_⟩
  have hunused := h.2 ⟨"c", "u", false⟩ (by rw [hlog]; simp)
  exact Bool.false_ne_true hunused

end RecoveryState

end Auth

end EdgeBase
