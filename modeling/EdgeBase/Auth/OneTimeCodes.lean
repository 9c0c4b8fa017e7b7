import EdgeBase.Auth.Identities

/-!
# One-time codes

The route that verifies a code reads the challenge, compares the code, and then counts a failure or
consumes the challenge.  Each of these is a statement of its own: guesses that arrive together read
the same number of attempts, and a code that is issued in between takes the place of the one that was
compared.

* `OtpPhase` : where a request of the route waits; `OtpPhase.proceed` is its next turn.
-/

namespace EdgeBase

open List

namespace Auth

/-- What the route computes: `hashAuthSecret` and `verifyPhoneCodeWithActiveSecrets`. -/
structure OtpEnv where
  hash : String → String
  verifies : String → String → Bool

/-- Where a request waits for its next turn.  A code that was compared is known by the number of its
issue. -/
inductive OtpPhase where
  /-- At `getAuthChallenge`. -/
  | read (code : String)
  /-- At `recordAuthChallengeFailure`. -/
  | recordFailure (generation : ℕ)
  /-- At `consumeAuthChallenge`. -/
  | consume (generation : ℕ)
  deriving DecidableEq

def OtpPhase.compared : OtpPhase → Option ℕ
  | .read _ => none
  | .recordFailure generation => some generation
  | .consume generation => some generation

def OtpPhase.matched : OtpPhase → Bool
  | .consume _ => true
  | _ => false

section Route

variable (env : OtpEnv) (kind lookupKey : String) (now : Int)

/-- `!!otpData.secretHash && await verify…(submittedCode, otpData.secretHash)`. -/
def OtpEnv.otpMatches (code : String) (otpData : Challenge) : Bool :=
  match filled otpData.secretHash with
  | some secretHash => env.verifies (trimText code) secretHash
  | none => false

/-- The challenge that a request compares its code with: one that is live and has attempts left. -/
def readOtp (t : Tables) : Option Challenge :=
  (getAuthChallenge env.hash now kind lookupKey t).filter fun otpData =>
    ¬otpData.attempts ≥ otpData.maxAttempts

/-- One turn of a request at a time: the tables after it, and where the request waits then, unless
it is answered. -/
def OtpPhase.proceed (generation : ℕ) (t : Tables) : OtpPhase → Tables × Option OtpPhase
  | .read code =>
    match readOtp env kind lookupKey now t with
    | none => (t, none)
    | some otpData =>
      (t, some (if env.otpMatches code otpData then .consume generation
        else .recordFailure generation))
  | .recordFailure _ => ((recordAuthChallengeFailure env.hash now kind lookupKey t).2, none)
  | .consume _ => ((consumeAuthChallenge env.hash now kind lookupKey t).2, none)

end Route

/-- The database, the time, the number of the last issue, the guesses that were compared with its
code, and the requests that wait. -/
structure OtpState where
  tables : Tables
  clock : Int
  generation : ℕ := 0
  guesses : ℕ := 0
  requests : List (ℕ × OtpPhase) := []
  deriving DecidableEq

inductive OtpAction where
  | verify (r : ℕ) (code : String)
  | turn (r : ℕ) (now : Int)
  | issue (now : Int) (input : IssueAuthChallengeInput)
  deriving DecidableEq

def OtpAction.now : OtpAction → Option Int
  | .verify _ _ => none
  | .turn _ now => some now
  | .issue now _ => some now

def OtpAction.issues : OtpAction → Bool
  | .issue _ _ => true
  | _ => false

namespace OtpState

variable (env : OtpEnv) (kind lookupKey : String)

/-- What follows an action.  A number is of one request at a time. -/
def step (s : OtpState) : OtpAction → OtpState
  | .verify r code =>
    match s.requests.lookup r with
    | some _ => s
    | none => { s with requests := (r, .read code) :: s.requests }
  | .turn r now =>
    match s.requests.lookup r with
    | none => { s with clock := now }
    | some phase =>
      let next := phase.proceed env kind lookupKey now s.generation s.tables
      { s with
        tables := next.1
        clock := now
        guesses := if next.2.isSome then s.guesses + 1 else s.guesses
        requests := (next.2.map fun p => (r, p)).toList ++ s.requests.filter (·.1 ≠ r) }
  | .issue now input =>
    match issueAuthChallenge env.hash now { input with kind, lookupKey } s.tables with
    | none => { s with clock := now }
    | some tables =>
      { s with tables, clock := now, generation := s.generation + 1, guesses := 0 }

/-- The challenge that an action compares a guess with. -/
def compares (s : OtpState) : OtpAction → Option Challenge
  | .turn r now =>
    match s.requests.lookup r with
    | some (.read _) => readOtp env kind lookupKey now s.tables
    | _ => none
  | _ => none

/-- The issue that a verification had compared, when an action makes it succeed. -/
def succeeds (s : OtpState) : OtpAction → Option ℕ
  | .turn r now =>
    match s.requests.lookup r with
    | some (.consume generation) =>
      (consumeAuthChallenge env.hash now kind lookupKey s.tables).1.map fun _ => generation
    | _ => none
  | _ => none

/-- No guess exceeds the limit of its code, and a verification that succeeds consumes the code that
it compared, which is the last one issued. -/
structure Limited (s : OtpState) (a : OtpAction) : Prop where
  guesses : ∀ otpData ∈ s.compares env kind lookupKey a, s.guesses + 1 ≤ otpData.maxAttempts
  consumed : ∀ generation ∈ s.succeeds env kind lookupKey a, generation = s.generation

/-- The requests that have compared the code of an issue. -/
def waitingFor (generation : ℕ) (requests : List (ℕ × OtpPhase)) : ℕ :=
  requests.countP fun x => x.2.compared = some generation

/-- The requests that have compared the last code, and have not counted a failure or consumed it. -/
def waiting (s : OtpState) : ℕ := waitingFor s.generation s.requests

/-- The clock does not go back; a guess is compared when the failures and the guesses that wait leave
an attempt; and no code is issued while a request waits that has the last one right. -/
structure Orderly (s : OtpState) (a : OtpAction) : Prop where
  clock : ∀ now ∈ a.now, s.clock ≤ now
  attempts : ∀ otpData ∈ s.compares env kind lookupKey a,
    otpData.attempts + s.waiting < otpData.maxAttempts
  issues : a.issues = true → ∀ x ∈ s.requests, x.2.matched = false

instance (s : OtpState) (a : OtpAction) : Decidable (Limited env kind lookupKey s a) :=
  decidable_of_iff
    ((∀ otpData ∈ s.compares env kind lookupKey a, s.guesses + 1 ≤ otpData.maxAttempts) ∧
      ∀ generation ∈ s.succeeds env kind lookupKey a, generation = s.generation)
    ⟨fun h => ⟨h.1, h.2⟩, fun h => ⟨h.guesses, h.consumed⟩⟩

instance (s : OtpState) (a : OtpAction) : Decidable (Orderly env kind lookupKey s a) :=
  decidable_of_iff
    ((∀ now ∈ a.now, s.clock ≤ now) ∧
      (∀ otpData ∈ s.compares env kind lookupKey a,
        otpData.attempts + s.waiting < otpData.maxAttempts) ∧
      (a.issues = true → ∀ x ∈ s.requests, x.2.matched = false))
    ⟨fun h => ⟨h.1, h.2.1, h.2.2⟩, fun h => ⟨h.clock, h.attempts, h.issues⟩⟩

/-- What holds along an orderly run. -/
structure Sound (s : OtpState) : Prop where
  unique : Table.Unique Challenge.key s.tables.challenges
  requests : (s.requests.map Prod.fst).Nodup
  consumes : ∀ x ∈ s.requests, ∀ generation, x.2 = .consume generation → generation = s.generation
  guesses : ∀ c ∈ s.tables.challenges,
    c.Usable s.clock (authChallengeKey env.hash kind lookupKey) kind →
      s.guesses ≤ c.attempts + s.waiting

variable {env kind lookupKey} {s : OtpState} {a : OtpAction}

theorem usable_of_readOtp {now : Int} {t : Tables} {otpData : Challenge}
    (h : readOtp env kind lookupKey now t = some otpData) : otpData ∈ t.challenges ∧
      otpData.Usable now (authChallengeKey env.hash kind lookupKey) kind := by
  obtain ⟨hget, hattempts⟩ := Option.filter_eq_some_iff.1 h
  have hlive := List.find?_some hget
  exact ⟨List.mem_of_find?_eq_some hget, by simpa using hlive, by simpa using hattempts⟩

theorem usable_of_le {now now' : Int} {key : String} {c : Challenge} (h : c.Usable now' key kind)
    (hle : now ≤ now') : c.Usable now key kind :=
  ⟨⟨h.1.1, h.1.2.1, h.1.2.2.1, hle.trans_lt h.1.2.2.2⟩, h.2⟩

theorem limited_step (hs : Sound env kind lookupKey s) (ha : Orderly env kind lookupKey s a) :
    Limited env kind lookupKey s a where
  guesses otpData hcompares := by
    have hattempts := ha.attempts otpData hcompares
    unfold compares at hcompares
    split at hcompares
    · next r now =>
      split at hcompares
      · obtain ⟨hmem, husable⟩ := usable_of_readOtp hcompares
        have hguesses := hs.guesses otpData hmem
          (usable_of_le husable (ha.clock now rfl))
        omega
      · cases hcompares
    · cases hcompares
  consumed generation hsucceeds := by
    unfold succeeds at hsucceeds
    split at hsucceeds
    · next r now =>
      split at hsucceeds
      · next g hphase =>
        obtain ⟨_, -, rfl⟩ := Option.map_eq_some_iff.1 hsucceeds
        exact hs.consumes (r, .consume g) (Assoc.mem_of_lookup hphase) g rfl
      · cases hsucceeds
    · cases hsucceeds

/-- The turn of a request, by what it does: it compares nothing, or compares a guess, or counts a
failure, or consumes the challenge. -/
theorem proceed_cases (env : OtpEnv) (kind lookupKey : String) (now : Int) (generation : ℕ)
    (t : Tables) (phase : OtpPhase) :
    (phase.compared = none ∧ phase.proceed env kind lookupKey now generation t = (t, none)) ∨
    (∃ p : OtpPhase, p.compared = some generation ∧ phase.compared = none ∧
      phase.proceed env kind lookupKey now generation t = (t, some p)) ∨
    phase.proceed env kind lookupKey now generation t =
      ((recordAuthChallengeFailure env.hash now kind lookupKey t).2, none) ∨
    phase.proceed env kind lookupKey now generation t =
      ((consumeAuthChallenge env.hash now kind lookupKey t).2, none) := by
  cases phase with
  | read code =>
    simp only [OtpPhase.proceed]
    split
    · exact .inl ⟨rfl, rfl⟩
    · refine .inr (.inl ⟨_, ?_, rfl, rfl⟩)
      split <;> rfl
  | recordFailure g => exact .inr (.inr (.inl rfl))
  | consume g => exact .inr (.inr (.inr rfl))

/-- The requests that wait after the turn of one: the others, and the one if it waits again. -/
theorem waiting_turn (hs : Sound env kind lookupKey s) {r : ℕ} {phase : OtpPhase}
    (hphase : s.requests.lookup r = some phase) :
    s.waiting = waitingFor s.generation (s.requests.filter (·.1 ≠ r)) +
      if phase.compared = some s.generation then 1 else 0 := by
  rw [waiting, waitingFor, Assoc.countP_filter_ne hs.requests (Assoc.mem_of_lookup hphase)]
  simp [waitingFor]

theorem Sound.step (hs : Sound env kind lookupKey s) (ha : Orderly env kind lookupKey s a) :
    Sound env kind lookupKey (s.step env kind lookupKey a) := by
  cases a with
  | verify r code =>
    simp only [OtpState.step]
    split
    · exact hs
    · next hnone =>
      exact
        { unique := hs.unique
          requests := by
            refine nodup_cons.2 ⟨fun hr => ?_, hs.requests⟩
            obtain ⟨x, hx, rfl⟩ := mem_map.1 hr
            simpa using lookup_eq_none_iff.1 hnone x hx
          consumes := fun x hx generation hconsume => by
            rcases mem_cons.1 hx with rfl | hx
            · cases hconsume
            · exact hs.consumes x hx generation hconsume
          guesses := hs.guesses }
  | issue now input =>
    simp only [OtpState.step]
    split
    · exact
        { hs with
          guesses := fun c hc husable =>
            hs.guesses c hc (usable_of_le husable (ha.clock now rfl)) }
    · next tables hissued =>
      exact
        { unique := by
            rw [challenges_issueAuthChallenge hissued]
            refine Table.Unique.append ((hs.unique.delete.delete).delete) fun c hc => ?_
            exact (Table.mem_delete.1 hc).2
          requests := hs.requests
          consumes := fun x hx generation hconsume => by
            have hmatched := ha.issues rfl x hx
            rw [hconsume] at hmatched
            cases hmatched
          guesses := fun c hc husable => Nat.zero_le _ }
  | turn r now =>
    have hclock : s.clock ≤ now := ha.clock now rfl
    simp only [OtpState.step]
    split
    · exact
        { hs with
          guesses := fun c hc husable => hs.guesses c hc (usable_of_le husable hclock) }
    · next phase hphase =>
      have hwaiting := waiting_turn hs hphase
      have hrequests : ((s.requests.filter (·.1 ≠ r)).map Prod.fst).Nodup :=
        hs.requests.sublist (filter_sublist.map _)
      have hconsumes : ∀ x ∈ s.requests.filter (·.1 ≠ r), ∀ generation,
          x.2 = .consume generation → generation = s.generation := fun x hx =>
        hs.consumes x (mem_of_mem_filter hx)
      obtain ⟨hcompared, heq⟩ | ⟨p, hp, hcompared, heq⟩ | heq | heq :=
        proceed_cases env kind lookupKey now s.generation s.tables phase
      · rw [hcompared, if_neg (by simp), Nat.add_zero] at hwaiting
        rw [heq]
        exact
          { unique := hs.unique
            requests := hrequests
            consumes := hconsumes
            guesses := fun c hc husable => by
              change s.guesses ≤ c.attempts + waitingFor s.generation (s.requests.filter (·.1 ≠ r))
              rw [← hwaiting]
              exact hs.guesses c hc (usable_of_le husable hclock) }
      · -- one guess more, and one request more that waits
        rw [hcompared, if_neg (by simp), Nat.add_zero] at hwaiting
        rw [heq]
        exact
          { unique := hs.unique
            requests := nodup_cons.2 ⟨fun hr => by simp at hr, hrequests⟩
            consumes := fun x hx generation hconsume => by
              rcases mem_cons.1 hx with rfl | hx
              · obtain rfl : p = .consume generation := hconsume
                exact Option.some.inj hp
              · exact hconsumes x hx generation hconsume
            guesses := fun c hc husable => by
              have hguesses := hs.guesses c hc (usable_of_le husable hclock)
              change s.guesses + 1 ≤ c.attempts +
                waitingFor s.generation ((r, p) :: s.requests.filter (·.1 ≠ r))
              rw [waitingFor, countP_cons, if_pos (decide_eq_true hp), ← waitingFor,
                ← hwaiting]
              omega }
      · rw [heq]
        exact
          { unique := hs.unique.update fun _ _ => rfl
            requests := hrequests
            consumes := hconsumes
            guesses := fun c hc husable => by
              obtain ⟨-, hnot⟩ | ⟨x, hx, hxusable, rfl⟩ := Table.mem_update_cases hc
              · exact absurd husable hnot
              · -- the failure takes the place of the request that counted it
                have hguesses := hs.guesses x hx (usable_of_le hxusable hclock)
                have hone : (if phase.compared = some s.generation then 1 else 0) ≤ 1 := by
                  split <;> simp
                change s.guesses ≤ x.attempts + 1 +
                  waitingFor s.generation (s.requests.filter (·.1 ≠ r))
                omega }
      · rw [heq]
        exact
          { unique := hs.unique.delete
            requests := hrequests
            consumes := hconsumes
            guesses := fun c hc husable => absurd husable (Table.mem_delete.1 hc).2 }

/-- From every sound state: in every orderly run the guesses at a code stay within its limit, and a
verification consumes the code that it compared. -/
theorem limited_run (env : OtpEnv) (kind lookupKey : String) {s : OtpState}
    (hs : Sound env kind lookupKey s) {actions : List OtpAction}
    (hactions : Runs.Along (step env kind lookupKey) (Orderly env kind lookupKey) s actions) :
    Runs.Along (step env kind lookupKey) (Limited env kind lookupKey) s actions :=
  (hactions.of_invariant (I := Sound env kind lookupKey) hs (fun _ _ hs ha => hs.step ha)
    fun _ _ hs ha => limited_step hs ha).1

/-! ### Guesses at once, and a code that is issued in between -/

def plainOtp : OtpEnv where
  hash := id
  verifies code secretHash := code = secretHash

def noCodes : OtpState where
  tables := {}
  clock := 0

def issueCode (now : Int) (secret : String) : OtpAction :=
  .issue now { kind := "", lookupKey := "", secretHash := some secret, maxAttempts := some 5 }

def wrongThenRight : List OtpAction :=
  [issueCode 0 "123456", .verify 1 "000000", .turn 1 10, .turn 1 20, .verify 2 "123456", .turn 2 30,
    .turn 2 40]

theorem sound_noCodes : Sound plainOtp "phone-otp" "+1" noCodes :=
  ⟨nodup_nil, nodup_nil, forall_mem_nil _, forall_mem_nil _⟩

theorem limited_wrongThenRight :
    Runs.Along (step plainOtp "phone-otp" "+1") (Limited plainOtp "phone-otp" "+1") noCodes
      wrongThenRight :=
  limited_run plainOtp "phone-otp" "+1" sound_noCodes (by decide +kernel)

def guessesAtOnce : List OtpAction :=
  issueCode 0 "123456" ::
    ([1, 2, 3, 4, 5, 6].map (.verify · "000000") ++ [1, 2, 3, 4, 5, 6].map (.turn · 10))

/-- A code that is issued after the one before was compared. -/
def issuedBetween : List OtpAction :=
  [issueCode 0 "123456", .verify 1 "123456", .turn 1 10, issueCode 20 "654321", .turn 1 30]

/-- Six guesses are compared with a code of five attempts; and a verification consumes a code that it
did not compare. -/
theorem codes_not_limited : Sound plainOtp "phone-otp" "+1" noCodes ∧
    ¬Runs.Along (step plainOtp "phone-otp" "+1") (Limited plainOtp "phone-otp" "+1") noCodes
      guessesAtOnce ∧
    ¬Runs.Along (step plainOtp "phone-otp" "+1") (Limited plainOtp "phone-otp" "+1") noCodes
      issuedBetween :=
  ⟨sound_noCodes, by decide +kernel, by decide +kernel⟩

end OtpState

end Auth

end EdgeBase
