import EdgeBase.Auth.Tables

/-!
# One-time challenges

The challenges of `auth-d1-service.ts`: a code, a ticket or a token that was sent or handed out once
is a row of `_auth_challenges` until it is consumed, replaced or cleaned up.

* `issueAuthChallenge`, `getAuthChallenge`, `recordAuthChallengeFailure`, `consumeAuthChallenge` :
  its life.
-/

namespace EdgeBase

namespace Auth

/-- `authChallengeKey`, over `hashAuthSecret`. -/
def authChallengeKey (hash : String → String) (kind lookupKey : String) : String :=
  hash (kind ++ "\x00" ++ lookupKey)

def completionKinds : List String := ["phone-link-completion", "email-link-completion"]

/-- `IssueAuthChallengeInput`; a time to live that is no integer is out of range. -/
structure IssueAuthChallengeInput where
  kind : String
  lookupKey : String
  userId : Option String := none
  subject : Option String := none
  secretHash : Option String := none
  payload : Option String := none
  ttlSeconds : Option Int := none
  maxAttempts : Option Int := none
  replaceUserKind : Bool := false
  deriving DecidableEq

section Services

variable (hash : String → String) (now : Int)

/-- The rows that `issueAuthChallenge` cleans up. -/
def Challenge.Stale (c : Challenge) : Prop :=
  c.expiresAt ≤ now ∨ (c.consumedAt ≠ none ∧ c.kind ∉ completionKinds)

instance : DecidablePred (Challenge.Stale now) := fun _ => inferInstanceAs (Decidable (_ ∨ _))

def IssueAuthChallengeInput.challenge (input : IssueAuthChallengeInput) : Challenge where
  key := authChallengeKey hash input.kind input.lookupKey
  kind := input.kind
  userId := input.userId
  subject := input.subject
  secretHash := input.secretHash
  payload := input.payload
  maxAttempts := (input.maxAttempts.getD 5).toNat
  expiresAt := now + input.ttlSeconds.getD 300 * 1000
  createdAt := now

/-- The rows of the same kind that `replaceUserKind` removes. -/
def IssueAuthChallengeInput.Replaces (input : IssueAuthChallengeInput) (c : Challenge) : Prop :=
  input.replaceUserKind = true ∧ input.userId ≠ none ∧ input.userId ≠ some "" ∧
    c.userId = input.userId ∧ c.kind = input.kind

instance (input : IssueAuthChallengeInput) : DecidablePred input.Replaces :=
  fun _ => inferInstanceAs (Decidable (_ ∧ _ ∧ _ ∧ _ ∧ _))

/-- `issueAuthChallenge`; `none` when it throws. -/
def issueAuthChallenge (input : IssueAuthChallengeInput) (t : Tables) : Option Tables :=
  let ttlSeconds := input.ttlSeconds.getD 300
  let maxAttempts := input.maxAttempts.getD 5
  let issued := input.challenge hash now
  if ttlSeconds < 1 ∨ ttlSeconds > 604800 ∨ maxAttempts < 1 ∨ maxAttempts > 100 then none
  else Batch.run
    [ .write fun t => { t with challenges := Table.delete (Challenge.Stale now) t.challenges },
      .write fun t => { t with challenges := Table.delete input.Replaces t.challenges },
      .write fun t => { t with challenges := Table.delete (·.key = issued.key) t.challenges },
      .write fun t => { t with
        challenges := if t.challenges.length < 20000 then t.challenges ++ [issued]
          else t.challenges },
      .guard fun t => ∃ c ∈ t.challenges, c.key = issued.key ∧ c.kind = issued.kind ] t

/-- A challenge of a kind that is not consumed and has time left. -/
def Challenge.Live (key kind : String) (c : Challenge) : Prop :=
  c.key = key ∧ c.kind = kind ∧ c.consumedAt = none ∧ now < c.expiresAt

instance (key kind : String) : DecidablePred (Challenge.Live now key kind) :=
  fun _ => inferInstanceAs (Decidable (_ ∧ _ ∧ _ ∧ _))

def Challenge.Usable (key kind : String) (c : Challenge) : Prop :=
  c.Live now key kind ∧ c.attempts < c.maxAttempts

instance (key kind : String) : DecidablePred (Challenge.Usable now key kind) :=
  fun _ => inferInstanceAs (Decidable (_ ∧ _))

def getAuthChallenge (kind lookupKey : String) (t : Tables) : Option Challenge :=
  t.challenges.find? (Challenge.Live now (authChallengeKey hash kind lookupKey) kind ·)

def Challenge.fail (c : Challenge) : Challenge := { c with attempts := c.attempts + 1 }

/-- `recordAuthChallengeFailure`: the row that it changed, and the tables. -/
def recordAuthChallengeFailure (kind lookupKey : String) (t : Tables) : Option Challenge × Tables :=
  let usable := Challenge.Usable now (authChallengeKey hash kind lookupKey) kind
  ((t.challenges.find? (usable ·)).map Challenge.fail,
    { t with challenges := Table.update usable Challenge.fail t.challenges })

/-- `consumeAuthChallenge`: the row that it deleted, and the tables. -/
def consumeAuthChallenge (kind lookupKey : String) (t : Tables) : Option Challenge × Tables :=
  let usable := Challenge.Usable now (authChallengeKey hash kind lookupKey) kind
  (t.challenges.find? (usable ·), { t with challenges := Table.delete usable t.challenges })

end Services

/-! ### Random ids -/

/-- Every consumption of a challenge was drawn before `n`. -/
abbrev Stamped (n : Uuid) (challenges : List Challenge) : Prop :=
  Drawn Challenge.consumptionId n challenges

theorem Stamped.recordFailure {hash : String → String} {now : Int} {n : Uuid} {t : Tables}
    {kind lookupKey : String} (ht : Stamped n t.challenges) :
    Stamped n (recordAuthChallengeFailure hash now kind lookupKey t).2.challenges := by
  intro c hc id hid
  obtain ⟨hc, -⟩ | ⟨x, hx, -, rfl⟩ := Table.mem_update_cases hc
  · exact ht c hc id hid
  · exact ht x hx id hid

/-! ### Tickets -/

section Tickets

variable (hash : String → String) (now : Int) (attemptId : Uuid) (ticket userId : String)

/-- The ticket of a user, as long as it may be consumed. -/
def Challenge.Ticket (c : Challenge) : Prop :=
  c.Usable now (authChallengeKey hash "mfa-ticket" ticket) "mfa-ticket" ∧ c.userId = some userId

instance : DecidablePred (Challenge.Ticket hash now ticket userId) :=
  fun _ => inferInstanceAs (Decidable (_ ∧ _))

/-- The ticket of a user is consumed, and carries the id of the attempt. -/
def stampTicket (challenges : List Challenge) : List Challenge :=
  Table.update (Challenge.Ticket hash now ticket userId)
    (fun c => { c with consumedAt := some now, consumptionId := some attemptId }) challenges

/-- The ticket that an attempt consumed is deleted. -/
def dropTicket (challenges : List Challenge) : List Challenge :=
  Table.delete (fun c => c.key = authChallengeKey hash "mfa-ticket" ticket ∧
    c.consumptionId = some attemptId) challenges

def TicketLive (t : Tables) : Prop := ∃ c ∈ t.challenges, c.Ticket hash now ticket userId

instance (t : Tables) : Decidable (TicketLive hash now ticket userId t) :=
  inferInstanceAs (Decidable (∃ _ ∈ _, _))

variable {attemptId} {t : Tables}

theorem exists_stamped (ht : Stamped attemptId t.challenges) (q : Challenge → Prop)
    (hq : ∀ c, q c → c.consumptionId = some attemptId)
    (hticket : ∀ c : Challenge, c.Ticket hash now ticket userId →
      q { c with consumedAt := some now, consumptionId := some attemptId }) :
    (∃ c ∈ stampTicket hash now attemptId ticket userId t.challenges, q c) ↔
      TicketLive hash now ticket userId t := by
  rw [stampTicket, Table.exists_marked fun c hc hqc => ht.fresh c hc (hq c hqc)]
  exact exists_congr fun c => and_congr_right fun _ => and_iff_left_of_imp (hticket c)

variable {hash now ticket userId}

theorem Stamped.dropTicket (ht : Stamped attemptId t.challenges) :
    Stamped (attemptId + 1) (Auth.dropTicket hash attemptId ticket
      (stampTicket hash now attemptId ticket userId t.challenges)) := by
  have hstamped : Stamped (attemptId + 1)
      (stampTicket hash now attemptId ticket userId t.challenges) := ht.update fun c => .inr rfl
  exact hstamped.of_subset (List.filter_subset_self _)

end Tickets

/-! ### What is issued -/

theorem mem_issueAuthChallenge {hash : String → String} {now : Int}
    {input : IssueAuthChallengeInput} {t t' : Tables}
    (h : issueAuthChallenge hash now input t = some t') :
    t' = { t with challenges := t'.challenges } ∧ ∀ c ∈ t'.challenges,
      c = input.challenge hash now ∨
        (c ∈ t.challenges ∧ ¬c.Stale now ∧ ¬input.Replaces c ∧
          c.key ≠ (input.challenge hash now).key) := by
  unfold issueAuthChallenge at h
  dsimp only at h
  split at h
  · cases h
  simp only [Batch.run_write, Batch.run_guard_eq_some, Batch.run_nil, Option.some.injEq] at h
  obtain ⟨-, rfl⟩ := h
  refine ⟨rfl, fun c hc => ?_⟩
  have hkept : c ∈ Table.delete (·.key = (input.challenge hash now).key)
      (Table.delete input.Replaces (Table.delete (Challenge.Stale now) t.challenges)) →
        c ∈ t.challenges ∧ ¬c.Stale now ∧ ¬input.Replaces c ∧
          c.key ≠ (input.challenge hash now).key := by
    intro hc
    obtain ⟨hc, hkey⟩ := Table.mem_delete.1 hc
    obtain ⟨hc, hreplaces⟩ := Table.mem_delete.1 hc
    obtain ⟨hc, hstale⟩ := Table.mem_delete.1 hc
    exact ⟨hc, hstale, hreplaces, hkey⟩
  dsimp only at hc
  split at hc
  · rcases List.mem_append.1 hc with hc | hc
    · exact .inr (hkept hc)
    · exact .inl (List.mem_singleton.1 hc)
  · exact .inr (hkept hc)

theorem challenges_issueAuthChallenge {hash : String → String} {now : Int}
    {input : IssueAuthChallengeInput} {t t' : Tables}
    (h : issueAuthChallenge hash now input t = some t') :
    t'.challenges = Table.delete (·.key = (input.challenge hash now).key)
      (Table.delete input.Replaces (Table.delete (Challenge.Stale now) t.challenges)) ++
        [input.challenge hash now] := by
  unfold issueAuthChallenge at h
  dsimp only at h
  split at h
  · cases h
  simp only [Batch.run_write, Batch.run_guard_eq_some, Batch.run_nil, Option.some.injEq] at h
  obtain ⟨⟨c, hc, hkey, -⟩, rfl⟩ := h
  dsimp only at hc ⊢
  split at hc
  · next hcapacity => rw [if_pos hcapacity]
  · exact absurd hkey (Table.mem_delete.1 hc).2

theorem Stamped.issueAuthChallenge {hash : String → String} {now : Int} {n : Uuid}
    {input : IssueAuthChallengeInput} {t t' : Tables} (ht : Stamped n t.challenges)
    (h : Auth.issueAuthChallenge hash now input t = some t') : Stamped n t'.challenges := by
  intro c hc id hid
  obtain rfl | ⟨hc, -⟩ := (mem_issueAuthChallenge h).2 c hc
  · cases hid
  · exact ht c hc id hid

end Auth

end EdgeBase
