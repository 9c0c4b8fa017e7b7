import EdgeBase.Auth.Identities

/-!
# Identity finalisation

The transactions of `Auth.Identities` run one after the other, in any order.  One that throws leaves
the tables as they were; one that returns leaves what its guard asks for, and touches the rows of its
own user only.  The upgrade by email also drops the challenges that have expired, whoever they
belong to.

* `FinalizeCall` : the calls.
-/

namespace EdgeBase

open List Batch.Statement Table Batch

namespace Auth

/-! ### The rows of other users -/

/-- The rows of every other user are as they were, but for expired challenges; and the mutations in
`_users` were drawn before, or in this transaction. -/
structure Keeps (userId : String) (now : Int) (n : Uuid) (t t' : Tables) : Prop where
  users : t'.users.filter (·.id ≠ userId) = t.users.filter (·.id ≠ userId)
  drawn : Drawn UserRow.authMutationId (n + 1) t.users → Drawn UserRow.authMutationId (n + 1) t'.users
  sessions : t'.sessions.filter (·.userId ≠ userId) = t.sessions.filter (·.userId ≠ userId)
  emailIndex : t'.emailIndex.filter (·.userId ≠ userId) = t.emailIndex.filter (·.userId ≠ userId)
  phoneIndex : t'.phoneIndex.filter (·.userId ≠ userId) = t.phoneIndex.filter (·.userId ≠ userId)
  oauthIndex : t'.oauthIndex.filter (·.userId ≠ userId) = t.oauthIndex.filter (·.userId ≠ userId)
  oauthAccounts :
    t'.oauthAccounts.filter (·.userId ≠ userId) = t.oauthAccounts.filter (·.userId ≠ userId)
  anonIndex : t'.anonIndex.filter (· ≠ userId) = t.anonIndex.filter (· ≠ userId)
  challenges : t'.challenges.filter (fun c => c.userId ≠ some userId ∧ now < c.expiresAt) =
    t.challenges.filter fun c => c.userId ≠ some userId ∧ now < c.expiresAt
  swept : ∀ c ∈ t'.challenges, c.userId ≠ some userId → c ∈ t.challenges
  others : t' = { t with
    users := t'.users
    sessions := t'.sessions
    emailIndex := t'.emailIndex
    phoneIndex := t'.phoneIndex
    oauthIndex := t'.oauthIndex
    oauthAccounts := t'.oauthAccounts
    anonIndex := t'.anonIndex
    challenges := t'.challenges }

namespace Keeps

variable {userId : String} {now : Int} {n : Uuid} {t t' t'' : Tables}

theorem refl (t : Tables) : Keeps userId now n t t where
  users := rfl
  drawn := id
  sessions := rfl
  emailIndex := rfl
  phoneIndex := rfl
  oauthIndex := rfl
  oauthAccounts := rfl
  anonIndex := rfl
  challenges := rfl
  swept _ hc _ := hc
  others := rfl

theorem trans (h : Keeps userId now n t t') (h' : Keeps userId now n t' t'') :
    Keeps userId now n t t'' where
  users := h'.users.trans h.users
  drawn := h'.drawn ∘ h.drawn
  sessions := h'.sessions.trans h.sessions
  emailIndex := h'.emailIndex.trans h.emailIndex
  phoneIndex := h'.phoneIndex.trans h.phoneIndex
  oauthIndex := h'.oauthIndex.trans h.oauthIndex
  oauthAccounts := h'.oauthAccounts.trans h.oauthAccounts
  anonIndex := h'.anonIndex.trans h.anonIndex
  challenges := h'.challenges.trans h.challenges
  swept c hc hother := h.swept c (h'.swept c hc hother) hother
  others := by rw [h'.others, h.others]

theorem mutate {p : UserRow → Prop} [DecidablePred p] {columns : Row}
    (hp : ∀ u, p u → u.id = userId) : Keeps userId now n t { t with
      users := Table.update p (UserRow.mutate now n columns) t.users } :=
  { @refl userId now n t with
    users := filter_update fun u hu => by simp [UserRow.mutate, hp u hu]
    drawn := fun h u hu k hk => by
      obtain ⟨hu, -⟩ | ⟨x, -, -, rfl⟩ := mem_update_cases hu
      · exact h u hu k hk
      · obtain rfl := Option.some.inj hk
        exact Nat.lt_succ_self _
    others := rfl }

theorem create {u : UserRow} (hu : u.id = userId) (hnew : u.authMutationId = none) {c : Prop}
    [Decidable c] :
    Keeps userId now n t { t with users := if c then t.users ++ [u] else t.users } := by
  split
  · exact
      { @refl userId now n t with
        users := filter_append_singleton (by simp [hu])
        drawn := fun h x hx k hk => by
          rcases mem_append.1 hx with hx | hx
          · exact h x hx k hk
          · obtain rfl := mem_singleton.1 hx
            rw [hnew] at hk
            cases hk
        others := rfl }
  · exact refl t

theorem deleteSessions {p : SessionRow → Prop} [DecidablePred p] (hp : ∀ x, p x → x.userId = userId) :
    Keeps userId now n t { t with sessions := Table.delete p t.sessions } :=
  { @refl userId now n t with
    sessions := filter_delete fun x hx => by simp [hp x hx]
    others := rfl }

theorem createSession {x : SessionRow} (hx : x.userId = userId) {c : Prop} [Decidable c] :
    Keeps userId now n t { t with sessions := if c then t.sessions ++ [x] else t.sessions } := by
  split
  · exact
      { @refl userId now n t with
        sessions := filter_append_singleton (by simp [hx])
        others := rfl }
  · exact refl t

theorem deleteAnon {p : String → Prop} [DecidablePred p] (hp : ∀ u, p u → u = userId) :
    Keeps userId now n t { t with anonIndex := Table.delete p t.anonIndex } :=
  { @refl userId now n t with
    anonIndex := filter_delete fun u hu => by simp [hp u hu]
    others := rfl }

theorem confirmOAuth {p : Reservation (String × String) → Prop} [DecidablePred p]
    (hp : ∀ r, p r → r.userId = userId) : Keeps userId now n t { t with
      oauthIndex := Table.update p Reservation.confirm t.oauthIndex } :=
  { @refl userId now n t with
    oauthIndex := filter_update fun r hr => by simp [Reservation.confirm, hp r hr]
    others := rfl }

theorem createAccount {x : OAuthAccount} (hx : x.userId = userId) {c : Prop} [Decidable c] :
    Keeps userId now n t { t with
      oauthAccounts := if c then t.oauthAccounts ++ [x] else t.oauthAccounts } := by
  split
  · exact
      { @refl userId now n t with
        oauthAccounts := filter_append_singleton (by simp [hx])
        others := rfl }
  · exact refl t

variable {kind : ContactKind}

theorem onContactIndex {f : List (Reservation String) → List (Reservation String)}
    (hf : ∀ rows, (f rows).filter (·.userId ≠ userId) = rows.filter (·.userId ≠ userId)) :
    Keeps userId now n t (t.onContactIndex kind f) := by
  cases kind with
  | email => exact { @refl userId now n t with emailIndex := hf _, others := rfl }
  | phone => exact { @refl userId now n t with phoneIndex := hf _, others := rfl }

theorem confirmContact {value reservationId : String} {q : Tables → Prop} [DecidablePred q] :
    Keeps userId now n t (Auth.confirmContact kind value userId reservationId q t) :=
  onContactIndex fun _ => filter_update fun r hr => by
    simp [Reservation.confirm, hr.1.2.1]

theorem removeContact {value : Option String} {q : Tables → Prop}
    [DecidablePred q] : Keeps userId now n t (Auth.removeContact kind value userId q t) :=
  onContactIndex fun _ => filter_delete fun r hr => by simp [hr.2.1]

theorem updateChallenges {p : Challenge → Prop} [DecidablePred p] {f : Challenge → Challenge}
    (hp : ∀ c, p c → c.userId = some userId ∧ (f c).userId = some userId) :
    Keeps userId now n t { t with challenges := Table.update p f t.challenges } :=
  { @refl userId now n t with
    challenges := filter_update fun c hc => by simp [hp c hc]
    swept := fun c hc hother => by
      obtain ⟨hc, -⟩ | ⟨x, -, hx, rfl⟩ := mem_update_cases hc
      · exact hc
      · exact absurd (hp x hx).2 hother
    others := rfl }

theorem createChallenge {c : Challenge} (hc : c.userId = some userId) {q : Prop} [Decidable q] :
    Keeps userId now n t { t with
      challenges := if q then t.challenges ++ [c] else t.challenges } := by
  split
  · exact
      { @refl userId now n t with
        challenges := filter_append_singleton (by simp [hc])
        swept := fun x hx hother => by
          rcases mem_append.1 hx with hx | hx
          · exact hx
          · obtain rfl := mem_singleton.1 hx
            exact absurd hc hother
        others := rfl }
  · exact refl t

theorem sweep : Keeps userId now n t { t with
    challenges := Table.delete (·.expiresAt ≤ now) t.challenges } :=
  { @refl userId now n t with
    challenges := filter_delete fun c hc => by simp [not_lt.2 hc]
    swept := fun c hc _ => (mem_delete.1 hc).1
    others := rfl }

end Keeps

section Statements

variable {env : IdentityEnv} {now : Int} {n : Uuid}

theorem keeps_run {userId : String} {sts : List (Batch.Statement Tables)}
    (h : ∀ st ∈ sts, Batch.Statement.Respects (Keeps userId now n) st) :
    Batch.Statement.Respects (Keeps userId now n) (Batch.run sts) :=
  respects_run Keeps.refl (fun _ _ _ => Keeps.trans) h

theorem keeps_finalizeOAuthIdentity (input : FinalizeOAuthIdentityInput) :
    Batch.Statement.Respects (Keeps input.userId now n) (finalizeOAuthIdentity env now n input) := by
  intro t t' h
  unfold finalizeOAuthIdentity at h
  split at h
  · cases h
  refine keeps_run ?_ t t' h
  simp only [oauthStatements, forall_mem_cons, not_mem_nil, false_implies, implies_true,
    and_true]
  refine ⟨respects_write fun t => ?_, respects_guard Keeps.refl,
    respects_write fun t =>
      Keeps.createAccount (x := { input.oauthAccount with userId := input.userId }) rfl,
    respects_guard Keeps.refl,
    respects_write fun t => Keeps.confirmOAuth fun r hr => hr.1.2.1,
    respects_write fun t => ?_,
    respects_write fun t => Keeps.deleteAnon fun u hu => hu.2.1,
    respects_write fun t => Keeps.deleteSessions fun x hx => hx.2.1,
    respects_guard Keeps.refl⟩
  · unfold oauthUserStatement
    split
    · next create hcreate =>
      have huser : create.userId = input.userId := by
        rw [FinalizeOAuthIdentityInput.userId, hcreate]
      exact Keeps.create huser rfl
    · next userId updates revision hupdate =>
      have huser : userId = input.userId := by rw [FinalizeOAuthIdentityInput.userId, hupdate]
      exact Keeps.mutate fun u hu => hu.1.1.trans huser
  · cases input.emailReservation with
    | none => exact Keeps.refl t
    | some e =>
      exact
        { Keeps.refl t with
          emailIndex := filter_update fun r hr => by simp [Reservation.confirm, hr.1.2.1]
          others := rfl }

theorem keeps_finalizeContactIdentity (kind : ContactKind) (input : FinalizeContactIdentityInput) :
    Batch.Statement.Respects (Keeps input.userId now n)
      (finalizeContactIdentity env now n kind input) := by
  refine keeps_run ?_
  simp only [contactStatements, forall_mem_cons, not_mem_nil, false_implies,
    implies_true, and_true]
  exact ⟨respects_write fun t => Keeps.mutate fun u hu => hu.1.1,
    respects_guard Keeps.refl,
    respects_write fun t => Keeps.confirmContact,
    respects_write fun t => Keeps.removeContact,
    respects_write fun t => Keeps.deleteAnon fun u hu => hu.2.1,
    respects_write fun t => Keeps.deleteSessions fun x hx => hx.2.1,
    respects_guard Keeps.refl⟩

theorem keeps_finalizeManagedUserUpdate (input : FinalizeManagedUserUpdateInput) :
    Batch.Statement.Respects (Keeps input.userId now n)
      (finalizeManagedUserUpdate env now n input) := by
  refine keeps_run ?_
  simp only [managedStatements, forall_mem_append, forall_mem_cons, not_mem_nil,
    false_implies, implies_true, and_true]
  refine ⟨⟨⟨respects_write fun t => Keeps.mutate fun u hu => hu.1.1,
    respects_guard Keeps.refl⟩, fun st hst => ?_⟩,
    respects_guard Keeps.refl⟩
  obtain ⟨contact, -, hst⟩ := mem_flatMap.1 hst
  rcases mem_append.1 hst with hst | hst
  · split at hst
    · obtain rfl := mem_singleton.1 hst
      exact respects_write fun t => Keeps.confirmContact
    · cases hst
  · obtain rfl := mem_singleton.1 hst
    exact respects_write fun t => Keeps.removeContact

theorem keeps_upgradeStatements {kind : ContactKind} {value userId reservationId : String}
    {previousValue : Option String} {session : CreateSessionInput} {upgraded : UserRow → Prop}
    {completed : Tables → Prop} [DecidablePred upgraded] [DecidablePred completed] :
    ∀ st ∈ upgradeStatements now kind value userId reservationId previousValue session upgraded
      completed, Batch.Statement.Respects (Keeps userId now n) st := by
  simp only [upgradeStatements, forall_mem_cons, not_mem_nil, false_implies,
    implies_true, and_true]
  exact ⟨respects_write fun t => Keeps.confirmContact,
    respects_write fun t => Keeps.removeContact,
    respects_write fun t => Keeps.deleteAnon fun u hu => hu.1,
    respects_write fun t => Keeps.deleteSessions fun x hx => hx.1,
    respects_write fun t => Keeps.createSession (x := session.row now userId) rfl,
    respects_guard Keeps.refl, respects_guard Keeps.refl⟩

theorem keeps_finalizeAnonymousEmailUpgrade (input : FinalizeAnonymousEmailUpgradeInput) :
    Batch.Statement.Respects (Keeps input.userId now n)
      (finalizeAnonymousEmailUpgrade env now n input) := by
  intro t t' h
  unfold finalizeAnonymousEmailUpgrade at h
  split at h
  · refine keeps_run (forall_mem_append.2 ⟨?_, keeps_upgradeStatements⟩) t t' h
    simp only [forall_mem_cons, not_mem_nil, false_implies, implies_true, and_true]
    exact ⟨respects_write fun t => Keeps.sweep,
      respects_write fun t => Keeps.createChallenge rfl,
      respects_write fun t => Keeps.mutate fun u hu => hu.1.1,
      respects_guard Keeps.refl⟩
  · cases h

theorem keeps_finalizeAnonymousPhoneUpgrade (input : FinalizeAnonymousPhoneUpgradeInput) :
    Batch.Statement.Respects (Keeps input.userId now n)
      (finalizeAnonymousPhoneUpgrade now n input) := by
  intro t t' h
  unfold finalizeAnonymousPhoneUpgrade at h
  split at h
  · refine keeps_run (forall_mem_append.2 ⟨?_, keeps_upgradeStatements⟩) t t' h
    simp only [forall_mem_cons, not_mem_nil, false_implies, implies_true, and_true]
    exact ⟨respects_write fun t =>
        Keeps.updateChallenges fun c hc => ⟨hc.2.1, hc.2.1⟩,
      respects_write fun t => Keeps.mutate fun u hu => hu.1.1⟩
  · cases h

/-! ### What a call leaves -/

theorem users_onContactIndex {kind : ContactKind}
    {f : List (Reservation String) → List (Reservation String)} (t : Tables) :
    (t.onContactIndex kind f).users = t.users := by
  cases kind <;> rfl

theorem exists_mutated {users : List UserRow} {p : UserRow → Prop} [DecidablePred p]
    {columns : Row} {userId : String} {authRevision : Int}
    (hn : Drawn UserRow.authMutationId n users)
    (h : ∃ u ∈ Table.update p (UserRow.mutate now n columns) users,
      u.Mutated userId authRevision n) : ∃ old ∈ users, p old ∧
      old.mutate now n columns ∈ Table.update p (UserRow.mutate now n columns) users := by
  obtain ⟨old, hold, hp, -⟩ :=
    (exists_marked fun u hu hmark => hn.fresh u hu hmark.2).1 h
  exact ⟨old, hold, hp, mem_update_of hold hp⟩

end Statements

/-- What `finalizeOAuthIdentity` leaves when it returns. -/
structure OAuthFinalized (env : IdentityEnv) (now : Int) (n : Uuid)
    (input : FinalizeOAuthIdentityInput) (t t' : Tables) : Prop where
  account : input.Linked t'
  identity : input.Indexed t'
  user : match input.user with
    | .create create => ∃ u ∈ t'.users, u.At create.userId 0
    | .update userId updates expectedAuthRevision =>
      ∃ old ∈ t.users, old.At userId expectedAuthRevision ∧
        old.mutate now n (userUpdates env updates) ∈ t'.users
  email : ∀ e ∈ input.emailReservation, ∃ r ∈ t'.emailIndex, r.Confirmed e.email input.userId
  anonymous : input.deleteAnonymousIndex = true → input.userId ∉ t'.anonIndex
  sessions : input.revokeSessionsOnUpgrade = true →
    (∃ u ∈ t'.users, input.Final n u ∧ u.isNamed = true) →
      ∀ x ∈ t'.sessions, x.userId ≠ input.userId

/-- What `finalizeContactIdentity` leaves when it returns. -/
structure ContactFinalized (env : IdentityEnv) (now : Int) (n : Uuid) (kind : ContactKind)
    (input : FinalizeContactIdentityInput) (t t' : Tables) : Prop where
  reserved : ∃ r ∈ t.contactIndex kind, r.Pending input.value input.userId input.reservationId
  user : ∃ old ∈ t.users, old.At input.userId input.expectedAuthRevision ∧
    old.mutate now n (userUpdates env input.updates) ∈ t'.users
  contact : HasContact kind input.value input.userId t'
  previous : ∀ value ∈ (filled input.previousValue).filter (· ≠ input.value),
    ∀ r ∈ t'.contactIndex kind, r.key = value → r.userId ≠ input.userId
  anonymous : input.deleteAnonymousIndex = true → input.userId ∉ t'.anonIndex
  sessions : input.revokeSessionsOnUpgrade = true →
    (∃ u ∈ t'.users, u.Mutated input.userId (input.expectedAuthRevision + 1) n ∧
      u.isNamed = true) → ∀ x ∈ t'.sessions, x.userId ≠ input.userId

/-- What `finalizeManagedUserUpdate` leaves when it returns. -/
structure ManagedFinalized (env : IdentityEnv) (now : Int) (n : Uuid)
    (input : FinalizeManagedUserUpdateInput) (t t' : Tables) : Prop where
  reserved : ∀ contact ∈ input.contacts, ∀ claim ∈ contact.claims,
    ∃ r ∈ t.contactIndex contact.kind, r.Pending claim.1 input.userId claim.2
  user : ∃ old ∈ t.users, old.At input.userId input.expectedAuthRevision ∧
    old.mutate now n (userUpdates env input.updates) ∈ t'.users
  contact : ∀ contact ∈ input.contacts, ∀ value ∈ filled contact.nextValue,
    HasContact contact.kind value input.userId t'

/-- What an upgrade leaves when it returns: the user, mutated and no longer anonymous, with the
contact, one session and the checkpoint. -/
structure UpgradeFinalized (now : Int) (n : Uuid) (kind : ContactKind)
    (value userId : String) (expectedAuthRevision : Int) (columns : Row)
    (session : CreateSessionInput) (completed : Tables → Prop) (t t' : Tables) : Prop where
  user : ∃ old ∈ t.users, old.At userId expectedAuthRevision ∧ old.flag "isAnonymous" = true ∧
    old.mutate now n columns ∈ t'.users
  contact : HasContact kind value userId t'
  checkpoint : completed t'
  replacement : ∃ x ∈ t'.sessions, x.id = session.id ∧ x.userId = userId ∧
    x.refreshToken = session.refreshToken ∧ x.expiresAt = session.expiresAt
  only : ∀ x ∈ t'.sessions, x.userId = userId → x.id = session.id
  anonymous : userId ∉ t'.anonIndex

section Leaves

variable {env : IdentityEnv} {now : Int} {n : Uuid} {t t' : Tables}

theorem finalized_finalizeContactIdentity {kind : ContactKind}
    {input : FinalizeContactIdentityInput} (hn : Drawn UserRow.authMutationId n t.users)
    (h : finalizeContactIdentity env now n kind input t = some t') :
    ContactFinalized env now n kind input t t' := by
  simp only [finalizeContactIdentity, contactStatements, run_write,
    run_guard_eq_some, run_nil, Option.some.injEq] at h
  obtain ⟨-, ⟨hupdated, hcontact⟩, rfl⟩ := h
  -- the two indexes are different columns of the same argument
  cases kind
  all_goals
    obtain ⟨old, hold, ⟨hat, hreserved⟩, hmutated⟩ := exists_mutated hn hupdated
    obtain ⟨r, hr, hconfirmed⟩ := hcontact
    exact
      { reserved := hreserved
        user := ⟨old, hold, hat, hmutated⟩
        contact := ⟨r, hr, hconfirmed⟩
        previous := fun value hvalue x hx hkey huser => (mem_delete.1 hx).2
          ⟨(congrArg some hkey).trans hvalue.symm, huser, r, (mem_delete.1 hr).1, hconfirmed⟩
        anonymous := fun hdelete hmem =>
          (mem_delete.1 hmem).2 ⟨hdelete, rfl, r, hr, hconfirmed⟩
        sessions := fun hrevoke hnamed x hx huser =>
          (mem_delete.1 hx).2 ⟨hrevoke, huser, ⟨r, hr, hconfirmed⟩, hnamed⟩ }

theorem finalized_finalizeOAuthIdentity {input : FinalizeOAuthIdentityInput}
    (hn : Drawn UserRow.authMutationId n t.users)
    (h : finalizeOAuthIdentity env now n input t = some t') :
    OAuthFinalized env now n input t t' := by
  unfold finalizeOAuthIdentity at h
  split at h
  · cases h
  simp only [oauthStatements, run_write, run_guard_eq_some, run_nil,
    Option.some.injEq] at h
  obtain ⟨-, -, ⟨hlinked, hindexed, huser, hemail⟩, rfl⟩ := h
  exact
    { account := hlinked
      identity := hindexed
      user := by
        cases hinput : input.user with
        | create create =>
          simp only [FinalizeOAuthIdentityInput.Final, hinput] at huser
          exact huser
        | update userId updates expectedAuthRevision =>
          simp only [FinalizeOAuthIdentityInput.Final, oauthUserStatement, hinput] at huser
          obtain ⟨old, hold, ⟨hat, -⟩, hmutated⟩ := exists_mutated hn huser
          refine ⟨old, hold, hat, ?_⟩
          simp only [oauthUserStatement, hinput]
          exact hmutated
      email := hemail
      anonymous := fun hdelete hmem => (mem_delete.1 hmem).2 ⟨hdelete, rfl, hindexed⟩
      sessions := fun hrevoke hnamed x hx hxuser =>
        (mem_delete.1 hx).2 ⟨hrevoke, hxuser, hindexed, hnamed⟩ }

variable {input : FinalizeManagedUserUpdateInput}

theorem users_managedContactStatements :
    ∀ st ∈ input.contacts.flatMap (managedContactStatements n input),
      Batch.Statement.Respects (fun t t' : Tables => t'.users = t.users) st := by
  intro st hst
  obtain ⟨contact, -, hst⟩ := mem_flatMap.1 hst
  rcases mem_append.1 hst with hst | hst
  · split at hst
    · obtain rfl := mem_singleton.1 hst
      exact respects_write fun t => users_onContactIndex t
    · cases hst
  · obtain rfl := mem_singleton.1 hst
    exact respects_write fun t => users_onContactIndex t

theorem finalized_finalizeManagedUserUpdate (hn : Drawn UserRow.authMutationId n t.users)
    (h : finalizeManagedUserUpdate env now n input t = some t') :
    ManagedFinalized env now n input t t' := by
  simp only [finalizeManagedUserUpdate, managedStatements, cons_append, nil_append,
    run_write, run_guard_eq_some, Batch.run_append] at h
  obtain ⟨-, h⟩ := h
  obtain ⟨t₂, hcontacts, hguard⟩ := Option.bind_eq_some_iff.1 h
  rw [run_guard_eq_some, run_nil, Option.some.injEq] at hguard
  obtain ⟨⟨hupdated, hcontact⟩, rfl⟩ := hguard
  have husers := respects_run (R := fun t t' : Tables => t'.users = t.users)
    (fun _ => rfl) (fun _ _ _ h h' => h'.trans h) users_managedContactStatements _ _ hcontacts
  simp only [Updated, husers] at hupdated
  obtain ⟨old, hold, ⟨hat, hreserved⟩, hmutated⟩ := exists_mutated hn hupdated
  exact
    { reserved := hreserved
      user := ⟨old, hold, hat, husers.symm ▸ hmutated⟩
      contact := hcontact }

theorem finalized_upgradeStatements {kind : ContactKind} {value userId reservationId : String}
    {previousValue : Option String} {session : CreateSessionInput} {upgraded : UserRow → Prop}
    {completed : Tables → Prop} [DecidablePred upgraded] [DecidablePred completed]
    (h : Batch.run (upgradeStatements now kind value userId reservationId previousValue session
      upgraded completed) t = some t') :
    t'.users = t.users ∧ completed t' ∧ (∃ u ∈ t'.users, upgraded u) ∧
    HasContact kind value userId t' ∧ (∃ x ∈ t'.sessions, x.id = session.id ∧ x.userId = userId ∧
      x.refreshToken = session.refreshToken ∧ x.expiresAt = session.expiresAt) ∧
    (∀ x ∈ t'.sessions, x.userId = userId → x.id = session.id) ∧ userId ∉ t'.anonIndex := by
  obtain ⟨hcompleted, huser, hcontact, hsession, honly, hanon⟩ := Batch.holds_of_getLast? h rfl
  refine ⟨?_, hcompleted, huser, hcontact, hsession, fun x hx hxuser => ?_, hanon⟩
  · refine respects_run (R := fun t t' : Tables => t'.users = t.users) (fun _ => rfl)
      (fun _ _ _ h h' => h'.trans h) ?_ t t' h
    simp only [upgradeStatements, forall_mem_cons, not_mem_nil, false_implies,
      implies_true, and_true]
    exact ⟨respects_write fun t => users_onContactIndex t,
      respects_write fun t => users_onContactIndex t,
      respects_write fun t => rfl, respects_write fun t => rfl,
      respects_write fun t => rfl,
      respects_guard fun t => rfl, respects_guard fun t => rfl⟩
  · by_contra hne
    exact honly ⟨x, hx, hxuser, hne⟩

theorem finalized_finalizeAnonymousEmailUpgrade {input : FinalizeAnonymousEmailUpgradeInput}
    (hn : Drawn UserRow.authMutationId n t.users)
    (h : finalizeAnonymousEmailUpgrade env now n input t = some t') :
    UpgradeFinalized now n .email input.email input.userId input.expectedAuthRevision
      (input.columns now) input.replacementSession (input.Checkpointed env now n) t t' := by
  unfold finalizeAnonymousEmailUpgrade at h
  split at h
  · simp only [emailUpgradeStatements, cons_append, nil_append, run_write,
      run_guard_eq_some] at h
    obtain ⟨-, h⟩ := h
    obtain ⟨husers, hcompleted, huser, hcontact, hsession, honly, hanon⟩ :=
      finalized_upgradeStatements h
    rw [husers] at huser
    obtain ⟨old, hold, ⟨hat, hanonymous, -⟩, hmutated⟩ :=
      exists_mutated hn (huser.imp fun u hu => ⟨hu.1, hu.2.1⟩)
    exact
      { user := ⟨old, hold, hat, hanonymous, husers.symm ▸ hmutated⟩
        contact := hcontact
        checkpoint := hcompleted
        replacement := hsession
        only := honly
        anonymous := hanon }
  · cases h

theorem finalized_finalizeAnonymousPhoneUpgrade {input : FinalizeAnonymousPhoneUpgradeInput}
    (hn : Drawn UserRow.authMutationId n t.users)
    (h : finalizeAnonymousPhoneUpgrade now n input t = some t') :
    UpgradeFinalized now n .phone input.phone input.userId input.expectedAuthRevision
      (input.columns now) input.replacementSession (input.Checkpointed now n) t t' := by
  unfold finalizeAnonymousPhoneUpgrade at h
  split at h
  · simp only [phoneUpgradeStatements, cons_append, nil_append, run_write] at h
    obtain ⟨husers, hcompleted, huser, hcontact, hsession, honly, hanon⟩ :=
      finalized_upgradeStatements h
    rw [husers] at huser
    obtain ⟨old, hold, ⟨hat, hanonymous, -⟩, hmutated⟩ :=
      exists_mutated hn (huser.imp fun u hu => ⟨hu.1, hu.2.1⟩)
    exact
      { user := ⟨old, hold, hat, hanonymous, husers.symm ▸ hmutated⟩
        contact := hcontact
        checkpoint := hcompleted
        replacement := hsession
        only := honly
        anonymous := hanon }
  · cases h

end Leaves

/-! ### Runs -/

inductive FinalizeInput where
  | oauth (input : FinalizeOAuthIdentityInput)
  | contact (kind : ContactKind) (input : FinalizeContactIdentityInput)
  | managed (input : FinalizeManagedUserUpdateInput)
  | emailUpgrade (input : FinalizeAnonymousEmailUpgradeInput)
  | phoneUpgrade (input : FinalizeAnonymousPhoneUpgradeInput)

structure FinalizeCall where
  now : Int
  input : FinalizeInput

namespace FinalizeInput

variable (env : IdentityEnv) (now : Int) (n : Uuid)

def userId : FinalizeInput → String
  | .oauth input => input.userId
  | .contact _ input => input.userId
  | .managed input => input.userId
  | .emailUpgrade input => input.userId
  | .phoneUpgrade input => input.userId

def run : FinalizeInput → Batch.Statement Tables
  | .oauth input => finalizeOAuthIdentity env now n input
  | .contact kind input => finalizeContactIdentity env now n kind input
  | .managed input => finalizeManagedUserUpdate env now n input
  | .emailUpgrade input => finalizeAnonymousEmailUpgrade env now n input
  | .phoneUpgrade input => finalizeAnonymousPhoneUpgrade now n input

def Finalized (t t' : Tables) : FinalizeInput → Prop
  | .oauth input => OAuthFinalized env now n input t t'
  | .contact kind input => ContactFinalized env now n kind input t t'
  | .managed input => ManagedFinalized env now n input t t'
  | .emailUpgrade input => UpgradeFinalized now n .email input.email input.userId
      input.expectedAuthRevision (input.columns now) input.replacementSession
      (input.Checkpointed env now n) t t'
  | .phoneUpgrade input => UpgradeFinalized now n .phone input.phone input.userId
      input.expectedAuthRevision (input.columns now) input.replacementSession
      (input.Checkpointed now n) t t'

variable {env now n}

theorem keeps_run (input : FinalizeInput) :
    Batch.Statement.Respects (Keeps input.userId now n) (input.run env now n) := by
  cases input with
  | oauth input => exact keeps_finalizeOAuthIdentity input
  | contact kind input => exact keeps_finalizeContactIdentity kind input
  | managed input => exact keeps_finalizeManagedUserUpdate input
  | emailUpgrade input => exact keeps_finalizeAnonymousEmailUpgrade input
  | phoneUpgrade input => exact keeps_finalizeAnonymousPhoneUpgrade input

theorem finalized_run {input : FinalizeInput} {t t' : Tables}
    (hn : Drawn UserRow.authMutationId n t.users) (h : input.run env now n t = some t') :
    input.Finalized env now n t t' := by
  cases input with
  | oauth input => exact finalized_finalizeOAuthIdentity hn h
  | contact kind input => exact finalized_finalizeContactIdentity hn h
  | managed input => exact finalized_finalizeManagedUserUpdate hn h
  | emailUpgrade input => exact finalized_finalizeAnonymousEmailUpgrade hn h
  | phoneUpgrade input => exact finalized_finalizeAnonymousPhoneUpgrade hn h

end FinalizeInput

/-- The database, and the number of random ids drawn. -/
structure FinalizeState where
  tables : Tables
  drawn : Uuid := 0

namespace FinalizeState

variable (env : IdentityEnv)

def step (s : FinalizeState) (call : FinalizeCall) : FinalizeState where
  tables := Batch.commit (call.input.run env call.now s.drawn) s.tables
  drawn := s.drawn + 1

/-- What a call does: nothing when it throws; when it returns, what it promises, and nothing to the
rows of another user, but for the challenges that have expired. -/
def Outcome (s : FinalizeState) (call : FinalizeCall) : Prop :=
  match call.input.run env call.now s.drawn s.tables with
  | none => (s.step env call).tables = s.tables
  | some t' => (s.step env call).tables = t' ∧
      call.input.Finalized env call.now s.drawn s.tables t' ∧
      Keeps call.input.userId call.now s.drawn s.tables t'

variable {env} {s : FinalizeState} {call : FinalizeCall}

theorem outcome_step (hs : Drawn UserRow.authMutationId s.drawn s.tables.users) :
    Outcome env s call := by
  unfold Outcome
  split
  · next h => exact commit_of_none h
  · next t' h => exact ⟨commit_of_some h, FinalizeInput.finalized_run hs h,
      call.input.keeps_run _ _ h⟩

def plainPlatform : IdentityEnv where
  hash := id
  stringify _ := ""
  textOf _ := ""
  toLowerCase := id

/-- An anonymous user who has reserved an email, and a code of another user that has expired. -/
def anonymousUser : FinalizeState where
  tables :=
    { users := [{ id := "u", columns := [("isAnonymous", .num 1)], updatedAt := 0 }]
      sessions :=
        [{ id := "s", userId := "u", refreshToken := "t", expiresAt := 1000, createdAt := 0 }]
      emailIndex := [reservation 0 "a@b.c" "u" "r"]
      anonIndex := ["u"]
      challenges :=
        [{ key := "k", kind := "email-otp", userId := some "v", maxAttempts := 5, expiresAt := 5,
           createdAt := 0 }] }

def upgradeCall : FinalizeCall where
  now := 10
  input := .emailUpgrade
    { userId := "u"
      initiatingSessionId := "s"
      expectedAuthRevision := 0
      email := "a@b.c"
      passwordHash := "h"
      reservationId := "r"
      passwordProof := "hmac-sha256:" ++ String.ofList (List.replicate 64 '0')
      encryptedCompletion := "e"
      completionExpiresAt := 100
      replacementSession := { id := "s2", userId := "u", refreshToken := "t2", expiresAt := 1000 } }

theorem drawn_anonymousUser :
    Drawn UserRow.authMutationId anonymousUser.drawn anonymousUser.tables.users := by
  intro u hu k hk
  obtain rfl := mem_singleton.1 hu
  cases hk

/-- A call that returns leaves the challenges of other users alone. -/
def KeepsChallenges (env : IdentityEnv) (s : FinalizeState) (call : FinalizeCall) : Prop :=
  ∀ t' ∈ call.input.run env call.now s.drawn s.tables,
    t'.challenges.filter (·.userId ≠ some call.input.userId) =
      s.tables.challenges.filter (·.userId ≠ some call.input.userId)

instance (env : IdentityEnv) (s : FinalizeState) (call : FinalizeCall) :
    Decidable (KeepsChallenges env s call) := inferInstanceAs (Decidable (∀ _ ∈ _, _))

end FinalizeState

end Auth

end EdgeBase
