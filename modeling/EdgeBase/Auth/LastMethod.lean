import EdgeBase.Auth.Finalization

/-!
# The last sign-in method

A deletion of an OAuth identity or of a passkey carries a guard: what the user can sign in with
besides these, and the revision of the user at which that was read.  The transaction counts the rest
itself, and is refused when the user has changed or only one method is left.

* `MethodState.keepsMethod` : a deletion that commits leaves a method, one that is refused everything.
-/

namespace EdgeBase

open List Batch.Statement Batch

namespace Auth

/-! ### Counting -/

structure MethodConfig where
  /-- `config.auth.emailAuth !== false`. -/
  emailAuth : Bool
  magicLink : Bool
  emailOtp : Bool
  phoneAuth : Bool
  passkeys : Bool
  deriving DecidableEq

/-- Whether a column of a user is a text that is not empty. -/
def UserRow.hasText (u : UserRow) (column : String) : Bool :=
  match u.columns.lookup column with
  | some (.str s) => s ≠ ""
  | _ => false

/-- `summary.total - summary.oauthCount - summary.passkeyCount` of `getIdentityState`. -/
def independentMethodCount (config : MethodConfig) (u : UserRow) : ℕ :=
  (config.emailAuth && u.hasText "passwordHash").toNat +
  (u.hasText "email" && config.magicLink).toNat +
  (u.hasText "email" && config.emailOtp).toNat +
  (config.phoneAuth && u.hasText "phone" && u.flag "phoneVerified").toNat

/-- A credential with its entry in `_passkey_index`, which is keyed by the credential. -/
def Credential.Indexed (userId : String) (t : Tables) (c : Credential) : Prop :=
  c.userId = userId ∧ ∃ i ∈ t.passkeyIndex, i.credentialId = c.credentialId ∧ i.userId = c.userId

instance (userId : String) (t : Tables) : DecidablePred (Credential.Indexed userId t) :=
  fun _ => inferInstanceAs (Decidable (_ ∧ ∃ _ ∈ _, _))

/-- An account with its confirmed entry in `_oauth_index`, which is keyed by the identity. -/
def OAuthAccount.Indexed (userId : String) (t : Tables) (a : OAuthAccount) : Prop :=
  a.userId = userId ∧ ∃ i ∈ t.oauthIndex, i.Confirmed a.identity a.userId

instance (userId : String) (t : Tables) : DecidablePred (OAuthAccount.Indexed userId t) :=
  fun _ => inferInstanceAs (Decidable (_ ∧ ∃ _ ∈ _, _))

def passkeyCount (userId : String) (t : Tables) : ℕ :=
  t.credentials.countP (Credential.Indexed userId t ·)

def oauthCount (userId : String) (t : Tables) : ℕ :=
  t.oauthAccounts.countP (OAuthAccount.Indexed userId t ·)

/-- The passkeys, where they count, and the OAuth identities of a user. -/
def countedIdentities (includePasskeys : Bool) (userId : String) (t : Tables) : ℕ :=
  (if includePasskeys then passkeyCount userId t else 0) + oauthCount userId t

def methodCount (config : MethodConfig) (userId : String) (t : Tables) : ℕ :=
  ((getUserById userId t).map (independentMethodCount config)).getD 0 +
    countedIdentities config.passkeys userId t

/-! ### Deletions -/

structure RemainingMethodGuard where
  independentMethodCount : ℕ
  includePasskeys : Bool
  expectedAuthRevision : Int
  deriving DecidableEq

/-- The guard that the routes make of the user that `getIdentityState` has read. -/
def RemainingMethodGuard.of (config : MethodConfig) (u : UserRow) : RemainingMethodGuard where
  independentMethodCount := Auth.independentMethodCount config u
  includePasskeys := config.passkeys
  expectedAuthRevision := u.authRevision

/-- What a deletion is refused for, unless the user is at the revision and has two methods. -/
def RemainingMethodGuard.Allows (g : RemainingMethodGuard) (userId : String) (t : Tables) : Prop :=
  (∃ u ∈ t.users, u.At userId g.expectedAuthRevision) ∧
    ¬g.independentMethodCount + countedIdentities g.includePasskeys userId t ≤ 1

instance (g : RemainingMethodGuard) (userId : String) : DecidablePred (g.Allows userId) :=
  fun _ => inferInstanceAs (Decidable ((∃ _ ∈ _, _) ∧ _))

inductive IdentityTarget where
  | oauth (accountId provider providerUserId : String)
  | passkey (credentialId : String)
  deriving DecidableEq

/-- `deleteOAuthIdentity`, with its guard; `none` when it throws. -/
def deleteOAuthIdentity (accountId userId provider providerUserId : String)
    (g : RemainingMethodGuard) : Batch.Statement Tables :=
  Batch.run
    [ .guard (g.Allows userId),
      .write fun t => { t with
        oauthAccounts := Table.delete
          (fun a => a.id = accountId ∧ a.userId = userId ∧ a.identity = (provider, providerUserId))
          t.oauthAccounts },
      .write fun t => { t with
        oauthIndex := Table.delete
          (fun i => i.key = (provider, providerUserId) ∧ i.userId = userId) t.oauthIndex } ]

/-- `deletePasskeyIdentity`, with its guard; `none` when it throws. -/
def deletePasskeyIdentity (credentialId userId : String) (g : RemainingMethodGuard) :
    Batch.Statement Tables :=
  Batch.run
    [ .guard (g.Allows userId),
      .write fun t => { t with
        credentials := Table.delete
          (fun c => c.credentialId = credentialId ∧ c.userId = userId) t.credentials },
      .write fun t => { t with
        passkeyIndex := Table.delete
          (fun i => i.credentialId = credentialId ∧ i.userId = userId) t.passkeyIndex } ]

def IdentityTarget.delete (userId : String) (g : RemainingMethodGuard) :
    IdentityTarget → Batch.Statement Tables
  | .oauth accountId provider providerUserId =>
    deleteOAuthIdentity accountId userId provider providerUserId g
  | .passkey credentialId => deletePasskeyIdentity credentialId userId g

section Deletions

variable {userId : String} {g : RemainingMethodGuard} {t t' : Tables}

theorem oauthCount_delete {accountId : String} {identity : String × String}
    (haccounts : Table.Unique OAuthAccount.identity t.oauthAccounts) :
    oauthCount userId t ≤ oauthCount userId { t with
      oauthAccounts := Table.delete
        (fun a => a.id = accountId ∧ a.userId = userId ∧ a.identity = identity) t.oauthAccounts
      oauthIndex := Table.delete (fun i => i.key = identity ∧ i.userId = userId) t.oauthIndex } + 1 := by
  refine haccounts.countP_le_filter (k := identity) fun a _ hne ha => ?_
  obtain ⟨hindexed, i, hi, hconfirmed⟩ := of_decide_eq_true ha
  refine ⟨decide_eq_true fun h => hne h.2.2, decide_eq_true ⟨hindexed, i, ?_, hconfirmed⟩⟩
  exact Table.mem_delete.2 ⟨hi, fun h => hne (hconfirmed.1.symm.trans h.1)⟩

theorem passkeyCount_delete {credentialId : String}
    (hcredentials : Table.Unique Credential.credentialId t.credentials) :
    passkeyCount userId t ≤ passkeyCount userId { t with
      credentials := Table.delete
        (fun c => c.credentialId = credentialId ∧ c.userId = userId) t.credentials
      passkeyIndex := Table.delete
        (fun i => i.credentialId = credentialId ∧ i.userId = userId) t.passkeyIndex } + 1 := by
  refine hcredentials.countP_le_filter (k := credentialId) fun c _ hne hc => ?_
  obtain ⟨hindexed, i, hi, hkey, howner⟩ := of_decide_eq_true hc
  refine ⟨decide_eq_true fun h => hne h.1, decide_eq_true ⟨hindexed, i, ?_, hkey, howner⟩⟩
  exact Table.mem_delete.2 ⟨hi, fun h => hne (hkey.symm.trans h.1)⟩

theorem countedIdentities_delete (haccounts : Table.Unique OAuthAccount.identity t.oauthAccounts)
    (hcredentials : Table.Unique Credential.credentialId t.credentials) {target : IdentityTarget}
    (h : target.delete userId g t = some t') (includePasskeys : Bool) :
    g.Allows userId t ∧ t'.users = t.users ∧ countedIdentities includePasskeys userId t ≤
        countedIdentities includePasskeys userId t' + 1 := by
  cases target with
  | oauth accountId provider providerUserId =>
    obtain ⟨hallows, hrun⟩ := run_guard_eq_some.1 h
    obtain rfl := Option.some.inj hrun
    exact ⟨hallows, rfl, Nat.add_le_add_left (oauthCount_delete haccounts) _⟩
  | passkey credentialId =>
    obtain ⟨hallows, hrun⟩ := run_guard_eq_some.1 h
    obtain rfl := Option.some.inj hrun
    refine ⟨hallows, rfl, ?_⟩
    unfold countedIdentities
    split
    · rw [Nat.add_right_comm]
      exact Nat.add_le_add_right (passkeyCount_delete hcredentials) _
    · exact Nat.le_succ _

end Deletions

/-! ### What the other transactions do -/

/-- Every user is as it was, or at a higher revision; and the keys stay unique. -/
structure Bumps (t t' : Tables) : Prop where
  users : ∀ u ∈ t.users, ∃ u' ∈ t'.users, u'.id = u.id ∧ (u' = u ∨ u.authRevision < u'.authRevision)
  unique : Table.Unique UserRow.id t.users → Table.Unique UserRow.id t'.users
  accounts : Table.Unique OAuthAccount.identity t.oauthAccounts →
    Table.Unique OAuthAccount.identity t'.oauthAccounts
  credentials : Table.Unique Credential.credentialId t.credentials →
    Table.Unique Credential.credentialId t'.credentials

namespace Bumps

variable {t t' t'' : Tables}

theorem of_eq (husers : t'.users = t.users) (haccounts : t'.oauthAccounts = t.oauthAccounts)
    (hcredentials : t'.credentials = t.credentials) : Bumps t t' where
  users u hu := ⟨u, husers.symm ▸ hu, rfl, .inl rfl⟩
  unique h := husers.symm ▸ h
  accounts h := haccounts.symm ▸ h
  credentials h := hcredentials.symm ▸ h

theorem refl (t : Tables) : Bumps t t := of_eq rfl rfl rfl

theorem trans (h : Bumps t t') (h' : Bumps t' t'') : Bumps t t'' where
  users u hu := by
    obtain ⟨v, hv, hid, hle⟩ := h.users u hu
    obtain ⟨w, hw, hid', hle'⟩ := h'.users v hv
    refine ⟨w, hw, hid'.trans hid, ?_⟩
    rcases hle with rfl | hlt
    · exact hle'
    · rcases hle' with rfl | hlt'
      · exact .inr hlt
      · exact .inr (hlt.trans hlt')
  unique := h'.unique ∘ h.unique
  accounts := h'.accounts ∘ h.accounts
  credentials := h'.credentials ∘ h.credentials

theorem mutate {p : UserRow → Prop} [DecidablePred p] {now : Int} {n : Uuid} {columns : Row} :
    Bumps t { t with users := Table.update p (UserRow.mutate now n columns) t.users } where
  users u hu := by
    by_cases hp : p u
    · exact ⟨_, Table.mem_update_of hu hp, rfl, .inr (Nat.lt_succ_self _)⟩
    · exact ⟨u, Table.mem_update_of_not hu hp, rfl, .inl rfl⟩
  unique h := h.update fun _ _ => rfl
  accounts := id
  credentials := id

theorem create {u : UserRow} {c : Prop} [Decidable c]
    (hvalid : UsersValid { t with users := if c then t.users ++ [u] else t.users }) :
    Bumps t { t with users := if c then t.users ++ [u] else t.users } where
  users x hx := by
    refine ⟨x, ?_, rfl, .inl rfl⟩
    change x ∈ if c then t.users ++ [u] else t.users
    split
    · exact mem_append_left _ hx
    · exact hx
  unique _ := hvalid.1
  accounts := id
  credentials := id

theorem createAccount {a : OAuthAccount} {c : Prop} [Decidable c] : Bumps t { t with
      oauthAccounts :=
        if c ∧ ¬∃ x ∈ t.oauthAccounts, x.identity = a.identity then t.oauthAccounts ++ [a]
        else t.oauthAccounts } where
  users u hu := ⟨u, hu, rfl, .inl rfl⟩
  unique := id
  accounts h := by
    split
    · next hnone => exact h.append fun x hx hkey => hnone.2 ⟨x, hx, hkey⟩
    · exact h
  credentials := id

theorem onContactIndex {kind : ContactKind}
    {f : List (Reservation String) → List (Reservation String)} :
    Bumps t (t.onContactIndex kind f) := by
  cases kind <;> exact of_eq rfl rfl rfl

theorem run {sts : List (Batch.Statement Tables)}
    (h : ∀ st ∈ sts, Batch.Statement.Respects Bumps st) :
    Batch.Statement.Respects Bumps (Batch.run sts) :=
  respects_run refl (fun _ _ _ => trans) h

end Bumps

section Writers

variable {env : IdentityEnv} {now : Int} {n : Uuid}

theorem bumps_updateUser (userId : String) (updates : Row) :
    Batch.Statement.Respects Bumps (updateUser env now n userId updates) := by
  unfold updateUser
  dsimp only
  split
  · exact Bumps.run fun _ h => by cases h
  · refine Bumps.run ?_
    simp only [forall_mem_cons, not_mem_nil, false_implies, implies_true, and_true]
    exact ⟨respects_write fun t => Bumps.mutate,
      respects_guard Bumps.refl⟩

theorem bumps_finalizeOAuthIdentity (input : FinalizeOAuthIdentityInput) :
    Batch.Statement.Respects Bumps (finalizeOAuthIdentity env now n input) := by
  intro t t' h
  unfold finalizeOAuthIdentity at h
  split at h
  · cases h
  obtain ⟨hvalid, hrest⟩ := run_guard_eq_some.1 h
  -- a new user is there once the unique keys have been checked
  have huser : Bumps t (oauthUserStatement env now n input t) := by
    unfold oauthUserStatement at hvalid ⊢
    split at hvalid
    · exact Bumps.create hvalid
    · exact Bumps.mutate
  refine huser.trans (Bumps.run ?_ _ _ hrest)
  simp only [forall_mem_cons, not_mem_nil, false_implies, implies_true, and_true]
  exact ⟨respects_write fun t =>
      Bumps.createAccount (a := { input.oauthAccount with userId := input.userId }),
    respects_guard Bumps.refl,
    respects_write fun t => Bumps.of_eq rfl rfl rfl,
    respects_write fun t => Bumps.of_eq rfl rfl rfl,
    respects_write fun t => Bumps.of_eq rfl rfl rfl,
    respects_write fun t => Bumps.of_eq rfl rfl rfl,
    respects_guard Bumps.refl⟩

theorem bumps_finalizeContactIdentity (kind : ContactKind) (input : FinalizeContactIdentityInput) :
    Batch.Statement.Respects Bumps (finalizeContactIdentity env now n kind input) := by
  refine Bumps.run ?_
  simp only [contactStatements, forall_mem_cons, not_mem_nil, false_implies,
    implies_true, and_true]
  exact ⟨respects_write fun t => Bumps.mutate,
    respects_guard Bumps.refl,
    respects_write fun t => Bumps.onContactIndex,
    respects_write fun t => Bumps.onContactIndex,
    respects_write fun t => Bumps.of_eq rfl rfl rfl,
    respects_write fun t => Bumps.of_eq rfl rfl rfl,
    respects_guard Bumps.refl⟩

theorem bumps_finalizeManagedUserUpdate (input : FinalizeManagedUserUpdateInput) :
    Batch.Statement.Respects Bumps (finalizeManagedUserUpdate env now n input) := by
  refine Bumps.run ?_
  simp only [managedStatements, forall_mem_append, forall_mem_cons, not_mem_nil,
    false_implies, implies_true, and_true]
  refine ⟨⟨⟨respects_write fun t => Bumps.mutate,
    respects_guard Bumps.refl⟩, fun st hst => ?_⟩,
    respects_guard Bumps.refl⟩
  obtain ⟨contact, -, hst⟩ := mem_flatMap.1 hst
  rcases mem_append.1 hst with hst | hst
  · split at hst
    · obtain rfl := mem_singleton.1 hst
      exact respects_write fun t => Bumps.onContactIndex
    · cases hst
  · obtain rfl := mem_singleton.1 hst
    exact respects_write fun t => Bumps.onContactIndex

theorem bumps_upgradeStatements {kind : ContactKind} {value userId reservationId : String}
    {previousValue : Option String} {session : CreateSessionInput} {upgraded : UserRow → Prop}
    {completed : Tables → Prop} [DecidablePred upgraded] [DecidablePred completed] :
    ∀ st ∈ upgradeStatements now kind value userId reservationId previousValue session upgraded
      completed, Batch.Statement.Respects Bumps st := by
  simp only [upgradeStatements, forall_mem_cons, not_mem_nil, false_implies,
    implies_true, and_true]
  exact ⟨respects_write fun t => Bumps.onContactIndex,
    respects_write fun t => Bumps.onContactIndex,
    respects_write fun t => Bumps.of_eq rfl rfl rfl,
    respects_write fun t => Bumps.of_eq rfl rfl rfl,
    respects_write fun t => Bumps.of_eq rfl rfl rfl,
    respects_guard Bumps.refl, respects_guard Bumps.refl⟩

theorem bumps_finalizeAnonymousEmailUpgrade (input : FinalizeAnonymousEmailUpgradeInput) :
    Batch.Statement.Respects Bumps (finalizeAnonymousEmailUpgrade env now n input) := by
  intro t t' h
  unfold finalizeAnonymousEmailUpgrade at h
  split at h
  · refine Bumps.run (forall_mem_append.2 ⟨?_, bumps_upgradeStatements⟩) t t' h
    simp only [forall_mem_cons, not_mem_nil, false_implies, implies_true, and_true]
    exact ⟨respects_write fun t => Bumps.of_eq rfl rfl rfl,
      respects_write fun t => Bumps.of_eq rfl rfl rfl,
      respects_write fun t => Bumps.mutate,
      respects_guard Bumps.refl⟩
  · cases h

theorem bumps_finalizeAnonymousPhoneUpgrade (input : FinalizeAnonymousPhoneUpgradeInput) :
    Batch.Statement.Respects Bumps (finalizeAnonymousPhoneUpgrade now n input) := by
  intro t t' h
  unfold finalizeAnonymousPhoneUpgrade at h
  split at h
  · refine Bumps.run (forall_mem_append.2 ⟨?_, bumps_upgradeStatements⟩) t t' h
    simp only [forall_mem_cons, not_mem_nil, false_implies, implies_true, and_true]
    exact ⟨respects_write fun t => Bumps.of_eq rfl rfl rfl,
      respects_write fun t => Bumps.mutate⟩
  · cases h

theorem FinalizeInput.bumps_run (input : FinalizeInput) :
    Batch.Statement.Respects Bumps (input.run env now n) := by
  cases input with
  | oauth input => exact bumps_finalizeOAuthIdentity input
  | contact kind input => exact bumps_finalizeContactIdentity kind input
  | managed input => exact bumps_finalizeManagedUserUpdate input
  | emailUpgrade input => exact bumps_finalizeAnonymousEmailUpgrade input
  | phoneUpgrade input => exact bumps_finalizeAnonymousPhoneUpgrade input

theorem IdentityTarget.bumps_delete (userId : String) (g : RemainingMethodGuard)
    (target : IdentityTarget) : Batch.Statement.Respects Bumps (target.delete userId g) := by
  cases target with
  | oauth accountId provider providerUserId =>
    refine Bumps.run ?_
    simp only [forall_mem_cons, not_mem_nil, false_implies, implies_true, and_true]
    exact ⟨respects_guard Bumps.refl,
      respects_write fun t =>
        { Bumps.refl t with accounts := fun h => h.delete },
      respects_write fun t => Bumps.of_eq rfl rfl rfl⟩
  | passkey credentialId =>
    refine Bumps.run ?_
    simp only [forall_mem_cons, not_mem_nil, false_implies, implies_true, and_true]
    exact ⟨respects_guard Bumps.refl,
      respects_write fun t =>
        { Bumps.refl t with credentials := fun h => h.delete },
      respects_write fun t => Bumps.of_eq rfl rfl rfl⟩

end Writers

/-! ### Runs -/

/-- A deletion that waits, with the guard that was read for it. -/
structure MethodRequest where
  userId : String
  target : IdentityTarget
  remaining : RemainingMethodGuard
  deriving DecidableEq

inductive MethodAction where
  /-- A request reads the user whose identity it wants to delete. -/
  | read (userId : String) (target : IdentityTarget)
  /-- A request that has read the user deletes the identity. -/
  | delete (request : MethodRequest)
  | updateUser (now : Int) (userId : String) (updates : Row)
  | finalize (call : FinalizeCall)

/-- The database, the number of random ids drawn, and the requests that have read their user. -/
structure MethodState where
  tables : Tables
  drawn : Uuid := 0
  waiting : List MethodRequest := []

namespace MethodState

open FinalizeState (plainPlatform)

variable (env : IdentityEnv) (config : MethodConfig)

/-- What follows an action.  The routes ask for more before they delete; a request may be sent
again. -/
def step (s : MethodState) : MethodAction → MethodState
  | .read userId target =>
    match getUserById userId s.tables with
    | none => s
    | some u => { s with waiting := ⟨userId, target, .of config u⟩ :: s.waiting }
  | .delete r =>
    if r ∈ s.waiting then
      { s with tables := Batch.commit (r.target.delete r.userId r.remaining) s.tables }
    else s
  | .updateUser now userId updates => { s with
      tables := Batch.commit (Auth.updateUser env now s.drawn userId updates) s.tables
      drawn := s.drawn + 1 }
  | .finalize call => { s with
      tables := Batch.commit (call.input.run env call.now s.drawn) s.tables
      drawn := s.drawn + 1 }

/-- A deletion that commits leaves its user a method; one that is refused changes nothing. -/
def KeepsMethod (s : MethodState) : MethodAction → Prop
  | .delete r => r ∈ s.waiting →
    match r.target.delete r.userId r.remaining s.tables with
    | none => (s.step env config (.delete r)).tables = s.tables
    | some t' => (s.step env config (.delete r)).tables = t' ∧ 1 ≤ methodCount config r.userId t'
  | _ => True

variable {env config} {s : MethodState} {a : MethodAction}

/-- The keys are unique, and every request is about a user who is as its guard says, or has changed
since. -/
structure Sound (config : MethodConfig) (s : MethodState) : Prop where
  users : Table.Unique UserRow.id s.tables.users
  accounts : Table.Unique OAuthAccount.identity s.tables.oauthAccounts
  credentials : Table.Unique Credential.credentialId s.tables.credentials
  waiting : ∀ r ∈ s.waiting, ∃ u ∈ s.tables.users, u.id = r.userId ∧
    (r.remaining = .of config u ∨ r.remaining.expectedAuthRevision < u.authRevision)

variable (hs : s.Sound config)
include hs

theorem Sound.of_bumps {t' : Tables} (h : Bumps s.tables t') (n : Uuid) :
    Sound config { s with tables := t', drawn := n } where
  users := h.unique hs.users
  accounts := h.accounts hs.accounts
  credentials := h.credentials hs.credentials
  waiting r hr := by
    obtain ⟨u, hu, hid, hguard⟩ := hs.waiting r hr
    obtain ⟨u', hu', hid', hle⟩ := h.users u hu
    refine ⟨u', hu', hid'.trans hid, ?_⟩
    rcases hle with rfl | hlt
    · exact hguard
    · have hlt : (u.authRevision : Int) < u'.authRevision := Int.ofNat_lt.2 hlt
      refine .inr ?_
      rcases hguard with hof | hpast
      · rw [hof]
        exact hlt
      · exact hpast.trans hlt

theorem Sound.commit {st : Batch.Statement Tables}
    (h : Batch.Statement.Respects Bumps st) (n : Uuid) :
    Sound config { s with tables := Batch.commit st s.tables, drawn := n } :=
  hs.of_bumps (commit_keeps (I := Bumps s.tables) (Bumps.refl _) fun t' => h s.tables t') n

theorem sound_step : (s.step env config a).Sound config := by
  cases a with
  | read userId target =>
    simp only [step]
    split
    · exact hs
    · next u hu =>
      obtain ⟨hmem, hid⟩ := of_getUserById hu
      exact { hs with waiting := forall_mem_cons.2 ⟨⟨u, hmem, hid, .inl rfl⟩, hs.waiting⟩ }
  | delete r =>
    simp only [step]
    split
    · exact hs.commit (r.target.bumps_delete r.userId r.remaining) s.drawn
    · exact hs
  | updateUser now userId updates => exact hs.commit (bumps_updateUser userId updates) _
  | finalize call => exact hs.commit call.input.bumps_run _

theorem Sound.getUserById_of_allows {r : MethodRequest} (hr : r ∈ s.waiting)
    (h : r.remaining.Allows r.userId s.tables) :
    ∃ u, getUserById r.userId s.tables = some u ∧ r.remaining = .of config u := by
  obtain ⟨⟨u, hu, hid, hrevision⟩, -⟩ := h
  obtain ⟨u', hu', hid', hguard⟩ := hs.waiting r hr
  obtain rfl := hs.users.eq_of_key hu hu' (hid.trans hid'.symm)
  exact ⟨u, getUserById_of_mem hs.users hu hid,
    hguard.resolve_right fun hlt => absurd hrevision hlt.ne'⟩

theorem Sound.one_le_methodCount {r : MethodRequest} (hr : r ∈ s.waiting)
    {t' : Tables} (h : r.target.delete r.userId r.remaining s.tables = some t') :
    1 ≤ methodCount config r.userId t' := by
  obtain ⟨hallows, husers, hle⟩ :=
    countedIdentities_delete hs.accounts hs.credentials h config.passkeys
  obtain ⟨u, hu, hof⟩ := hs.getUserById_of_allows hr hallows
  have hguard := hallows.2
  rw [hof] at hguard
  have hcount : ¬independentMethodCount config u +
      countedIdentities config.passkeys r.userId s.tables ≤ 1 := hguard
  have hmethods : methodCount config r.userId t' = independentMethodCount config u +
      countedIdentities config.passkeys r.userId t' := by
    rw [getUserById, ← husers] at hu
    rw [methodCount, getUserById, hu]
    rfl
  omega

theorem keepsMethod_step : s.KeepsMethod env config a := by
  cases a with
  | delete r =>
    intro hr
    have htables : (s.step env config (.delete r)).tables =
        Batch.commit (r.target.delete r.userId r.remaining) s.tables := by
      rw [step, if_pos hr]
    split
    · next h => rw [htables, commit_of_none h]
    · next t' h =>
      exact ⟨by rw [htables, commit_of_some h], hs.one_le_methodCount hr h⟩
  | read userId target => trivial
  | updateUser now userId updates => trivial
  | finalize call => trivial

omit hs

/-- From every database with its keys, in every order of the reads, the deletions and the
transactions of users: a deletion that commits leaves its user a method, one that is refused
changes nothing. -/
theorem keepsMethod_run (env : IdentityEnv) (config : MethodConfig) (hs : s.tables.Keyed)
    (hwaiting : s.waiting = []) (actions : List MethodAction) :
    Runs.Along (step env config) (KeepsMethod env config) s actions := by
  have halong : Runs.Along (step env config) (fun _ _ => True) s actions :=
    Runs.Along.of_forall fun _ _ => trivial
  have hsound : s.Sound config :=
    { users := hs.users
      accounts := hs.oauthAccounts
      credentials := hs.credentials
      waiting := hwaiting ▸ nofun }
  exact (halong.of_invariant hsound (fun s a hs _ => sound_step hs)
    fun s a hs _ => keepsMethod_step hs).1

/-! ### Two deletions at once -/

def twoMethods : MethodState where
  tables :=
    { users := [{ id := "u", updatedAt := 0 }]
      credentials := [{ credentialId := "c", userId := "u" }]
      passkeyIndex := [⟨"c", "u"⟩]
      oauthAccounts := [⟨"a", "u", "google", "1"⟩]
      oauthIndex := [⟨("google", "1"), "u", .confirmed, none, 0⟩] }

def passkeysOnly : MethodConfig := ⟨false, false, false, false, true⟩

def deleteBoth : List MethodAction :=
  let guard : RemainingMethodGuard := ⟨0, true, 0⟩
  [.read "u" (.passkey "c"), .read "u" (.oauth "a" "google" "1"),
    .delete ⟨"u", .passkey "c", guard⟩, .delete ⟨"u", .oauth "a" "google" "1", guard⟩]

/-- The first deletion commits and the second is refused. -/
theorem keepsMethod_deleteBoth :
    Runs.Along (step plainPlatform passkeysOnly) (KeepsMethod plainPlatform passkeysOnly) twoMethods
        deleteBoth ∧ (Runs.last (step plainPlatform passkeysOnly) twoMethods deleteBoth).tables =
        { twoMethods.tables with credentials := [], passkeyIndex := [] } :=
  ⟨keepsMethod_run plainPlatform passkeysOnly (by constructor <;> decide) rfl deleteBoth,
    by decide +kernel⟩

end MethodState

end Auth

end EdgeBase
