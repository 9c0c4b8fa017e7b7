import EdgeBase.Json
import EdgeBase.Lib.Runs
import EdgeBase.Lib.Table

/-!
# The tables of the auth database

The rows of `auth-d1.ts`, as the services of `auth-d1-service.ts` read and write them.  Times are
milliseconds.  A random id is one that was not drawn before: it is the number of its drawing.

* `Tables` : the database; `Tables.Keyed` says that its keys are unique.
-/

namespace EdgeBase

namespace Auth

/-- `crypto.randomUUID()`, where only its being new matters. -/
abbrev Uuid := ℕ

/-- Every random id of some rows was drawn before `n`. -/
def Drawn {ρ : Type} (id : ρ → Option Uuid) (n : Uuid) (rows : List ρ) : Prop :=
  ∀ r ∈ rows, ∀ k ∈ id r, k < n

section Drawn

variable {ρ : Type} {id : ρ → Option Uuid} {n m : Uuid} {rows rows' : List ρ}

theorem Drawn.fresh (h : Drawn id n rows) : ∀ r ∈ rows, id r ≠ some n := fun r hr hn =>
  lt_irrefl n (h r hr n hn)

theorem Drawn.mono (h : Drawn id n rows) (hnm : n ≤ m) : Drawn id m rows :=
  fun r hr k hk => (h r hr k hk).trans_le hnm

theorem Drawn.of_subset (h : Drawn id n rows) (hsub : rows' ⊆ rows) : Drawn id n rows' :=
  fun r hr => h r (hsub hr)

theorem Drawn.update {p : ρ → Prop} [DecidablePred p] {f : ρ → ρ} (h : Drawn id n rows)
    (hf : ∀ r, id (f r) = id r ∨ id (f r) = some n) : Drawn id (n + 1) (Table.update p f rows) := by
  intro r hr k hk
  obtain ⟨hr, -⟩ | ⟨x, hx, -, rfl⟩ := Table.mem_update_cases hr
  · exact (h r hr k hk).trans (Nat.lt_succ_self n)
  · rcases hf x with heq | heq
    · rw [heq] at hk
      exact (h x hx k hk).trans (Nat.lt_succ_self n)
    · rw [heq] at hk
      obtain rfl := Option.some.inj hk
      exact Nat.lt_succ_self _

end Drawn

/-- A row of `_auth_challenges`. -/
structure Challenge where
  key : String
  kind : String
  userId : Option String := none
  subject : Option String := none
  secretHash : Option String := none
  payload : Option String := none
  attempts : ℕ := 0
  maxAttempts : ℕ
  expiresAt : Int
  consumedAt : Option Int := none
  consumptionId : Option Uuid := none
  createdAt : Int
  deriving DecidableEq

/-- A row of `_mfa_recovery_codes`. -/
structure RecoveryCode where
  id : String
  userId : String
  codeHash : String
  used : Bool := false
  deriving DecidableEq

/-- A row of `_mfa_factors`. -/
structure MfaFactor where
  id : String
  userId : String
  secret : String
  verified : Bool := false
  deriving DecidableEq

/-- A row of `_webauthn_challenges`. -/
structure WebAuthnChallenge where
  challenge : String
  kind : String
  userId : Option String := none
  expiresAt : Int
  consumptionId : Option Uuid := none
  deriving DecidableEq

/-- A row of `_webauthn_credentials`. -/
structure Credential where
  credentialId : String
  userId : String
  counter : Int := 0
  deriving DecidableEq

/-- A row of `_users`; the columns that a request may set are an object. -/
structure UserRow where
  id : String
  columns : Row := []
  authRevision : ℕ := 0
  authMutationId : Option Uuid := none
  updatedAt : Int
  deriving DecidableEq

def UserRow.flag (u : UserRow) (column : String) : Bool := u.columns.lookup column = some (.num 1)

/-- A row of `_sessions`. -/
structure SessionRow where
  id : String
  userId : String
  refreshToken : String
  previousRefreshToken : Option String := none
  rotatedAt : Option Int := none
  expiresAt : Int
  createdAt : Int
  metadata : Option String := none
  deriving DecidableEq

inductive ReservationStatus where
  | pending
  | confirmed
  deriving DecidableEq

/-- A row of `_email_index`, `_phone_index` or `_oauth_index`. -/
structure Reservation (κ : Type) where
  key : κ
  userId : String
  status : ReservationStatus
  reservationId : Option String
  createdAt : Int
  deriving DecidableEq

/-- A row of `_oauth_accounts`. -/
structure OAuthAccount where
  id : String
  userId : String
  provider : String
  providerUserId : String
  deriving DecidableEq

/-- A row of `_passkey_index`. -/
structure PasskeyEntry where
  credentialId : String
  userId : String
  deriving DecidableEq

def OAuthAccount.identity (account : OAuthAccount) : String × String :=
  (account.provider, account.providerUserId)

structure Tables where
  challenges : List Challenge := []
  recoveryCodes : List RecoveryCode := []
  mfaFactors : List MfaFactor := []
  webauthnChallenges : List WebAuthnChallenge := []
  credentials : List Credential := []
  users : List UserRow := []
  sessions : List SessionRow := []
  emailIndex : List (Reservation String) := []
  phoneIndex : List (Reservation String) := []
  oauthIndex : List (Reservation (String × String)) := []
  oauthAccounts : List OAuthAccount := []
  passkeyIndex : List PasskeyEntry := []
  /-- The user ids of `_anon_index`. -/
  anonIndex : List String := []
  deriving DecidableEq

/-- `getUserById`. -/
def getUserById (userId : String) (t : Tables) : Option UserRow := t.users.find? (·.id = userId)

section

variable {userId : String} {t : Tables} {u : UserRow}

theorem of_getUserById (h : getUserById userId t = some u) : u ∈ t.users ∧ u.id = userId :=
  ⟨List.mem_of_find?_eq_some h, by simpa using List.find?_some h⟩

theorem getUserById_of_mem (hunique : Table.Unique UserRow.id t.users) (hu : u ∈ t.users)
    (hid : u.id = userId) : getUserById userId t = some u := by
  obtain ⟨v, hv⟩ := Option.isSome_iff_exists.1
    (List.find?_isSome.2 ⟨u, hu, decide_eq_true hid⟩ : (getUserById userId t).isSome)
  obtain ⟨hmem, hvid⟩ := of_getUserById hv
  obtain rfl := hunique.eq_of_key hu hmem (hid.trans hvid.symm)
  exact hv

end

structure Tables.Keyed (t : Tables) : Prop where
  challenges : Table.Unique Challenge.key t.challenges
  recoveryCodes : Table.Unique RecoveryCode.id t.recoveryCodes
  webauthnChallenges : Table.Unique WebAuthnChallenge.challenge t.webauthnChallenges
  credentials : Table.Unique Credential.credentialId t.credentials
  users : Table.Unique UserRow.id t.users
  sessions : Table.Unique SessionRow.id t.sessions
  emailIndex : Table.Unique Reservation.key t.emailIndex
  phoneIndex : Table.Unique Reservation.key t.phoneIndex
  oauthIndex : Table.Unique Reservation.key t.oauthIndex
  oauthAccounts : Table.Unique OAuthAccount.identity t.oauthAccounts
  passkeyIndex : Table.Unique PasskeyEntry.credentialId t.passkeyIndex

end Auth

end EdgeBase
