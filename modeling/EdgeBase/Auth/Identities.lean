import EdgeBase.Auth.Challenges
import EdgeBase.Auth.Reservations
import EdgeBase.Validation

/-!
# Finalising an identity

The transactions of `auth-d1-service.ts` that give a user an identity.  Each is a batch of
conditional statements; the last of them is a guard over the tables that the others left, and a guard
that fails rolls the batch back.

* `userUpdates`, `UserRow.mutate`, `updateUser` : what an update of a user sets.
-/

namespace EdgeBase

namespace Auth

/-- The functions of the platform that the transactions use. -/
structure IdentityEnv where
  /-- `hashAuthSecret`. -/
  hash : String → String
  /-- `JSON.stringify(value)`. -/
  stringify : Json → String
  /-- `String(value)` of a value that is not a text. -/
  textOf : Json → String
  /-- `text.toLowerCase()`. -/
  toLowerCase : String → String

/-! ### Users -/

def userColumns : List String :=
  ["email", "passwordHash", "displayName", "avatarUrl", "emailVisibility", "role", "status",
    "verified", "isAnonymous", "locale", "metadata", "appMetadata", "customClaims", "phone",
    "phoneVerified", "disabled", "lastSignedInAt"]

/-- `text.trim()`. -/
def trimText (s : String) : String :=
  String.ofList (((s.toList.dropWhile isTrimmed).reverse.dropWhile isTrimmed).reverse)

section Users

variable (env : IdentityEnv)

/-- `String(value)`. -/
def IdentityEnv.text : Json → String
  | .str s => s
  | value => env.textOf value

/-- What an update writes to a column, `none` when it is skipped. -/
def userValue (key : String) (rawValue : Json) : Option Json :=
  if key ∉ userColumns then none
  else if key = "status" ∧ env.text rawValue ∉ ["active", "suspended", "banned", "disabled"] then
    none
  else if key = "emailVisibility" ∧ env.text rawValue ∉ ["public", "private"] then none
  else if key = "role" then
    match rawValue with
    | .str role => if isBlank role then none else some (.str (trimText role))
    | _ => none
  else
    match rawValue with
    | .arr _ | .obj _ =>
      if key ∈ ["customClaims", "metadata", "appMetadata"] then
        some (.str (env.stringify rawValue))
      else some rawValue
    | .bool b =>
      if key ∈ ["verified", "isAnonymous", "phoneVerified", "disabled"] then
        some (.num (if b then 1 else 0))
      else some rawValue
    | _ => some rawValue

def userUpdates (updates : Row) : Row :=
  updates.filterMap fun b => (userValue env b.1 b.2).map fun v => (b.1, v)

/-- `SET …, updatedAt = ?, authRevision = authRevision + 1, authMutationId = ?`. -/
def UserRow.mutate (now : Int) (mutationId : Uuid) (columns : Row) (u : UserRow) : UserRow where
  id := u.id
  columns := Assoc.merge u.columns columns
  updatedAt := now
  authRevision := u.authRevision + 1
  authMutationId := some mutationId

end Users

def UserRow.At (userId : String) (authRevision : Int) (u : UserRow) : Prop :=
  u.id = userId ∧ u.authRevision = authRevision

instance (userId : String) (authRevision : Int) : DecidablePred (UserRow.At userId authRevision) :=
  fun _ => inferInstanceAs (Decidable (_ ∧ _))

def UserRow.Mutated (userId : String) (authRevision : Int) (mutationId : Uuid) (u : UserRow) :
    Prop :=
  u.At userId authRevision ∧ u.authMutationId = some mutationId

instance (userId : String) (authRevision : Int) (mutationId : Uuid) :
    DecidablePred (UserRow.Mutated userId authRevision mutationId) :=
  fun _ => inferInstanceAs (Decidable (_ ∧ _))

/-- `COALESCE(disabled, 0) = 0`. -/
def UserRow.enabled (u : UserRow) : Bool :=
  match u.columns.lookup "disabled" with
  | none | some .null => true
  | some value => value = .num 0

/-- `isAnonymous = 0`. -/
def UserRow.isNamed (u : UserRow) : Bool := u.columns.lookup "isAnonymous" = some (.num 0)

/-- The email of a user, unless it is `NULL`. -/
def UserRow.email? (u : UserRow) : Option Json :=
  (u.columns.lookup "email").filter (· ≠ .null)

/-- The keys of `_users` and its unique emails. -/
def UsersValid (t : Tables) : Prop :=
  Table.Unique UserRow.id t.users ∧ (t.users.filterMap UserRow.email?).Nodup

/-- The keys of `_oauth_accounts`; an account may be there once with its provider. -/
def AccountsValid (t : Tables) : Prop := Table.Unique OAuthAccount.id t.oauthAccounts

/-- The refresh tokens of `_sessions` are unique. -/
def SessionsValid (t : Tables) : Prop := Table.Unique SessionRow.refreshToken t.sessions

instance : DecidablePred UsersValid := fun _ => inferInstanceAs (Decidable (_ ∧ _))

instance : DecidablePred AccountsValid := fun _ => inferInstanceAs (Decidable (Table.Unique _ _))

instance : DecidablePred SessionsValid := fun _ => inferInstanceAs (Decidable (Table.Unique _ _))

/-- `updateUser`, where an enumeration admits no value that is not a text; `none` when it throws. -/
def updateUser (env : IdentityEnv) (now : Int) (mutationId : Uuid) (userId : String)
    (updates : Row) : Batch.Statement Tables :=
  let columns := userUpdates { env with textOf := fun _ => "" } updates
  if columns = [] then Batch.run []
  else Batch.run
    [ .write fun t => { t with
        users := Table.update (·.id = userId) (UserRow.mutate now mutationId columns) t.users },
      .guard UsersValid ]

/-! ### OAuth -/

structure CreateUserInput where
  userId : String
  email : Option String
  passwordHash : String
  displayName : Option String := none
  avatarUrl : Option String := none
  emailVisibility : Option String := none
  role : Option String := none
  verified : Bool := false
  locale : Option String := none
  metadata : Option Row := none
  appMetadata : Option Row := none

/-- A text or `NULL`. -/
def nullable (s : Option String) : Json := (s.map Json.str).getD .null

def CreateUserInput.row (env : IdentityEnv) (now : Int) (create : CreateUserInput) : UserRow where
  id := create.userId
  columns :=
    [("email", nullable create.email),
      ("passwordHash", .str create.passwordHash),
      ("displayName", nullable create.displayName),
      ("avatarUrl", nullable create.avatarUrl),
      ("emailVisibility", .str (create.emailVisibility.getD "private")),
      ("role", .str (create.role.getD "user")),
      ("verified", .num (if create.verified then 1 else 0)),
      ("isAnonymous", .num 0),
      ("locale", .str (create.locale.getD "en")),
      ("metadata", nullable (create.metadata.map fun m => env.stringify (.obj m))),
      ("appMetadata", nullable (create.appMetadata.map fun m => env.stringify (.obj m)))]
  updatedAt := now

/-- The user of `FinalizeOAuthIdentityInput`. -/
inductive OAuthUser where
  | create (input : CreateUserInput)
  | update (userId : String) (updates : Row) (expectedAuthRevision : Int)

structure EmailReservation where
  email : String
  userId : String
  reservationId : String

structure FinalizeOAuthIdentityInput where
  oauthAccount : OAuthAccount
  oauthReservationId : String
  emailReservation : Option EmailReservation := none
  user : OAuthUser
  deleteAnonymousIndex : Bool := false
  revokeSessionsOnUpgrade : Bool := false

namespace FinalizeOAuthIdentityInput

variable (input : FinalizeOAuthIdentityInput) (mutationId : Uuid) (t : Tables)

def userId : String :=
  match input.user with
  | .create create => create.userId
  | .update userId _ _ => userId

def identity : String × String := input.oauthAccount.identity

/-- The identity, and the email if there is one, are reserved for the user, and no other user has
the account. -/
def Guarded : Prop :=
  (∃ r ∈ t.oauthIndex, r.Pending input.identity input.userId input.oauthReservationId) ∧
  (∀ e ∈ input.emailReservation,
    ∃ r ∈ t.emailIndex, r.Pending e.email input.userId e.reservationId) ∧
  ((¬∃ a ∈ t.oauthAccounts, a.identity = input.identity) ∨
    ∃ a ∈ t.oauthAccounts, a.identity = input.identity ∧ a.userId = input.userId)

instance : Decidable (input.Guarded t) := inferInstanceAs (Decidable (_ ∧ (∀ _ ∈ _, _) ∧ _))

def Final (u : UserRow) : Prop :=
  match input.user with
  | .create create => u.At create.userId 0
  | .update userId _ expectedAuthRevision => u.Mutated userId (expectedAuthRevision + 1) mutationId

instance : DecidablePred (input.Final mutationId) := fun u => by
  unfold Final
  split <;> infer_instance

def Linked : Prop :=
  ∃ a ∈ t.oauthAccounts, a.userId = input.userId ∧ a.identity = input.identity

instance : Decidable (input.Linked t) := inferInstanceAs (Decidable (∃ _ ∈ _, _))

def Indexed : Prop := ∃ r ∈ t.oauthIndex, r.Confirmed input.identity input.userId

instance : Decidable (input.Indexed t) := inferInstanceAs (Decidable (∃ _ ∈ _, _))

end FinalizeOAuthIdentityInput

section OAuth

variable (env : IdentityEnv) (now : Int) (mutationId : Uuid) (input : FinalizeOAuthIdentityInput)

def oauthUserStatement : Tables → Tables := fun t =>
  match input.user with
  | .create create =>
    { t with users := if input.Guarded t then t.users ++ [create.row env now] else t.users }
  | .update userId updates expectedAuthRevision => { t with
      users := Table.update (fun u => u.At userId expectedAuthRevision ∧ input.Guarded t)
        (UserRow.mutate now mutationId (userUpdates env updates)) t.users }

/-- The statements of `finalizeOAuthIdentity`. -/
def oauthStatements : List (Batch.Statement Tables) :=
  [ .write (oauthUserStatement env now mutationId input),
    .guard UsersValid,
    .write fun t => { t with
      oauthAccounts :=
        if ((∃ u ∈ t.users, input.Final mutationId u) ∧ input.Guarded t) ∧
            ¬∃ a ∈ t.oauthAccounts, a.identity = input.identity then
          t.oauthAccounts ++ [{ input.oauthAccount with userId := input.userId }]
        else t.oauthAccounts },
    .guard AccountsValid,
    .write fun t => { t with
      oauthIndex := Table.update
        (fun r => r.Pending input.identity input.userId input.oauthReservationId ∧ input.Linked t)
        Reservation.confirm t.oauthIndex },
    .write fun t => { t with
      emailIndex := match input.emailReservation with
        | some e => Table.update
            (fun r => r.Pending e.email input.userId e.reservationId ∧ input.Linked t)
            Reservation.confirm t.emailIndex
        | none => t.emailIndex },
    .write fun t => { t with
      anonIndex := Table.delete
        (fun u => input.deleteAnonymousIndex = true ∧ u = input.userId ∧ input.Indexed t)
        t.anonIndex },
    .write fun t => { t with
      sessions := Table.delete
        (fun x => input.revokeSessionsOnUpgrade = true ∧ x.userId = input.userId ∧
          input.Indexed t ∧ ∃ u ∈ t.users, input.Final mutationId u ∧ u.isNamed = true)
        t.sessions },
    .guard fun t =>
      input.Linked t ∧ input.Indexed t ∧ (∃ u ∈ t.users, input.Final mutationId u) ∧
        ∀ e ∈ input.emailReservation, ∃ r ∈ t.emailIndex, r.Confirmed e.email input.userId ]

/-- `finalizeOAuthIdentity`; `none` when it throws. -/
def finalizeOAuthIdentity : Batch.Statement Tables := fun t =>
  if input.oauthAccount.userId ≠ input.userId ∨
      ∃ e ∈ input.emailReservation, e.userId ≠ input.userId then none
  else Batch.run (oauthStatements env now mutationId input) t

/-- What `finalizeOAuthIdentity` reports when it returns. -/
def FinalizeOAuthIdentityInput.created : Bool :=
  match input.user with
  | .create _ => true
  | .update _ _ _ => false

end OAuth

/-! ### Contacts -/

inductive ContactKind where
  | email
  | phone
  deriving DecidableEq

/-- `_email_index` or `_phone_index`. -/
def Tables.contactIndex (kind : ContactKind) (t : Tables) : List (Reservation String) :=
  match kind with
  | .email => t.emailIndex
  | .phone => t.phoneIndex

/-- A change of `_email_index` or `_phone_index`. -/
def Tables.onContactIndex (kind : ContactKind)
    (f : List (Reservation String) → List (Reservation String)) (t : Tables) : Tables :=
  match kind with
  | .email => { t with emailIndex := f t.emailIndex }
  | .phone => { t with phoneIndex := f t.phoneIndex }

def HasContact (kind : ContactKind) (value userId : String) (t : Tables) : Prop :=
  ∃ r ∈ t.contactIndex kind, r.Confirmed value userId

instance (kind : ContactKind) (value userId : String) : DecidablePred (HasContact kind value userId) :=
  fun _ => inferInstanceAs (Decidable (∃ _ ∈ _, _))

/-- The text of an optional text that is not empty. -/
def filled (s : Option String) : Option String := s.filter (· ≠ "")

/-- The statement that confirms a contact for a user whom the transaction has updated. -/
def confirmContact (kind : ContactKind) (value userId reservationId : String)
    (q : Tables → Prop) [DecidablePred q] (t : Tables) : Tables :=
  t.onContactIndex kind (Table.update (fun r => r.Pending value userId reservationId ∧ q t)
    Reservation.confirm)

/-- The statement that removes the contact that a user had before. -/
def removeContact (kind : ContactKind) (value : Option String) (userId : String)
    (q : Tables → Prop) [DecidablePred q] (t : Tables) : Tables :=
  t.onContactIndex kind (Table.delete fun r => some r.key = value ∧ r.userId = userId ∧ q t)

structure FinalizeContactIdentityInput where
  userId : String
  expectedAuthRevision : Int
  value : String
  reservationId : String
  updates : Row
  previousValue : Option String := none
  deleteAnonymousIndex : Bool := false
  revokeSessionsOnUpgrade : Bool := false

structure ManagedContactChange where
  kind : ContactKind
  previousValue : Option String
  nextValue : Option String
  reservationId : Option String := none

structure FinalizeManagedUserUpdateInput where
  userId : String
  expectedAuthRevision : Int
  updates : Row
  contacts : List ManagedContactChange

def ManagedContactChange.claims (contact : ManagedContactChange) : Option (String × String) :=
  match filled contact.nextValue, filled contact.reservationId with
  | some value, some reservationId => some (value, reservationId)
  | _, _ => none

def ManagedContactChange.drops (contact : ManagedContactChange) : Option String :=
  (filled contact.previousValue).filter fun value => some value ≠ contact.nextValue

section Contact

variable (env : IdentityEnv) (now : Int) (mutationId : Uuid)

def Updated (userId : String) (expectedAuthRevision : Int) (t : Tables) : Prop :=
  ∃ u ∈ t.users, u.Mutated userId (expectedAuthRevision + 1) mutationId

instance (userId : String) (expectedAuthRevision : Int) :
    DecidablePred (Updated mutationId userId expectedAuthRevision) :=
  fun _ => inferInstanceAs (Decidable (∃ _ ∈ _, _))

/-- The statements of `finalizeContactIdentity`. -/
def contactStatements (kind : ContactKind) (input : FinalizeContactIdentityInput) :
    List (Batch.Statement Tables) :=
  let { userId, expectedAuthRevision, value, reservationId, .. } := input
  let previousValue := (filled input.previousValue).filter (· ≠ value)
  [ .write fun t => { t with
      users := Table.update
        (fun u => u.At userId expectedAuthRevision ∧
          ∃ r ∈ t.contactIndex kind, r.Pending value userId reservationId)
        (UserRow.mutate now mutationId (userUpdates env input.updates)) t.users },
    .guard UsersValid,
    .write (confirmContact kind value userId reservationId
      (Updated mutationId userId expectedAuthRevision)),
    .write (removeContact kind previousValue userId (HasContact kind value userId)),
    .write fun t => { t with
      anonIndex := Table.delete
        (fun u => input.deleteAnonymousIndex = true ∧ u = userId ∧ HasContact kind value userId t)
        t.anonIndex },
    .write fun t => { t with
      sessions := Table.delete
        (fun x => input.revokeSessionsOnUpgrade = true ∧ x.userId = userId ∧
          HasContact kind value userId t ∧ ∃ u ∈ t.users,
            u.Mutated userId (expectedAuthRevision + 1) mutationId ∧ u.isNamed = true)
        t.sessions },
    .guard fun t =>
      Updated mutationId userId expectedAuthRevision t ∧ HasContact kind value userId t ]

/-- `finalizeContactIdentity`; `none` when it throws. -/
def finalizeContactIdentity (kind : ContactKind) (input : FinalizeContactIdentityInput) :
    Batch.Statement Tables := Batch.run (contactStatements env now mutationId kind input)

def finalizeEmailIdentity : FinalizeContactIdentityInput → Batch.Statement Tables :=
  finalizeContactIdentity env now mutationId .email

def finalizePhoneIdentity : FinalizeContactIdentityInput → Batch.Statement Tables :=
  finalizeContactIdentity env now mutationId .phone

def managedContactStatements (input : FinalizeManagedUserUpdateInput)
    (contact : ManagedContactChange) : List (Batch.Statement Tables) :=
  (match contact.claims with
    | some (value, reservationId) =>
      [ .write (confirmContact contact.kind value input.userId reservationId
          (Updated mutationId input.userId input.expectedAuthRevision)) ]
    | none => []) ++
  [ .write (removeContact contact.kind contact.drops input.userId
      (Updated mutationId input.userId input.expectedAuthRevision)) ]

/-- The statements of `finalizeManagedUserUpdate`. -/
def managedStatements (input : FinalizeManagedUserUpdateInput) : List (Batch.Statement Tables) :=
  [ .write fun t => { t with
      users := Table.update
        (fun u => u.At input.userId input.expectedAuthRevision ∧
          ∀ contact ∈ input.contacts, ∀ claim ∈ contact.claims,
            ∃ r ∈ t.contactIndex contact.kind, r.Pending claim.1 input.userId claim.2)
        (UserRow.mutate now mutationId (userUpdates env input.updates)) t.users },
    .guard UsersValid ] ++
  input.contacts.flatMap (managedContactStatements mutationId input) ++
  [ .guard fun t => Updated mutationId input.userId input.expectedAuthRevision t ∧
      ∀ contact ∈ input.contacts, ∀ value ∈ filled contact.nextValue,
        HasContact contact.kind value input.userId t ]

/-- `finalizeManagedUserUpdate`; `none` when it throws. -/
def finalizeManagedUserUpdate (input : FinalizeManagedUserUpdateInput) : Batch.Statement Tables :=
  Batch.run (managedStatements env now mutationId input)

end Contact

/-! ### Anonymous upgrades -/

structure CreateSessionInput where
  id : String
  userId : String
  refreshToken : String
  expiresAt : Int
  metadata : Option String := none
  previousRefreshToken : Option String := none
  rotatedAt : Option Int := none

def CreateSessionInput.row (now : Int) (userId : String) (session : CreateSessionInput) :
    SessionRow where
  id := session.id
  userId
  refreshToken := session.refreshToken
  previousRefreshToken := session.previousRefreshToken
  rotatedAt := session.rotatedAt
  expiresAt := session.expiresAt
  createdAt := now
  metadata := session.metadata

structure FinalizeAnonymousEmailUpgradeInput where
  userId : String
  initiatingSessionId : String
  expectedAuthRevision : Int
  email : String
  previousEmail : Option String := none
  passwordHash : String
  reservationId : String
  passwordProof : String
  encryptedCompletion : String
  completionExpiresAt : Int
  replacementSession : CreateSessionInput

structure FinalizeAnonymousPhoneUpgradeInput where
  userId : String
  expectedAuthRevision : Int
  phone : String
  previousPhone : Option String := none
  reservationId : String
  challengeKey : String
  challengeSecretHash : String
  encryptedCompletion : String
  completionExpiresAt : Int
  replacementSession : CreateSessionInput

/-- A text that is neither empty nor longer than a bound. -/
def Bounded (bound : ℕ) (s : String) : Prop := s ≠ "" ∧ utf16Length s ≤ bound

instance (bound : ℕ) : DecidablePred (Bounded bound) := fun _ => inferInstanceAs (Decidable (_ ∧ _))

/-- `/^hmac-sha256:[0-9a-f]{64}$/`. -/
def isPasswordProof (s : String) : Bool :=
  "hmac-sha256:".toList.isPrefixOf s.toList && (s.toList.drop 12).length == 64 &&
    (s.toList.drop 12).all fun c => ('0' ≤ c && c ≤ '9') || ('a' ≤ c && c ≤ 'f')

section Upgrades

/-- The statements that follow once an anonymous user has a contact: the contact is confirmed, the
sessions of the user make way for one, and the guard asks for all of it. -/
def upgradeStatements (now : Int) (kind : ContactKind) (value userId reservationId : String)
    (previousValue : Option String) (session : CreateSessionInput) (upgraded : UserRow → Prop)
    (completed : Tables → Prop) [DecidablePred upgraded] [DecidablePred completed] :
    List (Batch.Statement Tables) :=
  [ .write (confirmContact kind value userId reservationId fun t => ∃ u ∈ t.users, upgraded u),
    .write (removeContact kind ((filled previousValue).filter (· ≠ value)) userId
      fun t => ∃ u ∈ t.users, upgraded u),
    .write fun t => { t with
      anonIndex := Table.delete (fun u => u = userId ∧ ∃ u ∈ t.users, upgraded u) t.anonIndex },
    .write fun t => { t with
      sessions := Table.delete (fun x => x.userId = userId ∧ ∃ u ∈ t.users, upgraded u)
        t.sessions },
    .write fun t => { t with
      sessions :=
        if (∃ u ∈ t.users, upgraded u) ∧ ¬∃ x ∈ t.sessions, x.id = session.id then
          t.sessions ++ [session.row now userId]
        else t.sessions },
    .guard SessionsValid,
    .guard fun t =>
      completed t ∧ (∃ u ∈ t.users, upgraded u) ∧ HasContact kind value userId t ∧
      (∃ x ∈ t.sessions, x.id = session.id ∧ x.userId = userId ∧
        x.refreshToken = session.refreshToken ∧ x.expiresAt = session.expiresAt) ∧
      (¬∃ x ∈ t.sessions, x.userId = userId ∧ x.id ≠ session.id) ∧
      userId ∉ t.anonIndex ]

variable (env : IdentityEnv) (now : Int) (attemptId : Uuid)

/-- The input that `finalizeAnonymousEmailUpgrade` accepts. -/
def FinalizeAnonymousEmailUpgradeInput.Valid (input : FinalizeAnonymousEmailUpgradeInput) : Prop :=
  (Bounded 512 input.userId ∧ Bounded 512 input.initiatingSessionId ∧
    0 ≤ input.expectedAuthRevision ∧ Bounded 320 input.email ∧
    input.email = env.toLowerCase (trimText input.email) ∧
    (∀ previous ∈ input.previousEmail, utf16Length previous ≤ 320) ∧
    Bounded 1024 input.passwordHash ∧ isPasswordProof input.passwordProof = true ∧
    Bounded 512 input.reservationId ∧ Bounded 16384 input.encryptedCompletion) ∧
  (now < input.completionExpiresAt ∧ input.completionExpiresAt ≤ now + 10 * 60 * 1000) ∧
  input.replacementSession.userId = input.userId ∧ Bounded 512 input.replacementSession.id ∧
  Bounded 8192 input.replacementSession.refreshToken ∧ now < input.replacementSession.expiresAt ∧
  ∀ metadata ∈ input.replacementSession.metadata, utf16Length metadata ≤ 16384

instance (input : FinalizeAnonymousEmailUpgradeInput) : Decidable (input.Valid env now) :=
  inferInstanceAs (Decidable ((_ ∧ _ ∧ _ ∧ _ ∧ _ ∧ (∀ _ ∈ _, _) ∧ _) ∧ _ ∧ _ ∧ _ ∧ _ ∧ _ ∧
    ∀ _ ∈ _, _))

/-- The checkpoint that lets the upgrade be answered again. -/
def FinalizeAnonymousEmailUpgradeInput.checkpoint (input : FinalizeAnonymousEmailUpgradeInput) :
    Challenge where
  key := authChallengeKey env.hash "email-link-completion" (input.userId ++ "\x00" ++ input.email)
  kind := "email-link-completion"
  userId := some input.userId
  subject := some input.email
  secretHash := some input.passwordProof
  payload := some input.encryptedCompletion
  maxAttempts := 1
  expiresAt := input.completionExpiresAt
  consumedAt := some now
  consumptionId := some attemptId
  createdAt := now

def FinalizeAnonymousEmailUpgradeInput.Checkpointed (input : FinalizeAnonymousEmailUpgradeInput)
    (t : Tables) : Prop :=
  ∃ c ∈ t.challenges, c.key = (input.checkpoint env now attemptId).key ∧
    c.kind = "email-link-completion" ∧ c.userId = some input.userId ∧
    c.subject = some input.email ∧ c.secretHash = some input.passwordProof ∧
    c.consumptionId = some attemptId ∧ c.payload = some input.encryptedCompletion ∧
    c.consumedAt ≠ none ∧ now < c.expiresAt

instance (input : FinalizeAnonymousEmailUpgradeInput) :
    DecidablePred (input.Checkpointed env now attemptId) :=
  fun _ => inferInstanceAs (Decidable (∃ _ ∈ _, _))

def FinalizeAnonymousEmailUpgradeInput.Upgraded (input : FinalizeAnonymousEmailUpgradeInput)
    (u : UserRow) : Prop :=
  u.Mutated input.userId (input.expectedAuthRevision + 1) attemptId ∧ u.isNamed = true ∧
    u.enabled = true ∧ u.columns.lookup "email" = some (.str input.email) ∧
    u.columns.lookup "passwordHash" = some (.str input.passwordHash)

instance (input : FinalizeAnonymousEmailUpgradeInput) : DecidablePred (input.Upgraded attemptId) :=
  fun _ => inferInstanceAs (Decidable (_ ∧ _ ∧ _ ∧ _ ∧ _))

def FinalizeAnonymousEmailUpgradeInput.columns (input : FinalizeAnonymousEmailUpgradeInput) : Row :=
  [("email", .str input.email), ("passwordHash", .str input.passwordHash),
    ("isAnonymous", .num 0), ("lastSignedInAt", .num now)]

/-- The statements of `finalizeAnonymousEmailUpgrade`; the one that only locks the session is left
out. -/
def emailUpgradeStatements (input : FinalizeAnonymousEmailUpgradeInput) :
    List (Batch.Statement Tables) :=
  let checkpoint := input.checkpoint env now attemptId
  [ .write fun t => { t with challenges := Table.delete (·.expiresAt ≤ now) t.challenges },
    .write fun t => { t with
      challenges :=
        if ((∃ r ∈ t.emailIndex, r.Pending input.email input.userId input.reservationId) ∧
            (∃ u ∈ t.users, u.At input.userId input.expectedAuthRevision ∧
              u.flag "isAnonymous" = true ∧ u.enabled = true) ∧
            (∃ x ∈ t.sessions, x.id = input.initiatingSessionId ∧ x.userId = input.userId ∧
              now < x.expiresAt) ∧
            t.challenges.length < 20000) ∧
            ¬∃ c ∈ t.challenges, c.key = checkpoint.key then
          t.challenges ++ [checkpoint]
        else t.challenges },
    .write fun t => { t with
      users := Table.update
        (fun u => u.At input.userId input.expectedAuthRevision ∧ u.flag "isAnonymous" = true ∧
          u.enabled = true ∧ input.Checkpointed env now attemptId t)
        (UserRow.mutate now attemptId (input.columns now)) t.users },
    .guard UsersValid ] ++
  upgradeStatements now .email input.email input.userId input.reservationId input.previousEmail
    input.replacementSession (input.Upgraded attemptId) (input.Checkpointed env now attemptId)

/-- `finalizeAnonymousEmailUpgrade`; `none` when it throws. -/
def finalizeAnonymousEmailUpgrade (input : FinalizeAnonymousEmailUpgradeInput) :
    Batch.Statement Tables := fun t =>
  if input.Valid env now then Batch.run (emailUpgradeStatements env now attemptId input) t else none

/-- The input that `finalizeAnonymousPhoneUpgrade` accepts. -/
def FinalizeAnonymousPhoneUpgradeInput.Valid (input : FinalizeAnonymousPhoneUpgradeInput) : Prop :=
  (input.challengeSecretHash ≠ "" ∧ Bounded 16384 input.encryptedCompletion) ∧
  (now < input.completionExpiresAt ∧ input.completionExpiresAt ≤ now + 10 * 60 * 1000) ∧
  input.replacementSession.userId = input.userId ∧ input.replacementSession.id ≠ "" ∧
  input.replacementSession.refreshToken ≠ "" ∧ now < input.replacementSession.expiresAt

instance (input : FinalizeAnonymousPhoneUpgradeInput) : Decidable (input.Valid now) :=
  inferInstanceAs (Decidable ((_ ∧ _) ∧ _ ∧ _ ∧ _ ∧ _ ∧ _))

def FinalizeAnonymousPhoneUpgradeInput.Checkpointed (input : FinalizeAnonymousPhoneUpgradeInput)
    (t : Tables) : Prop :=
  ∃ c ∈ t.challenges, c.key = input.challengeKey ∧ c.kind = "phone-link-completion" ∧
    c.userId = some input.userId ∧ c.subject = some input.phone ∧
    c.secretHash = some input.challengeSecretHash ∧ c.consumptionId = some attemptId ∧
    c.payload = some input.encryptedCompletion ∧ now < c.expiresAt

instance (input : FinalizeAnonymousPhoneUpgradeInput) :
    DecidablePred (input.Checkpointed now attemptId) :=
  fun _ => inferInstanceAs (Decidable (∃ _ ∈ _, _))

def FinalizeAnonymousPhoneUpgradeInput.Upgraded (input : FinalizeAnonymousPhoneUpgradeInput)
    (u : UserRow) : Prop :=
  u.Mutated input.userId (input.expectedAuthRevision + 1) attemptId ∧ u.isNamed = true

instance (input : FinalizeAnonymousPhoneUpgradeInput) : DecidablePred (input.Upgraded attemptId) :=
  fun _ => inferInstanceAs (Decidable (_ ∧ _))

/-- The code that an upgrade turns into its checkpoint. -/
def FinalizeAnonymousPhoneUpgradeInput.Code (input : FinalizeAnonymousPhoneUpgradeInput)
    (c : Challenge) : Prop :=
  c.Usable now input.challengeKey "phone-link-otp" ∧ c.userId = some input.userId ∧
    c.subject = some input.phone ∧ c.secretHash = some input.challengeSecretHash

instance (input : FinalizeAnonymousPhoneUpgradeInput) : DecidablePred (input.Code now) :=
  fun _ => inferInstanceAs (Decidable (_ ∧ _ ∧ _ ∧ _))

def FinalizeAnonymousPhoneUpgradeInput.checkpoint (input : FinalizeAnonymousPhoneUpgradeInput)
    (c : Challenge) : Challenge :=
  { c with
    kind := "phone-link-completion"
    payload := some input.encryptedCompletion
    consumedAt := some now
    consumptionId := some attemptId
    expiresAt := input.completionExpiresAt }

def FinalizeAnonymousPhoneUpgradeInput.columns (input : FinalizeAnonymousPhoneUpgradeInput) : Row :=
  [("phone", .str input.phone), ("phoneVerified", .num 1), ("isAnonymous", .num 0),
    ("lastSignedInAt", .num now)]

/-- The statements of `finalizeAnonymousPhoneUpgrade`. -/
def phoneUpgradeStatements (input : FinalizeAnonymousPhoneUpgradeInput) :
    List (Batch.Statement Tables) :=
  [ .write fun t => { t with
      challenges := Table.update (input.Code now) (input.checkpoint now attemptId) t.challenges },
    .write fun t => { t with
      users := Table.update
        (fun u => u.At input.userId input.expectedAuthRevision ∧ u.flag "isAnonymous" = true ∧
          input.Checkpointed now attemptId t)
        (UserRow.mutate now attemptId (input.columns now)) t.users } ] ++
  upgradeStatements now .phone input.phone input.userId input.reservationId input.previousPhone
    input.replacementSession (input.Upgraded attemptId) (input.Checkpointed now attemptId)

/-- `finalizeAnonymousPhoneUpgrade`; `none` when it throws. -/
def finalizeAnonymousPhoneUpgrade (input : FinalizeAnonymousPhoneUpgradeInput) :
    Batch.Statement Tables := fun t =>
  if input.Valid now then Batch.run (phoneUpgradeStatements now attemptId input) t else none

end Upgrades

end Auth

end EdgeBase
