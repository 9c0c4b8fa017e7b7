import Mathlib.Data.List.Pairwise
import Mathlib.Logic.Equiv.Basic
import EdgeBase.Lib.Runs
import EdgeBase.Lib.Table

/-!
# Email tokens

A token that goes out by mail is stored as its digest.  It is looked up by the digest of what is
presented, and by what is presented itself, so that tokens from before they were hashed are found;
a text that looks like a digest is looked up as it is.

* `authSecretLookupKeys` : the keys under which a presented text is looked up;
  `mem_authSecretLookupKeys_stored` says which texts reach an issued token.
* `ConsumedOnce` : no issued token is consumed twice.
-/

namespace EdgeBase

open List Option

namespace Auth

/-! ## Lookup keys -/

/-- `hashAuthSecret`; `sha256` is the digest of a text, in hexadecimal digits. -/
def hashAuthSecret (sha256 : String → String) (secret : String) : String :=
  "sha256:" ++ sha256 secret

/-- `secret.startsWith('sha256:')`. -/
def LooksHashed (secret : String) : Prop := "sha256:".toList <+: secret.toList

instance : DecidablePred LooksHashed := fun _ => inferInstanceAs (Decidable (_ <+: _))

def authSecretLookupKeys (sha256 : String → String) (secret : String) : List String :=
  if LooksHashed secret then [secret] else [hashAuthSecret sha256 secret, secret]

section LookupKeys

variable {sha256 : String → String}

theorem looksHashed_hashAuthSecret (secret : String) :
    LooksHashed (hashAuthSecret sha256 secret) := by
  unfold LooksHashed hashAuthSecret
  rw [String.toList_append]
  exact prefix_append _ _

theorem hashAuthSecret_injective (h : Function.Injective sha256) :
    Function.Injective (hashAuthSecret sha256) := fun _ _ heq =>
  h ((String.append_right_inj _).1 heq)

/-- The texts that reach the row of an issued token: its plaintext, unless it looks like a digest,
and its column. -/
theorem mem_authSecretLookupKeys_stored (h : Function.Injective sha256)
    {plaintext presented : String} :
    hashAuthSecret sha256 plaintext ∈ authSecretLookupKeys sha256 presented ↔
      presented = plaintext ∧ ¬LooksHashed plaintext ∨
        presented = hashAuthSecret sha256 plaintext := by
  unfold authSecretLookupKeys
  by_cases hhashed : LooksHashed presented
  · rw [if_pos hhashed, mem_singleton]
    constructor
    · exact fun heq => .inr heq.symm
    · rintro (⟨rfl, hnot⟩ | heq)
      · exact absurd hhashed hnot
      · exact heq.symm
  · have hne : presented ≠ hashAuthSecret sha256 plaintext := by
      rintro rfl
      exact hhashed (looksHashed_hashAuthSecret plaintext)
    rw [if_neg hhashed, mem_pair]
    constructor
    · rintro (heq | heq)
      · obtain rfl := hashAuthSecret_injective h heq
        exact .inl ⟨rfl, hhashed⟩
      · exact absurd heq.symm hne
    · rintro (⟨rfl, -⟩ | heq)
      · exact .inl rfl
      · exact absurd heq hne

end LookupKeys

/-! ## The table -/

/-- A token that was given to `createEmailToken` or `replaceEmailToken`, with the number of its
row. -/
structure Issue where
  number : ℕ
  plaintext : String
  deriving DecidableEq, Repr

/-- A row of `_email_tokens`.  What it was issued for is not stored; a row from before tokens were
hashed was not issued here. -/
structure EmailToken where
  token : String
  userId : String
  type : String
  expiresAt : Int
  createdAt : Int
  issue : Option Issue := none
  deriving DecidableEq, Repr

structure CreateEmailTokenInput where
  token : String
  userId : String
  type : String
  expiresAt : Int

/-- The rows of `_email_tokens`, and the ids of `_users` that they refer to. -/
structure TokenState where
  users : List String
  emailTokens : List EmailToken
  issued : ℕ := 0
  deriving DecidableEq

namespace TokenState

/-- `DELETE FROM _email_tokens WHERE ...`. -/
def delete (p : EmailToken → Prop) [DecidablePred p] (s : TokenState) : TokenState :=
  { s with emailTokens := Table.delete p s.emailTokens }

def rowOf (sha256 : String → String) (input : CreateEmailTokenInput) (now : Int) (s : TokenState) :
    EmailToken where
  token := hashAuthSecret sha256 input.token
  userId := input.userId
  type := input.type
  expiresAt := input.expiresAt
  createdAt := now
  issue := some ⟨s.issued, input.token⟩

/-- The insertion of a token; `none` when a constraint of the table fails. -/
def insert (sha256 : String → String) (input : CreateEmailTokenInput) (now : Int)
    (s : TokenState) : Option TokenState :=
  let row := s.rowOf sha256 input now
  if input.userId ∈ s.users ∧ ∀ r ∈ s.emailTokens, r.token ≠ row.token then
    some { s with emailTokens := s.emailTokens ++ [row], issued := s.issued + 1 }
  else none

/-- `createEmailToken`; it throws when nothing is inserted. -/
def createEmailToken (sha256 : String → String) (input : CreateEmailTokenInput) (now : Int)
    (s : TokenState) : TokenState :=
  (s.insert sha256 input now).getD s

/-- `replaceEmailToken`: both statements, or none. -/
def replaceEmailToken (sha256 : String → String) (input : CreateEmailTokenInput) (now : Int)
    (s : TokenState) : TokenState :=
  ((s.delete fun r => r.userId = input.userId ∧ r.type = input.type).insert sha256 input
    now).getD s

/-- The rows that `consumeEmailToken` deletes and returns. -/
def consumed (sha256 : String → String) (token type : String) (now : Int) (s : TokenState) :
    List EmailToken :=
  s.emailTokens.filter fun r =>
    r.token ∈ authSecretLookupKeys sha256 token ∧ r.type = type ∧ now < r.expiresAt

def consumeEmailToken (sha256 : String → String) (token type : String) (now : Int)
    (s : TokenState) : Option EmailToken × TokenState :=
  ((s.consumed sha256 token type now).head?,
    s.delete fun r =>
      r.token ∈ authSecretLookupKeys sha256 token ∧ r.type = type ∧ now < r.expiresAt)

/-- The rows that `getEmailToken` reads. -/
def looked (sha256 : String → String) (token : String) (s : TokenState) : List EmailToken :=
  s.emailTokens.filter fun r => r.token ∈ authSecretLookupKeys sha256 token

def deleteEmailToken (sha256 : String → String) (token : String) (s : TokenState) : TokenState :=
  s.delete fun r => r.token ∈ authSecretLookupKeys sha256 token

/-- `getEmailToken`; what has expired is deleted. -/
def getEmailToken (sha256 : String → String) (token : String) (now : Int) (s : TokenState) :
    Option EmailToken × TokenState :=
  match (s.looked sha256 token).head? with
  | none => (none, s)
  | some row =>
    if row.expiresAt < now then (none, s.deleteEmailToken sha256 token) else (some row, s)

def getEmailTokenByType (sha256 : String → String) (token type : String) (s : TokenState) :
    Option EmailToken :=
  ((s.looked sha256 token).filter fun r => r.type = type).head?

def deleteEmailTokensByUserAndType (userId type : String) (s : TokenState) : TokenState :=
  s.delete fun r => r.userId = userId ∧ r.type = type

def deleteEmailTokensByUser (userId : String) (s : TokenState) : TokenState :=
  s.delete fun r => r.userId = userId

def deleteUser (userId : String) (s : TokenState) : TokenState :=
  { s.deleteEmailTokensByUser userId with users := s.users.filter (· ≠ userId) }

end TokenState

/-! ## Calls -/

/-- A call on the table, with the time at which it is made. -/
inductive TokenCall where
  | createUser (userId : String)
  | deleteUser (userId : String)
  | createEmailToken (input : CreateEmailTokenInput) (now : Int)
  | replaceEmailToken (input : CreateEmailTokenInput) (now : Int)
  | consumeEmailToken (token type : String) (now : Int)
  | getEmailToken (token : String) (now : Int)
  | getEmailTokenByType (token type : String)
  | deleteEmailToken (token : String)
  | deleteEmailTokensByUserAndType (userId type : String)
  | deleteEmailTokensByUser (userId : String)

namespace TokenCall

def step (sha256 : String → String) (s : TokenState) : TokenCall → TokenState
  | createUser userId => { s with users := userId :: s.users }
  | deleteUser userId => s.deleteUser userId
  | createEmailToken input now => s.createEmailToken sha256 input now
  | replaceEmailToken input now => s.replaceEmailToken sha256 input now
  | consumeEmailToken token type now => (s.consumeEmailToken sha256 token type now).2
  | getEmailToken token now => (s.getEmailToken sha256 token now).2
  | getEmailTokenByType _ _ => s
  | deleteEmailToken token => s.deleteEmailToken sha256 token
  | deleteEmailTokensByUserAndType userId type => s.deleteEmailTokensByUserAndType userId type
  | deleteEmailTokensByUser userId => s.deleteEmailTokensByUser userId

/-- A row that was found, and what was presented. -/
structure Found where
  presented : String
  row : EmailToken
  deriving DecidableEq

def consumes (sha256 : String → String) (s : TokenState) : TokenCall → List Found
  | consumeEmailToken token type now => (s.consumed sha256 token type now).map (⟨token, ·⟩)
  | _ => []

/-- The rows that a call finds.  A row that `getEmailToken` finds expired is found. -/
def finds (sha256 : String → String) (s : TokenState) : TokenCall → List Found
  | consumeEmailToken token type now => (s.consumed sha256 token type now).map (⟨token, ·⟩)
  | getEmailToken token _ | getEmailTokenByType token _ =>
    (s.looked sha256 token).map (⟨token, ·⟩)
  | _ => []

end TokenCall

/-! ## What holds of the table -/

def EmailToken.Apart (r r' : EmailToken) : Prop :=
  ∀ i ∈ r.issue, ∀ j ∈ r'.issue, i.number ≠ j.number

instance : Std.Symm EmailToken.Apart where
  symm _ _ h i hi j hj := (h j hj i hi).symm

/-- An issued row holds the digest of its plaintext, and is there once. -/
structure TokenState.Sound (sha256 : String → String) (s : TokenState) : Prop where
  stored : ∀ row ∈ s.emailTokens, ∀ issue ∈ row.issue,
    row.token = hashAuthSecret sha256 issue.plaintext
  fresh : ∀ row ∈ s.emailTokens, ∀ issue ∈ row.issue, issue.number < s.issued
  apart : s.emailTokens.Pairwise EmailToken.Apart

/-- A token that is consumed is gone, and its number is not given out again. -/
def TokenState.Gone (row : EmailToken) (s : TokenState) : Prop :=
  ∀ issue ∈ row.issue, issue.number < s.issued ∧
    ∀ row' ∈ s.emailTokens, ∀ issue' ∈ row'.issue, issue.number ≠ issue'.number

namespace TokenState

variable {sha256 : String → String} {s s' : TokenState} {row : EmailToken}

theorem Sound.delete (h : s.Sound sha256) (p : EmailToken → Prop) [DecidablePred p] :
    (s.delete p).Sound sha256 where
  stored := fun row hrow => h.stored row (Table.mem_delete.1 hrow).1
  fresh := fun row hrow => h.fresh row (Table.mem_delete.1 hrow).1
  apart := h.apart.filter _

theorem Gone.delete (h : s.Gone row) (p : EmailToken → Prop) [DecidablePred p] :
    (s.delete p).Gone row := fun issue hissue =>
  ⟨(h issue hissue).1, fun row' hrow' => (h issue hissue).2 row' (Table.mem_delete.1 hrow').1⟩

theorem Sound.gone_delete (h : s.Sound sha256) {p : EmailToken → Prop} [DecidablePred p]
    (hrow : row ∈ s.emailTokens) (hp : p row) : (s.delete p).Gone row := by
  intro issue hissue
  refine ⟨h.fresh row hrow issue hissue, fun row' hrow' issue' hissue' => ?_⟩
  obtain ⟨hmem, hnot⟩ := Table.mem_delete.1 hrow'
  have hne : row ≠ row' := by
    rintro rfl
    exact hnot hp
  exact h.apart.forall hrow hmem hne issue hissue issue' hissue'

theorem insert_eq_some {input : CreateEmailTokenInput} {now : Int}
    (h : s.insert sha256 input now = some s') :
    s'.emailTokens = s.emailTokens ++ [s.rowOf sha256 input now] ∧ s'.issued = s.issued + 1 := by
  unfold TokenState.insert at h
  dsimp only at h
  split_ifs at h
  obtain rfl := some.inj h
  exact ⟨rfl, rfl⟩

theorem Sound.insert (h : s.Sound sha256) {input : CreateEmailTokenInput} {now : Int}
    (hs' : s.insert sha256 input now = some s') : s'.Sound sha256 := by
  obtain ⟨hrows, hissued⟩ := insert_eq_some hs'
  refine ⟨fun row hrow issue hissue => ?_, fun row hrow issue hissue => ?_, ?_⟩
  · rw [hrows] at hrow
    rcases mem_append.1 hrow with hrow | hrow
    · exact h.stored row hrow issue hissue
    · obtain rfl := mem_singleton.1 hrow
      obtain rfl := some.inj hissue
      rfl
  · rw [hrows] at hrow
    rw [hissued]
    rcases mem_append.1 hrow with hrow | hrow
    · exact Nat.lt_succ_of_lt (h.fresh row hrow issue hissue)
    · obtain rfl := mem_singleton.1 hrow
      obtain rfl := some.inj hissue
      exact Nat.lt_succ_self _
  · rw [hrows]
    refine pairwise_append.2 ⟨h.apart, pairwise_singleton _ _, ?_⟩
    intro row hrow row' hrow' issue hissue issue' hissue'
    obtain rfl := mem_singleton.1 hrow'
    obtain rfl := some.inj hissue'
    exact Nat.ne_of_lt (h.fresh row hrow issue hissue)

theorem Gone.insert (h : s.Gone row) {input : CreateEmailTokenInput} {now : Int}
    (hs' : s.insert sha256 input now = some s') : s'.Gone row := by
  obtain ⟨hrows, hissued⟩ := insert_eq_some hs'
  intro issue hissue
  obtain ⟨hlt, hne⟩ := h issue hissue
  rw [hissued, hrows]
  refine ⟨Nat.lt_succ_of_lt hlt, fun row' hrow' issue' hissue' => ?_⟩
  rcases mem_append.1 hrow' with hrow' | hrow'
  · exact hne row' hrow' issue' hissue'
  · obtain rfl := mem_singleton.1 hrow'
    obtain rfl := some.inj hissue'
    exact Nat.ne_of_lt hlt

theorem step_induction {J : TokenState → Prop}
    (hdelete : ∀ s (p : EmailToken → Prop) [DecidablePred p], J s → J (s.delete p))
    (hinsert : ∀ s s' input now, J s → s.insert sha256 input now = some s' → J s')
    (husers : ∀ (s : TokenState) users, J s → J { s with users }) (h : J s) (call : TokenCall) :
    J (call.step sha256 s) := by
  have hgetD : ∀ s₀ input now, J s → J s₀ → J ((s₀.insert sha256 input now).getD s) := by
    intro s₀ input now hs hs₀
    cases hinserted : s₀.insert sha256 input now with
    | none => exact hs
    | some s' => exact hinsert s₀ s' input now hs₀ hinserted
  cases call with
  | createUser userId => exact husers s _ h
  | deleteUser userId => exact husers _ _ (hdelete s _ h)
  | createEmailToken input now => exact hgetD s input now h h
  | replaceEmailToken input now => exact hgetD _ input now h (hdelete s _ h)
  | consumeEmailToken token type now => exact hdelete s _ h
  | getEmailToken token now =>
    unfold TokenCall.step TokenState.getEmailToken
    dsimp only
    split
    · exact h
    · split_ifs
      · exact hdelete s _ h
      · exact h
  | getEmailTokenByType token type => exact h
  | deleteEmailToken token => exact hdelete s _ h
  | deleteEmailTokensByUserAndType userId type => exact hdelete s _ h
  | deleteEmailTokensByUser userId => exact hdelete s _ h

theorem Sound.step (h : s.Sound sha256) (call : TokenCall) : (call.step sha256 s).Sound sha256 :=
  step_induction (fun _ p _ hs => hs.delete p) (fun _ _ _ _ hs => hs.insert)
    (fun _ _ hs => { hs with }) h call

theorem Gone.step (h : s.Gone row) (call : TokenCall) : (call.step sha256 s).Gone row :=
  step_induction (fun _ p _ hs => hs.delete p) (fun _ _ _ _ hs => hs.insert)
    (fun _ _ hs => hs) h call

/-- A table from before tokens were hashed, or an empty one. -/
def before (users : List String) (emailTokens : List EmailToken) : TokenState where
  users := users
  emailTokens := emailTokens.map fun row => { row with issue := none }

theorem sound_before (users : List String) (emailTokens : List EmailToken) :
    (before users emailTokens).Sound sha256 := by
  have hnone : ∀ row ∈ (before users emailTokens).emailTokens, ∀ issue, issue ∉ row.issue := by
    intro row hrow issue hissue
    obtain ⟨row', -, rfl⟩ := List.mem_map.1 hrow
    cases hissue
  refine ⟨fun row hrow issue hissue => ?_, fun row hrow issue hissue => ?_, ?_⟩
  · exact absurd hissue (hnone row hrow issue)
  · exact absurd hissue (hnone row hrow issue)
  · refine pairwise_of_forall_mem_list fun row hrow _ _ issue hissue => ?_
    exact absurd hissue (hnone row hrow issue)

end TokenState

/-! ## Every run -/

namespace TokenCall

def PlaintextOnly (found : List Found) : Prop :=
  ∀ f ∈ found, ∀ issue ∈ f.row.issue, f.presented = issue.plaintext

/-- An issued row is found by its plaintext, or by its column. -/
def PlaintextOrStored (found : List Found) : Prop :=
  ∀ f ∈ found, ∀ issue ∈ f.row.issue, f.presented = issue.plaintext ∨ f.presented = f.row.token

def ConsumedOnce (found : List Found) : Prop := found.Pairwise fun f f' => f.row.Apart f'.row

section

variable {sha256 : String → String} {s : TokenState} {call : TokenCall} {f : Found}

theorem mem_of_finds (h : f ∈ finds sha256 s call) :
    f.row ∈ s.emailTokens ∧ f.row.token ∈ authSecretLookupKeys sha256 f.presented := by
  cases call with
  | consumeEmailToken token type now =>
    obtain ⟨row, hrow, rfl⟩ := List.mem_map.1 h
    obtain ⟨hmem, hfound⟩ := mem_filter.1 hrow
    exact ⟨hmem, (of_decide_eq_true hfound).1⟩
  | getEmailToken token | getEmailTokenByType token =>
    obtain ⟨row, hrow, rfl⟩ := List.mem_map.1 h
    obtain ⟨hmem, hfound⟩ := mem_filter.1 hrow
    exact ⟨hmem, of_decide_eq_true hfound⟩
  | _ => cases h

theorem finds_of_consumes (h : f ∈ consumes sha256 s call) : f ∈ finds sha256 s call := by
  cases call with
  | consumeEmailToken token type now => exact h
  | _ => cases h

theorem gone_of_consumes (hs : s.Sound sha256) (h : f ∈ consumes sha256 s call) :
    (call.step sha256 s).Gone f.row := by
  cases call with
  | consumeEmailToken token type now =>
    obtain ⟨row, hrow, rfl⟩ := List.mem_map.1 h
    obtain ⟨hmem, hfound⟩ := mem_filter.1 hrow
    exact hs.gone_delete hmem (of_decide_eq_true hfound)
  | _ => cases h

theorem consumes_apart (hs : s.Sound sha256) : ConsumedOnce (consumes sha256 s call) := by
  cases call with
  | consumeEmailToken token type now => exact pairwise_map.2 (hs.apart.filter _)
  | _ => exact .nil

/-- Whatever was issued, and whatever is presented: an issued row is found by its plaintext or by
its column, and is consumed once. -/
theorem emailTokens_run (hsha256 : Function.Injective sha256) (users : List String)
    (emailTokens : List EmailToken) (calls : List TokenCall) : PlaintextOrStored
        (Runs.log (step sha256) (finds sha256) (.before users emailTokens) calls) ∧ ConsumedOnce
        (Runs.log (step sha256) (consumes sha256) (.before users emailTokens) calls) := by
  have hany : Runs.Along (step sha256) (fun _ _ => True) (.before users emailTokens) calls :=
    Runs.Along.of_forall fun _ _ => trivial
  have hsound : (TokenState.before users emailTokens).Sound sha256 :=
    TokenState.sound_before users emailTokens
  constructor
  · refine Runs.forall_log hany hsound (fun s call hs _ => hs.step call) ?_
    intro s call hs _ f hf
    obtain ⟨hmem, hkey⟩ := mem_of_finds hf
    intro issue hissue
    have hstored := hs.stored f.row hmem issue hissue
    rw [hstored] at hkey ⊢
    exact ((mem_authSecretLookupKeys_stored hsha256).1 hkey).imp_left And.left
  · refine Runs.pairwise_log (J := fun f s => s.Gone f.row) hany hsound
      (fun s call hs _ => hs.step call) (fun s call hs _ => consumes_apart hs)
      (fun s call hs _ f hf => gone_of_consumes hs hf)
      (fun s call f _ _ hgone => hgone.step call) ?_
    intro s call f hs _ hgone f' hf' issue hissue
    exact (hgone issue hissue).2 f'.row (mem_of_finds (finds_of_consumes hf')).1

/-! ### A stored column that is presented -/

/-- A digest in which the text of a token, and the digest of it, change places. -/
def swapDigest : String → String :=
  Equiv.swap "raw-magic-link-token"
    "38570cd9dbf86c3eb50d3677a23a80a97b7d7a558e40eb813ec5c7546f72e08d"

theorem swapDigest_injective : Function.Injective swapDigest := Equiv.injective _

def presentColumn : List TokenCall :=
  [.createUser "user-1",
    .createEmailToken ⟨"raw-magic-link-token", "user-1", "magic-link", 60000⟩ 0,
    .consumeEmailToken
      "sha256:38570cd9dbf86c3eb50d3677a23a80a97b7d7a558e40eb813ec5c7546f72e08d" "magic-link" 1]

theorem presentColumn_not_plaintextOnly : ¬PlaintextOnly
      (Runs.log (step swapDigest) (finds swapDigest) (.before [] []) presentColumn) := by
  intro h
  have hfound : (Runs.log (step swapDigest) (finds swapDigest) (.before [] []) presentColumn).map
      (fun f => (f.presented == "raw-magic-link-token", f.row.issue)) =
        [(false, some ⟨0, "raw-magic-link-token"⟩)] := by decide +kernel
  obtain ⟨f, hf, hpair⟩ := List.mem_map.1 (hfound ▸ mem_singleton_self _)
  obtain ⟨hpresented, hissue⟩ := Prod.mk.inj hpair
  rw [h f hf _ hissue, beq_self_eq_true] at hpresented
  cases hpresented

theorem presentTwice_run :
    let calls : List TokenCall := [.createUser "user-1",
      .createEmailToken ⟨"raw-magic-link-token", "user-1", "magic-link", 60000⟩ 0,
      .consumeEmailToken "raw-magic-link-token" "magic-link" 1,
      .consumeEmailToken "raw-magic-link-token" "magic-link" 2]
    PlaintextOrStored (Runs.log (step swapDigest) (finds swapDigest) (.before [] []) calls) ∧
      ConsumedOnce (Runs.log (step swapDigest) (consumes swapDigest) (.before [] []) calls) :=
  emailTokens_run swapDigest_injective [] [] _

end

end TokenCall

end Auth

end EdgeBase
