import EdgeBase.Auth.LastMethod
import EdgeBase.Auth.SessionCap

/-!
# The clean-up of stale anonymous accounts

The clean-up first selects the anonymous users that have not been updated since a cutoff, and then
deletes them by their ids, fifty in a transaction, with all that belongs to them.  The deletions do
not look at the users again.

* `deleteUsers` : the deletion of one chunk.
* `CleanUpState.deletesStale_run` : in a quiet run, only stale anonymous users are deleted.
-/

namespace EdgeBase

open List

namespace Auth

/-! ### The clean-up -/

/-- `isAnonymous = 1 AND updatedAt < ?`. -/
def UserRow.StaleAnonymous (cutoff : Int) (u : UserRow) : Prop :=
  u.flag "isAnonymous" = true ∧ u.updatedAt < cutoff

instance (cutoff : Int) : DecidablePred (UserRow.StaleAnonymous cutoff) :=
  fun _ => inferInstanceAs (Decidable (_ ∧ _))

def selectStale (cutoff : Int) (t : Tables) : List String :=
  (t.users.filter (UserRow.StaleAnonymous cutoff ·)).map UserRow.id

def deleteUserStatements (uid : String) : List (Batch.Statement Tables) :=
  [ .write fun t => { t with sessions := Table.delete (·.userId = uid) t.sessions },
    .write fun t => { t with oauthAccounts := Table.delete (·.userId = uid) t.oauthAccounts },
    .write fun t => { t with recoveryCodes := Table.delete (·.userId = uid) t.recoveryCodes },
    .write fun t => { t with mfaFactors := Table.delete (·.userId = uid) t.mfaFactors },
    .write fun t => { t with credentials := Table.delete (·.userId = uid) t.credentials },
    .write fun t => { t with users := Table.delete (·.id = uid) t.users } ]

def deleteUsers (chunk : List String) : Batch.Statement Tables :=
  Batch.run (chunk.flatMap deleteUserStatements)

def Tables.without (ids : List String) (t : Tables) : Tables :=
  { t with
    sessions := Table.delete (·.userId ∈ ids) t.sessions
    oauthAccounts := Table.delete (·.userId ∈ ids) t.oauthAccounts
    recoveryCodes := Table.delete (·.userId ∈ ids) t.recoveryCodes
    mfaFactors := Table.delete (·.userId ∈ ids) t.mfaFactors
    credentials := Table.delete (·.userId ∈ ids) t.credentials
    users := Table.delete (·.id ∈ ids) t.users }

theorem delete_delete_mem {ρ : Type} (key : ρ → String) (uid : String) (ids : List String)
    (rows : List ρ) : Table.delete (key · ∈ ids) (Table.delete (key · = uid) rows) =
      Table.delete (key · ∈ uid :: ids) rows := by
  rw [Table.delete, Table.delete, filter_filter]
  refine filter_congr fun r _ => ?_
  simp [Bool.and_comm]

theorem deleteUsers_eq (chunk : List String) (t : Tables) :
    deleteUsers chunk t = some (t.without chunk) := by
  induction chunk generalizing t with
  | nil => simp [deleteUsers, Tables.without, Table.delete]
  | cons uid chunk ih =>
    change Batch.run (chunk.flatMap deleteUserStatements) _ = _
    rw [← deleteUsers, ih]
    simp only [Tables.without, delete_delete_mem]

/-- A row of a user is deleted: its own, or one that belongs to it. -/
def Loses (userId : String) (t t' : Tables) : Prop :=
  (∃ u ∈ t.users, u.id = userId ∧ u ∉ t'.users) ∨
  (∃ x ∈ t.sessions, x.userId = userId ∧ x ∉ t'.sessions) ∨
  (∃ a ∈ t.oauthAccounts, a.userId = userId ∧ a ∉ t'.oauthAccounts) ∨
  (∃ c ∈ t.recoveryCodes, c.userId = userId ∧ c ∉ t'.recoveryCodes) ∨
  (∃ f ∈ t.mfaFactors, f.userId = userId ∧ f ∉ t'.mfaFactors) ∨
  ∃ c ∈ t.credentials, c.userId = userId ∧ c ∉ t'.credentials

instance (userId : String) (t t' : Tables) : Decidable (Loses userId t t') :=
  inferInstanceAs (Decidable ((∃ _ ∈ _, _) ∨ (∃ _ ∈ _, _) ∨ (∃ _ ∈ _, _) ∨ (∃ _ ∈ _, _) ∨
    (∃ _ ∈ _, _) ∨ ∃ _ ∈ _, _))

theorem mem_of_loses_without {userId : String} {ids : List String} {t : Tables}
    (h : Loses userId t (t.without ids)) : userId ∈ ids := by
  have hrow : ∀ {ρ : Type} {key : ρ → String} {rows : List ρ},
      (∃ r ∈ rows, key r = userId ∧ r ∉ Table.delete (key · ∈ ids) rows) → userId ∈ ids := by
    rintro ρ key rows ⟨r, hr, rfl, hgone⟩
    exact by_contra fun hmem => hgone (Table.mem_delete.2 ⟨hr, hmem⟩)
  rcases h with h | h | h | h | h | h <;> exact hrow h

/-! ### Runs -/

/-- A clean-up that is under way: the users that it has selected and not yet deleted. -/
structure CleanUp where
  cutoff : Int
  pending : List String
  deriving DecidableEq

inductive CleanUpAction where
  /-- A clean-up selects the users to delete. -/
  | select (cutoff : Int)
  /-- The clean-up with a number deletes its next chunk. -/
  | deleteChunk (i : ℕ)
  /-- A user signs in: `createSessionWithLimit`. -/
  | createSession (call : SessionCall)
  /-- `UPDATE _users SET lastSignedInAt = ? WHERE id = ?`. -/
  | signedIn (now : Int) (userId : String)
  | updateUser (now : Int) (userId : String) (updates : Row)
  /-- An upgrade, or another transaction of `Auth.Identities`. -/
  | finalize (call : FinalizeCall)

/-- The database, the number of random ids drawn, and the clean-ups. -/
structure CleanUpState where
  tables : Tables
  drawn : Uuid := 0
  cleanUps : List CleanUp := []

namespace CleanUpState

open FinalizeState (plainPlatform anonymousUser upgradeCall)

variable (env : IdentityEnv)

def step (s : CleanUpState) : CleanUpAction → CleanUpState
  | .select cutoff =>
    { s with cleanUps := s.cleanUps ++ [{ cutoff, pending := selectStale cutoff s.tables }] }
  | .deleteChunk i =>
    match s.cleanUps[i]? with
    | none => s
    | some c => { s with
        tables := Batch.commit (deleteUsers (c.pending.take 50)) s.tables
        cleanUps := s.cleanUps.set i { c with pending := c.pending.drop 50 } }
  | .createSession call =>
    { s with tables := SessionCall.step D1AuthDb.createSessionWithLimit s.tables call }
  | .signedIn now userId => { s with
      tables.users := Table.update (·.id = userId)
        (fun u => { u with columns := Assoc.merge u.columns [("lastSignedInAt", .num now)] })
        s.tables.users }
  | .updateUser now userId updates => { s with
      tables := Batch.commit (Auth.updateUser env now s.drawn userId updates) s.tables
      drawn := s.drawn + 1 }
  | .finalize call => { s with
      tables := Batch.commit (call.input.run env call.now s.drawn) s.tables
      drawn := s.drawn + 1 }

/-- A deletion takes users, and what belongs to them, only when they are anonymous and stale. -/
def DeletesStale (s : CleanUpState) : CleanUpAction → Prop
  | .deleteChunk i => ∀ c ∈ s.cleanUps[i]?, ∀ u ∈ s.tables.users,
      Loses u.id s.tables (s.step env (.deleteChunk i)).tables → u.StaleAnonymous c.cutoff
  | _ => True

instance (s : CleanUpState) : DecidablePred (DeletesStale env s)
  | .deleteChunk _ => inferInstanceAs (Decidable (∀ _ ∈ _, ∀ _ ∈ _, _ → _))
  | .select _ | .createSession _ | .signedIn _ _ | .updateUser _ _ _ | .finalize _ =>
    inferInstanceAs (Decidable True)

/-- A clean-up has selected a user and not deleted it. -/
def Selected (s : CleanUpState) (userId : String) : Prop := ∃ c ∈ s.cleanUps, userId ∈ c.pending

/-- A transaction of a user whom a clean-up has selected is refused, or leaves the users alone. -/
def Quiet (s : CleanUpState) : CleanUpAction → Prop
  | .updateUser now userId updates => s.Selected userId →
    ∀ t' ∈ Auth.updateUser env now s.drawn userId updates s.tables, t'.users = s.tables.users
  | .finalize call => s.Selected call.input.userId →
    ∀ t' ∈ call.input.run env call.now s.drawn s.tables, t'.users = s.tables.users
  | _ => True

variable {env} {s : CleanUpState} {a : CleanUpAction}

/-- The ids are unique, and every user whom a clean-up has selected is still anonymous and stale. -/
structure Sound (s : CleanUpState) : Prop where
  users : Table.Unique UserRow.id s.tables.users
  selected : ∀ c ∈ s.cleanUps, ∀ u ∈ s.tables.users, u.id ∈ c.pending → u.StaleAnonymous c.cutoff

/-- A transaction that leaves the users alone, or changes the user of an id that no clean-up has
selected. -/
theorem Sound.of_users (hs : s.Sound) {t' : Tables} {userId : String} {n : Uuid}
    (hunique : Table.Unique UserRow.id t'.users)
    (hothers : t'.users.filter (·.id ≠ userId) = s.tables.users.filter (·.id ≠ userId))
    (hquiet : s.Selected userId → t'.users = s.tables.users) :
    Sound { s with tables := t', drawn := n } where
  users := hunique
  selected c hc u hu hpending := by
    refine hs.selected c hc u ?_ hpending
    by_cases hid : u.id = userId
    · rwa [← hquiet ⟨c, hc, hid ▸ hpending⟩]
    · have hu' : u ∈ t'.users.filter (·.id ≠ userId) := mem_filter.2 ⟨hu, decide_eq_true hid⟩
      rw [hothers] at hu'
      exact mem_of_mem_filter hu'

theorem Sound.commit (hs : s.Sound) {st : Batch.Statement Tables} {userId : String} {now : Int}
    (hbumps : Batch.Statement.Respects Bumps st)
    (hkeeps : Batch.Statement.Respects (Keeps userId now s.drawn) st)
    (hquiet : s.Selected userId → ∀ t' ∈ st s.tables, t'.users = s.tables.users) (n : Uuid) :
    Sound { s with tables := Batch.commit st s.tables, drawn := n } := by
  cases hst : st s.tables with
  | none =>
    rw [Batch.commit_of_none hst]
    exact { hs with }
  | some t' =>
    rw [Batch.commit_of_some hst]
    exact hs.of_users ((hbumps _ _ hst).unique hs.users) (hkeeps _ _ hst).users
      fun hselected => hquiet hselected t' hst

theorem keeps_updateUser {now : Int} {n : Uuid} (userId : String) (updates : Row) :
    Batch.Statement.Respects (Keeps userId now n) (Auth.updateUser env now n userId updates) := by
  unfold Auth.updateUser
  dsimp only
  split
  · exact keeps_run (forall_mem_nil _)
  · refine keeps_run ?_
    simp only [forall_mem_cons, not_mem_nil, false_implies, implies_true, and_true]
    exact ⟨Batch.Statement.respects_write fun t => Keeps.mutate fun u hu => hu,
      Batch.Statement.respects_guard Keeps.refl⟩

theorem staleAnonymous_signedIn {cutoff now : Int} {u : UserRow} (h : u.StaleAnonymous cutoff) :
    UserRow.StaleAnonymous cutoff
      { u with columns := Assoc.merge u.columns [("lastSignedInAt", .num now)] } := by
  refine ⟨?_, h.2⟩
  rw [UserRow.flag, Assoc.lookup_merge_of_notMem _ _ (by simp)]
  exact h.1

theorem sound_step (hs : s.Sound) (hquiet : s.Quiet env a) : (s.step env a).Sound := by
  cases a with
  | select cutoff =>
    refine ⟨hs.users, fun c hc u hu hpending => ?_⟩
    rcases mem_append.1 hc with hc | hc
    · exact hs.selected c hc u hu hpending
    · obtain rfl := mem_singleton.1 hc
      obtain ⟨v, hv, hid⟩ := mem_map.1 hpending
      obtain ⟨hv, hstale⟩ := mem_filter.1 hv
      exact hs.users.eq_of_key hv hu hid ▸ of_decide_eq_true hstale
  | deleteChunk i =>
    simp only [step]
    split
    · exact hs
    · next c hc =>
      rw [Batch.commit_of_some (deleteUsers_eq _ _)]
      refine ⟨hs.users.delete, fun c' hc' u hu hpending => ?_⟩
      have hu := (Table.mem_delete.1 hu).1
      rcases mem_or_eq_of_mem_set hc' with hc' | rfl
      · exact hs.selected c' hc' u hu hpending
      · exact hs.selected c (mem_of_getElem? hc) u hu (mem_of_mem_drop hpending)
  | createSession call =>
    have husers : (SessionCall.step D1AuthDb.createSessionWithLimit s.tables call).users =
        s.tables.users :=
      Batch.commit_keeps (I := fun t : Tables => t.users = s.tables.users) rfl fun t' h =>
        users_createSessionWithLimit h
    exact ⟨husers.symm ▸ hs.users, fun c hc u hu => hs.selected c hc u (husers ▸ hu)⟩
  | signedIn now userId =>
    refine ⟨hs.users.update fun _ _ => rfl, fun c hc u hu hpending => ?_⟩
    obtain ⟨hu, -⟩ | ⟨v, hv, -, rfl⟩ := Table.mem_update_cases hu
    · exact hs.selected c hc u hu hpending
    · exact staleAnonymous_signedIn (hs.selected c hc v hv hpending)
  | updateUser now userId updates =>
    exact hs.commit (bumps_updateUser userId updates) (keeps_updateUser userId updates) hquiet _
  | finalize call => exact hs.commit call.input.bumps_run call.input.keeps_run hquiet _

theorem deletesStale_step (hs : s.Sound) : s.DeletesStale env a := by
  cases a with
  | deleteChunk i =>
    intro c hc u hu hloses
    have hstep : (s.step env (.deleteChunk i)).tables = s.tables.without (c.pending.take 50) := by
      simp only [step, Option.mem_def.1 hc]
      exact Batch.commit_of_some (deleteUsers_eq _ _)
    rw [hstep] at hloses
    exact hs.selected c (mem_of_getElem? hc) u hu
      (mem_of_mem_take (mem_of_loses_without hloses))
  | select cutoff => trivial
  | createSession call => trivial
  | signedIn now userId => trivial
  | updateUser now userId updates => trivial
  | finalize call => trivial

/-- In every run in which no transaction changes a user between its selection and its deletion, the
deletions take stale anonymous users only. -/
theorem deletesStale_run (hs : s.tables.Keyed) (hcleanUps : s.cleanUps = [])
    {actions : List CleanUpAction} (hquiet : Runs.Along (step env) (Quiet env) s actions) :
    Runs.Along (step env) (DeletesStale env) s actions := by
  have hsound : s.Sound :=
    { users := hs.users
      selected := hcleanUps ▸ (forall_mem_nil _) }
  exact (hquiet.of_invariant hsound (fun s a hs hquiet => sound_step hs hquiet)
    fun s a hs _ => deletesStale_step hs).1

/-! ### An upgrade between the selection and the deletion -/

def staleUser : CleanUpState where
  tables := anonymousUser.tables

def upgradeInBetween : List CleanUpAction :=
  [.select 5, .finalize upgradeCall, .deleteChunk 0]

/-- The user is selected, signs in and is deleted; the upgrade comes too late. -/
def upgradeTooLate : List CleanUpAction :=
  [.select 5, .signedIn 10 "u", .deleteChunk 0, .finalize upgradeCall]

theorem deletesStale_upgradeTooLate :
    Runs.Along (step plainPlatform) (DeletesStale plainPlatform) staleUser upgradeTooLate := by
  refine deletesStale_run (by constructor <;> decide) rfl ⟨trivial, trivial, trivial, ?_, trivial⟩
  rintro ⟨c, hc, hu⟩
  obtain rfl := mem_singleton.1 hc
  cases hu

theorem upgradeInBetween_not_deletesStale :
    ¬Runs.Along (step plainPlatform) (DeletesStale plainPlatform) staleUser upgradeInBetween := by
  decide +kernel

end CleanUpState

end Auth

end EdgeBase
