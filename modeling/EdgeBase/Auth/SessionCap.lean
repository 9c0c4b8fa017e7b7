import EdgeBase.Auth.Identities
import EdgeBase.Lib.Retention
import Mathlib.Data.String.Basic

/-!
# The session cap

A user who signs in gets a session; the expired sessions of the user are dropped, and of the others
the newest ones are kept beside the new one.  D1 and PostgreSQL have a transaction each.

* `SessionCall.capped_run` : every run on either database.
-/

namespace EdgeBase

open List Batch Table

namespace Auth

/-- `ORDER BY CASE WHEN id = ? THEN 0 ELSE 1 END ASC, createdAt DESC, id DESC`, where the database
compares texts by a collation. -/
def sessionOrder (collate : String → String → Bool) (sessionId : String) (x y : SessionRow) : Bool :=
  let rank (z : SessionRow) : ℕ := if z.id = sessionId then 0 else 1
  rank x < rank y || rank x = rank y &&
    (y.createdAt < x.createdAt || y.createdAt = x.createdAt && collate y.id x.id)

def byCodePoint (a b : String) : Bool := a ≤ b

section Order

variable {sessionId : String} {x y z : SessionRow}

theorem sessionOrder_trans (hxy : sessionOrder byCodePoint sessionId x y = true)
    (hyz : sessionOrder byCodePoint sessionId y z = true) :
    sessionOrder byCodePoint sessionId x z = true := by
  simp only [sessionOrder, byCodePoint, Bool.or_eq_true, Bool.and_eq_true, decide_eq_true_eq]
    at hxy hyz ⊢
  rcases hxy with hxy | ⟨hxy, hx⟩ <;> rcases hyz with hyz | ⟨hyz, hy⟩
  · exact .inl (hxy.trans hyz)
  · exact .inl (hyz ▸ hxy)
  · exact .inl (hxy ▸ hyz)
  · refine .inr ⟨hxy.trans hyz, ?_⟩
    rcases hx with hx | ⟨hx, hxid⟩ <;> rcases hy with hy | ⟨hy, hyid⟩
    · exact .inl (hy.trans hx)
    · exact .inl (hy ▸ hx)
    · exact .inl (hx ▸ hy)
    · exact .inr ⟨hy.trans hx, hyid.trans hxid⟩

theorem sessionOrder_total :
    (sessionOrder byCodePoint sessionId x y || sessionOrder byCodePoint sessionId y x) = true := by
  simp only [sessionOrder, byCodePoint, Bool.or_eq_true, Bool.and_eq_true, decide_eq_true_eq]
  rcases lt_trichotomy (if x.id = sessionId then 0 else 1) (if y.id = sessionId then 0 else 1) with
    hrank | hrank | hrank
  · exact .inl (.inl hrank)
  · rcases lt_trichotomy x.createdAt y.createdAt with htime | htime | htime
    · exact .inr (.inr ⟨hrank.symm, .inl htime⟩)
    · rcases le_total y.id x.id with hid | hid
      · exact .inl (.inr ⟨hrank, .inr ⟨htime.symm, hid⟩⟩)
      · exact .inr (.inr ⟨hrank.symm, .inr ⟨htime, hid⟩⟩)
    · exact .inl (.inr ⟨hrank, .inl htime⟩)
  · exact .inr (.inl hrank)

theorem eq_of_sessionOrder_own (h : sessionOrder byCodePoint x.id y x = true) : y.id = x.id := by
  simp only [sessionOrder, Bool.or_eq_true, Bool.and_eq_true, decide_eq_true_eq, if_true] at h
  by_contra hne
  rw [if_neg hne] at h
  rcases h with hrank | ⟨hrank, -⟩
  · exact absurd hrank (Nat.not_lt_zero _)
  · exact one_ne_zero hrank

/-- Of the other sessions, the newer one comes first, and of two that are as old the one with the
greater id. -/
theorem newer_of_sessionOrder (h : sessionOrder byCodePoint sessionId x y = true)
    (hx : x.id ≠ sessionId) (hne : y.id ≠ x.id) :
    y.createdAt < x.createdAt ∨ y.createdAt = x.createdAt ∧ y.id < x.id := by
  simp only [sessionOrder, byCodePoint, Bool.or_eq_true, Bool.and_eq_true, decide_eq_true_eq] at h
  rw [if_neg hx] at h
  rcases h with hrank | ⟨-, htime | ⟨htime, hid⟩⟩
  · split at hrank <;> omega
  · exact .inl htime
  · exact .inr ⟨htime, lt_of_le_of_ne hid hne⟩

end Order

/-! ### The transactions -/

section Transactions

variable (collate : String → String → Bool) (session : SessionRow) (maxSessions : Int)

/-- `DELETE FROM _sessions WHERE userId = ? AND expiresAt <= ?`. -/
def cleanExpired (t : Tables) : Tables :=
  { t with
    sessions := Table.delete
      (fun x => x.userId = session.userId ∧ x.expiresAt ≤ session.createdAt) t.sessions }

/-- A session has a new id, a new refresh token and a user. -/
def SessionInserted (t : Tables) : Prop :=
  Table.Unique SessionRow.id t.sessions ∧ SessionsValid t ∧ ∃ u ∈ t.users, u.id = session.userId

instance : DecidablePred (SessionInserted session) :=
  fun _ => inferInstanceAs (Decidable (_ ∧ _ ∧ ∃ _ ∈ _, _))

/-- `INSERT INTO _sessions …`. -/
def insertSession : List (Batch.Statement Tables) :=
  [ .write fun t => { t with sessions := t.sessions ++ [session] },
    .guard (SessionInserted session) ]

/-- `DELETE FROM _sessions WHERE id IN (SELECT id FROM _sessions WHERE userId = ? ORDER BY … OFFSET ?)`. -/
def pruneSessions (t : Tables) : Tables :=
  { t with
    sessions := Table.prune SessionRow.id (·.userId = session.userId)
      (sessionOrder collate session.id) maxSessions.toNat t.sessions }

/-- `createSessionWithLimit` of `D1AuthDb`; `none` when it throws. -/
def D1AuthDb.createSessionWithLimit : Batch.Statement Tables :=
  if maxSessions ≤ 0 then Batch.run (insertSession session)
  else Batch.run
    ([.write (cleanExpired session)] ++ insertSession session ++
      [.write (pruneSessions byCodePoint session maxSessions)])

/-- `createSessionWithLimit` of `PgAuthDb`; `none` when it throws. -/
def PgAuthDb.createSessionWithLimit : Batch.Statement Tables :=
  Batch.run
    ((if 0 < maxSessions then [.write (cleanExpired session)] else []) ++ insertSession session ++
      if 0 < maxSessions then [.write (pruneSessions collate session maxSessions)] else [])

end Transactions

/-- What a capped call leaves: the new session, and of the user's others that have not expired the
newest ones, as many as the cap allows. -/
structure Capped (session : SessionRow) (maxSessions : Int) (t t' : Tables) : Prop where
  created : session ∈ t'.sessions
  bounded : ((t'.sessions.filter (·.userId = session.userId)).length : Int) ≤ maxSessions
  live : ∀ x ∈ t'.sessions, x.userId = session.userId →
    x = session ∨ x ∈ t.sessions ∧ session.createdAt < x.expiresAt
  newest : ∀ x ∈ t'.sessions, x.userId = session.userId → x ≠ session →
    ∀ y ∈ t.sessions, y.userId = session.userId → session.createdAt < y.expiresAt →
      y ∉ t'.sessions → y.createdAt < x.createdAt ∨ y.createdAt = x.createdAt ∧ y.id < x.id
  full : (∃ y ∈ t.sessions, y.userId = session.userId ∧ session.createdAt < y.expiresAt ∧
      y ∉ t'.sessions) →
    ((t'.sessions.filter (·.userId = session.userId)).length : Int) = maxSessions
  others : t'.sessions.filter (·.userId ≠ session.userId) =
    t.sessions.filter (·.userId ≠ session.userId)
  rest : t' = { t with sessions := t'.sessions }

section Calls

variable {session : SessionRow} {maxSessions : Int} {t t' : Tables}

theorem mem_cleanExpired {x : SessionRow} : x ∈ (cleanExpired session t).sessions ↔
    x ∈ t.sessions ∧ (x.userId = session.userId → session.createdAt < x.expiresAt) := by
  rw [cleanExpired, mem_delete, not_and, not_le]

theorem capped_createSessionWithLimit (hmax : 0 < maxSessions)
    (h : D1AuthDb.createSessionWithLimit session maxSessions t = some t') :
    Capped session maxSessions t t' := by
  rw [D1AuthDb.createSessionWithLimit, if_neg (not_le.2 hmax)] at h
  simp only [insertSession, cons_append, nil_append, run_write,
    run_guard_eq_some, run_nil, Option.some.injEq] at h
  obtain ⟨⟨hunique, -, -⟩, rfl⟩ := h
  have hmaxNat : (maxSessions.toNat : Int) = maxSessions := Int.toNat_of_nonneg hmax.le
  have hsession : session ∈ (cleanExpired session t).sessions ++ [session] :=
    mem_append_right _ (mem_singleton_self _)
  have htrans : ∀ a b c : SessionRow, sessionOrder byCodePoint session.id a b = true →
      sessionOrder byCodePoint session.id b c = true →
      sessionOrder byCodePoint session.id a c = true := fun _ _ _ => sessionOrder_trans
  have htotal : ∀ a b : SessionRow, (sessionOrder byCodePoint session.id a b ||
      sessionOrder byCodePoint session.id b a) = true := fun _ _ => sessionOrder_total
  have hlive : ∀ y ∈ t.sessions, session.createdAt < y.expiresAt →
      y ∈ (cleanExpired session t).sessions ++ [session] := fun y hy hexpires =>
    mem_append_left _ (mem_cleanExpired.2 ⟨hy, fun _ => hexpires⟩)
  refine
    { created := ?_
      bounded := ?_
      live := fun x hx huser => ?_
      newest := fun x hx huser hne y hy huser' hexpires hdropped => ?_
      full := fun hfull => ?_
      others := ?_
      rest := rfl }
  · refine hunique.mem_prune_of_first htrans htotal (Int.lt_toNat.2 hmax) hsession rfl
      fun y hy hle => hunique.eq_of_key hy hsession (eq_of_sessionOrder_own hle)
  · rw [pruneSessions, hunique.length_prune, ← hmaxNat]
    exact Int.ofNat_le.2 (Nat.min_le_left _ _)
  · rcases mem_append.1 (mem_delete.1 hx).1 with hx | hx
    · obtain ⟨hx, hexpires⟩ := mem_cleanExpired.1 hx
      exact .inr ⟨hx, hexpires huser⟩
    · exact .inl (mem_singleton.1 hx)
  · have hx' := (mem_delete.1 hx).1
    refine newer_of_sessionOrder (hunique.le_of_prune htrans htotal hx huser
      (hlive y hy hexpires) hdropped) (fun hid => hne (hunique.eq_of_key hx' hsession hid))
      fun hid => hdropped (hunique.eq_of_key (hlive y hy hexpires) hx' hid ▸ hx)
  · obtain ⟨y, hy, huser, hexpires, hdropped⟩ := hfull
    rw [pruneSessions, hunique.length_prune_of_dropped (hlive y hy hexpires) hdropped]
    exact hmaxNat
  · refine hunique.filter_not_prune.trans ((filter_append_singleton ?_).trans ?_)
    · exact decide_eq_false fun hne => hne rfl
    · exact filter_delete fun x hx => decide_eq_false fun hne => hne hx.1

/-- Where the collation agrees with the code points on the ids, both databases do the same. -/
theorem createSessionWithLimit_eq {collate : String → String → Bool} {ids : Set String}
    (hcollate : ∀ a ∈ ids, ∀ b ∈ ids, (collate a b = true ↔ a ≤ b))
    (hids : ∀ x ∈ t.sessions, x.id ∈ ids) (hid : session.id ∈ ids) :
    PgAuthDb.createSessionWithLimit collate session maxSessions t =
      D1AuthDb.createSessionWithLimit session maxSessions t := by
  rcases lt_or_ge 0 maxSessions with hmax | hmax
  · rw [PgAuthDb.createSessionWithLimit, D1AuthDb.createSessionWithLimit, if_pos hmax, if_pos hmax,
      if_neg (not_le.2 hmax)]
    simp only [insertSession, cons_append, nil_append, run_write, run_guard,
      run_nil]
    split
    · refine congrArg some (congrArg (fun sessions => { t with sessions }) ?_)
      have hmem : ∀ x ∈ (cleanExpired session t).sessions ++ [session], x.id ∈ ids := by
        intro x hx
        rcases mem_append.1 hx with hx | hx
        · exact hids x (mem_cleanExpired.1 hx).1
        · exact mem_singleton.1 hx ▸ hid
      refine prune_congr fun x hx y hy => ?_
      have hcompare : collate y.id x.id = byCodePoint y.id x.id :=
        Bool.eq_iff_iff.2 ((hcollate _ (hmem y hy) _ (hmem x hx)).trans decide_eq_true_iff.symm)
      rw [sessionOrder, sessionOrder, hcompare]
    · rfl
  · rw [PgAuthDb.createSessionWithLimit, D1AuthDb.createSessionWithLimit, if_neg (not_lt.2 hmax),
      if_neg (not_lt.2 hmax), if_pos hmax, nil_append, append_nil]

theorem mem_sessions_of_createSessionWithLimit
    (h : D1AuthDb.createSessionWithLimit session maxSessions t = some t') :
    ∀ x ∈ t'.sessions, x ∈ t.sessions ∨ x = session := by
  intro x hx
  unfold D1AuthDb.createSessionWithLimit at h
  split at h
  all_goals
    simp only [insertSession, cons_append, nil_append, run_write,
      run_guard_eq_some, run_nil, Option.some.injEq] at h
    obtain ⟨-, rfl⟩ := h
  · exact (mem_append.1 hx).imp_right mem_singleton.1
  · rcases mem_append.1 (mem_delete.1 hx).1 with hx | hx
    · exact .inl (mem_cleanExpired.1 hx).1
    · exact .inr (mem_singleton.1 hx)

theorem users_createSessionWithLimit
    (h : D1AuthDb.createSessionWithLimit session maxSessions t = some t') : t'.users = t.users := by
  unfold D1AuthDb.createSessionWithLimit at h
  split at h
  all_goals
    simp only [insertSession, cons_append, nil_append, run_write,
      run_guard_eq_some, run_nil, Option.some.injEq] at h
    obtain ⟨-, rfl⟩ := h
    rfl

end Calls

/-! ### Runs -/

structure SessionCall where
  session : SessionRow
  maxSessions : Int

namespace SessionCall

def step (create : SessionRow → Int → Batch.Statement Tables) (t : Tables) (call : SessionCall) :
    Tables :=
  Batch.commit (create call.session call.maxSessions) t

/-- What a call does: both databases do the same, and a call that returns keeps the cap. -/
def Outcome (collate : String → String → Bool) (t : Tables) (call : SessionCall) : Prop :=
  PgAuthDb.createSessionWithLimit collate call.session call.maxSessions t =
      D1AuthDb.createSessionWithLimit call.session call.maxSessions t ∧
    (0 < call.maxSessions →
      ∀ t' ∈ D1AuthDb.createSessionWithLimit call.session call.maxSessions t,
        Capped call.session call.maxSessions t t')

/-- From every database, for all calls in every order, on D1 and on PostgreSQL: both keep the same
sessions, and every capped call that returns keeps the cap. -/
theorem capped_run {collate : String → String → Bool} {ids : Set String}
    (hcollate : ∀ a ∈ ids, ∀ b ∈ ids, (collate a b = true ↔ a ≤ b)) {t : Tables}
    (hids : ∀ x ∈ t.sessions, x.id ∈ ids) {calls : List SessionCall}
    (hcalls : ∀ call ∈ calls, call.session.id ∈ ids) :
    ∀ create ∈ [D1AuthDb.createSessionWithLimit, PgAuthDb.createSessionWithLimit collate],
      Runs.Along (step create) (Outcome collate) t calls := by
  intro create hcreate
  have hsame : ∀ t : Tables, (∀ x ∈ t.sessions, x.id ∈ ids) → ∀ call : SessionCall,
      call.session.id ∈ ids → create call.session call.maxSessions t =
        D1AuthDb.createSessionWithLimit call.session call.maxSessions t := by
    intro t hids call hid
    rcases mem_cons.1 hcreate with rfl | hcreate
    · rfl
    · obtain rfl := mem_singleton.1 hcreate
      exact createSessionWithLimit_eq hcollate hids hid
  refine (Runs.Along.of_forall hcalls |>.of_invariant
    (I := fun t : Tables => ∀ x ∈ t.sessions, x.id ∈ ids) hids (fun t call hids hid => ?_)
    fun t call hids hid => ⟨createSessionWithLimit_eq hcollate hids hid,
      fun hmax t' h => capped_createSessionWithLimit hmax h⟩).1
  refine commit_keeps (I := fun t : Tables => ∀ x ∈ t.sessions, x.id ∈ ids) hids
    fun t' h x hx => ?_
  rw [hsame t hids call hid] at h
  rcases mem_sessions_of_createSessionWithLimit h x hx with hx | rfl
  · exact hids x hx
  · exact hid

/-! ### Sessions that are kept though newer ones go -/

def sessionless : Tables where
  users := [{ id := "u", updatedAt := 0 }]

def sessionCall (id : String) (createdAt expiresAt maxSessions : Int) : SessionCall where
  session := { id, userId := "u", refreshToken := id, createdAt, expiresAt }
  maxSessions

/-- Three calls that ran in the other order than their clocks, the last two with a cap of two. -/
def lateCalls : List SessionCall :=
  [sessionCall "x" 12 1000 2, sessionCall "b" 11 1000 2, sessionCall "a" 10 1000 2]

def shortCalls : List SessionCall :=
  [sessionCall "o" 0 1000 5, sessionCall "e" 5 6 5, sessionCall "n" 10 1000 5]

theorem capped_lateCalls :
    Runs.Along (step D1AuthDb.createSessionWithLimit) (Outcome byCodePoint) sessionless lateCalls ∧
      Runs.Along (step (PgAuthDb.createSessionWithLimit byCodePoint)) (Outcome byCodePoint)
        sessionless lateCalls := by
  have hcapped := @capped_run byCodePoint Set.univ (fun _ _ _ _ => decide_eq_true_iff) sessionless
    (fun _ _ => trivial) lateCalls fun _ _ => trivial
  exact ⟨hcapped _ (by simp), hcapped _ (by simp)⟩

/-- A call that returns keeps the sessions that were created last. -/
def KeepsLast (t : Tables) (call : SessionCall) : Prop :=
  ∀ t' ∈ D1AuthDb.createSessionWithLimit call.session call.maxSessions t,
    ∀ x ∈ t'.sessions, x.userId = call.session.userId →
      ∀ y ∈ t.sessions, y.userId = call.session.userId → y ∉ t'.sessions → y.createdAt ≤ x.createdAt

instance (t : Tables) : DecidablePred (KeepsLast t) :=
  fun _ => inferInstanceAs (Decidable (∀ _ ∈ _, ∀ _ ∈ _, _ → ∀ _ ∈ _, _ → _ → _))

/-- The last call of the first run keeps the session of the first call and not that of the second,
though the session it creates is older than both; the last call of the second run keeps the oldest
session, and not the one that has expired. -/
theorem lateCalls_not_keepsLast :
    ¬Runs.Along (step D1AuthDb.createSessionWithLimit) KeepsLast sessionless lateCalls ∧
      ¬Runs.Along (step D1AuthDb.createSessionWithLimit) KeepsLast sessionless shortCalls := by
  decide +kernel

end SessionCall

end Auth

end EdgeBase
