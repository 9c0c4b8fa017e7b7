import EdgeBase.Lib.Audit

/-!
# Sessions of a transactional store

A client holds one session of a store.  A transaction works on a copy of the contents that `COMMIT`
makes the committed ones; any statement may fail, by the store's own refusal or by a fault of the
connection.  The client has a state of its own, which no rollback undoes.

* `Session`, `Tx` : the store as the client meets it.
* `Session.close` : the end of the session, which discards an open transaction.
-/

inductive Tx (ω : Type) where
  /-- No transaction is open: every statement commits. -/
  | idle
  /-- A transaction is open, and sees these contents. -/
  | active (work : ω)
  /-- A statement of the open transaction has failed. -/
  | aborted

/-- A failed statement aborts an open transaction. -/
def Tx.abort {ω : Type} : Tx ω → Tx ω
  | idle => idle
  | _ => aborted

/-- The committed contents, the session's transaction, the client's own state, the number of
statements that it has sent, and of transactions that it has committed. -/
structure Session (ω υ : Type) where
  committed : ω
  tx : Tx ω := .idle
  client : υ
  sent : ℕ := 0
  commits : ℕ := 0

/-- What the connection may do: the statement with a given number fails, and a store refuses the
statements of an aborted transaction. -/
structure Connection (ε : Type) where
  fault : ℕ → Option ε
  refusal : ε

namespace Session

open Audited

variable {ω υ τ ε α β : Type}

/-- Sends a statement: `act` is what the store does with it, and `failed` what is left of the
transaction when it fails instead. -/
def send (conn : Connection ε) (failed : Tx ω → Tx ω)
    (act : Session ω υ → Except ε α × Session ω υ) : Audited (Session ω υ) τ ε α := fun s =>
  match conn.fault s.sent with
  | some e => ⟨.error e, { s with tx := failed s.tx, sent := s.sent + 1 }, []⟩
  | none =>
    let done := act { s with sent := s.sent + 1 }
    ⟨done.1, done.2, []⟩

/-- `BEGIN`. -/
def begin (conn : Connection ε) : Audited (Session ω υ) τ ε Unit :=
  send conn Tx.abort fun s => match s.tx with
    | .idle => (.ok (), { s with tx := .active s.committed })
    | .active _ => (.ok (), s)
    | .aborted => (.error conn.refusal, s)

/-- `COMMIT`: the commit of an aborted transaction rolls back, and one that fails does not commit. -/
def commit (conn : Connection ε) : Audited (Session ω υ) τ ε Unit :=
  send conn (fun _ => .idle) fun s => match s.tx with
    | .active work => (.ok (), { s with committed := work, tx := .idle, commits := s.commits + 1 })
    | _ => (.ok (), { s with tx := .idle })

/-- `ROLLBACK`. -/
def rollback (conn : Connection ε) : Audited (Session ω υ) τ ε Unit :=
  send conn Tx.abort fun s => (.ok (), { s with tx := .idle })

/-- Any other statement: its value and the contents after it. -/
def exec (conn : Connection ε) (f : ω → Except ε (α × ω)) : Audited (Session ω υ) τ ε α :=
  send conn Tx.abort fun s => match s.tx with
    | .idle => match f s.committed with
      | .ok (a, w) => (.ok a, { s with committed := w, commits := s.commits + 1 })
      | .error e => (.error e, s)
    | .active work => match f work with
      | .ok (a, w) => (.ok a, { s with tx := .active w })
      | .error e => (.error e, { s with tx := .aborted })
    | .aborted => (.error conn.refusal, s)

def onClient (f : υ → α × υ) : Audited (Session ω υ) τ ε α := fun s =>
  ⟨.ok (f s.client).1, { s with client := (f s.client).2 }, []⟩

def close (s : Session ω υ) : Session ω υ := { s with tx := .idle }

/-- A body and `COMMIT`. -/
def committing (conn : Connection ε) (body : Audited (Session ω υ) τ ε α) :
    Audited (Session ω υ) τ ε α := do
  let a ← body
  commit conn
  pure a

/-- Rolls back after an error; `stuck` is the error when that fails as well. -/
def abandon (conn : Connection ε) (stuck : ε → ε) (e : ε) : Audited (Session ω υ) τ ε α := do
  .recover (rollback conn) fun _ => .fail (stuck e)
  .fail e

/-- `BEGIN`, a body and `COMMIT`.  When the body or the commit fails the transaction is rolled
back. -/
def transaction (conn : Connection ε) (stuck : ε → ε) (body : Audited (Session ω υ) τ ε α) :
    Audited (Session ω υ) τ ε α := do
  begin conn
  .recover (committing conn body) (abandon conn stuck)

/-- Tries a computation again while its error is retryable, but only so many times. -/
def retrying (retryable : ε → Bool) (exhausted : ε) (m : Audited (Session ω υ) τ ε α) :
    ℕ → Audited (Session ω υ) τ ε α
  | 0 => .fail exhausted
  | left + 1 => .recover m fun e =>
    if retryable e then retrying retryable exhausted m left else .fail e

/-! ### Statements -/

variable {conn : Connection ε}

variable {s : Session ω υ}

theorem begin_of_fault {e : ε} (h : conn.fault s.sent = some e) :
    (begin conn : Audited (Session ω υ) τ ε Unit) s =
      ⟨.error e, { s with tx := s.tx.abort, sent := s.sent + 1 }, []⟩ := by
  rw [begin, send, h]

theorem begin_of_idle (h : conn.fault s.sent = none) (hidle : s.tx = .idle) :
    (begin conn : Audited (Session ω υ) τ ε Unit) s =
      ⟨.ok (), { s with tx := .active s.committed, sent := s.sent + 1 }, []⟩ := by
  rw [begin, send, h]
  simp only [hidle]

theorem commit_of_fault {e : ε} (h : conn.fault s.sent = some e) :
    (commit conn : Audited (Session ω υ) τ ε Unit) s =
      ⟨.error e, { s with tx := .idle, sent := s.sent + 1 }, []⟩ := by
  rw [commit, send, h]

theorem commit_of_active {work : ω}
    (h : conn.fault s.sent = none) (hwork : s.tx = .active work) :
    (commit conn : Audited (Session ω υ) τ ε Unit) s =
      ⟨.ok (), { s with committed := work, tx := .idle, commits := s.commits + 1,
                        sent := s.sent + 1 }, []⟩ := by
  rw [commit, send, h]
  simp only [hwork]

variable {f : ω → Except ε (α × ω)}

theorem exec_of_fault {s : Session ω υ} {e : ε} (h : conn.fault s.sent = some e) :
    (exec conn f : Audited (Session ω υ) τ ε α) s =
      ⟨.error e, { s with tx := s.tx.abort, sent := s.sent + 1 }, []⟩ := by
  rw [exec, send, h]

theorem exec_of_refused {s : Session ω υ}
    {work : ω} {e : ε} (h : conn.fault s.sent = none) (hwork : s.tx = .active work)
    (hf : f work = .error e) : (exec conn f : Audited (Session ω υ) τ ε α) s =
      ⟨.error e, { s with tx := .aborted, sent := s.sent + 1 }, []⟩ := by
  rw [exec, send, h]
  simp only [hwork, hf]

theorem exec_of_done {s : Session ω υ}
    {work : ω} {done : α × ω} (h : conn.fault s.sent = none) (hwork : s.tx = .active work)
    (hf : f work = .ok done) : (exec conn f : Audited (Session ω υ) τ ε α) s =
      ⟨.ok done.1, { s with tx := .active done.2, sent := s.sent + 1 }, []⟩ := by
  rw [exec, send, h]
  simp only [hwork, hf]

theorem rollback_of_fault {s : Session ω υ} {e : ε} (h : conn.fault s.sent = some e) :
    (rollback conn : Audited (Session ω υ) τ ε Unit) s =
      ⟨.error e, { s with tx := s.tx.abort, sent := s.sent + 1 }, []⟩ := by
  rw [rollback, send, h]

theorem rollback_of_no_fault {s : Session ω υ} (h : conn.fault s.sent = none) :
    (rollback conn : Audited (Session ω υ) τ ε Unit) s =
      ⟨.ok (), { s with tx := .idle, sent := s.sent + 1 }, []⟩ := by
  rw [rollback, send, h]

/-! ### Inside a transaction -/

/-- From a session with an open transaction, a run commits nothing, logs nothing, and succeeds only
if the transaction is still open. -/
def Inside (m : Audited (Session ω υ) τ ε α) : Prop :=
  ∀ s work, s.tx = .active work →
    (m s).state.committed = s.committed ∧ (m s).state.commits = s.commits ∧ (m s).log = [] ∧
      ∀ a, (m s).result = .ok a → ∃ work', (m s).state.tx = .active work'

namespace Inside

variable {m : Audited (Session ω υ) τ ε α} {k : α → Audited (Session ω υ) τ ε β}

theorem lift (x : Except ε α) : Inside (Audited.lift x : Audited (Session ω υ) τ ε α) :=
  fun _ work hs => ⟨rfl, rfl, rfl, fun _ _ => ⟨work, hs⟩⟩

theorem pure (a : α) : Inside (Pure.pure a : Audited (Session ω υ) τ ε α) := lift (.ok a)

theorem fail (e : ε) : Inside (Audited.fail e : Audited (Session ω υ) τ ε α) := lift (.error e)

theorem check (c : Prop) [Decidable c] (e : ε) :
    Inside (Audited.check c e : Audited (Session ω υ) τ ε Unit) := by
  unfold Audited.check
  split
  · exact pure ()
  · exact fail e

theorem onClient (f : υ → α × υ) : Inside (Session.onClient f : Audited (Session ω υ) τ ε α) :=
  fun _ work hs => ⟨rfl, rfl, rfl, fun _ _ => ⟨work, hs⟩⟩

theorem exec (conn : Connection ε) (f : ω → Except ε (α × ω)) :
    Inside (Session.exec conn f : Audited (Session ω υ) τ ε α) := by
  intro s work hs
  cases hfault : conn.fault s.sent with
  | some e =>
    rw [exec_of_fault hfault]
    exact ⟨rfl, rfl, rfl, nofun⟩
  | none =>
    cases hf : f work with
    | error e =>
      rw [exec_of_refused hfault hs hf]
      exact ⟨rfl, rfl, rfl, nofun⟩
    | ok done =>
      rw [exec_of_done hfault hs hf]
      exact ⟨rfl, rfl, rfl, fun _ _ => ⟨done.2, rfl⟩⟩

theorem bind (hm : Inside m) (hk : ∀ a, Inside (k a)) : Inside (m >>= k) := by
  intro s work hs
  obtain ⟨hcommitted, hcommits, hlog, hopen⟩ := hm s work hs
  rw [bind_apply]
  cases ha : (m s).result with
  | error e => exact ⟨hcommitted, hcommits, hlog, nofun⟩
  | ok a =>
    obtain ⟨work', hwork'⟩ := hopen a ha
    obtain ⟨hcommitted', hcommits', hlog', hopen'⟩ := hk a _ work' hwork'
    refine ⟨hcommitted'.trans hcommitted, hcommits'.trans hcommits, ?_, hopen'⟩
    change (m s).log ++ (k a (m s).state).log = []
    rw [hlog, hlog', List.append_nil]

theorem ite {c : Prop} [Decidable c] {m₁ m₂ : Audited (Session ω υ) τ ε α} (h₁ : Inside m₁)
    (h₂ : Inside m₂) : Inside (if c then m₁ else m₂) := by
  split
  · exact h₁
  · exact h₂

theorem forEach {f : α → Audited (Session ω υ) τ ε β} {xs : List α} (h : ∀ x, Inside (f x)) :
    Inside (Audited.forEach f xs) := by
  induction xs with
  | nil => exact pure []
  | cons x xs ih => exact bind (h x) fun b => bind ih fun bs => pure (b :: bs)

end Inside

/-! ### How a transaction ends -/

def CommitsNothing (s : Session ω υ) (o : Outcome (Session ω υ) τ ε α) : Prop :=
  (∃ e, o.result = .error e) ∧ o.state.committed = s.committed ∧ o.state.commits = s.commits ∧
    o.log = []

/-- A run commits once, and both its value and what it commits are those of one run of the body,
which worked on the contents that were committed before. -/
def CommitsOnce (body : Audited (Session ω υ) τ ε α) (s : Session ω υ)
    (o : Outcome (Session ω υ) τ ε α) : Prop :=
  ∃ a start, start.tx = .active s.committed ∧ start.committed = s.committed ∧
    (body start).result = .ok a ∧ (body start).state.tx = .active o.state.committed ∧
    o.result = .ok a ∧ o.state.commits = s.commits + 1 ∧ o.log = []

variable (conn : Connection ε)

theorem committing_ends {body : Audited (Session ω υ) τ ε α} (hbody : Inside body)
    {s : Session ω υ} (hs : s.tx = .active s.committed) :
    CommitsOnce body s (committing conn body s) ∨ CommitsNothing s (committing conn body s) := by
  unfold committing
  obtain ⟨hcommitted, hcommits, hlog, hopen⟩ := hbody s _ hs
  cases ha : (body s).result with
  | error e =>
    rw [bind_of_error ha]
    exact .inr ⟨⟨e, rfl⟩, hcommitted, hcommits, hlog⟩
  | ok a =>
    obtain ⟨work, hwork⟩ := hopen a ha
    rw [bind_of_ok ha, hlog]
    cases hfault : conn.fault (body s).state.sent with
    | some e =>
      rw [bind_of_failed_run (commit_of_fault hfault)]
      exact .inr ⟨⟨e, rfl⟩, hcommitted, hcommits, rfl⟩
    | none =>
      rw [bind_of_run (commit_of_active hfault hwork)]
      exact .inl ⟨a, s, hs, rfl, ha, hwork, rfl, congrArg (· + 1) hcommits, rfl⟩

variable (stuck : ε → ε)

theorem abandon_spec (e : ε) (s : Session ω υ) :
    ∃ o : Outcome (Session ω υ) τ ε α, abandon conn stuck e s = o ∧
      (o.result = .error e ∧ o.state.tx = .idle ∨ o.result = .error (stuck e)) ∧
      o.state.committed = s.committed ∧ o.state.commits = s.commits ∧ o.log = [] := by
  refine ⟨_, rfl, ?_⟩
  unfold abandon
  cases hfault : conn.fault s.sent with
  | some e' =>
    have hstuck : (Audited.recover (rollback conn) (fun _ => .fail (stuck e)) :
        Audited (Session ω υ) τ ε Unit) s =
          ⟨.error (stuck e), { s with tx := s.tx.abort, sent := s.sent + 1 }, []⟩ := by
      rw [Audited.recover, rollback_of_fault hfault]
      rfl
    rw [bind_of_failed_run hstuck]
    exact ⟨.inr rfl, rfl, rfl, rfl⟩
  | none =>
    have hdone : (Audited.recover (rollback conn) (fun _ => .fail (stuck e)) :
        Audited (Session ω υ) τ ε Unit) s =
          ⟨.ok (), { s with tx := .idle, sent := s.sent + 1 }, []⟩ := by
      rw [Audited.recover, rollback_of_no_fault hfault]
    rw [bind_of_run hdone]
    exact ⟨.inl ⟨rfl, rfl⟩, rfl, rfl, rfl⟩

theorem transaction_ends
    {body : Audited (Session ω υ) τ ε α} (hbody : Inside body) {s : Session ω υ}
    (hs : s.tx = .idle) : CommitsOnce body s (transaction conn stuck body s) ∨
      CommitsNothing s (transaction conn stuck body s) ∧
        ((transaction conn stuck body s).state.tx = .idle ∨
          ∃ e, (transaction conn stuck body s).result = .error (stuck e)) := by
  unfold transaction
  cases hfault : conn.fault s.sent with
  | some e =>
    rw [bind_of_failed_run (begin_of_fault hfault), hs]
    exact .inr ⟨⟨⟨e, rfl⟩, rfl, rfl, rfl⟩, .inl rfl⟩
  | none =>
    rw [bind_of_run (begin_of_idle hfault hs)]
    dsimp only
    rcases committing_ends conn hbody
        (s := { s with tx := .active s.committed, sent := s.sent + 1 }) rfl with
      honce | ⟨⟨e, he⟩, hcommitted, hcommits, hlog⟩
    · obtain ⟨a, first, hfirst, hfirstCommitted, hbodyOk, hwork, hok, hcommits, hlog⟩ := honce
      rw [recover_of_ok hok]
      exact .inl ⟨a, first, hfirst, hfirstCommitted, hbodyOk, hwork, hok, hcommits, hlog⟩
    · rw [recover_of_error he, hlog]
      obtain ⟨o, ho, hend, hcommitted', hcommits', hlog'⟩ :=
        abandon_spec (τ := τ) (α := α) conn stuck e (committing conn body
          { s with tx := .active s.committed, sent := s.sent + 1 }).state
      rw [ho]
      have hkept : o.state.committed = s.committed := hcommitted'.trans hcommitted
      have hcount : o.state.commits = s.commits := hcommits'.trans hcommits
      rcases hend with ⟨hresult, hidle⟩ | hresult
      · exact .inr ⟨⟨⟨e, hresult⟩, hkept, hcount, hlog'⟩, .inl hidle⟩
      · exact .inr ⟨⟨⟨stuck e, hresult⟩, hkept, hcount, hlog'⟩, .inr ⟨e, hresult⟩⟩

/-- However often a transaction is tried, it commits once or nothing, unless a stuck one is tried
again. -/
theorem retrying_ends (retryable : ε → Bool)
    (hstuck : ∀ e, retryable (stuck e) = false) (exhausted : ε)
    {body : Audited (Session ω υ) τ ε α} (hbody : Inside body) (left : ℕ) {s : Session ω υ}
    (hs : s.tx = .idle) :
    CommitsOnce body s (retrying retryable exhausted (transaction conn stuck body) left s) ∨
      CommitsNothing s (retrying retryable exhausted (transaction conn stuck body) left s) := by
  induction left generalizing s with
  | zero => exact .inr ⟨⟨exhausted, rfl⟩, rfl, rfl, rfl⟩
  | succ left ih =>
    unfold retrying
    rcases transaction_ends conn stuck hbody hs with
      honce | ⟨⟨⟨e, he⟩, hcommitted, hcommits, hlog⟩, hend⟩
    · obtain ⟨a, start, hactive, hstart, hbodyOk, hwork, hok, hcommits, hlog⟩ := honce
      rw [recover_of_ok hok]
      exact .inl ⟨a, start, hactive, hstart, hbodyOk, hwork, hok, hcommits, hlog⟩
    · rw [recover_of_error he, hlog]
      cases hretry : retryable e with
      | false =>
        rw [if_neg (by simp)]
        exact .inr ⟨⟨e, rfl⟩, hcommitted, hcommits, rfl⟩
      | true =>
        rw [if_pos rfl]
        have hidle : (transaction conn stuck body s).state.tx = .idle := by
          rcases hend with hidle | ⟨e', he'⟩
          · exact hidle
          · obtain rfl : e = stuck e' := Except.error.inj (he.symm.trans he')
            exact absurd hretry (by simp [hstuck])
        rcases ih hidle with honce | hnothing
        · obtain ⟨a, start, hactive, hstart, hbodyOk, hwork, hok, hcount, hlog'⟩ := honce
          rw [hcommitted] at hactive hstart
          rw [hcommits] at hcount
          exact .inl ⟨a, start, hactive, hstart, hbodyOk, hwork, hok, hcount, hlog'⟩
        · obtain ⟨⟨e', he'⟩, hkept, hcount, hlog'⟩ := hnothing
          exact .inr ⟨⟨e', he'⟩, hkept.trans hcommitted, hcount.trans hcommits, hlog'⟩

end Session
