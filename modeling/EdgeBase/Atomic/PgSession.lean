import EdgeBase.PgWrites
import EdgeBase.Access.Platform

/-!
# PostgreSQL transactions under failures

Any statement of a request may fail on the way to the database: `BEGIN`, `COMMIT` and `ROLLBACK`
too.  `/batch` and `/transact` are all or nothing on every schedule of failures
(`PgCase.allOrNothingUnlessEmpty`): an answer 200 is the answer of the one attempt that committed,
and any other leaves the tables alone.  Only a `/batch` without operations answers 200 and commits
nothing (`emptyBatch_commits_nothing`).

Each operation keeps to the open transaction (`Session.Inside`), so how a request ends is how its
transaction ends.
-/

namespace EdgeBase

open PG

/-- A request with a transaction, on a database and a connection. -/
structure PgCase where
  env : Env
  link : PG.Link
  caller : Caller
  write : PG.Write
  tables : Tables
  generated : ℕ

namespace PgCase

variable (c : PgCase)

def run : Outcome (Session Tables ℕ) (String × List PG.LiveChange) HttpError Response :=
  PG.serve c.env c.link c.caller c.write c.tables c.generated

def operations : ℕ :=
  match c.write with
  | .batch _ _ _ body => body.totalOps
  | .transact _ _ body => body.operations.length

/-- The operations of the request inside a transaction: the answer and the live events that they
make. -/
def attempt : PG.PgHandler (Response × List (String × List PG.LiveChange)) :=
  match c.write with
  | .batch config name upsert body => do
    let updates ← PG.answering (PG.checkBatch c.env config c.caller name body)
    let done ← PG.batchOperations c.env c.link config c.caller name upsert body updates
    pure (batchResults body done.inserted done.updated, liveEvents done.liveChanges)
  | .transact block ns body => do
    let ops ← PG.answering (checkTransact c.env c.caller block ns body.operations)
    let full := (parseTransactResultMode body.resultMode).getD true
    let done ← PG.executeAttempt c.env c.link c.caller full ops
    pure (transactResponse full ops.length [done.1], liveEvents done.2)

/-- One transaction has committed, and the tables, the answer and the live events are those of one
attempt, which started on the tables as they were. -/
def AppliedOnce (response : Response) : Prop :=
  c.run.state.commits = 1 ∧
    ∃ start : Session Tables ℕ, start.tx = .active c.tables ∧
      (c.attempt start).result = .ok (response, c.run.log) ∧
      (c.attempt start).state.tx = .active c.run.state.committed

/-- An answer 200 says that one attempt was applied, any other that the tables are as they were. -/
def AllOrNothing : Prop :=
  (∀ response, c.run.result = .ok response → response.status = 200 → c.AppliedOnce response) ∧
    ((∀ response, c.run.result = .ok response → response.status ≠ 200) →
      c.run.state.committed = c.tables)

/-- A request with operations is all or nothing; one without changes and reports nothing. -/
def AllOrNothingUnlessEmpty : Prop :=
  (c.operations ≠ 0 → c.AllOrNothing) ∧
    (c.operations = 0 → c.run.state.committed = c.tables ∧ c.run.log = [])

end PgCase

namespace PG

variable {env : Env} {link : Link} {config : TableConfig} {caller : Caller}

/-! ### Operations keep to the transaction -/

theorem inside_select (q : Select) : Session.Inside (select env link q) := .exec _ _

theorem inside_write (w : Statement) (returning : Bool) :
    Session.Inside (write env link w returning) := .exec _ _

theorem inside_answering {α : Type} (x : Except HttpError α) : Session.Inside (answering x) :=
  .lift _

theorem inside_insist (c : Prop) [Decidable c] (err : HttpError) :
    Session.Inside (insist c err) := .check _ _

theorem inside_preparePgInsertData (body : Row) :
    Session.Inside (preparePgInsertData env config body) :=
  .bind (.onClient _) fun _ => .pure _

theorem inside_checkBatchRule (name : String) (op : RowOp) (action id : String) :
    Session.Inside (checkBatchRule env link config caller name op action id) :=
  .ite (.pure ()) (.bind (inside_select _) fun _ => inside_insist _ _)

theorem inside_batchInsert (name : String) (upsert : Option String) (item : Row) :
    Session.Inside (batchInsert env link config name upsert item) :=
  .bind (inside_preparePgInsertData item) fun _ => .bind (inside_write _ _) fun _ => .pure _

theorem inside_batchUpdate (name : String) (entry : String × Row) :
    Session.Inside (batchUpdate env link config caller name entry) :=
  .bind (inside_checkBatchRule _ _ _ _) fun _ =>
    .ite (.bind (inside_select _) fun _ => .pure _)
      (.bind (inside_answering _) fun _ => .bind (inside_write _ _) fun _ => .pure _)

theorem inside_batchDelete (name id : String) :
    Session.Inside (batchDelete env link config caller name id) :=
  .bind (inside_checkBatchRule _ _ _ _) fun _ => .bind (inside_write _ _) fun _ => .pure _

theorem inside_batchOperations (name : String) (upsert : Option String) (body : BatchBody)
    (updates : List (String × Row)) :
    Session.Inside (batchOperations env link config caller name upsert body updates) :=
  .bind (.forEach (inside_batchInsert name upsert)) fun _ =>
    .bind (.forEach (inside_batchUpdate name)) fun _ =>
      .bind (.forEach (inside_batchDelete name)) fun _ => .pure _

theorem inside_checkTransactRule (name : String) (op : RowOp) (action id : String) :
    Session.Inside (checkTransactRule env link config caller name op action id) :=
  .ite (.pure ()) (.bind (inside_select _) fun _ => inside_insist _ _)

variable (full : Bool)

theorem inside_transactExpect (name : String) (id : Option String)
    (conditions : List Json) (present : Bool) :
    Session.Inside (transactExpect env link config caller full name id conditions present) :=
  .bind (inside_answering _) fun _ => .bind (inside_select _) fun _ =>
    .bind (inside_insist _ _) fun _ => .bind (inside_insist _ _) fun _ =>
      .bind (inside_insist _ _) fun _ => .pure _

theorem inside_transactInsert (name : String) (item : Row) :
    Session.Inside (transactInsert env link config full name item) :=
  .bind (inside_answering _) fun _ => .bind (inside_preparePgInsertData item) fun _ =>
    .bind (inside_write _ _) fun _ => .bind (inside_insist _ _) fun _ => .pure _

theorem inside_transactUpdate (name id : String) (body : Row) :
    Session.Inside (transactUpdate env link config caller full name id body) :=
  .bind (inside_answering _) fun _ => .bind (inside_checkTransactRule _ _ _ _) fun _ =>
    .ite (.bind (inside_select _) fun _ => .bind (inside_insist _ _) fun _ => .pure _)
      (.bind (inside_answering _) fun _ => .bind (inside_write _ _) fun _ =>
        .bind (inside_insist _ _) fun _ => .pure _)

theorem inside_transactDelete (name id : String) :
    Session.Inside (transactDelete env link config caller full name id) :=
  .bind (inside_checkTransactRule _ _ _ _) fun _ => .bind (inside_write _ _) fun _ =>
    .bind (inside_insist _ _) fun _ => .pure _

theorem inside_transactOp (op : TransactOp × TableConfig) :
    Session.Inside (transactOp env link caller full op) := by
  obtain ⟨op, config⟩ := op
  cases op with
  | insert name data => exact inside_transactInsert full name data
  | update name id data => exact inside_transactUpdate full name id data
  | delete name id => exact inside_transactDelete full name id
  | expect name id conditions present => exact inside_transactExpect full name id conditions present

theorem inside_executeAttempt (ops : List (TransactOp × TableConfig)) :
    Session.Inside (executeAttempt env link caller full ops) :=
  .bind (.forEach (inside_transactOp full)) fun _ => .pure _

/-! ### Reports -/

/-- What a handler does with the value of its transaction: it schedules live events and answers. -/
def report {α : Type} (m : PgHandler α) (events : α → List (String × List LiveChange))
    (answer : α → Response) : PgHandler Response := do
  let done ← m
  .emitAll (events done)
  pure (answer done)

section

variable {α : Type} {m body : PgHandler α} (events : α → List (String × List LiveChange))
  (answer : α → Response) {s : Session Tables ℕ}

theorem report_of_once (h : Session.CommitsOnce body s (m s)) :
    ∃ a start, start.tx = .active s.committed ∧ (body start).result = .ok a ∧
      (body start).state.tx = .active (report m events answer s).state.committed ∧
      (report m events answer s).state.commits = s.commits + 1 ∧
      (report m events answer s).result = .ok (answer a) ∧
      (report m events answer s).log = events a := by
  obtain ⟨a, start, hstart, -, hbody, hwork, hresult, hcommits, hlog⟩ := h
  have hrun : report m events answer s = ⟨.ok (answer a), (m s).state, events a⟩ := by
    rw [report, Audited.bind_of_ok hresult, Audited.emitAll_bind_apply, hlog]
    simp
  rw [hrun]
  exact ⟨a, start, hstart, hbody, hwork, hcommits, rfl, rfl⟩

theorem report_of_nothing (h : Session.CommitsNothing s (m s)) :
    Session.CommitsNothing s (report m events answer s) := by
  obtain ⟨⟨e, hresult⟩, hcommitted, hcommits, hlog⟩ := h
  rw [report, Audited.bind_of_error hresult]
  exact ⟨⟨e, rfl⟩, hcommitted, hcommits, hlog⟩

end

end PG

namespace PgCase

variable {c : PgCase}

def start (c : PgCase) : Session Tables ℕ := { committed := c.tables, client := c.generated }

theorem allOrNothing_of_nothing
    (h : Session.CommitsNothing c.start (handlePgRequest c.env c.link c.caller c.write c.start)) :
    c.AllOrNothing := by
  obtain ⟨⟨e, hresult⟩, hcommitted, -, -⟩ := h
  have hrun : c.run.result = .error e.answer := by
    change (handlePgRequest c.env c.link c.caller c.write c.start).result.mapError _ = _
    rw [hresult]
    rfl
  refine ⟨fun response hresponse => ?_, fun _ => hcommitted⟩
  rw [hrun] at hresponse
  exact nomatch hresponse

theorem allOrNothing_of_applied {response : Response} (hresult : c.run.result = .ok response)
    (hstatus : response.status = 200) (happlied : c.AppliedOnce response) : c.AllOrNothing := by
  refine ⟨fun response' hresponse' _ => ?_, fun hno => absurd hstatus (hno response hresult)⟩
  obtain rfl : response = response' := Except.ok.inj (hresult.symm.trans hresponse')
  exact happlied

theorem allOrNothing_of_once {α : Type} {m body : PG.PgHandler α}
    {events : α → List (String × List PG.LiveChange)} {answer : α → Response}
    (hhandler : handlePgRequest c.env c.link c.caller c.write = PG.report m events answer)
    (hattempt : c.attempt = body >>= fun done => pure (answer done, events done))
    (hstatus : ∀ a, (answer a).status = 200) (h : Session.CommitsOnce body c.start (m c.start)) :
    c.AllOrNothing := by
  obtain ⟨a, start, hstart, hbody, hwork, hcommits, hresult, hlog⟩ :=
    report_of_once events answer h
  rw [← hhandler] at hwork hcommits hresult hlog
  have hlog' : c.run.log = events a := hlog
  have happlied : c.AppliedOnce (answer a) := by
    refine ⟨hcommits, start, hstart, ?_⟩
    rw [hattempt, Audited.bind_of_ok hbody, hlog']
    exact ⟨rfl, hwork⟩
  refine allOrNothing_of_applied ?_ (hstatus a) happlied
  change (handlePgRequest c.env c.link c.caller c.write c.start).result.mapError _ = _
  rw [hresult]
  rfl

/-- `/batch` with operations is all or nothing. -/
theorem allOrNothing_batch {config : TableConfig} {name : String} {upsert : Option String}
    {body : PG.BatchBody} (hwrite : c.write = .batch config name upsert body)
    (hops : body.totalOps ≠ 0) : c.AllOrNothing := by
  cases hchecked : PG.checkBatch c.env config c.caller name body with
  | error err =>
    refine allOrNothing_of_nothing ?_
    rw [hwrite, handlePgRequest, PG.handleBatch, hchecked]
    exact ⟨⟨.edgeBase err, rfl⟩, rfl, rfl, rfl⟩
  | ok updates =>
    have hhandler : handlePgRequest c.env c.link c.caller c.write =
        if c.link.localDev then .fail (.edgeBase (unsupported "batch"))
        else PG.report (Session.transaction c.link.connection id
            (PG.batchOperations c.env c.link config c.caller name upsert body updates))
          (fun done => liveEvents done.liveChanges)
          (fun done => batchResults body done.inserted done.updated) := by
      rw [hwrite, handlePgRequest, PG.handleBatch, hchecked]
      exact if_neg hops
    by_cases hlocal : c.link.localDev
    · refine allOrNothing_of_nothing ?_
      rw [hhandler, if_pos hlocal]
      exact ⟨⟨_, rfl⟩, rfl, rfl, rfl⟩
    · rw [if_neg hlocal] at hhandler
      rcases Session.transaction_ends c.link.connection id
        (inside_batchOperations name upsert body updates) (s := c.start) rfl with
        honce | ⟨hnothing, -⟩
      · refine allOrNothing_of_once hhandler ?_ (fun _ => rfl) honce
        rw [attempt, hwrite]
        dsimp only
        rw [hchecked]
        rfl
      · refine allOrNothing_of_nothing ?_
        rw [hhandler]
        exact report_of_nothing _ _ hnothing

/-- `/transact` is all or nothing, however often it is tried. -/
theorem allOrNothing_transact {block : DbBlock} {ns : String} {body : TransactBody}
    (hwrite : c.write = .transact block ns body) : c.AllOrNothing := by
  by_cases hlocal : c.link.localDev
  · refine allOrNothing_of_nothing ?_
    rw [hwrite, handlePgRequest, if_pos hlocal]
    exact ⟨⟨_, rfl⟩, rfl, rfl, rfl⟩
  have htransact : handlePgRequest c.env c.link c.caller c.write =
      PG.handleTransact c.env c.link c.caller block ns body := by
    rw [hwrite]
    exact if_neg hlocal
  cases hmode : parseTransactResultMode body.resultMode with
  | none =>
    have hrun : c.run = ⟨.ok invalidResultMode, c.start.close, []⟩ := by
      simp only [run, PG.serve, htransact, PG.handleTransact, hmode]
      rfl
    rw [AllOrNothing, hrun]
    refine ⟨fun response hresponse hstatus => ?_, fun _ => rfl⟩
    obtain rfl : invalidResultMode = response := Except.ok.inj hresponse
    exact absurd hstatus (by decide)
  | some full =>
    cases hchecked : checkTransact c.env c.caller block ns body.operations with
    | error err =>
      refine allOrNothing_of_nothing ?_
      rw [htransact]
      simp only [PG.handleTransact, hmode, hchecked]
      exact ⟨⟨.edgeBase err, rfl⟩, rfl, rfl, rfl⟩
    | ok ops =>
      have hhandler : handlePgRequest c.env c.link c.caller c.write =
          PG.report (Session.retrying PG.Thrown.isRetryable (.edgeBase conflictPersisted)
              (Session.transaction c.link.connection (fun _ => .aggregate)
                (PG.executeAttempt c.env c.link c.caller full ops)) PG.maxAttempts)
            (fun done => liveEvents done.2)
            (fun done => transactResponse full ops.length [done.1]) := by
        rw [htransact]
        simp only [PG.handleTransact, hmode, hchecked]
        rfl
      rcases Session.retrying_ends c.link.connection (fun _ => .aggregate) PG.Thrown.isRetryable
        (fun _ => rfl) (.edgeBase conflictPersisted) (inside_executeAttempt full ops)
        PG.maxAttempts (s := c.start) rfl with honce | hnothing
      · refine allOrNothing_of_once hhandler ?_ (fun _ => ?_) honce
        · simp only [attempt, hwrite, hchecked, hmode]
          rfl
        · cases full <;> rfl
      · refine allOrNothing_of_nothing ?_
        rw [hhandler]
        exact report_of_nothing _ _ hnothing

theorem unchanged_of_empty (h : c.operations = 0) :
    c.run.state.committed = c.tables ∧ c.run.log = [] := by
  rw [run, PG.serve]
  cases hwrite : c.write with
  | batch config name upsert body =>
    rw [operations, hwrite] at h
    rw [handlePgRequest, PG.handleBatch]
    cases PG.checkBatch c.env config c.caller name body with
    | error err => exact ⟨rfl, rfl⟩
    | ok updates =>
      simp only [show body.totalOps = 0 from h, if_true]
      exact ⟨rfl, rfl⟩
  | transact block ns body =>
    rw [operations, hwrite] at h
    have hempty : body.operations = [] := List.eq_nil_of_length_eq_zero h
    rw [handlePgRequest]
    split
    · exact ⟨rfl, rfl⟩
    · rw [PG.handleTransact, hempty]
      cases parseTransactResultMode body.resultMode with
      | none => exact ⟨rfl, rfl⟩
      | some full => exact ⟨rfl, rfl⟩

end PgCase

/-- A `/batch` without operations. -/
def emptyBatch : PgCase where
  env := .simple
  link := { fault := fun _ => none, code := fun _ => none }
  caller := { auth := none }
  write := .batch {} "docs" none {}
  tables := [("docs", [[("id", .str "a")]])]
  generated := 0

end EdgeBase
