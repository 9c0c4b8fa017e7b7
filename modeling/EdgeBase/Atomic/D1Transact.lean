import EdgeBase.D1Writes
import EdgeBase.Access.Platform

/-!
# The transactions of the D1 handler among concurrent writes

`/transact` checks its operations one after the other, on rows that other requests may change at
any moment, and then sends one batch, in which the expectations are guards.

* `D1.runBatch_spec` : the batch means that.
* `TransactCase.atomicAtCommit_iff` : it is kept exactly when no read after the commit fails.
-/

namespace EdgeBase

open List Audited

namespace D1

/-- An operation with the declaration of its table. -/
abbrev Op := TransactOp × TableConfig

section Sequential

variable (env : Env)

/-! ### The meaning of a list of operations -/

/-- How many ids are generated after an operation, when `n` were before. -/
def nextId (op : Op) (n : ℕ) : ℕ :=
  match op.1 with
  | .insert _ data => (recordId env n data).2
  | _ => n

/-- The write of an operation, when `n` ids were generated before. -/
def writeOf (op : Op) (n : ℕ) : Option Statement :=
  match op.1 with
  | .expect _ _ _ _ => none
  | .insert name data => some (.insert name (insertData env op.2
      (buildRecord env (buildEffectiveSchema op.2.schema) data (recordId env n data).1)))
  | .update name id data =>
    match updateClauses env op.2 data with
    | .ok (clause :: clauses) => some (.update name (clause :: clauses) [id])
    | _ => none
  | .delete name id => some (.delete name [id])

def effect (op : Op) (n : ℕ) (s : Store) : Store :=
  match writeOf env op n with
  | none => s
  | some w => s.setRows w.table (env.engine.exec (s.rows w.table) w)

/-- The expectation of an operation, if it is one, holds in a database. -/
def Holds (op : Op) (s : Store) : Prop :=
  match op.1 with
  | .expect name id conditions present =>
    ∀ probe, expectProbe env (buildEffectiveSchema op.2.schema) name id conditions = .ok probe →
      (!(env.engine.found probe (s.rows name)).isEmpty) = present
  | _ => True

/-- The database refuses no statement of an operation. -/
def Accepts (op : Op) (n : ℕ) (s : Store) : Prop :=
  match op.1 with
  | .expect name id conditions _ =>
    ∀ probe, expectProbe env (buildEffectiveSchema op.2.schema) name id conditions = .ok probe →
      env.engine.queryFault probe (s.rows name) = none
  | _ => ∀ w ∈ writeOf env op n, env.engine.writeFault w (s.rows w.table) = none

/-- The number of ids generated after some operations. -/
def idsAfter : List Op → ℕ → ℕ
  | [], n => n
  | op :: ops, n => idsAfter ops (nextId env op n)

/-- The database after some operations, one after the other. -/
def sequential : List Op → ℕ → Store → Store
  | [], _, s => s
  | op :: ops, n, s => sequential ops (nextId env op n) (effect env op n s)

/-- Every expectation holds in the database that the operations before it reach. -/
def AllHold : List Op → ℕ → Store → Prop
  | [], _, _ => True
  | op :: ops, n, s => Holds env op s ∧ AllHold ops (nextId env op n) (effect env op n s)

/-- The database refuses no statement, each in the database that the ones before it reach. -/
def AllAccepted : List Op → ℕ → Store → Prop
  | [], _, _ => True
  | op :: ops, n, s => Accepts env op n s ∧ AllAccepted ops (nextId env op n) (effect env op n s)

/-! ### The compiled batch -/

def statementsOf (op : Op) (n : ℕ) : List BatchStatement :=
  match op.1 with
  | .expect name id conditions present =>
    match expectProbe env (buildEffectiveSchema op.2.schema) name id conditions with
    | .ok probe => [.guard probe present]
    | .error _ => []
  | .insert name data => [.insert name (insertData env op.2
      (buildRecord env (buildEffectiveSchema op.2.schema) data (recordId env n data).1))]
  | .update name id data =>
    match updateClauses env op.2 data with
    | .ok (clause :: clauses) => [.update name id (clause :: clauses)]
    | _ => []
  | .delete name id => [.delete name id]

def allStatements : List Op → ℕ → List BatchStatement
  | [], _ => []
  | op :: ops, n => statementsOf env op n ++ allStatements ops (nextId env op n)

variable {env}

theorem table_expectProbe {effective : EffectiveSchema} {name : String} {id : Option String}
    {conditions : List Json} {probe : Select}
    (h : expectProbe env effective name id conditions = .ok probe) : probe.table = name := by
  obtain ⟨filters, -, hprobe⟩ := Except.bind_eq_ok.1 h
  obtain rfl := Except.ok.inj hprobe
  rfl

/-- A statement of a batch performs a write, or fails when the database refuses it. -/
def Performs (env : Env) (statement : BatchStatement) (w : Statement) : Prop :=
  ∀ s, (env.engine.writeFault w (s.rows w.table) = none →
      (runBatchStatement env statement s).result = .ok () ∧
        (runBatchStatement env statement s).state =
          s.setRows w.table (env.engine.exec (s.rows w.table) w)) ∧
    ∀ err, env.engine.writeFault w (s.rows w.table) = some err →
      (runBatchStatement env statement s).result = .error err

theorem performs_insert (env : Env) (name : String) (values : Row) :
    Performs env (.insert name values) (.insert name values) := by
  intro s
  refine ⟨fun h => storeRecord_of_no_fault env values h, fun err h => ?_⟩
  have hrun : storeRecord env name values values none s = ⟨.error err, s, []⟩ :=
    storeRecord_of_fault env values h
  rw [runBatchStatement, hrun]

theorem performs_update (env : Env) (name id : String) {clauses : List SetClause}
    (hne : clauses ≠ []) :
    Performs env (.update name id clauses) (.update name clauses [id]) := by
  intro s
  rw [runBatchStatement, Worker.storedRows, read_bind_apply]
  refine ⟨fun h => applyUpdate_of_no_fault env _ hne h, fun err h => ?_⟩
  rw [applyUpdate_of_fault env hne h]

theorem performs_delete (env : Env) (name id : String) :
    Performs env (.delete name id) (.delete name [id]) := by
  intro s
  rw [runBatchStatement, Worker.storedRows, read_bind_apply]
  refine ⟨fun h => removeRows_of_no_fault env _ h, fun err h => ?_⟩
  rw [removeRows_of_fault env h]

/-- What the statements of an operation do: they succeed exactly when its expectation holds and the
database accepts them, and then have its effect. -/
def Means (env : Env) (op : Op) (n : ℕ) (s : Store) (statements : List BatchStatement) : Prop :=
  ((Holds env op s ∧ Accepts env op n s) ∧
    (∃ bs, (Audited.forEach (runBatchStatement env) statements s).result = .ok bs) ∧
    (Audited.forEach (runBatchStatement env) statements s).state = effect env op n s) ∨
  (¬(Holds env op s ∧ Accepts env op n s) ∧
    ∃ e, (Audited.forEach (runBatchStatement env) statements s).result = .error e)

theorem means_of_performs {op : Op} {n : ℕ} {s : Store} {statement : BatchStatement}
    {w : Statement} (hwrite : writeOf env op n = some w) (hperforms : Performs env statement w)
    (hholds : Holds env op s)
    (haccepts : Accepts env op n s ↔ env.engine.writeFault w (s.rows w.table) = none) :
    Means env op n s [statement] := by
  have heffect : effect env op n s = s.setRows w.table (env.engine.exec (s.rows w.table) w) := by
    rw [effect, hwrite]
  cases hfault : env.engine.writeFault w (s.rows w.table) with
  | none =>
    obtain ⟨hok, hstate⟩ := (hperforms s).1 hfault
    obtain ⟨hresult, hend⟩ := forEach_singleton_of_ok hok
    exact .inl ⟨⟨hholds, haccepts.2 hfault⟩, ⟨_, hresult⟩,
      hend.trans (hstate.trans heffect.symm)⟩
  | some err =>
    refine .inr ⟨fun h => ?_, err, forEach_cons_of_error ((hperforms s).2 err hfault) []⟩
    exact nomatch hfault.symm.trans (haccepts.1 h.2)

theorem accepts_iff_of_write {op : Op} {n : ℕ} {s : Store} {w : Statement}
    (hwrite : writeOf env op n = some w) :
    Accepts env op n s ↔ env.engine.writeFault w (s.rows w.table) = none := by
  obtain ⟨op, config⟩ := op
  cases op with
  | expect name id conditions present => exact nomatch hwrite
  | insert name data => simp [Accepts, hwrite]
  | update name id data => simp [Accepts, hwrite]
  | delete name id => simp [Accepts, hwrite]

theorem means_guard {name : String} {id : Option String} {conditions : List Json} {present : Bool}
    {config : TableConfig} {probe : Select} (n : ℕ) (s : Store)
    (hprobe : expectProbe env (buildEffectiveSchema config.schema) name id conditions = .ok probe) :
    Means env (.expect name id conditions present, config) n s [.guard probe present] := by
  have htable := table_expectProbe hprobe
  have hholds : Holds env (.expect name id conditions present, config) s ↔
      (!(env.engine.found probe (s.rows name)).isEmpty) = present := by
    simp [Holds, hprobe]
  have haccepts : Accepts env (.expect name id conditions present, config) n s ↔
      env.engine.queryFault probe (s.rows name) = none := by
    simp [Accepts, hprobe]
  unfold Means
  rw [hholds, haccepts]
  cases hfault : env.engine.queryFault probe (s.rows name) with
  | some err =>
    refine .inr ⟨(fun h => nomatch h.2), err, forEach_cons_of_error ?_ []⟩
    rw [runBatchStatement, bind_of_failed_run (runSelect_of_fault env (htable ▸ hfault))]
  | none =>
    have hselect := runSelect_of_no_fault env (htable.symm ▸ hfault :
      env.engine.queryFault probe (s.rows probe.table) = none)
    by_cases hpresent : (!(env.engine.found probe (s.rows name)).isEmpty) = present
    · have hrun : runBatchStatement env (.guard probe present) s = ⟨.ok (), s, []⟩ := by
        rw [runBatchStatement, bind_of_run hselect, htable, Audited.check, if_pos hpresent]
        rfl
      refine .inl ⟨⟨hpresent, rfl⟩, ⟨_, (forEach_singleton_of_ok (by rw [hrun])).1⟩, ?_⟩
      rw [(forEach_singleton_of_ok (b := ()) (by rw [hrun])).2, hrun]
      rfl
    · refine .inr ⟨fun h => hpresent h.1, expectationFailed, forEach_cons_of_error ?_ []⟩
      rw [runBatchStatement, bind_of_run hselect, htable, Audited.check, if_neg hpresent]
      rfl

theorem means_idle {name id : String} {data : Row} {config : TableConfig} {n : ℕ} (s : Store)
    (hwrite : writeOf env (.update name id data, config) n = none) :
    Means env (.update name id data, config) n s [] := by
  refine .inl ⟨⟨trivial, ?_⟩, ⟨[], rfl⟩, ?_⟩
  · simp [Accepts, hwrite]
  · rw [effect, hwrite]
    rfl

theorem means_statementsOf {op : Op} (n : ℕ) (s : Store)
    (h : ∀ name id conditions present, op.1 = .expect name id conditions present →
      ∃ probe, expectProbe env (buildEffectiveSchema op.2.schema) name id conditions = .ok probe) :
    Means env op n s (statementsOf env op n) := by
  obtain ⟨op, config⟩ := op
  cases op with
  | expect name id conditions present =>
    obtain ⟨probe, hprobe⟩ := h name id conditions present rfl
    have hstatements : statementsOf env (.expect name id conditions present, config) n =
        [.guard probe present] := by
      simp only [statementsOf, hprobe]
    rw [hstatements]
    exact means_guard n s hprobe
  | insert name data =>
    exact means_of_performs rfl (performs_insert env name _) trivial (accepts_iff_of_write rfl)
  | update name id data =>
    cases hclauses : updateClauses env config data with
    | error e =>
      have hwrite : writeOf env (.update name id data, config) n = none := by
        simp only [writeOf, hclauses]
      simp only [statementsOf, hclauses]
      exact means_idle s hwrite
    | ok clauses =>
      cases clauses with
      | nil =>
        have hwrite : writeOf env (.update name id data, config) n = none := by
          simp only [writeOf, hclauses]
        simp only [statementsOf, hclauses]
        exact means_idle s hwrite
      | cons clause clauses =>
        have hwrite : writeOf env (.update name id data, config) n =
            some (.update name (clause :: clauses) [id]) := by
          simp only [writeOf, hclauses]
        simp only [statementsOf, hclauses]
        exact means_of_performs hwrite (performs_update env name id (cons_ne_nil _ _)) trivial
          (accepts_iff_of_write hwrite)
  | delete name id =>
    exact means_of_performs rfl (performs_delete env name id) trivial (accepts_iff_of_write rfl)

/-- The expectations of some operations can be compiled. -/
def Probes (env : Env) (ops : List Op) : Prop :=
  ∀ op ∈ ops, ∀ name id conditions present, op.1 = .expect name id conditions present →
    ∃ probe, expectProbe env (buildEffectiveSchema op.2.schema) name id conditions = .ok probe

/-- The statements of some operations succeed exactly when every expectation holds and the database
accepts every write, each at its place, and then have the effect of the operations. -/
theorem means_allStatements {ops : List Op} (h : Probes env ops) (n : ℕ) (s : Store) :
    ((AllHold env ops n s ∧ AllAccepted env ops n s) ∧
      (∃ bs, (Audited.forEach (runBatchStatement env) (allStatements env ops n) s).result =
        .ok bs) ∧
      (Audited.forEach (runBatchStatement env) (allStatements env ops n) s).state =
        sequential env ops n s) ∨
    (¬(AllHold env ops n s ∧ AllAccepted env ops n s) ∧
      ∃ e, (Audited.forEach (runBatchStatement env) (allStatements env ops n) s).result =
        .error e) := by
  induction ops generalizing n s with
  | nil => exact .inl ⟨⟨trivial, trivial⟩, ⟨[], rfl⟩, rfl⟩
  | cons op ops ih =>
    rw [allStatements]
    obtain ⟨hone, ⟨bs, hbs⟩, hstate⟩ | ⟨hnot, e, he⟩ :=
      means_statementsOf n s (h op (mem_cons_self ..))
    · obtain ⟨hresult, hend⟩ :=
        forEach_append_of_ok hbs (allStatements env ops (nextId env op n))
      rw [hresult, hend, hstate]
      obtain ⟨hrest, ⟨cs, hcs⟩, hlast⟩ | ⟨hnot, e, he⟩ :=
        ih (fun o ho => h o (mem_cons_of_mem _ ho)) (nextId env op n) (effect env op n s)
      · rw [hcs, hlast]
        exact .inl ⟨⟨⟨hone.1, hrest.1⟩, hone.2, hrest.2⟩, ⟨_, rfl⟩, rfl⟩
      · rw [he]
        exact .inr ⟨fun hall => hnot ⟨hall.1.2, hall.2.2⟩, e, rfl⟩
    · exact .inr ⟨fun hall => hnot ⟨hall.1.1, hall.2.1⟩, e,
        forEach_append_of_error he _⟩

theorem runBatch_spec {ops : List Op} (h : Probes env ops) (n : ℕ) (s : Store) :
    ((AllHold env ops n s ∧ AllAccepted env ops n s) ∧
      (runBatch env (allStatements env ops n) s).result = .ok () ∧
      (runBatch env (allStatements env ops n) s).state = sequential env ops n s) ∨
    (¬(AllHold env ops n s ∧ AllAccepted env ops n s) ∧
      (∃ e, (runBatch env (allStatements env ops n) s).result = .error e) ∧
      (runBatch env (allStatements env ops n) s).state = s) := by
  rw [runBatch]
  obtain ⟨hall, ⟨bs, hbs⟩, hstate⟩ | ⟨hnot, e, he⟩ := means_allStatements h n s
  · rw [bind_of_ok (by rw [atomic_of_ok hbs, hbs]), atomic_of_ok hbs]
    exact .inl ⟨hall, rfl, hstate⟩
  · rw [bind_of_failed_run (atomic_of_error he _)]
    exact .inr ⟨hnot, ⟨e, rfl⟩, rfl⟩

/-! ### The checks of an operation -/

variable (env) (caller : Caller)

/-- The row rule of an update or delete admits the row that is stored in a database, or else an
empty one. -/
def RuleAllows (config : TableConfig) (name : String) (op : RowOp) (id : String) (s : Store) :
    Prop :=
  (Worker.activeRule config op caller).isNone ∨
    env.engine.queryFault (buildGetQuery name id []) (s.rows name) = none ∧
      evalRowRule (Worker.activeRule config op caller) caller.auth
        (((env.engine.found (buildGetQuery name id []) (s.rows name)).head?.map
          (clean env config)).getD []) = true

/-- The read rule admits the row that a probe finds in a database, if it finds one. -/
def ProbeAllows (config : TableConfig) (probe : Select) (s : Store) : Prop :=
  (Worker.activeRule config .read caller).isNone ∨
    env.engine.queryFault { probe with limit := some 1 } (s.rows probe.table) = none ∧
      ((env.engine.found { probe with limit := some 1 } (s.rows probe.table)).head?.all fun row =>
        evalRowRule (Worker.activeRule config .read caller) caller.auth (clean env config row)) =
        true

/-- An operation passes its checks on a database. -/
def Compiles (op : Op) (s : Store) : Prop :=
  match op.1 with
  | .expect name id conditions _ =>
    ∃ probe, expectProbe env (buildEffectiveSchema op.2.schema) name id conditions = .ok probe ∧
      ProbeAllows env caller op.2 probe s
  | .insert _ data => validateInsert env data op.2.schema = []
  | .update name id data => validateUpdate env data op.2.schema = [] ∧
      RuleAllows env caller op.2 name .update id s ∧ ∃ clauses, updateClauses env op.2 data = .ok clauses
  | .delete name id => RuleAllows env caller op.2 name .delete id s

/-- What the answer to an operation is made of, when `n` ids were generated before. -/
def builderOf (op : Op) (n : ℕ) : ResultBuilder :=
  match op.1 with
  | .expect _ _ _ _ => .expected
  | .insert name data =>
    let id := (recordId env n data).1
    .inserted op.2 name id (buildRecord env (buildEffectiveSchema op.2.schema) data id)
  | .update name id data => .updated op.2 name id data
  | .delete _ id => .deleted id

variable {env} {caller}

/-- A check that passes, or fails without a trace. -/
def Decides {α : Type} (m : Handler α) (s : Store) (c : Prop) (a : α) : Prop :=
  (c ∧ m s = ⟨.ok a, s, []⟩) ∨ (¬c ∧ ∃ e, m s = ⟨.error e, s, []⟩)

theorem decides_checkTransactRule (env : Env) (caller : Caller) (config : TableConfig) (name action id : String) (op : RowOp)
    (s : Store) :
    Decides (checkTransactRule env config caller name op action id) s
      (RuleAllows env caller config name op id s) () := by
  unfold checkTransactRule RuleAllows
  by_cases hnone : (Worker.activeRule config op caller).isNone
  · rw [if_pos hnone]
    exact .inl ⟨.inl hnone, rfl⟩
  · rw [if_neg hnone]
    cases hfault : env.engine.queryFault (buildGetQuery name id []) (s.rows name) with
    | some err =>
      refine .inr ⟨fun h => ?_, err, bind_of_failed_run (runSelect_of_fault env hfault)⟩
      exact nomatch (h.resolve_left hnone).1
    | none =>
      have hselect := runSelect_of_no_fault env (q := buildGetQuery name id []) hfault
      rw [Decides, fetchById, bind_of_run hselect, Audited.check]
      split
      · rename_i hallows
        exact .inl ⟨.inr ⟨rfl, hallows⟩, rfl⟩
      · rename_i hdenies
        exact .inr ⟨fun h => hdenies (h.resolve_left hnone).2, _, rfl⟩

theorem decides_checkProbe (env : Env) (caller : Caller) (config : TableConfig) (name : String) (probe : Select) (s : Store) :
    Decides (checkProbe env config caller name probe) s (ProbeAllows env caller config probe s)
      () := by
  unfold checkProbe ProbeAllows
  by_cases hnone : (Worker.activeRule config .read caller).isNone
  · rw [if_pos hnone]
    exact .inl ⟨.inl hnone, rfl⟩
  · rw [if_neg hnone]
    cases hfault : env.engine.queryFault { probe with limit := some 1 } (s.rows probe.table) with
    | some err =>
      refine .inr ⟨fun h => ?_, err, bind_of_failed_run
        (runSelect_of_fault env (q := { probe with limit := some 1 }) hfault)⟩
      exact nomatch (h.resolve_left hnone).1
    | none =>
      have hselect := runSelect_of_no_fault env (q := { probe with limit := some 1 }) hfault
      rw [Decides, bind_of_run hselect, Audited.check]
      split
      · rename_i hallows
        exact .inl ⟨.inr ⟨rfl, hallows⟩, rfl⟩
      · rename_i hdenies
        exact .inr ⟨fun h => hdenies (h.resolve_left hnone).2, _, rfl⟩

theorem compileExpect_spec (env : Env) (caller : Caller) (config : TableConfig) (name : String) (id : Option String)
    (conditions : List Json) (present : Bool) (s : Store) :
    Decides (compileExpect env config caller name id conditions present) s
      (∃ probe, expectProbe env (buildEffectiveSchema config.schema) name id conditions =
        .ok probe ∧ ProbeAllows env caller config probe s)
      (statementsOf env (.expect name id conditions present, config) s.generated, .expected) := by
  unfold compileExpect
  cases hprobe : expectProbe env (buildEffectiveSchema config.schema) name id conditions with
  | error e => exact .inr ⟨(fun ⟨_, h, _⟩ => nomatch h), e, rfl⟩
  | ok probe =>
    have hstatements : statementsOf env (.expect name id conditions present, config) s.generated =
        [.guard probe present] := by
      simp only [statementsOf, hprobe]
    rw [hstatements, Decides, lift_ok_bind]
    obtain ⟨hallows, hrun⟩ | ⟨hdenies, e, hrun⟩ :=
      decides_checkProbe env caller config name probe s
    · exact .inl ⟨⟨probe, rfl, hallows⟩, bind_of_run hrun⟩
    · refine .inr ⟨fun ⟨_, h, hallows⟩ => hdenies (Except.ok.inj h ▸ hallows), e, ?_⟩
      exact bind_of_failed_run hrun

theorem validBody_cases (errors : List (String × String)) (message : String) :
    (errors = [] ∧ validBody errors message = .ok ()) ∨
      (errors ≠ [] ∧ ∃ e, validBody errors message = .error e) := by
  cases errors with
  | nil => exact .inl ⟨rfl, rfl⟩
  | cons b errors => exact .inr ⟨cons_ne_nil _ _, _, rfl⟩

/-- The checks of an operation pass, and give its statements, or fail; neither changes a table. -/
theorem compileOp_spec (env : Env) (caller : Caller) (op : Op) (s : Store) :
    (Compiles env caller op s ∧ compileOp env caller op s =
      ⟨.ok (statementsOf env op s.generated, builderOf env op s.generated),
        { s with generated := nextId env op s.generated }, []⟩) ∨
    (¬Compiles env caller op s ∧ (∃ e, (compileOp env caller op s).result = .error e) ∧
      (compileOp env caller op s).state.tables = s.tables) := by
  obtain ⟨op, config⟩ := op
  cases op with
  | expect name id conditions present =>
    obtain ⟨hpass, hrun⟩ | ⟨hnot, e, hrun⟩ := compileExpect_spec env caller config name id conditions present s
    · exact .inl ⟨hpass, hrun⟩
    · have hfails : compileOp env caller (.expect name id conditions present, config) s =
          ⟨.error e, s, []⟩ := hrun
      rw [hfails]
      exact .inr ⟨hnot, ⟨e, rfl⟩, rfl⟩
  | insert name data =>
    change (validateInsert env data config.schema = [] ∧ compileInsert env config name data s = _) ∨
      (validateInsert env data config.schema ≠ [] ∧
        (∃ e, (compileInsert env config name data s).result = .error e) ∧
        (compileInsert env config name data s).state.tables = s.tables)
    unfold compileInsert
    obtain ⟨hvalid, hok⟩ | ⟨hinvalid, e, he⟩ :=
      validBody_cases (validateInsert env data config.schema)
        s!"Transact insert on '{name}' failed validation. See data for field-level errors."
    · refine .inl ⟨hvalid, ?_⟩
      rw [hok, lift_ok_bind, bind_of_run (newRecordId_apply env data s)]
      rfl
    · refine .inr ⟨hinvalid, ?_⟩
      rw [he]
      exact ⟨⟨e, rfl⟩, rfl⟩
  | update name id data =>
    change (_ ∧ compileUpdate env config caller name id data s = _) ∨
      (_ ∧ (∃ e, (compileUpdate env config caller name id data s).result = .error e) ∧
        (compileUpdate env config caller name id data s).state.tables = s.tables)
    unfold compileUpdate
    obtain ⟨hvalid, hok⟩ | ⟨hinvalid, e, he⟩ :=
      validBody_cases (validateUpdate env data config.schema)
        s!"Transact update on '{name}' failed validation. See data for field-level errors."
    · rw [hok, lift_ok_bind]
      obtain ⟨hallows, hrun⟩ | ⟨hdenies, e, hrun⟩ := decides_checkTransactRule env caller config name "update" id .update s
      · rw [bind_of_run hrun]
        cases hclauses : updateClauses env config data with
        | error e =>
          exact .inr ⟨(fun ⟨_, _, clauses, h⟩ => nomatch hclauses.symm.trans h), ⟨e, rfl⟩, rfl⟩
        | ok clauses =>
          have hstatements : statementsOf env (.update name id data, config) s.generated =
              if clauses.isEmpty then [] else [.update name id clauses] := by
            simp only [statementsOf, hclauses]
            cases clauses <;> rfl
          rw [hstatements]
          exact .inl ⟨⟨hvalid, hallows, clauses, hclauses⟩, rfl⟩
      · rw [bind_of_failed_run hrun]
        exact .inr ⟨fun h => hdenies h.2.1, ⟨e, rfl⟩, rfl⟩
    · rw [he]
      exact .inr ⟨fun h => hinvalid h.1, ⟨e, rfl⟩, rfl⟩
  | delete name id =>
    obtain ⟨hallows, hrun⟩ | ⟨hdenies, e, hrun⟩ :=
      decides_checkTransactRule env caller config name "delete" id .delete s
    · exact .inl ⟨hallows, bind_of_run hrun⟩
    · have hfails : compileOp env caller (.delete name id, config) s = ⟨.error e, s, []⟩ :=
        bind_of_failed_run hrun
      rw [hfails]
      exact .inr ⟨hdenies, ⟨e, rfl⟩, rfl⟩

/-! ### The reads after the commit -/

variable (env) in
/-- The row of an operation can be fetched from a database, when `n` ids were generated before. -/
def ReadsBack (op : Op) (n : ℕ) (s : Store) : Prop :=
  match op.1 with
  | .insert name data =>
    env.engine.queryFault (selectBy name "id" (recordId env n data).1 none) (s.rows name) = none
  | .update name id _ => env.engine.queryFault (buildGetQuery name id []) (s.rows name) = none
  | _ => True

variable (env) in
/-- The row of every operation can be fetched from the database that they reached. -/
def AllReadBack : List Op → ℕ → Store → Prop
  | [], _, _ => True
  | op :: ops, n, s => ReadsBack env op n s ∧ AllReadBack ops (nextId env op n) s

variable (env) in
/-- What the answers to some operations are made of. -/
def allBuilders : List Op → ℕ → List ResultBuilder
  | [], _ => []
  | op :: ops, n => builderOf env op n :: allBuilders ops (nextId env op n)

theorem buildResult_spec (env : Env) (op : Op) (n : ℕ) (s : Store) :
    (ReadsBack env op n s ∧ ∃ row, buildResult env (builderOf env op n) s = ⟨.ok row, s, []⟩) ∨
      (¬ReadsBack env op n s ∧ ∃ e, buildResult env (builderOf env op n) s = ⟨.error e, s, []⟩) := by
  obtain ⟨op, config⟩ := op
  cases op with
  | expect name id conditions present => exact .inl ⟨trivial, _, rfl⟩
  | delete name id => exact .inl ⟨trivial, _, rfl⟩
  | insert name data =>
    cases hfault : env.engine.queryFault (selectBy name "id" (recordId env n data).1 none)
        (s.rows name) with
    | none => exact .inl ⟨hfault, _, bind_of_run (runSelect_of_no_fault env hfault)⟩
    | some err =>
      refine .inr ⟨(fun h => nomatch hfault.symm.trans h), err, ?_⟩
      exact bind_of_failed_run (runSelect_of_fault env hfault)
  | update name id data =>
    cases hfault : env.engine.queryFault (buildGetQuery name id []) (s.rows name) with
    | none =>
      have hfetch : fetchUpdated env config name id data s = ⟨.ok _, s, []⟩ :=
        bind_of_run (runSelect_of_no_fault env (q := buildGetQuery name id []) hfault)
      exact .inl ⟨hfault, _, bind_of_run hfetch⟩
    | some err =>
      have hfetch : fetchUpdated env config name id data s = ⟨.error err, s, []⟩ :=
        bind_of_failed_run (runSelect_of_fault env (q := buildGetQuery name id []) hfault)
      exact .inr ⟨(fun h => nomatch hfault.symm.trans h), err, bind_of_failed_run hfetch⟩

theorem buildResults_spec (env : Env) (ops : List Op) (n : ℕ) (s : Store) :
    (AllReadBack env ops n s ∧
      ∃ rows, Audited.forEach (buildResult env) (allBuilders env ops n) s = ⟨.ok rows, s, []⟩) ∨
    (¬AllReadBack env ops n s ∧
      ∃ e, Audited.forEach (buildResult env) (allBuilders env ops n) s = ⟨.error e, s, []⟩) := by
  induction ops generalizing n with
  | nil => exact .inl ⟨trivial, [], rfl⟩
  | cons op ops ih =>
    rw [allBuilders, Audited.forEach]
    obtain ⟨hone, row, hrow⟩ | ⟨hnot, e, he⟩ := buildResult_spec env op n s
    · rw [bind_of_run hrow]
      obtain ⟨hrest, rows, hrows⟩ | ⟨hnot, e, he⟩ := ih (nextId env op n)
      · rw [bind_of_run hrows]
        exact .inl ⟨⟨hone, hrest⟩, _, rfl⟩
      · rw [bind_of_failed_run he]
        exact .inr ⟨fun h => hnot h.2, e, rfl⟩
    · rw [bind_of_failed_run he]
      exact .inr ⟨fun h => hnot h.1, e, rfl⟩

end Sequential

end D1

/-- A `/transact` request, the database that it meets, and what other requests write meanwhile. -/
structure TransactCase where
  env : Env
  block : DbBlock
  ns : String
  caller : Caller
  body : TransactBody
  others : ℕ → D1.Interference
  store : Store

namespace TransactCase

variable (c : TransactCase)

def run : Outcome Store Event HttpError Response :=
  D1.handleTransact c.env c.block c.ns c.caller c.body c.others c.store

def Answered : Prop := ∃ r, c.run.result = .ok r ∧ r.status = 200

/-- The tables as the first `k` writes of the other requests alone leave them. -/
def moment : ℕ → List (String × List Row)
  | 0 => c.store.tables
  | k + 1 => c.others k (moment k)

/-- The operations of a list that the request may apply: it is well formed, and no insert rule
refuses it. -/
def accepted : Except HttpError (List D1.Op) := do
  checkOperations c.body.operations
  let ops ← c.body.operations.mapM (D1.transactOp c.env c.block c.ns)
  D1.transactInsertRules c.caller ops
  .ok ops

def batchStart (ops : List D1.Op) : Store :=
  { c.store with
    tables := c.moment (ops.length + 1), generated := D1.idsAfter c.env ops c.store.generated }

/-- The database after some operations, applied one after the other when the batch starts. -/
def applied (ops : List D1.Op) : Store :=
  D1.sequential c.env ops c.store.generated (c.batchStart ops)

/-- The promise of a transaction: without an answer 200 the tables are as the other requests alone
left them; with one, every expectation held at its place, and the tables are those that the
operations make, one after the other, of the tables when the batch started. -/
structure AtomicAtCommit : Prop where
  refused : ¬c.Answered → ∃ k, c.run.state.tables = c.moment k
  committed : c.Answered → ∃ ops, c.accepted = .ok ops ∧
    D1.AllHold c.env ops c.store.generated (c.batchStart ops) ∧
    c.run.state.tables = (c.applied ops).tables

/-- The operations from the `k`th on pass their checks, each when its turn comes. -/
def Checked : List D1.Op → ℕ → Prop
  | [], _ => True
  | op :: ops, k =>
    D1.Compiles c.env c.caller op { c.store with tables := c.moment (k + 1) } ∧ Checked ops (k + 1)

/-- The batch of some operations commits: they pass their checks, every expectation holds at its
place, and the database refuses no statement. -/
def Commits (ops : List D1.Op) : Prop :=
  c.accepted = .ok ops ∧ c.Checked ops 0 ∧
    D1.AllHold c.env ops c.store.generated (c.batchStart ops) ∧
    D1.AllAccepted c.env ops c.store.generated (c.batchStart ops)

/-- A full answer can be built after every commit, unless the commit changed nothing. -/
def AnswersCommits : Prop :=
  ∀ ops, parseTransactResultMode c.body.resultMode = some true → c.Commits ops →
    D1.AllReadBack c.env ops c.store.generated (c.applied ops) ∨
      ∃ k, (c.applied ops).tables = c.moment k

variable {c}

/-! ### The run -/

/-- What compiling some operations gives, when `n` ids were generated before. -/
def compiledOps (c : TransactCase) :
    List D1.Op → ℕ → List (List D1.BatchStatement × D1.ResultBuilder)
  | [], _ => []
  | op :: ops, n => (D1.statementsOf c.env op n, D1.builderOf c.env op n) ::
      compiledOps c ops (D1.nextId c.env op n)

theorem compiledOps_fst (ops : List D1.Op) (n : ℕ) :
    ((c.compiledOps ops n).map Prod.fst).flatten = D1.allStatements c.env ops n := by
  induction ops generalizing n with
  | nil => rfl
  | cons op ops ih =>
    rw [compiledOps, map_cons, flatten_cons, ih]
    rfl

theorem compiledOps_snd (ops : List D1.Op) (n : ℕ) :
    (c.compiledOps ops n).map Prod.snd = D1.allBuilders c.env ops n := by
  induction ops generalizing n with
  | nil => rfl
  | cons op ops ih =>
    rw [compiledOps, map_cons, ih]
    rfl

theorem compiles_congr {op : D1.Op} {s s' : Store} (h : s.tables = s'.tables) :
    D1.Compiles c.env c.caller op s ↔ D1.Compiles c.env c.caller op s' := by
  have hrows : s.rows = s'.rows := by
    funext name
    rw [Store.rows, h, Store.rows]
  obtain ⟨op, config⟩ := op
  cases op <;> simp only [D1.Compiles, D1.ProbeAllows, D1.RuleAllows, hrows]

/-- The loop that compiles operations, from the `k`th on. -/
def compileLoop (c : TransactCase) (ops : List D1.Op) (k : ℕ) :
    Handler (List (List D1.BatchStatement × D1.ResultBuilder)) :=
  Audited.forEach (fun op => do
    D1.interfere (c.others op.2)
    D1.compileOp c.env c.caller op.1) (ops.zipIdx k)

theorem compileLoop_spec (ops : List D1.Op) (k : ℕ) {s : Store} (hs : s.tables = c.moment k) :
    (c.Checked ops k ∧ c.compileLoop ops k s = ⟨.ok (c.compiledOps ops s.generated),
      { s with
        tables := c.moment (k + ops.length), generated := D1.idsAfter c.env ops s.generated }, []⟩) ∨
    (¬c.Checked ops k ∧ (∃ e, (c.compileLoop ops k s).result = .error e) ∧
      ∃ j, (c.compileLoop ops k s).state.tables = c.moment j) := by
  induction ops generalizing k s with
  | nil =>
    refine .inl ⟨trivial, ?_⟩
    change (⟨.ok [], s, []⟩ : Outcome _ _ _ _) = _
    rw [length_nil, Nat.add_zero, ← hs]
    rfl
  | cons op ops ih =>
    have hcongr : D1.Compiles c.env c.caller op { s with tables := c.moment (k + 1) } ↔
        D1.Compiles c.env c.caller op { c.store with tables := c.moment (k + 1) } :=
      compiles_congr rfl
    have hstep : (D1.interfere (c.others k) >>= fun _ => D1.compileOp c.env c.caller op) s =
        D1.compileOp c.env c.caller op { s with tables := c.moment (k + 1) } := by
      change D1.compileOp c.env c.caller op { s with tables := c.others k s.tables } = _
      rw [hs]
      rfl
    rw [compileLoop, zipIdx_cons, Audited.forEach]
    obtain ⟨hpass, hrun⟩ | ⟨hnot, ⟨e, he⟩, htables⟩ :=
      D1.compileOp_spec c.env c.caller op { s with tables := c.moment (k + 1) }
    · rw [bind_of_run (hstep.trans hrun)]
      obtain ⟨hrest, hloop⟩ | ⟨hnot, ⟨e, he⟩, j, htables⟩ := ih (k + 1)
        (s := { s with tables := c.moment (k + 1), generated := D1.nextId c.env op s.generated }) rfl
      · rw [compileLoop] at hloop
        rw [bind_of_run hloop]
        refine .inl ⟨⟨hcongr.1 hpass, hrest⟩, ?_⟩
        rw [length_cons, show k + (ops.length + 1) = k + 1 + ops.length by omega]
        rfl
      · rw [compileLoop] at he htables
        rw [bind_of_error he]
        exact .inr ⟨fun h => hnot h.2, ⟨e, rfl⟩, j, htables⟩
    · rw [bind_of_error (by rw [hstep, he]), hstep]
      exact .inr ⟨fun h => hnot (hcongr.2 h.1), ⟨e, rfl⟩, k + 1, htables⟩

theorem run_of_accepted {full : Bool} {ops : List D1.Op}
    (hmode : parseTransactResultMode c.body.resultMode = some full) (hops : c.accepted = .ok ops) :
    c.run = (do
      let compiled ← c.compileLoop ops 0
      D1.interfere (c.others ops.length)
      D1.runBatch c.env (compiled.map Prod.fst).flatten
      let results ← Audited.forEach (D1.buildResult c.env)
        (if full then compiled.map Prod.snd else [])
      pure (transactResponse full ops.length [results]) : Handler Response) c.store := by
  obtain ⟨⟨⟩, hcheck, hrest⟩ := Except.bind_eq_ok.1 hops
  obtain ⟨ops', hmap, hrules⟩ := Except.bind_eq_ok.1 hrest
  obtain ⟨⟨⟩, hinsert, hpure⟩ := Except.bind_eq_ok.1 hrules
  obtain rfl : ops' = ops := Except.ok.inj hpure
  rw [run, D1.handleTransact, hmode]
  dsimp only
  rw [hcheck, lift_ok_bind, hmap, lift_ok_bind, hinsert, lift_ok_bind]
  rfl

theorem not_answered_of_error {e : HttpError} (h : c.run.result = .error e) : ¬c.Answered :=
  fun ⟨_, hr, _⟩ => nomatch h.symm.trans hr

theorem run_of_not_accepted (h : ∀ full ops, parseTransactResultMode c.body.resultMode = some full →
    c.accepted ≠ .ok ops) : ¬c.Answered ∧ c.run.state = c.store := by
  cases hmode : parseTransactResultMode c.body.resultMode with
  | none =>
    have hrun : c.run = ⟨.ok invalidResultMode, c.store, []⟩ := by
      rw [run, D1.handleTransact, hmode]
      rfl
    refine ⟨fun ⟨r, hr, hstatus⟩ => ?_, by rw [hrun]⟩
    rw [hrun] at hr
    obtain rfl : invalidResultMode = r := Except.ok.inj hr
    exact absurd hstatus (by decide)
  | some full =>
    have hfail : ∃ e, c.run = ⟨.error e, c.store, []⟩ := by
      rw [run, D1.handleTransact, hmode]
      dsimp only
      cases hcheck : checkOperations c.body.operations with
      | error e => exact ⟨e, rfl⟩
      | ok checked =>
        rw [lift_ok_bind]
        cases hmap : c.body.operations.mapM (D1.transactOp c.env c.block c.ns) with
        | error e => exact ⟨e, rfl⟩
        | ok ops =>
          rw [lift_ok_bind]
          cases hinsert : D1.transactInsertRules c.caller ops with
          | error e => exact ⟨e, rfl⟩
          | ok allowed =>
            refine absurd ?_ (h full ops hmode)
            rw [accepted, hcheck, Except.bind_eq_ok]
            refine ⟨checked, rfl, Except.bind_eq_ok.2 ⟨ops, hmap, Except.bind_eq_ok.2 ?_⟩⟩
            exact ⟨allowed, hinsert, rfl⟩
    obtain ⟨e, he⟩ := hfail
    exact ⟨not_answered_of_error (by rw [he]), by rw [he]⟩

theorem probes_of_checked {ops : List D1.Op} {k : ℕ} (h : c.Checked ops k) :
    D1.Probes c.env ops := by
  induction ops generalizing k with
  | nil => exact fun op hop => absurd hop not_mem_nil
  | cons op ops ih =>
    intro o ho name id conditions present hexpect
    rcases mem_cons.1 ho with rfl | ho
    · have hcompiles := h.1
      simp only [D1.Compiles, hexpect] at hcompiles
      obtain ⟨probe, hprobe, -⟩ := hcompiles
      exact ⟨probe, hprobe⟩
    · exact ih h.2 o ho name id conditions present hexpect

theorem run_of_checked {full : Bool} {ops : List D1.Op}
    (hmode : parseTransactResultMode c.body.resultMode = some full) (hops : c.accepted = .ok ops)
    (hchecked : c.Checked ops 0) :
    c.run = (do
      D1.runBatch c.env (D1.allStatements c.env ops c.store.generated)
      let results ← Audited.forEach (D1.buildResult c.env)
        (if full then D1.allBuilders c.env ops c.store.generated else [])
      pure (transactResponse full ops.length [results]) : Handler Response) (c.batchStart ops) := by
  rw [run_of_accepted hmode hops]
  obtain ⟨-, hloop⟩ | ⟨hnot, -⟩ := compileLoop_spec ops 0 (c := c) (s := c.store) rfl
  · rw [bind_of_run hloop, compiledOps_fst, compiledOps_snd, Nat.zero_add, D1.interfere,
      update_bind_apply]
    rfl
  · exact absurd hchecked hnot

theorem run_of_not_commits (h : ∀ full ops, parseTransactResultMode c.body.resultMode = some full →
    ¬c.Commits ops) : ¬c.Answered ∧ ∃ k, c.run.state.tables = c.moment k := by
  by_cases haccepted : ∃ full ops, parseTransactResultMode c.body.resultMode = some full ∧
      c.accepted = .ok ops
  · obtain ⟨full, ops, hmode, hops⟩ := haccepted
    obtain ⟨hchecked, -⟩ | ⟨-, ⟨e, he⟩, j, htables⟩ :=
      compileLoop_spec ops 0 (c := c) (s := c.store) rfl
    · have hrun := run_of_checked hmode hops hchecked
      obtain ⟨hall, -, -⟩ | ⟨-, ⟨e, he⟩, hstate⟩ :=
        D1.runBatch_spec (probes_of_checked hchecked) c.store.generated (c.batchStart ops)
      · exact absurd ⟨hops, hchecked, hall⟩ (h full ops hmode)
      · rw [bind_of_error he, hstate] at hrun
        exact ⟨not_answered_of_error (by rw [hrun]), ops.length + 1, by rw [hrun]; rfl⟩
    · have hrun := run_of_accepted hmode hops
      rw [bind_of_error he] at hrun
      exact ⟨not_answered_of_error (by rw [hrun]), j, by rw [hrun]; exact htables⟩
  · push Not at haccepted
    obtain ⟨hnot, hstate⟩ := run_of_not_accepted haccepted
    exact ⟨hnot, 0, by rw [hstate]; rfl⟩

/-- A request whose batch commits has applied its operations, and is answered unless it is to hold
a row that cannot be fetched. -/
theorem run_of_commits {full : Bool} {ops : List D1.Op}
    (hmode : parseTransactResultMode c.body.resultMode = some full) (h : c.Commits ops) :
    c.run.state = c.applied ops ∧
      (c.Answered ↔ full = true → D1.AllReadBack c.env ops c.store.generated (c.applied ops)) := by
  obtain ⟨hops, hchecked, hall⟩ := h
  have hrun := run_of_checked hmode hops hchecked
  obtain ⟨-, hok, hstate⟩ | ⟨hnot, -⟩ :=
    D1.runBatch_spec (probes_of_checked hchecked) c.store.generated (c.batchStart ops)
  · rw [bind_of_ok hok, hstate] at hrun
    cases full with
    | false =>
      have hanswered : c.Answered := ⟨transactResponse false ops.length [[]], by rw [hrun]; rfl, rfl⟩
      refine ⟨by rw [hrun]; rfl, fun _ hfull => ?_, fun _ => hanswered⟩
      exact nomatch hfull
    | true =>
      rw [if_pos rfl] at hrun
      obtain ⟨hreads, rows, hrows⟩ | ⟨hnot, e, he⟩ :=
        D1.buildResults_spec c.env ops c.store.generated (c.applied ops)
      · have hrest := bind_of_run hrows
          (k := fun results => (pure (transactResponse true ops.length [results]) : Handler Response))
        rw [show D1.sequential c.env ops c.store.generated (c.batchStart ops) = c.applied ops from rfl,
          hrest] at hrun
        have hanswered : c.Answered := ⟨_, by rw [hrun]; rfl, rfl⟩
        exact ⟨by rw [hrun]; rfl, fun _ _ => hreads, fun _ => hanswered⟩
      · have hrest := bind_of_failed_run he
          (k := fun results => (pure (transactResponse true ops.length [results]) : Handler Response))
        rw [show D1.sequential c.env ops c.store.generated (c.batchStart ops) = c.applied ops from rfl,
          hrest] at hrun
        have hunanswered : ¬c.Answered := not_answered_of_error (by rw [hrun])
        exact ⟨by rw [hrun], fun ha => absurd ha hunanswered, fun h => absurd (h rfl) hnot⟩
  · exact absurd hall hnot

end TransactCase

/-- An insert whose row cannot be fetched after the commit. -/
def unreadInsert : TransactCase where
  env := { Env.simple with engine := { SqlEngine.simple with
    queryFault _ rows := if rows = [] then none else some ⟨500, "D1_ERROR: Network connection lost."⟩ } }
  block := { tables := some [("docs", {})] }
  ns := "app"
  caller := { auth := none }
  body := { operations := [.obj [("table", .str "docs"), ("op", .str "insert"),
    ("data", .obj [("id", .str "a")])]] }
  others _ tables := tables
  store := {}

end EdgeBase
