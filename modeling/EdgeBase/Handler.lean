import EdgeBase.Lib.Audit
import EdgeBase.Query

/-!
# Request handlers

What the handlers of the three providers share: the stored tables, the caller, the answer, and the
log of what a request did to which row.

* `Event`, `Handler` : a handler is a computation over the store that logs every row it returns or
  changes and every table configuration it goes by.
* `runSelect`, `runCount`, `runWrite` : the execution of statements.
-/

namespace EdgeBase

/-- The tables of a database, how many ids were generated for it, and the tables whose schema hash
`_meta` holds. -/
structure Store where
  tables : List (String × List Row) := []
  generated : ℕ := 0
  schemaHashes : List String := []
  deriving DecidableEq

namespace Store

def rows (s : Store) (table : String) : List Row := (s.tables.lookup table).getD []

def has (s : Store) (table : String) : Bool := (s.tables.lookup table).isSome

def setRows (s : Store) (table : String) (rows : List Row) : Store :=
  { s with tables := Assoc.set s.tables table rows }

/-- `CREATE TABLE IF NOT EXISTS`. -/
def addTable (s : Store) (table : String) : Store :=
  if s.has table then s else s.setRows table []

@[simp] theorem rows_setRows (s : Store) (table : String) (rows : List Row) :
    (s.setRows table rows).rows table = rows := by
  simp [Store.rows, setRows]

theorem rows_setRows_of_ne (s : Store) {table other : String} (h : other ≠ table)
    (rows : List Row) : (s.setRows table rows).rows other = s.rows other := by
  simp [Store.rows, setRows, Assoc.lookup_set_of_ne _ h]

theorem has_setRows (s : Store) (table : String) (rows : List Row) (other : String) :
    (s.setRows table rows).has other = (s.has other || other == table) := by
  by_cases h : other = table
  · simp [Store.has, setRows, h]
  · simp [Store.has, setRows, Assoc.lookup_set_of_ne _ h, h]

@[simp] theorem rows_addTable (s : Store) (table other : String) :
    (s.addTable table).rows other = s.rows other := by
  unfold addTable
  split
  · rfl
  · rename_i hhas
    by_cases h : other = table
    · subst h
      have hnone : s.tables.lookup other = none := by
        rwa [has, Bool.not_eq_true, Option.isSome_eq_false_iff, Option.isNone_iff_eq_none] at hhas
      simp [Store.rows, setRows, hnone]
    · exact s.rows_setRows_of_ne h []

theorem rows_foldl_addTable (names : List String) (s : Store) (table : String) :
    (names.foldl addTable s).rows table = s.rows table := by
  induction names generalizing s with
  | nil => rfl
  | cons name names ih => exact (ih _).trans (s.rows_addTable name table)

theorem has_addTable (s : Store) (table other : String) :
    (s.addTable table).has other = (s.has other || other == table) := by
  unfold addTable
  split
  · by_cases h : other = table
    · simp [h, ‹s.has table = true›]
    · simp [h]
  · exact s.has_setRows table [] other

theorem schemaHashes_addTable (s : Store) (table : String) :
    (s.addTable table).schemaHashes = s.schemaHashes := by
  unfold addTable
  split <;> rfl

theorem has_foldl_addTable (names : List String) (s : Store) (table : String) :
    (names.foldl addTable s).has table = (s.has table || decide (table ∈ names)) := by
  induction names generalizing s with
  | nil => simp
  | cons name names ih =>
    rw [List.foldl_cons, ih, has_addTable]
    by_cases h : table = name
    · simp [h]
    · simp [h, beq_eq_false_iff_ne.2 h]

end Store

inductive RowOp where
  | read
  | update
  | delete
  deriving DecidableEq

/-- The platform: the database engine, JavaScript's own conversions, and the services that the
handlers call. -/
structure Env where
  engine : SqlEngine
  /-- The UTF-8 length of `JSON.stringify(value)`. -/
  jsonBytes : Json → ℕ
  /-- `JSON.stringify(value)`. -/
  stringify : Json → String
  /-- `JSON.parse(text)`, `none` when it throws. -/
  parseJson : String → Option Json
  /-- `Number(text)`, `none` for `NaN`. -/
  parseNumber : String → Option ℚ
  /-- `String(value)` of a value that is not a text. -/
  textOf : Json → String
  /-- `new RegExp(pattern).test(value)`. -/
  matchesPattern : String → String → Bool
  /-- Whether `Date.parse(value)` is a number. -/
  isDate : String → Bool
  /-- `new Date().toISOString()`. -/
  now : String
  /-- `generateId()`, on how many ids were generated before. -/
  generateId : ℕ → String
  /-- The status that `hookRejectedError` reads off the message of a hook. -/
  hookStatus : String → ℕ
  /-- `sqliteFtsArtifactsAreHealthy` on the catalog of the database. -/
  ftsHealthy : String → List String → Bool
  /-- `resolveResponseCursor`, on the table and the token. -/
  resolveCursor : String → String → Except HttpError String
  /-- `issueResponseCursorWithExpiry`, on the table and the record: the token and its expiry. -/
  issueCursor : String → String → Except HttpError (String × String)
  cursorExpiry : String
  /-- Whether live changes have a consumer, `Boolean(env.DATABASE_LIVE)`. -/
  hasDbLiveConsumer : Bool
  /-- Whether an event of a table has a trigger. -/
  hasTriggerConsumer : String → RowOp → Bool

/-- Who sends a request: the auth context, and whether a service key was accepted for it. -/
structure Caller where
  auth : Option AuthContext
  isServiceKey : Bool := false
  deriving DecidableEq

/-- An answer: a status and the object of the body. -/
structure Response where
  status : ℕ := 200
  body : Row
  deriving DecidableEq

def TableRules.row (rules : TableRules) : RowOp → Option RowRule
  | .read => rules.read
  | .update => rules.update
  | .delete => rules.delete

/-- `getTableAccess(tableConfig)?.[op]`. -/
def rowRule (config : Option TableConfig) (op : RowOp) : Option RowRule :=
  (config.bind TableConfig.access).bind (·.row op)

/-- `getTableAccess(tableConfig)?.insert`. -/
def insertRule (config : Option TableConfig) : Option InsertRule :=
  (config.bind TableConfig.access).bind TableRules.insert

/-- `getTableHooks(tableConfig)`. -/
def tableHooks (config : Option TableConfig) : TableHooks := config.elim {} TableConfig.hooks

/-- `tableConfig?.schema`. -/
def tableSchema (config : Option TableConfig) : Option UserSchema :=
  config.bind TableConfig.schema

inductive Event where
  | opened (table : String) (config : Option TableConfig)
  | created (table : String) (config : TableConfig)
  /-- A stored row, as the handler fetched it, is returned, modified or deleted. -/
  | touched (op : RowOp) (table : String) (row : Row)
  /-- A stored row, as the handler fetched it, decides an expectation. -/
  | probed (table : String) (row : Row)
  | inserted (table : String) (record : Row)
  /-- An upsert changes a stored row. -/
  | overwritten (table : String) (row : Row)

def Event.isWrite : Event → Bool
  | .touched .update _ _ | .touched .delete _ _ | .inserted _ _ | .overwritten _ _ => true
  | _ => false

abbrev Handler := Audited Store Event HttpError

/-- Whether a statement conflicts with a stored row. -/
def SqlEngine.conflicts (e : SqlEngine) (target : String) (values r : Row) : Bool :=
  (values.lookup target).any fun v => e.holds ⟨target, "==", v⟩ r

/-- The rows of a table after a write. -/
def SqlEngine.exec (e : SqlEngine) (rows : List Row) : Statement → List Row
  | .insert table values => rows ++ [e.stored table values]
  | .upsert table values target columns =>
    if rows.any (e.conflicts target values) then
      rows.map fun r => if e.conflicts target values r then
        e.updated (columns.map fun c => .assign c ((values.lookup c).getD .null)) r else r
    else rows ++ [e.stored table values]
  | .update _ clauses ids => rows.map fun r => if r.id.any (· ∈ ids) then e.updated clauses r else r
  | .delete _ ids => rows.filter fun r => !r.id.any (· ∈ ids)

def Statement.table : Statement → String
  | .insert t _ | .upsert t _ _ _ | .update t _ _ | .delete t _ => t

def runSelect (env : Env) (q : Select) : Handler (List Row) := do
  let rows ← Audited.read (·.rows q.table)
  .lift (env.engine.select q rows)

def runCount (env : Env) (q : Select) : Handler ℕ := do
  let rows ← Audited.read (·.rows q.table)
  .lift (env.engine.count q rows)

def runWrite (env : Env) (w : Statement) : Handler Unit := do
  let rows ← Audited.read (·.rows w.table)
  match env.engine.writeFault w rows with
  | some err => .fail err
  | none => .update (·.setRows w.table (env.engine.exec rows w))

/-- `SELECT * FROM table WHERE id = ?`. -/
def fetchById (env : Env) (table id : String) : Handler (List Row) :=
  runSelect env (buildGetQuery table id [])

/-! ### Statements that succeed or fail -/

section Runs

variable (env : Env) {s : Store}

theorem runSelect_of_no_fault {q : Select} (h : env.engine.queryFault q (s.rows q.table) = none) :
    runSelect env q s = ⟨.ok (env.engine.found q (s.rows q.table)), s, []⟩ := by
  rw [runSelect, Audited.read_bind_apply, SqlEngine.select_of_no_fault _ h]
  rfl

theorem runSelect_of_fault {q : Select} {err : HttpError}
    (h : env.engine.queryFault q (s.rows q.table) = some err) :
    runSelect env q s = ⟨.error err, s, []⟩ := by
  rw [runSelect, Audited.read_bind_apply, SqlEngine.select_of_fault _ h]
  rfl

theorem succeeds_runSelect {I : Store → Prop} {q : Select} {rows : List Row}
    (h : ∀ s, I s → s.rows q.table = rows) (hfault : env.engine.queryFault q rows = none) :
    Audited.Succeeds I (fun found => found = env.engine.found q rows) I (runSelect env q) := by
  intro s hs
  obtain rfl := h s hs
  rw [runSelect_of_no_fault env hfault]
  exact ⟨_, rfl, rfl, hs⟩

theorem runWrite_of_no_fault {w : Statement} (h : env.engine.writeFault w (s.rows w.table) = none) :
    runWrite env w s = ⟨.ok (), s.setRows w.table (env.engine.exec (s.rows w.table) w), []⟩ := by
  rw [runWrite, Audited.read_bind_apply, h]
  rfl

theorem runWrite_of_fault {w : Statement} {err : HttpError}
    (h : env.engine.writeFault w (s.rows w.table) = some err) :
    runWrite env w s = ⟨.error err, s, []⟩ := by
  rw [runWrite, Audited.read_bind_apply, h]
  rfl

end Runs

section Ensures

variable {I : Store → Prop} {P : Event → Prop}

theorem ensures_runSelect_found (env : Env) {q : Select} {rows : List Row}
    (h : ∀ s, I s → s.rows q.table = rows) :
    Audited.Ensures I P (fun found => found = env.engine.found q rows) (runSelect env q) := by
  refine .bind (Q := (· = rows)) (.read_of h) fun stored hstored => .lift fun found hfound => ?_
  rw [hstored] at hfound
  cases hfault : env.engine.queryFault q rows with
  | some err => simp [SqlEngine.select_of_fault _ hfault] at hfound
  | none =>
    rw [SqlEngine.select_of_no_fault _ hfault] at hfound
    exact (Except.ok.inj hfound).symm

theorem ensures_runSelect (env : Env) (q : Select) :
    Audited.Ensures I P (fun _ => True) (runSelect env q) :=
  .bind (.read _) fun _ _ => .lift fun _ _ => trivial

theorem ensures_runCount (env : Env) (q : Select) :
    Audited.Ensures I P (fun _ => True) (runCount env q) :=
  .bind (.read _) fun _ _ => .lift fun _ _ => trivial

theorem ensures_runWrite {w : Statement} (h : ∀ s rows, I s → I (s.setRows w.table rows))
    (env : Env) : Audited.Ensures I P (fun _ => True) (runWrite env w) := by
  refine .bind (.read _) fun rows _ => ?_
  split
  · exact .fail _
  · exact .update fun s hs => h s _ hs

end Ensures

end EdgeBase
