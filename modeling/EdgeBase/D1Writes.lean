import EdgeBase.ObjectWrites

/-!
# Writes of the D1 handler

The handlers of `d1-handler.ts` that change rows.  D1 has no interactive transactions: a handler
sends its statements one by one, and only what it puts into one `db.batch` is atomic.

* `D1.handleInsert`, `D1.handleUpdate`, `D1.handleDelete` : one record.
* `D1.handleBatch`, `D1.handleBatchByFilter` : many records of a table.
-/

namespace EdgeBase

namespace Worker

/-- The insert rule that a handler evaluates: `!isServiceKey && rules?.insert !== undefined`. -/
def activeInsertRule (config : TableConfig) (caller : Caller) : Option InsertRule :=
  if caller.isServiceKey then none else insertRule (some config)

/-- An exception that is no `EdgeBaseError`, as the error middleware answers it, up to the path
that its message names. -/
def unhandled : HttpError := ⟨500, "Internal server error."⟩

def storedRows (name id : String) : Handler (List Row) :=
  .read fun s => (s.rows name).filter fun r => r.id = some id

end Worker

namespace D1

variable (env : Env) (config : TableConfig)

/-! ### Values -/

/-- `serializeJsonFields`, on one field. -/
def serializeField (effective : EffectiveSchema) (b : String × Json) : Json :=
  match (effective.lookup b.1).map SchemaField.type, b.2 with
  | _, .null => .null
  | some .json, .str s => .str s
  | some .json, v => .str (env.stringify v)
  | some .boolean, v => booleanBit v
  | _, v => v

/-- The columns of an inserted record and their values. -/
def insertData (record : Row) : Row :=
  let effective := buildEffectiveSchema config.schema
  (Assoc.restrict effective.has record).map fun b => (b.1, serializeField env effective b)

/-- The stored value of a field of a single update, where a text of a json field is quoted too. -/
def serializeSingle (effective : EffectiveSchema) (b : String × Json) : Json :=
  if (opFields b.2).isSome then b.2
  else match (effective.lookup b.1).map SchemaField.type, b.2 with
    | _, .null => .null
    | some .json, v => .str (env.stringify v)
    | some .boolean, v => booleanBit v
    | _, v => v

/-- A parameter of a statement; D1 refuses to bind `undefined`. -/
def bound (v : Option Json) : Except HttpError Json := v.elim (.error Worker.unhandled) .ok

def checkTarget (effective : EffectiveSchema) (target : String) : Except HttpError Unit :=
  match effective.lookup target with
  | none => .error ⟨400, s!"conflictTarget '{target}' does not exist in schema."⟩
  | some field =>
    if target = "id" ∨ field.unique then .ok ()
    else .error ⟨400, s!"conflictTarget '{target}' must be a unique field."⟩

/-- The column by which an inserted row is fetched. -/
def fetchField (upsert : Option String) : String := upsert.getD "id"

/-! ### One record -/

/-- The row that an upsert is going to update, as far as its own query tells. -/
def findExisting (name : String) (upsert : Option String) (data : Row) : Handler (List Row) :=
  match upsert, upsert.bind fun target => data.lookup target with
  | some target, some v => runSelect env (selectBy name target v (some 1))
  | _, _ => pure []

/-- The statement of an insert; an upsert without a column to set is a syntax error. -/
def storeInserted (name : String) (data : Row) (upsert : Option String) : Handler Unit := do
  .check (upsert.all fun target => upsertColumns data target ≠ []) Worker.unhandled
  storeRecord env name data data upsert

def handleInsert (caller : Caller) (name : String) (body : Row) (upsert : Option String) :
    Handler Response := do
  .check (evalInsertRule (Worker.activeInsertRule config caller) caller.auth)
    ⟨403, ruleRejectedMessage name "insert" ""⟩
  let errors := validateInsert env body config.schema
  .lift (validBody errors (summarizeValidationErrors errors))
  let id ← newRecordId env body
  let effective := buildEffectiveSchema config.schema
  let record ← .lift (runBeforeInsert env config.hooks caller.auth
    (buildRecord env effective body id))
  let data := insertData env config record
  .lift (upsert.elim (.ok ()) (checkTarget effective))
  let existing ← findExisting env name upsert data
  storeInserted env name data upsert
  let key ← .lift (bound (data.lookup (fetchField upsert)))
  let rows ← runSelect env (selectBy name (fetchField upsert) key (some 1))
  let row := normalizeRow env ((rows.head?.map stripInternalFields).getD data) config
  let updated := !existing.isEmpty
  if upsert.isSome then
    pure { status := if updated then 200 else 201
           body := Assoc.set row "action" (.str (if updated then "updated" else "inserted")) }
  else pure { status := 201, body := row }

/-- The data of a single update after the hook: without the fields that it may not change. -/
def singleUpdateData (effective : EffectiveSchema) (body : Row) : Row :=
  (Assoc.restrict effective.has (Assoc.restrict (fun k => k ≠ "id" ∧ k ≠ "createdAt") body)).map
    fun b => (b.1, serializeSingle env effective b)

/-- `handleUpdate`, on the stored row. -/
def updateRow (caller : Caller) (name id : String) (body row : Row) : Handler Response := do
  .check (evalRowRule (Worker.activeRule config .update caller) caller.auth row)
    ⟨403, ruleRejectedMessage name "update" id⟩
  let effective := buildEffectiveSchema config.schema
  let body := stampNow env effective body "updatedAt"
  let transformed ← .lift (runHook env "Update rejected by beforeUpdate hook."
    (config.hooks.beforeUpdate.map fun hook => hook caller.auth row body))
  let data := singleUpdateData env effective (transformed.elim body (Assoc.merge body))
  let clauses ← .lift (parseUpdateBody env data)
  if clauses.isEmpty then pure { body := row }
  else do
    let hit ← Worker.storedRows name id
    applyUpdate env name clauses [id] [row]
    .check (hit ≠ []) ⟨404, s!"Record '{id}' not found in '{name}'."⟩
    let rows ← fetchById env name id
    let updated := (rows.head?.map stripInternalFields).getD (Assoc.merge [("id", .str id)] data)
    pure { body := normalizeRow env updated config }

def handleUpdate (caller : Caller) (name id : String) (body : Row) : Handler Response := do
  .lift (validBody (validateUpdate env body config.schema)
    s!"Update payload for table '{name}' failed validation. See data for field-level errors.")
  let existing ← fetchById env name id
  match existing with
  | [] => .fail ⟨404, s!"Record '{id}' not found in '{name}'."⟩
  | row :: _ => updateRow env config caller name id body row

def handleDelete (caller : Caller) (name id : String) : Handler Response := do
  let existing ← fetchById env name id
  match existing with
  | [] => .fail ⟨404, s!"Record '{id}' not found in '{name}'."⟩
  | row :: _ => do
    .check (evalRowRule (Worker.activeRule config .delete caller) caller.auth row)
      ⟨403, ruleRejectedMessage name "delete" id⟩
    let _ ← .lift (runBeforeDelete env config.hooks caller.auth row)
    removeRows env name [id] [row]
    pure { body := [("deleted", .bool true)] }

/-! ### Many records -/

/-- The validation of an entry of `updates`. -/
def checkBatchUpdate (name : String) (entry : BatchUpdate) : Except HttpError (String × Row) := do
  let id ← required (entry.id.filter (· ≠ ""))
    s!"Each batch update entry for table '{name}' must include an id."
  let data ← required entry.data
    s!"Each batch update entry for table '{name}' must include a data object."
  validBody (validateUpdate env data config.schema)
    s!"Batch update payload for table '{name}' failed validation. See data for field-level errors."
  .ok (id, data)

/-- The checks of a `/batch` request that read no row; the updates that it asks for. -/
def checkBatch (caller : Caller) (name : String) (body : BatchBody) (upsert : Option String) :
    Except HttpError (List (String × Row)) := do
  if body.totalOps > maxOperations then
    .error ⟨400, s!"Batch limit exceeded: {body.totalOps} operations (max {maxOperations})."⟩
  else if body.inserts.getD [] ≠ [] ∧
      !evalInsertRule (Worker.activeInsertRule config caller) caller.auth then
    .error ⟨403, ruleRejectedMessage name "insert" ""⟩
  else
    (upsert.filter (· ≠ "id")).elim (.ok ()) (checkTarget (buildEffectiveSchema config.schema))
    (body.inserts.getD []).forM fun item =>
      validBody (validateInsert env item config.schema)
        s!"Batch insert payload for table '{name}' failed validation. See data for field-level errors."
    (body.updates.getD []).mapM (checkBatchUpdate env config name)

/-- The row rule of an entry of `/batch`, on the stored row; there need not be one. -/
def checkBatchRule (caller : Caller) (name : String) (op : RowOp) (action id : String) :
    Handler Unit := do
  let existing ← fetchById env name id
  .check (existing.head?.all fun row =>
      evalRowRule (Worker.activeRule config op caller) caller.auth (clean env config row))
    ⟨403, ruleRejectedMessage name action id⟩

/-- The row rules of a `/batch` request. -/
def checkBatchRules (caller : Caller) (name : String) (op : RowOp) (action : String)
    (ids : List String) : Handler Unit :=
  if (Worker.activeRule config op caller).isNone then pure ()
  else do
    let _ ← Audited.forEach (checkBatchRule env config caller name op action) ids
    pure ()

/-- The row that an insert of `/batch` and `/transact` stores. -/
def prepareInsert (item : Row) : Handler Row := do
  let id ← newRecordId env item
  pure (insertData env config (buildRecord env (buildEffectiveSchema config.schema) item id))

def fetchInserted (name : String) (upsert : Option String) (data : Row) : Handler (List Row) := do
  let key ← .lift (bound (data.lookup (fetchField upsert)))
  let rows ← runSelect env (selectBy name (fetchField upsert) key none)
  pure (rows.head?.map (clean env config)).toList

/-- The inserts of `/batch`, in one `db.batch`. -/
def batchInserts (name : String) (upsert : Option String) (items : List Row) :
    Handler (List Row) := do
  let records ← Audited.forEach (prepareInsert env config) items
  let _ ← .atomic Event.isWrite
    (Audited.forEach (fun data => storeRecord env name data data upsert) records)
  let rows ← Audited.forEach (fetchInserted env config name upsert) records
  pure rows.flatten

/-- The `SET` clauses of an update of `/batch` and `/transact`. -/
def updateClauses (data : Row) : Except HttpError (List SetClause) :=
  let effective := buildEffectiveSchema config.schema
  parseUpdateBody env (serializeUpdate env effective (updateData env effective data))

def fetchUpdated (name id : String) (data : Row) : Handler Row := do
  let rows ← fetchById env name id
  pure ((rows.head?.map (clean env config)).getD (Assoc.merge [("id", .str id)] data))

/-- An update of `/batch`, a statement of its own. -/
def batchUpdate (name : String) (entry : String × Row) : Handler Row := do
  let clauses ← .lift (updateClauses env config entry.2)
  let hit ← Worker.storedRows name entry.1
  applyUpdate env name clauses [entry.1] hit
  fetchUpdated env config name entry.1 entry.2

/-- A deletion of `/batch`, a statement of its own. -/
def batchDelete (name id : String) : Handler Unit := do
  let hit ← Worker.storedRows name id
  removeRows env name [id] hit

/-- The execution of `/batch`, when all checks have passed. -/
def batchExecute (name : String) (body : BatchBody) (updates : List (String × Row))
    (upsert : Option String) : Handler Response := do
  let inserted ← batchInserts env config name upsert (body.inserts.getD [])
  let updated ← Audited.forEach (batchUpdate env config name) updates
  let deleted ← Audited.forEach (batchDelete env name) (body.deletes.getD [])
  pure { body :=
    (if body.inserts.isSome then [("inserted", .arr (inserted.map .obj))] else []) ++
    (if body.updates.isSome then [("updated", .arr (updated.map .obj))] else []) ++
    (if body.deletes.isSome then [("deleted", jsonNat deleted.length)] else []) }

def handleBatch (caller : Caller) (name : String) (body : BatchBody) (upsert : Option String) :
    Handler Response := do
  let updates ← .lift (checkBatch env config caller name body upsert)
  checkBatchRules env config caller name .update "update" (updates.map Prod.fst)
  checkBatchRules env config caller name .delete "delete" (body.deletes.getD [])
  batchExecute env config name body updates upsert

/-- The checks of the fields of a `/batch-by-filter` body: an empty filter passes. -/
def checkFilterBody (b : FilterBody) : Except HttpError RowOp :=
  if b.action ≠ "delete" ∧ b.action ≠ "update" then
    .error ⟨400, "batch-by-filter requires 'action' to be 'delete' or 'update'."⟩
  else if b.action = "update" ∧ b.update = none then
    .error ⟨400, "batch-by-filter with action 'update' requires 'update' data."⟩
  else .ok (if b.action = "delete" then .delete else .update)

/-- The rule of `/batch-by-filter` on a row that it selects: only a function is evaluated. -/
def filterAllows (caller : Caller) (op : RowOp) (row : Row) : Bool :=
  match Worker.activeRule config op caller with
  | some (.fn f) => evalRowRule (some (.fn f)) caller.auth (clean env config row)
  | _ => true

/-- The write of `/batch-by-filter` on the rows that the rule allows. -/
def filterWrite (name : String) (op : RowOp) (update : Row) (rows : List Row) : Handler Unit :=
  let ids := rows.filterMap Row.id
  match op with
  | .delete => removeRows env name ids rows
  | _ => do
    let effective := buildEffectiveSchema config.schema
    let data := serializeUpdate env effective (touchUpdatedAt env effective update)
    let clauses ← .lift (parseUpdateBody env data)
    applyUpdate env name clauses ids rows

def handleBatchByFilter (caller : Caller) (name : String) (body : FilterBody) :
    Handler Response := do
  let op ← .lift (checkFilterBody body)
  .check (evalRowRule (Worker.activeRule config op caller) caller.auth [])
    ⟨403, ruleRejectedMessage name body.action ""⟩
  let query ← .lift (buildListQuery name (queryOptions config
    { filters := body.filter, orFilters := body.orFilter
      pagination := { limit := some (min (body.limit.getD maxOperations) maxOperations) } }) .sqlite)
  let selected ← runSelect env query.1
  let rows := selected.filter (filterAllows env config caller op)
  if selected.isEmpty then
    pure { body := [("processed", jsonNat 0), ("succeeded", jsonNat 0)] }
  else do
    .check (rows ≠ []) ⟨403, ruleRejectedMessage name body.action ""⟩
    filterWrite env config name op (body.update.getD []) rows
    pure { body := [("processed", jsonNat selected.length), ("succeeded", jsonNat rows.length)] }

/-! ### Transactions -/

/-- The checks of the shape of one operation; an update without an id or data has one message. -/
def checkTransactOp (op : Json) : Except HttpError TransactOp :=
  let fields := (objectOf op).getD []
  match nonEmptyText (fields.lookup "table"), fields.lookup "op" with
  | some table, some (.str "update") =>
    match nonEmptyText (fields.lookup "id"), (fields.lookup "data").bind objectOf with
    | some id, some data => .ok (.update table id data)
    | _, _ => .error ⟨400, "transact update requires an id and a data object."⟩
  | _, _ => EdgeBase.checkTransactOp env op

/-- An operation with the declaration of its table. -/
def transactOp (block : DbBlock) (ns : String) (op : Json) :
    Except HttpError (TransactOp × TableConfig) := do
  let op ← checkTransactOp env op
  let config ← required (block.table op.table)
    s!"Table '{op.table}' not found in database '{ns}'."
  .ok (op, config)

def transactInsertRules (caller : Caller) (ops : List (TransactOp × TableConfig)) :
    Except HttpError Unit :=
  let denied := ops.find? fun op => match op.1 with
    | .insert _ _ => !evalInsertRule (Worker.activeInsertRule op.2 caller) caller.auth
    | _ => false
  match denied with
  | some op => .error ⟨403, ruleRejectedMessage op.1.table "insert" ""⟩
  | none => .ok ()

inductive BatchStatement where
  /-- `INSERT INTO _edgebase_tx_guard(id) SELECT NULL WHERE [NOT] EXISTS (...)`, which the
  constraint of the guard table refuses when the probe finds what it should not. -/
  | guard (probe : Select) (present : Bool)
  | insert (table : String) (values : Row)
  | update (table id : String) (clauses : List SetClause)
  | delete (table id : String)

/-- What the answer to one operation is made of, after the commit. -/
inductive ResultBuilder where
  | expected
  | inserted (config : TableConfig) (table : String) (id : Json) (record : Row)
  | updated (config : TableConfig) (table id : String) (data : Row)
  | deleted (id : String)

def expectProbe (effective : EffectiveSchema) (name : String) (id : Option String)
    (conditions : List Json) : Except HttpError Select := do
  let conditions ← conditions.mapM (expectCondition env effective)
  .ok { table := name
        conditions := { filters := (id.map fun id => ⟨"id", "==", .str id⟩).toList ++ conditions } }

/-- The read rule of an expectation, on the row that the probe finds now. -/
def checkProbe (caller : Caller) (name : String) (probe : Select) : Handler Unit :=
  if (Worker.activeRule config .read caller).isNone then pure ()
  else do
    let rows ← runSelect env { probe with limit := some 1 }
    .check (rows.head?.all fun row =>
        evalRowRule (Worker.activeRule config .read caller) caller.auth (clean env config row))
      ⟨403, ruleRejectedMessage name "read" ""⟩

/-- An `expect` operation. -/
def compileExpect (caller : Caller) (name : String) (id : Option String) (conditions : List Json)
    (present : Bool) : Handler (List BatchStatement × ResultBuilder) := do
  let probe ← .lift (expectProbe env (buildEffectiveSchema config.schema) name id conditions)
  checkProbe env config caller name probe
  pure ([.guard probe present], .expected)

/-- The row rule of an update or delete, on the row as it is stored now or else an empty one. -/
def checkTransactRule (caller : Caller) (name : String) (op : RowOp) (action id : String) :
    Handler Unit :=
  if (Worker.activeRule config op caller).isNone then pure ()
  else do
    let rows ← fetchById env name id
    .check (evalRowRule (Worker.activeRule config op caller) caller.auth
        ((rows.head?.map (clean env config)).getD []))
      ⟨403, ruleRejectedMessage name action ""⟩

/-- An `insert` operation. -/
def compileInsert (name : String) (data : Row) : Handler (List BatchStatement × ResultBuilder) := do
  .lift (validBody (validateInsert env data config.schema)
    s!"Transact insert on '{name}' failed validation. See data for field-level errors.")
  let id ← newRecordId env data
  let record := buildRecord env (buildEffectiveSchema config.schema) data id
  pure ([.insert name (insertData env config record)], .inserted config name id record)

/-- An `update` operation. -/
def compileUpdate (caller : Caller) (name id : String) (data : Row) :
    Handler (List BatchStatement × ResultBuilder) := do
  .lift (validBody (validateUpdate env data config.schema)
    s!"Transact update on '{name}' failed validation. See data for field-level errors.")
  checkTransactRule env config caller name .update "update" id
  let clauses ← .lift (updateClauses env config data)
  pure (if clauses.isEmpty then [] else [.update name id clauses], .updated config name id data)

/-- A `delete` operation. -/
def compileDelete (caller : Caller) (name id : String) :
    Handler (List BatchStatement × ResultBuilder) := do
  checkTransactRule env config caller name .delete "delete" id
  pure ([.delete name id], .deleted id)

/-- One pass of the loop that compiles the operations. -/
def compileOp (caller : Caller) (op : TransactOp × TableConfig) :
    Handler (List BatchStatement × ResultBuilder) :=
  match op.1 with
  | .expect name id conditions present => compileExpect env op.2 caller name id conditions present
  | .insert name data => compileInsert env op.2 name data
  | .update name id data => compileUpdate env op.2 caller name id data
  | .delete name id => compileDelete env op.2 caller name id

def expectationFailed : HttpError :=
  ⟨409, "Transaction expectation failed; no operations were applied."⟩

def runBatchStatement : BatchStatement → Handler Unit
  | .guard probe present => do
    let rows ← runSelect env probe
    .check ((!rows.isEmpty) = present) expectationFailed
  | .insert name values => storeRecord env name values values none
  | .update name id clauses => do
    let hit ← Worker.storedRows name id
    applyUpdate env name clauses [id] hit
  | .delete name id => do
    let hit ← Worker.storedRows name id
    removeRows env name [id] hit

/-- `db.batch`: all statements in one transaction. -/
def runBatch (statements : List BatchStatement) : Handler Unit := do
  let _ ← .atomic Event.isWrite (Audited.forEach (runBatchStatement env) statements)
  pure ()

/-- The result of one operation, with the row as it is after the commit. -/
def buildResult : ResultBuilder → Handler Row
  | .expected => pure [("expected", .bool true)]
  | .inserted config name id record => do
    let rows ← runSelect env (selectBy name "id" id none)
    let row := (rows.head?.map (clean env config)).getD (Assoc.merge [("id", id)] record)
    pure [("inserted", .obj row)]
  | .updated config name id data => do
    let row ← fetchUpdated env config name id data
    pure [("updated", .obj row)]
  | .deleted id => pure [("deleted", .bool true), ("id", .str id)]

/-- The writes that other requests commit at some moment. -/
abbrev Interference := List (String × List Row) → List (String × List Row)

def interfere (others : Interference) : Handler Unit :=
  .update fun s => { s with tables := others s.tables }

/-- `handleTransact`, while other requests write: `others k` before the operation `k` is compiled,
and the last one before the batch. -/
def handleTransact (block : DbBlock) (ns : String) (caller : Caller) (body : TransactBody)
    (others : ℕ → Interference) : Handler Response :=
  match parseTransactResultMode body.resultMode with
  | none => pure invalidResultMode
  | some full => do
    .lift (checkOperations body.operations)
    let ops ← .lift (body.operations.mapM (transactOp env block ns))
    .lift (transactInsertRules caller ops)
    let compiled ← Audited.forEach (fun op => do
      interfere (others op.2)
      compileOp env caller op.1) ops.zipIdx
    interfere (others ops.length)
    runBatch env (compiled.map Prod.fst).flatten
    let results ← Audited.forEach (buildResult env) (if full then compiled.map Prod.snd else [])
    pure (transactResponse full ops.length [results])

end D1

end EdgeBase
