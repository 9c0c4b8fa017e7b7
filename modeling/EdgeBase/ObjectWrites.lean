import EdgeBase.Writes

/-!
# Writes of the Durable Object

The handlers of the Database Durable Object that change rows, and its transactions.

* `DatabaseDO.Request`, `DatabaseDO.serve` : every request that the object serves.
-/

namespace EdgeBase

/-- The statement of rows with a value in a column. -/
def selectBy (table field : String) (v : Json) (limit : Option ℕ) : Select :=
  { table, conditions := { filters := [⟨field, "==", v⟩] }, limit }

/-- An update of `/batch`. -/
structure BatchUpdate where
  id : Option String
  data : Option Row

/-- The body of `/batch`. -/
structure BatchBody where
  inserts : Option (List Row) := none
  updates : Option (List BatchUpdate) := none
  deletes : Option (List String) := none

def BatchBody.totalOps (b : BatchBody) : ℕ :=
  (b.inserts.elim 0 List.length) + (b.updates.elim 0 List.length) + (b.deletes.elim 0 List.length)

/-- The body of `/batch-by-filter`. -/
structure FilterBody where
  action : String
  filter : List FilterTuple
  orFilter : List FilterTuple := []
  update : Option Row := none
  limit : Option ℕ := none

/-- The checks of the fields of a `/batch-by-filter` body; the operation it asks for. -/
def checkFilterBody (b : FilterBody) : Except HttpError RowOp :=
  if b.action ≠ "delete" ∧ b.action ≠ "update" then
    .error ⟨400, "batch-by-filter requires 'action' to be 'delete' or 'update'."⟩
  else if b.filter = [] then
    .error ⟨400, "batch-by-filter requires 'filter' to be a non-empty array."⟩
  else if b.action = "update" ∧ b.update = none then
    .error ⟨400, "batch-by-filter with action 'update' requires 'update' data."⟩
  else .ok (if b.action = "delete" then .delete else .update)

/-- The operations of `/transact`. -/
inductive TransactOp where
  | insert (table : String) (data : Row)
  | update (table id : String) (data : Row)
  | delete (table id : String)
  | expect (table : String) (id : Option String) (conditions : List Json) (present : Bool)

def TransactOp.table : TransactOp → String
  | insert t _ | update t _ _ | delete t _ | expect t _ _ _ => t

/-- `typeof value === 'object'`: the fields of an object, the elements of an array. -/
def objectOf : Json → Option Row
  | .obj fields => some fields
  | .arr items => some (items.zipIdx.map fun b => (toString b.2, b.1))
  | _ => none

def nonEmptyText : Option Json → Option String
  | some (.str s) => if s = "" then none else some s
  | _ => none

/-- An expression that fails with a message when it has no value. -/
def required {α : Type} (a : Option α) (message : String) : Except HttpError α :=
  a.elim (.error ⟨400, message⟩) .ok

/-- The checks of the shape of one operation of `/transact`. -/
def checkTransactOp (env : Env) (op : Json) : Except HttpError TransactOp := do
  let fields := (objectOf op).getD []
  let data := (fields.lookup "data").bind objectOf
  let id := nonEmptyText (fields.lookup "id")
  let table ← required (nonEmptyText (fields.lookup "table"))
    "Each transact operation must name a table."
  match fields.lookup "op" with
  | some (.str "insert") =>
    .insert table <$> required data "transact insert requires a data object."
  | some (.str "update") => do
    let id ← required id "transact update requires an id."
    .update table id <$> required data "transact update requires a data object."
  | some (.str "delete") => .delete table <$> required id "transact delete requires an id."
  | some (.str "expect") => do
    -- a text is iterated too, and fails on its first character
    let conditions := match fields.lookup "where" with
      | some (.arr conditions) => conditions
      | some (.str text) => text.toList.map fun c => .str c.toString
      | _ => []
    let hasWhere : Bool := match fields.lookup "where" with
      | some (.arr (_ :: _)) => true
      | _ => false
    if id = none ∧ ¬hasWhere then
      .error ⟨400, "transact expect requires an id and/or where conditions."⟩
    else match fields.lookup "exists" with
      | some (.bool present) => .ok (.expect table id conditions present)
      | _ => .error ⟨400, "transact expect requires a boolean exists."⟩
  | other =>
    let name := other.elim "undefined" env.stringOf
    .error ⟨400, s!"Unknown transact op '{name}'. Expected insert | update | delete | expect."⟩

/-- The condition of one `where` entry of an expectation. -/
def expectCondition (env : Env) (effective : EffectiveSchema) (cond : Json) :
    Except HttpError FilterTuple :=
  match cond with
  | .arr [field, cmp, v] =>
    match nonEmptyText (some field) with
    | none => .error ⟨400, "transact expect where field must be a string."⟩
    | some field =>
      if cmp ≠ .str "==" then
        .error ⟨400, s!"transact expect only supports '==' conditions (got '{env.stringOf cmp}')."⟩
      else if v = .null then .ok ⟨field, "is null", .null⟩
      else if (objectOf v).isSome then
        .error ⟨400, "transact expect cannot compare object values."⟩
      else if (effective.lookup field).any fun f => f.type = .boolean then
        .ok ⟨field, "==", booleanBit v⟩
      else .ok ⟨field, "==", v⟩
  | _ => .error ⟨400, "transact expect where entries must be [field, \"==\", value]."⟩

/-- `parseTransactResultMode`: whether the answer holds the results. -/
def parseTransactResultMode (mode : Option Json) : Option Bool :=
  match mode with
  | none | some (.str "full") => some true
  | some (.str "compact") => some false
  | _ => none

/-- `MAX_TRANSACT_OPERATIONS` and the limit of `/batch`. -/
def maxOperations : ℕ := 500

/-- The body of `/transact`. -/
structure TransactBody where
  operations : List Json
  resultMode : Option Json := none

def invalidResultMode : Response where
  status := 400
  body := [("code", jsonNat 400), ("slug", .str "invalid-transact-result-mode"),
    ("message", .str "transact resultMode must be 'full' or 'compact'.")]

def checkOperations (operations : List Json) : Except HttpError Unit :=
  if operations = [] then .error ⟨400, "transact requires a non-empty operations array."⟩
  else if operations.length > maxOperations then
    .error ⟨400, s!"Transact limit exceeded: {operations.length} operations (max {maxOperations})."⟩
  else .ok ()

def transactResponse (full : Bool) (count : ℕ) (results : List (List Row)) : Response :=
  if full then { body := [("results", .arr (results.flatten.map .obj))] }
  else { body := [("committed", .bool true), ("operationCount", jsonNat count)] }

namespace DatabaseDO

variable (d : DatabaseDO) (env : Env)

/-! ### One record -/

/-- The declaration of a table, which every write but a delete requires. -/
def requireConfig (name : String) : Except HttpError TableConfig :=
  required (d.getTableConfig name) s!"Table '{name}' is not defined in the schema configuration."

/-- The first of some rows, normalized; normalizing none throws if the table has a schema. -/
def normalizeFirst (config : TableConfig) (path : String) (rows : List Row) :
    Except HttpError Row :=
  match rows with
  | row :: _ => .ok (normalizeRow env row (some config))
  | [] =>
    if config.schema.isNone then .ok []
    else .error ⟨500, s!"Database request failed while handling '{path}'. Check the worker logs for the original exception."⟩

/-- The stored row that an upsert is going to update, as far as its own query tells. -/
def findExisting (name : String) (upsert : Option String) (key : Option Json) :
    Handler (List Row) :=
  match upsert, key with
  | some target, some v => runSelect env (selectBy name target v (some 1))
  | _, _ => pure []

/-- `POST /tables/:name`; an upsert has a conflict target, by default the id. -/
def create (caller : Caller) (name : String) (body : Row) (upsert : Option String) :
    Handler Response := do
  d.ensureTableExists name
  let config ← .lift (d.requireConfig name)
  .emit (.opened name (some config))
  .lift (checkConflictTarget config upsert)
  let errors := validateInsert env body config.schema
  .lift (validBody errors (summarizeValidationErrors errors))
  let id ← newRecordId env body
  let record ← .lift (runBeforeInsert env config.hooks caller.auth
    (buildRecord env (buildEffectiveSchema config.schema) body id))
  let target := upsert.getD "id"
  let key := if target = "id" then some id else record.lookup target
  let existing ← findExisting env name upsert key
  storeRecord env name (insertValues env config record) record upsert
  let rows ← runSelect env (selectBy name target (key.getD .null) none)
  let row ← .lift (normalizeFirst env config s!"/tables/{name}" rows)
  let updated := !existing.isEmpty
  if upsert.isSome then
    pure { status := if updated then 200 else 201
           body := Assoc.set row "action" (.str (if updated then "updated" else "inserted")) }
  else pure { status := 201, body := row }

/-- `PATCH /tables/:name/:id`, on the stored row. -/
def patchRow (config : TableConfig) (caller : Caller) (name id : String) (body row : Row) :
    Handler Response := do
  .check (evalRowRule (activeRule (some config) .update caller) caller.auth row)
    ⟨403, ruleRejectedMessage name "update" id⟩
  let effective := buildEffectiveSchema config.schema
  let data := updateData env effective body
  let data := if config.schema.isSome then Assoc.restrict effective.has data else data
  let data := serializeUpdate env effective data
  let clauses ← .lift (parseUpdateBody env data)
  if clauses.isEmpty then pure { body := row }
  else do
    let clauses ← .lift (runBeforeUpdate env config.hooks caller.auth row data clauses)
    applyUpdate env name clauses [id] [row]
    let rows ← fetchById env name id
    let updated ← .lift (normalizeFirst env config s!"/tables/{name}/{id}" rows)
    pure { body := updated }

/-- `PATCH /tables/:name/:id`. -/
def patch (caller : Caller) (name id : String) (body : Row) : Handler Response := do
  d.ensureTableExists name
  let config ← .lift (d.requireConfig name)
  .emit (.opened name (some config))
  .lift (validBody (validateUpdate env body config.schema) "Validation failed.")
  let existing ← fetchById env name id
  match existing with
  | [] => .fail ⟨404, s!"Record {id} not found."⟩
  | row :: _ => patchRow env config caller name id body row

/-- `DELETE /tables/:name/:id`. -/
def delete (caller : Caller) (name id : String) : Handler Response := do
  d.ensureTableExists name
  let config := d.getTableConfig name
  .emit (.opened name config)
  let existing ← fetchById env name id
  match existing with
  | [] => .fail ⟨404, s!"Record {id} not found."⟩
  | row :: _ => do
    .check (evalRowRule (activeRule config .delete caller) caller.auth row)
      ⟨403, ruleRejectedMessage name "delete" id⟩
    let _ ← .lift (runBeforeDelete env (tableHooks config) caller.auth row)
    removeRows env name [id] [row]
    pure { body := [("deleted", .bool true)] }

/-! ### Many records -/

/-- The insert of `/batch` and `/transact`, which run no hook. -/
def insertOne (config : TableConfig) (name message : String) (upsert : Option String)
    (item : Row) : Handler Row := do
  .lift (validBody (validateInsert env item config.schema) message)
  let id ← newRecordId env item
  let record := buildRecord env (buildEffectiveSchema config.schema) item id
  storeRecord env name (insertValues env config record) record upsert
  pure record

/-- The update of `/batch` and `/transact`, of the row with the id if there is one. -/
def updateOne (config : TableConfig) (name id : String) (data : Row) (row : Option Row) :
    Handler Unit := do
  let effective := buildEffectiveSchema config.schema
  let clauses ← .lift
    (parseUpdateBody env (serializeUpdate env effective (updateData env effective data)))
  applyUpdate env name clauses [id] row.toList

/-- An update of `/batch`; the rule is called on the row and not awaited. -/
def batchUpdate (config : TableConfig) (caller : Caller) (name : String) (entry : BatchUpdate) :
    Handler Row := do
  let id ← .lift (required (entry.id.filter (· ≠ ""))
    "Each batch update entry must include an id.")
  let data ← .lift (required entry.data "Each batch update entry must include a data object.")
  .lift (validBody (validateUpdate env data config.schema)
    "Batch update request failed validation. See data for field-level errors.")
  let existing ← fetchById env name id
  .check (existing.head?.all (syncAllows config .update caller))
    ⟨403, ruleRejectedMessage name "update" id⟩
  updateOne env config name id data existing.head?
  let rows ← fetchById env name id
  pure (rows.headD (Assoc.merge [("id", .str id)] data))

/-- A deletion of `/batch`; the rule is called on the row and not awaited. -/
def batchDelete (config : TableConfig) (caller : Caller) (name id : String) : Handler Unit := do
  let existing ← fetchById env name id
  .check (existing.head?.all (syncAllows config .delete caller))
    ⟨403, ruleRejectedMessage name "delete" id⟩
  removeRows env name [id] existing.head?.toList

/-- The transaction of `/batch`. -/
def batchBody (config : TableConfig) (caller : Caller) (name : String) (body : BatchBody)
    (upsert : Option String) : Handler Row := do
  let inserted ← Audited.forEach
    (insertOne env config name
      "Batch insert request failed validation. See data for field-level errors." upsert)
    (body.inserts.getD [])
  let updated ← Audited.forEach (batchUpdate env config caller name) (body.updates.getD [])
  let deleted ← Audited.forEach (batchDelete env config caller name) (body.deletes.getD [])
  pure
    ((if body.inserts.isSome then [("inserted", .arr (inserted.map .obj))] else []) ++
      (if body.updates.isSome then [("updated", .arr (updated.map .obj))] else []) ++
      (if body.deletes.isSome then [("deleted", jsonNat deleted.length)] else []))

/-- `POST /tables/:name/batch`. -/
def batch (caller : Caller) (name : String) (body : BatchBody) (upsert : Option String) :
    Handler Response := do
  d.ensureTableExists name
  let config ← .lift (d.requireConfig name)
  .emit (.opened name (some config))
  .lift (checkConflictTarget config upsert)
  .check (body.totalOps ≤ maxOperations)
    ⟨400, s!"Batch limit exceeded: {body.totalOps} operations (max {maxOperations})."⟩
  .check (body.inserts.getD [] = [] ∨
      evalInsertRule (activeInsertRule (some config) caller) caller.auth)
    ⟨403, ruleRejectedMessage name "insert" ""⟩
  let results ← .atomic Event.isWrite (batchBody env config caller name body upsert)
  pure { body := results }

/-- The check that `/batch-by-filter` makes before it selects: the rule on an empty row, and
without a rule the release mode. -/
def filterPrecheck (config : TableConfig) (caller : Caller) (name : String) (op : RowOp)
    (action : String) : Except HttpError Unit :=
  if caller.isServiceKey then .ok ()
  else match (rowRule (some config) op).filter Rule.truthy with
    | some rule =>
      if evalRowRule (some rule) caller.auth [] then .ok ()
      else .error ⟨403, ruleRejectedMessage name action ""⟩
    | none =>
      if d.config.release then
        .error ⟨403, s!"Access denied. No '{action}' rule defined for '{name}'."⟩
      else .ok ()

/-- The write of `/batch-by-filter` on the rows that the rule allows. -/
def filterWrite (config : TableConfig) (name : String) (op : RowOp) (update : Row)
    (rows : List Row) : Handler Unit :=
  let ids := rows.filterMap Row.id
  match op with
  | .delete => removeRows env name ids rows
  | _ => do
    let effective := buildEffectiveSchema config.schema
    let data := serializeUpdate env effective (touchUpdatedAt env effective update)
    let clauses ← .lift (parseUpdateBody env data)
    applyUpdate env name clauses ids rows

/-- The transaction of `/batch-by-filter`: the numbers of rows selected and changed. -/
def filterBody (config : TableConfig) (caller : Caller) (name : String) (op : RowOp)
    (body : FilterBody) : Handler (ℕ × ℕ) := do
  let options := normalizeSQLiteBooleanQueryOptions
    { filters := body.filter, orFilters := body.orFilter
      pagination := { limit := some (min (body.limit.getD maxOperations) maxOperations) } }
    config.schema
  let query ← .lift (buildListQuery name options .sqlite)
  let selected ← runSelect env query.1
  if selected.isEmpty then pure (0, 0)
  else do
    let rows := selected.filter (syncAllows config op caller)
    .check (rows ≠ []) ⟨403, ruleRejectedMessage name body.action ""⟩
    filterWrite env config name op (body.update.getD []) rows
    pure (selected.length, rows.length)

/-- `POST /tables/:name/batch-by-filter`. -/
def batchByFilter (caller : Caller) (name : String) (body : FilterBody) : Handler Response := do
  d.ensureTableExists name
  let config ← .lift (d.requireConfig name)
  .emit (.opened name (some config))
  let op ← .lift (checkFilterBody body)
  .lift (d.filterPrecheck config caller name op body.action)
  let counts ← .atomic Event.isWrite (filterBody env config caller name op body)
  pure { body := [("processed", jsonNat counts.1), ("succeeded", jsonNat counts.2)] }

/-! ### Transactions -/

/-- Resolves the table of an operation: it is created if need be. -/
def transactTable (op : TransactOp) : Handler (TransactOp × TableConfig) := do
  d.ensureTableExists op.table
  let config ← .lift (d.requireConfig op.table)
  .emit (.opened op.table (some config))
  pure (op, config)

/-- An `expect` operation: a probe of one row, guarded by a read rule that is a function. -/
def transactExpect (config : TableConfig) (caller : Caller) (full : Bool) (name : String)
    (id : Option String) (conditions : List Json) (present : Bool) : Handler (List Row) := do
  let effective := buildEffectiveSchema config.schema
  let conditions ← .lift (conditions.mapM (expectCondition env effective))
  let filters := (id.map fun id => ⟨"id", "==", .str id⟩).toList ++ conditions
  let rows ← runSelect env { table := name, conditions := { filters }, limit := some 1 }
  -- without a read rule the compact mode asks only whether there is a row
  let needsProbeRow := full || (!caller.isServiceKey && (rowRule (some config) .read).isSome)
  let probe := if needsProbeRow then rows.head?.map (normalizeRow env · (some config)) else none
  .check (probe.all (syncAllows config .read caller)) ⟨403, ruleRejectedMessage name "read" ""⟩
  .emitAll ((probe.or rows.head?).toList.map (.probed name))
  .check (present → rows ≠ [])
    ⟨409, s!"Transaction expectation failed: expected a matching row in \"{name}\"."⟩
  .check (¬present → rows = [])
    ⟨409, s!"Transaction expectation failed: expected no matching row in \"{name}\"."⟩
  pure (if full then [[("expected", .bool true)]] else [])

/-- Whether the answer or a consumer needs the rows of an update or delete. -/
def isObserved (full : Bool) (name : String) (op : RowOp) : Bool :=
  full || env.hasDbLiveConsumer || env.hasTriggerConsumer name op

/-- Whether an update or delete fetches the row before it. -/
def needsRow (config : TableConfig) (caller : Caller) (full : Bool) (name : String) (op : RowOp) :
    Bool :=
  isObserved env full name op || (!caller.isServiceKey && (rowRule (some config) op).isSome)

/-- The row that an update or delete changes, normalized, if it fetches that; else the stored
row. -/
def transactRow (config : TableConfig) (caller : Caller) (full : Bool) (name id : String)
    (op : RowOp) : Handler (Option Row) :=
  if needsRow env config caller full name op then do
    let rows ← fetchById env name id
    pure (rows.head?.map (normalizeRow env · (some config)))
  else .read fun s => (s.rows name).find? fun r => r.id = some id

/-- The row after an update, if something needs it. -/
def observedRow (full : Bool) (name id : String) : Handler (List Row) :=
  if isObserved env full name .update then fetchById env name id else pure []

/-- An `update` operation. -/
def transactUpdate (config : TableConfig) (caller : Caller) (full : Bool) (name id : String)
    (data : Row) : Handler (List Row) := do
  .lift (validBody (validateUpdate env data config.schema)
    s!"Transact update on \"{name}\" failed validation. See data for field-level errors.")
  let row ← transactRow env config caller full name id .update
  .check (row.all (syncAllows config .update caller)) ⟨403, ruleRejectedMessage name "update" id⟩
  updateOne env config name id data row
  let rows ← observedRow env full name id
  let updated := (rows.head?.map (normalizeRow env · (some config))).getD
    (Assoc.merge [("id", .str id)] data)
  pure (if full then [[("updated", .obj updated)]] else [])

/-- A `delete` operation. -/
def transactDelete (config : TableConfig) (caller : Caller) (full : Bool) (name id : String) :
    Handler (List Row) := do
  let row ← transactRow env config caller full name id .delete
  .check (row.all (syncAllows config .delete caller)) ⟨403, ruleRejectedMessage name "delete" id⟩
  removeRows env name [id] row.toList
  pure (if full then [[("deleted", .bool true), ("id", .str id)]] else [])

def transactOp (caller : Caller) (full : Bool) (op : TransactOp × TableConfig) :
    Handler (List Row) :=
  match op.1 with
  | .expect name id conditions present =>
    transactExpect env op.2 caller full name id conditions present
  | .insert name data => do
    let record ← insertOne env op.2 name
      s!"Transact insert on \"{name}\" failed validation. See data for field-level errors." none data
    pure (if full then [[("inserted", .obj record)]] else [])
  | .update name id data => transactUpdate env op.2 caller full name id data
  | .delete name id => transactDelete env op.2 caller full name id

def transactInsertRules (caller : Caller) (ops : List (TransactOp × TableConfig)) :
    Except HttpError Unit :=
  let denied := ops.find? fun op => match op.1 with
    | .insert _ _ => !evalInsertRule (activeInsertRule (some op.2) caller) caller.auth
    | _ => false
  match denied with
  | some op => .error ⟨403, ruleRejectedMessage op.1.table "insert" ""⟩
  | none => .ok ()

/-- `POST /transact`. -/
def transact (caller : Caller) (body : TransactBody) : Handler Response :=
  match parseTransactResultMode body.resultMode with
  | none => pure invalidResultMode
  | some full => do
    .lift (checkOperations body.operations)
    let ops ← Audited.forEach (fun op => do
      let op ← .lift (checkTransactOp env op)
      d.transactTable op) body.operations
    .lift (transactInsertRules caller ops)
    let results ← .atomic Event.isWrite (Audited.forEach (transactOp env caller full) ops)
    pure (transactResponse full ops.length results)

/-! ### Requests -/

inductive Request where
  | list (name : String) (q : PageRequest)
  | search (name : String) (q : PageRequest)
  | count (name : String) (options : QueryOptions)
  | get (name id : String) (fields : List String)
  | create (name : String) (body : Row) (upsert : Option String)
  | patch (name id : String) (body : Row)
  | delete (name id : String)
  | batch (name : String) (body : BatchBody) (upsert : Option String)
  | batchByFilter (name : String) (body : FilterBody)
  | transact (body : TransactBody)

def serve (caller : Caller) : Request → Handler Response
  | .list name q => d.list env caller name q
  | .search name q => d.search env caller name q
  | .count name options => d.count env name options
  | .get name id fields => d.get env caller name id fields
  | .create name body upsert => d.create env caller name body upsert
  | .patch name id body => d.patch env caller name id body
  | .delete name id => d.delete env caller name id
  | .batch name body upsert => d.batch env caller name body upsert
  | .batchByFilter name body => d.batchByFilter env caller name body
  | .transact body => d.transact env caller body

end DatabaseDO

end EdgeBase
