import EdgeBase.D1Writes
import EdgeBase.Lib.Session

/-!
# Transactions of the PostgreSQL handler

`/batch` and `/transact` of `postgres-handler.ts`, each on a session of its own.  A handler throws
errors of its own and errors of the driver, and logs the live events that it schedules.

* `PG.Thrown`, `PG.Link` : what a handler throws, and the connection that makes it do so.
* `PG.Write`, `PG.serve` : a request on a connection that is closed when the handler is done.
-/

namespace EdgeBase

abbrev Tables := List (String × List Row)

/-- The rows that a write gives with `RETURNING *`. -/
def SqlEngine.returning (e : SqlEngine) (rows : List Row) : Statement → List Row
  | .insert table values => [e.stored table values]
  | .upsert table values target columns =>
    let hit := rows.filter (e.conflicts target values)
    if hit.isEmpty then [e.stored table values]
    else if columns.isEmpty then []
    else hit.map (e.updated (columns.map fun c => .assign c ((values.lookup c).getD .null)))
  | .update _ clauses ids => (rows.filter fun r => r.id.any (· ∈ ids)).map (e.updated clauses)
  | .delete _ ids => rows.filter fun r => r.id.any (· ∈ ids)

namespace PG

/-! ### Errors and statements -/

/-- An error of the driver: its `code`, and the answer of the error middleware to it. -/
structure DriverError where
  code : Option String
  answer : HttpError

inductive Thrown where
  /-- An `EdgeBaseError`, which the handler answers. -/
  | edgeBase (err : HttpError)
  | driver (err : DriverError)
  /-- An `AggregateError`: a rollback failed too. -/
  | aggregate

namespace Thrown

/-- `isRetryablePostgresTransactionError`. -/
def isRetryable : Thrown → Bool
  | .driver err => err.code.any (· ∈ ["40001", "40P01"])
  | _ => false

def answer : Thrown → HttpError
  | .edgeBase err => err
  | .driver err => err.answer
  | .aggregate => Worker.unhandled

end Thrown

/-- The way to the database: the statements that fail on it, the `code` that the driver gives to
the errors of the engine, and whether it is the sidecar of local development. -/
structure Link where
  fault : ℕ → Option DriverError
  code : HttpError → Option String
  localDev : Bool := false

/-- The connection of a link; `25P02` refuses the statements of an aborted transaction. -/
def Link.connection (link : Link) : Connection Thrown where
  fault n := (link.fault n).map .driver
  refusal := .driver ⟨some "25P02", Worker.unhandled⟩

/-- An error of the engine, as the driver throws it. -/
def Link.thrown (link : Link) (err : HttpError) : Thrown := .driver ⟨link.code err, err⟩

inductive ChangeType where
  | added
  | modified
  | removed
  deriving DecidableEq

structure LiveChange where
  table : String
  type : ChangeType
  docId : String
  data : Option Row
  deriving DecidableEq

/-- A handler: its session holds the tables, its own state is the number of ids generated, and it
logs the live events, the changes of a table at a time. -/
abbrev PgHandler := Audited (Session Tables ℕ) (String × List LiveChange) Thrown

/-- An expression whose error is an `EdgeBaseError`. -/
def answering {α : Type} (x : Except HttpError α) : PgHandler α := .lift (x.mapError .edgeBase)

/-- Throws an `EdgeBaseError` unless a condition holds. -/
def insist (c : Prop) [Decidable c] (err : HttpError) : PgHandler Unit := .check c (.edgeBase err)

/-- What a write gives: the rows, if it has a `RETURNING` clause, and `rowCount`. -/
structure QueryResult where
  rows : List Row
  rowCount : ℕ

variable (env : Env) (link : Link) (config : TableConfig) (caller : Caller)

/-- `query` of a `SELECT`. -/
def select (q : Select) : PgHandler (List Row) :=
  Session.exec link.connection fun tables =>
    match env.engine.select q ((tables.lookup q.table).getD []) with
    | .ok rows => .ok (rows, tables)
    | .error err => .error (link.thrown err)

/-- `query` of a write, with a `RETURNING` clause or without. -/
def write (w : Statement) (returning : Bool) : PgHandler QueryResult :=
  Session.exec link.connection fun tables =>
    let rows := (tables.lookup w.table).getD []
    match env.engine.writeFault w rows with
    | some err => .error (link.thrown err)
    | none =>
      let returned := env.engine.returning rows w
      .ok (⟨if returning then returned else [], returned.length⟩,
        Assoc.set tables w.table (env.engine.exec rows w))

/-! ### Values -/

/-- `serializePgJsonFields`, on one field. -/
def serializePgField (effective : EffectiveSchema) (b : String × Json) : Json :=
  match (effective.lookup b.1).map SchemaField.type, b.2 with
  | some .json, .null => .null
  | some .json, .str s => .str s
  | some .json, v => .str (env.stringify v)
  | _, v => v

/-- `filterToPgSchemaColumns` and `serializePgJsonFields`. -/
def toColumns (effective : EffectiveSchema) (data : Row) : Row :=
  (Assoc.restrict effective.has data).map fun b => (b.1, serializePgField env effective b)

def preparePgInsertData (body : Row) : PgHandler Row := do
  let id ← Session.onClient fun generated => recordId env generated body
  let effective := buildEffectiveSchema config.schema
  pure (toColumns env effective (buildRecord env effective body id))

def preparePgUpdateData (body : Row) : Row :=
  let effective := buildEffectiveSchema config.schema
  toColumns env effective
    (Assoc.restrict (fun k => k ≠ "id" ∧ k ≠ "createdAt")
      (stampNow env effective body "updatedAt"))

/-- `String(row.id ?? '')`. -/
def docId (row : Row) : String :=
  match row.lookup "id" with
  | none | some .null => ""
  | some v => env.stringOf v

def postgresValidationMessage (context tableName : String) : String :=
  s!"Validation failed for {context} on table '{tableName}'. See data for field-level errors."

/-! ### `/batch` -/

/-- The body of `/batch`; `items` is an old name of `inserts`. -/
structure BatchBody where
  inserts : Option (List Row) := none
  items : Option (List Row) := none
  updates : Option (List BatchUpdate) := none
  deletes : Option (List String) := none

namespace BatchBody

def insertList (b : BatchBody) : List Row := (b.inserts.or b.items).getD []

def totalOps (b : BatchBody) : ℕ :=
  b.insertList.length + (b.updates.getD []).length + (b.deletes.getD []).length

end BatchBody

/-- What the operations of a request push: the rows of the answer and the live changes. -/
abbrev Pushed := List Row × List LiveChange

/-- The validation of an entry of `updates`. -/
def checkBatchUpdate (name : String) (entry : BatchUpdate) : Except HttpError (String × Row) := do
  let id ← required (entry.id.filter (· ≠ ""))
    s!"Each batch update entry for table '{name}' must include an id."
  let data ← required entry.data
    s!"Each batch update entry for table '{name}' must include a data object."
  validBody (validateUpdate env data config.schema) (postgresValidationMessage "batch update" name)
  .ok (id, data)

/-- The checks of a `/batch` request before the transaction; the updates that it asks for. -/
def checkBatch (name : String) (body : BatchBody) : Except HttpError (List (String × Row)) := do
  if body.totalOps > maxOperations then
    .error ⟨400, s!"Batch limit exceeded: {body.totalOps} operations (max {maxOperations})."⟩
  else
    body.insertList.forM fun item =>
      validBody (validateInsert env item config.schema)
        (postgresValidationMessage "batch insert" name)
    let updates ← (body.updates.getD []).mapM (checkBatchUpdate env config name)
    if body.insertList ≠ [] ∧ !evalInsertRule (Worker.activeInsertRule config caller) caller.auth then
      .error ⟨403, ruleRejectedMessage name "insert" ""⟩
    else .ok updates

/-- The row rule of an entry of `/batch`, on the current row; there need not be one. -/
def checkBatchRule (name : String) (op : RowOp) (action id : String) : PgHandler Unit :=
  if (Worker.activeRule config op caller).isNone then pure ()
  else do
    let current ← select env link (buildGetQuery name id [])
    insist (current.head?.all (evalRowRule (Worker.activeRule config op caller) caller.auth))
      ⟨403, ruleRejectedMessage name action ""⟩

/-- An insert of `/batch`, or an upsert with a conflict target. -/
def batchInsert (name : String) (upsert : Option String) (item : Row) : PgHandler Pushed := do
  let data ← preparePgInsertData env config item
  let result ← write env link (storeStatement name data upsert) true
  let row := result.rows.head?.map stripInternalPgFields
  pure (row.toList, row.toList.map fun row => ⟨name, .added, docId env row, some row⟩)

/-- An update of `/batch`; without a column to set it gives the current row. -/
def batchUpdate (name : String) (entry : String × Row) : PgHandler Pushed := do
  checkBatchRule env link config caller name .update "update" entry.1
  let data := preparePgUpdateData env config entry.2
  let missing := Assoc.merge [("id", .str entry.1)] entry.2
  if data.isEmpty then
    let current ← select env link (buildGetQuery name entry.1 [])
    pure ([(current.head?.map stripInternalPgFields).getD missing], [])
  else
    let clauses ← answering (parseUpdateBody env data)
    let updated ← write env link (.update name clauses [entry.1]) true
    let row := updated.rows.head?.map stripInternalPgFields
    let change (row : Row) : LiveChange := ⟨name, .modified,
      if (row.lookup "id").all (· = .null) then entry.1 else docId env row, some row⟩
    pure ([row.getD missing], row.toList.map change)

/-- A deletion of `/batch`. -/
def batchDelete (name id : String) : PgHandler Pushed := do
  checkBatchRule env link config caller name .delete "delete" id
  let deleted ← write env link (.delete name [id]) true
  pure ([], if deleted.rows.isEmpty then [] else [⟨name, .removed, id, none⟩])

/-- What the transaction of `/batch` gives. -/
structure BatchDone where
  inserted : List Row
  updated : List Row
  liveChanges : List LiveChange

/-- The operations of `/batch`, inside its transaction. -/
def batchOperations (name : String) (upsert : Option String) (body : BatchBody)
    (updates : List (String × Row)) : PgHandler BatchDone := do
  let inserted ← Audited.forEach (batchInsert env link config name upsert) body.insertList
  let updated ← Audited.forEach (batchUpdate env link config caller name) updates
  let deleted ← Audited.forEach (batchDelete env link config caller name) (body.deletes.getD [])
  pure { inserted := (inserted.map Prod.fst).flatten
         updated := (updated.map Prod.fst).flatten
         liveChanges := ((inserted ++ updated ++ deleted).map Prod.snd).flatten }

/-- The answer of `/batch`: its keys mirror those of the request. -/
def batchResults (body : BatchBody) (inserted updated : List Row) : Response where
  body :=
    (if (body.inserts.or body.items).isSome then
      [("inserted", .arr (inserted.map .obj)), ("items", .arr (inserted.map .obj))] else []) ++
    (if body.updates.isSome then [("updated", .arr (updated.map .obj))] else []) ++
    (if body.deletes.isSome then [("deleted", jsonNat (body.deletes.getD []).length)] else [])

/-- The refusal of a transaction through the sidecar. -/
def unsupported (route : String) : HttpError :=
  ⟨501, s!"{route} is not supported through the local dev PostgreSQL sidecar: " ++
    "statements execute on independent connections, so BEGIN/COMMIT cannot span them."⟩

/-- The live events of a request: the changes of every table that it changes. -/
def liveEvents (changes : List LiveChange) : List (String × List LiveChange) :=
  (changes.map LiveChange.table).eraseDups.map fun table =>
    (table, changes.filter (·.table = table))

/-- `handleBatch`; a rollback that fails is left to the end of the session. -/
def handleBatch (name : String) (upsert : Option String) (body : BatchBody) :
    PgHandler Response := do
  let updates ← answering (checkBatch env config caller name body)
  if body.totalOps = 0 then pure (batchResults body [] [])
  else if link.localDev then .fail (.edgeBase (unsupported "batch"))
  else do
    let done ← Session.transaction link.connection id
      (batchOperations env link config caller name upsert body updates)
    .emitAll (liveEvents done.liveChanges)
    pure (batchResults body done.inserted done.updated)

/-! ### Expectations that there is no row -/

def fieldOf (operation : Json) (key : String) : Option Json :=
  ((objectOf operation).getD []).lookup key

/-- `isRecord`. -/
def recordOf : Json → Option Row
  | .obj fields => some fields
  | _ => none

def isRevisionScalar : Json → Bool
  | .arr _ | .obj _ => false
  | _ => true

/-- `exactIdSelfSealingInsert`: some insert stores the missing id. -/
def exactIdSelfSealingInsert (operations : List Json) (negative : Json) : Bool :=
  match fieldOf negative "table", nonEmptyText (fieldOf negative "id") with
  | some (.str table), some id => operations.any fun operation =>
    fieldOf operation "op" = some (.str "insert") &&
      fieldOf operation "table" = some (.str table) &&
      ((fieldOf operation "data").bind recordOf).any fun data => data.lookup "id" = some (.str id)
  | _, _ => false

structure TransactRevisionFence where
  table : String
  id : String
  field : String

def parsedFence (value : Option Json) : Option TransactRevisionFence := do
  let fields ← value.bind recordOf
  let table ← nonEmptyText (fields.lookup "table")
  let id ← nonEmptyText (fields.lookup "id")
  let field ← nonEmptyText (fields.lookup "field")
  if field = "id" then none else some ⟨table, id, field⟩

/-- `equalityValue`: the value that an expectation asks for in a field. -/
def equalityValue (operation : Json) (field : String) : Option Json :=
  match fieldOf operation "where" with
  | some (.arr conditions) => conditions.findSome? fun
    | .arr [name, cmp, v] => if name = .str field ∧ cmp = .str "==" then some v else none
    | _ => none
  | _ => none

/-- Whether an operation is one of a kind on the row that a fence names. -/
def TransactRevisionFence.names (fence : TransactRevisionFence) (kind : String)
    (operation : Json) : Bool :=
  fieldOf operation "op" = some (.str kind) &&
    fieldOf operation "table" = some (.str fence.table) &&
    fieldOf operation "id" = some (.str fence.id)

/-- `actualChangingRevisionFence`: an expectation of a revision comes first, and then an update to
another one. -/
def actualChangingRevisionFence (preceding : List Json) (value : Option Json) : Bool :=
  (parsedFence value).any fun fence =>
    let guard? := preceding.find? fun operation =>
      fence.names "expect" operation && fieldOf operation "exists" = some (.bool true) &&
        (equalityValue operation fence.field).any isRevisionScalar
    (guard?.bind (equalityValue · fence.field)).any fun expected =>
      preceding.any fun operation => fence.names "update" operation &&
        (((fieldOf operation "data").bind recordOf).bind (·.lookup fence.field)).any fun next =>
          isRevisionScalar next && next ≠ expected

def isWriteOp (operation : Json) : Bool :=
  (fieldOf operation "op").any (· ∈ [.str "insert", .str "update", .str "delete"])

def validateNegativeTransactExpectations (operations : List Json) : Except HttpError Unit :=
  let unsealed := operations.zipIdx.any fun (operation, index) =>
    fieldOf operation "op" = some (.str "expect") &&
      fieldOf operation "exists" = some (.bool false) &&
      !exactIdSelfSealingInsert operations operation &&
      !actualChangingRevisionFence (operations.take index) (fieldOf operation "fencedBy")
  if operations.any isWriteOp ∧ unsealed then
    .error ⟨400, "Unsafe transaction shape: expect exists:false in a write transaction requires an exact-ID self-sealing insert or an explicit actual-changing revision fence."⟩
  else .ok ()

/-! ### `/transact` -/

def postgresTransactWriteConflict (operation tableName id : String) : HttpError :=
  ⟨409, s!"Transaction conflict: {operation} target \"{tableName}/{id}\" did not affect exactly one row."⟩

/-- The row rule of an update or delete, on the current row or else an empty one. -/
def checkTransactRule (name : String) (op : RowOp) (action id : String) : PgHandler Unit :=
  if (Worker.activeRule config op caller).isNone then pure ()
  else do
    let current ← select env link (buildGetQuery name id [])
    insist (evalRowRule (Worker.activeRule config op caller) caller.auth (current.headD []))
      ⟨403, ruleRejectedMessage name action ""⟩

/-- An `expect` operation. -/
def transactExpect (full : Bool) (name : String) (id : Option String) (conditions : List Json)
    (present : Bool) : PgHandler Pushed := do
  let conditions ← answering (conditions.mapM (expectCondition env []))
  let filters := (id.map fun id => ⟨"id", "==", .str id⟩).toList ++ conditions
  let probe ← select env link { table := name, conditions := { filters }, limit := some 1 }
  insist (probe.head?.all (evalRowRule (Worker.activeRule config .read caller) caller.auth))
    ⟨403, ruleRejectedMessage name "read" ""⟩
  insist (present → probe ≠ [])
    ⟨409, s!"Transaction expectation failed: expected a matching row in \"{name}\"."⟩
  insist (¬present → probe = [])
    ⟨409, s!"Transaction expectation failed: expected no matching row in \"{name}\"."⟩
  pure (if full then [[("expected", .bool true)]] else [], [])

/-- What a write of a row pushes when the answer or the live events need the row. -/
def pushRow (full : Bool) (result : String) (change : LiveChange) (row : Row) : Pushed :=
  (if full then [[(result, .obj row)]] else [], [change])

/-- An `insert` operation. -/
def transactInsert (full : Bool) (name : String) (item : Row) : PgHandler Pushed := do
  answering (validBody (validateInsert env item config.schema)
    (postgresValidationMessage "transact insert" name))
  let data ← preparePgInsertData env config item
  let needsInsertedRow := full || env.hasDbLiveConsumer
  let inserted ← write env link (.insert name data) needsInsertedRow
  insist (¬full → inserted.rowCount = 1 ∧ (env.hasDbLiveConsumer → inserted.rows.length = 1))
    ⟨409, s!"Transaction conflict: insert into \"{name}\" did not affect exactly one row."⟩
  let row := (inserted.rows.head?.map stripInternalPgFields).getD data
  pure (if needsInsertedRow then
    pushRow full "inserted" ⟨name, .added, docId env row, some row⟩ row else ([], []))

/-- An `update` operation. -/
def transactUpdate (full : Bool) (name id : String) (body : Row) : PgHandler Pushed := do
  answering (validBody (validateUpdate env body config.schema)
    (postgresValidationMessage "transact update" name))
  checkTransactRule env link config caller name .update "update" id
  let data := preparePgUpdateData env config body
  if data.isEmpty then
    let current ← select env link { buildGetQuery name id ["id"] with limit := some 1 }
    insist (current.length = 1) (postgresTransactWriteConflict "update" name id)
    pure (if full then [[("updated", .obj [("id", .str id)])]] else [], [])
  else
    let clauses ← answering (parseUpdateBody env data)
    let needsUpdatedRow := full || env.hasDbLiveConsumer
    let updated ← write env link (.update name clauses [id]) needsUpdatedRow
    insist (updated.rowCount = 1 ∧ (needsUpdatedRow → updated.rows.length = 1))
      (postgresTransactWriteConflict "update" name id)
    let row := stripInternalPgFields (updated.rows.headD [])
    pure (if needsUpdatedRow then pushRow full "updated" ⟨name, .modified, id, some row⟩ row
      else ([], []))

/-- A `delete` operation. -/
def transactDelete (full : Bool) (name id : String) : PgHandler Pushed := do
  checkTransactRule env link config caller name .delete "delete" id
  let deleted ← write env link (.delete name [id]) full
  insist (deleted.rowCount = 1 ∧ (full → deleted.rows.length = 1))
    (postgresTransactWriteConflict "delete" name id)
  pure (if full then [[("deleted", .bool true), ("id", .str id)]] else [],
    if full || env.hasDbLiveConsumer then [⟨name, .removed, id, none⟩] else [])

/-- One pass of the loop over the operations. -/
def transactOp (full : Bool) (op : TransactOp × TableConfig) : PgHandler Pushed :=
  match op.1 with
  | .expect name id conditions present =>
    transactExpect env link op.2 caller full name id conditions present
  | .insert name data => transactInsert env link op.2 full name data
  | .update name id data => transactUpdate env link op.2 caller full name id data
  | .delete name id => transactDelete env link op.2 caller full name id

/-- `executeAttempt`: the results and the live changes of one attempt. -/
def executeAttempt (full : Bool) (ops : List (TransactOp × TableConfig)) : PgHandler Pushed := do
  let pushed ← Audited.forEach (transactOp env link caller full) ops
  pure ((pushed.map Prod.fst).flatten, (pushed.map Prod.snd).flatten)

/-- `POSTGRES_TRANSACT_MAX_ATTEMPTS`. -/
def maxAttempts : ℕ := 3

/-- The answer when the last attempt failed with a retryable error. -/
def conflictPersisted : HttpError :=
  ⟨409, s!"PostgreSQL transaction conflict persisted for {maxAttempts} attempts. Retry the request."⟩

/-- The checks of the operations before the first attempt. -/
def checkTransact (block : DbBlock) (ns : String) (operations : List Json) :
    Except HttpError (List (TransactOp × TableConfig)) := do
  checkOperations operations
  let ops ← operations.mapM (D1.transactOp env block ns)
  validateNegativeTransactExpectations operations
  D1.transactInsertRules caller ops
  .ok ops

/-- `handleTransact`; a rollback that fails is an error of its own. -/
def handleTransact (block : DbBlock) (ns : String) (body : TransactBody) : PgHandler Response :=
  match parseTransactResultMode body.resultMode with
  | none => pure invalidResultMode
  | some full => do
    let ops ← answering (checkTransact env caller block ns body.operations)
    let attempted ← Session.retrying Thrown.isRetryable (.edgeBase conflictPersisted)
      (Session.transaction link.connection (fun _ => .aggregate)
        (executeAttempt env link caller full ops)) maxAttempts
    .emitAll (liveEvents attempted.2)
    pure (transactResponse full ops.length [attempted.1])

/-! ### Requests -/

inductive Write where
  | batch (config : TableConfig) (name : String) (upsert : Option String) (body : BatchBody)
  | transact (block : DbBlock) (ns : String) (body : TransactBody)

/-- `handlePgRequest`, on the requests with a transaction. -/
def handlePgRequest : Write → PgHandler Response
  | .batch config name upsert body => handleBatch env link config caller name upsert body
  | .transact block ns body =>
    if link.localDev then .fail (.edgeBase (unsupported "transact"))
    else handleTransact env link caller block ns body

/-- `withPostgresConnection`: a request on a session of its own, which is closed whatever the
handler does. -/
def serve (w : Write) (tables : Tables) (generated : ℕ) :
    Outcome (Session Tables ℕ) (String × List LiveChange) HttpError Response :=
  let o := handlePgRequest env link caller w { committed := tables, client := generated }
  { result := o.result.mapError Thrown.answer, state := o.state.close, log := o.log }

end PG

end EdgeBase
