import EdgeBase.Lib.Triple
import EdgeBase.Representation.BatchUpsert

/-!
# What the handlers send to the live subscribers

After a write a handler sends its changes to the subscribers of the table.  The D1 handler sends the
row that it fetched, normalized as a `GET` does.  The Durable Object sends what it has at hand: the
raw row of SQLite, the record of the request, or a normalized row.

* `DatabaseDO.serve_eq`, `D1.serve_eq` : without the changes they are the handlers of before.
-/

namespace EdgeBase

/-- A change that a handler sends.  The data are those of the row that the condition `key` finds in
`rows`, the table when the handler looks, as SQLite gives it or normalized; or `otherwise`. -/
structure Sent where
  table : String
  change : LiveChange
  key : Option FilterTuple := none
  isRaw : Bool := false
  otherwise : Row := []
  rows : List Row := []

def idFilter (id : String) : FilterTuple := ⟨"id", "==", .str id⟩

def removedRow (table id : String) (data : Option Row) : Sent where
  table
  change := { type := .removed, docId := some (.str id), data }

/-- The summary of `/batch-by-filter`, on its action and the number of its rows. -/
def bulkChange (table action : String) (count : ℕ) : Sent where
  table
  change :=
    { type := if action = "delete" then .removed else .modified
      docId := some (.str "_bulk")
      data := some [("action", .str action), ("count", jsonNat count)] }

/-! ### The Durable Object -/

namespace DatabaseDO

variable (d : DatabaseDO) (env : Env)

/-- `POST /tables/:name`: the fetched row as SQLite gave it. -/
def createLive (caller : Caller) (name : String) (body : Row) (upsert : Option String) :
    Handler (Response × List Sent) := do
  d.ensureTableExists name
  let config ← .lift (d.requireConfig name)
  .emit (.opened name (some config))
  .lift (checkConflictTarget config upsert)
  let errors := validateInsert env body config.schema
  .lift (validBody errors (summarizeValidationErrors errors))
  let id ← newRecordId env body
  let record ← .lift (runBeforeInsert env config.hooks caller.auth
    (buildRecord env (buildEffectiveSchema config.schema) body id))
  let target := upsert.getD "id"
  let key := if target = "id" then some id else record.lookup target
  let existing ← findExisting env name upsert key
  storeRecord env name (insertValues env config record) record upsert
  let stored ← .read (·.rows name)
  let rows ← runSelect env (selectBy name target (key.getD .null) none)
  let row ← .lift (normalizeFirst env config s!"/tables/{name}" rows)
  let updated := !existing.isEmpty
  let sent : Sent :=
    { table := name
      change :=
        { type := if updated then .modified else .added
          docId := ((rows.head?.bind (·.lookup "id")).filter (· ≠ .null)).or (some id)
          data := rows.head? }
      key := some ⟨target, "==", key.getD .null⟩
      isRaw := true
      rows := stored }
  if upsert.isSome then
    pure ({ status := if updated then 200 else 201
            body := Assoc.set row "action" (.str (if updated then "updated" else "inserted")) },
      [sent])
  else pure ({ status := 201, body := row }, [sent])

/-- `PATCH /tables/:name/:id` on the stored row: the fetched row as SQLite gave it. -/
def patchRowLive (config : TableConfig) (caller : Caller) (name id : String) (body row : Row) :
    Handler (Response × List Sent) := do
  .check (evalRowRule (activeRule (some config) .update caller) caller.auth row)
    ⟨403, ruleRejectedMessage name "update" id⟩
  let effective := buildEffectiveSchema config.schema
  let data := updateData env effective body
  let data := if config.schema.isSome then Assoc.restrict effective.has data else data
  let data := serializeUpdate env effective data
  let clauses ← .lift (parseUpdateBody env data)
  if clauses.isEmpty then pure ({ body := row }, [])
  else do
    let clauses ← .lift (runBeforeUpdate env config.hooks caller.auth row data clauses)
    applyUpdate env name clauses [id] [row]
    let stored ← .read (·.rows name)
    let rows ← fetchById env name id
    let updated ← .lift (normalizeFirst env config s!"/tables/{name}/{id}" rows)
    pure ({ body := updated },
      [{ table := name
         change := { type := .modified, docId := some (.str id), data := rows.head? }
         key := some (idFilter id)
         isRaw := true
         rows := stored }])

/-- `PATCH /tables/:name/:id`. -/
def patchLive (caller : Caller) (name id : String) (body : Row) :
    Handler (Response × List Sent) := do
  d.ensureTableExists name
  let config ← .lift (d.requireConfig name)
  .emit (.opened name (some config))
  .lift (validBody (validateUpdate env body config.schema) "Validation failed.")
  let existing ← fetchById env name id
  match existing with
  | [] => .fail ⟨404, s!"Record {id} not found."⟩
  | row :: _ => patchRowLive env config caller name id body row

/-- `DELETE /tables/:name/:id`. -/
def deleteLive (caller : Caller) (name id : String) : Handler (Response × List Sent) := do
  d.ensureTableExists name
  let config := d.getTableConfig name
  .emit (.opened name config)
  let existing ← fetchById env name id
  match existing with
  | [] => .fail ⟨404, s!"Record {id} not found."⟩
  | row :: _ => do
    .check (evalRowRule (activeRule config .delete caller) caller.auth row)
      ⟨403, ruleRejectedMessage name "delete" id⟩
    let _ ← .lift (runBeforeDelete env (tableHooks config) caller.auth row)
    removeRows env name [id] [row]
    pure ({ body := [("deleted", .bool true)] }, [removedRow name id (some row)])

/-- The insert of `/batch` and `/transact`: the record of the request. -/
def insertOneLive (config : TableConfig) (name message : String) (upsert : Option String)
    (item : Row) : Handler (Row × Sent) := do
  let record ← insertOne env config name message upsert item
  let stored ← .read (·.rows name)
  pure (record,
    { table := name
      change := { type := .added, docId := record.lookup "id", data := some record }
      otherwise := record
      rows := stored })

/-- An update of `/batch`: the fetched row as SQLite gave it. -/
def batchUpdateLive (config : TableConfig) (caller : Caller) (name : String)
    (entry : BatchUpdate) : Handler (Row × Sent) := do
  let id ← .lift (required (entry.id.filter (· ≠ ""))
    "Each batch update entry must include an id.")
  let data ← .lift (required entry.data "Each batch update entry must include a data object.")
  .lift (validBody (validateUpdate env data config.schema)
    "Batch update request failed validation. See data for field-level errors.")
  let existing ← fetchById env name id
  .check (existing.head?.all (syncAllows config .update caller))
    ⟨403, ruleRejectedMessage name "update" id⟩
  updateOne env config name id data existing.head?
  let stored ← .read (·.rows name)
  let rows ← fetchById env name id
  let row := rows.headD (Assoc.merge [("id", .str id)] data)
  pure (row,
    { table := name
      change := { type := .modified, docId := row.lookup "id", data := some row }
      key := some (idFilter id)
      isRaw := true
      otherwise := Assoc.merge [("id", .str id)] data
      rows := stored })

/-- The transaction of `/batch`. -/
def batchBodyLive (config : TableConfig) (caller : Caller) (name : String) (body : BatchBody)
    (upsert : Option String) : Handler (Row × List Sent) := do
  let inserted ← Audited.forEach
    (insertOneLive env config name
      "Batch insert request failed validation. See data for field-level errors." upsert)
    (body.inserts.getD [])
  let updated ← Audited.forEach (batchUpdateLive env config caller name) (body.updates.getD [])
  let deleted ← Audited.forEach (batchDelete env config caller name) (body.deletes.getD [])
  pure
    ((if body.inserts.isSome then [("inserted", .arr ((inserted.map Prod.fst).map .obj))] else []) ++
      (if body.updates.isSome then [("updated", .arr ((updated.map Prod.fst).map .obj))] else []) ++
      (if body.deletes.isSome then [("deleted", jsonNat deleted.length)] else []),
    inserted.map Prod.snd ++ updated.map Prod.snd ++
      (body.deletes.getD []).map fun id => removedRow name id none)

/-- `POST /tables/:name/batch`. -/
def batchLive (caller : Caller) (name : String) (body : BatchBody) (upsert : Option String) :
    Handler (Response × List Sent) := do
  d.ensureTableExists name
  let config ← .lift (d.requireConfig name)
  .emit (.opened name (some config))
  .lift (checkConflictTarget config upsert)
  .check (body.totalOps ≤ maxOperations)
    ⟨400, s!"Batch limit exceeded: {body.totalOps} operations (max {maxOperations})."⟩
  .check (body.inserts.getD [] = [] ∨
      evalInsertRule (activeInsertRule (some config) caller) caller.auth)
    ⟨403, ruleRejectedMessage name "insert" ""⟩
  let results ← .atomic Event.isWrite (batchBodyLive env config caller name body upsert)
  pure ({ body := results.1 }, results.2)

/-- `POST /tables/:name/batch-by-filter`. -/
def batchByFilterLive (caller : Caller) (name : String) (body : FilterBody) :
    Handler (Response × List Sent) := do
  d.ensureTableExists name
  let config ← .lift (d.requireConfig name)
  .emit (.opened name (some config))
  let op ← .lift (checkFilterBody body)
  .lift (d.filterPrecheck config caller name op body.action)
  let counts ← .atomic Event.isWrite (filterBody env config caller name op body)
  pure ({ body := [("processed", jsonNat counts.1), ("succeeded", jsonNat counts.2)] },
    if 0 < counts.2 then [bulkChange name body.action counts.2] else [])

def keepsChanges (full : Bool) : Bool := full || env.hasDbLiveConsumer

/-- An `insert` operation: the record of the request. -/
def transactInsertLive (config : TableConfig) (full : Bool) (name : String) (data : Row) :
    Handler (List Row × List Sent) := do
  let inserted ← insertOneLive env config name
    s!"Transact insert on \"{name}\" failed validation. See data for field-level errors." none data
  pure (if full then [[("inserted", .obj inserted.1)]] else [],
    if keepsChanges env full then [inserted.2] else [])

/-- An `update` operation: the row, normalized. -/
def transactUpdateLive (config : TableConfig) (caller : Caller) (full : Bool) (name id : String)
    (data : Row) : Handler (List Row × List Sent) := do
  .lift (validBody (validateUpdate env data config.schema)
    s!"Transact update on \"{name}\" failed validation. See data for field-level errors.")
  let row ← transactRow env config caller full name id .update
  .check (row.all (syncAllows config .update caller)) ⟨403, ruleRejectedMessage name "update" id⟩
  updateOne env config name id data row
  let stored ← .read (·.rows name)
  let rows ← observedRow env full name id
  let updated := (rows.head?.map (normalizeRow env · (some config))).getD
    (Assoc.merge [("id", .str id)] data)
  pure (if full then [[("updated", .obj updated)]] else [],
    if row.isSome && keepsChanges env full then
      [{ table := name
         change := { type := .modified, docId := some (.str id), data := some updated }
         key := some (idFilter id)
         otherwise := Assoc.merge [("id", .str id)] data
         rows := stored }]
    else [])

/-- A `delete` operation. -/
def transactDeleteLive (config : TableConfig) (caller : Caller) (full : Bool) (name id : String) :
    Handler (List Row × List Sent) := do
  let row ← transactRow env config caller full name id .delete
  .check (row.all (syncAllows config .delete caller)) ⟨403, ruleRejectedMessage name "delete" id⟩
  removeRows env name [id] row.toList
  pure (if full then [[("deleted", .bool true), ("id", .str id)]] else [],
    if row.isSome && keepsChanges env full then [removedRow name id none] else [])

def transactOpLive (caller : Caller) (full : Bool) (op : TransactOp × TableConfig) :
    Handler (List Row × List Sent) :=
  match op.1 with
  | .expect name id conditions present =>
    (·, []) <$> transactExpect env op.2 caller full name id conditions present
  | .insert name data => transactInsertLive env op.2 full name data
  | .update name id data => transactUpdateLive env op.2 caller full name id data
  | .delete name id => transactDeleteLive env op.2 caller full name id

/-- `POST /transact`. -/
def transactLive (caller : Caller) (body : TransactBody) : Handler (Response × List Sent) :=
  match parseTransactResultMode body.resultMode with
  | none => pure (invalidResultMode, [])
  | some full => do
    .lift (checkOperations body.operations)
    let ops ← Audited.forEach (fun op => do
      let op ← .lift (checkTransactOp env op)
      d.transactTable op) body.operations
    .lift (transactInsertRules caller ops)
    let results ← .atomic Event.isWrite (Audited.forEach (transactOpLive env caller full) ops)
    pure (transactResponse full ops.length (results.map Prod.fst), (results.map Prod.snd).flatten)

def Request.changes (caller : Caller) : Request → Handler (Response × List Sent)
  | .create name body upsert => d.createLive env caller name body upsert
  | .patch name id body => d.patchLive env caller name id body
  | .delete name id => d.deleteLive env caller name id
  | .batch name body upsert => d.batchLive env caller name body upsert
  | .batchByFilter name body => d.batchByFilterLive env caller name body
  | .transact body => d.transactLive env caller body
  | request => (·, []) <$> d.serve env caller request

section Served

variable (d : DatabaseDO) (env : Env) (config : TableConfig) (caller : Caller) (name : String)

theorem create_eq (body : Row) (upsert : Option String) :
    d.create env caller name body upsert = Prod.fst <$> d.createLive env caller name body upsert := by
  simp only [create, createLive, map_bind]
  cases upsert <;> simp

theorem patchRow_eq (id : String) (body row : Row) : patchRow env config caller name id body row =
      Prod.fst <$> patchRowLive env config caller name id body row := by
  simp only [patchRow, patchRowLive, map_bind]
  refine bind_congr fun _ => bind_congr fun clauses => ?_
  split <;> simp [map_bind]

theorem patch_eq (id : String) (body : Row) :
    d.patch env caller name id body = Prod.fst <$> d.patchLive env caller name id body := by
  simp only [patch, patchLive, map_bind]
  refine bind_congr fun _ => bind_congr fun config => bind_congr fun _ => bind_congr fun _ =>
    bind_congr fun existing => ?_
  cases existing with
  | nil => rfl
  | cons row rest => exact patchRow_eq env config caller name id body row

theorem delete_eq (id : String) :
    d.delete env caller name id = Prod.fst <$> d.deleteLive env caller name id := by
  simp only [delete, deleteLive, map_bind]
  refine bind_congr fun _ => bind_congr fun _ => bind_congr fun existing => ?_
  cases existing with
  | nil => rfl
  | cons row rest => simp [map_bind]

theorem insertOne_eq_live (message : String) (upsert : Option String) (item : Row) :
    insertOne env config name message upsert item =
      Prod.fst <$> insertOneLive env config name message upsert item := by
  simp [insertOneLive, map_bind]

theorem batchUpdate_eq (entry : BatchUpdate) : batchUpdate env config caller name entry =
      Prod.fst <$> batchUpdateLive env config caller name entry := by
  simp [batchUpdate, batchUpdateLive, map_bind]

theorem batch_eq (body : BatchBody) (upsert : Option String) :
    d.batch env caller name body upsert = Prod.fst <$> d.batchLive env caller name body upsert := by
  have hbody : ∀ config, batchBody env config caller name body upsert =
      Prod.fst <$> batchBodyLive env config caller name body upsert := by
    intro config
    have hinsert : ∀ message, insertOne env config name message upsert =
        fun item => Prod.fst <$> insertOneLive env config name message upsert item :=
      fun message => funext (insertOne_eq_live env config name message upsert)
    have hupdate : batchUpdate env config caller name =
        fun entry => Prod.fst <$> batchUpdateLive env config caller name entry :=
      funext (batchUpdate_eq env config caller name)
    simp only [batchBody, batchBodyLive, hinsert, hupdate, Audited.forEach_map, map_bind,
      bind_map_left, map_pure]
  simp only [batch, batchLive, hbody, Audited.atomic_map, map_bind, bind_map_left, map_pure]

theorem batchByFilter_eq (body : FilterBody) :
    d.batchByFilter env caller name body = Prod.fst <$> d.batchByFilterLive env caller name body := by
  simp only [batchByFilter, batchByFilterLive, map_bind, map_pure]

theorem transactOp_eq (full : Bool) (op : TransactOp × TableConfig) :
    transactOp env caller full op = Prod.fst <$> transactOpLive env caller full op := by
  obtain ⟨op, config⟩ := op
  cases op with
  | expect => simp [transactOp, transactOpLive]
  | insert name data =>
    simp only [transactOp, transactOpLive, transactInsertLive, insertOne_eq_live, map_bind,
      bind_map_left, map_pure]
  | update name id data =>
    simp [transactOp, transactOpLive, transactUpdate, transactUpdateLive, map_bind]
  | delete name id =>
    simp only [transactOp, transactOpLive, transactDelete, transactDeleteLive, map_bind, map_pure]

theorem transact_eq (body : TransactBody) :
    d.transact env caller body = Prod.fst <$> d.transactLive env caller body := by
  unfold transact transactLive
  cases parseTransactResultMode body.resultMode with
  | none => rfl
  | some full =>
    have hop : transactOp env caller full = fun op => Prod.fst <$> transactOpLive env caller full op :=
      funext (transactOp_eq env caller full)
    simp only [hop, Audited.forEach_map, Audited.atomic_map, map_bind, bind_map_left, map_pure]

theorem serve_eq (request : Request) :
    d.serve env caller request = Prod.fst <$> request.changes d env caller := by
  cases request with
  | create name body upsert => exact d.create_eq env caller name body upsert
  | patch name id body => exact d.patch_eq env caller name id body
  | delete name id => exact d.delete_eq env caller name id
  | batch name body upsert => exact d.batch_eq env caller name body upsert
  | batchByFilter name body => exact d.batchByFilter_eq env caller name body
  | transact body => exact d.transact_eq env caller body
  | _ => simp [Request.changes, serve]

end Served

end DatabaseDO

/-! ### The D1 handler -/

namespace D1

variable (env : Env) (config : TableConfig)

/-- `handleInsert`: the fetched row, normalized. -/
def handleInsertLive (caller : Caller) (name : String) (body : Row) (upsert : Option String) :
    Handler (Response × List Sent) := do
  .check (evalInsertRule (Worker.activeInsertRule config caller) caller.auth)
    ⟨403, ruleRejectedMessage name "insert" ""⟩
  let errors := validateInsert env body config.schema
  .lift (validBody errors (summarizeValidationErrors errors))
  let id ← newRecordId env body
  let effective := buildEffectiveSchema config.schema
  let record ← .lift (runBeforeInsert env config.hooks caller.auth
    (buildRecord env effective body id))
  let data := insertData env config record
  .lift (upsert.elim (.ok ()) (checkTarget effective))
  let existing ← findExisting env name upsert data
  storeInserted env name data upsert
  let key ← .lift (bound (data.lookup (fetchField upsert)))
  let stored ← .read (·.rows name)
  let rows ← runSelect env (selectBy name (fetchField upsert) key (some 1))
  let row := normalizeRow env ((rows.head?.map stripInternalFields).getD data) config
  let updated := !existing.isEmpty
  let sent : Sent :=
    { table := name
      change :=
        { type := if updated then .modified else .added
          docId := some (.str (idText env row))
          data := some row }
      key := some ⟨fetchField upsert, "==", key⟩
      otherwise := normalizeRow env data config
      rows := stored }
  if upsert.isSome then
    pure ({ status := if updated then 200 else 201
            body := Assoc.set row "action" (.str (if updated then "updated" else "inserted")) },
      [sent])
  else pure ({ status := 201, body := row }, [sent])

/-- `handleUpdate` on the stored row: the fetched row, normalized. -/
def updateRowLive (caller : Caller) (name id : String) (body row : Row) :
    Handler (Response × List Sent) := do
  .check (evalRowRule (Worker.activeRule config .update caller) caller.auth row)
    ⟨403, ruleRejectedMessage name "update" id⟩
  let effective := buildEffectiveSchema config.schema
  let body := stampNow env effective body "updatedAt"
  let transformed ← .lift (runHook env "Update rejected by beforeUpdate hook."
    (config.hooks.beforeUpdate.map fun hook => hook caller.auth row body))
  let data := singleUpdateData env effective (transformed.elim body (Assoc.merge body))
  let clauses ← .lift (parseUpdateBody env data)
  if clauses.isEmpty then pure ({ body := row }, [])
  else do
    let hit ← Worker.storedRows name id
    applyUpdate env name clauses [id] [row]
    .check (hit ≠ []) ⟨404, s!"Record '{id}' not found in '{name}'."⟩
    let stored ← .read (·.rows name)
    let rows ← fetchById env name id
    let updated := (rows.head?.map stripInternalFields).getD (Assoc.merge [("id", .str id)] data)
    let row := normalizeRow env updated config
    pure ({ body := row },
      [{ table := name
         change := { type := .modified, docId := some (.str id), data := some row }
         key := some (idFilter id)
         otherwise := normalizeRow env (Assoc.merge [("id", .str id)] data) config
         rows := stored }])

/-- `handleUpdate`. -/
def handleUpdateLive (caller : Caller) (name id : String) (body : Row) :
    Handler (Response × List Sent) := do
  .lift (validBody (validateUpdate env body config.schema)
    s!"Update payload for table '{name}' failed validation. See data for field-level errors.")
  let existing ← fetchById env name id
  match existing with
  | [] => .fail ⟨404, s!"Record '{id}' not found in '{name}'."⟩
  | row :: _ => updateRowLive env config caller name id body row

/-- `handleDelete`. -/
def handleDeleteLive (caller : Caller) (name id : String) : Handler (Response × List Sent) := do
  let existing ← fetchById env name id
  match existing with
  | [] => .fail ⟨404, s!"Record '{id}' not found in '{name}'."⟩
  | row :: _ => do
    .check (evalRowRule (Worker.activeRule config .delete caller) caller.auth row)
      ⟨403, ruleRejectedMessage name "delete" id⟩
    let _ ← .lift (runBeforeDelete env config.hooks caller.auth row)
    removeRows env name [id] [row]
    pure ({ body := [("deleted", .bool true)] },
      [removedRow name id (some (stripInternalFields row))])

/-- Fetches an inserted row, which is sent as a new one. -/
def fetchInsertedLive (name : String) (upsert : Option String) (data : Row) :
    Handler (List (Row × Sent)) := do
  let key ← .lift (bound (data.lookup (fetchField upsert)))
  let stored ← .read (·.rows name)
  let rows ← runSelect env (selectBy name (fetchField upsert) key none)
  pure ((rows.head?.map (clean env config)).toList.map fun row =>
    (row,
      { table := name
        change := { type := .added, docId := some (.str (idText env row)), data := some row }
        key := some ⟨fetchField upsert, "==", key⟩
        rows := stored }))

/-- The inserts of `/batch`, in one `db.batch`. -/
def batchInsertsLive (name : String) (upsert : Option String) (items : List Row) :
    Handler (List (Row × Sent)) := do
  let records ← Audited.forEach (prepareInsert env config) items
  let _ ← .atomic Event.isWrite
    (Audited.forEach (fun data => storeRecord env name data data upsert) records)
  let rows ← Audited.forEach (fetchInsertedLive env config name upsert) records
  pure rows.flatten

/-- `String(row.id ?? id)`. -/
def docIdOf (row : Row) (id : String) : String :=
  match row.lookup "id" with
  | some .null | none => id
  | _ => idText env row

def fetchUpdatedLive (name id : String) (data : Row) : Handler (Row × Sent) := do
  let stored ← .read (·.rows name)
  let rows ← fetchById env name id
  let row := (rows.head?.map (clean env config)).getD (Assoc.merge [("id", .str id)] data)
  pure (row,
    { table := name
      change := { type := .modified, docId := some (.str (docIdOf env row id)), data := some row }
      key := some (idFilter id)
      otherwise := Assoc.merge [("id", .str id)] data
      rows := stored })

/-- An update of `/batch`. -/
def batchUpdateLive (name : String) (entry : String × Row) : Handler (Row × Sent) := do
  let clauses ← .lift (updateClauses env config entry.2)
  let hit ← Worker.storedRows name entry.1
  applyUpdate env name clauses [entry.1] hit
  fetchUpdatedLive env config name entry.1 entry.2

/-- The execution of `/batch`. -/
def batchExecuteLive (name : String) (body : BatchBody) (updates : List (String × Row))
    (upsert : Option String) : Handler (Response × List Sent) := do
  let inserted ← batchInsertsLive env config name upsert (body.inserts.getD [])
  let updated ← Audited.forEach (batchUpdateLive env config name) updates
  let deleted ← Audited.forEach (batchDelete env name) (body.deletes.getD [])
  pure ({ body :=
      (if body.inserts.isSome then [("inserted", .arr ((inserted.map Prod.fst).map .obj))] else []) ++
      (if body.updates.isSome then [("updated", .arr ((updated.map Prod.fst).map .obj))] else []) ++
      (if body.deletes.isSome then [("deleted", jsonNat deleted.length)] else []) },
    inserted.map Prod.snd ++ updated.map Prod.snd ++
      (body.deletes.getD []).map fun id => removedRow name id none)

/-- `handleBatch`. -/
def handleBatchLive (caller : Caller) (name : String) (body : BatchBody) (upsert : Option String) :
    Handler (Response × List Sent) := do
  let updates ← .lift (checkBatch env config caller name body upsert)
  checkBatchRules env config caller name .update "update" (updates.map Prod.fst)
  checkBatchRules env config caller name .delete "delete" (body.deletes.getD [])
  batchExecuteLive env config name body updates upsert

/-- `handleBatchByFilter`. -/
def handleBatchByFilterLive (caller : Caller) (name : String) (body : FilterBody) :
    Handler (Response × List Sent) := do
  let op ← .lift (checkFilterBody body)
  .check (evalRowRule (Worker.activeRule config op caller) caller.auth [])
    ⟨403, ruleRejectedMessage name body.action ""⟩
  let query ← .lift (buildListQuery name (queryOptions config
    { filters := body.filter, orFilters := body.orFilter
      pagination := { limit := some (min (body.limit.getD maxOperations) maxOperations) } }) .sqlite)
  let selected ← runSelect env query.1
  let rows := selected.filter (filterAllows env config caller op)
  if selected.isEmpty then
    pure ({ body := [("processed", jsonNat 0), ("succeeded", jsonNat 0)] }, [])
  else do
    .check (rows ≠ []) ⟨403, ruleRejectedMessage name body.action ""⟩
    filterWrite env config name op (body.update.getD []) rows
    pure ({ body := [("processed", jsonNat selected.length), ("succeeded", jsonNat rows.length)] },
      if 0 < rows.length then [bulkChange name body.action rows.length] else [])

/-- The result of one operation, and the change that carries its row. -/
def buildResultLive : ResultBuilder → Handler (Row × List Sent)
  | .inserted config name id record => do
    let stored ← .read (·.rows name)
    let rows ← runSelect env (selectBy name "id" id none)
    let row := (rows.head?.map (clean env config)).getD (Assoc.merge [("id", id)] record)
    pure ([("inserted", .obj row)],
      [{ table := name
         change := { type := .added, docId := some id, data := some row }
         key := some ⟨"id", "==", id⟩
         otherwise := Assoc.merge [("id", id)] record
         rows := stored }])
  | .updated config name id data => do
    let updated ← fetchUpdatedLive env config name id data
    pure ([("updated", .obj updated.1)],
      [{ updated.2 with change := { updated.2.change with docId := some (.str id) } }])
  | b => (·, []) <$> buildResult env b

/-- A change of a compact transaction, whose row is fetched for the event only. -/
structure PostFetchChange where
  table : String
  config : TableConfig
  type : ChangeType
  id : Json

def ResultBuilder.postFetch : ResultBuilder → Option PostFetchChange
  | .inserted config table id _ => some { table, config, type := .added, id }
  | .updated config table id _ => some { table, config, type := .modified, id := .str id }
  | .expected | .deleted _ => none

/-- `D1_COMPACT_POST_FETCH_CHUNK_SIZE`. -/
def postFetchChunkSize : ℕ := 100

def fetchChunk (table : String) (ids : List Json) : Handler (List Row) := do
  let rows ← runSelect env { table, conditions := { filters := [⟨"id", "in", .arr ids⟩] } }
  pure (rows.map (clean env config))

def rowsById (table : String) (ids : List Json) : Handler (List (String × Row)) := do
  let chunks ← Audited.forEach (fetchChunk env config table) (ids.toChunks postFetchChunkSize)
  pure (chunks.flatten.foldl (fun rows row => Assoc.set rows (idText env row) row) [])

def PostFetchChange.sent (rows : List (String × Row)) (stored : List Row) (change : PostFetchChange) :
    Sent where
  table := change.table
  change :=
    { type := change.type
      docId := some change.id
      data := match change.id with
        | .str id => rows.lookup id
        | _ => none }
  key := some ⟨"id", "==", change.id⟩
  rows := stored

def postFetchRows (table : String) (changes : List PostFetchChange) :
    Handler (String × List (String × Row) × List Row) := do
  let stored ← .read (·.rows table)
  match changes.filter (·.table = table) with
  | [] => pure (table, [], stored)
  | change :: rest => do
    let rows ← rowsById env change.config table
      ((change :: rest).map PostFetchChange.id).eraseDups
    pure (table, rows, stored)

/-- `materializePostFetchChanges`, from the changes to fetch on. -/
def materializePostFetchChanges (changes : List PostFetchChange) : Handler (List Sent) := do
  let fetched ← Audited.forEach (postFetchRows env · changes)
    (changes.map PostFetchChange.table).eraseDups
  pure (changes.map fun change =>
    let rows := (fetched.lookup change.table).getD ([], [])
    change.sent rows.1 rows.2)

def removedChanges (ops : List (TransactOp × TableConfig)) : List Sent :=
  ops.filterMap fun op => match op.1 with
    | .delete name id => some (removedRow name id none)
    | _ => none

/-- The answer and the changes of a transaction that was committed: the removals come first. -/
def answerTransact (full : Bool) (ops : List (TransactOp × TableConfig))
    (builders : List ResultBuilder) : Handler (Response × List Sent) :=
  if full then do
    let results ← Audited.forEach (buildResultLive env) builders
    pure (transactResponse full ops.length [results.map Prod.fst],
      removedChanges ops ++ (results.map Prod.snd).flatten)
  else do
    -- the rows are read in the background, where an error loses all changes
    let changes ← if env.hasDbLiveConsumer then
        .recover (do
          let changes ← materializePostFetchChanges env (builders.filterMap ResultBuilder.postFetch)
          pure (removedChanges ops ++ changes)) fun _ => pure []
      else pure []
    pure (transactResponse full ops.length [[]], changes)

/-- `handleTransact`, while other requests write. -/
def handleTransactLive (block : DbBlock) (ns : String) (caller : Caller) (body : TransactBody)
    (others : ℕ → Interference) : Handler (Response × List Sent) :=
  match parseTransactResultMode body.resultMode with
  | none => pure (invalidResultMode, [])
  | some full => do
    .lift (checkOperations body.operations)
    let ops ← .lift (body.operations.mapM (transactOp env block ns))
    .lift (transactInsertRules caller ops)
    let compiled ← Audited.forEach (fun op => do
      interfere (others op.2)
      compileOp env caller op.1) ops.zipIdx
    interfere (others ops.length)
    runBatch env (compiled.map Prod.fst).flatten
    answerTransact env full ops (compiled.map Prod.snd)

inductive Write where
  | insert (name : String) (body : Row) (upsert : Option String)
  | update (name id : String) (body : Row)
  | delete (name id : String)
  | batch (name : String) (body : BatchBody) (upsert : Option String)
  | batchByFilter (name : String) (body : FilterBody)
  | transact (body : TransactBody) (others : ℕ → Interference)

def requireTable (block : DbBlock) (ns name : String) : Except HttpError TableConfig :=
  (block.table name).elim (.error ⟨404, s!"Table '{name}' not found in database '{ns}'."⟩) .ok

def serve (block : DbBlock) (ns : String) (caller : Caller) : Write → Handler Response
  | .insert name body upsert => do
    let config ← .lift (requireTable block ns name)
    handleInsert env config caller name body upsert
  | .update name id body => do
    let config ← .lift (requireTable block ns name)
    handleUpdate env config caller name id body
  | .delete name id => do
    let config ← .lift (requireTable block ns name)
    handleDelete env config caller name id
  | .batch name body upsert => do
    let config ← .lift (requireTable block ns name)
    handleBatch env config caller name body upsert
  | .batchByFilter name body => do
    let config ← .lift (requireTable block ns name)
    handleBatchByFilter env config caller name body
  | .transact body others => handleTransact env block ns caller body others

/-- The handler of a request, with the changes that it sends. -/
def Write.changes (block : DbBlock) (ns : String) (caller : Caller) :
    Write → Handler (Response × List Sent)
  | .insert name body upsert => do
    let config ← .lift (requireTable block ns name)
    handleInsertLive env config caller name body upsert
  | .update name id body => do
    let config ← .lift (requireTable block ns name)
    handleUpdateLive env config caller name id body
  | .delete name id => do
    let config ← .lift (requireTable block ns name)
    handleDeleteLive env config caller name id
  | .batch name body upsert => do
    let config ← .lift (requireTable block ns name)
    handleBatchLive env config caller name body upsert
  | .batchByFilter name body => do
    let config ← .lift (requireTable block ns name)
    handleBatchByFilterLive env config caller name body
  | .transact body others => handleTransactLive env block ns caller body others

section Served

variable (env : Env) (config : TableConfig) (caller : Caller) (name : String)

theorem handleInsert_eq (body : Row) (upsert : Option String) :
    handleInsert env config caller name body upsert =
      Prod.fst <$> handleInsertLive env config caller name body upsert := by
  simp only [handleInsert, handleInsertLive, map_bind]
  cases upsert <;> simp

theorem updateRow_eq (id : String) (body row : Row) : updateRow env config caller name id body row =
      Prod.fst <$> updateRowLive env config caller name id body row := by
  simp only [updateRow, updateRowLive, map_bind]
  refine bind_congr fun _ => bind_congr fun _ => bind_congr fun clauses => ?_
  split <;> simp [map_bind]

theorem handleUpdate_eq (id : String) (body : Row) : handleUpdate env config caller name id body =
      Prod.fst <$> handleUpdateLive env config caller name id body := by
  simp only [handleUpdate, handleUpdateLive, map_bind]
  refine bind_congr fun _ => bind_congr fun existing => ?_
  cases existing with
  | nil => rfl
  | cons row rest => exact updateRow_eq env config caller name id body row

theorem handleDelete_eq (id : String) : handleDelete env config caller name id =
      Prod.fst <$> handleDeleteLive env config caller name id := by
  simp only [handleDelete, handleDeleteLive, map_bind]
  refine bind_congr fun existing => ?_
  cases existing with
  | nil => rfl
  | cons row rest => simp [map_bind]

theorem fetchInserted_eq (upsert : Option String) (data : Row) :
    fetchInserted env config name upsert data =
      List.map Prod.fst <$> fetchInsertedLive env config name upsert data := by
  simp only [fetchInserted, fetchInsertedLive, map_bind, map_pure, List.map_map]
  refine bind_congr fun key => ?_
  simp [Function.comp_def]

theorem batchInserts_eq (upsert : Option String) (items : List Row) :
    batchInserts env config name upsert items =
      List.map Prod.fst <$> batchInsertsLive env config name upsert items := by
  have hfetch : fetchInserted env config name upsert =
      fun data => List.map Prod.fst <$> fetchInsertedLive env config name upsert data :=
    funext (fetchInserted_eq env config name upsert)
  simp only [batchInserts, batchInsertsLive, hfetch, Audited.forEach_map, map_bind, bind_map_left,
    map_pure, List.map_flatten]

theorem fetchUpdated_eq (id : String) (data : Row) : fetchUpdated env config name id data =
      Prod.fst <$> fetchUpdatedLive env config name id data := by
  simp [fetchUpdated, fetchUpdatedLive, map_bind]

theorem batchUpdate_eq (entry : String × Row) :
    batchUpdate env config name entry = Prod.fst <$> batchUpdateLive env config name entry := by
  simp only [batchUpdate, batchUpdateLive, fetchUpdated_eq, map_bind]

theorem handleBatch_eq (body : BatchBody) (upsert : Option String) :
    handleBatch env config caller name body upsert =
      Prod.fst <$> handleBatchLive env config caller name body upsert := by
  have hupdate : batchUpdate env config name =
      fun entry => Prod.fst <$> batchUpdateLive env config name entry :=
    funext (batchUpdate_eq env config name)
  simp only [handleBatch, handleBatchLive, batchExecute, batchExecuteLive, batchInserts_eq, hupdate,
    Audited.forEach_map, map_bind, bind_map_left, map_pure]

theorem handleBatchByFilter_eq (body : FilterBody) :
    handleBatchByFilter env config caller name body =
      Prod.fst <$> handleBatchByFilterLive env config caller name body := by
  simp only [handleBatchByFilter, handleBatchByFilterLive, map_bind]
  refine bind_congr fun _ => bind_congr fun _ => bind_congr fun _ => bind_congr fun _ => ?_
  split <;> simp [map_bind]

theorem buildResult_eq (b : ResultBuilder) :
    buildResult env b = Prod.fst <$> buildResultLive env b := by
  cases b with
  | inserted config name id record => simp [buildResult, buildResultLive, map_bind]
  | updated config name id data =>
    simp only [buildResult, buildResultLive, fetchUpdated_eq, map_bind, bind_map_left, map_pure]
  | _ => simp [buildResultLive]

theorem silent_runSelect (q : Select) : Audited.Silent (runSelect env q) :=
  .bind (.read _) fun _ => .lift _

theorem silent_materializePostFetchChanges (changes : List PostFetchChange) :
    Audited.Silent (materializePostFetchChanges env changes) := by
  have hrows : ∀ config table ids, Audited.Silent (rowsById env config table ids) :=
    fun config table ids => .bind (.forEach (fun chunk => .bind (silent_runSelect env _)
      fun _ => .pure _) _) fun _ => .pure _
  refine .bind (.forEach (fun table => .bind (.read _) fun stored => ?_) _) fun _ => .pure _
  split
  · exact .pure _
  · exact .bind (hrows _ _ _) fun _ => .pure _

theorem answerTransact_eq (full : Bool) (ops : List (TransactOp × TableConfig))
    (builders : List ResultBuilder) : (do
      let results ← Audited.forEach (buildResult env) (if full then builders else [])
      pure (transactResponse full ops.length [results])) =
      Prod.fst <$> answerTransact env full ops builders := by
  have hbuild : buildResult env = fun b => Prod.fst <$> buildResultLive env b :=
    funext (buildResult_eq env)
  unfold answerTransact
  cases full with
  | true => simp [hbuild, Audited.forEach_map]
  | false =>
    have hsilent := (silent_materializePostFetchChanges env
      (builders.filterMap ResultBuilder.postFetch)).bind
        fun changes => .pure (removedChanges ops ++ changes)
    simp only [Bool.false_eq_true, if_false]
    split
    · rw [map_bind]
      exact (hsilent.map_const_recover [] _).symm
    · rfl

theorem handleTransact_eq (block : DbBlock) (ns : String) (body : TransactBody)
    (others : ℕ → Interference) : handleTransact env block ns caller body others =
      Prod.fst <$> handleTransactLive env block ns caller body others := by
  unfold handleTransact handleTransactLive
  cases parseTransactResultMode body.resultMode with
  | none => rfl
  | some full =>
    simp only [map_bind]
    refine bind_congr fun _ => bind_congr fun ops => bind_congr fun _ => bind_congr fun compiled =>
      bind_congr fun _ => bind_congr fun _ => ?_
    exact answerTransact_eq env full ops (compiled.map Prod.snd)

theorem serve_eq (block : DbBlock) (ns : String) (write : Write) :
    serve env block ns caller write = Prod.fst <$> write.changes env block ns caller := by
  cases write with
  | insert name body upsert => simp only [serve, Write.changes, handleInsert_eq, map_bind]
  | update name id body => simp only [serve, Write.changes, handleUpdate_eq, map_bind]
  | delete name id => simp only [serve, Write.changes, handleDelete_eq, map_bind]
  | batch name body upsert => simp only [serve, Write.changes, handleBatch_eq, map_bind]
  | batchByFilter name body => simp only [serve, Write.changes, handleBatchByFilter_eq, map_bind]
  | transact body others => exact handleTransact_eq env caller block ns body others

end Served

end D1

end EdgeBase
