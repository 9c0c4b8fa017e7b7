import EdgeBase.Reads
import EdgeBase.Validation

/-!
# Records and their storage

What the write handlers of the providers share: the record that an insert makes of a body, the
`SET` clauses that an update makes of one, the blocking hooks, and the statements with the log of
the rows that they change.

* `storeRecord`, `applyUpdate`, `removeRows` : the execution of a write.
* `ensures_storeRecord`, `ensures_applyUpdate`, `ensures_removeRows` : what a write changes.
-/

namespace EdgeBase

open Audited

/-- `key in effective`. -/
def EffectiveSchema.has (effective : EffectiveSchema) (key : String) : Bool :=
  (effective.lookup key).isSome

/-! ### Records -/

/-- The number that SQLite stores in a boolean column. -/
def booleanBit (v : Json) : Json :=
  if v ∈ [.bool true, .str "true", .num 1, .str "1"] then .num 1 else .num 0

/-- The stored value of a field: an object of a json field becomes its text. -/
def serializeValue (env : Env) (effective : EffectiveSchema) (b : String × Json) : Json :=
  match (effective.lookup b.1).map SchemaField.type, b.2 with
  | some .json, .arr _ | some .json, .obj _ => .str (env.stringify b.2)
  | some .boolean, .null => .null
  | some .boolean, v => booleanBit v
  | _, v => v

/-- Sets an automatic time stamp, if the schema has the field. -/
def stampNow (env : Env) (effective : EffectiveSchema) (record : Row) (field : String) : Row :=
  if effective.has field then Assoc.set record field (.str env.now) else record

def applyDefault (record : Row) (f : String × SchemaField) : Row :=
  match record.lookup f.1, f.2.default with
  | none, some v => Assoc.set record f.1 v
  | _, _ => record

/-- The record that an insert makes of a body and an id. -/
def buildRecord (env : Env) (effective : EffectiveSchema) (item : Row) (id : Json) : Row :=
  effective.foldl applyDefault
    (["createdAt", "updatedAt"].foldl (stampNow env effective) (Assoc.set item "id" id))

/-- The columns of an inserted record and their values; a schema filters the columns. -/
def insertValues (env : Env) (config : TableConfig) (record : Row) : Row :=
  let effective := buildEffectiveSchema config.schema
  let kept := if config.schema.isNone then record else Assoc.restrict effective.has record
  kept.map fun b => (b.1, serializeValue env effective b)

/-- `body.id || generateId()`. -/
def newRecordId (env : Env) (item : Row) : Handler Json :=
  match (item.lookup "id").filter Json.truthy with
  | some id => pure id
  | none => do
    let n ← .read Store.generated
    .update fun s => { s with generated := s.generated + 1 }
    pure (.str (env.generateId n))

/-- The id of a new record when `n` ids were generated before, and how many are then. -/
def recordId (env : Env) (n : ℕ) (item : Row) : Json × ℕ :=
  match (item.lookup "id").filter Json.truthy with
  | some id => (id, n)
  | none => (.str (env.generateId n), n + 1)

theorem newRecordId_apply (env : Env) (item : Row) (s : Store) :
    newRecordId env item s = ⟨.ok (recordId env s.generated item).1,
      { s with generated := (recordId env s.generated item).2 }, []⟩ := by
  unfold newRecordId recordId
  cases (item.lookup "id").filter Json.truthy with
  | some id => rfl
  | none => rfl

def checkConflictTarget (config : TableConfig) (upsert : Option String) : Except HttpError Unit :=
  match upsert.filter (· ≠ "id") with
  | none => .ok ()
  | some target =>
    match (buildEffectiveSchema config.schema).lookup target with
    | none => .error ⟨400, s!"Field '{target}' does not exist in schema."⟩
    | some field =>
      if field.unique then .ok ()
      else .error ⟨400, s!"Field '{target}' is not unique. conflictTarget must be a unique field."⟩

/-! ### Updates -/

/-- `effective.updatedAt?.onUpdate === 'now'`: sets the time of the update. -/
def touchUpdatedAt (env : Env) (effective : EffectiveSchema) (data : Row) : Row :=
  if (effective.lookup "updatedAt").any SchemaField.onUpdateNow then
    Assoc.set data "updatedAt" (.str env.now)
  else data

/-- The data of an update without the fields that it may not change. -/
def updateData (env : Env) (effective : EffectiveSchema) (body : Row) : Row :=
  touchUpdatedAt env effective (Assoc.restrict (fun k => k ≠ "id" ∧ k ≠ "createdAt") body)

/-- The stored values of an update; operators are kept. -/
def serializeUpdate (env : Env) (effective : EffectiveSchema) (data : Row) : Row :=
  data.map fun b => if (opFields b.2).isSome then b else (b.1, serializeValue env effective b)

/-! ### Hooks -/

def hookRejectedError (env : Env) (message fallback : String) : HttpError :=
  let raw := if isBlank message then fallback else message
  ⟨env.hookStatus raw, raw⟩

/-- What a blocking hook returns; one that throws rejects the request. -/
def runHook (env : Env) (fallback : String) (result : Option HookResult) :
    Except HttpError (Option Row) :=
  match result with
  | none => .ok none
  | some (.returns row) => .ok row
  | some (.throws message) => .error (hookRejectedError env message fallback)

/-- The record after the `beforeInsert` hook. -/
def runBeforeInsert (env : Env) (hooks : TableHooks) (auth : Option AuthContext) (record : Row) :
    Except HttpError Row := do
  let transformed ← runHook env "Insert rejected by beforeInsert hook."
    (hooks.beforeInsert.map fun hook => hook auth record)
  .ok (transformed.elim record (Assoc.merge record))

/-- The clauses of an update after the `beforeUpdate` hook, which may change its data. -/
def runBeforeUpdate (env : Env) (hooks : TableHooks) (auth : Option AuthContext) (row data : Row)
    (clauses : List SetClause) : Except HttpError (List SetClause) := do
  let transformed ← runHook env "Update rejected by beforeUpdate hook."
    (hooks.beforeUpdate.map fun hook => hook auth row data)
  transformed.elim (.ok clauses) fun transformed =>
    parseUpdateBody env (Assoc.restrict (· ≠ "createdAt") (Assoc.merge data transformed))

/-- The `beforeDelete` hook, which may refuse. -/
def runBeforeDelete (env : Env) (hooks : TableHooks) (auth : Option AuthContext) (row : Row) :
    Except HttpError (Option Row) :=
  runHook env "Delete rejected by beforeDelete hook."
    (hooks.beforeDelete.map fun hook => hook auth row)

/-! ### Rules of a write -/

/-- The insert rule that the Durable Object enforces: `rules?.insert && !isServiceKey`. -/
def activeInsertRule (config : Option TableConfig) (caller : Caller) : Option InsertRule :=
  if caller.isServiceKey then none else (insertRule config).filter Rule.truthy

/-- A row rule inside a synchronous transaction: only a function is called, and its result is
tested without awaiting it. -/
def syncAllows (config : TableConfig) (op : RowOp) (caller : Caller) (row : Row) : Bool :=
  caller.isServiceKey || match rowRule (some config) op with
    | some (.fn f) => callSync (f caller.auth row) == some true
    | _ => true

/-! ### Execution -/

def upsertColumns (values : Row) (target : String) : List String :=
  (values.map Prod.fst).filter fun k => k ≠ "id" ∧ k ≠ "createdAt" ∧ k ≠ target

def storeStatement (name : String) (values : Row) (upsert : Option String) : Statement :=
  match upsert with
  | none => .insert name values
  | some target => .upsert name values target (upsertColumns values target)

/-- Stores a record; an upsert has a conflict target and overwrites the row that conflicts. -/
def storeRecord (env : Env) (name : String) (values record : Row) (upsert : Option String) :
    Handler Unit :=
  match upsert with
  | none => do
    runWrite env (.insert name values)
    .emit (.inserted name record)
  | some target => do
    let stored ← .read (·.rows name)
    let columns := upsertColumns values target
    runWrite env (.upsert name values target columns)
    let hit := stored.filter (env.engine.conflicts target values)
    if hit.isEmpty then .emit (.inserted name record)
    else .emitAll (if columns.isEmpty then [] else hit.map (.overwritten name))

/-- Updates some rows, unless there is nothing to set. -/
def applyUpdate (env : Env) (name : String) (clauses : List SetClause) (ids : List String)
    (rows : List Row) : Handler Unit :=
  if clauses.isEmpty then pure ()
  else do
    runWrite env (.update name clauses ids)
    .emitAll (rows.map (.touched .update name))

def removeRows (env : Env) (name : String) (ids : List String) (rows : List Row) :
    Handler Unit := do
  runWrite env (.delete name ids)
  .emitAll (rows.map (.touched .delete name))

section Runs

variable (env : Env) {name : String} {s : Store}

theorem storeRecord_of_fault {values : Row} {upsert : Option String} {err : HttpError}
    (record : Row)
    (h : env.engine.writeFault (storeStatement name values upsert) (s.rows name) = some err) :
    storeRecord env name values record upsert s = ⟨.error err, s, []⟩ := by
  cases upsert with
  | none => exact bind_of_failed_run (runWrite_of_fault env h)
  | some target =>
    rw [storeRecord, read_bind_apply]
    exact bind_of_failed_run (runWrite_of_fault env h)

theorem storeRecord_of_no_fault {values : Row} {upsert : Option String} (record : Row)
    (h : env.engine.writeFault (storeStatement name values upsert) (s.rows name) = none) :
    (storeRecord env name values record upsert s).result = .ok () ∧
      (storeRecord env name values record upsert s).state =
        s.setRows name (env.engine.exec (s.rows name) (storeStatement name values upsert)) := by
  cases upsert with
  | none =>
    have hrun := runWrite_of_no_fault env (w := .insert name values) h
    rw [storeRecord, bind_of_run hrun]
    exact ⟨rfl, rfl⟩
  | some target =>
    have hrun := runWrite_of_no_fault env (w := .upsert name values target _) h
    rw [storeRecord, read_bind_apply, bind_of_run hrun]
    dsimp only
    split <;> exact ⟨rfl, rfl⟩

theorem applyUpdate_of_fault {clauses : List SetClause} {ids : List String} {rows : List Row}
    {err : HttpError} (hclauses : clauses ≠ [])
    (h : env.engine.writeFault (.update name clauses ids) (s.rows name) = some err) :
    applyUpdate env name clauses ids rows s = ⟨.error err, s, []⟩ := by
  rw [applyUpdate, if_neg (by simpa using hclauses)]
  exact bind_of_failed_run (runWrite_of_fault env h)

theorem applyUpdate_of_no_fault {clauses : List SetClause} {ids : List String} (rows : List Row)
    (hclauses : clauses ≠ [])
    (h : env.engine.writeFault (.update name clauses ids) (s.rows name) = none) :
    (applyUpdate env name clauses ids rows s).result = .ok () ∧
      (applyUpdate env name clauses ids rows s).state =
        s.setRows name (env.engine.exec (s.rows name) (.update name clauses ids)) := by
  rw [applyUpdate, if_neg (by simpa using hclauses), bind_of_run (runWrite_of_no_fault env h)]
  exact ⟨rfl, rfl⟩

theorem removeRows_of_fault {ids : List String} {rows : List Row} {err : HttpError}
    (h : env.engine.writeFault (.delete name ids) (s.rows name) = some err) :
    removeRows env name ids rows s = ⟨.error err, s, []⟩ :=
  bind_of_failed_run (runWrite_of_fault env h)

theorem removeRows_of_no_fault {ids : List String} (rows : List Row)
    (h : env.engine.writeFault (.delete name ids) (s.rows name) = none) :
    (removeRows env name ids rows s).result = .ok () ∧ (removeRows env name ids rows s).state =
        s.setRows name (env.engine.exec (s.rows name) (.delete name ids)) := by
  rw [removeRows, bind_of_run (runWrite_of_no_fault env h)]
  exact ⟨rfl, rfl⟩

end Runs

/-! ### What a write changes -/

section Ensures

variable {I : Store → Prop} {P : Event → Prop} {env : Env} {name : String}

theorem ensures_newRecordId (hgenerated : ∀ s n, I s → I { s with generated := n }) (item : Row) :
    Audited.Ensures I P (fun _ => True) (newRecordId env item) := by
  unfold newRecordId
  split
  · exact .pure trivial
  · exact .bind (.read _) fun _ _ =>
      .bind (.update fun s hs => hgenerated s _ hs) fun _ _ => .pure trivial

theorem ensures_storeRecord (hrows : ∀ s rows, I s → I (s.setRows name rows)) {values record : Row}
    {upsert : Option String} (hinserted : P (.inserted name record))
    (hoverwritten : upsert.isSome → ∀ row, P (.overwritten name row)) :
    Audited.Ensures I P (fun _ => True) (storeRecord env name values record upsert) := by
  cases upsert with
  | none => exact .bind (ensures_runWrite hrows env) fun _ _ => .emit hinserted
  | some target =>
    refine .bind (.read _) fun stored _ =>
      .bind (ensures_runWrite hrows env) fun _ _ =>
        .ite (fun _ => .emit hinserted) fun _ => .emitAll fun event hevent => ?_
    split at hevent
    · exact absurd hevent List.not_mem_nil
    · obtain ⟨row, -, rfl⟩ := List.mem_map.1 hevent
      exact hoverwritten rfl row

theorem ensures_applyUpdate (hrows : ∀ s rows, I s → I (s.setRows name rows))
    {clauses : List SetClause} {ids : List String} {rows : List Row}
    (htouched : ∀ row ∈ rows, P (.touched .update name row)) :
    Audited.Ensures I P (fun _ => True) (applyUpdate env name clauses ids rows) :=
  .ite (fun _ => .pure trivial) fun _ => .bind (ensures_runWrite hrows env) fun _ _ =>
    .emitAll (List.forall_mem_map.2 htouched)

theorem ensures_removeRows (hrows : ∀ s rows, I s → I (s.setRows name rows)) {ids : List String}
    {rows : List Row} (htouched : ∀ row ∈ rows, P (.touched .delete name row)) :
    Audited.Ensures I P (fun _ => True) (removeRows env name ids rows) :=
  .bind (ensures_runWrite hrows env) fun _ _ => .emitAll (List.forall_mem_map.2 htouched)

end Ensures

end EdgeBase
