import EdgeBase.Access.Pages
import EdgeBase.ObjectWrites

/-!
# What the requests of an object do

One lemma for each handler of the Durable Object: which events it logs, and under which condition
it returns, changes or deletes a row.

* `DatabaseDO.ensures_list` to `DatabaseDO.ensures_transact` : the handlers.
-/

namespace EdgeBase

namespace DatabaseDO

variable {I : Store → Prop} {P : Event → Prop} {d : DatabaseDO} {env : Env} {caller : Caller}
  {name : String}

/-- The invariant survives writes to a table, and the events that no rule guards are allowed. -/
structure Serves (I : Store → Prop) (P : Event → Prop) (d : DatabaseDO) (name : String) :
    Prop where
  generated : ∀ s n, I s → I { s with generated := n }
  rows : ∀ s rows, I s → I (s.setRows name rows)
  opened : P (.opened name (d.getTableConfig name))
  inserted : ∀ record, P (.inserted name record)
  overwritten : ∀ row, P (.overwritten name row)
  probed : ∀ row, P (.probed name row)

/-- The table is there, and its requests may be served. -/
abbrev Opens (I : Store → Prop) (P : Event → Prop) (d : DatabaseDO) (name : String) : Prop :=
  Audited.Ensures I P (fun _ => Serves I P d name) (d.ensureTableExists name)

/-- A row rule that was awaited on a row. -/
def Awaited (d : DatabaseDO) (caller : Caller) (name : String) (op : RowOp) (row : Row) : Prop :=
  evalRowRule (activeRule (d.getTableConfig name) op caller) caller.auth row = true

/-- A row rule that was called on a row and not awaited. -/
def Called (d : DatabaseDO) (caller : Caller) (name : String) (op : RowOp) (row : Row) : Prop :=
  ∃ config, d.getTableConfig name = some config ∧ syncAllows config op caller row = true

/-! ### Reads -/

theorem ensures_checkRows {rule : Option RowRule} {auth : Option AuthContext} {rows : List Row} :
    Audited.Ensures I P (fun _ => ∀ row ∈ rows, evalRowRule rule auth row = true)
      (checkRows env rule auth name rows) := by
  unfold checkRows
  split
  · exact .fail _
  · rename_i hnone
    refine .pure fun row hrow => ?_
    simpa using List.find?_eq_none.1 hnone row hrow

theorem ensures_answer {page : ReadPage} {x : Except HttpError Response}
    (htouched : ∀ row, d.Awaited caller name .read row → P (.touched .read name row)) :
    Audited.Ensures I P (fun _ => True)
      (checkRows env (activeRule (d.getTableConfig name) .read caller) caller.auth name page.rows >>=
        fun _ => .emitAll (page.rows.map (.touched .read name)) >>= fun _ => .lift x) :=
  .bind ensures_checkRows fun _ hall =>
    .bind (.emitAll (List.forall_mem_map.2 fun row hrow => htouched row (hall row hrow)))
      fun _ _ => .lift fun _ _ => trivial

theorem ensures_handleRead (op : ReadOp) (config : TableConfig) (q : PageRequest)
    (hopens : Opens I P d name)
    (htouched : ∀ row, d.Awaited caller name .read row → P (.touched .read name row)) :
    Audited.Ensures I P (fun _ => True) (handleRead op d env config caller name q .do) := by
  have hfetch : Audited.Ensures I P
      (fun fetched => d.getTableConfig name = some config → CleanPage .do env config fetched)
      (fetchPage op d env config name q .do) :=
    ensures_fetchPage .do fun _ => hopens.weaken fun _ hserves => hserves.opened
  rw [handleRead_do]
  refine .bind hfetch fun fetched _ => ?_
  cases fetched with
  | error answer => exact .pure trivial
  | ok page =>
    cases op with
    | list => exact ensures_answer htouched
    | search => exact ensures_answer htouched

theorem ensures_count (hopens : Opens I P d name) (options : QueryOptions) :
    Audited.Ensures I P (fun _ => True) (d.count env name options) :=
  .bind hopens fun _ hserves => .bind (.emit hserves.opened) fun _ _ =>
    .bind (.lift fun _ _ => trivial) fun _ _ => .bind (ensures_runCount env _) fun _ _ =>
      .pure trivial

theorem ensures_get (hopens : Opens I P d name) (id : String) (fields : List String)
    (htouched : ∀ row, d.Awaited caller name .read row → P (.touched .read name row)) :
    Audited.Ensures I P (fun _ => True) (d.get env caller name id fields) := by
  refine .bind hopens fun _ hserves => .bind (ensures_runSelect env _) fun rows _ => ?_
  cases rows with
  | nil => exact .fail _
  | cons row rest =>
    exact .bind (.emit hserves.opened) fun _ _ => .bind (.check _ _)
      fun _ hrule => .bind (.emit (htouched _ hrule)) fun _ _ => .pure trivial

/-! ### Writes of one record -/

theorem ensures_requireConfig :
    Audited.Ensures I P (fun config => d.getTableConfig name = some config)
      (.lift (d.requireConfig name)) := by
  refine .lift fun config hconfig => ?_
  unfold requireConfig required at hconfig
  cases hd : d.getTableConfig name with
  | none => simp [hd] at hconfig
  | some own =>
    rw [hd] at hconfig
    exact congrArg some (Except.ok.inj hconfig)

theorem Serves.opened_some {config : TableConfig} (h : Serves I P d name)
    (hd : d.getTableConfig name = some config) : P (.opened name (some config)) :=
  hd ▸ h.opened

theorem ensures_findExisting {upsert : Option String} {key : Option Json} :
    Audited.Ensures I P (fun _ => True) (findExisting env name upsert key) := by
  unfold findExisting
  split
  · exact ensures_runSelect env _
  · exact .pure trivial

theorem ensures_create (hopens : Opens I P d name) (body : Row) (upsert : Option String) :
    Audited.Ensures I P (fun _ => True) (d.create env caller name body upsert) := by
  refine .bind hopens fun _ hserves => .bind ensures_requireConfig fun config hd =>
    .bind (.emit (hserves.opened_some hd)) fun _ _ => .bind (.lift fun _ _ => trivial) fun _ _ =>
      .bind (.lift fun _ _ => trivial) fun _ _ =>
        .bind (ensures_newRecordId hserves.generated body) fun id _ =>
          .bind (.lift fun _ _ => trivial) fun record _ =>
            .bind ensures_findExisting fun existing _ =>
              .bind (ensures_storeRecord hserves.rows (hserves.inserted _)
                fun _ => hserves.overwritten) fun _ _ =>
                .bind (ensures_runSelect env _) fun rows _ =>
                  .bind (.lift fun _ _ => trivial) fun row _ => ?_
  exact .ite (fun _ => .pure trivial) fun _ => .pure trivial

theorem ensures_patch (hopens : Opens I P d name) (id : String) (body : Row)
    (htouched : ∀ row, d.Awaited caller name .update row → P (.touched .update name row)) :
    Audited.Ensures I P (fun _ => True) (d.patch env caller name id body) := by
  refine .bind hopens fun _ hserves => .bind ensures_requireConfig fun config hd =>
    .bind (.emit (hserves.opened_some hd)) fun _ _ => .bind (.lift fun _ _ => trivial) fun _ _ =>
      .bind (ensures_runSelect env _) fun existing _ => ?_
  cases existing with
  | nil => exact .fail _
  | cons row rest =>
    refine .bind (.check _ _) fun _ hrule => ?_
    refine .bind (.lift fun _ _ => trivial) fun clauses _ => .ite (fun _ => .pure trivial)
      fun _ => .bind (.lift fun _ _ => trivial) fun clauses _ => ?_
    refine .bind (ensures_applyUpdate hserves.rows (List.forall_mem_singleton.2 (htouched row ?_)))
      fun _ _ => .bind (ensures_runSelect env _) fun _ _ => .bind (.lift fun _ _ => trivial)
        fun _ _ => .pure trivial
    rw [Awaited, hd]
    exact hrule

theorem ensures_delete (hopens : Opens I P d name) {id : String}
    (htouched : ∀ row, d.Awaited caller name .delete row → P (.touched .delete name row)) :
    Audited.Ensures I P (fun _ => True) (d.delete env caller name id) := by
  refine .bind hopens fun _ hserves => .bind (.emit hserves.opened) fun _ _ =>
    .bind (ensures_runSelect env _) fun existing _ => ?_
  cases existing with
  | nil => exact .fail _
  | cons row rest =>
    exact .bind (.check _ _) fun _ hrule => .bind (.lift fun _ _ => trivial)
      fun _ _ => .bind (ensures_removeRows hserves.rows
        (List.forall_mem_singleton.2 (htouched row hrule))) fun _ _ => .pure trivial

/-! ### Writes of many records -/

theorem ensures_insertOne (hserves : Serves I P d name) {config : TableConfig} {message : String}
    {upsert : Option String} (item : Row) :
    Audited.Ensures I P (fun _ => True) (insertOne env config name message upsert item) :=
  .bind (.lift fun _ _ => trivial) fun _ _ =>
    .bind (ensures_newRecordId hserves.generated item) fun _ _ =>
      .bind (ensures_storeRecord hserves.rows (hserves.inserted _) fun _ => hserves.overwritten)
        fun _ _ => .pure trivial

theorem ensures_updateOne (hserves : Serves I P d name) {config : TableConfig} {id : String}
    {data : Row} {row : Option Row} (htouched : ∀ r, row = some r → P (.touched .update name r)) :
    Audited.Ensures I P (fun _ => True) (updateOne env config name id data row) :=
  .bind (.lift fun _ _ => trivial) fun _ _ =>
    ensures_applyUpdate hserves.rows fun r hr => htouched r (Option.mem_toList.1 hr)

theorem called_of_head {config : TableConfig} (hd : d.getTableConfig name = some config)
    {op : RowOp} {row : Option Row} (h : row.all (syncAllows config op caller) = true) {r : Row}
    (hr : row = some r) : d.Called caller name op r := by
  subst hr
  exact ⟨config, hd, h⟩

theorem ensures_batchUpdate (hserves : Serves I P d name) {config : TableConfig}
    (hd : d.getTableConfig name = some config) (entry : BatchUpdate)
    (htouched : ∀ row, d.Called caller name .update row → P (.touched .update name row)) :
    Audited.Ensures I P (fun _ => True) (batchUpdate env config caller name entry) :=
  .bind (.lift fun _ _ => trivial) fun _ _ => .bind (.lift fun _ _ => trivial) fun _ _ =>
    .bind (.lift fun _ _ => trivial) fun _ _ => .bind (ensures_runSelect env _) fun _ _ =>
      .bind (.check _ _) fun _ hrule =>
        .bind (ensures_updateOne hserves fun r hr => htouched r (called_of_head hd hrule hr))
          fun _ _ => .bind (ensures_runSelect env _) fun _ _ => .pure trivial

theorem ensures_batchDelete (hserves : Serves I P d name) {config : TableConfig}
    (hd : d.getTableConfig name = some config) (id : String)
    (htouched : ∀ row, d.Called caller name .delete row → P (.touched .delete name row)) :
    Audited.Ensures I P (fun _ => True) (batchDelete env config caller name id) :=
  .bind (ensures_runSelect env _) fun _ _ => .bind (.check _ _) fun _ hrule =>
    ensures_removeRows hserves.rows fun r hr =>
      htouched r (called_of_head hd hrule (Option.mem_toList.1 hr))

theorem ensures_batchBody (hserves : Serves I P d name) {config : TableConfig}
    (hd : d.getTableConfig name = some config) (body : BatchBody) (upsert : Option String)
    (htouched : ∀ op row, d.Called caller name op row → P (.touched op name row)) :
    Audited.Ensures I P (fun _ => True) (batchBody env config caller name body upsert) :=
  .bind (.forEach fun item _ => ensures_insertOne hserves item) fun _ _ =>
    .bind (.forEach fun entry _ => ensures_batchUpdate hserves hd entry (htouched .update))
      fun _ _ => .bind (.forEach fun id _ => ensures_batchDelete hserves hd id (htouched .delete))
        fun _ _ => .pure trivial

/-- `/batch` updates and deletes rows on which the rule was called and not awaited. -/
theorem ensures_batch (hopens : Opens I P d name) (body : BatchBody) (upsert : Option String)
    (htouched : ∀ op row, d.Called caller name op row → P (.touched op name row)) :
    Audited.Ensures I P (fun _ => True) (d.batch env caller name body upsert) :=
  .bind hopens fun _ hserves => .bind ensures_requireConfig fun _ hd =>
    .bind (.emit (hserves.opened_some hd)) fun _ _ => .bind (.lift fun _ _ => trivial) fun _ _ =>
      .bind (.check _ _) fun _ _ => .bind (.check _ _) fun _ _ =>
        .bind (.atomic _ (ensures_batchBody hserves hd body upsert htouched)) fun _ _ =>
          .pure trivial

/-- What the rule check of `/batch-by-filter` lets pass. -/
def Prechecked (d : DatabaseDO) (caller : Caller) (name : String) (op : RowOp) (action : String) :
    Prop :=
  ∃ config, d.getTableConfig name = some config ∧
    d.filterPrecheck config caller name op action = .ok ()

theorem op_of_checkFilterBody {body : FilterBody} {op : RowOp}
    (h : checkFilterBody body = .ok op) : op = .update ∨ op = .delete := by
  unfold checkFilterBody at h
  split_ifs at h
  · exact .inr (Except.ok.inj h).symm
  · exact .inl (Except.ok.inj h).symm

theorem ensures_filterWrite (hserves : Serves I P d name) {config : TableConfig} {op : RowOp}
    (hop : op = .update ∨ op = .delete) {update : Row} {rows : List Row}
    (htouched : ∀ row ∈ rows, P (.touched op name row)) :
    Audited.Ensures I P (fun _ => True) (filterWrite env config name op update rows) := by
  rcases hop with rfl | rfl
  · exact .bind (.lift fun _ _ => trivial) fun _ _ => ensures_applyUpdate hserves.rows htouched
  · exact ensures_removeRows hserves.rows htouched

theorem ensures_filterBody (hserves : Serves I P d name) {config : TableConfig}
    (hd : d.getTableConfig name = some config) {op : RowOp} (hop : op = .update ∨ op = .delete)
    (body : FilterBody) (htouched : ∀ row, d.Called caller name op row → P (.touched op name row)) :
    Audited.Ensures I P (fun _ => True) (filterBody env config caller name op body) := by
  refine .bind (.lift fun _ _ => trivial) fun query _ =>
    .bind (ensures_runSelect env _) fun selected _ => .ite (fun _ => .pure trivial) fun _ =>
      .bind (.check _ _) fun _ _ =>
        .bind (ensures_filterWrite hserves hop fun row hrow => ?_) fun _ _ => .pure trivial
  exact htouched row ⟨config, hd, (List.mem_filter.1 hrow).2⟩

/-- `/batch-by-filter` changes rows on which the rule was called and not awaited, after it was
awaited on an empty row. -/
theorem ensures_batchByFilter (hopens : Opens I P d name) (body : FilterBody)
    (htouched : ∀ op row, d.Prechecked caller name op body.action →
      d.Called caller name op row → P (.touched op name row)) :
    Audited.Ensures I P (fun _ => True) (d.batchByFilter env caller name body) :=
  .bind hopens fun _ hserves => .bind ensures_requireConfig fun config hd =>
    .bind (.emit (hserves.opened_some hd)) fun _ _ => .bind (.lift fun _ hop => hop) fun op hop =>
      .bind (.lift fun _ hcheck => hcheck) fun _ hcheck =>
        .bind (.atomic _ (ensures_filterBody hserves hd (op_of_checkFilterBody hop) body
          fun row => htouched op row ⟨config, hd, hcheck⟩)) fun _ _ => .pure trivial

/-! ### Transactions -/

/-- A resolved operation: its table may be served, and has this declaration. -/
def Resolved (I : Store → Prop) (P : Event → Prop) (d : DatabaseDO)
    (op : TransactOp × TableConfig) : Prop :=
  Serves I P d op.1.table ∧ d.getTableConfig op.1.table = some op.2

theorem ensures_transactTable (op : TransactOp) (hopens : Opens I P d op.table) :
    Audited.Ensures I P (Resolved I P d) (d.transactTable op) :=
  .bind hopens fun _ hserves => .bind ensures_requireConfig fun _ hd =>
    .bind (.emit (hserves.opened_some hd)) fun _ _ => .pure ⟨hserves, hd⟩

theorem ensures_transactRow {config : TableConfig} {full : Bool} {id : String} {op : RowOp} :
    Audited.Ensures I P (fun _ => True) (transactRow env config caller full name id op) :=
  .ite (fun _ => .bind (ensures_runSelect env _) fun _ _ => .pure trivial) fun _ => .read _

theorem ensures_transactExpect (hserves : Serves I P d name) {config : TableConfig} {full : Bool}
    {id : Option String} {conditions : List Json} {present : Bool} :
    Audited.Ensures I P (fun _ => True)
      (transactExpect env config caller full name id conditions present) :=
  .bind (.lift fun _ _ => trivial) fun _ _ => .bind (ensures_runSelect env _) fun _ _ =>
    .bind (.check _ _) fun _ _ =>
      .bind (.emitAll (List.forall_mem_map.2 fun row _ => hserves.probed row)) fun _ _ =>
        .bind (.check _ _) fun _ _ => .bind (.check _ _) fun _ _ => .pure trivial

theorem ensures_transactUpdate (hserves : Serves I P d name) {config : TableConfig}
    (hd : d.getTableConfig name = some config) {full : Bool} {id : String} {data : Row}
    (htouched : ∀ row, d.Called caller name .update row → P (.touched .update name row)) :
    Audited.Ensures I P (fun _ => True) (transactUpdate env config caller full name id data) := by
  refine .bind (.lift fun _ _ => trivial) fun _ _ => .bind ensures_transactRow fun _ _ =>
    .bind (.check _ _) fun _ hrule =>
      .bind (ensures_updateOne hserves fun r hr => htouched r (called_of_head hd hrule hr))
        fun _ _ => .bind (.ite (fun _ => ensures_runSelect env _) fun _ => .pure trivial)
          fun _ _ => .pure trivial

theorem ensures_transactDelete (hserves : Serves I P d name) {config : TableConfig}
    (hd : d.getTableConfig name = some config) {full : Bool} {id : String}
    (htouched : ∀ row, d.Called caller name .delete row → P (.touched .delete name row)) :
    Audited.Ensures I P (fun _ => True) (transactDelete env config caller full name id) :=
  .bind ensures_transactRow fun _ _ => .bind (.check _ _) fun _ hrule =>
    .bind (ensures_removeRows hserves.rows fun r hr =>
      htouched r (called_of_head hd hrule (Option.mem_toList.1 hr))) fun _ _ => .pure trivial

theorem ensures_transactOp {op : TransactOp × TableConfig} (hop : Resolved I P d op) {full : Bool}
    (htouched : ∀ kind row, d.Called caller op.1.table kind row →
      P (.touched kind op.1.table row)) :
    Audited.Ensures I P (fun _ => True) (transactOp env caller full op) := by
  obtain ⟨op, config⟩ := op
  obtain ⟨hserves, hd⟩ := hop
  cases op with
  | insert name data => exact .bind (ensures_insertOne hserves data) fun _ _ => .pure trivial
  | update name id data => exact ensures_transactUpdate hserves hd (htouched .update)
  | delete name id => exact ensures_transactDelete hserves hd (htouched .delete)
  | expect name id conditions present => exact ensures_transactExpect hserves

theorem ensures_transact (hopens : ∀ name, Opens I P d name) (body : TransactBody)
    (htouched : ∀ name op row, d.Called caller name op row → P (.touched op name row)) :
    Audited.Ensures I P (fun _ => True) (d.transact env caller body) := by
  unfold transact
  split
  · exact .pure trivial
  · exact .bind (.lift fun _ _ => trivial) fun _ _ =>
      .bind (.forEach fun op _ => .bind (.lift fun _ _ => trivial) fun op _ =>
        ensures_transactTable op (hopens op.table)) fun ops hops =>
        .bind (.lift fun _ _ => trivial) fun _ _ => .bind (.atomic _ (.forEach fun op hop =>
          ensures_transactOp (hops op hop) (htouched op.1.table))) fun _ _ => .pure trivial

theorem ensures_serve (hopens : ∀ name, Opens I P d name)
    (htouched : ∀ op name row, P (.touched op name row)) (req : Request) :
    Audited.Ensures I P (fun _ => True) (d.serve env caller req) := by
  cases req with
  | list name q =>
    exact ensures_handleRead .list {} q (hopens name) fun row _ => htouched _ _ row
  | search name q =>
    exact ensures_handleRead .search {} q (hopens name) fun row _ => htouched _ _ row
  | count name options => exact ensures_count (hopens name) options
  | get name id fields => exact ensures_get (hopens name) id fields fun row _ => htouched _ _ row
  | create name body upsert => exact ensures_create (hopens name) body upsert
  | patch name id body => exact ensures_patch (hopens name) id body fun row _ => htouched _ _ row
  | delete name id => exact ensures_delete (hopens name) fun row _ => htouched _ _ row
  | batch name body upsert =>
    exact ensures_batch (hopens name) body upsert fun op row _ => htouched op _ row
  | batchByFilter name body =>
    exact ensures_batchByFilter (hopens name) body fun op row _ _ => htouched op _ row
  | transact body => exact ensures_transact hopens body fun name op row _ => htouched op name row

end DatabaseDO

end EdgeBase
