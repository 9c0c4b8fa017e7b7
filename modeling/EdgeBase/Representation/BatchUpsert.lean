import EdgeBase.Lib.Triple
import EdgeBase.Representation.FieldValues
import Mathlib.Data.List.Pairwise

/-!
# What a batch of upserts reports

`/batch` of the Durable Object answers an upsert with the record that it made of the item, and its
live events and triggers carry that record too, under the id that it gave it and as a new row.
Where the item hit a row that there was, the stored row is another one.

* `batchRecords`, `storeAll` : the records of a batch, and the rows after it.
* `batch_upsert_reports_iff` : when the reports are those of the stored rows.
-/

namespace EdgeBase

open List Option

/-! ### Events and triggers -/

inductive ChangeType where
  | added
  | modified
  | removed
  deriving DecidableEq

structure LiveChange where
  type : ChangeType
  docId : Option Json
  data : Option Row
  deriving DecidableEq

inductive TriggerEvent where
  | insert
  | update
  | delete
  deriving DecidableEq

structure TriggerItem where
  event : TriggerEvent
  before : Option Row := none
  after : Option Row := none
  deriving DecidableEq

def resultRecords (results : Row) (key : String) : List Row :=
  match results.lookup key with
  | some (.arr items) => items.filterMap fun
    | .obj fields => some fields
    | _ => none
  | _ => []

namespace DatabaseDO

/-- The changes of `/batch`, from its results and the ids to delete. -/
def batchChanges (results : Row) (deletes : List String) : List LiveChange :=
  (resultRecords results "inserted").map (fun item => ⟨.added, item.lookup "id", some item⟩) ++
    (resultRecords results "updated").map (fun item => ⟨.modified, item.lookup "id", some item⟩) ++
    deletes.map fun id => ⟨.removed, some (.str id), none⟩

/-- The triggers of `/batch`, from its results, the rows before the updates and those deleted. -/
def batchTriggers (results : Row) (updateBeforeRows : List (String × Row))
    (deletedRows : List Row) : List TriggerItem :=
  (resultRecords results "inserted").map (fun item => { event := .insert, after := some item }) ++
    (resultRecords results "updated").map (fun item =>
      { event := .update
        before := (Row.id item).bind fun id => updateBeforeRows.lookup id
        after := some item }) ++
    deletedRows.map fun row => { event := .delete, before := some row }

end DatabaseDO

/-! ### The run -/

section Run

variable (env : Env) (config : TableConfig) (name target : String)

/-- The record of an item, when `n` ids were generated before. -/
def recordOf (n : ℕ) (item : Row) : Row :=
  buildRecord env (buildEffectiveSchema config.schema) item (recordId env n item).1

def batchRecords (n : ℕ) : List Row → List Row
  | [] => []
  | item :: items => recordOf env config n item :: batchRecords (recordId env n item).2 items

def storeOne (rows : List Row) (values : Row) : List Row :=
  env.engine.exec rows (storeStatement name values (some target))

def storeAll (rows : List Row) (values : List Row) : List Row :=
  values.foldl (storeOne env name target) rows

/-- Whether each of some upserts hits a row that there is when its turn comes. -/
def hits (rows : List Row) : List Row → List Bool
  | [] => []
  | v :: values =>
    rows.any (env.engine.conflicts target v) :: hits (storeOne env name target rows v) values

end Run

section Runs

variable {env : Env} {config : TableConfig} {name target : String} {rows : List Row} {n : ℕ}

/-- The rows of a table, and how many ids were generated. -/
def Holding (name : String) (rows : List Row) (n : ℕ) (s : Store) : Prop :=
  s.rows name = rows ∧ s.generated = n

theorem yields_newRecordId (item : Row) :
    Audited.Yields (Holding name rows n) (newRecordId env item)
      (fun id s => id = (recordId env n item).1 ∧ Holding name rows (recordId env n item).2 s) := by
  rintro s ⟨hrows, rfl⟩ id hid
  rw [newRecordId_apply] at hid ⊢
  obtain rfl := Except.ok.inj hid
  exact ⟨rfl, hrows, rfl⟩

theorem yields_storeRecord (values record : Row) :
    Audited.Yields (Holding name rows n) (storeRecord env name values record (some target))
      (fun _ => Holding name (storeOne env name target rows values) n) := by
  rintro s ⟨rfl, rfl⟩ u hu
  cases hfault : env.engine.writeFault (storeStatement name values (some target)) (s.rows name) with
  | some err =>
    rw [storeRecord_of_fault env record hfault] at hu
    cases hu
  | none =>
    rw [(storeRecord_of_no_fault env record hfault).2]
    exact ⟨Store.rows_setRows .., rfl⟩

theorem yields_insertOne (message : String) (item : Row) : Audited.Yields (Holding name rows n)
      (DatabaseDO.insertOne env config name message (some target) item)
      (fun record s => record = recordOf env config n item ∧ Holding name
          (storeOne env name target rows (insertValues env config (recordOf env config n item)))
          (recordId env n item).2 s) := by
  refine .bind (.lift fun _ _ s hs => hs) fun _ => .bind_of_eq (yields_newRecordId item) ?_
  exact .bind (yields_storeRecord _ _) fun _ => .pure fun s hs => ⟨rfl, hs⟩

theorem yields_insertAll (message : String) (items : List Row) :
    Audited.Yields (Holding name rows n)
      (Audited.forEach (DatabaseDO.insertOne env config name message (some target)) items)
      (fun records s => records = batchRecords env config n items ∧
        s.rows name = storeAll env name target rows
          ((batchRecords env config n items).map (insertValues env config))) := by
  induction items generalizing rows n with
  | nil => exact .pure fun s hs => ⟨rfl, hs.1⟩
  | cons item items ih =>
    refine .bind_of_eq (yields_insertOne message item) (.bind_of_eq ih (.pure ?_))
    exact fun s hs => ⟨rfl, hs⟩

theorem generated_foldl_addTable (names : List String) (s : Store) :
    (names.foldl Store.addTable s).generated = s.generated := by
  induction names generalizing s with
  | nil => rfl
  | cons name names ih =>
    refine (ih _).trans ?_
    unfold Store.addTable
    split <;> rfl

theorem yields_ensureTableExists (d : DatabaseDO) :
    Audited.Yields (Holding name rows n) (d.ensureTableExists name)
      (fun _ => Holding name rows n) := by
  refine .bind (Q := fun _ => Holding name rows n) (.read fun s hs => hs) fun present =>
    .ite (fun _ => .pure fun s hs => hs) fun _ => ?_
  split
  · refine .bind (Q := fun _ => Holding name rows n) (.read fun s hs => hs) fun known =>
      .ite (fun _ => .pure fun s hs => hs) fun _ =>
        .bind (Q := fun _ => Holding name rows n) (.emit fun s hs => hs) fun _ =>
          .update fun s hs => ⟨?_, ?_⟩
    · exact (Store.rows_foldl_addTable ..).trans hs.1
    · exact (generated_foldl_addTable ..).trans hs.2
  · exact .fail _

theorem yields_batch {d : DatabaseDO} (hconfig : d.getTableConfig name = some config)
    (caller : Caller) (items : List Row) :
    Audited.Yields (Holding name rows n)
      (d.batch env caller name { inserts := some items } (some target))
      (fun resp s =>
        resp.body = [("inserted", .arr ((batchRecords env config n items).map .obj))] ∧
        s.rows name = storeAll env name target rows
          ((batchRecords env config n items).map (insertValues env config))) := by
  have hrequire : d.requireConfig name = .ok config := by
    rw [DatabaseDO.requireConfig, hconfig]
    rfl
  refine .bind (yields_ensureTableExists d) fun _ => ?_
  rw [hrequire, Audited.lift_ok_bind]
  refine .bind (Q := fun _ => Holding name rows n) (.emit fun s hs => hs) fun _ =>
    .bind (Q := fun _ => Holding name rows n) (.lift fun _ _ s hs => hs) fun _ =>
      .bind (Q := fun _ => Holding name rows n) (.check fun _ s hs => hs) fun _ =>
        .bind (Q := fun _ => Holding name rows n) (.check fun _ s hs => hs) fun _ =>
          .bind (.atomic _ ?_) fun results => .pure fun s hs => hs
  exact .bind_of_eq (yields_insertAll _ items) (.bind (.pure fun s hs => hs) fun _ =>
    .bind (.pure fun s hs => hs) fun _ => .pure fun s hs => ⟨rfl, hs⟩)

end Runs

/-! ### Batches that hit no row -/

/-- No item has the conflict-target value of a stored row or of an item before it. -/
def Fresh (e : SqlEngine) (name target : String) (rows values : List Row) : Prop :=
  (∀ v ∈ values, ∀ row ∈ rows, e.conflicts target v row = false) ∧
    values.Pairwise fun v w => e.conflicts target w (e.stored name v) = false

section Fresh

variable {env : Env} {name target : String} {rows values : List Row}

theorem storeOne_of_no_hit {v : Row} (h : ∀ row ∈ rows, env.engine.conflicts target v row = false) :
    storeOne env name target rows v = rows ++ [env.engine.stored name v] := by
  have hany : ¬rows.any (env.engine.conflicts target v) = true := by
    simpa using h
  exact if_neg hany

theorem Fresh.cons {v : Row} (h : ∀ row ∈ rows, env.engine.conflicts target v row = false) :
    Fresh env.engine name target rows (v :: values) ↔
      Fresh env.engine name target (rows ++ [env.engine.stored name v]) values := by
  unfold Fresh
  rw [pairwise_cons, forall_mem_cons]
  constructor
  · rintro ⟨⟨-, hall⟩, hv, hpairs⟩
    refine ⟨fun w hw row hrow => ?_, hpairs⟩
    rcases mem_append.1 hrow with hrow | hrow
    · exact hall w hw row hrow
    · rw [mem_singleton.1 hrow]
      exact hv w hw
  · rintro ⟨hall, hpairs⟩
    refine ⟨⟨h, fun w hw row hrow => hall w hw row (mem_append_left _ hrow)⟩,
      fun w hw => hall w hw _ (mem_append_right _ (mem_singleton_self _)), hpairs⟩

theorem storeAll_of_fresh (h : Fresh env.engine name target rows values) :
    storeAll env name target rows values = rows ++ values.map (env.engine.stored name) := by
  induction values generalizing rows with
  | nil => simp [storeAll]
  | cons v values ih =>
    have hv := h.1 v (mem_cons_self ..)
    have hrest := ih ((Fresh.cons hv).1 h)
    rw [storeAll, foldl_cons, storeOne_of_no_hit hv]
    rw [storeAll] at hrest
    simp [hrest]

theorem hits_eq_false_iff : (∀ b ∈ hits env name target rows values, b = false) ↔
      Fresh env.engine name target rows values := by
  induction values generalizing rows with
  | nil => simp [hits, Fresh]
  | cons v values ih =>
    rw [hits, forall_mem_cons]
    constructor
    · rintro ⟨hv, hrest⟩
      have hv : ∀ row ∈ rows, env.engine.conflicts target v row = false := by simpa using hv
      rw [storeOne_of_no_hit hv] at hrest
      exact (Fresh.cons hv).2 (ih.1 hrest)
    · intro h
      have hv := h.1 v (mem_cons_self ..)
      refine ⟨by simpa using hv, ?_⟩
      rw [storeOne_of_no_hit hv]
      exact ih.2 ((Fresh.cons hv).1 h)

theorem length_hits : (hits env name target rows values).length = values.length := by
  induction values generalizing rows with
  | nil => rfl
  | cons v values ih => simp [hits, ih]

end Fresh

/-! ### The reports -/

/-- Equality of JSON objects, whatever the order of their keys. -/
def SameRecord (a b : Row) : Prop := ∀ key, a.lookup key = b.lookup key

/-- An item's report is that of a row as a client reads it: its data, its id, and whether the row
was there. -/
structure Reports (env : Env) (config : TableConfig) (hit : Bool) (row item : Row)
    (change : LiveChange) (trigger : TriggerItem) : Prop where
  inserted : SameRecord item (DatabaseDO.normalizeRow env row (some config))
  type : change.type = if hit then .modified else .added
  docId : change.docId = (DatabaseDO.normalizeRow env row (some config)).lookup "id"
  data : ∃ data, change.data = some data ∧
    SameRecord data (DatabaseDO.normalizeRow env row (some config))
  event : trigger.event = if hit then .update else .insert
  after : ∃ after, trigger.after = some after ∧
    SameRecord after (DatabaseDO.normalizeRow env row (some config))

/-- The i-th report is that of the row which has the conflict-target value of the i-th item after
the batch. -/
def ReportsStored (env : Env) (config : TableConfig) (name target : String)
    (rows values rows' : List Row) (results : Row) : Prop :=
  ∀ (i : ℕ) v, values[i]? = some v → ∃ item change trigger hit row,
    (resultRecords results "inserted")[i]? = some item ∧
    (DatabaseDO.batchChanges results [])[i]? = some change ∧
    (DatabaseDO.batchTriggers results [] [])[i]? = some trigger ∧
    (hits env name target rows values)[i]? = some hit ∧
    row ∈ rows' ∧ env.engine.conflicts target v row = true ∧
    Reports env config hit row item change trigger

/-- What a unique index says about the rows that an insert of values stores. -/
structure UniqueTarget (e : SqlEngine) (name target : String) : Prop where
  /-- The same values conflict with their row, unless the column is `NULL`. -/
  self : ∀ v, e.conflicts target v (e.stored name v) = (v.lookup target).any (· ≠ .null)
  symm : ∀ v w, e.conflicts target v (e.stored name w) = e.conflicts target w (e.stored name v)

section Reported

variable {env : Env} {config : TableConfig} {name target : String} {rows records : List Row}

theorem resultRecords_inserted :
    resultRecords [("inserted", .arr (records.map .obj))] "inserted" = records := by
  simp [resultRecords, filterMap_map]

theorem resultRecords_updated :
    resultRecords [("inserted", .arr (records.map .obj))] "updated" = [] := rfl

theorem eq_stored_of_fresh (htarget : UniqueTarget env.engine name target) {values : List Row}
    (h : Fresh env.engine name target rows values) {v : Row} (hv : v ∈ values) {row : Row}
    (hrow : row ∈ rows ++ values.map (env.engine.stored name))
    (hconflict : env.engine.conflicts target v row = true) : row = env.engine.stored name v := by
  rcases mem_append.1 hrow with hrow | hrow
  · rw [h.1 v hv row hrow] at hconflict
    cases hconflict
  · obtain ⟨w, hw, rfl⟩ := List.mem_map.1 hrow
    by_contra hne
    have hsymm : Std.Symm fun v w =>
        env.engine.conflicts target w (env.engine.stored name v) = false :=
      ⟨fun v w hvw => (htarget.symm v w).trans hvw⟩
    have hwv : w ≠ v := by
      rintro rfl
      exact hne rfl
    rw [h.2.forall hw hv hwv] at hconflict
    cases hconflict

theorem reportsStored_iff (htarget : UniqueTarget env.engine name target) :
    ReportsStored env config name target rows (records.map (insertValues env config))
        (storeAll env name target rows (records.map (insertValues env config)))
        [("inserted", .arr (records.map .obj))] ↔
      Fresh env.engine name target rows (records.map (insertValues env config)) ∧
      ∀ record ∈ records,
        (((insertValues env config record).lookup target).any (· ≠ .null)) = true ∧
        SameRecord record (DatabaseDO.normalizeRow env
          (env.engine.stored name (insertValues env config record)) (some config)) := by
  have hchanges : DatabaseDO.batchChanges [("inserted", .arr (records.map .obj))] [] =
      records.map fun record => ⟨.added, record.lookup "id", some record⟩ := by
    simp [DatabaseDO.batchChanges, resultRecords_inserted, resultRecords_updated]
  have htriggers : DatabaseDO.batchTriggers [("inserted", .arr (records.map .obj))] [] [] =
      records.map fun record => { event := .insert, after := some record } := by
    simp [DatabaseDO.batchTriggers, resultRecords_inserted, resultRecords_updated]
  unfold ReportsStored
  rw [resultRecords_inserted, hchanges, htriggers]
  constructor
  · intro h
    have hat : ∀ (i : ℕ) (hi : i < records.length), ∃ hit row,
        (hits env name target rows (records.map (insertValues env config)))[i]? = some hit ∧
        row ∈ storeAll env name target rows (records.map (insertValues env config)) ∧
        env.engine.conflicts target (insertValues env config records[i]) row = true ∧
        Reports env config hit row records[i] ⟨.added, records[i].lookup "id", some records[i]⟩
          { event := .insert, after := some records[i] } := by
      intro i hi
      obtain ⟨item, change, trigger, hit, row, hitem, hchange, htrigger, hhit, hrow, hconflict,
        hreports⟩ := h i (insertValues env config records[i]) (by simp [hi])
      simp only [List.getElem?_map, List.getElem?_eq_getElem hi, map_some,
        Option.some.injEq] at hitem hchange htrigger
      obtain rfl := hitem
      obtain rfl := hchange
      obtain rfl := htrigger
      exact ⟨hit, row, hhit, hrow, hconflict, hreports⟩
    -- every report says that the row is new
    have hfresh : Fresh env.engine name target rows (records.map (insertValues env config)) := by
      refine hits_eq_false_iff.1 fun b hb => ?_
      obtain ⟨i, hi, rfl⟩ := mem_iff_getElem.1 hb
      obtain ⟨hit, row, hhit, -, -, hreports⟩ := hat i (by simpa [length_hits] using hi)
      rw [List.getElem?_eq_getElem hi] at hhit
      rw [some.inj hhit]
      by_contra hne
      rw [Bool.not_eq_false] at hne
      have htype := hreports.type
      rw [hne] at htype
      cases htype
    refine ⟨hfresh, fun record hrecord => ?_⟩
    obtain ⟨i, hi, rfl⟩ := mem_iff_getElem.1 hrecord
    obtain ⟨hit, row, -, hrow, hconflict, hreports⟩ := hat i hi
    rw [storeAll_of_fresh hfresh] at hrow
    obtain rfl := eq_stored_of_fresh htarget hfresh
      (List.mem_map_of_mem (getElem_mem hi)) hrow hconflict
    rw [htarget.self] at hconflict
    exact ⟨hconflict, hreports.inserted⟩
  · rintro ⟨hfresh, hall⟩ i v hv
    rw [List.getElem?_map, map_eq_some_iff] at hv
    obtain ⟨record, hrecord, rfl⟩ := hv
    have hmem := mem_of_getElem? hrecord
    obtain ⟨htargeted, hsame⟩ := hall record hmem
    have hhit : (hits env name target rows (records.map (insertValues env config)))[i]? =
        some false := by
      obtain ⟨hi, -⟩ := List.getElem?_eq_some_iff.1 hrecord
      have hi : i < (hits env name target rows (records.map (insertValues env config))).length := by
        simpa [length_hits] using hi
      rw [List.getElem?_eq_getElem hi, hits_eq_false_iff.2 hfresh _ (getElem_mem hi)]
    refine ⟨record, ⟨.added, record.lookup "id", some record⟩,
      { event := .insert, after := some record }, false,
      env.engine.stored name (insertValues env config record), hrecord, ?_, ?_, hhit, ?_, ?_,
      hsame, rfl, hsame "id", ⟨record, rfl, hsame⟩, rfl, ⟨record, rfl, hsame⟩⟩
    · rw [List.getElem?_map, hrecord, map_some]
    · rw [List.getElem?_map, hrecord, map_some]
    · rw [storeAll_of_fresh hfresh]
      exact mem_append_right _ (List.mem_map_of_mem (List.mem_map_of_mem hmem))
    · rw [htarget.self, htargeted]

/-- When `/batch` reports the stored rows. -/
theorem batch_upsert_reports_iff {d : DatabaseDO} (hconfig : d.getTableConfig name = some config)
    (htarget : UniqueTarget env.engine name target) {caller : Caller} {items : List Row}
    {s : Store} {resp : Response}
    (hrun : (d.batch env caller name { inserts := some items } (some target) s).result =
      .ok resp) :
    ReportsStored env config name target (s.rows name)
        ((batchRecords env config s.generated items).map (insertValues env config))
        ((d.batch env caller name { inserts := some items } (some target) s).state.rows name)
        resp.body ↔
      Fresh env.engine name target (s.rows name)
        ((batchRecords env config s.generated items).map (insertValues env config)) ∧
      ∀ record ∈ batchRecords env config s.generated items,
        (((insertValues env config record).lookup target).any (· ≠ .null)) = true ∧
        SameRecord record (DatabaseDO.normalizeRow env
          (env.engine.stored name (insertValues env config record)) (some config)) := by
  obtain ⟨hbody, hrows⟩ := yields_batch hconfig caller items s ⟨rfl, rfl⟩ resp hrun
  rw [hbody, hrows]
  exact reportsStored_iff htarget

end Reported

/-! ### Records that are the stored row -/

section Exhibits

/-- The simple database, where `NULL` equals nothing. -/
def nullable : SqlEngine :=
  { SqlEngine.simple with
    holds := fun t r => t.op = "==" ∧ t.value ≠ .null ∧ r.lookup t.field = some t.value }

def nullableEnv : Env := { Env.simple with engine := nullable }

/-- A table with the automatic fields only. -/
def bareConfig : TableConfig := { schema := some [] }

theorem conflicts_nullable (target : String) (v row : Row) :
    nullable.conflicts target v row = true ↔
      ∃ x, x ≠ .null ∧ v.lookup target = some x ∧ row.lookup target = some x := by
  unfold SqlEngine.conflicts
  cases h : v.lookup target with
  | none => simp
  | some x => simp [nullable]

theorem uniqueTarget_nullable (name target : String) : UniqueTarget nullable name target where
  self v := by
    rw [Bool.eq_iff_iff]
    refine (conflicts_nullable target v v).trans ?_
    cases h : v.lookup target <;> simp
  symm v w := by
    rw [Bool.eq_iff_iff]
    refine (conflicts_nullable target v w).trans (Iff.trans ?_ (conflicts_nullable target w v).symm)
    simp only [and_comm]

/-- The upsert of an item with the id `a`. -/
def upsertItem (s : Store) : Outcome Store Event HttpError Response :=
  (DatabaseDO.single "notes" bareConfig).batch nullableEnv { auth := none } "notes"
    { inserts := some [[("id", .str "a")]] } (some "id") s

/-- The row under the id `a` was there. -/
def oldNote : Row := [("id", .str "a"), ("createdAt", .str "2025"), ("updatedAt", .str "2025")]

theorem batch_upsert_reports_new :
    ReportsStored nullableEnv bareConfig "notes" "id" []
      ((batchRecords nullableEnv bareConfig 0 [[("id", .str "a")]]).map
        (insertValues nullableEnv bareConfig))
      ((upsertItem (Store.single "notes" [])).state.rows "notes")
      [("inserted", .arr ((batchRecords nullableEnv bareConfig 0 [[("id", .str "a")]]).map .obj))] := by
  have hrun : (upsertItem (Store.single "notes" [])).result = .ok { body := [("inserted",
      .arr ((batchRecords nullableEnv bareConfig 0 [[("id", .str "a")]]).map .obj))] } := by
    rfl
  have hfresh : Fresh nullable "notes" "id" []
      ((batchRecords nullableEnv bareConfig 0 [[("id", .str "a")]]).map
        (insertValues nullableEnv bareConfig)) := ⟨by decide, by decide⟩
  have hconfig : (DatabaseDO.single "notes" bareConfig).getTableConfig "notes" =
      some bareConfig := rfl
  refine (batch_upsert_reports_iff hconfig (uniqueTarget_nullable "notes" "id") hrun).2
    ⟨hfresh, fun record hrecord => ?_⟩
  obtain rfl := mem_singleton.1 hrecord
  exact ⟨by decide, fun key => rfl⟩

/-- The item hits the old row, and is reported as a new one. -/
theorem batch_upsert_misreports :
    (upsertItem (Store.single "notes" [oldNote])).result = .ok { body := [("inserted",
      .arr ((batchRecords nullableEnv bareConfig 0 [[("id", .str "a")]]).map .obj))] } ∧
    (upsertItem (Store.single "notes" [oldNote])).state.rows "notes" =
      [[("id", .str "a"), ("createdAt", .str "2025"),
        ("updatedAt", .str "2026-01-01T00:00:00.000Z")]] ∧
    ¬ReportsStored nullableEnv bareConfig "notes" "id" [oldNote]
      ((batchRecords nullableEnv bareConfig 0 [[("id", .str "a")]]).map
        (insertValues nullableEnv bareConfig))
      ((upsertItem (Store.single "notes" [oldNote])).state.rows "notes")
      [("inserted", .arr ((batchRecords nullableEnv bareConfig 0 [[("id", .str "a")]]).map .obj))] := by
  refine ⟨rfl, by decide, fun h => ?_⟩
  obtain ⟨item, change, trigger, hit, row, -, hchange, -, hhit, -, -, hreports⟩ := h 0 _ rfl
  obtain rfl := some.inj hchange
  obtain rfl := some.inj hhit
  exact absurd hreports.type (by decide)

end Exhibits

end EdgeBase
