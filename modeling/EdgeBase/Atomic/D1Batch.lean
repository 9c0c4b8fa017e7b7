import EdgeBase.D1Writes
import EdgeBase.Access.Platform

/-!
# The batch of the D1 handler under failing statements

`/batch` promises all or nothing, but the D1 handler executes the inserts in one `db.batch` and the
updates and deletions one by one.  `BatchCase.AllOrNothing` is the promise, over every way in which
statements may fail; `BatchCase.Harmless` is when it is kept.

* `BatchCase.batchAllOrNothing_iff` : a request is all or nothing exactly when nothing that can be
  followed by a failure changes a row.
* `unknownOperator_survives` : an insert survives the refusal of an unknown operator.
-/

namespace EdgeBase

open List Audited D1 Worker Store

/-- Which statements fail on which rows, for whatever reason. -/
structure Faults where
  query : Select → List Row → Option HttpError
  write : Statement → List Row → Option HttpError

/-- The same platform, where other statements fail. -/
def Env.withFaults (env : Env) (f : Faults) : Env :=
  { env with engine := { env.engine with queryFault := f.query, writeFault := f.write } }

/-- A `/batch` request on a table, and the database that it meets. -/
structure BatchCase where
  env : Env
  config : TableConfig
  caller : Caller
  name : String
  body : BatchBody
  upsert : Option String
  store : Store

namespace BatchCase

variable (c : BatchCase)

def run (f : Faults) : Outcome Store Event HttpError Response :=
  D1.handleBatch (c.env.withFaults f) c.config c.caller c.name c.body c.upsert c.store

/-- Whatever statements fail, an answer other than 200 leaves the rows of the table alone. -/
def AllOrNothing : Prop :=
  ∀ f, (∀ r, (c.run f).result = .ok r → r.status ≠ 200) →
    (c.run f).state.rows c.name = c.store.rows c.name

abbrev rows : List Row := c.store.rows c.name

/-- The checks that read no row; the updates that the request asks for. -/
def checked : Except HttpError (List (String × Row)) :=
  D1.checkBatch c.env c.config c.caller c.name c.body c.upsert

/-- The row rule of an operation admits the stored rows with some ids. -/
def Admits (op : RowOp) (ids : List String) : Prop :=
  ∀ id ∈ ids, ((c.env.engine.found (buildGetQuery c.name id []) c.rows).head?.all fun row =>
    evalRowRule (Worker.activeRule c.config op c.caller) c.caller.auth
      (D1.clean c.env c.config row)) = true

/-- The rows that a list of new records stores, when `n` ids were generated before. -/
def records (n : ℕ) : List Row → List Row
  | [] => []
  | item :: items =>
    let id := recordId c.env n item
    insertData c.env c.config
      (buildRecord c.env (buildEffectiveSchema c.config.schema) item id.1) :: records id.2 items

def afterInserts : List Row :=
  ((c.records c.store.generated (c.body.inserts.getD [])).map
    (storeStatement c.name · c.upsert)).foldl c.env.engine.exec c.rows

/-- The update of a row, of which the operators are known, changes nothing. -/
def Idle (entry : String × Row) : Prop :=
  ∀ clauses, updateClauses c.env c.config entry.2 = .ok clauses → clauses ≠ [] →
    c.env.engine.exec c.rows (.update c.name clauses [entry.1]) = c.rows

def parses (entry : String × Row) : Bool := (updateClauses c.env c.config entry.2).isOk

/-- The execution changes nothing before it can fail: neither the inserts, nor the updates up to
the first unknown operator, nor the deletions but the last. -/
structure Quiet (entries : List (String × Row)) : Prop where
  inserts : c.afterInserts = c.rows
  updates : ∀ entry ∈ entries.takeWhile c.parses, c.Idle entry
  deletes : entries.all c.parses → ∀ id ∈ (c.body.deletes.getD []).dropLast,
    c.env.engine.exec c.rows (.delete c.name [id]) = c.rows

/-- The request is refused before it executes, or its execution changes nothing that a failure
could come after. -/
def Harmless : Prop :=
  ∀ updates, c.checked = .ok updates → c.Admits .update (updates.map Prod.fst) →
    c.Admits .delete (c.body.deletes.getD []) → c.Quiet updates

variable {c}

/-! ### The checks -/

theorem ensures_checkBatchRules (f : Faults) (op : RowOp) (action : String) (ids : List String) :
    Audited.Ensures (· = c.store) (fun _ => True) (fun _ => c.Admits op ids)
      (checkBatchRules (c.env.withFaults f) c.config c.caller c.name op action ids) := by
  unfold checkBatchRules
  refine .ite (fun hnone => .pure fun id _ => ?_) fun _ => ?_
  · rw [Option.isNone_iff_eq_none.1 hnone]
    cases (c.env.engine.found (buildGetQuery c.name id []) c.rows).head? <;> rfl
  · refine .bind (.forEach_all fun id _ => ?_) fun _ h => .pure h
    refine .bind (ensures_runSelect_found _ fun s hs => by rw [hs]) fun found hfound => ?_
    subst hfound
    exact .check _ _

theorem succeeds_checkBatchRules {f : Faults} (hquery : ∀ q, f.query q c.rows = none)
    {op : RowOp} {ids : List String} (h : c.Admits op ids) (action : String) :
    Audited.Succeeds (· = c.store) (fun _ => True) (· = c.store)
      (checkBatchRules (c.env.withFaults f) c.config c.caller c.name op action ids) := by
  unfold checkBatchRules
  split
  · exact .pure trivial
  · refine .bind (.forEach fun id hid => ?_) fun _ _ => .pure trivial
    refine .bind (succeeds_runSelect _ (fun s hs => by rw [hs]; rfl) (hquery _)) fun found hfound => ?_
    subst hfound
    exact .check (h id hid) _

/-! ### The inserts -/

theorem forEach_prepareInsert (f : Faults) (items : List Row) (s : Store) :
    ∃ n, Audited.forEach (prepareInsert (c.env.withFaults f) c.config) items s =
      ⟨.ok (c.records s.generated items), { s with generated := n }, []⟩ := by
  induction items generalizing s with
  | nil => exact ⟨s.generated, rfl⟩
  | cons item items ih =>
    have hitem : prepareInsert (c.env.withFaults f) c.config item s =
        ⟨.ok (insertData c.env c.config (buildRecord c.env (buildEffectiveSchema c.config.schema)
          item (recordId c.env s.generated item).1)),
          { s with generated := (recordId c.env s.generated item).2 }, []⟩ := by
      rw [prepareInsert, bind_of_run (newRecordId_apply _ item s)]
      rfl
    obtain ⟨n, hn⟩ := ih { s with generated := (recordId c.env s.generated item).2 }
    refine ⟨n, ?_⟩
    rw [Audited.forEach, bind_of_run hitem, bind_of_run hn]
    rfl

theorem forEach_storeRecord_rows {f : Faults} {records : List Row} {s : Store} {bs : List Unit}
    (h : (Audited.forEach (fun data =>
      storeRecord (c.env.withFaults f) c.name data data c.upsert) records s).result = .ok bs) :
    (Audited.forEach (fun data =>
      storeRecord (c.env.withFaults f) c.name data data c.upsert) records s).state.rows c.name =
      (records.map (storeStatement c.name · c.upsert)).foldl c.env.engine.exec (s.rows c.name) := by
  induction records generalizing s bs with
  | nil => rfl
  | cons data records ih =>
    cases hfault : f.write (storeStatement c.name data c.upsert) (s.rows c.name) with
    | some err =>
      have hrun := storeRecord_of_fault (c.env.withFaults f) data hfault
      rw [Audited.forEach, bind_of_failed_run hrun] at h
      cases h
    | none =>
      obtain ⟨hok, hstate⟩ := storeRecord_of_no_fault (c.env.withFaults f) data hfault
      rw [Audited.forEach, bind_of_ok hok, hstate] at h ⊢
      obtain ⟨bs', hbs, -⟩ := bind_result_ok.1 h
      rw [bind_of_ok hbs]
      refine (ih hbs).trans ?_
      rw [rows_setRows]
      rfl

theorem batchInserts_rows (h : c.afterInserts = c.rows) (f : Faults) :
    (batchInserts (c.env.withFaults f) c.config c.name c.upsert (c.body.inserts.getD [])
      c.store).state.rows c.name = c.rows := by
  obtain ⟨n, hn⟩ := c.forEach_prepareInsert f (c.body.inserts.getD []) c.store
  rw [batchInserts, bind_of_run hn]
  dsimp only
  cases hresult : (Audited.forEach (fun data => storeRecord (c.env.withFaults f) c.name data data
      c.upsert) (c.records c.store.generated (c.body.inserts.getD []))
      { c.store with generated := n }).result with
  | error e =>
    rw [bind_of_failed_run (atomic_of_error hresult _)]
    rfl
  | ok bs =>
    have hrows := forEach_storeRecord_rows hresult
    have hrest : Audited.Ensures (fun s => s.rows c.name = c.rows) (fun _ => True) (fun _ => True)
        (Audited.forEach (fetchInserted (c.env.withFaults f) c.config c.name c.upsert)
          (c.records c.store.generated (c.body.inserts.getD [])) >>= fun rows =>
            pure rows.flatten) :=
      .bind (.forEach (R := fun _ => True) fun _ _ => .bind (.lift fun _ _ => trivial) fun _ _ =>
        .bind (ensures_runSelect _ _) fun _ _ => .pure trivial) fun _ _ => .pure trivial
    rw [bind_of_ok (by rw [atomic_of_ok hresult, hresult]),
      atomic_of_ok hresult]
    exact (hrest _ (hrows.trans h)).1

/-! ### Harmless requests -/

theorem ensures_idleUpdate {f : Faults} {entry : String × Row} (h : c.Idle entry) :
    Audited.Ensures (fun s => s.rows c.name = c.rows) (fun _ => True) (fun _ => True)
      (D1.batchUpdate (c.env.withFaults f) c.config c.name entry) := by
  have happly : ∀ clauses hit, updateClauses c.env c.config entry.2 = .ok clauses →
      Audited.Ensures (fun s => s.rows c.name = c.rows) (fun _ => True) (fun _ => True)
        (applyUpdate (c.env.withFaults f) c.name clauses [entry.1] hit) := by
    intro clauses hit hclauses s hs
    refine ⟨?_, fun _ _ => trivial, fun _ _ => trivial⟩
    by_cases hne : clauses = []
    · subst hne
      exact hs
    · cases hfault : f.write (.update c.name clauses [entry.1]) (s.rows c.name) with
      | some err =>
        rw [applyUpdate_of_fault (c.env.withFaults f) hne hfault]
        exact hs
      | none =>
        rw [(applyUpdate_of_no_fault (c.env.withFaults f) hit hne hfault).2,
          rows_setRows, hs]
        exact h clauses hclauses hne
  exact .bind (.lift fun clauses hclauses => hclauses) fun clauses hclauses =>
    .bind (.read _) fun hit _ => .bind (happly clauses hit hclauses) fun _ _ =>
      .bind (ensures_runSelect _ _) fun _ _ => .pure trivial

/-- The updates of a quiet request change nothing, and succeed only if all operators are known. -/
theorem ensures_updates {f : Faults} {entries : List (String × Row)}
    (h : ∀ entry ∈ entries.takeWhile c.parses, c.Idle entry) :
    Audited.Ensures (fun s => s.rows c.name = c.rows) (fun _ => True)
      (fun _ => entries.all c.parses)
      (Audited.forEach (D1.batchUpdate (c.env.withFaults f) c.config c.name) entries) := by
  induction entries with
  | nil => exact .pure rfl
  | cons entry entries ih =>
    cases hparses : c.parses entry with
    | false =>
      refine .bind (Q := fun _ => False) (.bind (Q := fun _ => False)
        (.lift fun clauses hclauses => ?_) fun _ hfalse => False.elim hfalse)
        fun _ hfalse => False.elim hfalse
      have hok : updateClauses c.env c.config entry.2 = .ok clauses := hclauses
      rw [parses, hok] at hparses
      exact nomatch hparses
    | true =>
      rw [takeWhile_cons, hparses, if_pos rfl] at h
      refine .bind (ensures_idleUpdate (h entry (mem_cons_self ..))) fun _ _ =>
        .bind (ih fun e he => h e (mem_cons_of_mem _ he)) fun _ hall => .pure ?_
      simp [hparses, hall]

theorem batchDelete_rows (f : Faults) (id : String) (s : Store) :
    ((∃ e, (D1.batchDelete (c.env.withFaults f) c.name id s).result = .error e) ∧
        (D1.batchDelete (c.env.withFaults f) c.name id s).state = s) ∨
      ((D1.batchDelete (c.env.withFaults f) c.name id s).result = .ok () ∧
        (D1.batchDelete (c.env.withFaults f) c.name id s).state.rows c.name =
          c.env.engine.exec (s.rows c.name) (.delete c.name [id])) := by
  rw [D1.batchDelete, storedRows, read_bind_apply]
  cases hfault : f.write (.delete c.name [id]) (s.rows c.name) with
  | some err =>
    rw [removeRows_of_fault (c.env.withFaults f) hfault]
    exact .inl ⟨⟨err, rfl⟩, rfl⟩
  | none =>
    obtain ⟨hok, hstate⟩ := removeRows_of_no_fault (c.env.withFaults f)
      ((s.rows c.name).filter fun r => r.id = some id) hfault
    rw [hstate]
    exact .inr ⟨hok, rows_setRows ..⟩

theorem failKeeps_deletes {f : Faults} {ids : List String}
    (h : ∀ id ∈ ids.dropLast, c.env.engine.exec c.rows (.delete c.name [id]) = c.rows) :
    Audited.FailKeeps (fun s => s.rows c.name = c.rows) (fun s => s.rows c.name = c.rows)
      (Audited.forEach (D1.batchDelete (c.env.withFaults f) c.name) ids) := by
  refine .forEach (P := fun _ => True) (R := fun _ => True) (fun id hid s hs => ?_)
    fun id s hs e he => ?_
  · refine ⟨?_, fun _ _ => trivial, fun _ _ => trivial⟩
    obtain ⟨-, hstate⟩ | ⟨-, hrows⟩ := c.batchDelete_rows f id s
    · rw [hstate, hs]
    · rw [hrows, hs, h id hid]
  · obtain ⟨-, hstate⟩ | ⟨hok, -⟩ := c.batchDelete_rows f id s
    · rw [hstate, hs]
    · exact nomatch hok.symm.trans he

theorem failKeeps_batchExecute {f : Faults} {entries : List (String × Row)} (h : c.Quiet entries) :
    Audited.FailKeeps (· = c.store) (fun s => s.rows c.name = c.rows)
      (batchExecute (c.env.withFaults f) c.config c.name c.body entries c.upsert) := by
  intro s hs e he
  obtain rfl := hs
  have hinserts := batchInserts_rows h.inserts f
  rw [batchExecute, bind_apply] at he ⊢
  cases hresult : (batchInserts (c.env.withFaults f) c.config c.name c.upsert
      (c.body.inserts.getD []) c.store).result with
  | error e' => exact hinserts
  | ok inserted =>
    rw [hresult] at he
    have hrest : ∀ answer : List Row → List Unit → Response,
        Audited.FailKeeps (fun s => s.rows c.name = c.rows) (fun s => s.rows c.name = c.rows)
          (Audited.forEach (D1.batchUpdate (c.env.withFaults f) c.config c.name) entries >>=
            fun updated => Audited.forEach (D1.batchDelete (c.env.withFaults f) c.name)
              (c.body.deletes.getD []) >>= fun deleted => pure (answer updated deleted)) :=
      fun answer => .bind (fun _ hs => hs) (ensures_updates h.updates) fun updated hall =>
        (failKeeps_deletes (h.deletes hall)).map _
    exact hrest _ _ hinserts e he

/-- A `/batch` request is answered with 200 or an error. -/
theorem status_run (f : Faults) {r : Response} (h : (c.run f).result = .ok r) : r.status = 200 := by
  have hstatus : Audited.Ensures (fun _ => True) (fun _ => True) (fun r : Response => r.status = 200)
      (D1.handleBatch (c.env.withFaults f) c.config c.caller c.name c.body c.upsert) :=
    .bind (.lift fun _ _ => trivial) fun _ _ => .bind (.triv _) fun _ _ => .bind (.triv _) fun _ _ =>
      .bind (.triv _) fun _ _ => .bind (.triv _) fun _ _ => .bind (.triv _) fun _ _ => .pure rfl
  exact (hstatus c.store trivial).2.2 r h

theorem allOrNothing_of_harmless (h : c.Harmless) : c.AllOrNothing := by
  intro f hanswer
  have hkeeps : Audited.FailKeeps (· = c.store) (fun s => s.rows c.name = c.rows)
      (D1.handleBatch (c.env.withFaults f) c.config c.caller c.name c.body c.upsert) :=
    .bind (P := fun _ => True) (fun s hs => by rw [hs]) (.lift fun updates hupdates => hupdates)
      fun updates hupdates =>
      .bind (fun s hs => by rw [hs]) (ensures_checkBatchRules f _ _ _) fun _ hupdate =>
        .bind (fun s hs => by rw [hs]) (ensures_checkBatchRules f _ _ _) fun _ hdelete =>
          failKeeps_batchExecute (h updates hupdates hupdate hdelete)
  cases hresult : (c.run f).result with
  | error e => exact hkeeps c.store rfl e hresult
  | ok r => exact absurd (status_run f hresult) (hanswer r hresult)

/-! ### Requests that are not -/

variable (c) in
/-- Every query, update and deletion fails once the table is no longer what it was. -/
def late : Faults where
  query _ rows := if rows = c.rows then none else some unhandled
  write w rows := match w with
    | .insert _ _ | .upsert _ _ _ _ => none
    | _ => if rows = c.rows then none else some unhandled

theorem late_storeStatement (data : Row) (rows : List Row) :
    c.late.write (storeStatement c.name data c.upsert) rows = none := by
  cases hupsert : c.upsert <;> rfl

theorem succeeds_lateSelect {q : Select} (hq : q.table = c.name) :
    Audited.Succeeds (fun s => s.rows c.name = c.rows) (fun _ => True)
      (fun s => s.rows c.name = c.rows) (runSelect (c.env.withFaults c.late) q) := by
  intro s hs
  have hfault : c.late.query q (s.rows q.table) = none := if_pos (hq ▸ hs)
  rw [runSelect_of_no_fault (c.env.withFaults c.late) hfault]
  exact ⟨_, rfl, trivial, hs⟩

theorem fails_lateSelect {q : Select} (hq : q.table = c.name) :
    Audited.Fails (fun s => s.rows c.name ≠ c.rows) (fun s => s.rows c.name ≠ c.rows)
      (runSelect (c.env.withFaults c.late) q) := by
  intro s hs
  have hfault : c.late.query q (s.rows q.table) = some unhandled := if_neg (hq ▸ hs)
  rw [runSelect_of_fault (c.env.withFaults c.late) hfault]
  exact ⟨_, rfl, hs⟩

theorem forEach_storeRecord_ok (records : List Row) (s : Store) :
    ∃ bs, (Audited.forEach (fun data =>
      storeRecord (c.env.withFaults c.late) c.name data data c.upsert) records s).result = .ok bs := by
  have hall : Audited.Succeeds (fun _ : Store => True) (fun _ => True) (fun _ => True)
      (Audited.forEach (fun data =>
        storeRecord (c.env.withFaults c.late) c.name data data c.upsert) records) :=
    .forEach fun data _ s _ =>
      ⟨(), (storeRecord_of_no_fault (c.env.withFaults c.late) data
        (late_storeStatement data (s.rows c.name))).1, trivial, trivial⟩
  obtain ⟨bs, hbs, -⟩ := hall s trivial
  exact ⟨bs, hbs⟩

theorem fails_fetchInserted (data : Row) :
    Audited.Fails (fun s => s.rows c.name ≠ c.rows) (fun s => s.rows c.name ≠ c.rows)
      (fetchInserted (c.env.withFaults c.late) c.config c.name c.upsert data) := by
  cases hkey : D1.bound (data.lookup (fetchField c.upsert)) with
  | error e => exact .bind (.lift hkey)
  | ok key => exact .seq (.lift hkey rfl) fun _ _ => .bind (fails_lateSelect rfl)

theorem fails_inserts (h : c.afterInserts ≠ c.rows) :
    Audited.Fails (· = c.store) (fun s => s.rows c.name ≠ c.rows)
      (batchInserts (c.env.withFaults c.late) c.config c.name c.upsert
        (c.body.inserts.getD [])) := by
  intro s hs
  obtain rfl := hs
  obtain ⟨n, hn⟩ := c.forEach_prepareInsert c.late (c.body.inserts.getD []) c.store
  rw [afterInserts] at h
  rw [batchInserts, bind_of_run hn]
  generalize c.records c.store.generated (c.body.inserts.getD []) = records at h
  obtain ⟨bs, hbs⟩ := c.forEach_storeRecord_ok records { c.store with generated := n }
  have hrows := forEach_storeRecord_rows hbs
  rw [bind_of_ok (by rw [atomic_of_ok hbs, hbs]), atomic_of_ok hbs]
  cases records with
  | nil => exact absurd rfl h
  | cons data records => exact (fails_fetchInserted data).bind.bind _ fun heq => h (hrows.symm.trans heq)

theorem length_exec_storeStatement (data : Row) (rows : List Row) :
    rows.length ≤ (c.env.engine.exec rows (storeStatement c.name data c.upsert)).length ∧
      (data.lookup (fetchField c.upsert) = none →
        rows.length < (c.env.engine.exec rows (storeStatement c.name data c.upsert)).length) := by
  cases hupsert : c.upsert with
  | none => simp [storeStatement, SqlEngine.exec]
  | some target =>
    rw [storeStatement, SqlEngine.exec]
    split
    · rename_i hany
      refine ⟨by simp, fun hnone => ?_⟩
      simp [SqlEngine.conflicts, show data.lookup target = none from hnone] at hany
    · simp

theorem length_foldl_storeStatement (records : List Row) (rows : List Row) :
    rows.length ≤ ((records.map (storeStatement c.name · c.upsert)).foldl c.env.engine.exec
        rows).length ∧ ((∃ data ∈ records, data.lookup (fetchField c.upsert) = none) →
        rows.length < ((records.map (storeStatement c.name · c.upsert)).foldl c.env.engine.exec
          rows).length) := by
  induction records generalizing rows with
  | nil => exact ⟨le_rfl, fun ⟨_, h, _⟩ => absurd h not_mem_nil⟩
  | cons data records ih =>
    obtain ⟨hle, hlt⟩ := c.length_exec_storeStatement data rows
    obtain ⟨hle', hlt'⟩ := ih (c.env.engine.exec rows (storeStatement c.name data c.upsert))
    refine ⟨hle.trans hle', fun ⟨d, hd, hnone⟩ => ?_⟩
    rcases mem_cons.1 hd with rfl | hd
    · exact (hlt hnone).trans_le hle'
    · exact hle.trans_lt (hlt' ⟨d, hd, hnone⟩)

theorem succeeds_inserts (h : c.afterInserts = c.rows) :
    Audited.Succeeds (· = c.store) (fun _ => True) (fun s => s.rows c.name = c.rows)
      (batchInserts (c.env.withFaults c.late) c.config c.name c.upsert
        (c.body.inserts.getD [])) := by
  intro s hs
  obtain rfl := hs
  obtain ⟨n, hn⟩ := c.forEach_prepareInsert c.late (c.body.inserts.getD []) c.store
  rw [afterInserts] at h
  rw [batchInserts, bind_of_run hn]
  generalize c.records c.store.generated (c.body.inserts.getD []) = records at h
  obtain ⟨bs, hbs⟩ := c.forEach_storeRecord_ok records { c.store with generated := n }
  have hrows := forEach_storeRecord_rows hbs
  rw [bind_of_ok (by rw [atomic_of_ok hbs, hbs]), atomic_of_ok hbs]
  have hfetch : ∀ data ∈ records, Audited.Succeeds (fun s => s.rows c.name = c.rows)
      (fun _ => True) (fun s => s.rows c.name = c.rows)
      (fetchInserted (c.env.withFaults c.late) c.config c.name c.upsert data) := by
    intro data hdata
    cases hkey : data.lookup (fetchField c.upsert) with
    | none =>
      have hlt := (c.length_foldl_storeStatement records c.rows).2 ⟨data, hdata, hkey⟩
      exact absurd (congrArg List.length h) hlt.ne'
    | some key =>
      exact .bind (Q := fun _ => True) (.lift (a := key) (by rw [hkey]; rfl) trivial) fun _ _ =>
        .bind (succeeds_lateSelect rfl) fun _ _ => .pure trivial
  exact (Audited.Succeeds.forEach hfetch).bind (fun _ _ => .pure trivial) _ (hrows.trans h)

theorem late_update {s : Store} (hs : s.rows c.name = c.rows) (clauses : List SetClause)
    (ids : List String) : c.late.write (.update c.name clauses ids) (s.rows c.name) = none :=
  if_pos hs

theorem succeeds_idleUpdate {entry : String × Row} (hparses : c.parses entry = true)
    (hidle : c.Idle entry) : Audited.Succeeds (fun s => s.rows c.name = c.rows) (fun _ => True)
      (fun s => s.rows c.name = c.rows)
      (D1.batchUpdate (c.env.withFaults c.late) c.config c.name entry) := by
  cases hclauses : updateClauses c.env c.config entry.2 with
  | error e => simp [parses, hclauses, Except.isOk, Except.toBool] at hparses
  | ok clauses =>
    have happly : ∀ hit, Audited.Succeeds (fun s => s.rows c.name = c.rows) (fun _ => True)
        (fun s => s.rows c.name = c.rows)
        (applyUpdate (c.env.withFaults c.late) c.name clauses [entry.1] hit) := by
      intro hit s hs
      by_cases hne : clauses = []
      · subst hne
        exact ⟨(), rfl, trivial, hs⟩
      · obtain ⟨hok, hstate⟩ := applyUpdate_of_no_fault (c.env.withFaults c.late) hit hne
          (late_update hs clauses [entry.1])
        refine ⟨(), hok, trivial, ?_⟩
        dsimp only
        rw [hstate, rows_setRows, hs]
        exact hidle clauses hclauses hne
    refine .bind (.lift hclauses rfl) fun _ heq => ?_
    subst heq
    exact .bind (Q := fun _ => True) (.read fun _ _ => trivial) fun hit _ =>
      .bind (happly hit) fun _ _ => .bind (succeeds_lateSelect rfl) fun _ _ => .pure trivial

theorem fails_batchUpdate {entry : String × Row} (hidle : ¬c.Idle entry) :
    Audited.Fails (fun s => s.rows c.name = c.rows) (fun s => s.rows c.name ≠ c.rows)
      (D1.batchUpdate (c.env.withFaults c.late) c.config c.name entry) := by
  simp only [Idle, not_forall] at hidle
  obtain ⟨clauses, hclauses, hne, hchanged⟩ := hidle
  have happly : ∀ hit, Audited.Succeeds (fun s => s.rows c.name = c.rows) (fun _ => True)
      (fun s => s.rows c.name ≠ c.rows)
      (applyUpdate (c.env.withFaults c.late) c.name clauses [entry.1] hit) := by
    intro hit s hs
    obtain ⟨hok, hstate⟩ := applyUpdate_of_no_fault (c.env.withFaults c.late) hit hne
      (late_update hs clauses [entry.1])
    refine ⟨(), hok, trivial, fun heq => hchanged ?_⟩
    rw [hstate, rows_setRows, hs] at heq
    exact heq
  refine .seq (.lift hclauses rfl) fun _ heq => ?_
  subst heq
  exact .seq (Q := fun _ => True) (.read fun _ _ => trivial) fun hit _ => .seq (happly hit)
    fun _ _ => .bind (fails_lateSelect rfl)

theorem fails_updates {entries : List (String × Row)}
    (h : ∃ entry ∈ entries.takeWhile c.parses, ¬c.Idle entry) :
    Audited.Fails (fun s => s.rows c.name = c.rows) (fun s => s.rows c.name ≠ c.rows)
      (Audited.forEach (D1.batchUpdate (c.env.withFaults c.late) c.config c.name) entries) := by
  induction entries with
  | nil =>
    obtain ⟨_, hmem, -⟩ := h
    exact absurd hmem not_mem_nil
  | cons entry entries ih =>
    obtain ⟨other, hmem, hother⟩ := h
    cases hparses : c.parses entry with
    | false => simp [hparses] at hmem
    | true =>
      rw [takeWhile_cons, hparses, if_pos rfl] at hmem
      by_cases hidle : c.Idle entry
      · have hmem' := (mem_cons.1 hmem).resolve_left fun heq => hother (heq ▸ hidle)
        exact .seq (succeeds_idleUpdate hparses hidle) fun _ _ => (ih ⟨other, hmem', hother⟩).bind
      · exact (fails_batchUpdate hidle).bind

theorem succeeds_batchDelete (id : String) :
    Audited.Succeeds (fun s => s.rows c.name = c.rows) (fun _ => True)
      (fun s => s.rows c.name = c.env.engine.exec c.rows (.delete c.name [id]))
      (D1.batchDelete (c.env.withFaults c.late) c.name id) := by
  intro s hs
  have hfault : c.late.write (.delete c.name [id]) (s.rows c.name) = none := if_pos hs
  rw [D1.batchDelete, storedRows, read_bind_apply]
  obtain ⟨hok, hstate⟩ := removeRows_of_no_fault (c.env.withFaults c.late)
    ((s.rows c.name).filter fun r => r.id = some id) hfault
  refine ⟨(), hok, trivial, ?_⟩
  dsimp only
  rw [hstate, rows_setRows, hs]
  rfl

theorem fails_batchDelete (id : String) :
    Audited.Fails (fun s => s.rows c.name ≠ c.rows) (fun s => s.rows c.name ≠ c.rows)
      (D1.batchDelete (c.env.withFaults c.late) c.name id) := by
  intro s hs
  have hfault : c.late.write (.delete c.name [id]) (s.rows c.name) = some unhandled :=
    if_neg hs
  rw [D1.batchDelete, storedRows, read_bind_apply,
    removeRows_of_fault (c.env.withFaults c.late) hfault]
  exact ⟨_, rfl, hs⟩

/-- Under late faults the deletions fail after one that removes a row, if it is not the last. -/
theorem fails_deletes {ids : List String}
    (h : ∃ id ∈ ids.dropLast, c.env.engine.exec c.rows (.delete c.name [id]) ≠ c.rows) :
    Audited.Fails (fun s => s.rows c.name = c.rows) (fun s => s.rows c.name ≠ c.rows)
      (Audited.forEach (D1.batchDelete (c.env.withFaults c.late) c.name) ids) := by
  induction ids with
  | nil =>
    obtain ⟨_, hmem, -⟩ := h
    exact absurd hmem not_mem_nil
  | cons id ids ih =>
    obtain ⟨other, hmem, hother⟩ := h
    cases ids with
    | nil => exact absurd hmem not_mem_nil
    | cons next ids =>
      have hfirst := c.succeeds_batchDelete id
      by_cases hidle : c.env.engine.exec c.rows (.delete c.name [id]) = c.rows
      · have hmem' := (mem_cons.1 hmem).resolve_left fun heq => hother (heq ▸ hidle)
        rw [hidle] at hfirst
        exact .seq hfirst fun _ _ => (ih ⟨other, hmem', hother⟩).bind
      · refine .seq (J := fun s => s.rows c.name ≠ c.rows) (Q := fun _ => True) (fun s hs => ?_)
          fun _ _ => (fails_batchDelete next).bind.bind
        obtain ⟨a, ha, -, hrows⟩ := hfirst s hs
        exact ⟨a, ha, trivial, fun heq => hidle (hrows.symm.trans heq)⟩

/-! ### The theorem -/

theorem not_fails_of_allOrNothing (h : c.AllOrNothing) {updates : List (String × Row)}
    (hchecked : c.checked = .ok updates) (hupdate : c.Admits .update (updates.map Prod.fst))
    (hdelete : c.Admits .delete (c.body.deletes.getD [])) :
    ¬Audited.Fails (· = c.store) (fun s => s.rows c.name ≠ c.rows)
      (batchExecute (c.env.withFaults c.late) c.config c.name c.body updates c.upsert) := by
  intro hfails
  have hquery : ∀ q, c.late.query q c.rows = none := fun q => if_pos rfl
  have hrun : Audited.Fails (· = c.store) (fun s => s.rows c.name ≠ c.rows)
      (D1.handleBatch (c.env.withFaults c.late) c.config c.caller c.name c.body c.upsert) := by
    refine .seq (.lift hchecked rfl) fun _ heq => ?_
    subst heq
    exact .seq (succeeds_checkBatchRules hquery hupdate _) fun _ _ =>
      .seq (succeeds_checkBatchRules hquery hdelete _) fun _ _ => hfails
  obtain ⟨e, he, hrows⟩ := hrun c.store rfl
  exact hrows (h c.late fun r hr => nomatch he.symm.trans hr)

theorem harmless_of_allOrNothing (h : c.AllOrNothing) : c.Harmless := by
  intro updates hchecked hupdate hdelete
  have hnot := not_fails_of_allOrNothing h hchecked hupdate hdelete
  have hinserts : c.afterInserts = c.rows := by
    by_contra hne
    exact hnot (fails_inserts hne).bind
  have hupdates : ∀ entry ∈ updates.takeWhile c.parses, c.Idle entry := by
    by_contra hne
    push Not at hne
    exact hnot (.seq (succeeds_inserts hinserts) fun _ _ => (fails_updates hne).bind)
  refine ⟨hinserts, hupdates, fun hall => ?_⟩
  by_contra hne
  push Not at hne
  have hidle : ∀ entry ∈ updates, Audited.Succeeds (fun s => s.rows c.name = c.rows)
      (fun _ => True) (fun s => s.rows c.name = c.rows)
      (D1.batchUpdate (c.env.withFaults c.late) c.config c.name entry) := by
    intro entry hentry
    rw [takeWhile_eq_self_iff.2 (all_eq_true.1 hall)] at hupdates
    exact succeeds_idleUpdate (all_eq_true.1 hall entry hentry) (hupdates entry hentry)
  exact hnot (.seq (succeeds_inserts hinserts) fun _ _ =>
    .seq (.forEach hidle) fun _ _ => (fails_deletes hne).bind)

/-- A `/batch` request is all or nothing exactly when it is harmless. -/
theorem batchAllOrNothing_iff (c : BatchCase) : c.AllOrNothing ↔ c.Harmless :=
  ⟨harmless_of_allOrNothing, allOrNothing_of_harmless⟩

end BatchCase

/-- An insert and an update with an unknown operator, which no validation looks at. -/
def unknownOperator : BatchCase where
  env := .simple
  config := { schema := some [("count", some { type := .number })] }
  caller := { auth := none }
  name := "docs"
  body :=
    { inserts := some [[("id", .str "a")]]
      updates := some
        [{ id := some "a", data := some [("count", .obj [("$op", .str "multiply")])] }] }
  upsert := none
  store := {}

def noFaults : Faults where
  query _ _ := none
  write _ _ := none

/-- The request is refused with 400, and the inserted row stays. -/
theorem unknownOperator_survives :
    (unknownOperator.run noFaults).result = .error ⟨400,
        "Unknown field operator 'multiply'. Supported operators: increment, deleteField."⟩ ∧
      ((unknownOperator.run noFaults).state.rows "docs").map Row.id = [some "a"] ∧
      ¬unknownOperator.AllOrNothing := by
  have hresult : (unknownOperator.run noFaults).result = .error ⟨400,
      "Unknown field operator 'multiply'. Supported operators: increment, deleteField."⟩ := rfl
  have hrows : ((unknownOperator.run noFaults).state.rows "docs").map Row.id = [some "a"] := rfl
  refine ⟨hresult, hrows, fun h => ?_⟩
  have hsame := h noFaults fun r hr => nomatch hresult.symm.trans hr
  rw [show (unknownOperator.run noFaults).state.rows "docs" = [] from hsame] at hrows
  exact nomatch hrows

end EdgeBase
