import EdgeBase.Access.Pagination
import EdgeBase.Lib.Chunks
import EdgeBase.Representation.FieldValues

/-!
# Updating and deleting many rows

`updateMany` and `deleteMany` of the client call `/batch-by-filter`, which selects at most 500 of
the rows that match a filter, and changes those that the rule of the table allows.  A deletion goes
on until a call selects nothing, fails, or is the hundredth.  Is every matching row changed that the
caller may change?

* `ManyRows.target` : the rows to change; `ManyRows.Completes` : what the call is for.

A call is a chunk of the matching rows in the order of their ids: the denied rows stay in front.
-/

namespace EdgeBase

open List Option Chunks Audited DatabaseDO

/-! ### The client -/

def Response.number (r : Response) (key : String) : ℚ :=
  match r.body.lookup key with
  | some (.num q) => q
  | _ => 0

structure BatchByFilterResult where
  totalProcessed : ℚ := 0
  totalSucceeded : ℚ := 0
  /-- The index and the size of a chunk that failed, and its error. -/
  errors : List (ℕ × ℕ × HttpError) := []

inductive ManyAction where
  | update (data : Row)
  | delete

/-- The table, the caller and the filters of `updateMany` or `deleteMany`. -/
structure ManyRows where
  provider : SqliteProvider
  object : DatabaseDO
  env : Env
  config : TableConfig
  caller : Caller
  name : String
  action : ManyAction
  filters : List FilterTuple
  orFilters : List FilterTuple
  store : Store

namespace ManyRows

/-- `batchByFilter` from a chunk on, with the totals so far: `left` chunks may follow. -/
def batchByFilterFrom (serve : FilterBody → Handler Response) (body : FilterBody) :
    (left chunkIndex : ℕ) → BatchByFilterResult → Store → BatchByFilterResult × Store
  | 0, _, total, s => (total, s)
  | left + 1, chunkIndex, total, s =>
    match (serve body s).result with
    | .error error =>
      ({ total with errors := total.errors ++ [(chunkIndex, 500, error)] }, (serve body s).state)
    | .ok result =>
      let total : BatchByFilterResult :=
        { total with
          totalProcessed := total.totalProcessed + result.number "processed"
          totalSucceeded := total.totalSucceeded + result.number "succeeded" }
      -- updated rows still match the filter, so an update does not go on
      if result.number "processed" = 0 ∨ body.action = "update" then (total, (serve body s).state)
      else batchByFilterFrom serve body left (chunkIndex + 1) total (serve body s).state

variable (p : ManyRows)

def op : RowOp :=
  match p.action with
  | .update _ => .update
  | .delete => .delete

def body : FilterBody :=
  match p.action with
  | .update data =>
    { action := "update", filter := p.filters, orFilter := p.orFilters, update := some data
      limit := some 500 }
  | .delete =>
    { action := "delete", filter := p.filters, orFilter := p.orFilters, limit := some 500 }

def serve (body : FilterBody) : Handler Response :=
  match p.provider with
  | .d1 => D1.handleBatchByFilter p.env p.config p.caller p.name body
  | .durableObject => p.object.batchByFilter p.env p.caller p.name body

/-- `updateMany` or `deleteMany`. -/
def run : Except HttpError (BatchByFilterResult × Store) :=
  if p.filters = [] then
    .error ⟨400, match p.action with
      | .update _ => "updateMany requires at least one where() filter"
      | .delete => "deleteMany requires at least one where() filter"⟩
  else .ok (batchByFilterFrom p.serve p.body 100 0 {} p.store)

/-! ### What a call is for -/

def options : QueryOptions :=
  normalizeSQLiteBooleanQueryOptions
    { filters := p.filters, orFilters := p.orFilters, pagination := { limit := some 500 } }
    p.config.schema

def matchesFilter (row : Row) : Bool :=
  p.env.engine.satisfies { filters := p.options.filters, orFilters := p.options.orFilters } row

def query : Select where
  table := p.name
  conditions := { filters := p.options.filters, orFilters := p.options.orFilters }
  orderBy := [.column "id" false]
  limit := some 500

/-- The matching rows among some rows, in the order of their ids. -/
def matching (rows : List Row) : List Row :=
  p.env.engine.order [.column "id" false] (rows.filter p.matchesFilter)

/-- Whether the rule of the table lets the caller change a row, as the provider reads rules: the
object takes a literal `false` for no rule, and does not await. -/
def permits (row : Row) : Bool :=
  match p.provider with
  | .d1 => evalRowRule (Worker.activeRule p.config p.op p.caller) p.caller.auth
      (D1.clean p.env p.config row)
  | .durableObject => p.caller.isServiceKey ||
      match (rowRule (some p.config) p.op).filter Rule.truthy with
      | none => !p.object.config.release
      | some (.bool _) => true
      | some (.fn f) => callSync (f p.caller.auth row) == some true

def target (row : Row) : Bool := p.matchesFilter row && p.permits row

def data : Row :=
  let effective := buildEffectiveSchema p.config.schema
  serializeUpdate p.env effective (touchUpdatedAt p.env effective (p.body.update.getD []))

def clauses : List SetClause := (parseUpdateBody p.env p.data).toOption.getD []

/-- Some rows, after the call has changed those that it hits. -/
def change (hit : Row → Bool) (rows : List Row) : List Row :=
  match p.action with
  | .update _ => rows.map fun row => if hit row then p.env.engine.updated p.clauses row else row
  | .delete => rows.filter fun row => !hit row

/-- Every row to change is changed once, no other one is, and the client knows how many there
were. -/
def Completes : Prop :=
  ∃ total s, p.run = .ok (total, s) ∧
    s.rows p.name = p.change p.target (p.store.rows p.name) ∧
    total.totalSucceeded = ((p.store.rows p.name).filter p.target).length

/-! ### When it is achieved -/

/-- The check that comes before a chunk is selected: the rule on an empty row. -/
def Prechecked : Prop :=
  match p.provider with
  | .d1 => evalRowRule (Worker.activeRule p.config p.op p.caller) p.caller.auth [] = true
  | .durableObject => p.object.filterPrecheck p.config p.caller p.name p.op p.body.action = .ok ()

def rounds : ℕ :=
  match p.action with
  | .update _ => 1
  | .delete => 100

/-- The write of a chunk; an update that assigns nothing has none. -/
def statement (ids : List String) : Option Statement :=
  match p.action with
  | .update _ => if p.clauses.isEmpty then none else some (.update p.name p.clauses ids)
  | .delete => some (.delete p.name ids)

/-- When a call achieves what it is for, on a database that takes the write of some numbers of
rows: there is nothing to change, or the rule admits the empty row, and the chunks get to every row
to change. -/
def HoldsWhen (takes : ℕ → Bool) : Prop :=
  (∀ row ∈ p.store.rows p.name, p.target row = false) ∨
    p.Prechecked ∧ ∀ row ∈ (p.matching (p.store.rows p.name)).drop
      (Chunks.reach 500 p.permits takes (p.matching (p.store.rows p.name)) p.rounds),
      p.permits row = false

end ManyRows

/-- A call for a declared table, whose rows have ids of their own, with filters that the query
compiler knows and an update that it can write, on a database that evaluates the filters and takes
writes of some numbers of rows. -/
structure ManyCall extends ManyRows where
  less : String → String → Prop
  ordered : env.engine.OrdersIds less
  declared : object.getTableConfig name = some config
  present : store.has name = true
  ids : ∀ row ∈ store.rows name, row.id.isSome
  distinct : ((store.rows name).map Row.id).Nodup
  filtered : filters ≠ []
  operators : ∀ t ∈ filters ++ orFilters, t.op ∈ filterOperators
  alternatives : orFilters.length ≤ 5
  parses : parseUpdateBody env toManyRows.data = .ok toManyRows.clauses
  evaluated : ∀ rows, rows.Sublist (store.rows name) →
    env.engine.queryFault toManyRows.query rows = none
  /-- Whether the database takes the write of so many rows. -/
  takes : ℕ → Bool
  writes : ∀ rows ids, rows.Sublist (store.rows name) →
    ((toManyRows.statement ids).bind (env.engine.writeFault · rows)).isNone = takes ids.length

/-! ### One chunk -/

namespace ManyRows

variable (p : ManyRows)

/-- The check of a row in a chunk: only a rule that is a function is evaluated. -/
def allows (row : Row) : Bool :=
  match p.provider with
  | .d1 => D1.filterAllows p.env p.config p.caller p.op row
  | .durableObject => syncAllows p.config p.op p.caller row

def allowed (selected : List Row) : List Row := selected.filter p.allows

def changeSelected (selected : List Row) : Handler (ℕ × ℕ) := do
  if selected.isEmpty then pure (0, 0)
  else do
    .check (p.allowed selected ≠ []) ⟨403, ruleRejectedMessage p.name p.body.action ""⟩
    DatabaseDO.filterWrite p.env p.config p.name p.op (p.body.update.getD []) (p.allowed selected)
    pure (selected.length, (p.allowed selected).length)

def answer (counts : ℕ × ℕ) : Response where
  body := [("processed", jsonNat counts.1), ("succeeded", jsonNat counts.2)]

@[simp] theorem answer_processed (counts : ℕ × ℕ) :
    (answer counts).number "processed" = counts.1 := rfl

@[simp] theorem answer_succeeded (counts : ℕ × ℕ) :
    (answer counts).number "succeeded" = counts.2 := rfl

theorem allows_of_prechecked (h : p.Prechecked) (row : Row) : p.allows row = p.permits row := by
  unfold Prechecked at h
  unfold allows permits
  cases hprovider : p.provider with
  | d1 =>
    rw [hprovider] at h
    dsimp only [D1.filterAllows] at h ⊢
    cases hrule : Worker.activeRule p.config p.op p.caller with
    | none => rfl
    | some rule =>
      rw [hrule] at h
      cases rule with
      | bool b => exact h.symm
      | fn f => rfl
  | durableObject =>
    rw [hprovider] at h
    dsimp only [filterPrecheck, syncAllows] at h ⊢
    cases hkey : p.caller.isServiceKey with
    | true => rfl
    | false =>
      rw [hkey] at h
      cases hrule : rowRule (some p.config) p.op with
      | none =>
        rw [hrule] at h
        cases hrelease : p.object.config.release with
        | true => simp [hrelease] at h
        | false => rfl
      | some rule =>
        rw [hrule] at h
        cases rule with
        | fn f => rfl
        | bool b =>
          cases b with
          | true => rfl
          | false =>
            cases hrelease : p.object.config.release with
            | true => simp [hrelease, Option.filter, Rule.truthy] at h
            | false => rfl

theorem change_congr {hit hit' : Row → Bool} {rows : List Row}
    (h : ∀ row ∈ rows, hit row = hit' row) : p.change hit rows = p.change hit' rows := by
  unfold change
  cases p.action with
  | update data =>
    refine map_congr_left fun row hrow => ?_
    simp only [h row hrow]
  | delete =>
    refine filter_congr fun row hrow => ?_
    rw [h row hrow]

theorem changeSelected_nil (s : Store) : p.changeSelected [] s = ⟨.ok (0, 0), s, []⟩ := rfl

theorem changeSelected_denied {selected : List Row} (hselected : selected ≠ [])
    (hdenied : p.allowed selected = []) (s : Store) :
    ∃ err, p.changeSelected selected s = ⟨.error err, s, []⟩ := by
  rw [changeSelected, if_neg (by simpa using hselected), check_bind, hdenied,
    if_neg (fun h => h rfl)]
  exact ⟨_, rfl⟩

theorem changeSelected_of_write {selected : List Row} (hselected : selected ≠ [])
    (hallowed : p.allowed selected ≠ []) (s : Store) : p.changeSelected selected s = (do
      DatabaseDO.filterWrite p.env p.config p.name p.op (p.body.update.getD []) (p.allowed selected)
      pure (selected.length, (p.allowed selected).length) : Handler (ℕ × ℕ)) s := by
  rw [changeSelected, if_neg (by simpa using hselected), check_bind, if_pos hallowed]

end ManyRows

namespace ManyCall

variable (c : ManyCall)

theorem filterWrite_eq (rows : List Row) (s : Store) :
    DatabaseDO.filterWrite c.env c.config c.name c.op (c.body.update.getD []) rows s =
      match c.action with
      | .update _ => applyUpdate c.env c.name c.clauses (rows.filterMap Row.id) rows s
      | .delete => removeRows c.env c.name (rows.filterMap Row.id) rows s := by
  have hparses := c.parses
  unfold ManyRows.data at hparses
  unfold DatabaseDO.filterWrite ManyRows.op
  cases haction : c.action with
  | update data => simp only [hparses, lift_ok_bind]
  | delete => rfl

theorem options_op : ∀ t ∈ c.options.filters ++ c.options.orFilters, t.op ∈ filterOperators := by
  have hmap : ∀ schema, ∀ t ∈ c.filters.map (normalizeTuple schema) ++
      c.orFilters.map (normalizeTuple schema), t.op ∈ filterOperators := by
    intro schema t ht
    rw [← map_append] at ht
    obtain ⟨u, hu, rfl⟩ := List.mem_map.1 ht
    rw [normalizeTuple_op]
    exact c.operators u hu
  unfold ManyRows.options
  cases hschema : c.config.schema with
  | none => exact c.operators
  | some schema => exact hmap schema

theorem options_orFilters_length : c.options.orFilters.length = c.orFilters.length := by
  unfold ManyRows.options
  cases c.config.schema with
  | none => rfl
  | some schema => exact length_map _

theorem buildListQuery_eq :
    ∃ count, buildListQuery c.name c.options .sqlite = .ok (c.query, count) := by
  have hwhere := buildWhereClause_of_operators c.options_op
    (c.options_orFilters_length ▸ c.alternatives) c.options.pagination
  have hunpaged := buildWhereClause_of_operators c.options_op
    (c.options_orFilters_length ▸ c.alternatives) {}
  have hoptions : c.options = { filters := c.options.filters, orFilters := c.options.orFilters
                                pagination := { limit := some 500 } } := by
    unfold ManyRows.options
    cases c.config.schema <;> rfl
  rw [hoptions] at hwhere ⊢
  simp only [buildListQuery, hwhere, hunpaged]
  exact ⟨_, rfl⟩

theorem checkFilterBody_eq :
    D1.checkFilterBody c.body = .ok c.op ∧ checkFilterBody c.body = .ok c.op := by
  unfold D1.checkFilterBody checkFilterBody ManyRows.body ManyRows.op
  cases c.action <;> simp [c.filtered]

def chunk (s : Store) : List Row := (c.matching (s.rows c.name)).take 500

theorem runSelect_eq {s : Store} (h : (s.rows c.name).Sublist (c.store.rows c.name)) :
    runSelect c.env c.query s = ⟨.ok (c.chunk s), s, []⟩ := by
  have hselects : c.env.engine.selects c.query = c.matchesFilter := by
    funext row
    exact Bool.and_true _
  have hproject : c.env.engine.project c.query = id := rfl
  have hfound : c.env.engine.found c.query (s.rows c.name) = c.chunk s := by
    rw [SqlEngine.found, hselects, hproject, List.map_id]
    rfl
  rw [← hfound]
  exact runSelect_of_no_fault c.env (c.evaluated _ h)

theorem serve_d1 (hprovider : c.provider = .d1) (hpre : c.Prechecked) {s : Store}
    (h : (s.rows c.name).Sublist (c.store.rows c.name)) :
    (c.serve c.body s).result = ((c.changeSelected (c.chunk s) s).result.map ManyRows.answer) ∧
      (c.serve c.body s).state = (c.changeSelected (c.chunk s) s).state := by
  obtain ⟨count, hquery⟩ := c.buildListQuery_eq
  have hop := c.checkFilterBody_eq.1
  unfold ManyRows.Prechecked at hpre
  rw [hprovider] at hpre
  have hoptions : D1.queryOptions c.config
      { filters := c.body.filter, orFilters := c.body.orFilter
        pagination := { limit := some (min (c.body.limit.getD maxOperations) maxOperations) } } =
      c.options := by
    unfold ManyRows.body ManyRows.options
    cases c.action <;> rfl
  rw [ManyRows.serve, hprovider]
  dsimp only [D1.handleBatchByFilter]
  rw [hop, lift_ok_bind, check_bind, if_pos hpre, hoptions, hquery,
    lift_ok_bind, bind_of_run (c.runSelect_eq h)]
  have hallows : c.allows = D1.filterAllows c.env c.config c.caller c.op := by
    unfold ManyRows.allows
    rw [hprovider]
  have hwrite : D1.filterWrite c.env c.config c.name c.op =
      DatabaseDO.filterWrite c.env c.config c.name c.op := rfl
  rw [ManyRows.changeSelected, ManyRows.allowed, hallows, hwrite]
  cases hempty : (c.chunk s).isEmpty with
  | true => exact ⟨rfl, rfl⟩
  | false =>
    simp only [Bool.false_eq_true, if_false, check_bind]
    split
    · generalize DatabaseDO.filterWrite c.env c.config c.name c.op _ _ = write
      simp only [Audited.bind_apply]
      cases (write s).result <;> exact ⟨rfl, rfl⟩
    · exact ⟨rfl, rfl⟩

theorem serve_object (hprovider : c.provider = .durableObject) (hpre : c.Prechecked) {s : Store}
    (hpresent : s.has c.name = true) (h : (s.rows c.name).Sublist (c.store.rows c.name)) :
    (c.serve c.body s).result = ((c.changeSelected (c.chunk s) s).result.map ManyRows.answer) ∧
      (c.serve c.body s).state =
        (Audited.atomic Event.isWrite (c.changeSelected (c.chunk s)) s).state := by
  obtain ⟨count, hquery⟩ := c.buildListQuery_eq
  have hop := c.checkFilterBody_eq.2
  have hensure := ensureTableExists_of_has (d := c.object) hpresent
  have hconfig : c.object.requireConfig c.name = .ok c.config := by
    rw [requireConfig, c.declared]
    rfl
  unfold ManyRows.Prechecked at hpre
  rw [hprovider] at hpre
  have hoptions : normalizeSQLiteBooleanQueryOptions
      { filters := c.body.filter, orFilters := c.body.orFilter
        pagination := { limit := some (min (c.body.limit.getD maxOperations) maxOperations) } }
      c.config.schema = c.options := by
    unfold ManyRows.body ManyRows.options
    cases c.action <;> rfl
  have hallows : c.allows = syncAllows c.config c.op c.caller := by
    unfold ManyRows.allows
    rw [hprovider]
  have hbody : filterBody c.env c.config c.caller c.name c.op c.body s =
      c.changeSelected (c.chunk s) s := by
    dsimp only [filterBody]
    rw [hoptions, hquery, lift_ok_bind, bind_of_run (c.runSelect_eq h),
      ManyRows.changeSelected, ManyRows.allowed, hallows]
    rfl
  have hatomic : Audited.atomic Event.isWrite
      (filterBody c.env c.config c.caller c.name c.op c.body) s =
      Audited.atomic Event.isWrite (c.changeSelected (c.chunk s)) s := by
    rw [Audited.atomic, Audited.atomic, hbody]
  rw [ManyRows.serve, hprovider]
  dsimp only [DatabaseDO.batchByFilter]
  rw [bind_of_run hensure, hconfig, lift_ok_bind, emit_bind_apply, hop,
    lift_ok_bind, hpre, lift_ok_bind, Audited.bind_apply, hatomic]
  cases hresult : (c.changeSelected (c.chunk s) s).result with
  | error err =>
    rw [atomic_of_error hresult]
    exact ⟨rfl, rfl⟩
  | ok counts =>
    rw [atomic_of_ok hresult, hresult]
    exact ⟨rfl, rfl⟩

def taken (s : Store) : List Row := Chunks.taken 500 c.permits (c.matching (s.rows c.name))

structure Table (s : Store) : Prop where
  present : s.has c.name = true
  sublist : (s.rows c.name).Sublist (c.store.rows c.name)

variable (hpre : c.Prechecked)
include hpre

theorem allowed_chunk (s : Store) : c.allowed (c.chunk s) = c.taken s :=
  filter_congr fun row _ => c.allows_of_prechecked hpre row

theorem serve_of_error {s : Store} (hs : c.Table s) {err : HttpError}
    {l : List Event} (h : c.changeSelected (c.chunk s) s = ⟨.error err, s, l⟩) :
    (c.serve c.body s).result = .error err ∧ (c.serve c.body s).state = s := by
  have hresult : (c.changeSelected (c.chunk s) s).result = .error err := by rw [h]
  cases hprovider : c.provider with
  | d1 =>
    have hserve := c.serve_d1 hprovider hpre hs.sublist
    rw [h] at hserve
    exact hserve
  | durableObject =>
    have hserve := c.serve_object hprovider hpre hs.present hs.sublist
    rw [atomic_of_error hresult, h] at hserve
    exact hserve

theorem serve_of_ok {s s' : Store} (hs : c.Table s) {counts : ℕ × ℕ}
    (hresult : (c.changeSelected (c.chunk s) s).result = .ok counts)
    (hstate : (c.changeSelected (c.chunk s) s).state = s') :
    (c.serve c.body s).result = .ok (ManyRows.answer counts) ∧ (c.serve c.body s).state = s' := by
  cases hprovider : c.provider with
  | d1 =>
    have hserve := c.serve_d1 hprovider hpre hs.sublist
    rw [hresult, hstate] at hserve
    exact hserve
  | durableObject =>
    have hserve := c.serve_object hprovider hpre hs.present hs.sublist
    rw [atomic_of_ok hresult, hresult, hstate] at hserve
    exact hserve

theorem serve_nothing {s : Store} (hs : c.Table s) (h : c.matching (s.rows c.name) = []) :
    (c.serve c.body s).result = .ok (ManyRows.answer (0, 0)) ∧ (c.serve c.body s).state = s := by
  have hchunk : c.chunk s = [] := by rw [chunk, h, take_nil]
  refine c.serve_of_ok hpre hs ?_ ?_ <;> rw [hchunk, ManyRows.changeSelected_nil]

theorem serve_denied {s : Store} (hs : c.Table s)
    (h : c.matching (s.rows c.name) ≠ []) (htaken : c.taken s = []) :
    ∃ err, (c.serve c.body s).result = .error err ∧ (c.serve c.body s).state = s := by
  have hchunk : c.chunk s ≠ [] := by simpa [chunk] using h
  obtain ⟨err, hrun⟩ := c.changeSelected_denied hchunk (c.allowed_chunk hpre s ▸ htaken) s
  exact ⟨err, c.serve_of_error hpre hs hrun⟩

omit hpre

theorem statement_fault {s : Store} (hs : c.Table s) (rows : List Row) :
    ((c.statement (rows.filterMap Row.id)).bind
      (c.env.engine.writeFault · (s.rows c.name))).isNone =
        c.takes (rows.filterMap Row.id).length := c.writes _ _ hs.sublist

theorem filterWrite_of_fault {s : Store} (hs : c.Table s) {rows : List Row}
    (h : c.takes (rows.filterMap Row.id).length = false) :
    ∃ err, DatabaseDO.filterWrite c.env c.config c.name c.op (c.body.update.getD []) rows s =
      ⟨.error err, s, []⟩ := by
  have hfault := c.statement_fault hs rows
  rw [h] at hfault
  rw [c.filterWrite_eq]
  unfold ManyRows.statement at hfault
  cases haction : c.action with
  | update data =>
    rw [haction] at hfault
    by_cases hclauses : c.clauses = []
    · simp [hclauses] at hfault
    · have hnonempty : c.clauses.isEmpty = false := by simpa using hclauses
      simp only [hnonempty, Bool.false_eq_true, if_false, bind_some,
        isNone_eq_false_iff, isSome_iff_exists] at hfault
      obtain ⟨err, herr⟩ := hfault
      exact ⟨err, applyUpdate_of_fault c.env hclauses herr⟩
  | delete =>
    rw [haction] at hfault
    simp only [bind_some, isNone_eq_false_iff, isSome_iff_exists] at hfault
    obtain ⟨err, herr⟩ := hfault
    exact ⟨err, removeRows_of_fault c.env herr⟩

theorem filterWrite_of_takes {s : Store} (hs : c.Table s) {rows : List Row}
    (h : c.takes (rows.filterMap Row.id).length = true) :
    let o := DatabaseDO.filterWrite c.env c.config c.name c.op (c.body.update.getD []) rows s
    o.result = .ok () ∧ o.state.has c.name = true ∧ o.state.rows c.name =
      c.change (fun row => row.id.any (· ∈ rows.filterMap Row.id)) (s.rows c.name) := by
  have hfault := c.statement_fault hs rows
  rw [h] at hfault
  dsimp only
  rw [c.filterWrite_eq]
  unfold ManyRows.statement at hfault
  unfold ManyRows.change
  cases haction : c.action with
  | update data =>
    rw [haction] at hfault
    by_cases hclauses : c.clauses = []
    · refine ⟨?_, ?_, ?_⟩
      · simp [applyUpdate, hclauses]
      · simp [applyUpdate, hclauses, hs.present]
      · simp [applyUpdate, hclauses, SqlEngine.updated]
    · have hnonempty : c.clauses.isEmpty = false := by simpa using hclauses
      simp only [hnonempty, Bool.false_eq_true, if_false, bind_some,
        isNone_iff_eq_none] at hfault
      obtain ⟨hresult, hstate⟩ := applyUpdate_of_no_fault c.env rows hclauses hfault
      refine ⟨hresult, ?_, ?_⟩
      · rw [hstate, Store.has_setRows, hs.present, Bool.true_or]
      · rw [hstate, Store.rows_setRows]
        rfl
  | delete =>
    rw [haction] at hfault
    simp only [bind_some, isNone_iff_eq_none] at hfault
    obtain ⟨hresult, hstate⟩ := removeRows_of_no_fault c.env rows hfault
    refine ⟨hresult, ?_, ?_⟩
    · rw [hstate, Store.has_setRows, hs.present, Bool.true_or]
    · rw [hstate, Store.rows_setRows]
      rfl

/-! ### Rows and their ids -/

theorem eq_of_id {row row' : Row} (h : row ∈ c.store.rows c.name) (h' : row' ∈ c.store.rows c.name)
    (hid : row.id = row'.id) : row = row' := inj_on_of_nodup_map c.distinct h h' hid

theorem nodup_rows : (c.store.rows c.name).Nodup := List.Nodup.of_map _ c.distinct

theorem id_mem_iff {rows : List Row} (hrows : ∀ row ∈ rows, row ∈ c.store.rows c.name) {row : Row}
    (h : row ∈ c.store.rows c.name) :
    row.id.any (· ∈ rows.filterMap Row.id) = true ↔ row ∈ rows := by
  obtain ⟨id, hid⟩ := isSome_iff_exists.1 (c.ids row h)
  rw [hid, any_some, decide_eq_true_iff, mem_filterMap]
  constructor
  · rintro ⟨row', hrow', hid'⟩
    obtain rfl : row = row' := c.eq_of_id h (hrows row' hrow') (hid.trans hid'.symm)
    exact hrow'
  · exact fun hmem => ⟨row, hmem, hid⟩

theorem length_ids {rows : List Row} (hrows : ∀ row ∈ rows, row ∈ c.store.rows c.name) :
    (rows.filterMap Row.id).length = rows.length := by
  rw [length_filterMap_eq_countP, countP_eq_length]
  exact fun row hrow => c.ids row (hrows row hrow)

theorem matching_perm (rows : List Row) :
    (c.matching rows).Perm (rows.filter c.matchesFilter) := c.ordered.perm _

theorem mem_matching {rows : List Row} {row : Row} :
    row ∈ c.matching rows ↔ row ∈ rows ∧ c.matchesFilter row = true := by
  rw [(c.matching_perm rows).mem_iff, mem_filter]

theorem taken_sub {s : Store} (hs : c.Table s) : ∀ row ∈ c.taken s, row ∈ c.store.rows c.name := by
  intro row hrow
  have hmatching := mem_of_mem_take (mem_of_mem_filter hrow)
  exact hs.sublist.subset (c.mem_matching.1 hmatching).1

theorem serve_refused (hpre : c.Prechecked) {s : Store} (hs : c.Table s) (htaken : c.taken s ≠ [])
    (htakes : c.takes (c.taken s).length = false) :
    ∃ err, (c.serve c.body s).result = .error err ∧ (c.serve c.body s).state = s := by
  have hallowed := c.allowed_chunk hpre s
  have hchunk : c.chunk s ≠ [] := by
    intro hnil
    rw [hnil] at hallowed
    exact htaken hallowed.symm
  rw [← c.length_ids (c.taken_sub hs), ← hallowed] at htakes
  obtain ⟨err, hwrite⟩ := c.filterWrite_of_fault hs htakes
  refine ⟨err, c.serve_of_error (l := []) hpre hs ?_⟩
  rw [c.changeSelected_of_write hchunk (hallowed ▸ htaken), bind_of_failed_run hwrite]

theorem serve_written (hpre : c.Prechecked) {s : Store} (hs : c.Table s) (htaken : c.taken s ≠ [])
    (htakes : c.takes (c.taken s).length = true) : (c.serve c.body s).result =
        .ok (ManyRows.answer ((c.chunk s).length, (c.taken s).length)) ∧
      (c.serve c.body s).state.has c.name = true ∧
      (c.serve c.body s).state.rows c.name = c.change (· ∈ c.taken s) (s.rows c.name) := by
  have hallowed := c.allowed_chunk hpre s
  have hchunk : c.chunk s ≠ [] := by
    intro hnil
    rw [hnil] at hallowed
    exact htaken hallowed.symm
  rw [← c.length_ids (c.taken_sub hs), ← hallowed] at htakes
  obtain ⟨hresult, hhas, hrows⟩ := c.filterWrite_of_takes hs htakes
  have hrun := c.changeSelected_of_write hchunk (hallowed ▸ htaken) s
  rw [bind_of_ok hresult] at hrun
  have hserve := c.serve_of_ok hpre hs (congrArg Outcome.result hrun) (congrArg Outcome.state hrun)
  refine ⟨?_, ?_, ?_⟩
  · rw [hserve.1, hallowed]
  · rw [hserve.2]
    exact hhas
  · have hmem : ∀ row ∈ s.rows c.name, row.id.any (· ∈ (c.taken s).filterMap Row.id) =
        decide (row ∈ c.taken s) := by
      intro row hrow
      rw [Bool.eq_iff_iff, decide_eq_true_iff]
      exact c.id_mem_iff (c.taken_sub hs) (hs.sublist.subset hrow)
    rw [hserve.2]
    refine hrows.trans ?_
    rw [hallowed]
    exact c.change_congr hmem

/-! ### The chunks of a call -/

def NotAfter (row row' : Row) : Prop := ∀ a b, row.id = some a → row'.id = some b → ¬c.less b a

theorem matching_sorted (rows : List Row) : (c.matching rows).Pairwise c.NotAfter :=
  c.ordered.sorted _

theorem nodup_matching {rows : List Row} (h : rows.Sublist (c.store.rows c.name)) :
    (c.matching rows).Nodup :=
  (c.matching_perm rows).nodup_iff.2 ((c.nodup_rows.sublist h).filter _)

/-- The rows that match at first, in the order of their ids. -/
def all : List Row := c.matching (c.store.rows c.name)

theorem nodup_all : c.all.Nodup := c.nodup_matching (List.Sublist.refl _)

/-- The table, when of the matching rows some are left. -/
def kept (rows : List Row) : List Row :=
  (c.store.rows c.name).filter fun row => !c.matchesFilter row || decide (row ∈ rows)

theorem mem_kept {rows : List Row} {row : Row} :
    row ∈ c.kept rows ↔ row ∈ c.store.rows c.name ∧ (c.matchesFilter row = true → row ∈ rows) := by
  rw [kept, mem_filter, Bool.or_eq_true, decide_eq_true_iff, Bool.not_eq_true',
    ← Bool.not_eq_true, ← imp_iff_not_or]

theorem matching_kept {rows : List Row} (h : rows.Sublist c.all) :
    c.matching (c.kept rows) = rows := by
  have hsub : (c.kept rows).Sublist (c.store.rows c.name) := filter_sublist
  have hperm : (c.matching (c.kept rows)).Perm rows := by
    rw [perm_ext_iff_of_nodup (c.nodup_matching hsub) (c.nodup_all.sublist h)]
    intro row
    rw [c.mem_matching, c.mem_kept]
    constructor
    · rintro ⟨⟨-, hrow⟩, hmatches⟩
      exact hrow hmatches
    · intro hrow
      obtain ⟨hstored, hmatches⟩ := c.mem_matching.1 (h.subset hrow)
      exact ⟨⟨hstored, fun _ => hrow⟩, hmatches⟩
  refine hperm.eq_of_pairwise (fun row row' hrow hrow' hle hge => ?_) (c.matching_sorted _)
    ((c.matching_sorted _).sublist h)
  have hstored := (c.mem_matching.1 (h.subset (hperm.subset hrow))).1
  have hstored' := (c.mem_matching.1 (h.subset hrow')).1
  obtain ⟨a, ha⟩ := isSome_iff_exists.1 (c.ids row hstored)
  obtain ⟨b, hb⟩ := isSome_iff_exists.1 (c.ids row' hstored')
  refine c.eq_of_id hstored hstored' ?_
  by_contra hne
  have hids : a ≠ b := fun hab => hne (by rw [ha, hb, hab])
  rcases c.ordered.total a b hids with hless | hless
  · exact hge b a hb ha hless
  · exact hle a b ha hb hless

theorem table_kept {rows : List Row} {s : Store} (hpresent : s.has c.name = true)
    (hrows : s.rows c.name = c.kept rows) : c.Table s where
  present := hpresent
  sublist := hrows ▸ filter_sublist

theorem change_kept (haction : c.action = .delete) {rows : List Row} (h : rows.Sublist c.all)
    (r : ℕ) : c.change (· ∈ (rows.take r).filter c.permits) (c.kept rows) =
      c.kept (Chunks.remaining c.permits rows r) := by
  rw [ManyRows.change, haction]
  dsimp only [kept]
  rw [List.filter_filter]
  refine filter_congr fun row hrow => ?_
  have hleft : row ∈ Chunks.remaining c.permits rows r ↔ _ :=
    mem_remaining (c.nodup_all.sublist h)
  have hhit : row ∈ (rows.take r).filter c.permits → c.matchesFilter row = true := fun hmem =>
    (c.mem_matching.1 (h.subset (mem_of_mem_take (mem_of_mem_filter hmem)))).2
  rw [Bool.eq_iff_iff, Bool.and_eq_true, Bool.or_eq_true, Bool.or_eq_true, decide_eq_true_iff,
    decide_eq_true_iff, hleft, Bool.not_eq_true', decide_eq_false_iff_not]
  cases hmatches : c.matchesFilter row with
  | true => simp [and_comm]
  | false =>
    have hnot : row ∉ (rows.take r).filter c.permits := fun hmem => by
      rw [hmatches] at hhit
      exact nomatch hhit hmem
    simp [hnot]

abbrev left (rows : List Row) : List Row := Chunks.left 500 c.permits c.takes rows

/-- **The loop of a deletion.**  By induction on the chunks that may follow: a chunk that fails or
selects nothing leaves the rows as they are, and so would all later ones. -/
theorem delete_from (haction : c.action = .delete) (hpre : c.Prechecked) (left : ℕ) :
    ∀ (chunkIndex : ℕ) (total : BatchByFilterResult) (s : Store) (rows : List Row),
      rows.Sublist c.all → s.has c.name = true → s.rows c.name = c.kept rows →
      let o := ManyRows.batchByFilterFrom c.serve c.body left chunkIndex total s
      o.2.rows c.name = c.kept (c.left^[left] rows) ∧
        o.1.totalSucceeded + (c.left^[left] rows).length =
          total.totalSucceeded + rows.length := by
  induction left with
  | zero => exact fun _ _ _ _ _ _ hrows => ⟨hrows, rfl⟩
  | succ left ih =>
    intro chunkIndex total s rows hsub hpresent hrows
    have hs := c.table_kept hpresent hrows
    have hmatching : c.matching (s.rows c.name) = rows := by rw [hrows, c.matching_kept hsub]
    have htaken : c.taken s = Chunks.taken 500 c.permits rows := by rw [taken, hmatching]
    have hbody : c.body.action = "delete" := by
      unfold ManyRows.body
      rw [haction]
    -- nothing changes from here on
    have hstop (hleft : c.left rows = rows) : c.left^[left + 1] rows = rows :=
      Function.iterate_fixed hleft _
    dsimp only [ManyRows.batchByFilterFrom]
    by_cases hnil : rows = []
    · obtain ⟨hresult, hstate⟩ := c.serve_nothing hpre hs (hmatching.trans hnil)
      have hleft : c.left rows = rows := by
        rw [hnil]
        exact left_of_taken_nil rfl
      rw [hresult, hstate, hstop hleft]
      simp [hrows]
    by_cases hdenied : c.taken s = []
    · obtain ⟨err, hresult, hstate⟩ := c.serve_denied hpre hs (hmatching ▸ hnil) hdenied
      rw [hresult, hstate, hstop (left_of_taken_nil (htaken ▸ hdenied))]
      exact ⟨hrows, rfl⟩
    cases htakes : c.takes (c.taken s).length with
    | false =>
      obtain ⟨err, hresult, hstate⟩ := c.serve_refused hpre hs hdenied htakes
      rw [hresult, hstate, hstop (left_of_not_fits (htaken ▸ htakes))]
      exact ⟨hrows, rfl⟩
    | true =>
      obtain ⟨hresult, hhas, hstate⟩ := c.serve_written hpre hs hdenied htakes
      have hleft : c.left rows = Chunks.remaining c.permits rows 500 :=
        left_eq_remaining (htaken ▸ htakes)
      have hlength : (Chunks.taken 500 c.permits rows).length + (c.left rows).length =
          rows.length := by
        rw [hleft]
        exact length_remaining rows 500
      have hnext : (c.serve c.body s).state.rows c.name = c.kept (c.left rows) := by
        rw [hstate, hrows, htaken, hleft]
        exact c.change_kept haction hsub 500
      have hchunk : (c.chunk s).length ≠ 0 := by
        rw [chunk, hmatching]
        simpa using hnil
      have hgoes : ¬((ManyRows.answer ((c.chunk s).length, (c.taken s).length)).number "processed" =
          0 ∨ c.body.action = "update") := by
        rw [ManyRows.answer_processed, hbody]
        simpa using hchunk
      rw [hresult]
      dsimp only
      rw [if_neg hgoes, Function.iterate_succ_apply]
      obtain ⟨hfinal, htotal⟩ := ih (chunkIndex + 1) _ _ (c.left rows)
        ((left_sublist rows).trans hsub) hhas hnext
      refine ⟨hfinal, htotal.trans ?_⟩
      rw [ManyRows.answer_succeeded, htaken, add_assoc, ← Nat.cast_add, hlength]

/-- How many of the matching rows the chunks get to. -/
def reached : ℕ := Chunks.reach 500 c.permits c.takes c.all c.rounds

def hit : List Row := (c.all.take c.reached).filter c.permits

theorem table_store : c.Table c.store := ⟨c.present, List.Sublist.refl _⟩

theorem change_nil : c.change (fun row => decide (row ∈ ([] : List Row))) (c.store.rows c.name) =
    c.store.rows c.name := by
  unfold ManyRows.change
  cases c.action with
  | update data => simp
  | delete => simp

theorem update_chunk {data : Row} (haction : c.action = .update data) (hpre : c.Prechecked)
    (left : ℕ) :
    let o := ManyRows.batchByFilterFrom c.serve c.body (left + 1) 0 {} c.store
    o.2.rows c.name = c.change (· ∈ c.hit) (c.store.rows c.name) ∧
      o.1.totalSucceeded = c.hit.length := by
  have hreached : c.reached = if c.takes (c.taken c.store).length then 500 else 0 := by
    have hrounds : c.rounds = 1 := by
      unfold ManyRows.rounds
      rw [haction]
    rw [reached, hrounds, taken, Chunks.taken, ← countP_eq_length_filter]
    simp [Chunks.reach, all]
  have hbody : c.body.action = "update" := by
    unfold ManyRows.body
    rw [haction]
  have hnone (hhit : c.hit = []) {s : Store} (hs : s = c.store) :
      s.rows c.name = c.change (· ∈ c.hit) (c.store.rows c.name) := by
    rw [hhit, hs]
    exact c.change_nil.symm
  have hhit_taken (htaken : c.taken c.store = []) : c.hit = [] := by
    rw [hit, hreached]
    split
    · exact htaken
    · rfl
  dsimp only [ManyRows.batchByFilterFrom]
  by_cases hnil : c.matching (c.store.rows c.name) = []
  · have hhit : c.hit = [] := by rw [hit, all, hnil, take_nil, filter_nil]
    obtain ⟨hresult, hstate⟩ := c.serve_nothing hpre c.table_store hnil
    rw [hresult]
    simp only [ManyRows.answer_processed, Nat.cast_zero, true_or, if_true]
    refine ⟨hnone hhit hstate, ?_⟩
    rw [hhit]
    simp
  by_cases hdenied : c.taken c.store = []
  · obtain ⟨err, hresult, hstate⟩ := c.serve_denied hpre c.table_store hnil hdenied
    have hhit := hhit_taken hdenied
    rw [hresult]
    refine ⟨hnone hhit hstate, ?_⟩
    rw [hhit]
    rfl
  cases htakes : c.takes (c.taken c.store).length with
  | false =>
    obtain ⟨err, hresult, hstate⟩ := c.serve_refused hpre c.table_store hdenied htakes
    have hhit : c.hit = [] := by
      rw [hit, hreached, htakes]
      rfl
    rw [hresult]
    refine ⟨hnone hhit hstate, ?_⟩
    rw [hhit]
    rfl
  | true =>
    obtain ⟨hresult, -, hstate⟩ := c.serve_written hpre c.table_store hdenied htakes
    have hhit : c.hit = c.taken c.store := by
      rw [hit, hreached, htakes]
      rfl
    rw [hresult]
    simp only [hbody, or_true, if_true]
    refine ⟨by rw [hstate, hhit], ?_⟩
    rw [hhit, ManyRows.answer_succeeded, zero_add]

/-- The totals and the tables after the last chunk. -/
def outcome : BatchByFilterResult × Store :=
  ManyRows.batchByFilterFrom c.serve c.body 100 0 {} c.store

theorem run_eq_outcome : c.run = .ok (c.outcome.1, c.outcome.2) := if_neg c.filtered

/-- **What a call does**, if the first check passes: it changes the rows to change that its chunks
get to, and counts them. -/
theorem outcome_eq (hpre : c.Prechecked) :
    c.outcome.2.rows c.name = c.change (· ∈ c.hit) (c.store.rows c.name) ∧
      c.outcome.1.totalSucceeded = c.hit.length := by
  cases haction : c.action with
  | update data => exact c.update_chunk haction hpre 99
  | delete =>
    have hrounds : c.rounds = 100 := by
      unfold ManyRows.rounds
      rw [haction]
    have hall : c.store.rows c.name = c.kept c.all := by
      refine (filter_eq_self.2 fun row hrow => ?_).symm
      rw [Bool.or_eq_true, decide_eq_true_iff, Bool.not_eq_true', ← Bool.not_eq_true,
        ← imp_iff_not_or]
      exact fun hmatches => c.mem_matching.2 ⟨hrow, hmatches⟩
    obtain ⟨hrows, htotal⟩ := c.delete_from haction hpre 100 0 {} c.store c.all
      (List.Sublist.refl _) c.present hall
    have hreached : c.left^[100] c.all = Chunks.remaining c.permits c.all c.reached := by
      rw [iterate_left, reached, hrounds]
    rw [hreached] at hrows htotal
    refine ⟨?_, ?_⟩
    · rw [← c.change_kept haction (List.Sublist.refl _), ← hall] at hrows
      exact hrows
    · have hlength : c.hit.length + (Chunks.remaining c.permits c.all c.reached).length =
          c.all.length := length_remaining c.all c.reached
      rw [← hlength, Nat.cast_add, zero_add] at htotal
      exact add_right_cancel htotal

theorem outcome_of_not_prechecked (hpre : ¬c.Prechecked) :
    c.outcome.2.rows c.name = c.store.rows c.name ∧ c.outcome.1.totalSucceeded = 0 := by
  have hserve : ∃ err, (c.serve c.body c.store).result = .error err ∧
      (c.serve c.body c.store).state = c.store := by
    unfold ManyRows.Prechecked at hpre
    unfold ManyRows.serve
    cases hprovider : c.provider with
    | d1 =>
      rw [hprovider] at hpre
      dsimp only [D1.handleBatchByFilter]
      rw [c.checkFilterBody_eq.1, lift_ok_bind, check_bind, if_neg hpre]
      exact ⟨_, rfl, rfl⟩
    | durableObject =>
      rw [hprovider] at hpre
      have hconfig : c.object.requireConfig c.name = .ok c.config := by
        rw [requireConfig, c.declared]
        rfl
      dsimp only [DatabaseDO.batchByFilter]
      rw [bind_of_run (ensureTableExists_of_has c.present), hconfig, lift_ok_bind,
        emit_bind_apply, c.checkFilterBody_eq.2, lift_ok_bind]
      cases hcheck : c.object.filterPrecheck c.config c.caller c.name c.op c.body.action with
      | ok u => exact absurd hcheck hpre
      | error err => exact ⟨err, rfl, rfl⟩
  obtain ⟨err, hresult, hstate⟩ := hserve
  rw [outcome, ManyRows.batchByFilterFrom, hresult, hstate]
  exact ⟨rfl, rfl⟩

theorem not_completes_of_not_prechecked (hpre : ¬c.Prechecked) {row : Row}
    (hrow : row ∈ c.store.rows c.name) (htarget : c.target row = true) : ¬c.Completes := by
  rintro ⟨total, s, hrun, -, hcount⟩
  obtain ⟨rfl, rfl⟩ := Prod.mk.inj (Except.ok.inj (c.run_eq_outcome.symm.trans hrun))
  rw [(c.outcome_of_not_prechecked hpre).2, eq_comm, Nat.cast_eq_zero,
    length_eq_zero_iff] at hcount
  exact filter_eq_nil_iff.1 hcount row hrow htarget

end ManyCall

/-- **Many rows.**  `updateMany` and `deleteMany` change every matching row that the caller may
change, once, and count them, if and only if there is none, or the rule of the table admits an
empty row and the chunks get to all of them: the one chunk of an update, the hundred of a deletion,
each of 500 rows less the denied rows that were met before. -/
theorem ManyCall.completes_iff_holdsWhen (c : ManyCall) : c.Completes ↔ c.HoldsWhen c.takes := by
  have htargets : ((c.store.rows c.name).filter c.target).Perm (c.all.filter c.permits) := by
    have hfilter : (c.store.rows c.name).filter c.target =
        ((c.store.rows c.name).filter c.matchesFilter).filter c.permits := by
      rw [List.filter_filter]
      exact filter_congr fun row _ => Bool.and_comm _ _
    rw [hfilter]
    exact ((c.matching_perm _).symm).filter _
  by_cases hpre : c.Prechecked
  · obtain ⟨hrows, htotal⟩ := c.outcome_eq hpre
    constructor
    · rintro ⟨total', s', hrun', -, hcount⟩
      obtain ⟨rfl, rfl⟩ := Prod.mk.inj (Except.ok.inj (c.run_eq_outcome.symm.trans hrun'))
      rw [htotal, Nat.cast_inj, htargets.length_eq] at hcount
      exact .inr ⟨hpre, length_filter_take_iff.1 hcount⟩
    · intro hholds
      have hreach : ∀ row ∈ c.all.drop c.reached, c.permits row = false := by
        rcases hholds with hnone | ⟨-, hreach⟩
        · intro row hrow
          obtain ⟨hstored, hmatches⟩ := c.mem_matching.1 (mem_of_mem_drop hrow)
          simpa [ManyRows.target, hmatches] using hnone row hstored
        · exact hreach
      have hhit : c.hit = c.all.filter c.permits := filter_take_eq hreach
      refine ⟨_, _, c.run_eq_outcome, ?_, ?_⟩
      · rw [hrows, hhit]
        refine c.change_congr fun row hrow => ?_
        rw [Bool.eq_iff_iff, decide_eq_true_iff, ← htargets.mem_iff, mem_filter]
        exact and_iff_right hrow
      · rw [htotal, hhit, htargets.length_eq]
  · obtain ⟨hrows, htotal⟩ := c.outcome_of_not_prechecked hpre
    constructor
    · intro hcompletes
      refine .inl fun row hrow => Bool.eq_false_of_not_eq_true fun htarget => ?_
      exact c.not_completes_of_not_prechecked hpre hrow htarget hcompletes
    · rintro (hnone | ⟨hpre', -⟩)
      · have hfilter : (c.store.rows c.name).filter c.target = [] :=
          filter_eq_nil_iff.2 fun row hrow => by
            rw [hnone row hrow]
            exact nofun
        refine ⟨_, _, c.run_eq_outcome, ?_, ?_⟩
        · have hnil : c.change c.target (c.store.rows c.name) =
              c.change (fun row => decide (row ∈ ([] : List Row))) (c.store.rows c.name) :=
            c.change_congr fun row hrow => by rw [hnone row hrow]; rfl
          rw [hrows, hnil, c.change_nil]
        · rw [htotal, hfilter]
          rfl
      · exact absurd hpre' hpre

/-! ### A call that changes nothing -/

/-- A rule that lets everybody delete their own notes. -/
def ownNotesRule : RowRule :=
  .fn fun auth row => .value (row.lookup "owner" == auth.map (.str ·.id))

/-- Ann's call to delete her notes; there is one. -/
def ownNotesRows (provider : SqliteProvider) : ManyRows where
  provider
  object := .single "notes" { access := some { delete := some ownNotesRule } }
  env := { Env.simple with engine := .sorting }
  config := { access := some { delete := some ownNotesRule } }
  caller := { auth := some { id := "ann" } }
  name := "notes"
  action := .delete
  filters := [⟨"owner", "==", .str "ann"⟩]
  orFilters := []
  store := .single "notes" [[("id", .str "a"), ("owner", .str "ann")]]

def ownNotes (provider : SqliteProvider) : ManyCall where
  toManyRows := ownNotesRows provider
  less := (· < ·)
  ordered := sorting_ordersIds
  declared := getTableConfig_single
  present := has_single
  ids := by
    rw [ownNotesRows, rows_single]
    decide
  distinct := by
    rw [ownNotesRows, rows_single]
    decide
  filtered := nofun
  operators := by
    cases provider <;> decide
  alternatives := no_alternatives
  parses := rfl
  evaluated _ _ := rfl
  takes _ := true
  writes _ _ _ := rfl

/-- The rule denies the empty row, so Ann's note stays. -/
theorem ownNotes_not_completes :
    ¬(ownNotes .d1).Completes ∧ ¬(ownNotes .durableObject).Completes := by
  have hrow : [("id", .str "a"), ("owner", .str "ann")] ∈
      (ownNotesRows .d1).store.rows (ownNotesRows .d1).name := by
    rw [ownNotesRows, rows_single]
    exact mem_singleton_self _
  constructor
  · refine (ownNotes .d1).not_completes_of_not_prechecked ?_ hrow ?_
    · change ¬(evalRowRule _ _ _ = true)
      decide
    · decide
  · refine (ownNotes .durableObject).not_completes_of_not_prechecked ?_ hrow ?_
    · change ¬(filterPrecheck _ _ _ _ _ _ = .ok ())
      exact nofun
    · decide

end EdgeBase
