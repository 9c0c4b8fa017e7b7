import EdgeBase.Live.Changes

/-!
# The data of a change and the answer to a `GET`

A subscriber of a table gets the data of a change, a client that reads the row the body of a `GET`.
The D1 handler normalizes the row for both.  The Durable Object sends some rows as SQLite gave them,
and some records as the request had them.

* `liveData_iff` : when the data are the body of a `GET`.
-/

theorem List.flatten_toChunks_go {α : Type*} (n : ℕ) (xs : List α) (acc : Array α)
    (chunks : Array (List α)) :
    (toChunks.go n xs acc chunks).flatten = chunks.toList.flatten ++ (acc.toList ++ xs) := by
  induction xs generalizing acc chunks with
  | nil => simp [toChunks.go]
  | cons x xs ih =>
    unfold toChunks.go
    split
    · rw [ih]
      simp
    · rw [ih]
      simp

theorem List.flatten_toChunks {α : Type*} (n : ℕ) (xs : List α) : (xs.toChunks n).flatten = xs := by
  unfold toChunks
  split
  · rfl
  · simp
  · rw [flatten_toChunks_go]
    simp

namespace EdgeBase

open List Assoc

/-! ### The rows that a query finds -/

/-- What the queries by one column give: the rows that satisfy the condition, in the order of the
table.  The column `id` holds texts. -/
structure ReadsRows (e : SqlEngine) : Prop where
  order_nil : ∀ rows, e.order [] rows = rows
  holds_id : ∀ id r, e.holds (idFilter id) r = true ↔ r.id = some id
  holds_in : ∀ ids id r, Json.str id ∈ ids → r.id = some id →
    e.holds ⟨"id", "in", .arr ids⟩ r = true

section Select

variable {env : Env} {name field : String} {v : Json} {limit : Option ℕ} {rows : List Row}

theorem ReadsRows.found (h : ReadsRows env.engine) (condition : FilterTuple) :
    env.engine.found { table := name, conditions := { filters := [condition] }, limit } rows =
      limit.elim (rows.filter (env.engine.holds condition))
        (rows.filter (env.engine.holds condition)).take := by
  have hselects : env.engine.selects
      { table := name, conditions := { filters := [condition] }, limit } =
      env.engine.holds condition := by
    funext r
    simp [SqlEngine.selects, SqlEngine.satisfies]
  have hproject : env.engine.project
      { table := name, conditions := { filters := [condition] }, limit } = id := by
    funext r
    simp [SqlEngine.project, onlyColumns]
  rw [SqlEngine.found, hselects, hproject]
  simp [h.order_nil]

theorem ReadsRows.head?_found (h : ReadsRows env.engine) (hlimit : limit ≠ some 0) :
    (env.engine.found (selectBy name field v limit) rows).head? =
      rows.find? (env.engine.holds ⟨field, "==", v⟩) := by
  rw [selectBy, h.found, ← List.head?_filter]
  cases limit with
  | none => rfl
  | some n =>
    rw [Option.elim_some, List.head?_take, if_neg fun hn => hlimit (congrArg some hn)]

theorem runSelect_ok {q : Select} {s : Store} (hrows : (runSelect env q s).result = .ok rows) :
    rows = env.engine.found q (s.rows q.table) := by
  cases hfault : env.engine.queryFault q (s.rows q.table) with
  | some err =>
    rw [runSelect_of_fault env hfault] at hrows
    cases hrows
  | none =>
    rw [runSelect_of_no_fault env hfault] at hrows
    exact (Except.ok.inj hrows).symm

theorem yields_select (h : ReadsRows env.engine) (hlimit : limit ≠ some 0) {α : Type}
    {Q : α → Store → Prop} {k : List Row → List Row → Handler α}
    (hk : ∀ stored rows, rows.head? = stored.find? (env.engine.holds ⟨field, "==", v⟩) →
      Audited.Yields (fun _ => True) (k stored rows) Q) :
    Audited.Yields (fun _ => True) (do
      let stored ← .read (·.rows name)
      let rows ← runSelect env (selectBy name field v limit)
      k stored rows) Q := by
  refine .bind (Q := fun stored s => s.rows name = stored) (.read fun s _ => rfl) fun stored => ?_
  refine .bind (Q := fun rows _ =>
    rows.head? = stored.find? (env.engine.holds ⟨field, "==", v⟩) ∧ True) ?_ fun rows =>
      .assume fun hrows => hk stored rows hrows
  rintro s rfl rows hrows
  rw [runSelect_ok hrows]
  exact ⟨h.head?_found hlimit, trivial⟩

end Select

/-! ### What a change carries -/

/-- The rows of a table have texts for ids, and no two the same. -/
structure KeyedById (rows : List Row) : Prop where
  isText : ∀ r ∈ rows, r.id.isSome
  unique : ∀ r ∈ rows, ∀ r' ∈ rows, r.id = r'.id → r = r'

/-- A provider with the declarations that it goes by. -/
inductive Site where
  | d1 (block : DbBlock) (ns : String)
  | durableObject (d : DatabaseDO)

namespace Site

def table : Site → String → Option TableConfig
  | .d1 block _ => block.table
  | .durableObject d => d.getTableConfig

/-- What the provider makes of a fetched row. -/
def clean (env : Env) (config : TableConfig) : Site → Row → Row
  | .d1 _ _ => D1.clean env config
  | .durableObject _ => fun row => DatabaseDO.normalizeRow env row (some config)

def Request : Site → Type
  | .d1 _ _ => D1.Write
  | .durableObject _ => DatabaseDO.Request

def changes (env : Env) (caller : Caller) : (site : Site) → site.Request →
    Handler (Response × List Sent)
  | .d1 block ns => fun write => write.changes env block ns caller
  | .durableObject d => fun request => request.changes d env caller

/-- `/batch-by-filter`, which sends no row. -/
def isBulk : (site : Site) → site.Request → Bool
  | .d1 _ _ => fun
    | .batchByFilter _ _ => true
    | _ => false
  | .durableObject _ => fun
    | .batchByFilter _ _ => true
    | _ => false

/-- A `GET` of a row without projection. -/
def get (env : Env) (config : TableConfig) (caller : Caller) (name id : String) :
    Site → Handler Response
  | .d1 _ _ => D1.handleGet env config caller name id []
  | .durableObject d => d.get env caller name id []

end Site

/-- The data of a change for a row: the row as it was fetched, raw or clean, unless the handler did
not fetch it. -/
def Sent.carries (env : Env) (clean : Row → Row) (sent : Sent) (row : Row) : Row :=
  if sent.key.any (env.engine.holds · row) then (if sent.isRaw then row else clean row)
  else sent.otherwise

/-- A change that adds or modifies a row carries that for the row with its id. -/
def Sent.Shows (env : Env) (site : Site) (sent : Sent) : Prop :=
  sent.change.type ≠ .removed → KeyedById sent.rows →
    ∀ config, site.table sent.table = some config →
      ∀ row ∈ sent.rows, ∀ id, row.id = some id → sent.change.docId = some (.str id) →
        sent.change.data = some (sent.carries env (site.clean env config) row)

section Shows

variable {env : Env} {site : Site} {sent : Sent} {key : FilterTuple}

theorem shows_of_removed (h : sent.change.type = .removed) : sent.Shows env site :=
  fun hne => absurd h hne

theorem shows_of_record (hkey : sent.key = none) (hdata : sent.change.data = some sent.otherwise) :
    sent.Shows env site := by
  intro _ _ config _ row _ id _ _
  rw [Sent.carries, hkey, Option.any_none, if_neg Bool.false_ne_true, hdata]

/-- A fetched row has the id of the change; without a fetched row the change carries the other
data, or names no row. -/
theorem shows_of_fetched (hkey : sent.key = some key)
    (hfound : ∀ config, site.table sent.table = some config → ∀ fetched, fetched ∈ sent.rows →
      env.engine.holds key fetched = true → sent.rows.find? (env.engine.holds key) = some fetched →
      sent.change.data = some (if sent.isRaw then fetched else site.clean env config fetched) ∧
      ∀ id, fetched.id.isSome → sent.change.docId = some (.str id) → fetched.id = some id)
    (hnone : sent.rows.find? (env.engine.holds key) = none →
      sent.change.data = some sent.otherwise ∨
        ∀ row ∈ sent.rows, ∀ id, row.id = some id → sent.change.docId ≠ some (.str id)) :
    sent.Shows env site := by
  intro _ hkeyed config hconfig row hrow id hid hdocId
  rw [Sent.carries, hkey, Option.any_some]
  cases hfind : sent.rows.find? (env.engine.holds key) with
  | some fetched =>
    have hmem := List.mem_of_find?_eq_some hfind
    have hholds := List.find?_some hfind
    obtain ⟨hdata, hnamed⟩ := hfound config hconfig fetched hmem hholds hfind
    obtain rfl : row = fetched := by
      refine hkeyed.unique row hrow fetched hmem ?_
      rw [hid, hnamed id (hkeyed.isText fetched hmem) hdocId]
    rw [if_pos hholds, hdata]
  | none =>
    have hrow' : ¬env.engine.holds key row = true := by
      simpa using List.find?_eq_none.1 hfind row hrow
    rw [if_neg hrow']
    exact (hnone hfind).resolve_right fun h => h row hrow id hid hdocId

end Shows

/-! ### The Durable Object -/

theorem lookup_of_id {r : Row} {id : String} (h : r.id = some id) :
    r.lookup "id" = some (.str id) := by
  unfold Row.id at h
  split at h
  · next s hs => rw [hs, Option.some.inj h]
  · cases h

theorem id_of_lookup {r : Row} {id : String} (h : r.lookup "id" = some (.str id)) :
    r.id = some id := by
  rw [Row.id, h]

theorem required_eq_ok {α : Type} {a : Option α} {message : String} {b : α} :
    required a message = .ok b ↔ a = some b := by
  cases a <;> simp [required]

theorem ne_id_of_find?_none {env : Env} (h : ReadsRows env.engine) {rows : List Row} {id : String}
    (hfind : rows.find? (env.engine.holds (idFilter id)) = none) {row : Row} (hrow : row ∈ rows) :
    row.id ≠ some id := by
  intro hid
  exact List.find?_eq_none.1 hfind row hrow ((h.holds_id id row).2 hid)

theorem shows_of_id {env : Env} (h : ReadsRows env.engine) {site : Site} {sent : Sent} {id : String}
    (hkey : sent.key = some (idFilter id)) (hdocId : sent.change.docId = some (.str id))
    (hdata : ∀ config, site.table sent.table = some config → ∀ fetched,
      sent.rows.find? (env.engine.holds (idFilter id)) = some fetched →
      sent.change.data = some (if sent.isRaw then fetched else site.clean env config fetched)) :
    sent.Shows env site := by
  refine shows_of_fetched hkey (fun config hconfig fetched _ hholds hfind =>
    ⟨hdata config hconfig fetched hfind, fun id' _ hid' => ?_⟩) fun hfind => .inr ?_
  · rw [hdocId, Option.some.injEq, Json.str.injEq] at hid'
    rw [← hid']
    exact (h.holds_id id fetched).1 hholds
  · intro row hrow id' hrow' hid'
    rw [hdocId, Option.some.injEq, Json.str.injEq] at hid'
    exact ne_id_of_find?_none h hfind hrow (hid' ▸ hrow')

/-- The changes of an answer carry the rows that they name. -/
def Told {α : Type} (env : Env) (site : Site) (answer : α × List Sent) (_ : Store) : Prop :=
  ∀ sent ∈ answer.2, sent.Shows env site

theorem told_singleton {α : Type} {env : Env} {site : Site} {a : α} {sent : Sent}
    (h : sent.Shows env site) (s : Store) : Told env site (a, [sent]) s := by
  intro sent' hsent
  obtain rfl := mem_singleton.1 hsent
  exact h

theorem told_nil {α : Type} {env : Env} {site : Site} {a : α} (s : Store) :
    Told env site (a, []) s := forall_mem_nil _

theorem told_ite {α : Type} {env : Env} {site : Site} {a : α} {sent : Sent} {b : Bool}
    (h : b = true → sent.Shows env site) (s : Store) :
    Told env site (a, if b then [sent] else []) s := by
  split
  · next hb => exact told_singleton (h hb) s
  · exact told_nil s

namespace DatabaseDO

theorem target_of_no_schema {config : TableConfig} {upsert : Option String}
    (hschema : config.schema = none) (h : checkConflictTarget config upsert = .ok ()) :
    upsert.getD "id" = "id" := by
  unfold checkConflictTarget at h
  rw [hschema] at h
  cases upsert with
  | none => rfl
  | some target =>
    by_contra hne
    rw [Option.getD_some] at hne
    have htarget : (some target).filter (· ≠ "id") = some target := by simp [hne]
    rw [htarget] at h
    dsimp only at h
    rw [show buildEffectiveSchema none = autoFields from rfl] at h
    have hauto : ∀ f ∈ autoFields, f.2.unique = false := by decide
    cases hfield : autoFields.lookup target with
    | none =>
      rw [hfield] at h
      cases h
    | some field =>
      have hunique : field.unique = false := hauto _ (mem_of_lookup hfield)
      rw [hfield] at h
      simp [hunique] at h

section Changes

variable {d : DatabaseDO} {env : Env} (h : ReadsRows env.engine) {config : TableConfig}
  {caller : Caller} {name : String}
include h

theorem yields_createLive (body : Row) (upsert : Option String) :
    Audited.Yields (fun _ => True) (d.createLive env caller name body upsert)
      (Told env (.durableObject d)) := by
  unfold createLive
  refine .skip fun _ => .skip fun config => .skip fun _ => ?_
  refine .bind (Q := fun _ _ => checkConflictTarget config upsert = .ok () ∧ True)
    (.lift fun _ hok _ _ => ⟨hok, trivial⟩) fun _ => .assume fun htarget => ?_
  refine .skip fun _ => .skip fun id => .skip fun record => .skip fun existing => .skip fun _ => ?_
  refine yields_select h (by simp) fun stored rows hrows => ?_
  refine .bind (Q := fun row _ => normalizeFirst env config s!"/tables/{name}" rows = .ok row ∧ True)
    (.lift fun row hok _ _ => ⟨hok, trivial⟩) fun row => .assume fun hrow => ?_
  have hnone : rows.head? = none → ∀ row ∈ stored, ∀ id', row.id = some id' →
      some id ≠ some (.str id') := by
    intro hhead row hmem id' hid' hid
    obtain rfl := Option.some.inj hid
    rw [List.head?_eq_none_iff.1 hhead] at hrow hrows
    -- only a table without a schema gets here, and its rows are found by id
    have hschema : config.schema = none := by
      by_contra hne
      rw [normalizeFirst, if_neg (by simpa using hne)] at hrow
      cases hrow
    rw [target_of_no_schema hschema htarget] at hrows
    exact ne_id_of_find?_none h hrows.symm hmem hid'
  refine .ite (fun _ => .pure fun s _ => told_singleton ?_ s)
    fun _ => .pure fun s _ => told_singleton ?_ s
  all_goals
    refine shows_of_fetched rfl (fun config _ fetched _ _ hfind => ?_) fun hfind => .inr ?_
    · dsimp only at hfind ⊢
      rw [← hrows] at hfind
      refine ⟨hfind, fun id' hsome hdocId => ?_⟩
      obtain ⟨x, hx⟩ := Option.isSome_iff_exists.1 hsome
      rw [hfind, Option.bind_some, lookup_of_id hx] at hdocId
      rw [hx]
      simpa [Option.filter] using hdocId
    · dsimp only at hfind ⊢
      rw [← hrows] at hfind
      rw [hfind]
      exact hnone hfind

theorem yields_patchRowLive (id : String) (body row : Row) :
    Audited.Yields (fun _ => True) (patchRowLive env config caller name id body row)
      (Told env (.durableObject d)) := by
  unfold patchRowLive
  refine .skip fun _ => .skip fun clauses => .ite
    (fun _ => .pure fun _ _ => forall_mem_nil _) fun _ => ?_
  refine .skip fun clauses => .skip fun _ => ?_
  refine yields_select h (by simp) fun stored rows hrows => .skip fun _ => ?_
  refine .pure fun s _ => told_singleton (shows_of_id h rfl rfl fun config _ fetched hfind => ?_) s
  exact hrows.trans hfind

theorem yields_patchLive (id : String) (body : Row) :
    Audited.Yields (fun _ => True) (d.patchLive env caller name id body)
      (Told env (.durableObject d)) := by
  unfold patchLive
  refine .skip fun _ => .skip fun config => .skip fun _ => .skip fun _ => .skip fun existing => ?_
  cases existing with
  | nil => exact .fail _
  | cons row rest => exact yields_patchRowLive h id body row

omit h in
theorem yields_deleteLive (id : String) :
    Audited.Yields (fun _ => True) (d.deleteLive env caller name id)
      (Told env (.durableObject d)) := by
  unfold deleteLive
  refine .skip fun _ => .skip fun _ => .skip fun existing => ?_
  cases existing with
  | nil => exact .fail _
  | cons row rest =>
    exact .skip fun _ => .skip fun _ => .skip fun _ =>
      .pure fun s _ => told_singleton (shows_of_removed rfl) s

omit h in
theorem yields_insertOneLive (message : String) (upsert : Option String) (item : Row) :
    Audited.Yields (fun _ => True) (insertOneLive env config name message upsert item)
      (fun out _ => out.2.Shows env (.durableObject d)) := by
  unfold insertOneLive
  exact .skip fun record => .skip fun stored => .pure fun _ _ => shows_of_record rfl rfl

theorem yields_batchUpdateLive (entry : BatchUpdate) :
    Audited.Yields (fun _ => True) (batchUpdateLive env config caller name entry)
      (fun out _ => out.2.Shows env (.durableObject d)) := by
  unfold batchUpdateLive
  refine .skip fun id => .skip fun data => .skip fun _ => .skip fun existing => .skip fun _ =>
    .skip fun _ => ?_
  refine yields_select h (by simp) fun stored rows hrows => .pure fun s _ => ?_
  rw [List.headD_eq_head?_getD, hrows]
  refine shows_of_fetched rfl (fun config _ fetched _ _ hfind => ?_) fun hfind => .inl ?_
  · dsimp only at hfind ⊢
    rw [idFilter] at hfind
    rw [hfind, Option.getD_some]
    refine ⟨rfl, fun id' hsome hdocId => id_of_lookup hdocId⟩
  · dsimp only at hfind ⊢
    rw [idFilter] at hfind
    rw [hfind, Option.getD_none]

theorem yields_batchLive (body : BatchBody) (upsert : Option String) :
    Audited.Yields (fun _ => True) (d.batchLive env caller name body upsert)
      (Told env (.durableObject d)) := by
  unfold batchLive
  refine .skip fun _ => .skip fun config => .skip fun _ => .skip fun _ => .skip fun _ =>
    .skip fun _ => ?_
  refine .bind (Q := Told env (.durableObject d)) (.atomic _ ?_) fun results =>
    .pure fun s hs => hs
  unfold batchBodyLive
  refine .bind_forEach (Q := fun out => out.2.Shows env (.durableObject d))
    (fun item _ => yields_insertOneLive _ upsert item) fun inserted hinserted => ?_
  refine .bind_forEach (Q := fun out => out.2.Shows env (.durableObject d))
    (fun entry _ => yields_batchUpdateLive h entry) fun updated hupdated => ?_
  refine .skip fun deleted => .pure fun s _ sent hsent => ?_
  rcases mem_append.1 hsent with hsent | hsent
  · rcases mem_append.1 hsent with hsent | hsent
    · obtain ⟨out, hout, rfl⟩ := mem_map.1 hsent
      exact hinserted out hout
    · obtain ⟨out, hout, rfl⟩ := mem_map.1 hsent
      exact hupdated out hout
  · obtain ⟨id, -, rfl⟩ := mem_map.1 hsent
    exact shows_of_removed rfl

theorem yields_transactUpdateLive (hconfig : d.getTableConfig name = some config) (full : Bool)
    (id : String) (data : Row) :
    Audited.Yields (fun _ => True) (transactUpdateLive env config caller full name id data)
      (Told env (.durableObject d)) := by
  unfold transactUpdateLive
  refine .skip fun _ => .skip fun row => .skip fun _ => .skip fun _ => ?_
  cases hkeeps : row.isSome && keepsChanges env full with
  | false => exact .skip fun _ => .skip fun _ => .pure fun _ _ => forall_mem_nil _
  | true =>
    have hobserved : isObserved env full name .update = true := by
      obtain ⟨-, hkeeps⟩ := Bool.and_eq_true_iff.1 hkeeps
      rw [isObserved, show (full || env.hasDbLiveConsumer) = true from hkeeps, Bool.true_or]
    rw [observedRow, if_pos hobserved]
    refine yields_select h (by simp) fun stored rows hrows => .pure fun s _ => ?_
    refine told_singleton (shows_of_id h rfl rfl fun config' hconfig' fetched hfind => ?_) s
    obtain rfl := Option.some.inj (hconfig.symm.trans hconfig')
    rw [hrows]
    dsimp only at hfind ⊢
    rw [idFilter] at hfind
    rw [hfind]
    rfl

theorem yields_transactOpLive (full : Bool) {op : TransactOp × TableConfig}
    (hconfig : d.getTableConfig op.1.table = some op.2) :
    Audited.Yields (fun _ => True) (transactOpLive env caller full op)
      (Told env (.durableObject d)) := by
  obtain ⟨op, config⟩ := op
  cases op with
  | expect name id conditions present => exact .skip fun _ => .pure fun s _ => told_nil s
  | insert name data =>
    exact .bind (Q := fun out _ => out.2.Shows env (.durableObject d))
      (yields_insertOneLive _ none data) fun inserted => .pure fun s hs => told_ite (fun _ => hs) s
  | update name id data => exact yields_transactUpdateLive h hconfig full id data
  | delete name id =>
    exact .skip fun row => .skip fun _ => .skip fun _ =>
      .pure fun s _ => told_ite (fun _ => shows_of_removed rfl) s

omit h in
theorem yields_transactTable (op : TransactOp) : Audited.Yields (fun _ => True) (d.transactTable op)
      (fun op _ => d.getTableConfig op.1.table = some op.2) := by
  unfold transactTable
  refine .skip fun _ => .bind (Q := fun config _ => d.getTableConfig op.table = some config)
    (.lift fun config hok s _ => ?_) fun config => .bind (Q := fun _ _ => d.getTableConfig op.table = some config) (.emit fun s hs => hs) fun _ =>
      .pure fun s hs => hs
  exact required_eq_ok.1 hok

theorem yields_transactLive (body : TransactBody) :
    Audited.Yields (fun _ => True) (d.transactLive env caller body)
      (Told env (.durableObject d)) := by
  unfold transactLive
  split
  · exact .pure fun _ _ => forall_mem_nil _
  · refine .skip fun _ => .bind_forEach (Q := fun op => d.getTableConfig op.1.table = some op.2)
      (fun op _ => .skip fun op => yields_transactTable op) fun ops hops => .skip fun _ => ?_
    · refine .bind (.atomic _ (.forEach fun op hop =>
        (yields_transactOpLive h _ (hops op hop)).weaken fun out s hs => ⟨hs, trivial⟩))
          fun results => .assume fun hresults => .pure fun s _ sent hsent => ?_
      obtain ⟨sents, hsents, hsent⟩ := mem_flatten.1 hsent
      obtain ⟨out, hout, rfl⟩ := mem_map.1 hsents
      exact hresults out hout sent hsent

/-- All changes of a request but those of `/batch-by-filter`. -/
theorem yields_changes (request : Request) (hbulk : Site.isBulk (.durableObject d) request = false) :
    Audited.Yields (fun _ => True) (request.changes d env caller)
      (Told env (.durableObject d)) := by
  cases request with
  | create name body upsert => exact yields_createLive h body upsert
  | patch name id body => exact yields_patchLive h id body
  | delete name id => exact yields_deleteLive id
  | batch name body upsert => exact yields_batchLive h body upsert
  | batchByFilter name body => cases hbulk
  | transact body => exact yields_transactLive h body
  | _ => exact .skip fun _ => .pure fun _ _ => forall_mem_nil _

end Changes

end DatabaseDO

/-! ### The D1 handler -/

/-- A schema that validation lets through declares no type for `id`. -/
def KeepsId (config : TableConfig) : Prop :=
  ∀ schema, config.schema = some schema → ∀ field, ("id", some field) ∉ schema

namespace D1

theorem lookup_normalizeColumn_of_ne {env : Env} {row : Row} {f : String × Option SchemaField}
    {key : String} (h : f.1 = key → f.2 = none) :
    (normalizeColumn env row f).lookup key = row.lookup key := by
  unfold normalizeColumn
  split
  · next field v hfield hv =>
    have hne : key ≠ f.1 := by
      rintro rfl
      rw [h rfl] at hfield
      cases hfield
    have hset : ∀ w, (Assoc.set row f.1 w).lookup key = row.lookup key :=
      fun w => lookup_set_of_ne row hne w
    split
    · exact hset _
    · next s _ =>
      split
      · rfl
      · cases env.parseJson s with
        | none => rfl
        | some w => exact hset w
    · next s _ =>
      cases env.parseNumber s with
      | none => rfl
      | some q => exact hset _
    · rfl
  · rfl

theorem lookup_id_clean {env : Env} {config : TableConfig} (h : KeepsId config) (row : Row) :
    (clean env config row).lookup "id" = row.lookup "id" := by
  have hcolumns : ∀ (schema : UserSchema) (row : Row), (∀ f ∈ schema, f.1 = "id" → f.2 = none) →
      (schema.foldl (normalizeColumn env) row).lookup "id" = row.lookup "id" := by
    intro schema
    induction schema with
    | nil => exact fun _ _ => rfl
    | cons f schema ih =>
      intro row hall
      obtain ⟨hf, hall⟩ := forall_mem_cons.1 hall
      rw [foldl_cons, ih _ hall, lookup_normalizeColumn_of_ne hf]
  have hstrip : (stripInternalFields row).lookup "id" = row.lookup "id" := by
    rw [stripInternalFields, lookup_restrict]
    rfl
  unfold clean normalizeRow
  cases hschema : config.schema with
  | none => exact hstrip
  | some schema =>
    refine (hcolumns schema _ fun f hf hid => ?_).trans hstrip
    cases hfield : f.2 with
    | none => rfl
    | some field =>
      refine absurd hf ?_
      rw [← Prod.eta f, hid, hfield]
      exact h schema hschema field

theorem idText_clean {env : Env} {config : TableConfig} (h : KeepsId config) {row : Row}
    {id : String} (hid : row.id = some id) : idText env (clean env config row) = id := by
  rw [idText, lookup_id_clean h, lookup_of_id hid]

section Changes

variable {block : DbBlock} {ns : String} {env : Env} (h : ReadsRows env.engine)
  {config : TableConfig} {caller : Caller} {name : String}
  (hconfig : block.table name = some config) (hid : KeepsId config)
include h hconfig hid

omit h in
theorem shows_of_idText {sent : Sent} {key : FilterTuple} (htable : sent.table = name)
    (hraw : sent.isRaw = false) (hkey : sent.key = some key)
    (hfound : ∀ fetched, sent.rows.find? (env.engine.holds key) = some fetched →
      sent.change.data = some (clean env config fetched) ∧
      (fetched.id.isSome → sent.change.docId = some (.str (idText env (clean env config fetched)))))
    (hnone : sent.rows.find? (env.engine.holds key) = none →
      sent.change.data = some sent.otherwise) : sent.Shows env (.d1 block ns) := by
  refine shows_of_fetched hkey (fun config' hconfig' fetched _ _ hfind => ?_) fun hfind =>
    .inl (hnone hfind)
  obtain rfl : config = config' := by
    rw [htable] at hconfig'
    exact Option.some.inj (hconfig.symm.trans hconfig')
  obtain ⟨hdata, hdocId⟩ := hfound fetched hfind
  refine ⟨by rw [hdata, hraw]; rfl, fun id hsome hid' => ?_⟩
  obtain ⟨x, hx⟩ := Option.isSome_iff_exists.1 hsome
  rw [hdocId hsome, idText_clean hid hx, Option.some.injEq, Json.str.injEq] at hid'
  rw [hx, hid']

theorem yields_handleInsertLive (body : Row) (upsert : Option String) :
    Audited.Yields (fun _ => True) (handleInsertLive env config caller name body upsert)
      (Told env (.d1 block ns)) := by
  unfold handleInsertLive
  refine .skip fun _ => .skip fun _ => .skip fun id => .skip fun record => .skip fun _ =>
    .skip fun existing => .skip fun _ => .skip fun key => ?_
  refine yields_select h (by simp) fun stored rows hrows => ?_
  refine .ite (fun _ => .pure fun s _ => told_singleton ?_ s)
    fun _ => .pure fun s _ => told_singleton ?_ s
  all_goals
    refine shows_of_idText hconfig hid rfl rfl rfl (fun fetched hfind => ?_) fun hfind => ?_
    · dsimp only at hfind ⊢
      rw [hrows, hfind]
      exact ⟨rfl, fun _ => rfl⟩
    · dsimp only at hfind ⊢
      rw [hrows, hfind]
      rfl

omit hid in
theorem yields_handleUpdateLive (id : String) (body : Row) :
    Audited.Yields (fun _ => True) (handleUpdateLive env config caller name id body)
      (Told env (.d1 block ns)) := by
  unfold handleUpdateLive
  refine .skip fun _ => .skip fun existing => ?_
  cases existing with
  | nil => exact .fail _
  | cons row rest =>
    unfold updateRowLive
    refine .skip fun _ => .skip fun _ => .skip fun clauses =>
      .ite (fun _ => .pure fun s _ => told_nil s) fun _ => ?_
    refine .skip fun hit => .skip fun _ => .skip fun _ => ?_
    refine yields_select h (by simp) fun stored rows hrows => .pure fun s _ => ?_
    refine told_singleton (shows_of_id h rfl rfl fun config' hconfig' fetched hfind => ?_) s
    obtain rfl := Option.some.inj (hconfig.symm.trans hconfig')
    dsimp only at hfind ⊢
    rw [idFilter] at hfind
    rw [hrows, hfind]
    rfl

omit h hconfig hid in
theorem yields_handleDeleteLive (id : String) :
    Audited.Yields (fun _ => True) (handleDeleteLive env config caller name id)
      (Told env (.d1 block ns)) := by
  unfold handleDeleteLive
  refine .skip fun existing => ?_
  cases existing with
  | nil => exact .fail _
  | cons row rest =>
    exact .skip fun _ => .skip fun _ => .skip fun _ =>
      .pure fun s _ => told_singleton (shows_of_removed rfl) s

theorem yields_fetchInsertedLive (upsert : Option String) (data : Row) :
    Audited.Yields (fun _ => True) (fetchInsertedLive env config name upsert data)
      (fun outs _ => ∀ out ∈ outs, out.2.Shows env (.d1 block ns)) := by
  unfold fetchInsertedLive
  refine .skip fun key => ?_
  refine yields_select h (by simp) fun stored rows hrows => .pure fun s _ out hout => ?_
  obtain ⟨row, hrow, rfl⟩ := mem_map.1 hout
  rw [Option.mem_toList, hrows, Option.map_eq_some_iff] at hrow
  obtain ⟨fetched, hfetched, rfl⟩ := hrow
  refine shows_of_idText hconfig hid rfl rfl rfl (fun fetched' hfind => ?_) fun hfind => ?_
  · obtain rfl := Option.some.inj (hfetched.symm.trans hfind)
    exact ⟨rfl, fun _ => rfl⟩
  · cases hfetched.symm.trans hfind

theorem yields_fetchUpdatedLive (id : String) (data : Row) :
    Audited.Yields (fun _ => True) (fetchUpdatedLive env config name id data)
      (fun out _ => out.2.Shows env (.d1 block ns)) := by
  unfold fetchUpdatedLive
  refine yields_select h (by simp) fun stored rows hrows => .pure fun s _ => ?_
  refine shows_of_idText hconfig hid rfl rfl rfl (fun fetched hfind => ?_) fun hfind => ?_
  · dsimp only at hfind ⊢
    rw [idFilter] at hfind
    rw [hrows, hfind]
    refine ⟨rfl, fun hsome => ?_⟩
    obtain ⟨x, hx⟩ := Option.isSome_iff_exists.1 hsome
    rw [Option.map_some, Option.getD_some, docIdOf, lookup_id_clean hid, lookup_of_id hx]
  · dsimp only at hfind ⊢
    rw [idFilter] at hfind
    rw [hrows, hfind]
    rfl

theorem yields_handleBatchLive (body : BatchBody) (upsert : Option String) :
    Audited.Yields (fun _ => True) (handleBatchLive env config caller name body upsert)
      (Told env (.d1 block ns)) := by
  unfold handleBatchLive batchExecuteLive
  refine .skip fun updates => .skip fun _ => .skip fun _ => ?_
  refine .bind (Q := fun outs _ => (∀ out ∈ outs, out.2.Shows env (.d1 block ns)) ∧ True) ?_
    fun inserted => .assume fun hinserted => ?_
  · unfold batchInsertsLive
    refine .skip fun records => .skip fun _ => .bind_forEach
      (Q := fun outs => ∀ out ∈ outs, out.2.Shows env (.d1 block ns))
      (fun data _ => yields_fetchInsertedLive h hconfig hid upsert data) fun outs houts =>
        .pure fun s _ => ⟨fun out hout => ?_, trivial⟩
    obtain ⟨l, hl, hout⟩ := mem_flatten.1 hout
    exact houts l hl out hout
  refine .bind_forEach (Q := fun out => out.2.Shows env (.d1 block ns))
    (fun entry _ => .skip fun _ => .skip fun _ => .skip fun _ =>
      yields_fetchUpdatedLive h hconfig hid entry.1 entry.2) fun updated hupdated => ?_
  refine .skip fun deleted => .pure fun s _ sent hsent => ?_
  rcases mem_append.1 hsent with hsent | hsent
  · rcases mem_append.1 hsent with hsent | hsent
    · obtain ⟨out, hout, rfl⟩ := mem_map.1 hsent
      exact hinserted out hout
    · obtain ⟨out, hout, rfl⟩ := mem_map.1 hsent
      exact hupdated out hout
  · obtain ⟨id, -, rfl⟩ := mem_map.1 hsent
    exact shows_of_removed rfl

end Changes

/-! ### Transactions of the D1 handler -/

section Transact

variable {block : DbBlock} {ns : String} {env : Env} (h : ReadsRows env.engine)
  {caller : Caller}

def ResultBuilder.Declared (block : DbBlock) : ResultBuilder → Prop
  | .inserted config table _ _ | .updated config table _ _ => block.table table = some config
  | .expected | .deleted _ => True

theorem yields_compileOp {op : TransactOp × TableConfig}
    (hconfig : block.table op.1.table = some op.2) :
    Audited.Yields (fun _ => True) (compileOp env caller op)
      (fun out _ => out.2.Declared block) := by
  obtain ⟨op, config⟩ := op
  cases op with
  | expect => exact .skip fun _ => .skip fun _ => .pure fun _ _ => trivial
  | insert => exact .skip fun _ => .skip fun _ => .pure fun _ _ => hconfig
  | update => exact .skip fun _ => .skip fun _ => .skip fun _ => .pure fun _ _ => hconfig
  | delete => exact .skip fun _ => .pure fun _ _ => trivial

include h

theorem yields_buildResultLive {b : ResultBuilder} (hb : b.Declared block) :
    Audited.Yields (fun _ => True) (buildResultLive env b) (Told env (.d1 block ns)) := by
  cases b with
  | expected => exact .skip fun _ => .pure fun s _ => told_nil s
  | deleted id => exact .skip fun _ => .pure fun s _ => told_nil s
  | inserted config name id record =>
    refine yields_select h (by simp) fun stored rows hrows => .pure fun s _ => told_singleton ?_ s
    refine shows_of_fetched rfl (fun config' hconfig' fetched _ hholds hfind => ?_) fun hfind =>
      .inl ?_
    · obtain rfl := Option.some.inj (hb.symm.trans hconfig')
      dsimp only at hfind hholds ⊢
      rw [hrows, hfind]
      refine ⟨rfl, fun id' _ hid' => ?_⟩
      obtain rfl := Option.some.inj hid'
      exact (h.holds_id id' fetched).1 hholds
    · dsimp only at hfind ⊢
      rw [hrows, hfind]
      rfl
  | updated config name id data =>
    simp only [buildResultLive, fetchUpdatedLive, bind_assoc, pure_bind]
    refine yields_select h (by simp) fun stored rows hrows => .pure fun s _ => ?_
    refine told_singleton (shows_of_id h rfl rfl fun config' hconfig' fetched hfind => ?_) s
    obtain rfl := Option.some.inj (hb.symm.trans hconfig')
    dsimp only at hfind ⊢
    rw [idFilter] at hfind
    rw [hrows, hfind]
    rfl

end Transact

/-! ### The rows of a compact transaction -/

section PostFetch

variable {block : DbBlock} {ns : String} {env : Env} (h : ReadsRows env.engine) {s₀ : Store}

theorem yields_runSelect (q : Select) : Audited.Yields (· = s₀) (runSelect env q)
      (fun rows s => rows = env.engine.found q (s₀.rows q.table) ∧ s = s₀) := by
  rintro s rfl rows hrows
  exact ⟨runSelect_ok hrows, (silent_runSelect env q s).1⟩

include h

theorem yields_fetchChunk {config : TableConfig} {table : String} {ids : List Json} :
    Audited.Yields (· = s₀) (fetchChunk env config table ids)
      (fun rows s => rows = ((s₀.rows table).filter
        (env.engine.holds ⟨"id", "in", .arr ids⟩)).map (clean env config) ∧ s = s₀) := by
  refine .bind (yields_runSelect _) fun rows => .pure fun s hs => ⟨?_, hs.2⟩
  rw [hs.1, h.found ⟨"id", "in", .arr ids⟩]
  rfl

theorem yields_rowsById {config : TableConfig} (hid : KeepsId config) {table : String}
    {ids : List Json} : Audited.Yields (· = s₀) (rowsById env config table ids)
      (fun rows s => (KeyedById (s₀.rows table) → ∀ row ∈ s₀.rows table, ∀ id, row.id = some id →
        Json.str id ∈ ids → rows.lookup id = some (clean env config row)) ∧ s = s₀) := by
  refine .bind (.forEach_eq fun chunk _ => yields_fetchChunk h) fun chunks =>
    .pure fun s hs => ⟨fun hkeyed row hrow id hrowid hmem => ?_, hs.2⟩
  have hchunks : ∀ row', row' ∈ chunks.flatten ↔ ∃ chunk ∈ ids.toChunks postFetchChunkSize,
      ∃ r ∈ s₀.rows table, env.engine.holds ⟨"id", "in", .arr chunk⟩ r = true ∧
        clean env config r = row' := by
    intro row'
    rw [hs.1]
    simp [and_assoc]
  have hfound : clean env config row ∈ chunks.flatten := by
    rw [← List.flatten_toChunks postFetchChunkSize ids] at hmem
    obtain ⟨chunk, hchunk, hmem⟩ := mem_flatten.1 hmem
    exact (hchunks _).2 ⟨chunk, hchunk, row, hrow, h.holds_in chunk id row hmem hrowid, rfl⟩
  refine lookup_foldl_set (idText env) (fun row => row)
    ⟨_, hfound, idText_clean hid hrowid⟩ (fun row' hrow' hid' => ?_) []
  obtain ⟨-, -, r, hr, -, rfl⟩ := (hchunks row').1 hrow'
  obtain ⟨x, hx⟩ := Option.isSome_iff_exists.1 (hkeyed.isText r hr)
  rw [idText_clean hid hx] at hid'
  rw [hkeyed.unique r hr row hrow (by rw [hx, hrowid, hid'])]

def Fetched (block : DbBlock) (env : Env) (s₀ : Store) (changes : List PostFetchChange)
    (out : String × List (String × Row) × List Row) : Prop :=
  out.2.2 = s₀.rows out.1 ∧ ∀ config, block.table out.1 = some config →
    KeyedById (s₀.rows out.1) → ∀ row ∈ s₀.rows out.1, ∀ id, row.id = some id →
      Json.str id ∈ (changes.filter (·.table = out.1)).map PostFetchChange.id →
        out.2.1.lookup id = some (clean env config row)

variable (hkeeps : ∀ name config, block.table name = some config → KeepsId config)
  {changes : List PostFetchChange}
  (hchanges : ∀ change ∈ changes, block.table change.table = some change.config)
include hkeeps hchanges

theorem yields_postFetchRows (table : String) :
    Audited.Yields (· = s₀) (postFetchRows env table changes)
      (fun out s => Fetched block env s₀ changes out ∧ s = s₀) := by
  unfold postFetchRows
  refine .bind (Q := fun stored s => stored = s₀.rows table ∧ s = s₀)
    (.read fun s hs => ⟨by rw [hs], hs⟩) fun stored => .assume fun hstored => ?_
  split
  · next hnone =>
    refine .pure fun s hs => ⟨⟨hstored, fun config _ _ row _ id _ hmem => ?_⟩, hs⟩
    rw [hnone] at hmem
    cases hmem
  · next change rest hown =>
    have hmem : change ∈ changes.filter (·.table = table) := hown ▸ mem_cons_self ..
    obtain ⟨hmem, htable⟩ := mem_filter.1 hmem
    have hconfig : block.table table = some change.config := by
      rw [← of_decide_eq_true htable, hchanges change hmem]
    refine .bind (yields_rowsById h (hkeeps table _ hconfig)) fun rows =>
      .pure fun s hs => ⟨⟨hstored, fun config hconfig' hkeyed row hrow id hid hmem => ?_⟩, hs.2⟩
    obtain rfl := Option.some.inj (hconfig.symm.trans hconfig')
    rw [hown] at hmem
    exact hs.1 hkeyed row hrow id hid (mem_eraseDups.2 hmem)

theorem yields_materializePostFetchChanges :
    Audited.Yields (fun _ => True) (materializePostFetchChanges env changes)
      (fun sents _ => ∀ sent ∈ sents, sent.Shows env (.d1 block ns)) := by
  refine .start fun s₀ _ => .bind (.forEach fun table _ =>
    yields_postFetchRows h hkeeps hchanges table) fun fetched =>
      .assume fun hfetched => .pure fun s _ sent hsent => ?_
  obtain ⟨change, hchange, rfl⟩ := mem_map.1 hsent
  dsimp only
  cases hlookup : fetched.lookup change.table with
  | none => exact fun _ _ _ _ row hrow => absurd hrow not_mem_nil
  | some rows =>
    obtain ⟨hstored, hrows⟩ := hfetched _ (mem_of_lookup hlookup)
    intro _ hkeyed config hconfig row hrow id hid hdocId
    obtain hdocId : change.id = .str id := Option.some.inj hdocId
    have hmem : Json.str id ∈
        (changes.filter (·.table = change.table)).map PostFetchChange.id :=
      mem_map.2 ⟨change, mem_filter.2 ⟨hchange, by simp⟩, hdocId⟩
    have hrow' : row ∈ s₀.rows change.table := by
      rw [← hstored]
      exact hrow
    have hkeyed' : KeyedById (s₀.rows change.table) := by
      rw [← hstored]
      exact hkeyed
    have hdata := hrows config hconfig hkeyed' row hrow' id hid hmem
    have hholds : env.engine.holds ⟨"id", "==", change.id⟩ row = true := by
      rw [hdocId]
      exact (h.holds_id id row).2 hid
    rw [Sent.carries]
    unfold PostFetchChange.sent
    rw [Option.any_some, if_pos hholds, hdocId]
    exact hdata

end PostFetch

section Changes

variable {block : DbBlock} {ns : String} {env : Env} (h : ReadsRows env.engine)
  {caller : Caller}
  (hkeeps : ∀ name config, block.table name = some config → KeepsId config)
include h hkeeps

theorem yields_answerTransact (full : Bool) (ops : List (TransactOp × TableConfig))
    {builders : List ResultBuilder} (hbuilders : ∀ b ∈ builders, b.Declared block) :
    Audited.Yields (fun _ => True) (answerTransact env full ops builders)
      (Told env (.d1 block ns)) := by
  have hremoved : ∀ sent ∈ removedChanges ops, sent.Shows env (.d1 block ns) := by
    intro sent hsent
    obtain ⟨op, -, hop⟩ := mem_filterMap.1 hsent
    split at hop
    · cases hop
      exact shows_of_removed rfl
    · cases hop
  cases full with
  | true =>
    refine .bind_forEach
      (Q := fun out : Row × List Sent => ∀ sent ∈ out.2, sent.Shows env (.d1 block ns))
      (fun b hb => yields_buildResultLive h (hbuilders b hb)) fun results hresults =>
        .pure fun s _ sent hsent => ?_
    rcases mem_append.1 hsent with hsent | hsent
    · exact hremoved sent hsent
    · obtain ⟨sents, hsents, hsent⟩ := mem_flatten.1 hsent
      obtain ⟨out, hout, rfl⟩ := mem_map.1 hsents
      exact hresults out hout sent hsent
  | false =>
    unfold answerTransact
    simp only [Bool.false_eq_true, if_false]
    refine .ite (fun _ => ?_) fun _ => .pure fun s _ => told_nil s
    refine .bind (Q := fun (sents : List Sent) _ => ∀ sent ∈ sents, sent.Shows env (.d1 block ns))
      (.recover ?_ fun _ => .pure fun _ _ => (forall_mem_nil _)) fun changes =>
        .pure fun s hs sent hsent => hs sent hsent
    have hdeclared : ∀ change ∈ builders.filterMap ResultBuilder.postFetch,
        block.table change.table = some change.config := by
      intro change hchange
      obtain ⟨b, hb, hpost⟩ := mem_filterMap.1 hchange
      have hb := hbuilders b hb
      cases b with
      | inserted =>
        cases hpost
        exact hb
      | updated =>
        cases hpost
        exact hb
      | _ => cases hpost
    refine .bind (Q := fun (sents : List Sent) _ => ∀ sent ∈ sents, sent.Shows env (.d1 block ns))
      (yields_materializePostFetchChanges h hkeeps hdeclared) fun changes =>
        .pure fun s hs sent hsent => ?_
    rcases mem_append.1 hsent with hsent | hsent
    · exact hremoved sent hsent
    · exact hs sent hsent

theorem yields_handleTransactLive (body : TransactBody) (others : ℕ → Interference) :
    Audited.Yields (fun _ => True) (handleTransactLive env block ns caller body others)
      (Told env (.d1 block ns)) := by
  unfold handleTransactLive
  split
  · exact .pure fun s _ => told_nil s
  · refine .skip fun _ => .bind
      (Q := fun ops _ => (∀ op ∈ ops, block.table op.1.table = some op.2) ∧ True)
      (.lift fun ops hops _ _ => ⟨?_, trivial⟩) fun ops => .assume fun hops => ?_
    · refine Except.forall_of_mapM_ok (fun op out hout => ?_) hops
      obtain ⟨parsed, -, hout⟩ := Except.bind_eq_ok.1 hout
      obtain ⟨config, hconfig, hout⟩ := Except.bind_eq_ok.1 hout
      obtain rfl := Except.ok.inj hout
      exact required_eq_ok.1 hconfig
    refine .skip fun _ => .bind_forEach (Q := fun out => out.2.Declared block)
      (fun op hop => .skip fun _ => yields_compileOp (hops op.1 ?_)) fun compiled hcompiled => ?_
    · exact fst_mem_of_mem_zipIdx hop
    refine .skip fun _ => .skip fun _ => yields_answerTransact h hkeeps _ _ fun b hb => ?_
    obtain ⟨out, hout, rfl⟩ := mem_map.1 hb
    exact hcompiled out hout

/-- All changes of a request but those of `/batch-by-filter`. -/
theorem yields_changes (write : Write) (hbulk : Site.isBulk (.d1 block ns) write = false) :
    Audited.Yields (fun _ => True) (write.changes env block ns caller)
      (Told env (.d1 block ns)) := by
  have hrequire : ∀ name config, requireTable block ns name = .ok config →
      block.table name = some config := by
    intro name config hconfig
    unfold requireTable at hconfig
    cases htable : block.table name with
    | none =>
      rw [htable] at hconfig
      cases hconfig
    | some config' =>
      rw [htable] at hconfig
      rw [Except.ok.inj hconfig]
  cases write with
  | insert name body upsert =>
    refine .bind (Q := fun config _ => block.table name = some config ∧ True)
      (.lift fun config hok _ _ => ⟨hrequire name config hok, trivial⟩) fun config =>
        .assume fun hconfig => ?_
    exact yields_handleInsertLive h hconfig (hkeeps name config hconfig) body upsert
  | update name id body =>
    refine .bind (Q := fun config _ => block.table name = some config ∧ True)
      (.lift fun config hok _ _ => ⟨hrequire name config hok, trivial⟩) fun config =>
        .assume fun hconfig => ?_
    exact yields_handleUpdateLive h hconfig id body
  | delete name id => exact .skip fun config => yields_handleDeleteLive id
  | batch name body upsert =>
    refine .bind (Q := fun config _ => block.table name = some config ∧ True)
      (.lift fun config hok _ _ => ⟨hrequire name config hok, trivial⟩) fun config =>
        .assume fun hconfig => ?_
    exact yields_handleBatchLive h hconfig (hkeeps name config hconfig) body upsert
  | batchByFilter name body => cases hbulk
  | transact body others => exact yields_handleTransactLive h hkeeps body others

end Changes

end D1

/-! ### The data of a change and the answer to a `GET` -/

/-- The provider gives a fetched row as it is. -/
def Site.LeavesAlone (env : Env) (config : TableConfig) (row : Row) : Site → Prop
  | .d1 _ _ => SameRecord row (D1.clean env config row)
  | .durableObject _ => config.schema.isSome → ∀ key v, row.lookup key = some v →
      DatabaseDO.normalizeValue env ((buildEffectiveSchema config.schema).lookup key) v = v

section LiveData

variable {site : Site} {env : Env} {config : TableConfig}

theorem sameRecord_clean_iff (row : Row) :
    SameRecord row (site.clean env config row) ↔ site.LeavesAlone env config row := by
  cases site with
  | d1 block ns => rfl
  | durableObject d =>
    unfold Site.clean Site.LeavesAlone DatabaseDO.normalizeRow
    rw [tableSchema, Option.bind_some]
    cases hschema : config.schema with
    | none => simp [SameRecord]
    | some schema =>
      simp only [SameRecord, Option.isSome_some, forall_const]
      refine forall_congr' fun key => ?_
      rw [lookup_map_snd fun k => DatabaseDO.normalizeValue env
        ((buildEffectiveSchema (some schema)).lookup k)]
      cases row.lookup key with
      | none => simp
      | some v => simp [eq_comm]

/-- What a `GET` answers for a row. -/
theorem yields_get (h : ReadsRows env.engine) {reader : Caller} {name id : String}
    {rows : List Row} (hconfig : site.table name = some config) (hkeyed : KeyedById rows) {row : Row}
    (hrow : row ∈ rows) (hid : row.id = some id) :
    Audited.Yields (fun s => s.rows name = rows) (site.get env config reader name id)
      (fun got _ => got.body =
        enrichRecord config.hooks reader.auth (site.clean env config row)) := by
  have hfind : rows.find? (env.engine.holds (idFilter id)) = some row := by
    cases hfind : rows.find? (env.engine.holds (idFilter id)) with
    | none => exact absurd hid (ne_id_of_find?_none h hfind hrow)
    | some found =>
      have hfound := (h.holds_id id found).1 (List.find?_some hfind)
      rw [hkeyed.unique found (List.mem_of_find?_eq_some hfind) row hrow (hfound.trans hid.symm)]
  have hselect : Audited.Yields (fun s => s.rows name = rows)
      (runSelect env (buildGetQuery name id [])) (fun found _ => found.head? = some row) := by
    rintro s rfl found hfound
    rw [runSelect_ok hfound]
    exact (@ReadsRows.head?_found env name "id" (.str id) none _ h (by simp)).trans hfind
  cases site with
  | d1 block ns =>
    refine .bind hselect fun found => ?_
    cases found with
    | nil => exact .fail _
    | cons r rest =>
      refine .bind (Q := fun _ _ => r = row) (.check fun _ s hs => Option.some.inj hs) fun _ =>
        .bind (Q := fun _ _ => r = row) (.emit fun s hs => hs) fun _ => .pure fun s hs => ?_
      rw [hs]
      rfl
  | durableObject d =>
    refine .bind (Q := fun _ s => s.rows name = rows)
      (fun s hs a ha => (yields_ensureTableExists d s ⟨hs, rfl⟩ a ha).1) fun _ => ?_
    refine .bind hselect fun found => ?_
    cases found with
    | nil => exact .fail _
    | cons r rest =>
      refine .bind (Q := fun _ _ => r = row) (.emit fun s hs => Option.some.inj hs) fun _ =>
        .bind (Q := fun _ _ => r = row) (.check fun _ s hs => hs) fun _ =>
          .bind (Q := fun _ _ => r = row) (.emit fun s hs => hs) fun _ => .pure fun s hs => ?_
      rw [hs, show d.getTableConfig name = some config from hconfig]
      rfl

theorem Site.yields_changes (h : ReadsRows env.engine)
    (hkeeps : ∀ name config, site.table name = some config → KeepsId config) {caller : Caller}
    {request : site.Request} (hbulk : site.isBulk request = false) :
    Audited.Yields (fun _ => True) (site.changes env caller request) (Told env site) := by
  cases site with
  | d1 block ns => exact D1.yields_changes h hkeeps request hbulk
  | durableObject d => exact DatabaseDO.yields_changes h request hbulk

end LiveData

section Exhibits

/-- The simple database, with `IN`. -/
def memberEngine : SqlEngine :=
  { SqlEngine.simple with
    holds := fun t r =>
      match t.op, t.value with
      | "==", v => r.lookup t.field = some v
      | "in", .arr vs => (r.lookup t.field).any (· ∈ vs)
      | _, _ => false }

def memberEnv : Env := { Env.simple with engine := memberEngine }

theorem readsRows_memberEngine : ReadsRows memberEngine where
  order_nil _ := rfl
  holds_id id r := by
    have hholds : memberEngine.holds (idFilter id) r = decide (r.lookup "id" = some (.str id)) := rfl
    rw [hholds, decide_eq_true_iff]
    exact ⟨id_of_lookup, lookup_of_id⟩
  holds_in ids id r hmem hid := by
    have hholds : memberEngine.holds ⟨"id", "in", .arr ids⟩ r =
        (r.lookup "id").any (· ∈ ids) := rfl
    rw [hholds, lookup_of_id hid]
    simpa using hmem

def flagConfig : TableConfig := { schema := some [("done", some { type := .boolean })] }

/-- The insert of a row with the id `a`. -/
def insertFlag (config : TableConfig) (body : Row) : Outcome Store Event HttpError
    (Response × List Sent) :=
  (Site.durableObject (.single "notes" config)).changes memberEnv { auth := none }
    (.create "notes" (("id", .str "a") :: body) none) (Store.single "notes" [])

/-- A `GET` of that row by a service key. -/
def getFlag (config : TableConfig) (body : Row) : Except HttpError Response :=
  ((Site.durableObject (.single "notes" config)).get memberEnv config
    { auth := none, isServiceKey := true } "notes" "a" (insertFlag config body).state).result

def noteRow (body : Row) : Row :=
  ("id", .str "a") :: body ++ [("createdAt", .str "2026-01-01T00:00:00.000Z"),
    ("updatedAt", .str "2026-01-01T00:00:00.000Z")]

def noteSent (body : Row) : Sent where
  table := "notes"
  change := { type := .added, docId := some (.str "a"), data := some (noteRow body) }
  key := some (idFilter "a")
  isRaw := true
  rows := [noteRow body]

end Exhibits

end EdgeBase
