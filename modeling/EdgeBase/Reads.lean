import EdgeBase.Page

/-!
# Reads

The list, count, search and get handlers of the three providers.  A list or search handler fetches
a page, applies the read rule to it, and answers; the fetching and the answering are definitions of
their own.

* `DatabaseDO.list`, `DatabaseDO.count`, `DatabaseDO.search`, `DatabaseDO.get`.
* `D1.handleList` to `D1.handleGet` and `PG.handleList` to `PG.handleGet`, which share the
  definitions of the namespace `Worker`.
-/

namespace EdgeBase

/-- `d1RuleRejectedMessage` and `doRuleRejectedMessage`; an empty id counts as none. -/
def ruleRejectedMessage (tableName action id : String) : String :=
  if id = "" then
    s!"Access denied. The '{action}' access rule for table '{tableName}' rejected this request."
  else
    s!"Access denied. The '{action}' access rule for table '{tableName}' rejected record '{id}'."

/-- A fetched page: what the request asked for, the rows as the rule sees them, and the exact
total, if the request asks for one and its query succeeds. -/
structure ReadPage where
  bound : Option ℕ
  options : QueryOptions
  rows : List Row
  total : Except HttpError (Option ℕ)

def pageTotal (env : Env) (store : Store) (options : QueryOptions) (count : Option Select) :
    Except HttpError (Option ℕ) :=
  match count with
  | some count =>
    if options.includeTotal then (env.engine.count count (store.rows count.table)).map some
    else .ok none
  | none => .ok none

def searchOffset (p : PaginationOptions) : ℕ := p.offset.getD ((p.page.getD 1 - 1) * p.size)

/-- The id to go on from after the last row of a page. -/
def lastRecordId (env : Env) (rows : List Row) : Option String :=
  (rows.getLast?.map (idText env)).filter (· ≠ "")

/-- The bounded answer to a page of which the rows `visible` are shown as `items`. -/
def boundedAnswer (env : Env) (tableName : String) (page : ReadPage) (bound : ℕ)
    (total : Option ℕ) (visible items : List Row) : Except HttpError Response :=
  buildBoundedPageResponse env
    { maxResponseBytes := bound, tableName, total, perPage := page.options.pagination.size
      entries := items.zip (visible.map (idText env))
      sourceHasMore := page.rows.length == page.options.pagination.size
      sourceCursorRecordId := lastRecordId env page.rows }

/-- The answer to a page of which the rows `visible` are shown as `items`; `body` is the unbounded
one. -/
def respond (env : Env) (tableName : String) (page : ReadPage) (visible items : List Row)
    (body : Option ℕ → Row) : Except HttpError Response := do
  let total ← page.total
  match page.bound with
  | some bound => boundedAnswer env tableName page bound total visible items
  | none => .ok { body := body total }

def searchBody (page : ReadPage) (total : Option ℕ) (items : List Row) : Row :=
  let limit := page.options.pagination.size
  let hasMore : Bool := match total with
    | some total => total > searchOffset page.options.pagination + page.rows.length
    | none => page.rows.length == limit
  [("items", .arr (items.map .obj)), ("total", jsonOr jsonNat total), ("hasMore", .bool hasMore),
    ("cursor", .null), ("page", .null), ("perPage", jsonNat limit)]

def emptySearch (env : Env) (tableName : String) (bound : Option ℕ) (options : QueryOptions) :
    Except HttpError Response :=
  match bound with
  | none => .ok { body := [("items", .arr [])] }
  | some bound =>
    buildBoundedPageResponse env
      { maxResponseBytes := bound, tableName, entries := []
        total := if options.includeTotal then some 0 else none
        perPage := options.pagination.size, sourceHasMore := false, sourceCursorRecordId := none }

/-- Answers a fetched page, unless the request is answered already. -/
def answerFetched (answer : ReadPage → Handler Response) :
    Except Response ReadPage → Handler Response
  | .error response => pure response
  | .ok page => answer page

/-! ### The Durable Object -/

/-- A Database Durable Object: the configuration it reads and the name it is addressed by. -/
structure DatabaseDO where
  config : EdgeBaseConfig
  doName : String

namespace DatabaseDO

variable (d : DatabaseDO) (env : Env)

/-- `getMyTables`: the tables of the block that the object is named after. -/
def getMyTables : List (String × TableConfig) :=
  ((d.config.block (parseDbDoName d.doName)).bind DbBlock.tables).getD []

/-- `getTableConfig`: the declaration of a table in the first block, in key order, that has one. -/
def getTableConfig (name : String) : Option TableConfig :=
  (d.config.databases.getD []).findSome? fun b => b.2.table name

/-- The tables that the DDL of a declaration creates: with a full-text index come the virtual table
and those that SQLite keeps for it. -/
def ddlTables (name : String) (config : TableConfig) : List String :=
  name :: if config.fts.isEmpty then [] else
    ["_fts", "_fts_data", "_fts_idx", "_fts_docsize", "_fts_config"].map (name ++ ·)

def runTableDDL (name : String) (config : TableConfig) (s : Store) : Store :=
  { (ddlTables name config).foldl Store.addTable s with schemaHashes := name :: s.schemaHashes }

/-- `initTable`; the upgrade of a table whose hash is known keeps its rows. -/
def initTable (name : String) (config : TableConfig) : Handler Unit := do
  let known ← Audited.read fun s => decide (name ∈ s.schemaHashes)
  if known then pure ()
  else do
    .emit (.created name config)
    .update (runTableDDL name config)

/-- `initializeSchema`, when the object wakes up. -/
def initializeSchema : Handler Unit := do
  .update (·.addTable "_meta")
  let _ ← Audited.forEach (fun t => initTable t.1 t.2) (Assoc.entries d.getMyTables)
  pure ()

def ensureTableExists (name : String) : Handler Unit := do
  let present ← Audited.read (·.has name)
  if present then pure ()
  else match d.getTableConfig name with
    | some config => initTable name config
    | none => .fail ⟨404, s!"Table \"{name}\" not found in this DO."⟩

/-- The row rule that a handler enforces: `rules?.op && !isServiceKey`, so neither an absent rule
nor the literal `false`. -/
def activeRule (config : Option TableConfig) (op : RowOp) (caller : Caller) : Option RowRule :=
  if caller.isServiceKey then none else (rowRule config op).filter Rule.truthy

/-- `String(row.id)`. -/
def recordName (row : Row) : String :=
  match row.lookup "id" with
  | some (.str s) => s
  | some .null => "null"
  | some v => env.textOf v
  | none => "undefined"

/-- The all-or-nothing check: fails on the first row that the rule denies. -/
def checkRows (rule : Option RowRule) (auth : Option AuthContext) (name : String)
    (rows : List Row) : Handler Unit :=
  match rows.find? fun row => !evalRowRule rule auth row with
  | some row => .fail ⟨403, ruleRejectedMessage name "read" (recordName env row)⟩
  | none => pure ()

def fetchList (name : String) (q : PageRequest) : Handler ReadPage := do
  d.ensureTableExists name
  let prepared ← .lift (prepareBoundedQuery env name q false)
  let config := d.getTableConfig name
  .emit (.opened name config)
  let options := normalizeSQLiteBooleanQueryOptions prepared.2 (tableSchema config)
  let query ← .lift (buildListQuery name options .sqlite)
  let rows ← runSelect env query.1
  let store ← .read id
  pure { bound := prepared.1, options, rows := normalizeRows env rows config
         total := pageTotal env store options query.2 }

/-- The body of an unbounded list answer: exact totals belong to offset pages only. -/
def listBody (page : ReadPage) (total : Option ℕ) (items : List Row) : Row :=
  let p := page.options.pagination
  [("items", .arr (items.map .obj))] ++
  (if p.isCursor then [] else
    [("total", jsonOr jsonNat total), ("page", jsonNat (p.page.getD 1)),
      ("perPage", jsonNat (p.perPage.getD (p.limit.getD 100)))]) ++
  [("hasMore", .bool (page.rows.length == p.size))] ++
  ((page.rows.getLast?.bind (·.lookup "id")).elim [] fun id => [("cursor", id)])

/-- The list handler from the query on: the read rule, the enrichment and the answer. -/
def answerList (caller : Caller) (name : String) (page : ReadPage) : Handler Response := do
  let config := d.getTableConfig name
  checkRows env (activeRule config .read caller) caller.auth name page.rows
  .emitAll (page.rows.map (.touched .read name))
  let items := page.rows.map (enrichRecord (tableHooks config) caller.auth)
  .lift (respond env name page page.rows items fun total => listBody page total items)

/-- `GET /tables/:name`. -/
def list (caller : Caller) (name : String) (q : PageRequest) : Handler Response := do
  let page ← d.fetchList env name q
  d.answerList env caller name page

/-- `GET /tables/:name/count`. -/
def count (name : String) (options : QueryOptions) : Handler Response := do
  d.ensureTableExists name
  let config := d.getTableConfig name
  .emit (.opened name config)
  let options := normalizeSQLiteBooleanQueryOptions options (tableSchema config)
  let query ← .lift (buildCountQuery name options.filters options.orFilters)
  let total ← runCount env query
  pure { body := [("total", jsonNat total)] }

/-- The queries of a search: the full-text index if the table has one and the term fits it, else
the substring search. -/
def searchQueries (config : Option TableConfig) (name : String) (q : PageRequest)
    (options : QueryOptions) : Except HttpError (Bool × Select × Select) := do
  let fts := config.elim [] TableConfig.fts
  let short := sqliteFtsNeedsSubstringFallback options.search
  if !fts.isEmpty && !short && !env.ftsHealthy name fts then
    .error ⟨503, s!"Indexed search for table '{name}' is unavailable because its FTS artifacts are unhealthy."⟩
  else if !fts.isEmpty && !short then
    let queries ← buildSearchQuery name options.search options fts q.highlightPre q.highlightPost
      .sqlite
    .ok (true, queries)
  else
    let fields := if fts.isEmpty then getTextFields config else fts
    let queries ← buildSubstringSearchQuery name options.search options fields
    .ok (false, queries)

/-- The error of a full-text query that fails. -/
def indexedSearchFailed (name : String) : HttpError :=
  ⟨503, s!"Indexed search for table '{name}' failed; refusing an unindexed full-table fallback."⟩

def searchFailed : Response where
  status := 400
  body := [("items", .arr []), ("error", .str "FTS5 not configured for this table.")]

/-- The search handler up to the query: a page, or an answer without one.  A query that fails is
answered as a missing index. -/
def fetchSearch (name : String) (q : PageRequest) : Handler (Except Response ReadPage) := do
  d.ensureTableExists name
  let prepared ← .lift (prepareBoundedQuery env name q true)
  let config := d.getTableConfig name
  .emit (.opened name config)
  let options := normalizeSQLiteBooleanQueryOptions prepared.2 (tableSchema config)
  if options.search = "" then
    let answer ← .lift (emptySearch env name prepared.1 options)
    pure (.error answer)
  else
    let query ← .lift (searchQueries env config name q options)
    let store ← .read id
    match env.engine.select query.2.1 (store.rows name) with
    | .error _ =>
      if query.1 then .fail (indexedSearchFailed name) else pure (.error searchFailed)
    | .ok rows =>
      match pageTotal env store options (some query.2.2) with
      | .error _ => pure (.error searchFailed)
      | .ok total =>
        pure (.ok { bound := prepared.1, options, rows := normalizeRows env rows config
                    total := .ok total })

def answerSearch (caller : Caller) (name : String) (page : ReadPage) : Handler Response := do
  let config := d.getTableConfig name
  checkRows env (activeRule config .read caller) caller.auth name page.rows
  .emitAll (page.rows.map (.touched .read name))
  let items := page.rows.map (enrichRecord (tableHooks config) caller.auth)
  .lift (respond env name page page.rows items fun total => searchBody page total items)

/-- `GET /tables/:name/search`. -/
def search (caller : Caller) (name : String) (q : PageRequest) : Handler Response := do
  let fetched ← d.fetchSearch env name q
  answerFetched (d.answerSearch env caller name) fetched

/-- `GET /tables/:name/:id`. -/
def get (caller : Caller) (name id : String) (fields : List String) : Handler Response := do
  d.ensureTableExists name
  let rows ← runSelect env (buildGetQuery name id fields)
  match rows with
  | [] => .fail ⟨404, s!"Record {id} not found."⟩
  | row :: _ =>
    let config := d.getTableConfig name
    .emit (.opened name config)
    let row := normalizeRow env row config
    .check (evalRowRule (activeRule config .read caller) caller.auth row)
      ⟨403, ruleRejectedMessage name "read" id⟩
    .emit (.touched .read name row)
    pure { body := enrichRecord (tableHooks config) caller.auth row }

end DatabaseDO

/-! ### The D1 and PostgreSQL handlers -/

/-- Whether a rule is the literal `false`. -/
def isLiteralFalse {α : Type} : Option (Rule α) → Bool
  | some (.bool false) => true
  | _ => false

namespace Worker

/-- The rule that a handler evaluates on rows: `!isServiceKey && rules?.read !== undefined`. -/
def activeRule (config : TableConfig) (op : RowOp) (caller : Caller) : Option RowRule :=
  if caller.isServiceKey then none else rowRule (some config) op

/-- The check that comes before any query: a literal `false` refuses. -/
def guardRead (config : TableConfig) (caller : Caller) (error : HttpError) : Handler Unit :=
  .check (¬isLiteralFalse (activeRule config .read caller)) error

def visibleRows (config : TableConfig) (caller : Caller) (page : ReadPage) : List Row :=
  page.rows.filter (evalRowRule (activeRule config .read caller) caller.auth)

/-- The list handlers from the query on; `tail` is the end of an unbounded body. -/
def answerList (tail : Env → ReadPage → List Row → Row) (env : Env) (config : TableConfig)
    (caller : Caller) (name : String) (page : ReadPage) : Handler Response := do
  let visible := visibleRows config caller page
  .emitAll (visible.map (.touched .read name))
  let items := visible.map (enrichRecord config.hooks caller.auth)
  .lift (respond env name page visible items fun total =>
    [("items", .arr (items.map .obj)), ("total", jsonOr jsonNat total)] ++ tail env page items)

/-- The search handlers from the query on: only a bounded answer is enriched. -/
def answerSearch (env : Env) (config : TableConfig) (caller : Caller) (name : String)
    (page : ReadPage) : Handler Response := do
  let visible := visibleRows config caller page
  .emitAll (visible.map (.touched .read name))
  let items := visible.map (enrichRecord config.hooks caller.auth)
  .lift (respond env name page visible items fun total => searchBody page total visible)

/-- The get handlers; `clean` is what the provider does to a fetched row. -/
def handleGet (clean : Row → Row) (denied : HttpError) (env : Env) (config : TableConfig)
    (caller : Caller) (name id : String) (fields : List String) : Handler Response := do
  let rows ← runSelect env (buildGetQuery name id fields)
  match rows with
  | [] => .fail ⟨404, s!"Record '{id}' not found in '{name}'."⟩
  | row :: _ =>
    let row := clean row
    .check (evalRowRule (activeRule config .read caller) caller.auth row) denied
    .emit (.touched .read name row)
    pure { body := enrichRecord config.hooks caller.auth row }

def handleCount (denied : HttpError) (env : Env) (config : TableConfig) (caller : Caller)
    (name : String) (options : QueryOptions) : Handler Response := do
  guardRead config caller denied
  let query ← .lift (buildCountQuery name options.filters options.orFilters)
  let total ← runCount env query
  pure { body := [("total", jsonNat total)] }

end Worker

namespace D1

variable (env : Env) (config : TableConfig)

/-- A fetched row, as the rule sees it. -/
def clean (row : Row) : Row := normalizeRow env (stripInternalFields row) config

def queryOptions (options : QueryOptions) : QueryOptions :=
  normalizeSQLiteBooleanQueryOptions options config.schema

/-- The columns that a list searches when the full-text query fails. -/
def fallbackFields : List String :=
  match config.schema with
  | none => ["id"]
  | some schema => schema.filterMap fun f => f.2.map fun _ => f.1

/-- The list handler up to the query, with the substring search as its fallback. -/
def fetchList (name : String) (q : PageRequest) : Handler ReadPage := do
  let prepared ← .lift (prepareBoundedQuery env name q false)
  let options := queryOptions config prepared.2
  let query ← .lift (buildListQuery name options .sqlite)
  let store ← .read id
  match env.engine.select query.1 (store.rows name) with
  | .ok rows =>
    pure { bound := prepared.1, options, rows := rows.map (clean env config)
           total := pageTotal env store options query.2 }
  | .error _ =>
    if options.search = "" then .fail ⟨500, "Query failed"⟩
    else
      let fallback ← .lift (buildSubstringSearchQuery name options.search options
        (fallbackFields config))
      let rows ← runSelect env fallback.1
      pure { bound := prepared.1, options, rows := rows.map (clean env config)
             total := pageTotal env store options (some fallback.2) }

def listTail (env : Env) (page : ReadPage) (items : List Row) : Row :=
  let p := page.options.pagination
  let hasMore := items.length == p.size
  let cursor := if hasMore then items.getLast?.map (idText env) else none
  [("hasMore", .bool hasMore), ("cursor", jsonOr .str cursor), ("page", jsonNat (p.page.getD 1)),
    ("perPage", jsonNat p.size)]

def handleList (caller : Caller) (name : String) (q : PageRequest) : Handler Response := do
  Worker.guardRead config caller ⟨403, ruleRejectedMessage name "list" ""⟩
  let page ← fetchList env config name q
  Worker.answerList listTail env config caller name page

def handleCount (caller : Caller) (name : String) (options : QueryOptions) : Handler Response :=
  Worker.handleCount ⟨403, ruleRejectedMessage name "count" ""⟩ env config caller name
    (queryOptions config options)

def fetchSearch (name : String) (q : PageRequest) : Handler (Except Response ReadPage) := do
  let prepared ← .lift (prepareBoundedQuery env name q true)
  let options := queryOptions config prepared.2
  if options.search = "" then
    let answer ← .lift (emptySearch env name prepared.1 options)
    pure (.error answer)
  else
    let query ← .lift (DatabaseDO.searchQueries env (some config) name
      { q with highlightPre := "<mark>", highlightPost := "</mark>" } options)
    let store ← .read id
    match env.engine.select query.2.1 (store.rows name) with
    | .error error => .fail (if query.1 then DatabaseDO.indexedSearchFailed name else error)
    | .ok rows =>
      let total ← .lift (pageTotal env store options (some query.2.2))
      pure (.ok { bound := prepared.1, options, rows := rows.map (clean env config)
                  total := .ok total })

def handleSearch (caller : Caller) (name : String) (q : PageRequest) : Handler Response := do
  Worker.guardRead config caller ⟨403, ruleRejectedMessage name "search" ""⟩
  let fetched ← fetchSearch env config name q
  answerFetched (Worker.answerSearch env config caller name) fetched

def handleGet (caller : Caller) (name id : String) (fields : List String) : Handler Response :=
  Worker.handleGet (clean env config) ⟨403, ruleRejectedMessage name "read" id⟩ env config caller
    name id fields

end D1

namespace PG

variable (env : Env) (config : TableConfig)

def accessDenied : HttpError := ⟨403, "Access denied."⟩

def fetchList (name : String) (q : PageRequest) : Handler ReadPage := do
  let prepared ← .lift (prepareBoundedQuery env name q false)
  let query ← .lift (buildListQuery name prepared.2 .postgres)
  let rows ← runSelect env query.1
  let store ← .read id
  pure { bound := prepared.1, options := prepared.2, rows := rows.map stripInternalPgFields
         total := pageTotal env store prepared.2 query.2 }

/-- The end of an unbounded list body: cursor pages say whether there is more, offset pages their
number. -/
def listTail (env : Env) (page : ReadPage) (items : List Row) : Row :=
  let p := page.options.pagination
  let hasMore := p.isCursor && decide (items.length ≥ p.size)
  let cursor := if hasMore then items.getLast?.map (idText env) else none
  [("hasMore", if p.isCursor then .bool hasMore else .null), ("cursor", jsonOr .str cursor),
    ("page", if p.isCursor then .null else jsonNat (p.page.getD 1)), ("perPage", jsonNat p.size)]

def handleList (caller : Caller) (name : String) (q : PageRequest) : Handler Response := do
  Worker.guardRead config caller accessDenied
  let page ← fetchList env name q
  Worker.answerList listTail env config caller name page

def handleCount (caller : Caller) (name : String) (options : QueryOptions) : Handler Response :=
  Worker.handleCount accessDenied env config caller name options

def searchQueries (name : String) (options : QueryOptions) : Except HttpError (Select × Select) :=
  if config.fts.isEmpty then
    buildSubstringSearchQuery name options.search options (getTextFields (some config))
  else buildSearchQuery name options.search options config.fts "" "" .postgres

def fetchSearch (name : String) (q : PageRequest) : Handler (Except Response ReadPage) := do
  let prepared ← .lift (prepareBoundedQuery env name q true)
  if prepared.2.search = "" then
    let answer ← .lift (emptySearch env name prepared.1 prepared.2)
    pure (.error answer)
  else
    let query ← .lift (searchQueries config name prepared.2)
    let rows ← runSelect env query.1
    let store ← .read id
    let total ← .lift (pageTotal env store prepared.2 (some query.2))
    pure (.ok { bound := prepared.1, options := prepared.2, rows := rows.map stripInternalPgFields
                total := .ok total })

def handleSearch (caller : Caller) (name : String) (q : PageRequest) : Handler Response := do
  Worker.guardRead config caller accessDenied
  let fetched ← fetchSearch env config name q
  answerFetched (Worker.answerSearch env config caller name) fetched

def handleGet (caller : Caller) (name id : String) (fields : List String) : Handler Response :=
  Worker.handleGet stripInternalPgFields accessDenied env config caller name id fields

end PG

end EdgeBase
