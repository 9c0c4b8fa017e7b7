import EdgeBase.Config
import Mathlib.Data.List.DropRight

/-!
# Queries

The query engine, up to the text of the SQL: `QueryOptions` is what `parseQueryParams` makes of the
query string, the builders compile it to a `Select`, and `SqlEngine.select` says which rows a
`Select` gives.  What depends on the database itself (comparison, text search, the order of rows,
which statements fail) is the parameter `SqlEngine`.

* `buildWhereClause`, `buildOrderByClause`, `buildLimitClause` : the clauses.
* `buildListQuery`, `buildCountQuery`, `buildGetQuery`, `buildSearchQuery`,
  `buildSubstringSearchQuery` : the statements of the read handlers.
-/

namespace EdgeBase

/-! ### Query options -/

inductive SqlDialect where
  | sqlite
  | postgres
  deriving DecidableEq

/-- `FilterTuple`: a field, an operator and a value. -/
structure FilterTuple where
  field : String
  op : String
  value : Json
  deriving DecidableEq

/-- `SortOption`; the direction is the text after the colon, if there is one. -/
structure SortOption where
  field : String
  direction : Option String := none
  deriving DecidableEq

structure PaginationOptions where
  limit : Option ℕ := none
  offset : Option ℕ := none
  page : Option ℕ := none
  perPage : Option ℕ := none
  after : Option String := none
  before : Option String := none
  deriving DecidableEq

/-- `QueryOptions`.  An empty list or text stands for an absent one, which the builders do not
tell apart. -/
structure QueryOptions where
  filters : List FilterTuple := []
  orFilters : List FilterTuple := []
  sort : List SortOption := []
  pagination : PaginationOptions := {}
  fields : List String := []
  search : String := ""
  includeTotal : Bool := false
  deriving DecidableEq

/-- `pagination.limit ?? pagination.perPage ?? 100`. -/
def PaginationOptions.size (p : PaginationOptions) : ℕ := p.limit.getD (p.perPage.getD 100)

/-- `parseQueryParams`, on what the parameters of a page say: a limit is capped, and an empty cursor
is no cursor. -/
def PaginationOptions.parse (p : PaginationOptions) : PaginationOptions :=
  { p with
    limit := p.limit.map (min · 1000)
    after := p.after.filter (· ≠ "")
    before := p.before.filter (· ≠ "") }

def PaginationOptions.isCursor (p : PaginationOptions) : Bool := p.after.isSome || p.before.isSome

/-- The value that SQLite stores for a boolean; other values are kept. -/
def booleanAsNumber : Json → Json
  | .bool b => .num (if b then 1 else 0)
  | v => v

/-- `normalizeTuple`: the booleans of a condition on a boolean field become numbers. -/
def normalizeTuple (schema : UserSchema) (t : FilterTuple) : FilterTuple :=
  match schema.lookup t.field with
  | some (some field) =>
    if field.type = .boolean then
      match t.value with
      | .arr vs => { t with value := .arr (vs.map booleanAsNumber) }
      | v => { t with value := booleanAsNumber v }
    else t
  | _ => t

def normalizeSQLiteBooleanQueryOptions (options : QueryOptions) (schema : Option UserSchema) :
    QueryOptions :=
  match schema with
  | none => options
  | some schema =>
    { options with
      filters := options.filters.map (normalizeTuple schema)
      orFilters := options.orFilters.map (normalizeTuple schema) }

/-! ### Statements -/

inductive SearchMode where
  /-- `MATCH` of the whole term on the FTS5 table of a list. -/
  | ftsPhrase
  /-- `MATCH` of the terms on the FTS5 table, with the highlighted columns and their marks. -/
  | fts (fields : List String) (pre post : String)
  /-- The text of some field contains the term. -/
  | substring (fields : List String)
  /-- The text of the PostgreSQL row contains the term. -/
  | row
  /-- The PostgreSQL search corpus contains the term. -/
  | corpus
  deriving DecidableEq

structure SearchClause where
  term : String
  mode : SearchMode
  deriving DecidableEq

/-- A `WHERE` clause: filters, a group of alternatives and the keyset bounds. -/
structure WhereClause where
  filters : List FilterTuple := []
  orFilters : List FilterTuple := []
  after : Option String := none
  before : Option String := none
  deriving DecidableEq

/-- One term of an `ORDER BY` clause. -/
inductive OrderTerm where
  /-- The rank of a full-text search. -/
  | rank
  | column (name : String) (desc : Bool)
  deriving DecidableEq

/-- A `SELECT` statement; no columns stands for all. -/
structure Select where
  table : String
  columns : List String := []
  search : Option SearchClause := none
  conditions : WhereClause := {}
  orderBy : List OrderTerm := []
  limit : Option ℕ := none
  offset : ℕ := 0
  deriving DecidableEq

/-- The operators that `buildFilterCondition` compiles. -/
def filterOperators : List String :=
  ["==", "!=", ">", "<", ">=", "<=", "contains", "in", "not in", "not-in", "contains-any"]

/-- `buildFilterCondition`, up to the SQL text. -/
def buildFilterCondition (t : FilterTuple) : Except HttpError FilterTuple :=
  if t.op ∈ filterOperators then .ok t
  else .error ⟨400, s!"Unsupported filter operator: {t.op}"⟩

def buildWhereClause (filters : List FilterTuple) (pagination : PaginationOptions)
    (orFilters : List FilterTuple) : Except HttpError WhereClause := do
  let filters ← filters.mapM buildFilterCondition
  if orFilters.length > 5 then
    .error ⟨400, "OR_FILTER_LIMIT_EXCEEDED: maximum 5 conditions in OR group"⟩
  else
    let orFilters ← orFilters.mapM buildFilterCondition
    .ok { filters, orFilters, after := pagination.after, before := pagination.before }

/-- `buildOrderByClause`: the sort keys, with the id as the last one. -/
def buildOrderByClause (sort : List SortOption) (pagination : PaginationOptions) : List OrderTerm :=
  let byId := OrderTerm.column "id" pagination.before.isSome
  let keys := sort.map fun s =>
    OrderTerm.column s.field ((s.direction.getD "asc").toUpper == "DESC")
  if sort.isEmpty then [byId]
  else if sort.any (·.field == "id") then keys
  else keys ++ [byId]

/-- `buildLimitClause`: the limit and the offset of a page. -/
def buildLimitClause (pagination : PaginationOptions) : ℕ × ℕ :=
  let limit := min pagination.size 1000
  if pagination.isCursor then (limit, 0)
  else (limit, pagination.offset.getD ((pagination.page.getD 1 - 1) * limit))

/-- `buildListQuery`: the page, and the statement of the exact total if the page has no cursor. -/
def buildListQuery (tableName : String) (options : QueryOptions) (dialect : SqlDialect) :
    Except HttpError (Select × Option Select) := do
  let search := if options.search = "" then none else
    some ⟨options.search, match dialect with | .sqlite => .ftsPhrase | .postgres => .row⟩
  let conditions ← buildWhereClause options.filters options.pagination options.orFilters
  let (limit, offset) := buildLimitClause options.pagination
  let page : Select :=
    { table := tableName, columns := options.fields, search, conditions
      orderBy := buildOrderByClause options.sort options.pagination, limit, offset }
  if options.pagination.isCursor then
    .ok (page, none)
  else
    let unpaged ← buildWhereClause options.filters {} options.orFilters
    .ok (page, some { table := tableName, search, conditions := unpaged })

def buildCountQuery (tableName : String) (filters orFilters : List FilterTuple) :
    Except HttpError Select := do
  let conditions ← buildWhereClause filters {} orFilters
  .ok { table := tableName, conditions }

def buildGetQuery (tableName id : String) (fields : List String) : Select :=
  { table := tableName, columns := fields, conditions := { filters := [⟨"id", "==", .str id⟩] } }

/-- The page and the total of a search in a given mode; a search never projects. -/
def buildModeQuery (tableName : String) (clause : SearchClause) (orderBy : List OrderTerm)
    (options : QueryOptions) : Except HttpError (Select × Select) := do
  let conditions ← buildWhereClause options.filters options.pagination options.orFilters
  let (limit, offset) := buildLimitClause options.pagination
  let unpaged ← buildWhereClause options.filters {} options.orFilters
  .ok ({ table := tableName, search := some clause, conditions, orderBy, limit, offset },
    { table := tableName, search := some clause, conditions := unpaged })

/-- `buildSearchQuery`, on the options of the search handlers. -/
def buildSearchQuery (tableName searchTerm : String) (options : QueryOptions)
    (ftsFields : List String) (pre post : String) (dialect : SqlDialect) :
    Except HttpError (Select × Select) :=
  match dialect with
  | .postgres =>
    let mode := if ftsFields.isEmpty then .substring ["id"] else .corpus
    buildModeQuery tableName ⟨searchTerm, mode⟩
      (buildOrderByClause options.sort options.pagination) options
  | .sqlite =>
    let orderBy := if options.sort.isEmpty then [.rank, .column "id" false]
      else buildOrderByClause options.sort options.pagination
    buildModeQuery tableName ⟨searchTerm, .fts ftsFields pre post⟩ orderBy options

def buildSubstringSearchQuery (tableName searchTerm : String) (options : QueryOptions)
    (fields : List String) : Except HttpError (Select × Select) :=
  buildModeQuery tableName ⟨searchTerm, .substring (if fields.isEmpty then ["id"] else fields)⟩
    (buildOrderByClause options.sort options.pagination) options

/-- The leading and trailing quotes of a search term, then its white space. -/
def stripQuotes (cs : List Char) : List Char :=
  let unquoted := (cs.dropWhile (· = '"')).rdropWhile (· = '"')
  (unquoted.dropWhile isTrimmed).rdropWhile isTrimmed

def sqliteFtsTerms (searchTerm : String) : List (List Char) :=
  ((searchTerm.toList.splitOnP isTrimmed).map stripQuotes).filter fun t => !t.isEmpty

/-- `sqliteFtsNeedsSubstringFallback`: some term is too short for the trigram index. -/
def sqliteFtsNeedsSubstringFallback (searchTerm : String) : Bool :=
  (sqliteFtsTerms searchTerm).any fun term => term.length < 3

/-! ### Writes -/

/-- One clause of the `SET` list of an `UPDATE`. -/
inductive SetClause where
  /-- `column = ?`. -/
  | assign (column : String) (value : Json)
  /-- `column = COALESCE(column, 0) + ?`. -/
  | increment (column : String) (value : Json)
  /-- `column = NULL`. -/
  | delete (column : String)
  deriving DecidableEq

def SetClause.column : SetClause → String
  | .assign c _ | .increment c _ | .delete c => c

inductive Statement where
  /-- `INSERT INTO`, with the values of the columns. -/
  | insert (table : String) (values : Row)
  /-- `INSERT INTO ... ON CONFLICT(target) DO UPDATE SET`, `DO NOTHING` without columns. -/
  | upsert (table : String) (values : Row) (target : String) (columns : List String)
  /-- `UPDATE ... WHERE id IN (...)`. -/
  | update (table : String) (clauses : List SetClause) (ids : List String)
  /-- `DELETE FROM ... WHERE id IN (...)`. -/
  | delete (table : String) (ids : List String)
  deriving DecidableEq

/-! ### The engine -/

/-- What a database decides: conditions on rows, the order of rows, the values it stores, and the
statements it refuses. -/
structure SqlEngine where
  /-- Whether a condition is true of a row. -/
  holds : FilterTuple → Row → Bool
  finds : SearchClause → Row → Bool
  /-- A found row, with the rank and highlight columns that the search selects. -/
  annotate : SearchClause → Row → Row
  /-- `id > ?`. -/
  above : String → Row → Bool
  /-- `id < ?`. -/
  below : String → Row → Bool
  /-- `ORDER BY`. -/
  order : List OrderTerm → List Row → List Row
  stored : String → Row → Row
  /-- `COALESCE(column, 0) + ?`. -/
  plus : Json → Json → Json
  /-- The error of a query on the rows of its table, as the client sees it. -/
  queryFault : Select → List Row → Option HttpError
  /-- The error of a write on the rows of its table, as the client sees it. -/
  writeFault : Statement → List Row → Option HttpError

/-- The named columns of a row; no names stand for all columns. -/
def onlyColumns (columns : List String) (r : Row) : Row :=
  if columns.isEmpty then r else Assoc.restrict (· ∈ columns) r

namespace SqlEngine

variable (e : SqlEngine)

/-- The rows that satisfy a `WHERE` clause. -/
def satisfies (c : WhereClause) (r : Row) : Bool :=
  c.filters.all (e.holds · r) && (c.orFilters.isEmpty || c.orFilters.any (e.holds · r)) &&
    c.after.all (e.above · r) && c.before.all (e.below · r)

/-- The rows that a statement selects, before it orders and cuts them. -/
def selects (q : Select) (r : Row) : Bool :=
  e.satisfies q.conditions r && q.search.all (e.finds · r)

/-- The columns that a statement gives of a row. -/
def project (q : Select) (r : Row) : Row :=
  onlyColumns q.columns (match q.search with
    | some clause => e.annotate clause r
    | none => r)

/-- The result of a `SELECT`. -/
def select (q : Select) (rows : List Row) : Except HttpError (List Row) :=
  match e.queryFault q rows with
  | some err => .error err
  | none =>
    let found := (e.order q.orderBy (rows.filter (e.selects q))).drop q.offset
    .ok ((q.limit.elim found found.take).map (e.project q))

/-- The rows that a `SELECT` gives unless it fails. -/
def found (q : Select) (rows : List Row) : List Row :=
  let found := (e.order q.orderBy (rows.filter (e.selects q))).drop q.offset
  (q.limit.elim found found.take).map (e.project q)

theorem select_of_no_fault {q : Select} {rows : List Row} (h : e.queryFault q rows = none) :
    e.select q rows = .ok (e.found q rows) := by
  rw [select, h]
  rfl

theorem select_of_fault {q : Select} {rows : List Row} {err : HttpError}
    (h : e.queryFault q rows = some err) : e.select q rows = .error err := by
  rw [select, h]

/-- The result of a `SELECT COUNT(*)`. -/
def count (q : Select) (rows : List Row) : Except HttpError ℕ :=
  match e.queryFault q rows with
  | some err => .error err
  | none => .ok (rows.filter (e.selects q)).length

/-- A row after one clause of an `UPDATE`; every clause reads the old row. -/
def assign (old : Row) (r : Row) : SetClause → Row
  | .assign c v => Assoc.set r c v
  | .increment c v => Assoc.set r c (e.plus ((old.lookup c).getD .null) v)
  | .delete c => Assoc.set r c .null

/-- A row after an `UPDATE`. -/
def updated (clauses : List SetClause) (r : Row) : Row := clauses.foldl (e.assign r) r

end SqlEngine

end EdgeBase
