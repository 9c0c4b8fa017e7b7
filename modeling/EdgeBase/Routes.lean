import EdgeBase.Middleware

/-!
# The table routes

The routes of `routes/tables.ts`, mounted at `/api/db` behind the rules middleware: nine table
operations for a single-instance database, the same nine with an instance id, and `transact`.
The first registered route whose pattern matches the segments of the path serves the request, and
`routeToDO` forwards it to D1, to PostgreSQL or to a Durable Object.

* `matchRoute` : the route table.
-/

namespace EdgeBase

open Option

open PathText (Segment render)

/-! ### The route table -/

theorem isSegment_api : "api".toList ≠ [] ∧ '/' ∉ "api".toList := by decide

theorem isSegment_db : "db".toList ≠ [] ∧ '/' ∉ "db".toList := by decide

theorem isSegment_tables : "tables".toList ≠ [] ∧ '/' ∉ "tables".toList := by decide

inductive TableOp where
  | count
  | search
  | get
  | list
  | batch
  | batchByFilter
  | insert
  | update
  | delete
  deriving DecidableEq

inductive Target where
  /-- `tables/{table}[/{id}]`, with the fixed last segments folded into the operation. -/
  | table (op : TableOp) (table : Segment) (id : Option Segment)
  /-- `transact`. -/
  | transact
  deriving DecidableEq

/-- A matched route: the raw parameters and the target. -/
structure Route where
  ns : Segment
  instanceId : Option Segment
  target : Target
  deriving DecidableEq

/-- A segment is a fixed part of a pattern. -/
def isLit (s : Segment) (lit : String) : Bool := s.text = lit.toList

/-- The nine routes below `{namespace}` or `{namespace}/{instanceId}`: `/count` and `/search`
come before `/{id}`. -/
def matchTable (method : Method) : List Segment → Option Target
  | [tables, table] =>
    if isLit tables "tables" then
      match method with
      | .get | .head => some (.table .list table none)
      | .post => some (.table .insert table none)
      | _ => none
    else none
  | [tables, table, last] =>
    if isLit tables "tables" then
      match method with
      | .get | .head =>
        if isLit last "count" then some (.table .count table none)
        else if isLit last "search" then some (.table .search table none)
        else some (.table .get table (some last))
      | .post =>
        if isLit last "batch" then some (.table .batch table none)
        else if isLit last "batch-by-filter" then some (.table .batchByFilter table none)
        else none
      | .patch => some (.table .update table (some last))
      | .delete => some (.table .delete table (some last))
      | _ => none
    else none
  | _ => none

/-- `POST {namespace}/transact` and `POST {namespace}/{instanceId}/transact`. -/
def matchTransact (method : Method) : List Segment → Option Target
  | [transact] => if method = .post ∧ isLit transact "transact" then some .transact else none
  | _ => none

/-- The first registered route that a path below `/api/db` matches: the single-instance table
routes, the dynamic table routes, then `transact`. -/
def matchBelowDb (method : Method) : List Segment → Option Route
  | [] => none
  | ns :: rest =>
    (matchTable method rest).map (⟨ns, none, ·⟩) <|>
      (match rest with
        | [] => none
        | iid :: rest' => (matchTable method rest').map (⟨ns, some iid, ·⟩)) <|>
      (matchTransact method rest).map (⟨ns, none, ·⟩) <|>
      (match rest with
        | [] => none
        | iid :: rest' => (matchTransact method rest').map (⟨ns, some iid, ·⟩))

def matchRoute (req : Request) : Option Route :=
  match req.path with
  | api :: db :: rest => if isLit api "api" && isLit db "db" then matchBelowDb req.method rest else none
  | _ => none

/-! ### Forwarding -/

/-- Characters that are neither escaped nor given a meaning by a URL. -/
def isPlain (c : Char) : Bool := c.isAlphanum || c = '-' || c = '_'

/-- The web framework, as far as the routes depend on it. -/
structure Framework where
  /-- `c.req.param(..)` of a raw segment. -/
  param : List Char → String
  param_decode : ∀ raw text, Percent.decode raw = some text → param raw = String.ofList text
  /-- The table that the collection route of a Durable Object reads in the URL built from a
  table parameter, if that URL is a collection URL. -/
  objectTable : String → Option String
  objectTable_plain : ∀ name : String, name ≠ "" → name.toList.all isPlain →
    objectTable name = some name

/-- A framework that decodes what it can and reads plain names only. -/
def Framework.plain : Framework where
  param raw := String.ofList ((Percent.decode raw).getD raw)
  param_decode raw text h := by rw [h, getD_some]
  objectTable name := if name ≠ "" ∧ name.toList.all isPlain then some name else none
  objectTable_plain name hne hall := if_pos ⟨hne, hall⟩

inductive Backend where
  /-- `handleD1Request`. -/
  | d1
  /-- `handlePgRequest`. -/
  | postgres
  | object (name : String)
  deriving DecidableEq

structure Forwarded where
  backend : Backend
  ns : String
  /-- The table parameter of the route, decoded once; it stands in the path of an object's URL. -/
  tableParam : String
  /-- The table name for D1 and PostgreSQL: `decodeURIComponent` applied to the parameter. -/
  tableName : String
  deriving DecidableEq

/-- The choice of the provider in `routeToDO`. -/
def chooseBackend (config : EdgeBaseConfig) (ns : String) (instanceId : Option String)
    (block : DbBlock) : Backend :=
  if instanceId.all (· = "") && shouldRouteToD1 ns config then .d1
  else if block.provider = some .neon ∨ block.provider = some .postgres then .postgres
  else .object (getDbDoName ns instanceId)

/-- `routeToDO`, up to the call of the provider. -/
def routeToDO (config : EdgeBaseConfig) (ns : String) (instanceId : Option String)
    (tableParam : String) : Except HttpError Forwarded :=
  match Percent.decode tableParam.toList with
  | none => .error ⟨500, "URI malformed"⟩
  | some tableName =>
    match resolveDbTarget config ns instanceId with
    | .error issue => .error ⟨issue.status, formatDbTargetValidationIssue issue ns⟩
    | .ok (block, _) =>
      .ok ⟨chooseBackend config ns instanceId block, ns, tableParam, String.ofList tableName⟩

/-- The table name that a route handler passes on; a `transact` route passes the empty one. -/
def Route.tableParam (F : Framework) (route : Route) : String :=
  match route.target with
  | .table _ table _ => F.param table.text
  | .transact => ""

/-- The handlers of the table routes: `routeToDO` with the decoded parameters. -/
def forward (F : Framework) (config : EdgeBaseConfig) (route : Route) :
    Except HttpError Forwarded :=
  routeToDO config (F.param route.ns.text) (route.instanceId.map fun s => F.param s.text)
    (route.tableParam F)

/-- `doPath.replace(pattern, '')`: the text without the first occurrence of the pattern. -/
def removeFirst (pattern : List Char) : List Char → List Char
  | [] => []
  | c :: cs =>
    if pattern <+: c :: cs then (c :: cs).drop pattern.length else c :: removeFirst pattern cs

/-- The handler that D1 and PostgreSQL choose for a `POST`. -/
inductive PostHandler where
  | searchRelated
  | batch
  | batchByFilter
  | insert
  deriving DecidableEq

/-- The `POST` branch of `handleD1Request` and `handlePgRequest`. -/
def postHandler (tableName doPath : String) : PostHandler :=
  let pathSuffix := removeFirst ("/tables/" ++ tableName).toList doPath.toList
  if pathSuffix = "/search-related".toList then .searchRelated
  else if pathSuffix = "/batch".toList then .batch
  else if pathSuffix = "/batch-by-filter".toList then .batchByFilter
  else .insert

/-- The table whose create handler a forwarded `POST` to a collection runs.  D1 and PostgreSQL
answer 404 for a table that the block does not declare. -/
def createTarget (F : Framework) (config : EdgeBaseConfig) (fwd : Forwarded) : Option String :=
  match fwd.backend with
  | .d1 | .postgres =>
    if ((config.block fwd.ns).bind (·.table fwd.tableName)).isSome
        ∧ postHandler fwd.tableName ("/tables/" ++ fwd.tableParam) = .insert then
      some fwd.tableName
    else none
  | .object _ => F.objectTable fwd.tableParam

theorem matchTable_insert {method : Method} {segs : List Segment} {table : Segment}
    {id : Option Segment} (h : matchTable method segs = some (.table .insert table id)) :
    method = .post := by
  obtain _ | ⟨tables, _ | ⟨name, _ | ⟨last, _ | ⟨more, segs⟩⟩⟩⟩ := segs
  · cases h
  · cases h
  · cases method <;> simp [matchTable] at h ⊢
  · simp only [matchTable] at h
    split_ifs at h <;> cases method <;> simp_all
  · cases h

theorem matchTransact_ne_insert {method : Method} {segs : List Segment} {table : Segment}
    {id : Option Segment} : matchTransact method segs ≠ some (.table .insert table id) := by
  unfold matchTransact
  split <;> simp

/-- Only a `POST` is served by an insert route. -/
theorem method_of_insertRoute {req : Request} {ns table : Segment} {iid id : Option Segment}
    (h : matchRoute req = some ⟨ns, iid, .table .insert table id⟩) : req.method = .post := by
  have hT {segs : List Segment} {ns' : Segment} {iid' : Option Segment}
      (h : (matchTable req.method segs).map (⟨ns', iid', ·⟩) =
        some (⟨ns, iid, .table .insert table id⟩ : Route)) : req.method = .post := by
    obtain ⟨target, ht, he⟩ := map_eq_some_iff.1 h
    obtain rfl : target = .table .insert table id := congrArg Route.target he
    exact matchTable_insert ht
  have hX {segs : List Segment} {ns' : Segment} {iid' : Option Segment} :
      (matchTransact req.method segs).map (⟨ns', iid', ·⟩) ≠
        some (⟨ns, iid, .table .insert table id⟩ : Route) := by
    intro h
    obtain ⟨target, ht, he⟩ := map_eq_some_iff.1 h
    obtain rfl : target = .table .insert table id := congrArg Route.target he
    exact matchTransact_ne_insert ht
  unfold matchRoute at h
  split at h
  · split_ifs at h
    unfold matchBelowDb at h
    split at h
    · cases h
    · simp only [orElse_eq_orElse, orElse_eq_or, or_eq_some_iff] at h
      obtain h | ⟨-, h | ⟨-, h | ⟨-, h⟩⟩⟩ := h
      · exact hT h
      · split at h
        · cases h
        · exact hT h
      · exact absurd h hX
      · split at h
        · cases h
        · exact absurd h hX
  · cases h

/-- What `routeToDO` forwards, and when. -/
theorem routeToDO_ok_iff {config : EdgeBaseConfig} {ns : String} {instanceId : Option String}
    {tableParam : String} {fwd : Forwarded} : routeToDO config ns instanceId tableParam = .ok fwd ↔
      ∃ tableName block dynamic, Percent.decode tableParam.toList = some tableName ∧
        resolveDbTarget config ns instanceId = .ok (block, dynamic) ∧
        fwd = ⟨chooseBackend config ns instanceId block, ns, tableParam,
          String.ofList tableName⟩ := by
  unfold routeToDO
  cases Percent.decode tableParam.toList with
  | none => simp
  | some tableName =>
    cases resolveDbTarget config ns instanceId with
    | error issue => simp
    | ok target =>
      obtain ⟨block, dynamic⟩ := target
      simp [eq_comm]

end EdgeBase
