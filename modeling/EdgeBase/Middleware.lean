import EdgeBase.Config
import EdgeBase.Lib.PathText
import EdgeBase.Lib.Percent

/-!
# The rules middleware

`rulesMiddleware` of `middleware/rules.ts`, which stands in front of every `/api/db` route.  It
reads the raw text of the path, not the route that will serve the request, and either lets the
request pass or refuses it.  The model also records which rules it evaluated on the way, so that
"passed" and "passed because a rule said so" can be told apart.

* `getAction`, `tableGate`, `accessGate`, `rulesMiddleware` : the decision, and the evaluations.
* `evaluated_tableGate`, `accessGate_passes_iff` : what a gate that lets a request pass has
  evaluated.
-/

namespace EdgeBase

open PathText (Segment render parts)

inductive Method where
  | get
  | head
  | post
  | put
  | patch
  | delete
  | options
  deriving DecidableEq

/-- The result of `validateKey`. -/
inductive KeyResult where
  | valid
  | invalid
  | missing
  deriving DecidableEq

/-- A request to a path below `/api/db`, with what the earlier middleware established. -/
structure Request where
  method : Method
  /-- The raw, still escaped segments of the path. -/
  path : List Segment
  /-- `c.req.query('upsert') === 'true'`. -/
  upsert : Bool := false
  /-- The header `X-EdgeBase-DB-Id`. -/
  dbIdHeader : Option String := none
  auth : Option AuthContext := none
  /-- A call that the server makes to itself. -/
  isInternal : Bool := false
  /-- The verdict of the key store on the presented service key for each scope, if one is
  presented. -/
  serviceKey : Option (String → KeyResult) := none

/-- `validateKey`: without a presented key the result is `missing`. -/
def Request.validateKey (req : Request) (scope : String) : KeyResult :=
  match req.serviceKey with
  | none => .missing
  | some key => key scope

/-- A request of an outside caller without a service key. -/
def Request.IsClient (req : Request) : Prop := req.isInternal = false ∧ req.serviceKey = none

/-! ### Reading the path -/

/-- `path.includes(pattern)`. -/
def includes (path : List Char) (pattern : String) : Bool := decide (pattern.toList <:+: path)

inductive PathMatch where
  /-- Not a table path, or no table name in it. -/
  | skip
  /-- The table name has a malformed escape, and `decodeURIComponent` throws. -/
  | malformed
  /-- Namespace and instance id as written, table name decoded. -/
  | table (ns : String) (instanceId : Option String) (tableName : String)
  deriving DecidableEq

/-- The first lines of `rulesMiddleware`: `tablesIdx` is the first segment `tables`, the segment
behind it names the table, segment 2 the namespace, and segment 3 the instance if `tablesIdx` is
4. -/
def parsePath (path : List Char) : PathMatch :=
  let pathParts := parts path
  match pathParts.findIdx? (· = "tables".toList) with
  | none => .skip
  | some tablesIdx =>
    if pathParts[1]? ≠ some "db".toList then .skip
    else
      match pathParts[tablesIdx + 1]?, pathParts[2]? with
      | some rawTableName, some ns =>
        match Percent.decode rawTableName with
        | none => .malformed
        | some tableName =>
          .table (String.ofList ns)
            (if tablesIdx = 4 then pathParts[3]?.map String.ofList else none)
            (String.ofList tableName)
      | _, _ => .skip

def extractAuthIdForUserNamespace (ns : String) (auth : Option AuthContext) : Option String :=
  if ns = "user" then (auth.map AuthContext.id).filter (· ≠ "") else none

/-- `instanceId || c.req.header('X-EdgeBase-DB-Id') || extractAuthIdForUserNamespace(..)`. -/
def Request.dbId (req : Request) (ns : String) (instanceId : Option String) : Option String :=
  instanceId.filter (· ≠ "") <|> req.dbIdHeader.filter (· ≠ "") <|>
    extractAuthIdForUserNamespace ns req.auth

/-! ### Verdicts -/

inductive Evaluation where
  /-- The access function of a block, on an instance id. -/
  | access (ns dbId : String) (result : Bool)
  | insert (ns table : String) (result : Bool)
  /-- The update rule of a table, on the empty row that stands for the unknown one. -/
  | update (ns table : String) (result : Bool)
  deriving DecidableEq

/-- Whether a request passes the middleware, and what was evaluated for it. -/
structure Verdict where
  evaluated : List Evaluation := []
  /-- `none` if the request passes, the error otherwise. -/
  refusal : Option HttpError := none
  /-- The request was recognised as one with a valid service key. -/
  isServiceKey : Bool := false

/-- The request goes on to the next handler. -/
def Verdict.Passes (v : Verdict) : Prop := v.refusal = none

instance (v : Verdict) : Decidable v.Passes := inferInstanceAs (Decidable (_ = _))

/-- `return next()`. -/
def Verdict.next : Verdict := {}

/-- `throw new EdgeBaseError(status, message)`. -/
def Verdict.refuse (status : ℕ) (message : String) : Verdict := { refusal := some ⟨status, message⟩ }

def Verdict.after (v : Verdict) (e : Evaluation) : Verdict :=
  { v with evaluated := e :: v.evaluated }

/-- `if (!config.release) return next(); throw ...`: the default of a missing configuration. -/
def unlessRelease (config : EdgeBaseConfig) (message : String) : Verdict :=
  if config.release then .refuse 403 message else .next

def tableRuleRejected (tableName action : String) : Verdict :=
  .refuse 403
    s!"Access denied. The '{action}' access rule for table '{tableName}' rejected this request."

/-! ### The gates -/

def isIdPath (path : List Char) : Bool :=
  let pathParts := parts path
  match pathParts.findIdx? (· = "tables".toList) with
  | none => false
  | some tabIdx => pathParts[1]? = some "db".toList && decide (tabIdx + 2 < pathParts.length)

/-- The actions that `getAction` tells apart. -/
inductive Action where
  | search
  | list
  | get
  | insert
  | update
  | delete
  deriving DecidableEq

def getAction (method : Method) (path : List Char) (hasUpsert : Bool) : Option Action :=
  if includes path "/search" then some .search
  else if includes path "/count" then some .list
  else if includes path "/batch" then none
  else
    match method with
    | .get => some (if isIdPath path then .get else .list)
    | .post => if hasUpsert then none else some .insert
    | .patch | .put => some .update
    | .delete => some .delete
    | .head | .options => none

/-- Evaluation of a table's insert rule, and the verdict if it is false. -/
def insertGate (req : Request) (ns tableName action : String) (rule : InsertRule) : Verdict :=
  let canInsert := evalWithTimeout (rule.call req.auth ()) workerRuleTimeoutMs
  (if canInsert then .next else tableRuleRejected tableName action : Verdict).after
    (.insert ns tableName canInsert)

/-- The upsert branch: the insert rule, or the update rule on an empty row. -/
def upsertGate (config : EdgeBaseConfig) (req : Request) (ns tableName : String)
    (rules : TableRules) : Verdict :=
  if rules.insert.isNone && rules.update.isNone then
    unlessRelease config s!"Access denied. No insert or update rules for '{tableName}'."
  else
    let insertPass := match rules.insert with
      | some rule => evalWithTimeout (rule.call req.auth ()) workerRuleTimeoutMs
      | none => !config.release
    let updatePass := match rules.update with
      | some rule => evalWithTimeout (rule.call req.auth []) workerRuleTimeoutMs
      | none => !config.release
    { evaluated :=
        (if rules.insert.isSome then [.insert ns tableName insertPass] else []) ++
          (if rules.update.isSome then [.update ns tableName updatePass] else [])
      refusal :=
        if insertPass || updatePass then none else (tableRuleRejected tableName "upsert").refusal }

def batchGate (config : EdgeBaseConfig) (req : Request) (path : List Char)
    (ns tableName : String) (rules : TableRules) : Verdict :=
  if req.method = .post then
    -- batch-by-filter is left to the row rules of the provider
    if includes path "/batch-by-filter" then .next
    else
      match rules.insert with
      | some rule => insertGate req ns tableName "batch insert" rule
      | none => if config.release then tableRuleRejected tableName "batch insert" else .next
  else .next

/-- The table-level rules that need no row. -/
def tableGate (config : EdgeBaseConfig) (req : Request) (path : List Char)
    (ns tableName : String) (rules : TableRules) : Verdict :=
  if req.upsert && req.method = .post then upsertGate config req ns tableName rules
  else if includes path "/batch" then batchGate config req path ns tableName rules
  else
    match getAction req.method path req.upsert with
    | some .insert =>
      match rules.insert with
      | some rule => insertGate req ns tableName "insert" rule
      | none => unlessRelease config s!"Access denied. No 'insert' rule defined for '{tableName}'."
    | _ => .next

/-- Step 3: the access function of the block, if there is one and an id for it, before `k`. -/
def accessGate (req : Request) (block : DbBlock) (ns : String) (dbId : Option String)
    (k : Verdict) : Verdict :=
  match block.accessFn, dbId with
  | some access, some id =>
    let canAccess := evalWithTimeout (access req.auth id) dbAccessRuleTimeoutMs
    (if canAccess then k
      else .refuse 403 s!"Access denied. You do not have access to {ns}:{id}.").after
      (.access ns id canAccess)
  | _, _ => k

/-- Steps 4 and 5 for a table with or without an access block. -/
def tableRulesGate (config : EdgeBaseConfig) (req : Request) (path : List Char)
    (ns tableName : String) (rules : Option TableRules) : Verdict :=
  match rules with
  | none =>
    unlessRelease config
      (s!"Access denied. No access rules are defined for table '{tableName}'. " ++
        "Add access.* rules or disable release mode for local-only development.")
  | some rules => tableGate config req path ns tableName rules

/-- Steps 2 to 5, for a request without a service key. -/
def checkRules (config : EdgeBaseConfig) (req : Request) (path : List Char) (ns : String)
    (instanceId : Option String) (tableName : String) : Verdict :=
  if config.databases.isNone then
    unlessRelease config ("Access denied. No databases config is defined for this server. " ++
      "Add config.databases or set release: false while developing locally.")
  else
    match config.block ns with
    | none =>
      unlessRelease config (s!"Access denied. Namespace '{ns}' is not configured. " ++
        "Check the API path or add this namespace to config.databases.")
    | some block =>
      if block.tables.isSome && (block.table tableName).isNone then
        unlessRelease config (s!"Access denied. Table '{tableName}' is missing access rules. " ++
          "Add access.* rules or disable release mode for local-only development.")
      else
        accessGate req block ns (req.dbId ns instanceId)
          (tableRulesGate config req path ns tableName
            ((block.table tableName).bind TableConfig.access))

def rulesMiddleware (config : EdgeBaseConfig) (req : Request) : Verdict :=
  let path := render req.path
  match parsePath path with
  | .skip => .next
  | .malformed => .refuse 500 "URI malformed"
  | .table ns instanceId tableName =>
    if req.isInternal then .next
    else
      let scopeAction := if req.method = .get ∨ req.method = .head then "read" else "write"
      let requiredScope := s!"db:table:{tableName}:{scopeAction}"
      match req.validateKey requiredScope with
      | .valid => { isServiceKey := true }
      | .invalid => .refuse 401 s!"Invalid X-EdgeBase-Service-Key for scope '{requiredScope}'."
      | .missing => checkRules config req path ns instanceId tableName

end EdgeBase
