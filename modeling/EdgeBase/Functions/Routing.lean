import EdgeBase.Config
import EdgeBase.Lib.Assoc
import EdgeBase.Lib.Globs
import EdgeBase.Lib.Percent
import EdgeBase.Lib.Ranking

/-!
# The routes of HTTP functions

An HTTP function is called by a path below `/api/functions`, whose segments are static or stand for
a parameter (`[id]`, `:id`) or for a rest of the path (`[...rest]`).  The functions are compiled to
patterns and sorted by a score; the first pattern that matches a request is its route.

* `compileRoutePattern`, `calculateSpecificity` : the pattern and the score of a path.
* `compileRoutes`, `rebuildCompiledRoutes` : the routes of a registry.
* `matchRoute` : the route of a request, with the values of its parameters.
* `usesCustomBearerAuth`, `functionsRoute` : its two callers.
-/

namespace EdgeBase.Functions

/-- The characters of a name, a path or a parameter. -/
abbrev Text := List Char

/-- `text.toUpperCase()`, for the letters of a method. -/
def toUpperCase (text : Text) : Text := text.map Char.toUpper

/-! ### Functions -/

/-- What a function is called by.  Only the ones of HTTP have a route. -/
inductive Trigger where
  | http (method path : Option Text)
  | other
  deriving DecidableEq

/-- What the routing reads of a function, and which handler it runs. -/
structure FunctionDefinition where
  trigger : Trigger
  customBearerAuth : Bool := false
  handler : ℕ := 0
  deriving DecidableEq

abbrev Registry := List (Text × FunctionDefinition)

/-- `HTTP_REGISTRY_SEPARATOR`. -/
def httpRegistrySeparator : Text := "::".toList

/-- `key.lastIndexOf(HTTP_REGISTRY_SEPARATOR)`. -/
def separatorIndex (key : Text) : Option ℕ :=
  (List.range key.length).reverse.find? fun i => httpRegistrySeparator.isPrefixOf (key.drop i)

def getRegistryName (key : Text) (definition : FunctionDefinition) : Text :=
  match definition.trigger with
  | .http _ _ =>
    match separatorIndex key with
    | none => key
    | some i => key.take i
  | .other => key

/-! ### Patterns -/

def normalizeHttpRoutePath (path : Text) : Text :=
  let trimmed := ((path.dropWhile isTrimmed).reverse.dropWhile isTrimmed).reverse
  ((trimmed.dropWhile (· = '/')).reverse.dropWhile (· = '/')).reverse

inductive Segment where
  /-- `[...name]`. -/
  | catchAll (name : Text)
  /-- `[name]`. -/
  | param (name : Text)
  /-- `:name`. -/
  | colon (name : Text)
  | static (text : Text)
  deriving DecidableEq

/-- The name of `^\[([^\]]+)\]$` behind the opening bracket. -/
def bracketName (body : Text) : Option Text :=
  if body.getLast? = some ']' ∧ body.dropLast ≠ [] ∧ ']' ∉ body.dropLast then some body.dropLast
  else none

def parseSegment (segment : Text) : Segment :=
  match segment with
  | '[' :: '.' :: '.' :: '.' :: body =>
    match bracketName body, bracketName ('.' :: '.' :: '.' :: body) with
    | some name, _ => .catchAll name
    | none, some name => .param name
    | none, none => .static segment
  | '[' :: body =>
    match bracketName body with
    | some name => .param name
    | none => .static segment
  | ':' :: name => if name ≠ [] ∧ '/' ∉ name then .colon name else .static segment
  | _ => .static segment

namespace Segment

/-- The name of the parameter that a segment stands for. -/
def name? : Segment → Option Text
  | .catchAll name | .param name | .colon name => some name
  | .static _ => none

/-- `.` matches no line terminator. -/
def isLineTerminator (c : Char) : Bool := c ∈ ['\n', '\r', '\u2028', '\u2029']

def atom : Segment → Globs.Atom Char
  | .catchAll _ => .run fun c => !isLineTerminator c
  | .param _ | .colon _ => .run (· ≠ '/')
  | .static text => .lit text

/-- The characters that a pattern does not take as they are. -/
def special : Text :=
  ['.', '*', '+', '?', '^', '$', '\x7b', '\x7d', '(', ')', '|', '[', ']', '\\']

def escapeRegex (text : Text) : Text :=
  text.flatMap fun c => if c ∈ special then ['\\', c] else [c]

def regexPart : Segment → Text
  | .catchAll _ => "(.+)".toList
  | .param _ | .colon _ => "([^/]+)".toList
  | .static text => escapeRegex text

def bonus : Segment → ℤ
  | .catchAll _ => -50
  | .param _ => -10
  | .colon _ | .static _ => 10

end Segment

structure RoutePattern where
  /-- The text between `^` and `$`. -/
  source : Text
  pattern : List (Globs.Atom Char)
  paramNames : List Text
  isDynamic : Bool

/-- `name.split('/')`, each segment read. -/
def segments (name : Text) : List Segment := (name.splitOn '/').map parseSegment

def compileRoutePattern (name : Text) : RoutePattern :=
  if name = [] ∨ name = ['/'] then ⟨[], [], [], false⟩
  else
    { source := ['/'].intercalate ((segments name).map Segment.regexPart)
      pattern := ((segments name).map Segment.atom).intersperse (.lit ['/'])
      paramNames := (segments name).filterMap Segment.name?
      isDynamic := (segments name).any fun segment => segment.name?.isSome }

def calculateSpecificity (name : Text) : ℤ :=
  if name = [] ∨ name = ['/'] then 0
  else (segments name).length * 100 + ((segments name).map Segment.bonus).sum

/-! ### Routes -/

/-- A route.  Its pattern and its score are those of its path. -/
structure CompiledRoute where
  name : Text
  path : Text
  definition : FunctionDefinition
  method : Option Text
  deriving DecidableEq

namespace CompiledRoute

variable (route : CompiledRoute)

def pattern : List (Globs.Atom Char) := (compileRoutePattern route.path).pattern

def paramNames : List Text := (compileRoutePattern route.path).paramNames

def isDynamic : Bool := (compileRoutePattern route.path).isDynamic

def specificity : ℤ := calculateSpecificity route.path

def serves (method : Text) : Bool :=
  match route.method with
  | some m => toUpperCase m = toUpperCase method
  | none => true

/-- `route.pattern.exec(path)`. -/
def exec (path : Text) : Option (List Text) := Globs.exec route.pattern path

end CompiledRoute

/-- Two functions resolve to the same path for a method. -/
structure Collision where
  name : Text
  previous : Text
  routePath : Text
  method : Text

/-- `trigger.method || null`. -/
def methodOf (method : Option Text) : Option Text := method.filter (· ≠ [])

/-- `(trigger.method || '*').toUpperCase()`. -/
def methodKey (method : Option Text) : Text := toUpperCase ((methodOf method).getD ['*'])

/-- The loop of `rebuildCompiledRoutes`; `seenRoutes` are the names by method and pattern. -/
def compileRoutes (seenRoutes : List ((Text × Text) × Text)) :
    Registry → Except Collision (List CompiledRoute)
  | [] => .ok []
  | (key, definition) :: registry =>
    match definition.trigger with
    | .other => compileRoutes seenRoutes registry
    | .http method path => do
      let name := getRegistryName key definition
      let routePath := normalizeHttpRoutePath (path.getD name)
      let routeKey := (methodKey method, (compileRoutePattern routePath).source)
      let previous := (seenRoutes.lookup routeKey).getD []
      -- a function of the empty name is not found here
      if previous ≠ [] then .error ⟨name, previous, routePath, methodKey method⟩
      else
        let rest ← compileRoutes (Assoc.set seenRoutes routeKey name) registry
        .ok (⟨name, routePath, definition, methodOf method⟩ :: rest)

/-- The routes by descending score, those of one score in the order of registration. -/
def sortRoutes (routes : List CompiledRoute) : List CompiledRoute :=
  Ranking.ranked CompiledRoute.specificity routes

def rebuildCompiledRoutes (registry : Registry) : Except Collision (List CompiledRoute) :=
  (compileRoutes [] registry).map sortRoutes

/-! ### Requests -/

/-- The error of `decodeURIComponent`. -/
inductive Thrown where
  | uriError
  deriving DecidableEq

abbrev Params := List (Text × Text)

/-- `params[name] = value`.  The prototype keeps its value. -/
def Params.assign (params : Params) (name value : Text) : Params :=
  if name = "__proto__".toList then params else Assoc.set params name value

def extractParams : Params → List Text → List Text → Except Thrown Params
  | params, name :: names, capture :: captures =>
    match Percent.decode capture with
    | some value => extractParams (params.assign name value) names captures
    | none => .error .uriError
  | params, _, _ => .ok params

structure MatchedRoute where
  route : CompiledRoute
  params : Params
  deriving DecidableEq

def matchRoute : List CompiledRoute → Text → Text → Except Thrown (Option MatchedRoute)
  | [], _, _ => .ok none
  | route :: compiledRoutes, path, method =>
    if !route.serves method then matchRoute compiledRoutes path method
    else
      match route.exec path with
      | none => matchRoute compiledRoutes path method
      | some captures =>
        (extractParams [] route.paramNames captures).map fun params => some ⟨route, params⟩

def routeExistsForPath (compiledRoutes : List CompiledRoute) (path : Text) : Bool :=
  compiledRoutes.any fun route => (route.exec path).isSome

def functionsPrefix : Text := "/api/functions/".toList

/-- The definition that `usesCustomBearerAuth` inspects. -/
def inspected (compiledRoutes : List CompiledRoute) (pathname method : Text) :
    Except Thrown (Option FunctionDefinition) :=
  if !functionsPrefix.isPrefixOf pathname then .ok none
  else
    let encodedFunctionPath := pathname.drop functionsPrefix.length
    if encodedFunctionPath = [] then .ok none
    else
      match Percent.decode encodedFunctionPath with
      | none => .ok none
      | some functionPath =>
        (matchRoute compiledRoutes functionPath method).map fun matched =>
          matched.map fun m => m.route.definition

def usesCustomBearerAuth (compiledRoutes : List CompiledRoute) (pathname method : Text) :
    Except Thrown Bool :=
  (inspected compiledRoutes pathname method).map fun definition =>
    definition.any FunctionDefinition.customBearerAuth

/-- How `functionsRoute` goes on with a request. -/
inductive Dispatch where
  /-- The handler of the definition is run. -/
  | execute (definition : FunctionDefinition) (params : Params)
  | methodNotAllowed (method functionName : Text)
  | notFound (functionName : Text)
  /-- No request of this kind gets to the route. -/
  | unrouted
  deriving DecidableEq

/-- `functionsRoute`, for the path that the framework has decoded: `/:functionName{.+}`. -/
def functionsRoute (compiledRoutes : List CompiledRoute) (functionName requestMethod : Text) :
    Except Thrown Dispatch :=
  if functionName = [] then .ok .unrouted
  else
    let method := toUpperCase requestMethod
    (matchRoute compiledRoutes functionName method).map fun
      | some matched => .execute matched.route.definition matched.params
      | none =>
        if routeExistsForPath compiledRoutes functionName then
          .methodNotAllowed method functionName
        else .notFound functionName

def Dispatch.definition? : Dispatch → Option FunctionDefinition
  | .execute definition _ => some definition
  | _ => none

end EdgeBase.Functions
