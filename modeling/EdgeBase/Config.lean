import EdgeBase.Rules
import Mathlib.Data.List.TakeWhile

/-!
# The configuration and the database router

The part of `edgebase.config` that the database routes read, and the functions of `do-router.ts`
that choose where a request goes.  Records of the configuration are association lists in key
order, and an absent key is `undefined`.

* `shouldRouteToD1`, `getDbDoName`, `parseDbDoName` : the provider of a block and the names of
  the Durable Objects.
-/

namespace EdgeBase

open Option

/-! ### Tables and blocks -/

inductive FieldType where
  | string
  | text
  | number
  | boolean
  | datetime
  | json
  deriving DecidableEq

structure FkReference where
  table : String
  column : Option String := none
  onDelete : Option String := none
  onUpdate : Option String := none
  deriving DecidableEq

/-- The `references` of a field: the short form or the object. -/
inductive Reference where
  | short (reference : String)
  | object (reference : FkReference)
  deriving DecidableEq

structure IndexConfig where
  fields : List String
  unique : Bool := false
  deriving DecidableEq

/-- `SchemaField`, without its `CHECK` clause. -/
structure SchemaField where
  type : FieldType
  required : Bool := false
  default : Option Json := none
  unique : Bool := false
  min : Option ℚ := none
  max : Option ℚ := none
  pattern : Option String := none
  enum : Option (List String) := none
  primaryKey : Bool := false
  onUpdateNow : Bool := false
  references : Option Reference := none
  deriving DecidableEq

/-- A user schema: `none` stands for the `false` that disables an automatic field. -/
abbrev UserSchema := List (String × Option SchemaField)

/-- `TableRules`; an absent rule is `undefined`. -/
structure TableRules where
  read : Option RowRule := none
  insert : Option InsertRule := none
  update : Option RowRule := none
  delete : Option RowRule := none

/-- What a blocking hook does: throw, or return an object or nothing. -/
inductive HookResult where
  /-- The hook throws an error with this message. -/
  | throws (message : String)
  /-- The hook returns, with an object or without one. -/
  | returns (row : Option Row)

/-- The blocking hooks of `TableHooks`.  The `after` hooks run when the response is fixed. -/
structure TableHooks where
  beforeInsert : Option (Option AuthContext → Row → HookResult) := none
  beforeUpdate : Option (Option AuthContext → Row → Row → HookResult) := none
  beforeDelete : Option (Option AuthContext → Row → HookResult) := none
  onEnrich : Option (Option AuthContext → Row → HookResult) := none

/-- `TableConfig`, without its migrations. -/
structure TableConfig where
  /-- `schema`, absent for schemaless tables. -/
  schema : Option UserSchema := none
  access : Option TableRules := none
  hooks : TableHooks := {}
  fts : List String := []
  indexes : List IndexConfig := []

/-- `DbProvider`. -/
inductive DbProvider where
  | do
  | d1
  | neon
  | postgres
  deriving DecidableEq

structure DbLevelRules where
  canCreate : Option (Option AuthContext → String → RuleResult) := none
  /-- `access(auth, id, ctx)`; the read-only context is part of the function. -/
  access : Option (Option AuthContext → String → RuleResult) := none

/-- `DbBlock`. -/
structure DbBlock where
  provider : Option DbProvider := none
  instance_ : Bool := false
  access : Option DbLevelRules := none
  tables : Option (List (String × TableConfig)) := none

/-- The part of `EdgeBaseConfig` that the database routes read. -/
structure EdgeBaseConfig where
  databases : Option (List (String × DbBlock)) := none
  release : Bool := false

/-- `config.databases?.[namespace]`. -/
def EdgeBaseConfig.block (config : EdgeBaseConfig) (ns : String) : Option DbBlock :=
  config.databases.bind (·.lookup ns)

/-- `dbBlock.tables?.[name]`. -/
def DbBlock.table (block : DbBlock) (name : String) : Option TableConfig :=
  block.tables.bind (·.lookup name)

/-- `dbBlock.access?.access`. -/
def DbBlock.accessFn (block : DbBlock) : Option (Option AuthContext → String → RuleResult) :=
  block.access.bind DbLevelRules.access

/-- `dbBlock.access?.canCreate`. -/
def DbBlock.canCreateFn (block : DbBlock) : Option (Option AuthContext → String → RuleResult) :=
  block.access.bind DbLevelRules.canCreate

structure HttpError where
  status : ℕ
  message : String
  deriving DecidableEq

/-! ### The router -/

/-- `isDynamicDbBlock`. -/
def isDynamicDbBlock (block : DbBlock) : Bool :=
  block.instance_ || block.canCreateFn.isSome || block.accessFn.isSome

def shouldRouteToD1 (ns : String) (config : EdgeBaseConfig) : Bool :=
  match config.block ns with
  | none => false
  | some block =>
    match block.provider with
    | some .d1 => true
    | some .neon | some .postgres | some .do => false
    | none => !isDynamicDbBlock block

/-- The white space that `String.prototype.trim` removes. -/
def isTrimmed (c : Char) : Bool :=
  c ∈ ['\t', '\n', '\x0b', '\x0c', '\r', ' ', '\u00a0', '\u1680', '\u2028', '\u2029', '\u202f',
    '\u205f', '\u3000', '\ufeff'] || ('\u2000' ≤ c && c ≤ '\u200a')

/-- `id.trim().length === 0`. -/
def isBlank (s : String) : Bool := s.toList.all isTrimmed

inductive DbTargetValidationIssue where
  | namespaceNotFound
  | instanceIdEmpty
  | instanceIdInvalid
  | instanceIdRequired
  | instanceIdNotAllowed
  deriving DecidableEq

def DbTargetValidationIssue.status : DbTargetValidationIssue → ℕ
  | .namespaceNotFound => 404
  | .instanceIdEmpty | .instanceIdInvalid | .instanceIdRequired | .instanceIdNotAllowed => 400

/-- `formatDbTargetValidationIssue`, with its default labels. -/
def formatDbTargetValidationIssue (issue : DbTargetValidationIssue) (ns : String) : String :=
  match issue with
  | .namespaceNotFound => s!"Database '{ns}' not found in config"
  | .instanceIdEmpty => "instanceId must not be empty"
  | .instanceIdInvalid => "instanceId must not contain ':'"
  | .instanceIdRequired => s!"instanceId is required for dynamic namespace '{ns}'"
  | .instanceIdNotAllowed => s!"instanceId is not allowed for single-instance namespace '{ns}'"

/-- `resolveDbTarget`: the block that a namespace and an optional instance id name, and whether
it is dynamic. -/
def resolveDbTarget (config : EdgeBaseConfig) (ns : String) (instanceId : Option String) :
    Except DbTargetValidationIssue (DbBlock × Bool) :=
  match config.block ns with
  | none => .error .namespaceNotFound
  | some block =>
    if instanceId.any isBlank then .error .instanceIdEmpty
    else if instanceId.any (·.toList.contains ':') then .error .instanceIdInvalid
    else if isDynamicDbBlock block && instanceId.isNone then .error .instanceIdRequired
    else if !isDynamicDbBlock block && instanceId.isSome then .error .instanceIdNotAllowed
    else .ok (block, isDynamicDbBlock block)

/-- `getDbDoName`, on ids that `resolveDbTarget` let pass (others make it throw). -/
def getDbDoName (ns : String) (id : Option String) : String :=
  match id with
  | none => ns
  | some i => if i = "" then ns else ns ++ ":" ++ i

/-- The namespace of `parseDbDoName`: the text before the first colon. -/
def parseDbDoName (doName : String) : String :=
  String.ofList (doName.toList.takeWhile (· ≠ ':'))

/-- An instance id that `resolveDbTarget` accepts for a dynamic block. -/
def InstanceIdOk (id : String) : Prop := isBlank id = false ∧ ':' ∉ id.toList

instance (id : String) : Decidable (InstanceIdOk id) := inferInstanceAs (Decidable (_ ∧ _))

/-- What `resolveDbTarget` accepts: a configured block, with a usable instance id exactly when
the block is dynamic. -/
theorem resolveDbTarget_ok_iff {config : EdgeBaseConfig} {ns : String}
    {instanceId : Option String} {block : DbBlock} {dynamic : Bool} :
    resolveDbTarget config ns instanceId = .ok (block, dynamic) ↔
      config.block ns = some block ∧ dynamic = isDynamicDbBlock block ∧
        instanceId.isSome = dynamic ∧ ∀ id ∈ instanceId, InstanceIdOk id := by
  unfold resolveDbTarget
  cases hb : config.block ns with
  | none => simp
  | some b =>
    cases instanceId with
    | none =>
      cases hd : isDynamicDbBlock b
      · simp only [any_none, Bool.false_eq_true, ite_false, hd, Bool.not_false,
          isSome_none, Bool.and_false, Bool.false_and, Except.ok.injEq, Prod.mk.injEq,
          Option.some.injEq]
        constructor
        · rintro ⟨rfl, rfl⟩
          exact ⟨rfl, hd.symm, rfl, by simp⟩
        · rintro ⟨rfl, hdyn, -, -⟩
          exact ⟨rfl, (hdyn.trans hd).symm⟩
      · simp only [any_none, Bool.false_eq_true, ite_false, hd, isNone_none,
          Bool.and_self, ite_true, reduceCtorEq, false_iff]
        rintro ⟨h, hdyn, hn, -⟩
        obtain rfl : b = block := by simpa using h
        simp [hdyn, hd] at hn
    | some id =>
      simp only [any_some, isNone_some, Bool.and_false, Bool.false_eq_true,
        ite_false, isSome_some, Bool.and_true, mem_some_iff, forall_eq', InstanceIdOk]
      by_cases h1 : isBlank id = true
      · simp [h1]
      · by_cases h2 : ':' ∈ id.toList
        · simp [h1, h2]
        · cases hd : isDynamicDbBlock b
          · simp only [h1, h2, List.contains_eq_mem, decide_false, Bool.false_eq_true,
              ite_false, Bool.not_false, ite_true, reduceCtorEq, Option.some.injEq, false_iff]
            rintro ⟨rfl, hdyn, hn, -⟩
            rw [hdyn, hd] at hn
            exact absurd hn (by decide)
          · simp only [h1, h2, List.contains_eq_mem, decide_false, Bool.false_eq_true,
              ite_false, Bool.not_true, Except.ok.injEq, Prod.mk.injEq, Option.some.injEq]
            constructor
            · rintro ⟨rfl, rfl⟩
              exact ⟨rfl, hd.symm, rfl, by simp, not_false⟩
            · rintro ⟨rfl, hdyn, -, -⟩
              exact ⟨rfl, (hdyn.trans hd).symm⟩

end EdgeBase
