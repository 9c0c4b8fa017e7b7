import EdgeBase.Handler

/-!
# Rows on their way in and out

What the handlers do to a row between the database and the client.

* `DatabaseDO.normalizeRow`, `D1.normalizeRow`, `PG.stripInternalPgFields` : a fetched row, as the
  rules and the client see it.  The three providers differ.
-/

namespace EdgeBase

/-! ### The effective schema -/

/-- `AUTO_FIELDS`. -/
def autoFields : List (String × SchemaField) :=
  [("id", { type := .string, primaryKey := true }), ("createdAt", { type := .datetime }),
    ("updatedAt", { type := .datetime, onUpdateNow := true })]

/-- `Record<string, SchemaField>`. -/
abbrev EffectiveSchema := List (String × SchemaField)

def inheritedProperties : List String :=
  ["constructor", "__defineGetter__", "__defineSetter__", "hasOwnProperty", "__lookupGetter__",
    "__lookupSetter__", "isPrototypeOf", "propertyIsEnumerable", "toString", "valueOf", "__proto__",
    "toLocaleString"]

/-- `name in AUTO_FIELDS`, which inherited properties are too. -/
def inAutoFields (name : String) : Bool :=
  (autoFields.lookup name).isSome || name ∈ inheritedProperties

/-- `buildEffectiveSchema`: the automatic fields that are not disabled, then the user's. -/
def buildEffectiveSchema (userSchema : Option UserSchema) : EffectiveSchema :=
  match userSchema with
  | none => autoFields
  | some schema =>
    autoFields.filter (fun f => schema.lookup f.1 ≠ some none) ++
      schema.filterMap fun f =>
        if inAutoFields f.1 then none else f.2.map fun field => (f.1, field)

/-! ### Normalization -/

/-- `Boolean(value)`. -/
def Json.truthy : Json → Bool
  | .null => false
  | .bool b => b
  | .num q => q ≠ 0
  | .str s => s ≠ ""
  | .arr _ | .obj _ => true

def normalizeBoolean (v : Json) : Json :=
  if v = .num 1 ∨ v = .str "1" ∨ v = .str "true" ∨ v = .bool true then .bool true
  else if v = .num 0 ∨ v = .str "0" ∨ v = .str "false" ∨ v = .bool false then .bool false
  else if v = .null then .null
  else .bool v.truthy

/-- `Number(value)`; `NaN` is `null` in an answer. -/
def toNumber (env : Env) : Json → Json
  | .num q => .num q
  | .bool b => .num (if b then 1 else 0)
  | .str s => (env.parseNumber s).elim .null .num
  | v => (env.parseNumber (env.textOf v)).elim .null .num

/-- `getTextFields` and `getDoTextSearchFields`. -/
def getTextFields (config : Option TableConfig) : List String :=
  match tableSchema config with
  | none => ["id"]
  | some schema =>
    let fields := schema.filterMap fun f => f.2.bind fun field =>
      if field.type = .string ∨ field.type = .text then some f.1 else none
    if fields.isEmpty then ["id"] else fields

namespace DatabaseDO

def normalizeValue (env : Env) (field : Option SchemaField) (v : Json) : Json :=
  match field.map SchemaField.type with
  | some .boolean => normalizeBoolean v
  | some .number => if v = .null then .null else toNumber env v
  | some .json =>
    match v with
    | .str s => (env.parseJson s).getD v
    | _ => v
  | _ => v

/-- `normalizeRow` of the Durable Object. -/
def normalizeRow (env : Env) (row : Row) (config : Option TableConfig) : Row :=
  match tableSchema config with
  | none => row
  | some schema =>
    let effective := buildEffectiveSchema (some schema)
    row.map fun b => (b.1, normalizeValue env (effective.lookup b.1) b.2)

def normalizeRows (env : Env) (rows : List Row) (config : Option TableConfig) : List Row :=
  rows.map fun row => normalizeRow env row config

end DatabaseDO

namespace D1

def stripInternalFields (row : Row) : Row := Assoc.restrict (· ≠ "_fts") row

/-- What `normalizeRow` does to one column of the schema. -/
def normalizeColumn (env : Env) (result : Row) (f : String × Option SchemaField) : Row :=
  match f.2, result.lookup f.1 with
  | some field, some v =>
    match field.type, v with
    | .boolean, v => Assoc.set result f.1 (normalizeBoolean v)
    | .json, .str s =>
      if s = "" then result else (env.parseJson s).elim result (Assoc.set result f.1)
    | .number, .str s => (env.parseNumber s).elim result fun q => Assoc.set result f.1 (.num q)
    | _, _ => result
  | _, _ => result

/-- `normalizeRow` of the D1 handler. -/
def normalizeRow (env : Env) (row : Row) (config : TableConfig) : Row :=
  match config.schema with
  | none => row
  | some schema => schema.foldl (normalizeColumn env) row

end D1

namespace PG

def stripInternalPgFields (row : Row) : Row :=
  Assoc.restrict (fun k => k ≠ "_fts" ∧ k ≠ "_fts_text") row

end PG

/-! ### Enrichment and ids -/

/-- `enrichRecord`, and the enrichment loops of the D1 and PostgreSQL handlers: the fields that the
`onEnrich` hook returns are added, and a hook that throws is ignored. -/
def enrichRecord (hooks : TableHooks) (auth : Option AuthContext) (record : Row) : Row :=
  match hooks.onEnrich with
  | none => record
  | some onEnrich =>
    match onEnrich auth record with
    | .returns (some enriched) => Assoc.merge record enriched
    | .returns none | .throws _ => record

/-- `String(row.id ?? '')`. -/
def idText (env : Env) (row : Row) : String :=
  match row.lookup "id" with
  | some (.str s) => s
  | some .null | none => ""
  | some v => env.textOf v

@[simp] theorem enrichRecord_of_no_hook {hooks : TableHooks} (h : hooks.onEnrich = none)
    (auth : Option AuthContext) (record : Row) : enrichRecord hooks auth record = record := by
  simp [enrichRecord, h]

end EdgeBase
