import EdgeBase.Lib.Catalog
import EdgeBase.Rows

/-!
# The DDL of a database block

`lib/schema.ts`: the statements that create the tables, indexes and search tables of a block, as
SQLite reads them, and what SQLite does with them.

* `buildReferenceClause`, `resolveTableIndexes` : the clauses of a table.
* `generateTableDDL`, `generateSQLiteAddColumnDDLs` : the statements.
-/

namespace EdgeBase

/-! ### References -/

def trim (s : String) : String :=
  String.ofList (((s.toList.dropWhile isTrimmed).reverse.dropWhile isTrimmed).reverse)

/-- `\w`. -/
def isWordChar (c : Char) : Bool := c.isAlphanum || c = '_'

/-- The groups of `^(\w+)(?:\((\w+)\))?$`: a table, and a column in parentheses. -/
def matchReference (reference : String) : Option (String × Option String) :=
  let table := reference.toList.takeWhile isWordChar
  if table = [] then none
  else match reference.toList.dropWhile isWordChar with
    | [] => some (String.ofList table, none)
    | '(' :: rest =>
      let column := rest.takeWhile isWordChar
      if column ≠ [] ∧ rest.dropWhile isWordChar = [')'] then
        some (String.ofList table, some (String.ofList column))
      else none
    | _ => none

/-- `AUTH_LOGICAL_REFERENCE_TABLES`. -/
def authLogicalReferenceTables : List String := ["users", "_users", "_users_public"]

def extractReferenceTable : Option Reference → Option String
  | none | some (.short "") => none
  | some (.short reference) => (matchReference (trim reference)).map Prod.fst
  | some (.object reference) => some reference.table

def isLogicalOnlyReference (reference : Option Reference) : Bool :=
  (extractReferenceTable reference).any (· ∈ authLogicalReferenceTables)

/-- `esc`: a name in double quotes. -/
def esc (name : String) : String := "\"" ++ name.replace "\"" "\"\"" ++ "\""

def buildReferenceClause (reference : Option Reference) : Option String :=
  if isLogicalOnlyReference reference then none
  else match reference with
    | none | some (.short "") => none
    | some (.short reference) =>
      let ref := trim reference
      if '(' ∈ ref.toList then
        match matchReference ref with
        | some (table, some column) =>
          some ("REFERENCES " ++ esc table ++ "(" ++ esc column ++ ") ON DELETE CASCADE")
        | _ => none
      else some ("REFERENCES " ++ esc ref ++ "(\"id\") ON DELETE SET NULL")
    | some (.object reference) =>
      let onDelete := (reference.onDelete.filter (· ≠ "")).elim "" (" ON DELETE " ++ ·)
      let onUpdate := (reference.onUpdate.filter (· ≠ "")).elim "" (" ON UPDATE " ++ ·)
      some ("REFERENCES " ++ esc reference.table ++ "(" ++ esc (reference.column.getD "id") ++ ")" ++
        onDelete ++ onUpdate)

/-! ### Statements -/

structure Column where
  name : String
  type : String
  primaryKey : Bool
  notNull : Bool
  unique : Bool
  default : Option Json
  references : Option String
  deriving DecidableEq

/-- A statement of the DDL; all but `ALTER TABLE` have `IF NOT EXISTS`. -/
inductive DdlStatement where
  | createTable (table : String) (columns : List Column)
  | addColumn (table : String) (column : Column)
  | createIndex (name : String) (unique : Bool) (table : String) (fields : List String)
  /-- A virtual table, with the text of its arguments. -/
  | createFTS5 (name arguments : String)
  | createTrigger (name table : String)
  deriving DecidableEq

/-- `TYPE_MAP`. -/
def FieldType.sqlite : FieldType → String
  | string | text | datetime | json => "TEXT"
  | number => "REAL"
  | boolean => "INTEGER"

def buildColumnDef (name : String) (field : SchemaField) : Column where
  name := name
  type := field.type.sqlite
  primaryKey := field.primaryKey
  notNull := field.required && !field.primaryKey
  unique := field.unique
  default := field.default
  references := buildReferenceClause field.references

def generateCreateTableDDL (tableName : String) (config : TableConfig) : DdlStatement :=
  .createTable tableName ((buildEffectiveSchema config.schema).map fun f => buildColumnDef f.1 f.2)

def generateAddColumnDDL (tableName name : String) (field : SchemaField) : DdlStatement :=
  .addColumn tableName (buildColumnDef name field)

def normalizeSQLiteAddColumnField (field : SchemaField) : SchemaField :=
  { field with
    primaryKey := false
    unique := false
    required := field.required && field.default ≠ none && field.default ≠ some .null }

def generateSQLiteAddColumnDDLs (tableName name : String) (field : SchemaField) : List DdlStatement :=
  generateAddColumnDDL tableName name (normalizeSQLiteAddColumnField field) ::
    if field.unique then [.createIndex ("uidx_" ++ tableName ++ "_" ++ name) true tableName [name]]
    else []

/-- The automatic indexes of `resolveTableIndexes`: the loop over the fields. -/
def automaticIndexes (coveredFields : List String) : EffectiveSchema → List IndexConfig
  | [] => []
  | (fieldName, field) :: schema =>
    if field.primaryKey ∨ field.unique ∨ fieldName ∈ coveredFields ∨
        buildReferenceClause field.references = none then automaticIndexes coveredFields schema
    else { fields := [fieldName] } :: automaticIndexes (fieldName :: coveredFields) schema

def resolveTableIndexes (config : TableConfig) : List IndexConfig :=
  let coveredFields := (config.indexes.filterMap (·.fields.head?)).filter (· ≠ "")
  config.indexes ++ automaticIndexes coveredFields (buildEffectiveSchema config.schema)

def generateIndexDDL (tableName : String) (indexes : List IndexConfig) : List DdlStatement :=
  indexes.map fun idx => .createIndex ("idx_" ++ tableName ++ "_" ++ "_".intercalate idx.fields)
    idx.unique tableName idx.fields

/-- The arguments of the search table, with its fields as they are. -/
def ftsArguments (tableName : String) (ftsFields : List String) : String :=
  ", ".intercalate ftsFields ++
    s!", content='{tableName}', content_rowid='rowid', tokenize='trigram'"

def generateFTS5DDL (tableName : String) (ftsFields : List String) : DdlStatement :=
  .createFTS5 (tableName ++ "_fts") (ftsArguments tableName ftsFields)

/-- `generateFTS5Triggers`, without their bodies. -/
def generateFTS5Triggers (tableName : String) : List DdlStatement :=
  ["_ai", "_ad", "_au"].map fun suffix => .createTrigger (tableName ++ suffix) tableName

def generateTableDDL (tableName : String) (config : TableConfig) : List DdlStatement :=
  generateCreateTableDDL tableName config ::
    generateIndexDDL tableName (resolveTableIndexes config) ++
    if config.fts = [] then []
    else generateFTS5DDL tableName config.fts :: generateFTS5Triggers tableName

/-! ### SQLite -/

/-- A name as SQLite compares it: without the case of ASCII letters. -/
def fold (name : String) : String := String.ofList (name.toList.map Char.toLower)

inductive Key where
  /-- A table or an index, which share their names. -/
  | relation (name : String)
  | table (name : String)
  | column (table name : String)
  | trigger (name : String)
  deriving DecidableEq

/-- A statement with the names of its index as SQLite compares them. -/
def DdlStatement.read : DdlStatement → DdlStatement
  | .createIndex name unique table fields =>
    .createIndex (fold name) unique (fold table) (fields.map fold)
  | s => s

/-- The tables behind a search table. -/
def shadowNames (name : String) : List String :=
  ["_data", "_idx", "_docsize", "_config"].map (fold name ++ ·)

/-- A name that SQLite keeps for itself. -/
def isReserved (name : String) : Bool := "sqlite_".toList.isPrefixOf (fold name).toList

/-- The statements in SQLite; `fts5` is what the search module makes of its arguments: the columns,
unless it refuses them. -/
def sqlite (fts5 : String → Option (List String)) : Catalog.Language DdlStatement Key where
  main
    | .createTable table _ => .relation (fold table)
    | .addColumn table column => .column (fold table) (fold column.name)
    | .createIndex name _ _ _ | .createFTS5 name _ => .relation (fold name)
    | .createTrigger name _ => .trigger (fold name)
  others
    | .createTable table columns =>
      .table (fold table) :: columns.map fun column => .column (fold table) (fold column.name)
    | .createFTS5 name _ => (shadowNames name).map .relation
    | _ => []
  needs
    | .createTable _ _ | .createFTS5 _ _ => []
    | .createIndex _ _ table fields => fields.map fun field => .column (fold table) (fold field)
    | .addColumn table _ | .createTrigger _ table => [.table (fold table)]
  wellFormed
    | .createTable table columns =>
      !isReserved table && columns ≠ [] && (columns.filter (·.primaryKey)).length ≤ 1
    | .addColumn _ column => !column.primaryKey && !column.unique
    | .createIndex name _ _ fields => !isReserved name && fields ≠ []
    | .createFTS5 name arguments => !isReserved name && (fts5 arguments).isSome
    | .createTrigger name _ => !isReserved name
  skips
    | .createTable _ _, t | .createFTS5 _ _, t =>
      match t with
      | .createTable _ _ | .createFTS5 _ _ => true
      | _ => false
    | .createIndex _ _ _ _, t =>
      match t with
      | .createIndex _ _ _ _ => true
      | _ => false
    | .createTrigger _ _, _ => true
    | .addColumn _ _, _ => false

end EdgeBase
