import Mathlib.Data.List.DropRight
import Mathlib.Data.List.Perm.Subperm
import EdgeBase.Schema.Names

/-!
# The repair of a search table

`inspectSqliteFtsArtifacts` compares the objects of the catalog under the names of a search table and
its triggers with what would have been generated, and `ensureFTS5AndIndexes` generates them anew
when they are not healthy.

* `FtsRepair.normalize_created` : what SQLite stores is taken for what was generated.
* `FtsRepair.repaired_iff_plain` : when only generated objects are dropped, and all is healthy in
  the end.
-/

namespace EdgeBase

open List Option

namespace FtsRepair

/-! ### The normalized text of a definition -/

/-- `word` at the start of a text, in letters of either case: what follows it. -/
def matchWord : List Char → List Char → Option (List Char)
  | [], text => some text
  | w :: word, c :: text => if c.toLower = w then matchWord word text else none
  | _ :: _, [] => none

/-- `\s+` -/
def matchSpaces : List Char → Option (List Char)
  | [] => none
  | c :: text => if isTrimmed c then some (text.dropWhile isTrimmed) else none

/-- `IF\s+NOT\s+EXISTS\b` -/
def matchIfNotExists (text : List Char) : Option (List Char) :=
  (matchWord ['i', 'f'] text).bind fun text =>
  (matchSpaces text).bind fun text =>
  (matchWord ['n', 'o', 't'] text).bind fun text =>
  (matchSpaces text).bind fun text =>
  (matchWord ['e', 'x', 'i', 's', 't', 's'] text).bind fun text =>
    if text.head?.any isWordChar then none else some text

/-- `.replace(/\bIF\s+NOT\s+EXISTS\b/gi, '')`, after the character `last`, where the next `skip`
characters belong to a match. -/
def removeIfNotExists : Option Char → ℕ → List Char → List Char
  | _, _, [] => []
  | _, skip + 1, c :: text => removeIfNotExists (some c) skip text
  | last, 0, c :: text =>
    match if last.any isWordChar then none else matchIfNotExists (c :: text) with
    | some rest => removeIfNotExists (some c) (text.length - rest.length) text
    | none => c :: removeIfNotExists (some c) 0 text

/-- `.replace(/;\s*$/, '')` -/
def dropSemicolon (text : List Char) : List Char :=
  if (text.rdropWhile isTrimmed).getLast? = some ';' then (text.rdropWhile isTrimmed).dropLast
  else text

/-- `.replace(/\s+/g, ' ')` -/
def collapseSpaces : Bool → List Char → List Char
  | _, [] => []
  | inSpaces, c :: text =>
    if isTrimmed c then (if inSpaces then [] else [' ']) ++ collapseSpaces true text
    else c :: collapseSpaces false text

def normalizeSqliteSchemaSql (sql : String) : String :=
  trim (String.ofList (collapseSpaces false
    (dropSemicolon (removeIfNotExists none 0 sql.toList))))

/-- A character that ends whatever could match before it. -/
structure Ends (c : Char) : Prop where
  word : isWordChar c = false
  space : isTrimmed c = false
  lower : c.toLower = c

variable {c : Char} (hc : Ends c)

include hc in
theorem matchWord_append (word text rest : List Char) (hword : word.all isWordChar = true) :
    matchWord word (text ++ c :: rest) = (matchWord word text).map (· ++ c :: rest) := by
  induction word generalizing text with
  | nil => rfl
  | cons w word ih =>
    obtain ⟨hw, hword⟩ := Bool.and_eq_true_iff.1 hword
    cases text with
    | nil =>
      have hne : c.toLower ≠ w := by
        rintro rfl
        rw [hc.lower, hc.word] at hw
        cases hw
      exact if_neg hne
    | cons d text =>
      simp only [cons_append, matchWord]
      split_ifs
      · exact ih text hword
      · rfl

include hc in
theorem matchSpaces_append (text rest : List Char) :
    matchSpaces (text ++ c :: rest) = (matchSpaces text).map (· ++ c :: rest) := by
  cases text with
  | nil => exact if_neg (by simp [hc.space])
  | cons d text =>
    simp only [cons_append, matchSpaces]
    split_ifs
    · have hdrop : (text ++ c :: rest).dropWhile isTrimmed =
          text.dropWhile isTrimmed ++ c :: rest := by
        rw [dropWhile_append]
        split_ifs with hnil
        · rw [List.isEmpty_iff.1 hnil, nil_append,
            dropWhile_cons_of_neg (by simp [hc.space])]
        · rfl
      rw [hdrop, map_some]
    · rfl

include hc in
theorem matchIfNotExists_append (text rest : List Char) :
    matchIfNotExists (text ++ c :: rest) = (matchIfNotExists text).map (· ++ c :: rest) := by
  unfold matchIfNotExists
  rw [matchWord_append hc _ _ _ rfl]
  rcases matchWord ['i', 'f'] text with - | text
  · rfl
  simp only [map_some, bind_some, matchSpaces_append hc]
  rcases matchSpaces text with - | text
  · rfl
  simp only [map_some, bind_some, matchWord_append hc ['n', 'o', 't'] _ _ rfl]
  rcases matchWord ['n', 'o', 't'] text with - | text
  · rfl
  simp only [map_some, bind_some, matchSpaces_append hc]
  rcases matchSpaces text with - | text
  · rfl
  rw [map_some, bind_some, bind_some, matchWord_append hc _ _ _ rfl]
  rcases matchWord ['e', 'x', 'i', 's', 't', 's'] text with - | text
  · rfl
  cases text with
  | nil => simp [hc.word]
  | cons d text => cases hd : isWordChar d <;> simp [hd]

include hc in
/-- Nothing that is removed reaches over a character that ends it. -/
theorem removeIfNotExists_append (text rest : List Char) (last : Option Char) (skip : ℕ)
    (hskip : skip ≤ text.length) : removeIfNotExists last skip (text ++ c :: rest) =
      removeIfNotExists last skip text ++ c :: removeIfNotExists (some c) 0 rest := by
  induction text generalizing last skip with
  | nil =>
    obtain rfl := Nat.le_zero.1 hskip
    have hnone : matchIfNotExists (c :: rest) = none := matchIfNotExists_append hc [] rest
    simp [removeIfNotExists, hnone]
  | cons d text ih =>
    cases skip with
    | succ skip => exact ih _ _ (Nat.le_of_succ_le_succ hskip)
    | zero =>
      have happend := matchIfNotExists_append hc (d :: text) rest
      rw [cons_append] at happend
      simp only [cons_append, removeIfNotExists, happend]
      split_ifs
      · exact congrArg (d :: ·) (ih _ _ (Nat.zero_le _))
      · cases matchIfNotExists (d :: text) with
        | none => exact congrArg (d :: ·) (ih _ _ (Nat.zero_le _))
        | some kept =>
          simp only [map_some, length_append, Nat.add_sub_add_right]
          exact ih _ _ (Nat.sub_le _ _)

theorem ends_semicolon : Ends ';' := ⟨by decide, by decide, by decide⟩
theorem ends_parenthesis : Ends ')' := ⟨by decide, by decide, by decide⟩

theorem dropSemicolon_concat (text : List Char) {d : Char} (hd : isTrimmed d = false) :
    dropSemicolon (text ++ [d]) = if d = ';' then text else text ++ [d] := by
  rw [dropSemicolon, rdropWhile_concat_neg _ _ _ (by simp [hd])]
  simp

/-- SQLite stores a definition from the name on, and what is stored is taken for what was generated. -/
theorem normalize_created {head body : String} (start : String)
    (hhead : head = "CREATE VIRTUAL TABLE " ∨ head = "CREATE TRIGGER ")
    (hbody : body = start ++ ")" ∨ body = start ++ ";\nEND") :
    normalizeSqliteSchemaSql (head ++ "IF NOT EXISTS " ++ body ++ ";") =
      normalizeSqliteSchemaSql (head ++ body) := by
  have hclause (text : List Char) : removeIfNotExists (some ' ') 0
      ("IF NOT EXISTS ".toList ++ text) = ' ' :: removeIfNotExists (some ' ') 0 text := by
    simp [removeIfNotExists, matchIfNotExists, matchWord, matchSpaces, isTrimmed, isWordChar]
  have hkept (text : List Char) : removeIfNotExists none 0 (head.toList ++ text) =
      head.toList ++ removeIfNotExists (some ' ') 0 text := by
    rcases hhead with rfl | rfl <;> simp [removeIfNotExists, matchIfNotExists, matchWord]
  have hspaces (text : List Char) : collapseSpaces false (head.toList ++ ' ' :: text) =
      collapseSpaces false (head.toList ++ text) := by
    rcases hhead with rfl | rfl <;> simp [collapseSpaces, isTrimmed]
  have hlast : ∃ text d, isTrimmed d = false ∧ d ≠ ';' ∧
      removeIfNotExists (some ' ') 0 body.toList = text ++ [d] := by
    rcases hbody with rfl | rfl
    · have happend := removeIfNotExists_append ends_parenthesis start.toList [] (some ' ') 0
        (Nat.zero_le _)
      exact ⟨_, ')', by decide, by decide, by simpa [removeIfNotExists] using happend⟩
    · have happend := removeIfNotExists_append ends_semicolon start.toList ['\n', 'E', 'N', 'D']
        (some ' ') 0 (Nat.zero_le _)
      refine ⟨removeIfNotExists (some ' ') 0 start.toList ++ [';', '\n', 'E', 'N'], 'D', by decide,
        by decide, ?_⟩
      simpa [removeIfNotExists, matchIfNotExists, matchWord] using happend
  obtain ⟨text, d, hspace, hne, htext⟩ := hlast
  have hsemicolon := removeIfNotExists_append ends_semicolon body.toList [] (some ' ') 0
    (Nat.zero_le _)
  have hended : dropSemicolon (head.toList ++ (text ++ [d])) = head.toList ++ (text ++ [d]) := by
    rw [← append_assoc, dropSemicolon_concat _ hspace, if_neg hne]
  have hdropped : dropSemicolon (head.toList ++ ' ' :: (text ++ [d] ++ [';'])) =
      head.toList ++ ' ' :: (text ++ [d]) := by
    rw [← cons_append, ← append_assoc, dropSemicolon_concat _ (by decide), if_pos rfl]
  unfold normalizeSqliteSchemaSql
  rw [String.toList_append, String.toList_append, String.toList_append, String.toList_append,
    append_assoc, append_assoc, hkept, hkept, hclause]
  change trim (String.ofList (collapseSpaces false (dropSemicolon (head.toList ++ ' ' ::
    removeIfNotExists (some ' ') 0 (body.toList ++ ';' :: []))))) = _
  rw [hsemicolon, htext, removeIfNotExists, hdropped, hended, hspaces]

/-! ### The artifacts -/

inductive ObjectType where
  | table | index | view | trigger
  deriving DecidableEq

/-- A row of `sqlite_master`. -/
structure SchemaObject where
  type : ObjectType
  name : String
  tableName : String
  sql : Option String
  deriving DecidableEq

/-- The search table of a table, and the triggers after an insert, a delete and an update. -/
inductive Artifact where
  | table | insert | delete | update
  deriving DecidableEq

/-- The order of `sqliteFtsArtifactContract`. -/
def Artifact.all : List Artifact := [.table, .insert, .delete, .update]

variable (tableName : String) (fields : List String)

namespace Artifact

def suffix : Artifact → String
  | table => "_fts" | insert => "_ai" | delete => "_ad" | update => "_au"

def name (a : Artifact) : String := tableName ++ a.suffix

def type : Artifact → ObjectType
  | table => .table
  | _ => .trigger

def owner : Artifact → String
  | table => table.name tableName
  | _ => tableName

def head : Artifact → String
  | table => "CREATE VIRTUAL TABLE "
  | _ => "CREATE TRIGGER "

/-- The row that a trigger adds to the search table. -/
def newRow : String :=
  "INSERT INTO " ++ esc (table.name tableName) ++ "(rowid, " ++ ", ".intercalate (fields.map esc) ++
    ") VALUES (new.rowid, " ++ ", ".intercalate (fields.map fun f => "new." ++ esc f) ++ ")"

def oldRow : String :=
  "INSERT INTO " ++ esc (table.name tableName) ++ "(" ++ esc (table.name tableName) ++ ", rowid, " ++
    ", ".intercalate (fields.map esc) ++ ") VALUES ('delete', old.rowid, " ++
    ", ".intercalate (fields.map fun f => "old." ++ esc f) ++ ")"

/-- The definition from the name on, up to its last characters. -/
def start (a : Artifact) : String :=
  esc (a.name tableName) ++ match a with
    | table => " USING fts5(" ++ ftsArguments tableName fields
    | insert =>
      " AFTER INSERT ON " ++ esc tableName ++ " BEGIN\n  " ++ newRow tableName fields
    | delete =>
      " AFTER DELETE ON " ++ esc tableName ++ " BEGIN\n  " ++ oldRow tableName fields
    | update =>
      " AFTER UPDATE ON " ++ esc tableName ++ " BEGIN\n  " ++ oldRow tableName fields ++ ";\n  " ++
        newRow tableName fields

def body (a : Artifact) : String :=
  a.start tableName fields ++ match a with
    | table => ")"
    | _ => ";\nEND"

/-- `generateFTS5DDL` and `generateFTS5Triggers`. -/
def ddl (a : Artifact) : String := a.head ++ "IF NOT EXISTS " ++ a.body tableName fields ++ ";"

def stored (a : Artifact) : SchemaObject where
  type := a.type
  name := a.name tableName
  tableName := a.owner tableName
  sql := some (a.head ++ a.body tableName fields)

theorem normalize_ddl (a : Artifact) : normalizeSqliteSchemaSql (a.head ++ a.body tableName fields) =
    normalizeSqliteSchemaSql (a.ddl tableName fields) := by
  refine (normalize_created (a.start tableName fields) ?_ ?_).symm <;> cases a <;>
    simp [head, body]

end Artifact

/-! ### The inspection -/

structure SQLiteFtsArtifactInspection where
  healthy : Bool
  rebuildSafe : Bool

/-- The rows of the catalog under the name of an artifact. -/
def matchingRows (rows : List SchemaObject) (a : Artifact) : List SchemaObject :=
  rows.filter (·.name = a.name tableName)

/-- Kind, owner and definition are those of an artifact on some fields. -/
def hasShape (a : Artifact) (row : SchemaObject) : Bool :=
  row.type = a.type && row.tableName = a.owner tableName &&
    row.sql.elim "" normalizeSqliteSchemaSql = normalizeSqliteSchemaSql (a.ddl tableName fields)

/-- The fields of the search table that there is, or those that are desired. -/
def ownershipFields (actual : Option (List String)) (rows : List SchemaObject) : List String :=
  if matchingRows tableName rows .table = [] then fields else actual.getD []

def inspectSqliteFtsArtifacts (actual : Option (List String)) (rows : List SchemaObject) :
    SQLiteFtsArtifactInspection :=
  if matchingRows tableName rows .table ≠ [] ∧ actual = none then ⟨false, false⟩
  else
    { healthy := (Artifact.all.all fun a => match matchingRows tableName rows a with
          | [row] => hasShape tableName fields a row
          | _ => false) && actual.all (· = fields)
      rebuildSafe := Artifact.all.all fun a => match matchingRows tableName rows a with
        | [] => true
        | [row] => hasShape tableName (ownershipFields tableName fields actual rows) a row
        | _ => false }

def named (o : SchemaObject) : Bool := Artifact.all.any fun a => o.name = a.name tableName

/-- `buildSqliteFtsArtifactQuery`: at most eight rows. -/
def artifactRows (objects : List SchemaObject) : List SchemaObject :=
  (objects.filter (named tableName)).take 8

variable (columns : SchemaObject → List String)

/-- The fields of the search table, as `PRAGMA table_info` gives its columns. -/
def actualFields (objects : List SchemaObject) : Option (List String) :=
  match (artifactRows tableName objects).filter fun row =>
      row.name = Artifact.table.name tableName && row.type = .table with
  | [row] => some (columns row)
  | _ => none

def inspectFTS5Artifacts (objects : List SchemaObject) : SQLiteFtsArtifactInspection :=
  inspectSqliteFtsArtifacts tableName fields (actualFields tableName columns objects)
    (artifactRows tableName objects)

/-! ### The repair -/

inductive Statement where
  /-- Of a trigger or a table, with `IF EXISTS`. -/
  | drop (type : ObjectType) (name : String)
  /-- With `IF NOT EXISTS`. -/
  | create (object : SchemaObject)
  | rebuild (name : String)

def SchemaObject.key (o : SchemaObject) : Bool × String := (o.type = .trigger, fold o.name)

/-- The object that a statement drops: SQLite compares names without their case. -/
def Statement.Drops (o : SchemaObject) : Statement → Prop
  | drop type name => o.type = type ∧ fold o.name = fold name
  | _ => False

variable (accepts : Statement → List SchemaObject → Bool)

/-- A statement, where `accepts` is what else has to be right for it. -/
def exec (objects : List SchemaObject) (statement : Statement) : Option (List SchemaObject) :=
  if accepts statement objects = false then none
  else match statement with
    | .drop type name =>
      if type = .table ∧ ∃ o ∈ objects, o.type = .view ∧ fold o.name = fold name then none
      -- a table goes with its indexes and triggers
      else some (objects.filter fun o => (type = .table → fold o.tableName ≠ fold name) ∧
        (type ≠ .table → o.type = type → fold o.name ≠ fold name))
    | .create object =>
      match objects.find? fun o => o.key = object.key with
      | none => some (objects ++ [object])
      | some o => if o.type = .index ↔ object.type = .index then some objects else none
    | .rebuild _ => some objects

def generateFTS5RebuildDDLs : List Statement :=
  ([Artifact.insert, .delete, .update, .table].map fun a => .drop a.type (a.name tableName)) ++
  (Artifact.all.map fun a => .create (a.stored tableName fields)) ++
  [.rebuild (Artifact.table.name tableName)]

/-- A SQLite database with the stored signature of the search table. -/
structure Database where
  objects : List SchemaObject
  signature : Option String
  unique : (objects.map SchemaObject.key).Nodup
  named : ∀ o ∈ objects, o.type = .table → o.tableName = o.name

variable (stringify : List String → String) (config : TableConfig) (db : Database)

def computeSQLiteFtsSignature (fields : List String) : String :=
  "fts5-trigram-v1:" ++ stringify fields

/-- The statements for the search table, unless there is a collision. -/
def ftsStatements : Option (List Statement) :=
  if config.fts = [] then some []
  else
    let inspection := inspectFTS5Artifacts tableName config.fts columns db.objects
    if !inspection.rebuildSafe then none
    else if !inspection.healthy || db.signature ≠ some (computeSQLiteFtsSignature stringify config.fts) then
      some (generateFTS5RebuildDDLs tableName config.fts)
    else some []

/-- `generateIndexDDL` -/
def indexStatement (idx : IndexConfig) : Statement :=
  let name := "idx_" ++ tableName ++ "_" ++ "_".intercalate idx.fields
  .create
    { type := .index
      name
      tableName
      sql := some ("CREATE " ++ (if idx.unique then "UNIQUE " else "") ++ "INDEX " ++ esc name ++
        " ON " ++ esc tableName ++ "(" ++ ", ".intercalate (idx.fields.map esc) ++ ")") }

/-- `ensureFTS5AndIndexes`, in a transaction: its statements, and the objects in the end, if nothing
throws. -/
def ensureFTS5AndIndexes : Option (List Statement × List SchemaObject) :=
  (ftsStatements tableName columns stringify config db).bind fun statements =>
    let statements := statements ++ (resolveTableIndexes config).map (indexStatement tableName)
    (statements.foldlM (exec accepts) db.objects).map fun objects => (statements, objects)

/-- The fields by which the objects of a database are told to be generated. -/
def Database.ownershipFields : List String :=
  FtsRepair.ownershipFields tableName config.fts (actualFields tableName columns db.objects)
    (artifactRows tableName db.objects)

/-- What is dropped was generated, and in the end everything is there, and healthy. -/
structure Database.Repaired (run : List Statement × List SchemaObject) : Prop where
  owned : ∀ statement ∈ run.1, ∀ o ∈ db.objects, statement.Drops o →
    ∃ a, o = Artifact.stored tableName (db.ownershipFields tableName columns config) a
  created : ∀ a, Artifact.stored tableName config.fts a ∈ run.2
  healthy : (inspectFTS5Artifacts tableName config.fts columns run.2).healthy = true

/-- Every object with the kind and, as SQLite compares names, the name of an artifact is that
artifact, to the letter; and the search table has the configured fields. -/
structure Database.Plain : Prop where
  exact : ∀ o ∈ db.objects, ∀ a : Artifact, o.type = a.type → fold o.name = fold (a.name tableName) →
    ∃ b, o = Artifact.stored tableName (db.ownershipFields tableName columns config) b
  columns : columns (Artifact.table.stored tableName config.fts) = config.fts

/-! ### Names -/

variable {tableName fields columns accepts stringify config db}

@[simp] theorem fold_name_inj {a b : Artifact} :
    fold (a.name tableName) = fold (b.name tableName) ↔ a = b := by
  refine ⟨fun h => ?_, fun h => h ▸ rfl⟩
  unfold Artifact.name at h
  rw [Schema.fold_append, Schema.fold_append] at h
  have hlist := congrArg String.toList h
  rw [String.toList_append, String.toList_append] at hlist
  have hsuffix := append_cancel_left hlist
  revert hsuffix
  cases a <;> cases b <;> decide

@[simp] theorem name_inj {a b : Artifact} : a.name tableName = b.name tableName ↔ a = b :=
  ⟨fun h => fold_name_inj.1 (congrArg fold h), fun h => h ▸ rfl⟩

theorem mem_all (a : Artifact) : a ∈ Artifact.all := by
  cases a <;> decide

theorem mem_artifactRows {objects : List SchemaObject} {o : SchemaObject}
    (h : o ∈ artifactRows tableName objects) : o ∈ objects :=
  (mem_filter.1 (mem_of_mem_take h)).1

/-- The eight rows are all. -/
theorem artifactRows_eq (db : Database) :
    artifactRows tableName db.objects = db.objects.filter (named tableName) := by
  refine take_of_length_le ?_
  have hnodup : ((db.objects.filter (named tableName)).map SchemaObject.key).Nodup :=
    db.unique.sublist (filter_sublist.map _)
  have hsubset : (db.objects.filter (named tableName)).map SchemaObject.key ⊆
      [true, false].flatMap fun trigger =>
        Artifact.all.map fun a => (trigger, fold (a.name tableName)) := by
    intro key hkey
    obtain ⟨o, ho, rfl⟩ := List.mem_map.1 hkey
    obtain ⟨a, ha, hname⟩ := List.any_eq_true.1 (mem_filter.1 ho).2
    simp only [mem_flatMap, List.mem_map]
    exact ⟨_, by cases decide (o.type = .trigger) <;> simp, a, ha,
      by rw [SchemaObject.key, of_decide_eq_true hname]⟩
  simpa [Artifact.all] using (List.Nodup.subperm hnodup hsubset).length_le

/-! ### What the inspection finds -/

theorem hasShape_stored (a : Artifact) :
    hasShape tableName fields a (a.stored tableName fields) = true := by
  simp [hasShape, Artifact.stored, Artifact.normalize_ddl]

theorem matchingRows_stored (a : Artifact) :
    matchingRows tableName (Artifact.all.map (·.stored tableName fields)) a =
      [a.stored tableName fields] := by
  cases a <;> simp [matchingRows, Artifact.all, Artifact.stored]

/-- Generated artifacts are healthy if the search table has the fields. -/
theorem healthy_stored {objects : List SchemaObject}
    (hrows : artifactRows tableName objects = Artifact.all.map (·.stored tableName fields)) :
    (inspectFTS5Artifacts tableName fields columns objects).healthy = true ↔
      columns (Artifact.table.stored tableName fields) = fields := by
  have hactual : actualFields tableName columns objects =
      some (columns (Artifact.table.stored tableName fields)) := by
    unfold actualFields
    rw [hrows]
    simp [Artifact.all, Artifact.stored, Artifact.type]
  rw [inspectFTS5Artifacts, hrows, hactual, inspectSqliteFtsArtifacts]
  simp [matchingRows_stored, hasShape_stored]

theorem shape_of_rebuildSafe
    (h : (inspectFTS5Artifacts tableName config.fts columns db.objects).rebuildSafe = true)
    {o : SchemaObject} (ho : o ∈ db.objects) {a : Artifact} (hname : o.name = a.name tableName) :
    hasShape tableName (db.ownershipFields tableName columns config) a o = true := by
  have hmem : o ∈ matchingRows tableName (artifactRows tableName db.objects) a := by
    rw [matchingRows, artifactRows_eq]
    exact mem_filter.2 ⟨mem_filter.2
      ⟨ho, List.any_eq_true.2 ⟨a, mem_all a, decide_eq_true hname⟩⟩, decide_eq_true hname⟩
  unfold inspectFTS5Artifacts inspectSqliteFtsArtifacts at h
  split_ifs at h
  have hrow := List.all_eq_true.1 h a (mem_all a)
  split at hrow
  · next hnil => exact absurd (hnil ▸ hmem) not_mem_nil
  · next row hsingle =>
    obtain rfl := mem_singleton.1 (hsingle ▸ hmem)
    exact hrow
  · cases hrow

/-- Where all is healthy every artifact is there, and the fields are the configured ones. -/
theorem rows_of_healthy
    (h : (inspectFTS5Artifacts tableName config.fts columns db.objects).healthy = true) :
    (∀ a : Artifact, ∃ o ∈ db.objects, o.name = a.name tableName ∧ o.type = a.type) ∧
      actualFields tableName columns db.objects = some config.fts ∧
      db.ownershipFields tableName columns config = config.fts := by
  unfold inspectFTS5Artifacts inspectSqliteFtsArtifacts at h
  split_ifs at h with hnone
  obtain ⟨hall, hactual⟩ := Bool.and_eq_true_iff.1 h
  have hrows (a : Artifact) : ∃ row, matchingRows tableName (artifactRows tableName db.objects) a =
      [row] ∧ hasShape tableName config.fts a row = true := by
    have hrow := List.all_eq_true.1 hall a (mem_all a)
    split at hrow
    · next row hsingle => exact ⟨row, hsingle, hrow⟩
    · cases hrow
  constructor
  · intro a
    obtain ⟨row, hrow, hshape⟩ := hrows a
    have hmem : row ∈ matchingRows tableName (artifactRows tableName db.objects) a := by
      rw [hrow]
      exact mem_singleton_self _
    obtain ⟨hmem, hname⟩ := mem_filter.1 hmem
    simp only [hasShape, Bool.and_eq_true, decide_eq_true_eq] at hshape
    exact ⟨row, mem_artifactRows hmem, of_decide_eq_true hname, hshape.1.1⟩
  · obtain ⟨row, hrow, -⟩ := hrows .table
    have hpresent : matchingRows tableName (artifactRows tableName db.objects) .table ≠ [] := by
      rw [hrow]
      exact cons_ne_nil _ _
    rw [Database.ownershipFields, FtsRepair.ownershipFields, if_neg hpresent]
    cases hfields : actualFields tableName columns db.objects with
    | none => exact absurd ⟨hpresent, hfields⟩ hnone
    | some actual => simpa [hfields] using hactual

/-! ### What the statements do -/

theorem exec_drop {objects next : List SchemaObject} {a : Artifact}
    (h : exec accepts objects (.drop a.type (a.name tableName)) = some next) :
    ∀ o ∈ next, o ∈ objects ∧ ((o.type = .table → o.tableName = o.name) →
      o.key = (a.stored tableName fields).key → o.type = .index) := by
  unfold exec at h
  split_ifs at h
  dsimp only at h
  split_ifs at h with hview
  obtain rfl := some.inj h
  intro o ho
  obtain ⟨ho, hkept⟩ := mem_filter.1 ho
  refine ⟨ho, fun hnamed hkey => ?_⟩
  obtain ⟨htrigger, hname⟩ := Prod.ext_iff.1 hkey
  cases htype : o.type with
  | index => rfl
  | _ => cases a <;> simp_all [SchemaObject.key, Artifact.stored, Artifact.type]

theorem run_drops {objects kept : List SchemaObject} {artifacts : List Artifact}
    (hrun : (artifacts.map fun a => Statement.drop a.type (a.name tableName)).foldlM (exec accepts)
      objects = some kept) : ∀ o ∈ kept, o ∈ objects ∧ ((o.type = .table → o.tableName = o.name) →
        ∀ a ∈ artifacts, o.key = (Artifact.stored tableName fields a).key → o.type = .index) := by
  induction artifacts generalizing objects with
  | nil =>
    obtain rfl := some.inj hrun
    exact fun o ho => ⟨ho, fun _ => nofun⟩
  | cons a artifacts ih =>
    rw [map_cons, foldlM_cons] at hrun
    obtain ⟨next, hnext, hrun⟩ := bind_eq_some_iff.1 hrun
    intro o ho
    obtain ⟨ho, hrest⟩ := ih hrun o ho
    obtain ⟨ho, hfirst⟩ := exec_drop hnext o ho
    exact ⟨ho, fun hnamed => forall_mem_cons.2 ⟨hfirst hnamed, hrest hnamed⟩⟩

theorem exec_create {objects next : List SchemaObject} {object : SchemaObject}
    (h : exec accepts objects (.create object) = some next) : next = objects ++ [object] ∨
      next = objects ∧ ∃ o ∈ objects, o.key = object.key ∧
        (o.type = .index ↔ object.type = .index) := by
  unfold exec at h
  split_ifs at h
  dsimp only at h
  split at h
  · exact .inl (some.inj h).symm
  · next o hfound =>
    split_ifs at h with hindex
    exact .inr ⟨(some.inj h).symm, o, List.mem_of_find?_eq_some hfound,
      by simpa using List.find?_some hfound, hindex⟩

theorem run_creates {kept after : List SchemaObject} {created artifacts : List Artifact}
    (hnodup : (created ++ artifacts).Nodup)
    (hkept : ∀ o ∈ kept, ∀ a, o.key = (Artifact.stored tableName fields a).key → o.type = .index)
    (hrun : (artifacts.map fun a => Statement.create (a.stored tableName fields)).foldlM
      (exec accepts) (kept ++ created.map (·.stored tableName fields)) = some after) :
    after = kept ++ (created ++ artifacts).map (·.stored tableName fields) := by
  induction artifacts generalizing created with
  | nil => simpa using (some.inj hrun).symm
  | cons a artifacts ih =>
    rw [map_cons, foldlM_cons] at hrun
    obtain ⟨next, hnext, hrun⟩ := bind_eq_some_iff.1 hrun
    rcases exec_create hnext with rfl | ⟨-, o, ho, hkey, hindex⟩
    · rw [append_cons] at hnodup ⊢
      exact ih hnodup (by simpa using hrun)
    · rcases mem_append.1 ho with ho | ho
      · have ha := hindex.1 (hkept o ho a hkey)
        cases a <;> cases ha
      · obtain ⟨b, hb, rfl⟩ := List.mem_map.1 ho
        obtain rfl := fold_name_inj.1 (congrArg Prod.snd hkey)
        exact (disjoint_of_nodup_append hnodup hb mem_cons_self).elim

theorem run_indexes {objects after : List SchemaObject} {indexes : List IndexConfig}
    (hrun : (indexes.map (indexStatement tableName)).foldlM (exec accepts) objects = some after) :
    ∃ rest, after = objects ++ rest ∧ ∀ o ∈ rest, ∀ a : Artifact, o.name ≠ a.name tableName := by
  induction indexes generalizing objects with
  | nil => exact ⟨[], by simpa using (some.inj hrun).symm, nofun⟩
  | cons idx indexes ih =>
    rw [map_cons, foldlM_cons] at hrun
    obtain ⟨next, hnext, hrun⟩ := bind_eq_some_iff.1 hrun
    obtain ⟨rest, rfl, hrest⟩ := ih hrun
    rcases exec_create hnext with rfl | ⟨rfl, -⟩
    · refine ⟨_, append_assoc .., forall_mem_cons.2 ⟨fun a hname => ?_, hrest⟩⟩
      have hlength := congrArg (fun s : String => s.toList.length) hname
      cases a <;> simp [Artifact.name, Artifact.suffix] at hlength <;> omega
    · exact ⟨rest, rfl, hrest⟩

/-- The repair leaves nothing else under the exact names. -/
theorem run_rebuild {after : List SchemaObject}
    (hsafe : (inspectFTS5Artifacts tableName config.fts columns db.objects).rebuildSafe = true)
    (hrun : (generateFTS5RebuildDDLs tableName fields).foldlM (exec accepts) db.objects =
      some after) : ∃ kept, after = kept ++ Artifact.all.map (·.stored tableName fields) ∧
        ∀ o ∈ kept, ∀ a : Artifact, o.name ≠ a.name tableName := by
  unfold generateFTS5RebuildDDLs at hrun
  rw [append_assoc, foldlM_append] at hrun
  obtain ⟨kept, hkept, hrun⟩ := bind_eq_some_iff.1 hrun
  rw [foldlM_append] at hrun
  obtain ⟨created, hcreated, hrun⟩ := bind_eq_some_iff.1 hrun
  have hmem : ∀ o ∈ kept, o ∈ db.objects ∧
      ∀ a, o.key = (Artifact.stored tableName fields a).key → o.type = .index := fun o ho =>
    have hdrops := run_drops hkept o ho
    ⟨hdrops.1, fun a => hdrops.2 (db.named o hdrops.1) a (by cases a <;> decide)⟩
  have hcreated := @run_creates tableName fields accepts kept created [] Artifact.all (by decide)
    (fun o ho => (hmem o ho).2) (by simpa using hcreated)
  obtain rfl : after = created := by
    simp only [foldlM_cons, foldlM_nil, exec] at hrun
    split_ifs at hrun
    · cases hrun
    · simpa using hrun.symm
  refine ⟨kept, hcreated, fun o ho a hname => ?_⟩
  have hshape := shape_of_rebuildSafe hsafe (hmem o ho).1 hname
  simp only [hasShape, Bool.and_eq_true, decide_eq_true_eq] at hshape
  have hindex := (hmem o ho).2 a (by
    rw [SchemaObject.key, SchemaObject.key, hname, hshape.1.1]
    rfl)
  rw [hindex] at hshape
  cases a <;> cases hshape.1.1

theorem artifactRows_append {objects rest : List SchemaObject}
    (hrest : ∀ o ∈ rest, ∀ a : Artifact, o.name ≠ a.name tableName) :
    artifactRows tableName (objects ++ rest) = artifactRows tableName objects := by
  have hnil : rest.filter (named tableName) = [] :=
    filter_eq_nil_iff.2 fun o ho => by simpa [named] using fun a _ => hrest o ho a
  rw [artifactRows, filter_append, hnil, append_nil, artifactRows]

theorem exists_drops_iff {o : SchemaObject} :
    (∃ statement ∈ generateFTS5RebuildDDLs tableName fields, statement.Drops o) ↔
      ∃ a : Artifact, o.type = a.type ∧ fold o.name = fold (a.name tableName) := by
  constructor
  · rintro ⟨statement, hmem, h⟩
    rcases mem_append.1 hmem with hmem | hmem
    · rcases mem_append.1 hmem with hmem | hmem
      · obtain ⟨a, -, rfl⟩ := List.mem_map.1 hmem
        exact ⟨a, h⟩
      · obtain ⟨a, -, rfl⟩ := List.mem_map.1 hmem
        exact h.elim
    · obtain rfl := mem_singleton.1 hmem
      exact h.elim
  · rintro ⟨a, h⟩
    exact ⟨_, mem_append_left _ (mem_append_left _
      (List.mem_map.2 ⟨a, by cases a <;> decide, rfl⟩)), h⟩

theorem repaired_iff_of_rebuild {rest kept : List SchemaObject}
    (hkept : ∀ o ∈ kept, ∀ a : Artifact, o.name ≠ a.name tableName)
    (hrest : ∀ o ∈ rest, ∀ a : Artifact, o.name ≠ a.name tableName) :
    db.Repaired tableName columns config (generateFTS5RebuildDDLs tableName config.fts ++
          (resolveTableIndexes config).map (indexStatement tableName),
          kept ++ Artifact.all.map (·.stored tableName config.fts) ++ rest) ↔
      db.Plain tableName columns config := by
  have hrows : artifactRows tableName
      (kept ++ Artifact.all.map (·.stored tableName config.fts) ++ rest) =
        Artifact.all.map (·.stored tableName config.fts) := by
    rw [artifactRows_append hrest, artifactRows, filter_append,
      filter_eq_nil_iff.2 fun o ho => by simpa [named] using fun a _ => hkept o ho a,
      nil_append]
    simp [named, Artifact.all, Artifact.stored]
  constructor
  · intro h
    refine ⟨fun o ho a htype hname => ?_, (healthy_stored hrows).1 h.healthy⟩
    obtain ⟨statement, hmem, hdrops⟩ := exists_drops_iff.2 ⟨a, htype, hname⟩
    exact h.owned statement (mem_append_left _ hmem) o ho hdrops
  · intro h
    refine ⟨fun statement hmem o ho hdrops => ?_, fun a => ?_, (healthy_stored hrows).2 h.columns⟩
    · rcases mem_append.1 hmem with hmem | hmem
      · obtain ⟨a, htype, hname⟩ := exists_drops_iff.1 ⟨statement, hmem, hdrops⟩
        exact h.exact o ho a htype hname
      · obtain ⟨idx, -, rfl⟩ := List.mem_map.1 hmem
        exact hdrops.elim
    · exact mem_append_left _
        (mem_append_right _ (List.mem_map.2 ⟨a, mem_all a, rfl⟩))

theorem repaired_iff_of_healthy {rest : List SchemaObject}
    (hhealthy : (inspectFTS5Artifacts tableName config.fts columns db.objects).healthy = true)
    (hrest : ∀ o ∈ rest, ∀ a : Artifact, o.name ≠ a.name tableName) :
    db.Repaired tableName columns config
        ((resolveTableIndexes config).map (indexStatement tableName), db.objects ++ rest) ↔
      db.Plain tableName columns config := by
  obtain ⟨hthere, hactual, hfields⟩ := rows_of_healthy hhealthy
  have hrows : artifactRows tableName (db.objects ++ rest) = artifactRows tableName db.objects :=
    artifactRows_append hrest
  have hafter : (inspectFTS5Artifacts tableName config.fts columns (db.objects ++ rest)).healthy =
      true := by
    rw [inspectFTS5Artifacts, actualFields, hrows]
    exact hhealthy
  constructor
  · intro h
    have hmem (a : Artifact) : a.stored tableName config.fts ∈ db.objects :=
      (mem_append.1 (h.created a)).resolve_right fun hmem => hrest _ hmem a rfl
    constructor
    · intro o ho a htype hname
      refine ⟨a, ?_⟩
      rw [hfields]
      refine inj_on_of_nodup_map db.unique ho (hmem a) ?_
      rw [SchemaObject.key, SchemaObject.key, hname, htype]
      rfl
    · unfold actualFields at hactual
      split at hactual
      · next row hrow =>
        have hself := mem_singleton_self row
        rw [← hrow] at hself
        obtain ⟨hmem', hname⟩ := mem_filter.1 hself
        rw [Bool.and_eq_true, decide_eq_true_eq, decide_eq_true_eq] at hname
        have heq : Artifact.table.stored tableName config.fts = row :=
          inj_on_of_nodup_map db.unique (hmem .table) (mem_artifactRows hmem') (by
            rw [SchemaObject.key, SchemaObject.key, hname.1, hname.2]
            rfl)
        rw [heq]
        exact some.inj hactual
      · cases hactual
  · intro h
    refine ⟨fun statement hmem o ho hdrops => ?_, fun a => ?_, hafter⟩
    · obtain ⟨idx, -, rfl⟩ := List.mem_map.1 hmem
      exact hdrops.elim
    · obtain ⟨o, ho, hname, htype⟩ := hthere a
      obtain ⟨b, rfl⟩ := h.exact o ho a htype (congrArg fold hname)
      obtain rfl := name_inj.1 hname
      rw [hfields] at ho
      exact mem_append_left _ ho

theorem repaired_iff {run : List Statement × List SchemaObject}
    (hrun : ensureFTS5AndIndexes tableName columns accepts stringify config db = some run)
    (hfts : config.fts ≠ []) :
    db.Repaired tableName columns config run ↔ db.Plain tableName columns config := by
  obtain ⟨statements, hstatements, hrun⟩ := bind_eq_some_iff.1 hrun
  obtain ⟨after, hafter, rfl⟩ := map_eq_some_iff.1 hrun
  rw [foldlM_append] at hafter
  obtain ⟨base, hbase, hafter⟩ := bind_eq_some_iff.1 hafter
  obtain ⟨rest, rfl, hrest⟩ := run_indexes hafter
  rw [ftsStatements, if_neg hfts] at hstatements
  dsimp only at hstatements
  split_ifs at hstatements with hsafe hneeded
  · obtain rfl := some.inj hstatements
    obtain ⟨kept, rfl, hkept⟩ := run_rebuild (by simpa using hsafe) hbase
    exact repaired_iff_of_rebuild hkept hrest
  · obtain rfl := some.inj hstatements
    obtain rfl := some.inj hbase
    rw [Bool.or_eq_true, not_or] at hneeded
    exact repaired_iff_of_healthy (by simpa using hneeded.1) hrest

/-- A table of its own, which is called `POSTS_FTS`. -/
def shouting : Database where
  objects :=
    [⟨.table, "posts", "posts", some "CREATE TABLE \"posts\" (\"title\" TEXT)"⟩,
      ⟨.table, "POSTS_FTS", "POSTS_FTS", some "CREATE TABLE POSTS_FTS (id)"⟩]
  signature := none
  unique := by decide
  named := by decide

end FtsRepair

end EdgeBase
