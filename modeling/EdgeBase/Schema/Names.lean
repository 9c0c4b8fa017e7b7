import Mathlib.Data.List.Nodup
import EdgeBase.Ddl

/-!
# The names of a database block

The generated names of tables, indexes and search tables share one namespace, and every statement
that creates is conditional on its name.

* `Schema.pairwise_statements_iff` : when no statement gets in the way of another.
-/

namespace EdgeBase

open List

namespace Schema

open Catalog (Taken Supplied Clean Proper)

structure Tables where
  entries : List (String × TableConfig)
  nodup : (entries.map Prod.fst).Nodup

structure AddedField where
  table : String
  name : String
  field : SchemaField

variable (fts5 : String → Option (List String)) (tables : Tables) (added : List AddedField)

/-- The statements for the tables, then those for the added fields. -/
def tableStatements : List DdlStatement :=
  tables.entries.flatMap fun e => (generateTableDDL e.1 e.2).map DdlStatement.read

def addedStatements : List DdlStatement :=
  added.flatMap fun a =>
    (generateSQLiteAddColumnDDLs a.table a.name a.field).map DdlStatement.read

def statements : List DdlStatement := tableStatements tables ++ addedStatements added

/-! ### What is declared -/

/-- The columns on which an object enforces uniqueness, with their table. -/
def uniqueOn : DdlStatement → List (String × List String)
  | .createTable table columns =>
    (columns.filter fun c => c.unique || c.primaryKey).map fun c => (fold table, [fold c.name])
  | .createIndex _ true table fields => [(fold table, fields.map fold)]
  | _ => []

/-- A unique index on exactly some columns of a table. -/
def IsUnique (catalog : List DdlStatement) (table : String) (fields : List String) : Prop :=
  ∃ s ∈ catalog, (fold table, fields.map fold) ∈ uniqueOn s

def HasIndex (catalog : List DdlStatement) (table : String) (fields : List String) : Prop :=
  ∃ name unique, .createIndex name unique (fold table) (fields.map fold) ∈ catalog

def declaredUnique (config : TableConfig) : List String :=
  (config.schema.getD []).filterMap fun f =>
    f.2.bind fun field => if field.unique then some f.1 else none

/-- On an empty database no statement fails, or is skipped because another object has its name, and
in the end every declared index, search table and uniqueness is there. -/
structure Enforced : Prop where
  clean : Clean (sqlite fts5) [] (statements tables added)
  declared : ∃ catalog, Catalog.run (sqlite fts5) [] (statements tables added) = some catalog ∧
    (∀ e ∈ tables.entries, (∀ name ∈ declaredUnique e.2, IsUnique catalog e.1 [name]) ∧
      (∀ index ∈ e.2.indexes, HasIndex catalog e.1 index.fields ∧
        (index.unique = true → IsUnique catalog e.1 index.fields)) ∧
      (e.2.fts ≠ [] → generateFTS5DDL e.1 e.2.fts ∈ catalog)) ∧
    ∀ a ∈ added, a.field.unique = true → IsUnique catalog a.table [a.name]

/-! ### Names -/

inductive Declared where
  | table (entry : String × TableConfig)
  /-- An index of a table, on fields, all as SQLite compares them. -/
  | index (table : String) (fields : List String) (unique : Bool)
  | search (entry : String × TableConfig)
  | uniqueField (table name : String)

def Declared.name : Declared → String
  | .table entry => fold entry.1
  | .index t fields _ => fold ("idx_" ++ t ++ "_" ++ "_".intercalate fields)
  | .search entry => fold (entry.1 ++ "_fts")
  | .uniqueField t name => fold ("uidx_" ++ t ++ "_" ++ name)

/-- All names that are taken; a search table has tables behind it. -/
def Declared.names (d : Declared) : List String :=
  d.name :: match d with
    | .search entry => shadowNames (entry.1 ++ "_fts")
    | _ => []

def declared : List Declared :=
  (tables.entries.flatMap fun e => .table e ::
    ((resolveTableIndexes e.2).map fun i => .index (fold e.1) (i.fields.map fold) i.unique) ++
      if e.2.fts = [] then [] else [.search e]) ++
  (added.filter (·.field.unique)).map fun a => .uniqueField (fold a.table) (fold a.name)

def columnNames (config : TableConfig) : List String :=
  (buildEffectiveSchema config.schema).map fun f => fold f.1

/-- A field is unique by itself, by an index, or when it is added. -/
def uniqueFields (e : String × TableConfig) : List (List String) :=
  ((buildEffectiveSchema e.2.schema).filter fun f => f.2.unique || f.2.primaryKey).map
    (fun f => [fold f.1]) ++
  ((resolveTableIndexes e.2).filter (·.unique)).map (fun i => i.fields.map fold) ++
  (added.filter fun a => a.field.unique && fold a.table == fold e.1).map fun a => [fold a.name]

/-- The declared names are different, and the declarations are about what there is. -/
structure WellNamed : Prop where
  /-- Different things have no name in common. -/
  names : ∀ d ∈ declared tables added, ∀ d' ∈ declared tables added,
    d = d' ∨ ∀ n ∈ d.names, n ∉ d'.names
  /-- No name is one that SQLite keeps for itself. -/
  reserved : ∀ d ∈ declared tables added, isReserved d.name = false
  /-- The columns of a table are different; there is one, and at most one primary key. -/
  columns : ∀ e ∈ tables.entries, (columnNames e.2).Nodup ∧ columnNames e.2 ≠ [] ∧
    ((buildEffectiveSchema e.2.schema).filter fun f => f.2.primaryKey).length ≤ 1
  indexes : ∀ e ∈ tables.entries, ∀ i ∈ resolveTableIndexes e.2,
    i.fields ≠ [] ∧ ∀ f ∈ i.fields, fold f ∈ columnNames e.2
  /-- The search module takes the fields, and no trigger has a name that SQLite keeps. -/
  search : ∀ e ∈ tables.entries, e.2.fts ≠ [] → (fts5 (ftsArguments e.1 e.2.fts)).isSome ∧
    ∀ suffix ∈ ["_ai", "_ad", "_au"], isReserved (e.1 ++ suffix) = false
  unique : ∀ e ∈ tables.entries, ∀ name ∈ declaredUnique e.2, [fold name] ∈ uniqueFields added e
  new : ∀ a ∈ added, (∃ e ∈ tables.entries, fold e.1 = fold a.table) ∧
    ∀ e ∈ tables.entries, fold e.1 = fold a.table → fold a.name ∉ columnNames e.2
  once : (added.map fun a => (fold a.table, fold a.name)).Nodup

/-! ### Names as SQLite compares them -/

theorem fold_append (s t : String) : fold (s ++ t) = fold s ++ fold t := by
  simp [fold]

theorem toLower_toLower (c : Char) : c.toLower.toLower = c.toLower := by
  by_cases h : c.val ≥ 'A'.val ∧ c.val ≤ 'Z'.val
  · have hval : c.toLower.val = c.val + ('a'.val - 'A'.val) := by
      delta Char.toLower
      rw [dif_pos h]
    have hnot : ¬(c.toLower.val ≥ 'A'.val ∧ c.toLower.val ≤ 'Z'.val) := by
      rw [hval]
      obtain ⟨hlow, hhigh⟩ := h
      simp only [ge_iff_le, UInt32.le_iff_toNat_le] at hlow hhigh ⊢
      simp at *
      omega
    exact dif_neg hnot
  · have hc : c.toLower = c := dif_neg h
    rw [hc, hc]

@[simp] theorem fold_fold (s : String) : fold (fold s) = fold s := by
  simp [fold, Function.comp_def, toLower_toLower]

theorem fold_intercalate (separator : String) (names : List String) :
    fold (separator.intercalate names) = (fold separator).intercalate (names.map fold) := by
  induction names with
  | nil => rfl
  | cons name names ih =>
    cases names with
    | nil => simp [String.intercalate_singleton]
    | cons other names =>
      rw [map_cons, map_cons, String.intercalate_cons_cons, String.intercalate_cons_cons,
        fold_append, fold_append, ih]
      rfl

theorem fold_suffix_inj {s t u v : String} (hlength : u.toList.length = v.toList.length)
    (h : fold (s ++ u) = fold (t ++ v)) : fold s = fold t ∧ fold u = fold v := by
  rw [fold_append, fold_append] at h
  have hlist := congrArg String.toList h
  rw [String.toList_append, String.toList_append] at hlist
  obtain ⟨hs, hu⟩ := append_inj' hlist (by simpa [fold] using hlength)
  exact ⟨String.toList_inj.1 hs, String.toList_inj.1 hu⟩

/-! ### The keys of the statements -/

variable {fts5 tables added}

@[simp] theorem keys_createTable (table : String) (columns : List Column) :
    (sqlite fts5).keys (.createTable table columns) = .relation (fold table) ::
      .table (fold table) :: columns.map fun c => .column (fold table) (fold c.name) := rfl

@[simp] theorem keys_addColumn (table : String) (column : Column) :
    (sqlite fts5).keys (.addColumn table column) = [.column (fold table) (fold column.name)] := rfl

@[simp] theorem keys_createIndex (name : String) (unique : Bool) (table : String)
    (fields : List String) :
    (sqlite fts5).keys (.createIndex name unique table fields) = [.relation (fold name)] := rfl

@[simp] theorem keys_createFTS5 (name arguments : String) :
    (sqlite fts5).keys (.createFTS5 name arguments) =
      .relation (fold name) :: (shadowNames name).map .relation := rfl

@[simp] theorem keys_createTrigger (name table : String) :
    (sqlite fts5).keys (.createTrigger name table) = [.trigger (fold name)] := rfl

def Declared.statement : Declared → DdlStatement
  | .table e => generateCreateTableDDL e.1 e.2
  | .index t fields unique =>
    .createIndex ("idx_" ++ t ++ "_" ++ "_".intercalate fields) unique t fields
  | .search e => generateFTS5DDL e.1 e.2.fts
  | .uniqueField t name => .createIndex ("uidx_" ++ t ++ "_" ++ name) true t [name]

def triggerStatement (table suffix : String) : DdlStatement := .createTrigger (table ++ suffix) table

def addedColumn (a : AddedField) : DdlStatement :=
  generateAddColumnDDL a.table a.name (normalizeSQLiteAddColumnField a.field)

theorem read_generateIndexDDL (table : String) (indexes : List IndexConfig) :
    (generateIndexDDL table indexes).map DdlStatement.read = indexes.map fun i =>
      (Declared.index (fold table) (i.fields.map fold) i.unique).statement := by
  rw [generateIndexDDL, map_map]
  apply map_congr_left
  intro i _
  show DdlStatement.createIndex _ _ _ _ = _
  rw [fold_append, fold_append, fold_append, fold_intercalate]
  rfl

theorem read_generateTableDDL (e : String × TableConfig) :
    (generateTableDDL e.1 e.2).map DdlStatement.read = (Declared.table e).statement ::
      ((resolveTableIndexes e.2).map fun i =>
        (Declared.index (fold e.1) (i.fields.map fold) i.unique).statement) ++
      if e.2.fts = [] then [] else
        (Declared.search e).statement :: ["_ai", "_ad", "_au"].map (triggerStatement e.1) := by
  rw [generateTableDDL, map_append, map_cons, read_generateIndexDDL]
  split <;> rfl

theorem read_generateSQLiteAddColumnDDLs (a : AddedField) :
    (generateSQLiteAddColumnDDLs a.table a.name a.field).map DdlStatement.read =
      addedColumn a :: if a.field.unique then
        [(Declared.uniqueField (fold a.table) (fold a.name)).statement] else [] := by
  rw [generateSQLiteAddColumnDDLs, map_cons]
  split
  · simp only [map_cons, map_nil, DdlStatement.read, fold_append]
    rfl
  · rfl

/-! ### Statements and declarations -/

theorem mem_declared {d : Declared} : d ∈ declared tables added ↔
    (∃ e ∈ tables.entries, d = .table e ∨
      (∃ i ∈ resolveTableIndexes e.2, d = .index (fold e.1) (i.fields.map fold) i.unique) ∨
      (e.2.fts ≠ [] ∧ d = .search e)) ∨
    ∃ a ∈ added, a.field.unique = true ∧ d = .uniqueField (fold a.table) (fold a.name) := by
  have hsearch : ∀ e : String × TableConfig,
      d ∈ (if e.2.fts = [] then [] else [Declared.search e]) ↔ e.2.fts ≠ [] ∧ d = .search e := by
    intro e
    split_ifs with h <;> simp [h]
  simp only [declared, mem_append, mem_flatMap, mem_cons, mem_map,
    mem_filter, hsearch, eq_comm (a := d), or_assoc, and_assoc]

theorem mem_statements {s : DdlStatement} : s ∈ statements tables added ↔
    (∃ d ∈ declared tables added, s = d.statement) ∨
    (∃ e ∈ tables.entries, e.2.fts ≠ [] ∧ ∃ suffix ∈ ["_ai", "_ad", "_au"],
      s = triggerStatement e.1 suffix) ∨
    ∃ a ∈ added, s = addedColumn a := by
  simp only [mem_declared, statements, tableStatements, addedStatements, mem_append,
    mem_flatMap, read_generateTableDDL, read_generateSQLiteAddColumnDDLs]
  constructor
  · rintro (⟨e, he, hs⟩ | ⟨a, ha, hs⟩)
    · simp only [mem_cons, mem_map] at hs
      rcases hs with (rfl | ⟨i, hi, rfl⟩) | hs
      · exact .inl ⟨_, .inl ⟨e, he, .inl rfl⟩, rfl⟩
      · exact .inl ⟨_, .inl ⟨e, he, .inr (.inl ⟨i, hi, rfl⟩)⟩, rfl⟩
      · split_ifs at hs with hfts
        · simp at hs
        · rcases mem_cons.1 hs with rfl | hs
          · exact .inl ⟨_, .inl ⟨e, he, .inr (.inr ⟨hfts, rfl⟩)⟩, rfl⟩
          · obtain ⟨suffix, hsuffix, rfl⟩ := mem_map.1 hs
            exact .inr (.inl ⟨e, he, hfts, suffix, hsuffix, rfl⟩)
    · rcases mem_cons.1 hs with rfl | hs
      · exact .inr (.inr ⟨a, ha, rfl⟩)
      · split_ifs at hs with hunique
        · exact .inl ⟨_, .inr ⟨a, ha, hunique, rfl⟩, mem_singleton.1 hs⟩
        · simp at hs
  · rintro (⟨d, (⟨e, he, hd⟩ | ⟨a, ha, hunique, rfl⟩), rfl⟩ | ⟨e, he, hfts, suffix, hsuffix, rfl⟩ |
      ⟨a, ha, rfl⟩)
    · refine .inl ⟨e, he, ?_⟩
      rcases hd with rfl | ⟨i, hi, rfl⟩ | ⟨hfts, rfl⟩
      · simp
      · exact .inl (mem_cons_of_mem _ (mem_map.2 ⟨i, hi, rfl⟩))
      · simp [hfts]
    · exact .inr ⟨a, ha, by simp [hunique]⟩
    · refine .inl ⟨e, he, .inr ?_⟩
      rw [if_neg hfts]
      exact mem_cons_of_mem _ (mem_map.2 ⟨suffix, hsuffix, rfl⟩)
    · exact .inr ⟨a, ha, mem_cons_self⟩

/-- The relation, or the table of the columns, for which a key stands. -/
def owner : Key → String
  | .relation name | .table name | .column name _ | .trigger name => name

theorem relation_mem_keys {d : Declared} {n : String} :
    .relation n ∈ (sqlite fts5).keys d.statement ↔ n ∈ d.names := by
  cases d <;> simp [Declared.statement, Declared.names, Declared.name, generateCreateTableDDL,
    generateFTS5DDL]

theorem owner_mem_names {d : Declared} {k : Key} (h : k ∈ (sqlite fts5).keys d.statement) :
    owner k ∈ d.names := by
  cases d with
  | table e =>
    simp only [Declared.statement, generateCreateTableDDL, keys_createTable, mem_cons,
      mem_map] at h
    rcases h with rfl | rfl | ⟨c, -, rfl⟩ <;> exact mem_cons_self
  | index t fields unique =>
    obtain rfl := mem_singleton.1 h
    exact mem_cons_self
  | search e =>
    simp only [Declared.statement, generateFTS5DDL, keys_createFTS5, mem_cons,
      mem_map] at h
    rcases h with rfl | ⟨n, hn, rfl⟩
    · exact mem_cons_self
    · exact mem_cons_of_mem _ hn
  | uniqueField t name =>
    obtain rfl := mem_singleton.1 h
    exact mem_cons_self

theorem apart_iff {d d' : Declared} :
    (∀ k ∈ (sqlite fts5).keys d.statement, k ∉ (sqlite fts5).keys d'.statement) ↔
      ∀ n ∈ d.names, n ∉ d'.names := by
  constructor
  · intro h n hn hn'
    exact h _ (relation_mem_keys.2 hn) (relation_mem_keys.2 hn')
  · intro h k hk hk'
    exact h _ (owner_mem_names hk) (owner_mem_names hk')

theorem Tables.eq_of_name {e e' : String × TableConfig} (he : e ∈ tables.entries)
    (he' : e' ∈ tables.entries) (h : e.1 = e'.1) : e = e' :=
  inj_on_of_nodup_map tables.nodup he he' h

theorem table_mem_declared {e : String × TableConfig} (h : .table e ∈ declared tables added) :
    e ∈ tables.entries := by
  rcases mem_declared.1 h with ⟨e', he', hd⟩ | ⟨a, -, -, hd⟩
  · rcases hd with hd | ⟨i, -, hd⟩ | ⟨-, hd⟩
    · cases hd
      exact he'
    · cases hd
    · cases hd
  · cases hd

theorem search_mem_declared {e : String × TableConfig} (h : .search e ∈ declared tables added) :
    e ∈ tables.entries := by
  rcases mem_declared.1 h with ⟨e', he', hd⟩ | ⟨a, -, -, hd⟩
  · rcases hd with hd | ⟨i, -, hd⟩ | ⟨-, hd⟩
    · cases hd
    · cases hd
    · cases hd
      exact he'
  · cases hd

theorem index_ne_unique (s t : String) : "idx_" ++ s ≠ "uidx_" ++ t := by
  intro h
  have hlist := congrArg String.toList h
  simp at hlist

theorem statement_inj {d d' : Declared} (hd : d ∈ declared tables added)
    (hd' : d' ∈ declared tables added) (h : d.statement = d'.statement) : d = d' := by
  cases d <;> cases d' <;>
    simp only [Declared.statement, generateCreateTableDDL, generateFTS5DDL, reduceCtorEq,
      DdlStatement.createTable.injEq, DdlStatement.createIndex.injEq,
      DdlStatement.createFTS5.injEq, String.append_assoc] at h
  case table.table e e' =>
    rw [Tables.eq_of_name (table_mem_declared hd) (table_mem_declared hd') h.1]
  case index.index t fields unique t' fields' unique' =>
    obtain ⟨-, rfl, rfl, rfl⟩ := h
    rfl
  case index.uniqueField => exact absurd h.1 (index_ne_unique _ _)
  case search.search e e' =>
    have hname : e.1 = e'.1 := (String.append_left_inj _).1 h.1
    rw [Tables.eq_of_name (search_mem_declared hd) (search_mem_declared hd') hname]
  case uniqueField.index => exact absurd h.1.symm (index_ne_unique _ _)
  case uniqueField.uniqueField t name t' name' =>
    obtain ⟨-, -, rfl, hfields⟩ := h
    rw [(List.cons.inj hfields).1]

/-! ### Statements side by side -/

/-- Two statements are the same, or have no key in common. -/
def Apart (fts5 : String → Option (List String)) (s t : DdlStatement) : Prop :=
  s = t ∨ ∀ k ∈ (sqlite fts5).keys s, k ∉ (sqlite fts5).keys t

theorem Apart.symm {s t : DdlStatement} (h : Apart fts5 s t) : Apart fts5 t s := by
  rcases h with rfl | h
  · exact .inl rfl
  · exact .inr fun k hk hk' => h k hk' hk

def AddedField.key (a : AddedField) : Key := .column (fold a.table) (fold a.name)

@[simp] theorem keys_addedColumn (a : AddedField) :
    (sqlite fts5).keys (addedColumn a) = [a.key] := rfl

theorem column_mem_keys {d : Declared} {t c : String} :
    .column t c ∈ (sqlite fts5).keys d.statement ↔
      ∃ e, d = .table e ∧ fold e.1 = t ∧ c ∈ columnNames e.2 := by
  cases d with
  | table e =>
    simp [Declared.statement, generateCreateTableDDL, columnNames, buildColumnDef, and_left_comm]
  | _ => simp [Declared.statement, generateFTS5DDL]

theorem trigger_notMem_keys {d : Declared} {n : String} :
    .trigger n ∉ (sqlite fts5).keys d.statement := by
  cases d <;> simp [Declared.statement, generateCreateTableDDL, generateFTS5DDL]

theorem apart_triggers (hnames : ∀ d ∈ declared tables added, ∀ d' ∈ declared tables added,
      d = d' ∨ ∀ n ∈ d.names, n ∉ d'.names) {e e' : String × TableConfig}
    (he : e ∈ tables.entries) (he' : e' ∈ tables.entries) {suffix suffix' : String}
    (hsuffix : suffix ∈ ["_ai", "_ad", "_au"]) (hsuffix' : suffix' ∈ ["_ai", "_ad", "_au"]) :
    Apart fts5 (triggerStatement e.1 suffix) (triggerStatement e'.1 suffix') := by
  by_cases h : fold (e.1 ++ suffix) = fold (e'.1 ++ suffix')
  · -- the suffixes have the same length, so they are the same, and so are the tables
    have hlength : ∀ s ∈ ["_ai", "_ad", "_au"], s.toList.length = 3 := by decide
    obtain ⟨htable, hend⟩ := fold_suffix_inj
      ((hlength _ hsuffix).trans (hlength _ hsuffix').symm) h
    have hsame : suffix = suffix' := by
      have hinj : ∀ s ∈ ["_ai", "_ad", "_au"], ∀ t ∈ ["_ai", "_ad", "_au"], fold s = fold t → s = t := by
        decide
      exact hinj _ hsuffix _ hsuffix' hend
    have hdeclared : Declared.table e = Declared.table e' := by
      refine (hnames _ (mem_declared.2 (.inl ⟨e, he, .inl rfl⟩)) _
        (mem_declared.2 (.inl ⟨e', he', .inl rfl⟩))).resolve_right ?_
      intro hdisjoint
      refine hdisjoint _ mem_cons_self ?_
      show fold e.1 ∈ _
      rw [htable]
      exact mem_cons_self
    cases hdeclared
    rw [hsame]
    exact .inl rfl
  · refine .inr ?_
    simpa [triggerStatement] using h

/-- The statements of a block do not get in each other's way when the declared names are different
and the added fields are new. -/
theorem apart_statements_iff :
    (∀ s ∈ statements tables added, ∀ t ∈ statements tables added, Apart fts5 s t) ↔
      (∀ d ∈ declared tables added, ∀ d' ∈ declared tables added,
        d = d' ∨ ∀ n ∈ d.names, n ∉ d'.names) ∧
      (∀ a ∈ added, ∀ e ∈ tables.entries, fold e.1 = fold a.table → fold a.name ∉ columnNames e.2) ∧
      ∀ a ∈ added, ∀ b ∈ added, a.key = b.key → addedColumn a = addedColumn b := by
  constructor
  · intro h
    refine ⟨?_, ?_, ?_⟩
    · intro d hd d' hd'
      rcases h _ (mem_statements.2 (.inl ⟨d, hd, rfl⟩)) _
        (mem_statements.2 (.inl ⟨d', hd', rfl⟩)) with heq | hapart
      · exact .inl (statement_inj hd hd' heq)
      · exact .inr (apart_iff.1 hapart)
    · intro a ha e he htable hcolumn
      have hmem : Declared.table e ∈ declared tables added :=
        mem_declared.2 (.inl ⟨e, he, .inl rfl⟩)
      rcases h _ (mem_statements.2 (.inr (.inr ⟨a, ha, rfl⟩))) _
        (mem_statements.2 (.inl ⟨_, hmem, rfl⟩)) with heq | hapart
      · cases heq
      · exact hapart a.key mem_cons_self (column_mem_keys.2 ⟨e, rfl, htable, hcolumn⟩)
    · intro a ha b hb hkey
      rcases h _ (mem_statements.2 (.inr (.inr ⟨a, ha, rfl⟩))) _
        (mem_statements.2 (.inr (.inr ⟨b, hb, rfl⟩))) with heq | hapart
      · exact heq
      · exact absurd (mem_singleton.2 hkey) (hapart a.key mem_cons_self)
  · rintro ⟨hnames, hnew, honce⟩
    have htrigger : ∀ d : Declared, ∀ table suffix : String,
        Apart fts5 d.statement (triggerStatement table suffix) := by
      intro d table suffix
      refine .inr ?_
      intro k hk htrigger
      obtain rfl := mem_singleton.1 htrigger
      exact trigger_notMem_keys hk
    have hcolumn : ∀ d ∈ declared tables added, ∀ a ∈ added,
        Apart fts5 d.statement (addedColumn a) := by
      intro d hd a ha
      refine .inr ?_
      intro k hk hadded
      obtain rfl := mem_singleton.1 hadded
      obtain ⟨e, rfl, htable, hname⟩ := column_mem_keys.1 hk
      exact hnew a ha e (table_mem_declared hd) htable hname
    have hboth : ∀ table suffix : String, ∀ a : AddedField,
        Apart fts5 (triggerStatement table suffix) (addedColumn a) := by
      intro table suffix a
      refine .inr ?_
      simp [triggerStatement, AddedField.key]
    intro s hs t ht
    rw [mem_statements] at hs ht
    rcases hs with ⟨d, hd, rfl⟩ | ⟨e, he, -, suffix, hsuffix, rfl⟩ | ⟨a, ha, rfl⟩ <;>
      rcases ht with ⟨d', hd', rfl⟩ | ⟨e', he', -, suffix', hsuffix', rfl⟩ | ⟨b, hb, rfl⟩
    · rcases hnames d hd d' hd' with rfl | h
      · exact .inl rfl
      · exact .inr (apart_iff.2 h)
    · exact htrigger d e'.1 suffix'
    · exact hcolumn d hd b hb
    · exact (htrigger d' e.1 suffix).symm
    · exact apart_triggers hnames he he' hsuffix hsuffix'
    · exact hboth e.1 suffix b
    · exact (hcolumn d' hd' a ha).symm
    · exact (hboth e'.1 suffix' a).symm
    · by_cases hkey : a.key = b.key
      · exact .inl (honce a ha b hb hkey)
      · refine .inr ?_
        simpa using hkey

theorem filter_not_skips : (statements tables added).filter
    (fun s => !(sqlite fts5).skips s s) = added.map addedColumn := by
  have htables : (tableStatements tables).filter (fun s => !(sqlite fts5).skips s s) = [] := by
    rw [filter_eq_nil_iff]
    intro s hs
    obtain ⟨e, -, hs⟩ := mem_flatMap.1 hs
    rw [read_generateTableDDL] at hs
    simp only [mem_append, mem_cons, mem_map] at hs
    rcases hs with (rfl | ⟨i, -, rfl⟩) | hs
    · simp [Declared.statement, generateCreateTableDDL, sqlite]
    · simp [Declared.statement, sqlite]
    · split_ifs at hs
      · simp at hs
      · rcases mem_cons.1 hs with rfl | hs
        · simp [Declared.statement, generateFTS5DDL, sqlite]
        · obtain ⟨suffix, -, rfl⟩ := mem_map.1 hs
          simp [triggerStatement, sqlite]
  have hadded : (addedStatements added).filter (fun s => !(sqlite fts5).skips s s) =
      added.map addedColumn := by
    rw [addedStatements]
    induction added with
    | nil => rfl
    | cons a added ih =>
      rw [flatMap_cons, filter_append, ih, read_generateSQLiteAddColumnDDLs, map_cons]
      split_ifs <;> rfl
  rw [statements, filter_append, htables, hadded, nil_append]

/-- **Names.**  The statements of a block can be executed side by side exactly when the declared
names are different and the added fields are new. -/
theorem pairwise_statements_iff :
    (statements tables added).Pairwise (Catalog.Compatible (sqlite fts5)) ↔
      (∀ d ∈ declared tables added, ∀ d' ∈ declared tables added,
        d = d' ∨ ∀ n ∈ d.names, n ∉ d'.names) ∧
      (∀ a ∈ added, ∀ e ∈ tables.entries, fold e.1 = fold a.table → fold a.name ∉ columnNames e.2) ∧
      (added.map fun a => (fold a.table, fold a.name)).Nodup := by
  rw [Catalog.pairwise_compatible_iff, filter_not_skips]
  have hkeys : (added.map fun a => (fold a.table, fold a.name)).Nodup ↔
      (added.map addedColumn).Nodup ∧
        ∀ a ∈ added, ∀ b ∈ added, a.key = b.key → addedColumn a = addedColumn b := by
    have hmain : (added.map fun a => (fold a.table, fold a.name)).Nodup ↔
        ((added.map addedColumn).map (sqlite fts5).main).Nodup := by
      have hmap : (added.map addedColumn).map (sqlite fts5).main =
          (added.map fun a => (fold a.table, fold a.name)).map fun p => Key.column p.1 p.2 := by
        simp only [map_map]
        rfl
      rw [hmap]
      refine (nodup_map_iff ?_).symm
      rintro ⟨t, n⟩ ⟨t', n'⟩ h
      cases h
      rfl
    rw [hmain]
    constructor
    · intro h
      refine ⟨h.of_map, ?_⟩
      intro a ha b hb hkey
      exact inj_on_of_nodup_map h (mem_map_of_mem ha) (mem_map_of_mem hb) hkey
    · rintro ⟨hnodup, hinj⟩
      rw [nodup_map_iff_inj_on hnodup]
      intro s hs t ht hkey
      obtain ⟨a, ha, rfl⟩ := mem_map.1 hs
      obtain ⟨b, hb, rfl⟩ := mem_map.1 ht
      exact hinj a ha b hb hkey
  have hapart := @apart_statements_iff fts5 tables added
  unfold Apart at hapart
  rw [hapart, hkeys]
  constructor
  · rintro ⟨⟨hnames, hnew, honce⟩, hnodup⟩
    exact ⟨hnames, hnew, hnodup, honce⟩
  · rintro ⟨hnames, hnew, hnodup, honce⟩
    exact ⟨⟨hnames, hnew, honce⟩, hnodup⟩

end Schema

end EdgeBase
