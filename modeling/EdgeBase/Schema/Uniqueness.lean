import EdgeBase.Schema.Names

/-!
# The uniqueness that a database block declares

What the statements of a block need, and what they leave behind.

* `Schema.supplied_tableStatements_iff`, `Schema.supplied_addedStatements_iff` : when the statements
  find what they need.
* `Schema.isUnique_iff` : the uniqueness that the objects enforce, by the configuration.
* `Schema.enforced_iff` : every declared index and every declared uniqueness is there exactly when
  the block is well named.
-/

namespace EdgeBase

open List Catalog

namespace Schema

open Catalog (Taken Supplied Clean Proper)

variable {fts5 : String → Option (List String)} {tables : Tables} {added : List AddedField}

/-! ### Statements that SQLite can execute -/

theorem proper_createIndex_iff (name : String) (unique : Bool) (table : String)
    (fields : List String) : Proper (sqlite fts5) (.createIndex name unique table fields) ↔
      isReserved name = false ∧ fields ≠ [] := by
  have hwell : (sqlite fts5).wellFormed (.createIndex name unique table fields) =
      (!isReserved name && decide (fields ≠ [])) := by
    simp only [sqlite]
  rw [Proper, hwell, Bool.and_eq_true, Bool.not_eq_true', decide_eq_true_eq]
  exact and_iff_left (nodup_singleton _)

theorem proper_statement_iff (d : Declared) : Proper (sqlite fts5) d.statement ↔
    isReserved d.name = false ∧
    match d with
    | .table e => (columnNames e.2).Nodup ∧ columnNames e.2 ≠ [] ∧
        ((buildEffectiveSchema e.2.schema).filter fun f => f.2.primaryKey).length ≤ 1
    | .index _ fields _ => fields ≠ []
    | .search e => (fts5 (ftsArguments e.1 e.2.fts)).isSome = true
    | .uniqueField _ _ => True := by
  have hfold : ∀ s, isReserved (fold s) = isReserved s := by
    intro s
    rw [isReserved, isReserved, fold_fold]
  cases d with
  | table e =>
    have hcolumns : ((buildEffectiveSchema e.2.schema).map fun f => buildColumnDef f.1 f.2).map
        (fun c => Key.column (fold e.1) (fold c.name)) = (columnNames e.2).map (.column (fold e.1)) := by
      simp [columnNames, buildColumnDef]
    have hkeys : ((sqlite fts5).keys (Declared.table e).statement).Nodup ↔
        (columnNames e.2).Nodup := by
      simp only [Declared.statement, generateCreateTableDDL, keys_createTable, hcolumns]
      rw [nodup_cons, nodup_cons, nodup_map_iff (by intro a b h; cases h; rfl)]
      simp
    have hcount : (((buildEffectiveSchema e.2.schema).map fun f => buildColumnDef f.1 f.2).filter
        (·.primaryKey)).length =
        ((buildEffectiveSchema e.2.schema).filter fun f => f.2.primaryKey).length := by
      rw [filter_map, length_map]
      rfl
    have hnil : columnNames e.2 ≠ [] ↔ buildEffectiveSchema e.2.schema ≠ [] := by
      simp [columnNames]
    have hwell : (sqlite fts5).wellFormed (Declared.table e).statement = true ↔
        isReserved (Declared.table e).name = false ∧ columnNames e.2 ≠ [] ∧
        ((buildEffectiveSchema e.2.schema).filter fun f => f.2.primaryKey).length ≤ 1 := by
      rw [hnil, ← hcount]
      simp [Declared.statement, Declared.name, generateCreateTableDDL, sqlite, hfold, and_assoc]
    rw [Proper, hkeys, hwell]
    constructor
    · rintro ⟨⟨hreserved, hcolumn, hprimary⟩, hnodup⟩
      exact ⟨hreserved, hnodup, hcolumn, hprimary⟩
    · rintro ⟨hreserved, hnodup, hcolumn, hprimary⟩
      exact ⟨⟨hreserved, hcolumn, hprimary⟩, hnodup⟩
  | index t fields unique =>
    rw [Declared.statement, proper_createIndex_iff, Declared.name, hfold]
  | search e =>
    have hsuffixes : (fold (e.1 ++ "_fts") :: shadowNames (e.1 ++ "_fts")).Nodup := by
      have hmap : fold (e.1 ++ "_fts") :: shadowNames (e.1 ++ "_fts") =
          ["", "_data", "_idx", "_docsize", "_config"].map (fold (e.1 ++ "_fts") ++ ·) := by
        simp [shadowNames]
      rw [hmap]
      refine List.Nodup.map ?_ (by decide)
      intro s t h
      exact (String.append_right_inj _).1 h
    have hkeys : ((sqlite fts5).keys (Declared.search e).statement).Nodup := by
      have hmap : (sqlite fts5).keys (Declared.search e).statement =
          (fold (e.1 ++ "_fts") :: shadowNames (e.1 ++ "_fts")).map .relation := rfl
      rw [hmap]
      refine hsuffixes.map ?_
      intro s t h
      cases h
      rfl
    have hwell : (sqlite fts5).wellFormed (Declared.search e).statement =
        (!isReserved (e.1 ++ "_fts") && (fts5 (ftsArguments e.1 e.2.fts)).isSome) := by
      simp only [Declared.statement, generateFTS5DDL, sqlite]
    rw [Proper, hwell, Declared.name, hfold, Bool.and_eq_true, Bool.not_eq_true']
    exact and_iff_left hkeys
  | uniqueField t name =>
    rw [Declared.statement, proper_createIndex_iff, Declared.name, hfold]
    simp

theorem proper_trigger_iff (table suffix : String) :
    Proper (sqlite fts5) (triggerStatement table suffix) ↔ isReserved (table ++ suffix) = false := by
  simp [Proper, triggerStatement, sqlite, Catalog.Language.keys]

theorem proper_addedColumn (a : AddedField) : Proper (sqlite fts5) (addedColumn a) := by
  simp [Proper, addedColumn, generateAddColumnDDL, buildColumnDef, normalizeSQLiteAddColumnField,
    sqlite, Catalog.Language.keys]

/-! ### What the statements need -/

/-- The statements of one table, after SQLite has read them. -/
def tableOf (e : String × TableConfig) : List DdlStatement :=
  (generateTableDDL e.1 e.2).map DdlStatement.read

/-- The indexes and the search table of a table, without the table. -/
def restOf (e : String × TableConfig) : List DdlStatement :=
  ((resolveTableIndexes e.2).map fun i =>
    (Declared.index (fold e.1) (i.fields.map fold) i.unique).statement) ++
  if e.2.fts = [] then [] else
    (Declared.search e).statement :: ["_ai", "_ad", "_au"].map (triggerStatement e.1)

theorem tableOf_eq (e : String × TableConfig) :
    tableOf e = (Declared.table e).statement :: restOf e := read_generateTableDDL e

variable {e : String × TableConfig}

theorem mem_restOf {s : DdlStatement} : s ∈ restOf e ↔
    (∃ i ∈ resolveTableIndexes e.2,
      s = (Declared.index (fold e.1) (i.fields.map fold) i.unique).statement) ∨
    (e.2.fts ≠ [] ∧ (s = (Declared.search e).statement ∨
      ∃ suffix ∈ ["_ai", "_ad", "_au"], s = triggerStatement e.1 suffix)) := by
  have hsearch : s ∈ (if e.2.fts = [] then [] else
      (Declared.search e).statement :: ["_ai", "_ad", "_au"].map (triggerStatement e.1)) ↔
      e.2.fts ≠ [] ∧ (s = (Declared.search e).statement ∨
        ∃ suffix ∈ ["_ai", "_ad", "_au"], s = triggerStatement e.1 suffix) := by
    split_ifs with h
    · simp [h]
    · rw [mem_cons, mem_map]
      simp only [ne_eq, h, not_false_eq_true, true_and, eq_comm (a := s)]
  rw [restOf, mem_append, hsearch, mem_map]
  simp only [eq_comm (a := s)]

/-- A table and its columns are taken by `CREATE TABLE` and by `ALTER TABLE` only. -/
theorem restOf_independent {s : DdlStatement} (hs : s ∈ restOf e)
    {k : Key} (hk : k ∈ (sqlite fts5).keys s) : (∃ n, k = .relation n) ∨ ∃ n, k = .trigger n := by
  rcases mem_restOf.1 hs with ⟨i, -, rfl⟩ | ⟨-, rfl | ⟨suffix, -, rfl⟩⟩
  · exact .inl ⟨_, mem_singleton.1 hk⟩
  · simp only [Declared.statement, generateFTS5DDL, keys_createFTS5, mem_cons,
      mem_map] at hk
    rcases hk with rfl | ⟨n, -, rfl⟩
    · exact .inl ⟨_, rfl⟩
    · exact .inl ⟨n, rfl⟩
  · exact .inr ⟨_, mem_singleton.1 hk⟩

theorem needs_restOf {k : Key} : (∃ s ∈ restOf e, k ∈ (sqlite fts5).needs s) ↔
      (∃ i ∈ resolveTableIndexes e.2, ∃ f ∈ i.fields, k = .column (fold e.1) (fold f)) ∨
      (e.2.fts ≠ [] ∧ k = .table (fold e.1)) := by
  have hindex : ∀ i : IndexConfig, (sqlite fts5).needs
      (Declared.index (fold e.1) (i.fields.map fold) i.unique).statement =
        i.fields.map fun f => .column (fold e.1) (fold f) := by
    intro i
    show (i.fields.map fold).map (fun f => Key.column (fold (fold e.1)) (fold f)) = _
    rw [map_map, fold_fold]
    apply map_congr_left
    intro f _
    show Key.column (fold e.1) (fold (fold f)) = _
    rw [fold_fold]
  have htrigger : ∀ suffix, (sqlite fts5).needs (triggerStatement e.1 suffix) =
      [.table (fold e.1)] := fun _ => rfl
  have hsearch : (sqlite fts5).needs (Declared.search e).statement = [] := rfl
  constructor
  · rintro ⟨s, hs, hk⟩
    rcases mem_restOf.1 hs with ⟨i, hi, rfl⟩ | ⟨hfts, rfl | ⟨suffix, -, rfl⟩⟩
    · rw [hindex] at hk
      obtain ⟨f, hf, rfl⟩ := mem_map.1 hk
      exact .inl ⟨i, hi, f, hf, rfl⟩
    · rw [hsearch] at hk
      simp at hk
    · rw [htrigger] at hk
      exact .inr ⟨hfts, mem_singleton.1 hk⟩
  · rintro (⟨i, hi, f, hf, rfl⟩ | ⟨hfts, rfl⟩)
    · refine ⟨_, mem_restOf.2 (.inl ⟨i, hi, rfl⟩), ?_⟩
      rw [hindex]
      exact mem_map.2 ⟨f, hf, rfl⟩
    · refine ⟨_, mem_restOf.2 (.inr ⟨hfts, .inr ⟨"_ai", by simp, rfl⟩⟩), ?_⟩
      rw [htrigger]
      exact mem_singleton_self _

theorem taken_column_iff (hnames : ∀ d ∈ declared tables [], ∀ d' ∈ declared tables [],
      d = d' ∨ ∀ n ∈ d.names, n ∉ d'.names) {e : String × TableConfig} (he : e ∈ tables.entries)
    {before : List DdlStatement} (hbefore : before ⊆ tableStatements tables)
    (hmem : (Declared.table e).statement ∈ before) (c : String) :
    Taken (sqlite fts5) before (.column (fold e.1) c) ↔ c ∈ columnNames e.2 := by
  have htable : Declared.table e ∈ declared tables [] := mem_declared.2 (.inl ⟨e, he, .inl rfl⟩)
  constructor
  · rintro ⟨s, hs, hk⟩
    have hstatement : s ∈ statements tables [] := by
      rw [statements]
      exact mem_append_left _ (hbefore hs)
    rcases mem_statements.1 hstatement with ⟨d, hd, rfl⟩ | ⟨e', -, -, suffix, -, rfl⟩ | ⟨a, ha, -⟩
    · obtain ⟨e', rfl, hname, hc⟩ := column_mem_keys.1 hk
      -- the table that has the column has the name of `e`, and so it is `e`
      have hsame : Declared.table e' = Declared.table e := by
        refine (hnames _ hd _ htable).resolve_right ?_
        intro hdisjoint
        refine hdisjoint _ mem_cons_self ?_
        show fold e'.1 ∈ _
        rw [hname]
        exact mem_cons_self
      cases hsame
      exact hc
    · simp [triggerStatement] at hk
    · simp at ha
  · intro hc
    exact ⟨_, hmem, column_mem_keys.2 ⟨e, rfl, rfl, hc⟩⟩

theorem supplied_tableOf_iff (hnames : ∀ d ∈ declared tables [], ∀ d' ∈ declared tables [],
      d = d' ∨ ∀ n ∈ d.names, n ∉ d'.names) {e : String × TableConfig} (he : e ∈ tables.entries)
    {before : List DdlStatement} (hbefore : before ⊆ tableStatements tables) :
    Supplied (sqlite fts5) before (tableOf e) ↔
      ∀ i ∈ resolveTableIndexes e.2, ∀ f ∈ i.fields, fold f ∈ columnNames e.2 := by
  have hmem : (Declared.table e).statement ∈ before ++ [(Declared.table e).statement] := by simp
  have hsub : before ++ [(Declared.table e).statement] ⊆ tableStatements tables := by
    intro s hs
    rcases mem_append.1 hs with hs | hs
    · exact hbefore hs
    · obtain rfl := mem_singleton.1 hs
      refine mem_flatMap.2 ⟨e, he, ?_⟩
      rw [read_generateTableDDL]
      exact mem_append_left _ mem_cons_self
  have hindependent : ∀ s ∈ restOf e, ∀ t ∈ restOf e, ∀ k ∈ (sqlite fts5).needs t,
      k ∉ (sqlite fts5).keys s := by
    intro s hs t ht k hk hkeys
    rcases needs_restOf.1 ⟨t, ht, hk⟩ with ⟨i, -, f, -, rfl⟩ | ⟨-, rfl⟩ <;>
      rcases restOf_independent hs hkeys with ⟨n, h⟩ | ⟨n, h⟩ <;> cases h
  have htable : Taken (sqlite fts5) (before ++ [(Declared.table e).statement])
      (.table (fold e.1)) := by
    refine ⟨_, hmem, ?_⟩
    simp [Declared.statement, generateCreateTableDDL]
  have hnone : ∀ k ∈ (sqlite fts5).needs (Declared.table e).statement,
      Taken (sqlite fts5) before k := by
    intro k hk
    simp [Declared.statement, generateCreateTableDDL, sqlite] at hk
  rw [tableOf_eq, Supplied, supplied_iff_of_independent hindependent]
  constructor
  · rintro ⟨-, h⟩ i hi f hf
    obtain ⟨s, hs, hk⟩ := needs_restOf.2 (.inl ⟨i, hi, f, hf, rfl⟩)
    exact (taken_column_iff hnames he hsub hmem _).1 (h s hs _ hk)
  · intro h
    refine ⟨hnone, ?_⟩
    intro s hs k hk
    rcases needs_restOf.1 ⟨s, hs, hk⟩ with ⟨i, hi, f, hf, rfl⟩ | ⟨-, rfl⟩
    · exact (taken_column_iff hnames he hsub hmem _).2 (h i hi f hf)
    · exact htable

theorem supplied_tableStatements_iff (hnames : ∀ d ∈ declared tables [], ∀ d' ∈ declared tables [],
      d = d' ∨ ∀ n ∈ d.names, n ∉ d'.names) :
    Supplied (sqlite fts5) [] (tableStatements tables) ↔ ∀ e ∈ tables.entries,
      ∀ i ∈ resolveTableIndexes e.2, ∀ f ∈ i.fields, fold f ∈ columnNames e.2 := by
  have hall : ∀ es : List (String × TableConfig), es ⊆ tables.entries →
      ∀ before, before ⊆ tableStatements tables →
      (Supplied (sqlite fts5) before (es.flatMap tableOf) ↔ ∀ e ∈ es,
        ∀ i ∈ resolveTableIndexes e.2, ∀ f ∈ i.fields, fold f ∈ columnNames e.2) := by
    intro es
    induction es with
    | nil => simp [Supplied]
    | cons e es ih =>
      intro hes before hbefore
      have he : e ∈ tables.entries := hes mem_cons_self
      have hsub : before ++ tableOf e ⊆ tableStatements tables := by
        intro s hs
        rcases mem_append.1 hs with hs | hs
        · exact hbefore hs
        · exact mem_flatMap.2 ⟨e, he, hs⟩
      rw [flatMap_cons, supplied_append, supplied_tableOf_iff hnames he hbefore,
        ih (fun e' he' => hes (mem_cons_of_mem _ he')) _ hsub, forall_mem_cons]
  exact hall tables.entries (List.Subset.refl _) [] (nil_subset _)

theorem taken_table_iff {pre : List AddedField} {t : String} :
    Taken (sqlite fts5) (tableStatements tables ++ addedStatements pre) (.table t) ↔
      ∃ e ∈ tables.entries, fold e.1 = t := by
  constructor
  · rintro ⟨s, hs, hk⟩
    rcases mem_statements.1 hs with ⟨d, hd, rfl⟩ | ⟨e', -, -, suffix, -, rfl⟩ | ⟨a, ha, rfl⟩
    · cases d with
      | table e =>
        simp only [Declared.statement, generateCreateTableDDL, keys_createTable, mem_cons,
          mem_map, reduceCtorEq, Key.table.injEq, false_or, and_false, exists_false,
          or_false] at hk
        rcases mem_declared.1 hd with ⟨e', he', hd⟩ | ⟨a, -, -, hd⟩
        · rcases hd with hd | ⟨i, -, hd⟩ | ⟨-, hd⟩
          · cases hd
            exact ⟨e, he', hk.symm⟩
          · cases hd
          · cases hd
        · cases hd
      | index | search | uniqueField => simp [Declared.statement, generateFTS5DDL] at hk
    · simp [triggerStatement] at hk
    · simp [AddedField.key] at hk
  · rintro ⟨e, he, rfl⟩
    refine ⟨(Declared.table e).statement, mem_append_left _ (mem_flatMap.2 ⟨e, he, ?_⟩), ?_⟩
    · rw [read_generateTableDDL]
      exact mem_append_left _ mem_cons_self
    · simp [Declared.statement, generateCreateTableDDL]

theorem supplied_addedStatements_iff :
    Supplied (sqlite fts5) (tableStatements tables) (addedStatements added) ↔
      ∀ a ∈ added, ∃ e ∈ tables.entries, fold e.1 = fold a.table := by
  have hone : ∀ a : AddedField, ∀ pre : List AddedField,
      (Supplied (sqlite fts5) (tableStatements tables ++ addedStatements pre) (addedStatements [a]) ↔
        ∃ e ∈ tables.entries, fold e.1 = fold a.table) := by
    intro a pre
    have hstatements : addedStatements [a] = addedColumn a :: if a.field.unique then
        [(Declared.uniqueField (fold a.table) (fold a.name)).statement] else [] := by
      rw [addedStatements, flatMap_singleton, read_generateSQLiteAddColumnDDLs]
    have hneeds : (sqlite fts5).needs (addedColumn a) = [.table (fold a.table)] := rfl
    have hindex : ∀ before, Supplied (sqlite fts5) (before ++ [addedColumn a])
        (if a.field.unique then
          [(Declared.uniqueField (fold a.table) (fold a.name)).statement] else []) := by
      intro before
      split_ifs
      · refine ⟨?_, trivial⟩
        intro k hk
        have hk' : k = a.key := by
          have hneed : k ∈ [Key.column (fold (fold a.table)) (fold (fold a.name))] := hk
          rw [fold_fold, fold_fold] at hneed
          exact mem_singleton.1 hneed
        exact ⟨addedColumn a, by simp, by simp [hk']⟩
      · trivial
    rw [hstatements, Supplied, hneeds, forall_mem_singleton, taken_table_iff]
    exact and_iff_left (hindex _)
  have hall : ∀ post pre : List AddedField,
      (Supplied (sqlite fts5) (tableStatements tables ++ addedStatements pre)
        (addedStatements post) ↔ ∀ a ∈ post, ∃ e ∈ tables.entries, fold e.1 = fold a.table) := by
    intro post
    induction post with
    | nil =>
      intro pre
      simp [addedStatements, Supplied]
    | cons a post ih =>
      intro pre
      have hcons : addedStatements (a :: post) = addedStatements [a] ++ addedStatements post := by
        simp [addedStatements]
      have hnext : tableStatements tables ++ addedStatements pre ++ addedStatements [a] =
          tableStatements tables ++ addedStatements (pre ++ [a]) := by
        simp [addedStatements]
      rw [hcons, supplied_append, hone, hnext, ih, forall_mem_cons]
  have hstart : tableStatements tables = tableStatements tables ++ addedStatements [] := by
    simp [addedStatements]
  rw [hstart]
  exact hall added []

/-! ### The names of a block -/

theorem names_of_tables (h : ∀ d ∈ declared tables added, ∀ d' ∈ declared tables added,
    d = d' ∨ ∀ n ∈ d.names, n ∉ d'.names) : ∀ d ∈ declared tables [], ∀ d' ∈ declared tables [],
      d = d' ∨ ∀ n ∈ d.names, n ∉ d'.names := by
  have hsub : declared tables [] ⊆ declared tables added := by
    intro d hd
    rw [mem_declared] at hd ⊢
    exact .inl (hd.resolve_right (by simp))
  exact fun d hd d' hd' => h d (hsub hd) d' (hsub hd')

theorem proper_statements_iff : (∀ s ∈ statements tables added, Proper (sqlite fts5) s) ↔
    (∀ d ∈ declared tables added, isReserved d.name = false) ∧
    (∀ e ∈ tables.entries, (columnNames e.2).Nodup ∧ columnNames e.2 ≠ [] ∧
      ((buildEffectiveSchema e.2.schema).filter fun f => f.2.primaryKey).length ≤ 1) ∧
    (∀ e ∈ tables.entries, ∀ i ∈ resolveTableIndexes e.2, i.fields ≠ []) ∧
    ∀ e ∈ tables.entries, e.2.fts ≠ [] → (fts5 (ftsArguments e.1 e.2.fts)).isSome ∧
      ∀ suffix ∈ ["_ai", "_ad", "_au"], isReserved (e.1 ++ suffix) = false := by
  constructor
  · intro h
    have hdeclared : ∀ d ∈ declared tables added, Proper (sqlite fts5) d.statement :=
      fun d hd => h _ (mem_statements.2 (.inl ⟨d, hd, rfl⟩))
    refine ⟨?_, ?_, ?_, ?_⟩
    · intro d hd
      exact ((proper_statement_iff d).1 (hdeclared d hd)).1
    · intro e he
      exact ((proper_statement_iff (.table e)).1
        (hdeclared _ (mem_declared.2 (.inl ⟨e, he, .inl rfl⟩)))).2
    · intro e he i hi
      have hfields := ((proper_statement_iff (.index (fold e.1) (i.fields.map fold) i.unique)).1
        (hdeclared _ (mem_declared.2 (.inl ⟨e, he, .inr (.inl ⟨i, hi, rfl⟩)⟩)))).2
      simpa using hfields
    · intro e he hfts
      refine ⟨((proper_statement_iff (.search e)).1
        (hdeclared _ (mem_declared.2 (.inl ⟨e, he, .inr (.inr ⟨hfts, rfl⟩)⟩)))).2, ?_⟩
      intro suffix hsuffix
      exact (proper_trigger_iff _ _).1
        (h _ (mem_statements.2 (.inr (.inl ⟨e, he, hfts, suffix, hsuffix, rfl⟩))))
  · rintro ⟨hreserved, hcolumns, hindexes, hsearch⟩ s hs
    rcases mem_statements.1 hs with ⟨d, hd, rfl⟩ | ⟨e, he, hfts, suffix, hsuffix, rfl⟩ | ⟨a, -, rfl⟩
    · refine (proper_statement_iff d).2 ⟨hreserved d hd, ?_⟩
      rcases mem_declared.1 hd with ⟨e, he, rfl | ⟨i, hi, rfl⟩ | ⟨hfts, rfl⟩⟩ | ⟨a, -, -, rfl⟩
      · exact hcolumns e he
      · simpa using hindexes e he i hi
      · exact (hsearch e he hfts).1
      · trivial
    · exact (proper_trigger_iff _ _).2 ((hsearch e he hfts).2 suffix hsuffix)
    · exact proper_addedColumn a

theorem isUnique_iff (hnames : ∀ d ∈ declared tables added, ∀ d' ∈ declared tables added,
      d = d' ∨ ∀ n ∈ d.names, n ∉ d'.names) {e : String × TableConfig} (he : e ∈ tables.entries)
    (fields : List String) :
    IsUnique (statements tables added) e.1 fields ↔ fields.map fold ∈ uniqueFields added e := by
  have htable : Declared.table e ∈ declared tables added := mem_declared.2 (.inl ⟨e, he, .inl rfl⟩)
  have hsame : ∀ e' ∈ tables.entries, fold e'.1 = fold e.1 → e' = e := by
    intro e' he' hname
    have heq : Declared.table e' = Declared.table e := by
      refine (hnames _ (mem_declared.2 (.inl ⟨e', he', .inl rfl⟩)) _ htable).resolve_right ?_
      intro hdisjoint
      refine hdisjoint _ mem_cons_self ?_
      show fold e'.1 ∈ _
      rw [hname]
      exact mem_cons_self
    cases heq
    rfl
  have hown : ∀ e' : String × TableConfig, (fold e.1, fields.map fold) ∈
      uniqueOn (Declared.table e').statement ↔ fold e'.1 = fold e.1 ∧ fields.map fold ∈
        ((buildEffectiveSchema e'.2.schema).filter fun f => f.2.unique || f.2.primaryKey).map
          fun f => [fold f.1] := by
    intro e'
    simp only [Declared.statement, generateCreateTableDDL, uniqueOn, filter_map, map_map,
      mem_map, Function.comp_def, buildColumnDef, Prod.mk.injEq]
    constructor
    · rintro ⟨f, hf, ht, hfields⟩
      exact ⟨ht, f, hf, hfields⟩
    · rintro ⟨ht, f, hf, hfields⟩
      exact ⟨f, hf, ht, hfields⟩
  have hindex : ∀ (name t : String) (fs : List String) (unique : Bool), (fold e.1, fields.map fold) ∈
      uniqueOn (.createIndex name unique (fold t) (fs.map fold)) ↔
        unique = true ∧ fold t = fold e.1 ∧ fields.map fold = fs.map fold := by
    intro name t fs unique
    have hfold : (fs.map fold).map fold = fs.map fold := by
      simp [Function.comp_def]
    cases unique with
    | false => simp [uniqueOn]
    | true => simp [uniqueOn, hfold, eq_comm (a := fold t)]
  simp only [uniqueFields, mem_append]
  constructor
  · rintro ⟨s, hs, hunique⟩
    rcases mem_statements.1 hs with ⟨d, hd, rfl⟩ | ⟨e', -, -, suffix, -, rfl⟩ | ⟨a, -, rfl⟩
    · rcases mem_declared.1 hd with ⟨e', he', rfl | ⟨i, hi, rfl⟩ | ⟨-, rfl⟩⟩ | ⟨a, ha, hu, rfl⟩
      · obtain ⟨hname, hfields⟩ := (hown e').1 hunique
        obtain rfl := hsame e' he' hname
        exact .inl (.inl hfields)
      · obtain ⟨hu, hname, hfields⟩ := (hindex _ e'.1 i.fields i.unique).1 hunique
        obtain rfl := hsame e' he' hname
        exact .inl (.inr (mem_map.2 ⟨i, mem_filter.2 ⟨hi, hu⟩, hfields.symm⟩))
      · simp [Declared.statement, generateFTS5DDL, uniqueOn] at hunique
      · obtain ⟨-, hname, hfields⟩ := (hindex _ a.table [a.name] true).1 hunique
        exact .inr (mem_map.2 ⟨a, mem_filter.2 ⟨ha, by simp [hu, hname]⟩, hfields.symm⟩)
    · simp [triggerStatement, uniqueOn] at hunique
    · simp [addedColumn, generateAddColumnDDL, uniqueOn] at hunique
  · rintro ((hfields | hfields) | hfields)
    · exact ⟨_, mem_statements.2 (.inl ⟨_, htable, rfl⟩), (hown e).2 ⟨rfl, hfields⟩⟩
    · obtain ⟨i, hi, hfields⟩ := mem_map.1 hfields
      obtain ⟨hi, hu⟩ := mem_filter.1 hi
      exact ⟨_, mem_statements.2 (.inl ⟨_, mem_declared.2
        (.inl ⟨e, he, .inr (.inl ⟨i, hi, rfl⟩)⟩), rfl⟩),
        (hindex _ e.1 i.fields i.unique).2 ⟨hu, rfl, hfields.symm⟩⟩
    · obtain ⟨a, ha, hfields⟩ := mem_map.1 hfields
      obtain ⟨ha, hu⟩ := mem_filter.1 ha
      simp only [Bool.and_eq_true, beq_iff_eq] at hu
      exact ⟨_, mem_statements.2 (.inl ⟨_, mem_declared.2 (.inr ⟨a, ha, hu.1, rfl⟩), rfl⟩),
        (hindex _ a.table [a.name] true).2 ⟨rfl, hu.2, hfields.symm⟩⟩

theorem clean_statements_iff : Clean (sqlite fts5) [] (statements tables added) ↔
    (∀ d ∈ declared tables added, ∀ d' ∈ declared tables added,
      d = d' ∨ ∀ n ∈ d.names, n ∉ d'.names) ∧
    (∀ d ∈ declared tables added, isReserved d.name = false) ∧
    (∀ e ∈ tables.entries, (columnNames e.2).Nodup ∧ columnNames e.2 ≠ [] ∧
      ((buildEffectiveSchema e.2.schema).filter fun f => f.2.primaryKey).length ≤ 1) ∧
    (∀ e ∈ tables.entries, ∀ i ∈ resolveTableIndexes e.2,
      i.fields ≠ [] ∧ ∀ f ∈ i.fields, fold f ∈ columnNames e.2) ∧
    (∀ e ∈ tables.entries, e.2.fts ≠ [] → (fts5 (ftsArguments e.1 e.2.fts)).isSome ∧
      ∀ suffix ∈ ["_ai", "_ad", "_au"], isReserved (e.1 ++ suffix) = false) ∧
    (∀ a ∈ added, (∃ e ∈ tables.entries, fold e.1 = fold a.table) ∧
      ∀ e ∈ tables.entries, fold e.1 = fold a.table → fold a.name ∉ columnNames e.2) ∧
    (added.map fun a => (fold a.table, fold a.name)).Nodup := by
  have hsupplied : Supplied (sqlite fts5) [] (statements tables added) ↔
      Supplied (sqlite fts5) [] (tableStatements tables) ∧
        ∀ a ∈ added, ∃ e ∈ tables.entries, fold e.1 = fold a.table := by
    rw [statements, supplied_append, nil_append, supplied_addedStatements_iff]
  rw [clean_iff, proper_statements_iff, pairwise_statements_iff, hsupplied]
  constructor
  · rintro ⟨⟨hreserved, hcolumns, hfields, hsearch⟩, ⟨hnames, hnew, honce⟩, htables, hthere⟩
    have hindexes := (supplied_tableStatements_iff (names_of_tables hnames)).1 htables
    exact ⟨hnames, hreserved, hcolumns, fun e he i hi => ⟨hfields e he i hi, hindexes e he i hi⟩,
      hsearch, fun a ha => ⟨hthere a ha, hnew a ha⟩, honce⟩
  · rintro ⟨hnames, hreserved, hcolumns, hindexes, hsearch, hadded, honce⟩
    refine ⟨⟨hreserved, hcolumns, fun e he i hi => (hindexes e he i hi).1, hsearch⟩,
      ⟨hnames, fun a ha => (hadded a ha).2, honce⟩, ?_, fun a ha => (hadded a ha).1⟩
    exact (supplied_tableStatements_iff (names_of_tables hnames)).2
      fun e he i hi => (hindexes e he i hi).2

theorem isUnique_congr {catalog catalog' : List DdlStatement}
    (h : ∀ s, s ∈ catalog ↔ s ∈ catalog') (table : String) (fields : List String) :
    IsUnique catalog table fields ↔ IsUnique catalog' table fields := by
  simp only [IsUnique, h]

/-- Two tables whose indexes get one name: `idx_order_item_code`. -/
def collidingTables : Tables where
  entries := [
    ("order", { schema := some [("item_code", some { type := .string })]
                indexes := [{ fields := ["item_code"], unique := true }] }),
    ("order_item", { schema := some [("code", some { type := .string })]
                     indexes := [{ fields := ["code"], unique := true }] })]
  nodup := by decide

end Schema

end EdgeBase
