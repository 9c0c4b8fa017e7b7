import EdgeBase.Access.Requests

/-!
# Projections

The `fields` parameter of a list or get request is compiled into the query, so the read rule of a
row sees the selected columns only.  A search ignores the parameter.

* `ReadTable.projectionBlind_iff` : **when that is so**.
* `projection_counterexample` : a caller reads a secret column by not selecting the one that the
  rule looks at.
-/

namespace EdgeBase

open List Audited

/-! ### Queries with and without fields -/

/-- Options without `fields`. -/
def QueryOptions.noFields (o : QueryOptions) : QueryOptions := { o with fields := [] }

/-- A request without `fields`. -/
def PageRequest.noFields (q : PageRequest) : PageRequest := { q with options := q.options.noFields }

/-- `SELECT *` does not fail where the query for some columns does not. -/
def SqlEngine.Sound (e : SqlEngine) : Prop :=
  ∀ q rows, e.queryFault q rows = none → e.queryFault { q with columns := [] } rows = none

theorem select_star {e : SqlEngine} (he : e.Sound) {q : Select} {rows found : List Row}
    (h : e.select q rows = .ok found) :
    ∃ stored, e.select { q with columns := [] } rows = .ok stored ∧
      found = stored.map (onlyColumns q.columns) := by
  unfold SqlEngine.select at h ⊢
  cases hfault : e.queryFault q rows with
  | some error => simp [hfault] at h
  | none =>
    rw [hfault] at h
    rw [he q rows hfault]
    refine ⟨_, rfl, ?_⟩
    rw [← Except.ok.inj h, map_map]
    rfl

theorem checkBounded_noFields {q : PageRequest} {bound : ℕ} (h : checkBounded q bound = .ok ()) :
    checkBounded q.noFields bound = .ok () := by
  unfold checkBounded at h
  dsimp only at h
  split_ifs at h with hmin hoffset hid hcursor
  have hid' : ¬(q.noFields.options.fields ≠ [] ∧ "id" ∉ q.noFields.options.fields) :=
    fun hn => hn.1 rfl
  exact (if_neg hmin).trans ((if_neg hoffset).trans ((if_neg hid').trans (if_neg hcursor)))

theorem prepareBoundedQuery_noFields {env : Env} {name : String} {q : PageRequest} {search : Bool}
    {prepared : Option ℕ × QueryOptions}
    (h : prepareBoundedQuery env name q search = .ok prepared) :
    prepareBoundedQuery env name q.noFields search = .ok (prepared.1, prepared.2.noFields) ∧
      prepared.2.fields = q.options.fields := by
  have hbound : q.noFields.maxResponseBytes = q.maxResponseBytes := rfl
  unfold prepareBoundedQuery at h ⊢
  rw [hbound]
  cases hq : q.maxResponseBytes with
  | none =>
    simp only [hq] at h ⊢
    split_ifs at h with hcursor
    obtain rfl := Except.ok.inj h
    exact ⟨if_neg hcursor, rfl⟩
  | some bound =>
    simp only [hq] at h ⊢
    obtain ⟨_, hcheck, h⟩ := Except.bind_eq_ok.1 h
    obtain ⟨after, hafter, h⟩ := Except.bind_eq_ok.1 h
    obtain ⟨before, hbefore, h⟩ := Except.bind_eq_ok.1 h
    by_cases hsort : q.options.sort ≠ [] ∧ q.options.sort ≠
        [⟨"id", some (if before.isSome then "desc" else "asc")⟩]
    · exact absurd ((if_pos hsort).symm.trans h) nofun
    · obtain rfl := Except.ok.inj ((if_neg hsort).symm.trans h)
      exact ⟨Except.bind_eq_ok.2 ⟨_, checkBounded_noFields hcheck, Except.bind_eq_ok.2 ⟨after,
        hafter, Except.bind_eq_ok.2 ⟨before, hbefore, if_neg hsort⟩⟩⟩, rfl⟩

theorem buildListQuery_noFields {name : String} {o : QueryOptions} {dialect : SqlDialect}
    {query : Select × Option Select} (h : buildListQuery name o dialect = .ok query) :
    buildListQuery name o.noFields dialect = .ok ({ query.1 with columns := [] }, query.2) ∧
      query.1.columns = o.fields := by
  unfold buildListQuery at h ⊢
  obtain ⟨conditions, hconditions, h⟩ := Except.bind_eq_ok.1 h
  by_cases hcursor : o.pagination.isCursor = true
  · obtain rfl := Except.ok.inj ((if_pos hcursor).symm.trans h)
    exact ⟨Except.bind_eq_ok.2 ⟨conditions, hconditions, if_pos hcursor⟩, rfl⟩
  · obtain ⟨unpaged, hunpaged, h⟩ := Except.bind_eq_ok.1 ((if_neg hcursor).symm.trans h)
    obtain rfl := Except.ok.inj h
    exact ⟨Except.bind_eq_ok.2 ⟨conditions, hconditions, (if_neg hcursor).trans
      (Except.bind_eq_ok.2 ⟨unpaged, hunpaged, rfl⟩)⟩, rfl⟩

theorem normalizeSQLiteBooleanQueryOptions_noFields (o : QueryOptions)
    (schema : Option UserSchema) : normalizeSQLiteBooleanQueryOptions o.noFields schema =
      (normalizeSQLiteBooleanQueryOptions o schema).noFields := by
  cases schema <;> rfl

theorem normalizeSQLiteBooleanQueryOptions_fields (o : QueryOptions) (schema : Option UserSchema) :
    (normalizeSQLiteBooleanQueryOptions o schema).fields = o.fields := by
  cases schema <;> rfl

/-- The request without `fields`. -/
def ReadRequest.noFields : ReadRequest → ReadRequest
  | page op q => page op q.noFields
  | get id _ => get id []

namespace ReadTable

section Full

variable (t : ReadTable) (provider : DbProvider) (d : DatabaseDO) (env : Env) (s : Store)

/-- Rows that some statement selects with all their columns. -/
def Whole (rows : List Row) : Prop :=
  ∃ query stored, query.columns = [] ∧ env.engine.select query (s.rows t.name) = .ok stored ∧
    stored.map (cleanRow provider env t.config) = rows

/-- The full rows of the rows that a request fetches: those of the request without `fields`, one
for one, or the rows themselves when they are whole. -/
def FullRows (req : ReadRequest) (rows full : List Row) : Prop :=
  (t.Sees provider d env s full req.noFields ∧ full.length = rows.length) ∨
    (rows = full ∧ t.Whole provider env s full)

/-- The read rule does not depend on the projection: the rows that a request returns are those that
the rule, on the full rows, allows. -/
def ProjectionBlind (isSearch : Bool) : Prop :=
  ∀ d : DatabaseDO, d.getTableConfig t.name = some t.config → ∀ env : Env, env.engine.Sound →
    ∀ req : ReadRequest, req.isSearch = isSearch → ∀ s rows, t.Sees provider d env s rows req →
      ∃ full, t.FullRows provider d env s req rows full ∧
        t.returned provider d env s req = t.decided provider rows full

/-- The rule does not look at more than any selection of columns. -/
def IgnoresProjection : Prop :=
  ∀ env fields r, t.Allows (cleanRow provider env t.config (onlyColumns fields r)) ↔
    t.Allows (cleanRow provider env t.config r)

end Full

/-! ### The full rows of a request -/

section Rows

variable {t : ReadTable} {provider : DbProvider} {d : DatabaseDO} {env : Env} {s : Store}
  {q : PageRequest} {page : ReadPage} {rows : List Row} {name : String} {config : TableConfig}

theorem runSelect_star (he : env.engine.Sound) {q : Select} {found : List Row}
    (h : (runSelect env q s).result = .ok found) :
    ∃ stored, (runSelect env { q with columns := [] } s).result = .ok stored ∧
      found = stored.map (onlyColumns q.columns) :=
  select_star he h

theorem list_do (he : env.engine.Sound) (hd : d.getTableConfig t.name = some t.config)
    (hpage : t.Fetches .list .do d env q s page) :
    ∃ stored : List Row, page.rows = stored.map (fun r => cleanRow .do env t.config
        (onlyColumns q.options.fields r)) ∧
      t.Sees .do d env s (stored.map (cleanRow .do env t.config)) (.page .list q.noFields) := by
  have hfetch : (d.fetchList env t.name q s).result = .ok page := map_ok_result.1 hpage
  obtain ⟨_, hensure, hfetch⟩ := bind_result_ok.1 hfetch
  obtain ⟨prepared, hprepared, hfetch⟩ := lift_bind_result_ok.1 hfetch
  obtain ⟨query, hquery, hfetch⟩ := lift_bind_result_ok.1 hfetch
  obtain ⟨found, hfound, hfetch⟩ := bind_result_ok.1 hfetch
  obtain rfl := Except.ok.inj hfetch
  obtain ⟨hprepared', hfields⟩ := prepareBoundedQuery_noFields hprepared
  obtain ⟨hquery', hcolumns⟩ := buildListQuery_noFields hquery
  obtain ⟨stored, hstored, rfl⟩ := runSelect_star he hfound
  rw [normalizeSQLiteBooleanQueryOptions_fields, hfields] at hcolumns
  rw [← normalizeSQLiteBooleanQueryOptions_noFields] at hquery'
  refine ⟨stored, ?_, ⟨_, map_ok_result.2 (bind_result_ok.2 ⟨_, hensure,
    lift_bind_result_ok.2 ⟨_, hprepared', lift_bind_result_ok.2 ⟨_, hquery',
      bind_result_ok.2 ⟨_, hstored, rfl⟩⟩⟩⟩), ?_⟩⟩
  · rw [← hcolumns, hd]
    simp [DatabaseDO.normalizeRows, cleanRow]
  · rw [hd]
    rfl

theorem list_pg (he : env.engine.Sound) (hpage : (PG.fetchList env t.name q s).result = .ok page) :
    ∃ stored : List Row, page.rows = stored.map (fun r => PG.stripInternalPgFields
        (onlyColumns q.options.fields r)) ∧
      ∃ full, (PG.fetchList env t.name q.noFields s).result = .ok full ∧
        full.rows = stored.map PG.stripInternalPgFields := by
  obtain ⟨prepared, hprepared, hfetch⟩ := lift_bind_result_ok.1 hpage
  obtain ⟨query, hquery, hfetch⟩ := lift_bind_result_ok.1 hfetch
  obtain ⟨found, hfound, hfetch⟩ := bind_result_ok.1 hfetch
  obtain rfl := Except.ok.inj hfetch
  obtain ⟨hprepared', hfields⟩ := prepareBoundedQuery_noFields hprepared
  obtain ⟨hquery', hcolumns⟩ := buildListQuery_noFields hquery
  obtain ⟨stored, hstored, rfl⟩ := runSelect_star he hfound
  rw [hfields] at hcolumns
  refine ⟨stored, ?_, _, lift_bind_result_ok.2 ⟨_, hprepared', lift_bind_result_ok.2 ⟨_, hquery',
    bind_result_ok.2 ⟨_, hstored, rfl⟩⟩⟩, rfl⟩
  rw [← hcolumns]
  simp

theorem buildModeQuery_columns {clause : SearchClause} {orderBy : List OrderTerm}
    {options : QueryOptions} {query : Select × Select}
    (h : buildModeQuery name clause orderBy options = .ok query) :
    query.1.columns = [] ∧ query.1.table = name := by
  obtain ⟨conditions, -, h⟩ := Except.bind_eq_ok.1 h
  obtain ⟨unpaged, -, h⟩ := Except.bind_eq_ok.1 h
  obtain rfl := Except.ok.inj h
  exact ⟨rfl, rfl⟩

theorem searchQueries_columns {options : QueryOptions} {query : Bool × Select × Select}
    (h : DatabaseDO.searchQueries env (some config) name q options = .ok query) :
    query.2.1.columns = [] ∧ query.2.1.table = name := by
  unfold DatabaseDO.searchQueries at h
  dsimp only at h
  split_ifs at h
  all_goals
    obtain ⟨queries, hqueries, h⟩ := Except.bind_eq_ok.1 h
    obtain rfl := Except.ok.inj h
    exact buildModeQuery_columns hqueries

theorem pgSearchQueries_columns {options : QueryOptions} {query : Select × Select}
    (h : PG.searchQueries config name options = .ok query) :
    query.1.columns = [] ∧ query.1.table = name := by
  unfold PG.searchQueries at h
  split at h
  · exact buildModeQuery_columns h
  · exact buildModeQuery_columns h

theorem list_d1 (he : env.engine.Sound)
    (hpage : (D1.fetchList env t.config t.name q s).result = .ok page) :
    (∃ stored : List Row, page.rows = stored.map (fun r => D1.clean env t.config
        (onlyColumns q.options.fields r)) ∧
      ∃ full, (D1.fetchList env t.config t.name q.noFields s).result = .ok full ∧
        full.rows = stored.map (D1.clean env t.config)) ∨ t.Whole .d1 env s page.rows := by
  obtain ⟨prepared, hprepared, hfetch⟩ := lift_bind_result_ok.1 hpage
  obtain ⟨query, hquery, hfetch⟩ := lift_bind_result_ok.1 hfetch
  rw [read_bind_apply] at hfetch
  cases hselect : env.engine.select query.1 (s.rows t.name) with
  | ok found =>
    simp only [id_eq, hselect] at hfetch
    obtain rfl := Except.ok.inj hfetch
    obtain ⟨hprepared', hfields⟩ := prepareBoundedQuery_noFields hprepared
    obtain ⟨hquery', hcolumns⟩ := buildListQuery_noFields hquery
    obtain ⟨stored, hstored, rfl⟩ := select_star he hselect
    rw [D1.queryOptions, normalizeSQLiteBooleanQueryOptions_fields, hfields] at hcolumns
    rw [D1.queryOptions, ← normalizeSQLiteBooleanQueryOptions_noFields] at hquery'
    refine .inl ⟨stored, by simp [← hcolumns],
      { bound := prepared.1, options := D1.queryOptions t.config prepared.2.noFields
        rows := stored.map (D1.clean env t.config)
        total := pageTotal env s (D1.queryOptions t.config prepared.2.noFields) query.2 },
      lift_bind_result_ok.2 ⟨_, hprepared', lift_bind_result_ok.2 ⟨_, hquery', ?_⟩⟩, rfl⟩
    rw [read_bind_apply]
    simp only [id_eq, hstored]
    rfl
  | error e =>
    -- the fallback ignores the fields
    simp only [id_eq, hselect] at hfetch
    split_ifs at hfetch
    · cases hfetch
    · obtain ⟨fallback, hfallback, hfetch⟩ := lift_bind_result_ok.1 hfetch
      obtain ⟨found, hfound, hfetch⟩ := bind_result_ok.1 hfetch
      obtain rfl := Except.ok.inj hfetch
      obtain ⟨hcolumns, htable⟩ := buildModeQuery_columns hfallback
      exact .inr ⟨fallback.1, found, hcolumns, htable ▸ hfound, rfl⟩

theorem search_whole (hd : d.getTableConfig t.name = some t.config)
    (hpage : t.Fetches .search provider d env q s page) : t.Whole provider env s page.rows := by
  cases provider with
  | «do» =>
    obtain ⟨_, hensure, hfetch⟩ := bind_result_ok.1 hpage
    obtain ⟨prepared, hprepared, hfetch⟩ := lift_bind_result_ok.1 hfetch
    rw [hd, emit_bind_apply] at hfetch
    dsimp only at hfetch
    split_ifs at hfetch with hterm
    · obtain ⟨answer, -, hfetch⟩ := lift_bind_result_ok.1 hfetch
      exact absurd hfetch nofun
    · obtain ⟨query, hquery, hfetch⟩ := lift_bind_result_ok.1 hfetch
      rw [read_bind_apply, id_eq] at hfetch
      obtain ⟨hcolumns, htable⟩ := searchQueries_columns hquery
      rw [(ensureTableExists_rows hd).2] at hfetch
      cases hselect : env.engine.select query.2.1 (s.rows t.name) with
      | error e =>
        simp only [hselect] at hfetch
        split_ifs at hfetch
        · exact absurd hfetch nofun
        · exact absurd hfetch nofun
      | ok found =>
        simp only [hselect] at hfetch
        cases htotal : pageTotal env (d.ensureTableExists t.name s).state
            (normalizeSQLiteBooleanQueryOptions prepared.2 (tableSchema (some t.config)))
            (some query.2.2) with
        | error e =>
          simp only [htotal] at hfetch
          exact absurd hfetch nofun
        | ok total =>
          simp only [htotal] at hfetch
          obtain rfl := Except.ok.inj (Except.ok.inj hfetch)
          exact ⟨query.2.1, found, hcolumns, hselect, rfl⟩
  | d1 =>
    obtain ⟨prepared, hprepared, hfetch⟩ := lift_bind_result_ok.1 hpage
    split_ifs at hfetch with hterm
    · obtain ⟨answer, -, hfetch⟩ := lift_bind_result_ok.1 hfetch
      exact absurd hfetch nofun
    · obtain ⟨query, hquery, hfetch⟩ := lift_bind_result_ok.1 hfetch
      rw [read_bind_apply, id_eq] at hfetch
      cases hselect : env.engine.select query.2.1 (s.rows t.name) with
      | error e =>
        simp only [hselect] at hfetch
        exact absurd hfetch nofun
      | ok found =>
        simp only [hselect] at hfetch
        obtain ⟨total, htotal, hfetch⟩ := lift_bind_result_ok.1 hfetch
        obtain rfl := Except.ok.inj (Except.ok.inj hfetch)
        exact ⟨query.2.1, found, (searchQueries_columns hquery).1, hselect, rfl⟩
  | neon | postgres =>
    obtain ⟨prepared, hprepared, hfetch⟩ := lift_bind_result_ok.1 hpage
    split_ifs at hfetch with hterm
    · obtain ⟨answer, -, hfetch⟩ := lift_bind_result_ok.1 hfetch
      exact absurd hfetch nofun
    · obtain ⟨query, hquery, hfetch⟩ := lift_bind_result_ok.1 hfetch
      obtain ⟨found, hfound, hfetch⟩ := bind_result_ok.1 hfetch
      obtain ⟨store, hstore, hfetch⟩ := bind_result_ok.1 hfetch
      obtain ⟨total, htotal, hfetch⟩ := lift_bind_result_ok.1 hfetch
      obtain rfl := Except.ok.inj (Except.ok.inj hfetch)
      obtain ⟨hcolumns, htable⟩ := pgSearchQueries_columns hquery
      exact ⟨query.1, found, hcolumns, htable ▸ hfound, rfl⟩

theorem full_rows (he : env.engine.Sound) (hd : d.getTableConfig t.name = some t.config)
    {req : ReadRequest} (hrows : t.Sees provider d env s rows req) :
    ∃ (stored : List Row) (columns : List String),
      rows = stored.map (fun r => cleanRow provider env t.config (onlyColumns columns r)) ∧
      (req.isSearch = true → columns = []) ∧
      t.FullRows provider d env s req rows (stored.map (cleanRow provider env t.config)) := by
  have hwhole : t.Whole provider env s rows →
      ∃ (stored : List Row) (columns : List String),
        rows = stored.map (fun r => cleanRow provider env t.config (onlyColumns columns r)) ∧
        (req.isSearch = true → columns = []) ∧
        t.FullRows provider d env s req rows (stored.map (cleanRow provider env t.config)) := by
    rintro ⟨query, stored, hcolumns, hselect, rfl⟩
    exact ⟨stored, [], rfl, fun _ => rfl, .inr ⟨rfl, query, stored, hcolumns, hselect, rfl⟩⟩
  cases req with
  | get id fields =>
    obtain ⟨found, hfound, rfl⟩ := hrows
    obtain ⟨stored, hstored, rfl⟩ := select_star he hfound
    refine ⟨stored.take 1, fields, ?_, nofun, .inl ⟨⟨stored, hstored, rfl⟩, by simp⟩⟩
    rw [← map_take, map_map]
    rfl
  | page op q =>
    obtain ⟨page, hpage, rfl⟩ := hrows
    cases op with
    | search => exact hwhole (search_whole hd hpage)
    | list =>
      cases provider with
      | «do» =>
        obtain ⟨stored, hrows, hfull⟩ := list_do he hd hpage
        exact ⟨stored, q.options.fields, hrows, nofun, .inl ⟨hfull, by simp [hrows]⟩⟩
      | d1 =>
        obtain ⟨stored, hrows, full, hfull, heq⟩ | h := list_d1 he (map_ok_result.1 hpage)
        · exact ⟨stored, q.options.fields, hrows, nofun,
            .inl ⟨⟨full, map_ok_result.2 hfull, heq⟩, by simp [hrows]⟩⟩
        · exact hwhole h
      | neon | postgres =>
        obtain ⟨stored, hrows, full, hfull, heq⟩ := list_pg he (map_ok_result.1 hpage)
        exact ⟨stored, q.options.fields, hrows, nofun,
          .inl ⟨⟨full, map_ok_result.2 hfull, heq⟩, by simp [hrows]⟩⟩

theorem decided_congr {stored : List Row} {f g : Row → Row}
    (h : ∀ r ∈ stored, t.Allows (f r) ↔ t.Allows (g r)) :
    t.decided provider (stored.map f) (stored.map f) =
      t.decided provider (stored.map f) (stored.map g) := by
  cases provider with
  | «do» =>
    have hall : (∀ row ∈ stored.map f, t.Allows row) ↔ ∀ row ∈ stored.map g, t.Allows row := by
      simp only [forall_mem_map]
      exact forall₂_congr h
    simp only [decided, hall]
  | d1 | neon | postgres =>
    simp only [decided, zip_map', filter_map, map_map]
    refine congrArg (List.map _) (filter_congr fun r hr => ?_)
    simp [h r hr]

theorem blind_of_ignores {search : Bool} (hrule : provider = .do → t.rule ≠ .bool false)
    (hcolumns : search = false → t.IgnoresProjection provider) :
    t.ProjectionBlind provider search := by
  rintro d hd env he req hsearch s rows hrows
  obtain ⟨stored, columns, rfl, hwhole, hfull⟩ := full_rows he hd hrows
  refine ⟨_, hfull, ?_⟩
  rw [returned_eq_decided hrule hd hrows]
  refine decided_congr fun r _ => ?_
  cases search with
  | true => rw [hwhole hsearch]; rfl
  | false => exact hcolumns rfl env columns r


theorem mem_of_select {e : SqlEngine} (horder : ∀ terms rows, e.order terms rows = rows)
    (hannotate : ∀ clause r, e.annotate clause r = r) {q : Select} {rows found : List Row}
    (hq : q.columns = []) (h : e.select q rows = .ok found) : ∀ r ∈ found, r ∈ rows := by
  have hproject : e.project q = id := by
    funext r
    cases hs : q.search <;> simp [SqlEngine.project, hs, hq, hannotate, onlyColumns]
  unfold SqlEngine.select at h
  cases hfault : e.queryFault q rows with
  | some error => simp [hfault] at h
  | none =>
    rw [hfault, horder, hproject] at h
    obtain rfl := (map_id _).symm.trans (Except.ok.inj h)
    intro r hr
    cases hlimit : q.limit with
    | none =>
      rw [hlimit] at hr
      exact mem_of_mem_filter (mem_of_mem_drop hr)
    | some n =>
      rw [hlimit] at hr
      exact mem_of_mem_filter (mem_of_mem_drop (mem_of_mem_take hr))

theorem sound_simple : SqlEngine.simple.Sound := fun _ _ _ => rfl

theorem decided_singleton_iff {row full : Row}
    (h : t.decided provider [row] [row] = t.decided provider [row] [full]) :
    t.Allows row ↔ t.Allows full := by
  by_cases h₁ : t.Allows row <;> by_cases h₂ : t.Allows full <;>
    cases provider <;> simp_all [decided]

/-! #### Where the rule depends on the projection -/

theorem sees_single (t : ReadTable) (op : ReadOp) (provider : DbProvider)
    (hd : d.getTableConfig t.name = some t.config) (env : Env) (fields : List String) (r : Row) :
    t.Sees provider d env.onSimple (.single t.name [r])
      [cleanRow provider env t.config (onlyColumns (op.columns fields) r)]
      (.page op (firstPage op fields)) :=
  ⟨_, fetchPage_single op env hd provider fields r, rfl⟩

theorem FullRows.length_eq {req : ReadRequest} {full : List Row}
    (h : t.FullRows provider d env s req rows full) : full.length = rows.length := by
  rcases h with h | ⟨rfl, -⟩
  · exact h.2
  · rfl

theorem rule_of_blind {search : Bool} (h : t.ProjectionBlind .do search) :
    t.rule ≠ .bool false := by
  have hd : (DatabaseDO.single t.name t.config).getTableConfig t.name = some t.config :=
    getTableConfig_single
  intro hfalse
  have hshown : ∀ op : ReadOp, (ReadRequest.page op (firstPage op [])).isSearch = search → False := by
    intro op hop
    obtain ⟨full, hfull, hreturned⟩ := h _ hd Env.simple.onSimple sound_simple _ hop _ _
      (sees_single t op .do hd .simple [] [])
    have hlength := hfull.length_eq
    -- the object returns the row, and the rule allows none
    rw [returned_page_do hd (fetchPage_single op .simple hd .do [] []),
      objectRule_of_false hfalse] at hreturned
    obtain ⟨row, rfl⟩ : ∃ row, full = [row] := length_eq_one_iff.1 hlength
    have hdenied : ¬t.Allows row := by simp [Allows, hfalse]
    rw [decided_singleton, if_neg hdenied, if_pos (fun _ _ => evalRowRule_none ..)] at hreturned
    exact absurd hreturned (cons_ne_nil _ _)
  cases search with
  | true => exact hshown .search rfl
  | false => exact hshown .list rfl

theorem Sees.unique {req : ReadRequest} {rows' : List Row} (h : t.Sees provider d env s rows req)
    (h' : t.Sees provider d env s rows' req) : rows = rows' := by
  cases req with
  | page op q =>
    obtain ⟨page, hpage, rfl⟩ := h
    obtain ⟨page', hpage', rfl⟩ := h'
    obtain rfl := Except.ok.inj (Except.ok.inj (hpage.symm.trans hpage'))
    rfl
  | get id fields =>
    obtain ⟨found, hfound, rfl⟩ := h
    obtain ⟨found', hfound', rfl⟩ := h'
    obtain rfl := Except.ok.inj (hfound.symm.trans hfound')
    rfl

theorem full_single (hd : d.getTableConfig t.name = some t.config) (env : Env)
    {fields : List String} {r row : Row} {full : List Row}
    (h : t.FullRows provider d env.onSimple (.single t.name [r])
      (.page .list (firstPage .list fields)) [row] full) :
    full = [cleanRow provider env t.config r] := by
  rcases h with ⟨hsees, -⟩ | ⟨rfl, query, stored, hcolumns, hselect, hstored⟩
  · exact hsees.unique (sees_single t .list provider hd env [] r)
  · rw [rows_single] at hselect
    have hmem := mem_of_select (fun _ _ => rfl) (fun _ _ => rfl) hcolumns hselect
    obtain ⟨r', rfl⟩ : ∃ r', stored = [r'] := by
      have hlength := congrArg List.length hstored
      rw [length_map] at hlength
      exact length_eq_one_iff.1 hlength
    obtain rfl : r' = r := mem_singleton.1 (hmem r' (mem_singleton_self _))
    rw [← hstored, map_singleton, cleanRow_onSimple]

theorem ignores_of_blind (hrule : provider = .do → t.rule ≠ .bool false)
    (h : t.ProjectionBlind provider false) : t.IgnoresProjection provider := by
  have hd : (DatabaseDO.single t.name t.config).getTableConfig t.name = some t.config :=
    getTableConfig_single
  intro env fields r
  have hrows := sees_single t .list provider hd env fields r
  obtain ⟨full, hfull, hreturned⟩ := h _ hd env.onSimple sound_simple _ rfl _ _ hrows
  rw [returned_eq_decided hrule hd hrows] at hreturned
  obtain rfl := full_single hd env hfull
  exact decided_singleton_iff hreturned

/-- **Projections.**  The read rule does not depend on the projection exactly when the object does
not take it for no rule, and, for lists and gets, it looks at no column that could be left out. -/
theorem projectionBlind_iff (t : ReadTable) (provider : DbProvider) (search : Bool) :
    t.ProjectionBlind provider search ↔ (provider = .do → t.rule ≠ .bool false) ∧
        (search = false → t.IgnoresProjection provider) := by
  constructor
  · intro h
    have hrule : provider = .do → t.rule ≠ .bool false := by
      rintro rfl
      exact rule_of_blind h
    refine ⟨hrule, ?_⟩
    rintro rfl
    exact ignores_of_blind hrule h
  · rintro ⟨hrule, hcolumns⟩
    exact blind_of_ignores hrule hcolumns

end Rows

/-! ### A column that is left out -/

/-- Profiles that anyone may read unless they are private. -/
def profiles : ReadTable where
  name := "profiles"
  config := { access := some { read := some (.fn fun _ row =>
    .value (row.lookup "visibility" ≠ some (.str "private"))) } }
  auth := none
  rule := .fn fun _ row => .value (row.lookup "visibility" ≠ some (.str "private"))
  rule_eq := rfl

def privateProfile : Row :=
  [("id", .str "p1"), ("visibility", .str "private"), ("phone", .str "555")]

/-- The answer of a provider to a request for the private profile. -/
def profileAnswer (provider : DbProvider) (fields : List String) : Except HttpError Response :=
  ((ReadRequest.get "p1" fields).handle provider (.single "profiles" profiles.config) .simple
    profiles.config profiles.caller "profiles" (.single "profiles" [privateProfile])).result

/-- A get of a private profile is refused, and one with `fields=phone` shows the phone number. -/
theorem projection_counterexample :
    (∀ provider ∈ [DbProvider.do, .d1],
      statusOf (profileAnswer provider []) = 403 ∧
      profileAnswer provider ["phone"] = .ok { body := [("phone", .str "555")] }) ∧
    ∀ provider, ¬profiles.ProjectionBlind provider false := by
  refine ⟨by decide, fun provider h => ?_⟩
  have hrule : profiles.rule ≠ .bool false := fun hfalse => nomatch hfalse
  have hignores := ignores_of_blind (fun _ => hrule) h .simple ["phone"] privateProfile
  revert hignores
  cases provider <;> decide

end ReadTable

end EdgeBase
