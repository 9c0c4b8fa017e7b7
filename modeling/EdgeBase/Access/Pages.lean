import EdgeBase.Access.Platform

/-!
# Fetched pages

The list and search handlers of the three providers side by side: each fetches a page and answers
it, the Durable Object with all of it or not at all, D1 and PostgreSQL with the rows that the rule
allows.

* `handleRead_do_of_allowed`, `handleRead_do_of_denied`, `handleRead_worker`,
  `handleRead_worker_of_false` : what a handler does with its page.
* `respond_shows` : the items of an answer.
* `fetchPage_rows`, `fetchPage_simple` : the rows of a page, and the first page of a small table.
-/

namespace EdgeBase

open Audited

inductive ReadOp where
  | list
  | search
  deriving DecidableEq

/-! ### The handlers of the three providers -/

section Handlers

variable (op : ReadOp) (d : DatabaseDO) (env : Env) (config : TableConfig) (caller : Caller)
  (name : String) (q : PageRequest)

def handleRead (provider : DbProvider) : Handler Response :=
  match op, provider with
  | .list, .do => d.list env caller name q
  | .list, .d1 => D1.handleList env config caller name q
  | .list, .neon | .list, .postgres => PG.handleList env config caller name q
  | .search, .do => d.search env caller name q
  | .search, .d1 => D1.handleSearch env config caller name q
  | .search, .neon | .search, .postgres => PG.handleSearch env config caller name q

/-- Running its query: the page it fetches, or an answer without a page. -/
def fetchPage (provider : DbProvider) : Handler (Except Response ReadPage) :=
  match op, provider with
  | .list, .do => Except.ok <$> d.fetchList env name q
  | .list, .d1 => Except.ok <$> D1.fetchList env config name q
  | .list, .neon | .list, .postgres => Except.ok <$> PG.fetchList env name q
  | .search, .do => d.fetchSearch env name q
  | .search, .d1 => D1.fetchSearch env config name q
  | .search, .neon | .search, .postgres => PG.fetchSearch env config name q

def objectBody (page : ReadPage) (items : List Row) (total : Option ℕ) : Row :=
  match op with
  | .list => DatabaseDO.listBody page total items
  | .search => searchBody page total items

/-- The unbounded body of D1 and PostgreSQL: a list shows the enriched rows, a search the rows. -/
def workerBody (provider : DbProvider) (page : ReadPage) (visible items : List Row)
    (total : Option ℕ) : Row :=
  match op with
  | .list => [("items", .arr (items.map .obj)), ("total", jsonOr jsonNat total)] ++
    match provider with
    | .d1 => D1.listTail env page items
    | _ => PG.listTail env page items
  | .search => searchBody page total visible

end Handlers

/-! ### What a handler does with its page -/

namespace DatabaseDO

theorem checkRows_of_all (env : Env) {rule : Option RowRule} {auth : Option AuthContext}
    (name : String) {rows : List Row} (h : ∀ row ∈ rows, evalRowRule rule auth row = true) :
    checkRows env rule auth name rows = pure () := by
  have hfind : rows.find? (fun row => !evalRowRule rule auth row) = none :=
    List.find?_eq_none.2 fun row hrow => by simp [h row hrow]
  rw [checkRows, hfind]

theorem checkRows_of_denied (env : Env) {rule : Option RowRule} {auth : Option AuthContext}
    (name : String) {rows : List Row} {row : Row} (hrow : row ∈ rows)
    (h : evalRowRule rule auth row = false) :
    ∃ message, checkRows env rule auth name rows = .fail ⟨403, message⟩ := by
  cases hfind : rows.find? (fun row => !evalRowRule rule auth row) with
  | none => exact absurd (List.find?_eq_none.1 hfind row hrow) (by simp [h])
  | some first => exact ⟨_, by rw [checkRows, hfind]⟩

end DatabaseDO

section Results

variable {op : ReadOp} {d : DatabaseDO} {env : Env} {config : TableConfig} {caller : Caller}
  {name : String} {q : PageRequest} {s : Store} {page : ReadPage} {provider : DbProvider}

theorem map_ok_bind (m : Handler ReadPage) (k : ReadPage → Handler Response) :
    (Except.ok <$> m : Handler (Except Response ReadPage)) >>= answerFetched k = m >>= k := by
  funext s
  rw [bind_apply, bind_apply, map_apply]
  cases (m s).result <;> rfl

theorem map_ok_result {m : Handler ReadPage} :
    ((Except.ok <$> m : Handler (Except Response ReadPage)) s).result = .ok (.ok page) ↔
      (m s).result = .ok page := by
  rw [map_apply]
  cases (m s).result with
  | error e => exact ⟨nofun, nofun⟩
  | ok a => simp [Except.map]

theorem handleRead_do :
    handleRead op d env config caller name q .do =
      fetchPage op d env config name q .do >>= answerFetched
        (match op with
        | .list => d.answerList env caller name
        | .search => d.answerSearch env caller name) := by
  cases op with
  | list => exact (map_ok_bind _ _).symm
  | search => rfl

theorem handleRead_do_of_allowed (hd : d.getTableConfig name = some config)
    (hpage : (fetchPage op d env config name q .do s).result = .ok (.ok page))
    (h : ∀ row ∈ page.rows,
      evalRowRule (DatabaseDO.activeRule (some config) .read caller) caller.auth row = true) :
    (handleRead op d env config caller name q .do s).result =
      respond env name page page.rows (page.rows.map (enrichRecord config.hooks caller.auth))
        (objectBody op page (page.rows.map (enrichRecord config.hooks caller.auth))) := by
  have hcheck := DatabaseDO.checkRows_of_all env name h
  rw [handleRead_do, bind_of_ok hpage]
  cases op with
  | list =>
    simp only [answerFetched, DatabaseDO.answerList, hd, hcheck]
    rfl
  | search =>
    simp only [answerFetched, DatabaseDO.answerSearch, hd, hcheck]
    rfl

theorem handleRead_do_of_denied (hd : d.getTableConfig name = some config)
    (hpage : (fetchPage op d env config name q .do s).result = .ok (.ok page)) {row : Row}
    (hrow : row ∈ page.rows)
    (h : evalRowRule (DatabaseDO.activeRule (some config) .read caller) caller.auth row = false) :
    ∃ message, (handleRead op d env config caller name q .do s).result = .error ⟨403, message⟩ := by
  obtain ⟨message, hcheck⟩ := DatabaseDO.checkRows_of_denied env name hrow h
  refine ⟨message, ?_⟩
  rw [handleRead_do, bind_of_ok hpage]
  cases op with
  | list => simp [answerFetched, DatabaseDO.answerList, hd, hcheck]
  | search => simp [answerFetched, DatabaseDO.answerSearch, hd, hcheck]

variable (hprovider : provider ≠ .do)
include hprovider

variable (op d env config caller name q) in
/-- The D1 and PostgreSQL handlers: the literal `false` first, then the page. -/
theorem handleRead_worker_eq :
    ∃ error : HttpError, error.status = 403 ∧
      handleRead op d env config caller name q provider =
        Worker.guardRead config caller error >>= fun _ =>
          fetchPage op d env config name q provider >>= answerFetched
            (match op with
            | .list => Worker.answerList
                (match provider with | .d1 => D1.listTail | _ => PG.listTail) env config caller name
            | .search => Worker.answerSearch env config caller name) := by
  cases op with
  | list =>
    cases provider with
    | «do» => exact absurd rfl hprovider
    | d1 | neon | postgres =>
      exact ⟨_, rfl, congrArg (Worker.guardRead config caller _ >>= ·)
        (funext fun _ => (map_ok_bind _ _).symm)⟩
  | search =>
    cases provider with
    | «do» => exact absurd rfl hprovider
    | d1 | neon | postgres => exact ⟨_, rfl, rfl⟩

theorem handleRead_worker
    (hpage : (fetchPage op d env config name q provider s).result = .ok (.ok page))
    (hguard : isLiteralFalse (Worker.activeRule config .read caller) = false) :
    (handleRead op d env config caller name q provider s).result =
      respond env name page (Worker.visibleRows config caller page)
        ((Worker.visibleRows config caller page).map (enrichRecord config.hooks caller.auth))
        (workerBody op env provider page (Worker.visibleRows config caller page)
          ((Worker.visibleRows config caller page).map
            (enrichRecord config.hooks caller.auth))) := by
  obtain ⟨error, -, heq⟩ := handleRead_worker_eq op d env config caller name q hprovider
  rw [heq, Worker.guardRead, check_bind, if_pos (by simp [hguard]),
    bind_of_ok hpage]
  cases op with
  | list => cases provider <;> rfl
  | search => rfl

/-- D1 and PostgreSQL refuse everything on the literal `false`. -/
theorem handleRead_worker_of_false
    (hguard : isLiteralFalse (Worker.activeRule config .read caller) = true) :
    ∃ message, (handleRead op d env config caller name q provider s).result =
      .error ⟨403, message⟩ := by
  obtain ⟨error, hstatus, heq⟩ := handleRead_worker_eq op d env config caller name q hprovider
  refine ⟨error.message, ?_⟩
  rw [heq, Worker.guardRead, check_bind, if_neg (by simp [hguard]), ← hstatus]
  rfl

end Results

/-! ### What an answer shows -/

def statusOf : Except HttpError Response → ℕ
  | .ok r => r.status
  | .error e => e.status

/-- An answer shows some rows: all of them, or the first of them and that it is cut. -/
def Shows (r : Response) (rows : List Row) : Prop :=
  ∃ k, r.items = some (.arr ((rows.take k).map .obj)) ∧ (k = rows.length ∨ r.IsCut)

theorem respond_shows {env : Env} {name : String} {page : ReadPage} {visible items : List Row}
    {body : Option ℕ → Row} {shown : List Row} {r : Response}
    (hitems : items.length = visible.length)
    (hbody : ∀ total, (body total).lookup "items" = some (.arr (shown.map .obj)))
    (h : respond env name page visible items body = .ok r) (hstatus : r.status = 200) :
    Shows r shown ∨ Shows r items := by
  unfold respond at h
  obtain ⟨total, -, h⟩ := Except.bind_eq_ok.1 h
  cases hbound : page.bound with
  | none =>
    rw [hbound] at h
    obtain rfl : { body := body total } = r := by simpa using h
    exact .inl ⟨shown.length, by rw [List.take_length]; exact hbody total, .inl rfl⟩
  | some bound =>
    rw [hbound] at h
    obtain ⟨k, hk, hcut⟩ := buildBoundedPageResponse_items h hstatus
    have hfst : (items.zip (visible.map (idText env))).map Prod.fst = items :=
      List.map_fst_zip (by simp [hitems])
    rw [BoundedPage.items, hfst] at hk hcut
    exact .inr ⟨k, hk, hcut⟩

/-! ### What is fetched -/

def cleanRow (provider : DbProvider) (env : Env) (config : TableConfig) (row : Row) : Row :=
  match provider with
  | .do => DatabaseDO.normalizeRow env row (some config)
  | .d1 => D1.clean env config row
  | .neon | .postgres => PG.stripInternalPgFields row

section Fetch

variable {I : Store → Prop} {P : Event → Prop} {op : ReadOp} {d : DatabaseDO} {env : Env}
  {config : TableConfig} {name : String} {q : PageRequest}

/-- The page that was fetched, if any, has rows that the provider has cleaned. -/
def CleanPage (provider : DbProvider) (env : Env) (config : TableConfig)
    (fetched : Except Response ReadPage) : Prop :=
  ∀ page, fetched = .ok page → ∀ row ∈ page.rows, ∃ r, cleanRow provider env config r = row

theorem cleanPage_error {provider : DbProvider} (answer : Response) :
    CleanPage provider env config (.error answer) := fun _ h => by cases h

theorem cleanPage_ok {provider : DbProvider} {page : ReadPage} (rows : List Row)
    (h : page.rows = rows.map (cleanRow provider env config)) :
    CleanPage provider env config (.ok page) := by
  intro page' heq row hrow
  obtain rfl := Except.ok.inj heq
  rw [h] at hrow
  obtain ⟨r, -, rfl⟩ := List.mem_map.1 hrow
  exact ⟨r, rfl⟩

theorem cleanPage_early {provider : DbProvider} (x : Except HttpError Response) :
    Audited.Ensures I P (CleanPage provider env config)
      (Audited.lift x >>= fun answer => pure (Except.error answer) :
        Handler (Except Response ReadPage)) :=
  .bind (.lift fun _ _ => trivial) fun _ _ => .pure (cleanPage_error _)

theorem ensures_fetchPage (provider : DbProvider) (hensure : provider = .do → Audited.Ensures I P
      (fun _ => P (.opened name (d.getTableConfig name))) (d.ensureTableExists name)) :
    Audited.Ensures I P (fun fetched => d.getTableConfig name = some config →
      CleanPage provider env config fetched) (fetchPage op d env config name q provider) := by
  have hselect : ∀ q, Audited.Ensures I P (fun _ => True) (runSelect env q) :=
    ensures_runSelect env
  cases op with
  | list =>
    cases provider with
    | «do» =>
      refine .map (.bind (hensure rfl) fun _ hopened => .bind (.lift fun _ _ => trivial) fun _ _ =>
        .bind (.emit hopened) fun _ _ => .bind (.lift fun _ _ => trivial) fun _ _ =>
          .bind (hselect _) fun rows _ => .bind (.read _) fun _ _ =>
            .pure fun hd => cleanPage_ok rows ?_)
      rw [hd]
      rfl
    | d1 =>
      refine .map (.bind (.lift fun _ _ => trivial) fun _ _ => .bind (.lift fun _ _ => trivial)
        fun _ _ => .bind (.read _) fun _ _ => ?_)
      split
      · exact .pure fun _ => cleanPage_ok _ rfl
      · exact .ite (fun _ => .fail _) fun _ => .bind (.lift fun _ _ => trivial) fun _ _ =>
          .bind (hselect _) fun _ _ => .pure fun _ => cleanPage_ok _ rfl
    | neon | postgres =>
      exact .map (.bind (.lift fun _ _ => trivial) fun _ _ => .bind (.lift fun _ _ => trivial)
        fun _ _ => .bind (hselect _) fun _ _ => .bind (.read _) fun _ _ =>
          .pure fun _ => cleanPage_ok _ rfl)
  | search =>
    cases provider with
    | «do» =>
      refine .bind (hensure rfl) fun _ hopened => .bind (.lift fun _ _ => trivial) fun _ _ =>
        .bind (.emit hopened) fun _ _ => ?_
      refine .ite (fun _ => (cleanPage_early _).weaken fun _ h _ => h) fun _ =>
        .bind (.lift fun _ _ => trivial) fun _ _ => .bind (.read _) fun _ _ => ?_
      split
      · exact .ite (fun _ => .fail _) fun _ => .pure fun _ => cleanPage_error _
      · split
        · exact .pure fun _ => cleanPage_error _
        · refine .pure fun hd => cleanPage_ok ‹List Row› ?_
          rw [hd]
          rfl
    | d1 =>
      refine .bind (.lift fun _ _ => trivial) fun _ _ => .ite
        (fun _ => (cleanPage_early _).weaken fun _ h _ => h) fun _ =>
          .bind (.lift fun _ _ => trivial) fun _ _ => .bind (.read _) fun _ _ => ?_
      split
      · exact .fail _
      · exact .bind (.lift fun _ _ => trivial) fun _ _ => .pure fun _ => cleanPage_ok _ rfl
    | neon | postgres =>
      exact .bind (.lift fun _ _ => trivial) fun _ _ => .ite
        (fun _ => (cleanPage_early _).weaken fun _ h _ => h) fun _ =>
          .bind (.lift fun _ _ => trivial) fun _ _ => .bind (hselect _) fun _ _ =>
            .bind (.read _) fun _ _ => .bind (.lift fun _ _ => trivial) fun _ _ =>
              .pure fun _ => cleanPage_ok _ rfl

theorem ensures_ensureTableExists
    (hcreated : ∀ config, d.getTableConfig name = some config → P (.created name config)) :
    Audited.Ensures (fun _ => True) P (fun _ => True) (d.ensureTableExists name) := by
  refine .bind (.read _) fun present _ => .ite (fun _ => .pure trivial) fun _ => ?_
  split
  · exact .bind (.read _) fun known _ => .ite (fun _ => .pure trivial) fun _ =>
      .bind (.emit (hcreated _ ‹_›)) fun _ _ => .update fun _ _ => trivial
  · exact .fail _

theorem fetchPage_rows (hd : d.getTableConfig name = some config) (provider : DbProvider)
    {s : Store} {page : ReadPage}
    (hpage : (fetchPage op d env config name q provider s).result = .ok (.ok page)) :
    ∀ row ∈ page.rows, ∃ r, cleanRow provider env config r = row := by
  have hensure : Audited.Ensures (fun _ => True) (fun _ => True) (fun _ => True)
      (d.ensureTableExists name) := ensures_ensureTableExists fun _ _ => trivial
  have hfetch : Audited.Ensures (fun _ => True) (fun _ => True)
      (fun fetched => d.getTableConfig name = some config → CleanPage provider env config fetched)
      (fetchPage op d env config name q provider) := ensures_fetchPage provider fun _ => hensure
  obtain ⟨-, -, hclean⟩ := hfetch s trivial
  exact hclean _ hpage hd page rfl

end Fetch

/-- A request for some columns of the first page, without filters. -/
def firstPage (op : ReadOp) (fields : List String) : PageRequest where
  options := { fields, search := match op with | .list => "" | .search => "a" }

/-- A query for some columns of the first page of a table. -/
structure IsFirst (name : String) (columns : List String) (q : Select) : Prop where
  conditions : q.conditions = {}
  columns : q.columns = columns
  limit : q.limit = some 100
  offset : q.offset = 0
  table : q.table = name

section FirstPage

variable {name : String} {fields columns : List String} (env : Env) {rows : List Row}

theorem select_first {q : Select} (hq : IsFirst name columns q) :
    env.onSimple.engine.select q ((Store.single name rows).rows name) =
      .ok ((rows.take 100).map (onlyColumns columns)) := by
  rw [rows_single]
  change SqlEngine.simple.select q rows = _
  rw [select_simple q hq.conditions, hq.columns, hq.limit, hq.offset]
  rfl

theorem runSelect_first {q : Select} (hq : IsFirst name columns q) :
    runSelect env.onSimple q (.single name rows) =
      ⟨.ok ((rows.take 100).map (onlyColumns columns)), .single name rows, []⟩ := by
  rw [runSelect, read_bind_apply, hq.table, Audited.lift, select_first env hq]

theorem pageTotal_of_not {options : QueryOptions} (h : options.includeTotal = false)
    (store : Store) (count : Option Select) : pageTotal env store options count = .ok none := by
  cases count <;> simp [pageTotal, h]

theorem buildListQuery_first (name : String) (fields : List String) (dialect : SqlDialect) :
    ∃ query, buildListQuery name { fields } dialect = .ok query ∧ IsFirst name fields query.1 :=
  ⟨_, rfl, rfl, rfl, rfl, rfl, rfl⟩

theorem buildSubstring_first (name : String) (fields searched : List String) :
    ∃ query, buildSubstringSearchQuery name "a" { fields, search := "a" } searched = .ok query ∧
      IsFirst name [] query.1 :=
  ⟨_, rfl, rfl, rfl, rfl, rfl, rfl⟩

theorem searchQueries_first (name : String) (config : TableConfig) (fields : List String)
    (q : PageRequest) :
    ∃ query, DatabaseDO.searchQueries env (some config) name q { fields, search := "a" } =
      .ok (false, query) ∧ IsFirst name [] query.1 := by
  have hshort : sqliteFtsNeedsSubstringFallback "a" = true := by decide
  simp only [DatabaseDO.searchQueries, hshort, Bool.not_true, Bool.and_false, Bool.false_and,
    Bool.false_eq_true, ite_false]
  have hsub : ∀ searched, ∃ query,
      (buildSubstringSearchQuery name "a" { fields, search := "a" } searched >>= fun queries =>
        (.ok (false, queries) : Except HttpError (Bool × Select × Select))) = .ok (false, query) ∧
        IsFirst name [] query.1 :=
    fun searched => (buildSubstring_first name fields searched).imp fun query h =>
      ⟨by rw [h.1]; rfl, h.2⟩
  exact hsub _

theorem pgSearchQueries_first (name : String) (config : TableConfig) (fields : List String) :
    ∃ query, PG.searchQueries config name { fields, search := "a" } = .ok query ∧
      IsFirst name [] query.1 := by
  unfold PG.searchQueries
  split
  · exact buildSubstring_first name fields _
  · rename_i hfts
    refine ⟨_, rfl, ?_⟩
    simp only [hfts]
    exact ⟨rfl, rfl, rfl, rfl, rfl⟩

end FirstPage

/-- The columns that a read selects; a search selects all. -/
def ReadOp.columns (op : ReadOp) (fields : List String) : List String :=
  match op with
  | .list => fields
  | .search => []

theorem fetchPage_simple (op : ReadOp) {d : DatabaseDO} (env : Env) {config : TableConfig}
    {name : String} (hd : d.getTableConfig name = some config) (provider : DbProvider)
    (fields : List String) (rows : List Row) :
    (fetchPage op d env.onSimple config name (firstPage op fields) provider
      (.single name rows)).result =
      .ok (.ok { bound := none, options := (firstPage op fields).options, total := .ok none
                 rows := ((rows.take 100).map (onlyColumns (op.columns fields))).map
                   (cleanRow provider env.onSimple config) }) := by
  have hensure := ensureTableExists_of_has (d := d) (s := .single name rows) has_single
  cases op with
  | list =>
    have hprepare : ∀ env, prepareBoundedQuery env name (firstPage .list fields) false =
      .ok (none, { fields }) := fun _ => rfl
    cases provider with
    | «do» =>
      obtain ⟨query, hquery, hfirst⟩ := buildListQuery_first name fields .sqlite
      simp only [fetchPage, map_apply, DatabaseDO.fetchList]
      rw [bind_of_ok (congrArg Outcome.result hensure), hensure]
      simp only [hprepare, lift_ok_bind, emit_bind_apply,
        normalizeSQLiteBooleanQueryOptions_empty, hquery]
      rw [bind_of_ok (congrArg Outcome.result (runSelect_first env hfirst))]
      simp only [read_bind_apply, hd, pageTotal_of_not]
      rfl
    | d1 =>
      obtain ⟨query, hquery, hfirst⟩ := buildListQuery_first name fields .sqlite
      simp only [fetchPage, map_apply, D1.fetchList, D1.queryOptions, hprepare,
        lift_ok_bind, normalizeSQLiteBooleanQueryOptions_empty, hquery,
        read_bind_apply, id_eq, select_first env hfirst, pageTotal_of_not]
      rfl
    | neon | postgres =>
      obtain ⟨query, hquery, hfirst⟩ := buildListQuery_first name fields .postgres
      simp only [fetchPage, map_apply, PG.fetchList, hprepare, hquery,
        lift_ok_bind]
      rw [bind_of_ok (congrArg Outcome.result (runSelect_first env hfirst))]
      simp only [read_bind_apply, pageTotal_of_not]
      rfl
  | search =>
    have hprepare : ∀ env, prepareBoundedQuery env name (firstPage .search fields) true =
      .ok (none, { fields, search := "a" }) := fun _ => rfl
    have hterm : ¬("a" : String) = "" := by decide
    cases provider with
    | «do» =>
      obtain ⟨query, hquery, hfirst⟩ := searchQueries_first env.onSimple name config fields
        (firstPage .search fields)
      simp only [fetchPage, DatabaseDO.fetchSearch]
      rw [bind_of_ok (congrArg Outcome.result hensure), hensure]
      simp only [hprepare, lift_ok_bind, emit_bind_apply, hd,
        normalizeSQLiteBooleanQueryOptions_empty, if_neg hterm, hquery, read_bind_apply,
        id_eq, select_first env hfirst, pageTotal_of_not]
      rfl
    | d1 =>
      obtain ⟨query, hquery, hfirst⟩ := searchQueries_first env.onSimple name config fields
        { firstPage .search fields with highlightPre := "<mark>", highlightPost := "</mark>" }
      have hoptions : D1.queryOptions config { fields, search := "a" } =
        { fields, search := "a" } := normalizeSQLiteBooleanQueryOptions_empty _ _ _
      simp only [fetchPage, D1.fetchSearch, hprepare, lift_ok_bind, hoptions,
        if_neg hterm, hquery, read_bind_apply, id_eq, select_first env hfirst,
        pageTotal_of_not]
      rfl
    | neon | postgres =>
      obtain ⟨query, hquery, hfirst⟩ := pgSearchQueries_first name config fields
      simp only [fetchPage, PG.fetchSearch, hprepare, lift_ok_bind, if_neg hterm, hquery]
      rw [bind_of_ok (congrArg Outcome.result (runSelect_first env hfirst))]
      simp only [read_bind_apply, pageTotal_of_not, lift_ok_bind]
      rfl

theorem cleanRow_onSimple (provider : DbProvider) (env : Env) (config : TableConfig) :
    cleanRow provider env.onSimple config = cleanRow provider env config := by
  cases provider <;> rfl

def simplePage (op : ReadOp) (fields : List String) (rows : List Row) : ReadPage where
  bound := none
  options := (firstPage op fields).options
  rows := rows
  total := .ok none

theorem fetchPage_single (op : ReadOp) {d : DatabaseDO} (env : Env) {config : TableConfig}
    {name : String} (hd : d.getTableConfig name = some config) (provider : DbProvider)
    (fields : List String) (r : Row) :
    (fetchPage op d env.onSimple config name (firstPage op fields) provider
      (.single name [r])).result = .ok (.ok (simplePage op fields
        [cleanRow provider env config (onlyColumns (op.columns fields) r)])) := by
  have h := fetchPage_simple op env hd provider fields [r]
  rw [cleanRow_onSimple] at h
  exact h

end EdgeBase
