import EdgeBase.Access.ReadPage

/-!
# Requests for rows

A list, search or get request with a read rule: the rows that it fetches, and those that it returns.

* `ReadTable.Sees`, `ReadTable.returned` : what it fetches and what it returns.
* `ReadTable.returned_eq_decided` : it returns what the rule allows, all or nothing on the object.
-/

namespace EdgeBase

open List Audited DatabaseDO

/-! ### Requests -/

inductive ReadRequest where
  | page (op : ReadOp) (q : PageRequest)
  | get (id : String) (fields : List String)

namespace ReadRequest

def isSearch : ReadRequest → Bool
  | page op _ => op = .search
  | get _ _ => false

def handle (provider : DbProvider) (d : DatabaseDO) (env : Env) (config : TableConfig)
    (caller : Caller) (name : String) : ReadRequest → Handler Response
  | page op q => handleRead op d env config caller name q provider
  | get id fields =>
    match provider with
    | .do => d.get env caller name id fields
    | .d1 => D1.handleGet env config caller name id fields
    | .neon | .postgres => PG.handleGet env config caller name id fields

end ReadRequest

def returnedRows (log : List Event) : List Row :=
  log.filterMap fun
    | .touched .read _ row => some row
    | _ => none

section Logged

variable {op : ReadOp} {provider : DbProvider} {d : DatabaseDO} {env : Env} {config : TableConfig}
  {caller : Caller} {name : String} {q : PageRequest} {s : Store} {page : ReadPage}

theorem returnedRows_append (l m : List Event) :
    returnedRows (l ++ m) = returnedRows l ++ returnedRows m :=
  filterMap_append

theorem returnedRows_touched (name : String) (rows : List Row) :
    returnedRows (rows.map (.touched .read name)) = rows := by
  rw [returnedRows, filterMap_map]
  exact filterMap_some

theorem returnedRows_of_ensures {α : Type} {Q : α → Prop} {m : Handler α}
    (h : Audited.Ensures (fun _ => True) (fun event => returnedRows [event] = []) Q m) (s : Store) :
    returnedRows (m s).log = [] :=
  filterMap_eq_nil_iff.2 fun event hevent => by
    have hnone := (h s trivial).2.1 event hevent
    exact (filterMap_eq_nil_iff.1 hnone) event (mem_singleton_self _)

theorem returnedRows_fetchPage :
    returnedRows (fetchPage op d env config name q provider s).log = [] :=
  returnedRows_of_ensures (ensures_fetchPage provider fun _ =>
    (ensures_ensureTableExists fun _ _ => rfl).weaken fun _ _ => rfl) s

theorem returnedRows_emitAll (rows : List Row) {respond : Handler Response}
    (hrespond : (respond s).log = []) :
    returnedRows ((Audited.emitAll (rows.map (.touched .read name)) >>= fun _ =>
      respond : Handler Response) s).log = rows := by
  rw [emitAll_bind_apply, returnedRows_append, returnedRows_touched, hrespond]
  exact append_nil _

theorem returnedRows_do_of_allowed (hd : d.getTableConfig name = some config)
    (hpage : (fetchPage op d env config name q .do s).result = .ok (.ok page))
    (h : ∀ row ∈ page.rows,
      evalRowRule (DatabaseDO.activeRule (some config) .read caller) caller.auth row = true) :
    returnedRows (handleRead op d env config caller name q .do s).log = page.rows := by
  have hcheck := checkRows_of_all env name h
  rw [handleRead_do, bind_of_ok hpage]
  dsimp only
  rw [returnedRows_append, returnedRows_fetchPage, nil_append]
  cases op with
  | list =>
    simp only [answerFetched, DatabaseDO.answerList, hd, hcheck, pure_bind']
    exact returnedRows_emitAll _ rfl
  | search =>
    simp only [answerFetched, DatabaseDO.answerSearch, hd, hcheck, pure_bind']
    exact returnedRows_emitAll _ rfl

/-- D1 and PostgreSQL return the rows of a page that the rule allows, unless they refuse every
request. -/
theorem returnedRows_worker (hprovider : provider ≠ .do)
    (hpage : (fetchPage op d env config name q provider s).result = .ok (.ok page))
    (hguard : isLiteralFalse (Worker.activeRule config .read caller) = false) :
    returnedRows (handleRead op d env config caller name q provider s).log =
      Worker.visibleRows config caller page := by
  obtain ⟨error, -, heq⟩ := handleRead_worker_eq op d env config caller name q hprovider
  rw [heq, Worker.guardRead, check_bind, if_pos (by simp [hguard]),
    bind_of_ok hpage]
  dsimp only
  rw [returnedRows_append, returnedRows_fetchPage, nil_append]
  cases op with
  | list => exact returnedRows_emitAll _ rfl
  | search => exact returnedRows_emitAll _ rfl

end Logged

namespace ReadTable

variable (t : ReadTable) (provider : DbProvider) (d : DatabaseDO) (env : Env) (s : Store)

def returned (req : ReadRequest) : List Row :=
  returnedRows (req.handle provider d env t.config t.caller t.name s).log

def Sees (rows : List Row) : ReadRequest → Prop
  | .page op q => ∃ page, t.Fetches op provider d env q s page ∧ page.rows = rows
  | .get id fields =>
    ∃ found, env.engine.select (buildGetQuery t.name id fields) (s.rows t.name) = .ok found ∧
      (found.take 1).map (cleanRow provider env t.config) = rows

/-- The rows to return when the rule decides on the full rows: the object refuses the request when
one is denied, D1 and PostgreSQL drop those that are. -/
def decided (rows full : List Row) : List Row :=
  match provider with
  | .do => if ∀ row ∈ full, t.Allows row then rows else []
  | .d1 | .neon | .postgres => ((rows.zip full).filter fun p => t.Allows p.2).map Prod.fst

/-! ### What a request returns -/

section Returned

variable {t : ReadTable} {provider : DbProvider} {d : DatabaseDO} {env : Env} {s : Store}
  {op : ReadOp} {q : PageRequest} {page : ReadPage} {rows : List Row}

theorem returned_page_do (hd : d.getTableConfig t.name = some t.config)
    (hpage : t.Fetches op .do d env q s page) :
    t.returned .do d env s (.page op q) =
      if ∀ row ∈ page.rows, evalRowRule (DatabaseDO.activeRule (some t.config) .read t.caller)
        t.caller.auth row = true then page.rows else [] := by
  by_cases hall : ∀ row ∈ page.rows, evalRowRule
      (DatabaseDO.activeRule (some t.config) .read t.caller) t.caller.auth row = true
  · rw [if_pos hall]
    exact returnedRows_do_of_allowed hd hpage hall
  · rw [if_neg hall]
    simp only [Classical.not_forall] at hall
    obtain ⟨row, hrow, hdenied⟩ := hall
    obtain ⟨message, hcheck⟩ := checkRows_of_denied env t.name hrow
      (Bool.not_eq_true _ ▸ hdenied)
    rw [returned, ReadRequest.handle, handleRead_do, bind_of_ok hpage]
    dsimp only
    rw [returnedRows_append, returnedRows_fetchPage, nil_append]
    cases op with
    | list =>
      simp only [answerFetched, DatabaseDO.answerList, hd, hcheck, fail_bind]
      rfl
    | search =>
      simp only [answerFetched, DatabaseDO.answerSearch, hd, hcheck, fail_bind]
      rfl

theorem decided_self_worker (hprovider : provider ≠ .do) :
    t.decided provider rows rows = rows.filter fun row => t.Allows row := by
  have hzip : rows.zip rows = rows.map fun row => (row, row) := by
    simpa using zip_map' (f := id) (g := id) (l := rows)
  cases provider with
  | «do» => exact absurd rfl hprovider
  | d1 | neon | postgres =>
    simp only [decided, hzip, filter_map, map_map]
    exact map_id _

theorem returned_page_worker (hprovider : provider ≠ .do)
    (hpage : t.Fetches op provider d env q s page) :
    t.returned provider d env s (.page op q) = t.decided provider page.rows page.rows := by
  have hrule := workerRule (t := t)
  rw [decided_self_worker hprovider]
  cases hguard : isLiteralFalse (Worker.activeRule t.config .read t.caller) with
  | false =>
    rw [returned, ReadRequest.handle, returnedRows_worker hprovider hpage hguard,
      Worker.visibleRows, hrule]
    exact filter_congr fun row _ => Bool.decide_eq_true.symm
  | true =>
    -- the literal `false` allows no row
    obtain ⟨error, -, heq⟩ := handleRead_worker_eq op d env t.config t.caller t.name q hprovider
    have hfalse := hguard
    rw [hrule, isLiteralFalse_iff] at hfalse
    rw [returned, ReadRequest.handle, heq, Worker.guardRead, check_bind,
      if_neg (by simp [hguard]), filter_eq_nil_iff.2 fun row _ => by simp [Allows, hfalse]]
    rfl

theorem ensureTableExists_rows (hd : d.getTableConfig t.name = some t.config) :
    (d.ensureTableExists t.name s).result = .ok () ∧
      (d.ensureTableExists t.name s).state.rows t.name = s.rows t.name := by
  cases hhas : s.has t.name with
  | true => simp [ensureTableExists_of_has hhas]
  | false =>
    have hinit : d.ensureTableExists t.name s = initTable t.name t.config s := by
      simp [ensureTableExists, hhas, hd]
    rw [hinit, initTable, read_bind_apply]
    split
    · exact ⟨rfl, rfl⟩
    · exact ⟨rfl, s.rows_foldl_addTable _ t.name⟩

theorem returned_get_worker {id : String} {fields : List String} {found : List Row}
    (hfound : env.engine.select (buildGetQuery t.name id fields) (s.rows t.name) = .ok found)
    (clean : Row → Row) (denied : HttpError) :
    returnedRows (Worker.handleGet clean denied env t.config t.caller t.name id fields s).log =
      ((found.take 1).map clean).filter fun row => t.Allows row := by
  have hrun : (runSelect env (buildGetQuery t.name id fields) s).result = .ok found := hfound
  have hauth : t.caller.auth = t.auth := rfl
  rw [Worker.handleGet, bind_of_ok hrun]
  cases found with
  | nil => rfl
  | cons row rest =>
    have htake : (row :: rest).take 1 = [row] := rfl
    simp only [check_bind, workerRule, hauth, htake, map_cons, map_nil]
    by_cases hallows : evalRowRule (some t.rule) t.auth (clean row) = true
    · have hfilter : [clean row].filter (fun row => t.Allows row) = [clean row] :=
        filter_eq_self.2 (forall_mem_singleton.2 (decide_eq_true hallows))
      rw [if_pos hallows, hfilter]
      rfl
    · have hfilter : [clean row].filter (fun row => t.Allows row) = [] :=
        filter_eq_nil_iff.2 (forall_mem_singleton.2 fun h =>
          hallows (of_decide_eq_true h))
      rw [if_neg hallows, hfilter]
      rfl

theorem decided_singleton (row full : Row) :
    t.decided .do [row] [full] = if t.Allows full then [row] else [] := by
  simp [decided]

theorem returned_get_do (hd : d.getTableConfig t.name = some t.config)
    {id : String} {fields : List String} {found : List Row}
    (hfound : env.engine.select (buildGetQuery t.name id fields) (s.rows t.name) = .ok found) :
    t.returned .do d env s (.get id fields) =
      if ∀ row ∈ (found.take 1).map (cleanRow .do env t.config), evalRowRule
        (DatabaseDO.activeRule (some t.config) .read t.caller) t.caller.auth row = true then
        (found.take 1).map (cleanRow .do env t.config) else [] := by
  obtain ⟨hensure, hrows⟩ := ensureTableExists_rows (s := s) hd
  have hlog : returnedRows (d.ensureTableExists t.name s).log = [] :=
    returnedRows_of_ensures (ensures_ensureTableExists fun _ _ => rfl) s
  have hrun : (runSelect env (buildGetQuery t.name id fields)
      (d.ensureTableExists t.name s).state).result = .ok found := by
    rw [← hrows] at hfound
    exact hfound
  rw [returned, ReadRequest.handle, DatabaseDO.get, bind_of_ok hensure]
  dsimp only
  rw [returnedRows_append, hlog, nil_append, bind_of_ok hrun]
  cases found with
  | nil => rfl
  | cons row rest =>
    have htake : (row :: rest).take 1 = [row] := rfl
    simp only [emit_bind_apply, hd, check_bind, htake, map_cons, map_nil,
      forall_mem_singleton, cleanRow]
    split <;> rfl

/-- What the object returns of the rows that a request fetches: all of them or nothing, by the rule
that its guard lets pass. -/
theorem returned_do (hd : d.getTableConfig t.name = some t.config) {req : ReadRequest}
    (hrows : t.Sees .do d env s rows req) :
    t.returned .do d env s req =
      if ∀ row ∈ rows, evalRowRule (DatabaseDO.activeRule (some t.config) .read t.caller)
        t.caller.auth row = true then rows else [] := by
  cases req with
  | page op q =>
    obtain ⟨page, hpage, rfl⟩ := hrows
    exact returned_page_do hd hpage
  | get id fields =>
    obtain ⟨found, hfound, rfl⟩ := hrows
    exact returned_get_do hd hfound

theorem returned_eq_decided (h : provider = .do → t.rule ≠ .bool false)
    (hd : d.getTableConfig t.name = some t.config) {req : ReadRequest}
    (hrows : t.Sees provider d env s rows req) :
    t.returned provider d env s req = t.decided provider rows rows := by
  by_cases hprovider : provider = .do
  · subst hprovider
    rw [returned_do hd hrows, objectRule (h rfl)]
    rfl
  · cases req with
    | page op q =>
      obtain ⟨page, hpage, rfl⟩ := hrows
      exact returned_page_worker hprovider hpage
    | get id fields =>
      obtain ⟨found, hfound, rfl⟩ := hrows
      rw [decided_self_worker hprovider]
      cases provider with
      | «do» => exact absurd rfl hprovider
      | d1 | neon | postgres => exact returned_get_worker hfound _ _

end Returned

end ReadTable

end EdgeBase
