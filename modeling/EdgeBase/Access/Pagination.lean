import EdgeBase.Access.Requests
import EdgeBase.Lib.Paging
import Mathlib.Data.List.Sort
import Mathlib.Data.String.Basic

/-!
# Walking through a list

A client lists a table without a sort, and goes on with the cursor of the last page as long as the
answer says that there is more.  Does it receive every row that matches its filters once, in the
order of the ids, and stop?

* `ListParams.fetch` : one request of the walk; `ListWalk.Completes` : what the walk is for.
* `ListWalk.HoldsWhen` : when it is achieved; `ListWalk.completes_iff`.

The walks over the Durable Object and over D1 are walks over keyset pages, which differ in the
cursor that a page ends with.  On PostgreSQL the first page, which has no cursor, is the last one.
-/

namespace EdgeBase

open List Option Audited DatabaseDO Paging Assoc

/-! ### One page, as the client reads it -/

namespace Response

def itemList (r : Response) : List Json :=
  match r.items with
  | some (.arr items) => items
  | _ => []

def cursor (r : Response) : Option String :=
  match r.body.lookup "cursor" with
  | some (.str cursor) => some cursor
  | _ => none

/-- The cursor to go on with, if the answer says that there is more. -/
def next (r : Response) : Option (Option String) :=
  if r.body.lookup "hasMore" = some (.bool true) then some r.cursor else none

end Response

/-- A page: every returned row with the item that shows it. -/
def readPage (o : Outcome Store Event HttpError Response) :
    Option (Paging.Page (Option String) (Row × Json)) :=
  match o.result with
  | .error _ => none
  | .ok r => some ⟨(returnedRows o.log).zip r.itemList, r.next⟩

/-! ### The walk -/

/-- A stored table, a caller, and the filters and the page size of a list. -/
structure ListParams where
  provider : DbProvider
  object : DatabaseDO
  env : Env
  config : TableConfig
  caller : Caller
  name : String
  store : Store
  filters : List FilterTuple
  orFilters : List FilterTuple
  limit : Option ℕ
  perPage : Option ℕ

namespace ListParams

variable (p : ListParams)

def pagination (after : Option String) : PaginationOptions :=
  PaginationOptions.parse { limit := p.limit, perPage := p.perPage, after }

def size : ℕ := (p.pagination none).size

def request (after : Option String) : PageRequest where
  options := { filters := p.filters, orFilters := p.orFilters, pagination := p.pagination after }

def options (after : Option String) : QueryOptions :=
  match p.provider with
  | .do | .d1 => normalizeSQLiteBooleanQueryOptions (p.request after).options p.config.schema
  | .neon | .postgres => (p.request after).options

/-- The condition that a row matches the filters, and that it is beyond the cursor. -/
def conditions (after : Option String) : WhereClause where
  filters := (p.options none).filters
  orFilters := (p.options none).orFilters
  after := (p.pagination after).after

def query (after : Option String) : Select where
  table := p.name
  conditions := p.conditions after
  orderBy := [.column "id" false]
  limit := some (min p.size 1000)

/-- The rows that a cursor selects, in the order of their ids. -/
def selected (after : Option String) : List Row :=
  p.env.engine.order [.column "id" false]
    ((p.store.rows p.name).filter (p.env.engine.satisfies (p.conditions after)))

/-- The rows that match the filters, in the order of their ids. -/
def matching : List Row := p.selected none

/-- A row, as the handler returns it, and the item that shows it. -/
def shown (row : Row) : Row × Json :=
  let clean := cleanRow p.provider p.env p.config row
  (clean, .obj (enrichRecord p.config.hooks p.caller.auth clean))

def fetch (after : Option String) : Option (Paging.Page (Option String) (Row × Json)) :=
  readPage (handleRead .list p.object p.env p.config p.caller p.name (p.request after) p.provider
    p.store)

/-- The walk receives every row that matches once, in the order of the ids, and stops. -/
def Completes : Prop := Paging.Completes p.fetch none (p.matching.map p.shown)

/-- The id that `onEnrich` leaves on a row. -/
def enrichedId (row : Row) : String :=
  idText p.env (enrichRecord p.config.hooks p.caller.auth
    (cleanRow p.provider p.env p.config row))

/-- The id of the last item of every full page is not before that of its row, and before that of
the next row. -/
def KeepsIds : Prop :=
  ∀ k row, Paging.LastOfPage p.size p.matching k row →
    Paging.Cuts (p.env.engine.above (p.enrichedId row)) p.matching row (k * p.size)

/-- The page size is not zero, and a page that is larger than the database sends is not needed. -/
def FitsPages : Prop := p.size ≠ 0 ∧ (1000 < p.size → p.matching.length ≤ 1000)

def HoldsWhen : Prop :=
  match p.provider with
  | .do => p.FitsPages
  | .d1 => p.FitsPages ∧ (p.size ≤ 1000 → p.KeepsIds)
  | .neon | .postgres => p.matching.length ≤ min p.size 1000

end ListParams

/-- The database orders texts, and goes by this order in `id > ?` and in `ORDER BY id`. -/
structure SqlEngine.OrdersIds (e : SqlEngine) (less : String → String → Prop) : Prop where
  irrefl : ∀ a, ¬less a a
  trans : ∀ a b c, less a b → less b c → less a c
  total : ∀ a b, a ≠ b → less a b ∨ less b a
  least : ∀ a, a ≠ "" → less "" a
  above_iff : ∀ c r, e.above c r = true ↔ ∃ id, r.id = some id ∧ less c id
  perm : ∀ rows, (e.order [.column "id" false] rows).Perm rows
  sorted : ∀ rows, (e.order [.column "id" false] rows).Pairwise fun r r' =>
    ∀ a b, r.id = some a → r'.id = some b → ¬less b a

/-- A walk through a declared table, whose rows have ids of their own, with filters that the query
compiler knows and the database evaluates, by a caller who may read the rows that match. -/
structure ListWalk extends ListParams where
  less : String → String → Prop
  ordered : env.engine.OrdersIds less
  /-- The table is declared, and `validateConfig` accepts what its schema says about the id. -/
  declared : object.getTableConfig name = some config
  autoId : ∀ f ∈ config.schema.getD [], f.1 = "id" → f.2 = none
  present : store.has name = true
  ids : ∀ row ∈ store.rows name, ∃ id, row.id = some id ∧ id ≠ ""
  distinct : ((store.rows name).map Row.id).Nodup
  operators : ∀ t ∈ filters ++ orFilters, t.op ∈ filterOperators
  alternatives : orFilters.length ≤ 5
  evaluated : ∀ after, env.engine.queryFault (toListParams.query after) (store.rows name) = none
  /-- The caller is not refused outright, and may read every row that matches. -/
  admitted : isLiteralFalse (Worker.activeRule config .read caller) = false
  readable : ∀ row ∈ toListParams.matching,
    evalRowRule (Worker.activeRule config .read caller) caller.auth
      (cleanRow provider env config row) = true

/-! ### The id of a row -/

theorem buildEffectiveSchema_id (schema : Option UserSchema) :
    (buildEffectiveSchema schema).lookup "id" = none ∨
      (buildEffectiveSchema schema).lookup "id" = autoFields.lookup "id" := by
  cases schema with
  | none => exact .inr rfl
  | some schema =>
    have huser : (schema.filterMap fun f => if inAutoFields f.1 then none
        else f.2.map fun field => (f.1, field)).lookup "id" = none := by
      rw [lookup_eq_none_iff]
      rintro ⟨name, field⟩ hmem
      obtain ⟨f, -, hf⟩ := mem_filterMap.1 hmem
      split at hf
      · exact absurd hf nofun
      · rename_i hauto
        obtain ⟨_, -, heq⟩ := map_eq_some_iff.1 hf
        obtain ⟨rfl, -⟩ := Prod.mk.inj heq
        rw [bne_iff_ne]
        intro hid
        exact hauto (hid ▸ rfl)
    have hauto := lookup_restrict (fun k => schema.lookup k ≠ some none) autoFields "id"
    rw [restrict] at hauto
    simp only [buildEffectiveSchema, lookup_append, huser, hauto, or_none]
    split
    · exact .inr rfl
    · exact .inl rfl

theorem DatabaseDO.normalizeRow_lookup_id (env : Env) (row : Row) (config : Option TableConfig) :
    (DatabaseDO.normalizeRow env row config).lookup "id" = row.lookup "id" := by
  unfold DatabaseDO.normalizeRow
  cases tableSchema config with
  | none => rfl
  | some schema =>
    dsimp only
    rw [lookup_map_snd fun k => normalizeValue env ((buildEffectiveSchema (some schema)).lookup k)]
    have hkeep : normalizeValue env ((buildEffectiveSchema (some schema)).lookup "id") = id := by
      rcases buildEffectiveSchema_id (some schema) with h | h
      · rw [h]
        rfl
      · rw [h]
        rfl
    rw [hkeep, map_id_apply]

theorem D1.normalizeColumn_lookup_id (env : Env) (row : Row) (f : String × Option SchemaField)
    (h : f.1 = "id" → f.2 = none) :
    (D1.normalizeColumn env row f).lookup "id" = row.lookup "id" := by
  unfold D1.normalizeColumn
  by_cases hid : f.1 = "id"
  · rw [h hid]
  · have hset : ∀ v, (Assoc.set row f.1 v).lookup "id" = row.lookup "id" :=
      lookup_set_of_ne row (Ne.symm hid)
    have helim : ∀ {α : Type} (o : Option α) (g : α → Json),
        (o.elim row fun a => Assoc.set row f.1 (g a)).lookup "id" = row.lookup "id" := by
      intro α o g
      cases o with
      | none => rfl
      | some a => exact hset (g a)
    split
    · split
      · exact hset _
      · split
        · rfl
        · exact helim _ _
      · exact helim _ _
      · rfl
    · rfl

theorem D1.normalizeRow_lookup_id (env : Env) (row : Row) {config : TableConfig}
    (h : ∀ f ∈ config.schema.getD [], f.1 = "id" → f.2 = none) :
    (D1.normalizeRow env row config).lookup "id" = row.lookup "id" := by
  unfold D1.normalizeRow
  cases hschema : config.schema with
  | none => rfl
  | some schema =>
    rw [hschema, getD_some] at h
    dsimp only
    clear hschema
    induction schema generalizing row with
    | nil => rfl
    | cons f schema ih =>
      rw [foldl_cons, ih _ fun g hg => h g (mem_cons_of_mem _ hg)]
      exact D1.normalizeColumn_lookup_id env row f (h f mem_cons_self)

theorem cleanRow_id (provider : DbProvider) (env : Env) (row : Row) {config : TableConfig}
    (h : ∀ f ∈ config.schema.getD [], f.1 = "id" → f.2 = none) :
    (cleanRow provider env config row).id = row.id := by
  have hlookup : (cleanRow provider env config row).lookup "id" = row.lookup "id" := by
    cases provider with
    | «do» => exact DatabaseDO.normalizeRow_lookup_id env row (some config)
    | d1 =>
      refine (D1.normalizeRow_lookup_id env _ h).trans ?_
      exact (lookup_restrict _ row "id").trans (if_pos rfl)
    | neon | postgres =>
      rw [cleanRow, PG.stripInternalPgFields, lookup_restrict]
      exact if_pos (by decide)
  rw [Row.id, hlookup, Row.id]

/-! ### The statement of a request -/

theorem mapM_buildFilterCondition {filters : List FilterTuple}
    (h : ∀ t ∈ filters, t.op ∈ filterOperators) : filters.mapM buildFilterCondition = .ok filters := by
  induction filters with
  | nil => rfl
  | cons t filters ih =>
    have ht : buildFilterCondition t = .ok t := if_pos (h t mem_cons_self)
    rw [mapM_cons, ht, ih fun u hu => h u (mem_cons_of_mem _ hu)]
    rfl

theorem buildWhereClause_of_operators {filters orFilters : List FilterTuple}
    (h : ∀ t ∈ filters ++ orFilters, t.op ∈ filterOperators) (hlen : orFilters.length ≤ 5)
    (pagination : PaginationOptions) : buildWhereClause filters pagination orFilters =
      .ok { filters, orFilters, after := pagination.after, before := pagination.before } := by
  have hfilters := mapM_buildFilterCondition fun t ht => h t (mem_append_left _ ht)
  have hor := mapM_buildFilterCondition fun t ht => h t (mem_append_right _ ht)
  simp only [buildWhereClause, hfilters, hor, if_neg (Nat.not_lt.2 hlen)]
  rfl

theorem normalizeTuple_op (schema : UserSchema) (t : FilterTuple) :
    (normalizeTuple schema t).op = t.op := by
  unfold normalizeTuple
  split
  · split
    · split <;> rfl
    · rfl
  · rfl

namespace ListParams

variable (p : ListParams)

theorem options_eq (after : Option String) :
    p.options after = { filters := (p.options none).filters, orFilters := (p.options none).orFilters
                        pagination := p.pagination after } := by
  unfold options
  cases p.provider with
  | «do» | d1 => cases hschema : p.config.schema <;> rfl
  | neon | postgres => rfl

theorem options_op (h : ∀ t ∈ p.filters ++ p.orFilters, t.op ∈ filterOperators) :
    ∀ t ∈ (p.options none).filters ++ (p.options none).orFilters, t.op ∈ filterOperators := by
  have hmap : ∀ schema, ∀ t ∈ p.filters.map (normalizeTuple schema) ++
      p.orFilters.map (normalizeTuple schema), t.op ∈ filterOperators := by
    intro schema t ht
    rw [← map_append] at ht
    obtain ⟨u, hu, rfl⟩ := List.mem_map.1 ht
    rw [normalizeTuple_op]
    exact h u hu
  unfold options
  cases p.provider with
  | «do» | d1 =>
    cases hschema : p.config.schema with
    | none => exact h
    | some schema => exact hmap schema
  | neon | postgres => exact h

theorem options_orFilters_length : (p.options none).orFilters.length = p.orFilters.length := by
  unfold options
  cases p.provider with
  | «do» | d1 =>
    cases hschema : p.config.schema with
    | none => rfl
    | some schema => exact length_map _
  | neon | postgres => rfl

def page (after : Option String) : ReadPage where
  bound := none
  options := p.options after
  rows := ((p.selected after).take (min p.size 1000)).map (cleanRow p.provider p.env p.config)
  total := .ok none

theorem found_query (after : Option String) :
    p.env.engine.found (p.query after) (p.store.rows p.name) =
      (p.selected after).take (min p.size 1000) := by
  have hselects : p.env.engine.selects (p.query after) =
      p.env.engine.satisfies (p.conditions after) := by
    funext row
    exact Bool.and_true _
  have hproject : p.env.engine.project (p.query after) = id := rfl
  rw [SqlEngine.found, hselects, hproject, List.map_id]
  rfl

end ListParams

namespace ListWalk

variable (w : ListWalk)

variable (after : Option String)

theorem buildListQuery_eq (dialect : SqlDialect) :
    ∃ count, buildListQuery w.name (w.options after) dialect = .ok (w.query after, count) := by
  have hwhere : ∀ pagination, buildWhereClause (w.options none).filters pagination
      (w.options none).orFilters = .ok
        { filters := (w.options none).filters, orFilters := (w.options none).orFilters
          after := pagination.after, before := pagination.before } :=
    buildWhereClause_of_operators (w.options_op w.operators)
      (w.options_orFilters_length ▸ w.alternatives)
  have hlimit : buildLimitClause (w.pagination after) = (min w.size 1000, 0) := by
    cases after <;> simp [buildLimitClause, ListParams.pagination, ListParams.size,
      PaginationOptions.parse, PaginationOptions.size]
  rw [w.options_eq]
  simp only [buildListQuery, hwhere, hlimit]
  cases hcursor : (w.pagination after).isCursor with
  | true => exact ⟨_, rfl⟩
  | false => exact ⟨_, rfl⟩

theorem fetchPage_eq : (fetchPage .list w.object w.env w.config w.name (w.request after) w.provider
      w.store).result = .ok (.ok (w.page after)) := by
  have hensure := ensureTableExists_of_has (d := w.object) w.present
  have hprepare : prepareBoundedQuery w.env w.name (w.request after) false =
      .ok (none, (w.request after).options) := rfl
  have hselect : w.env.engine.select (w.query after) (w.store.rows w.name) =
      .ok ((w.selected after).take (min w.size 1000)) := by
    rw [SqlEngine.select_of_no_fault _ (w.evaluated after), w.found_query]
  have hrun : runSelect w.env (w.query after) w.store =
      ⟨.ok ((w.selected after).take (min w.size 1000)), w.store, []⟩ := by
    rw [runSelect_of_no_fault w.env (w.evaluated after)]
    exact congrArg (Outcome.mk · _ _) (congrArg Except.ok (w.found_query after))
  have htotal : ∀ store count, pageTotal w.env store (w.options after) count = .ok none := by
    rw [w.options_eq]
    exact pageTotal_of_not _ rfl
  have hpage : w.page after = ⟨none, w.options after, ((w.selected after).take
    (min w.size 1000)).map (cleanRow w.provider w.env w.config), .ok none⟩ := rfl
  rw [hpage]
  cases hprovider : w.provider with
  | «do» =>
    obtain ⟨count, hquery⟩ := w.buildListQuery_eq after .sqlite
    have hoptions : normalizeSQLiteBooleanQueryOptions (w.request after).options
        (tableSchema (some w.config)) = w.options after := by
      rw [ListParams.options, hprovider]
      rfl
    simp only [fetchPage, Audited.map_apply, DatabaseDO.fetchList]
    rw [bind_of_ok (congrArg Outcome.result hensure), hensure]
    simp only [hprepare, lift_ok_bind, emit_bind_apply, w.declared, hoptions,
      hquery]
    rw [bind_of_run hrun]
    simp only [read_bind_apply, htotal]
    rfl
  | d1 =>
    obtain ⟨count, hquery⟩ := w.buildListQuery_eq after .sqlite
    have hoptions : D1.queryOptions w.config (w.request after).options = w.options after := by
      rw [ListParams.options, hprovider]
      rfl
    simp only [fetchPage, Audited.map_apply, D1.fetchList, hprepare, lift_ok_bind, hoptions,
      hquery, read_bind_apply, id_eq, hselect, htotal]
    rfl
  | neon | postgres =>
    obtain ⟨count, hquery⟩ := w.buildListQuery_eq after .postgres
    have hoptions : (w.request after).options = w.options after := by
      rw [ListParams.options, hprovider]
    simp only [fetchPage, Audited.map_apply, PG.fetchList, hprepare, lift_ok_bind, hoptions,
      hquery]
    rw [bind_of_run hrun]
    simp only [read_bind_apply, htotal]
    rfl

/-! ### The rows that a cursor selects -/

/-- Two rows are in the order of their ids. -/
def Precedes (row row' : Row) : Prop :=
  ∃ a b, row.id = some a ∧ row'.id = some b ∧ w.less a b

/-- Whether a row is beyond the cursor of a request. -/
def beyond (after : Option String) (row : Row) : Bool :=
  (w.pagination after).after.all (w.env.engine.above · row)

theorem satisfies_eq (row : Row) : w.env.engine.satisfies (w.conditions after) row =
      (w.env.engine.satisfies (w.conditions none) row && w.beyond after row) := by
  simp only [SqlEngine.satisfies, ListParams.conditions, beyond]
  have hnone : (w.pagination none).after = none := rfl
  rw [hnone]
  simp only [all_none, Bool.and_true]

theorem selected_perm : (w.selected after).Perm
      ((w.store.rows w.name).filter (w.env.engine.satisfies (w.conditions after))) :=
  w.ordered.perm _

theorem selected_sub {row : Row} (h : row ∈ w.selected after) : row ∈ w.store.rows w.name :=
  mem_of_mem_filter ((w.selected_perm after).subset h)

theorem ids_distinct : (w.selected after).Pairwise fun row row' => row.id ≠ row'.id := by
  have hstored : (w.store.rows w.name).Pairwise fun row row' => row.id ≠ row'.id :=
    pairwise_map.1 w.distinct
  exact (hstored.filter _).perm (w.selected_perm after).symm fun h => h.symm

theorem selected_sorted : (w.selected after).Pairwise w.Precedes := by
  have hsorted := (w.ordered.sorted _).and (w.ids_distinct after)
  refine hsorted.imp_of_mem fun {row row'} hrow hrow' h => ?_
  obtain ⟨a, ha, -⟩ := w.ids row (w.selected_sub after hrow)
  obtain ⟨b, hb, -⟩ := w.ids row' (w.selected_sub after hrow')
  have hne : a ≠ b := fun hab => h.2 (by rw [ha, hb, hab])
  exact ⟨a, b, ha, hb, (w.ordered.total a b hne).resolve_right (h.1 a b ha hb)⟩

theorem not_precedes {row row' : Row} (h : w.Precedes row row') : ¬w.Precedes row' row := by
  obtain ⟨a, b, ha, hb, hab⟩ := h
  rintro ⟨b', a', hb', ha', hba⟩
  obtain rfl : b = b' := some.inj (hb.symm.trans hb')
  obtain rfl : a = a' := some.inj (ha.symm.trans ha')
  exact w.ordered.irrefl a (w.ordered.trans a b a hab hba)

theorem selected_eq (after : Option String) :
    w.selected after = w.matching.filter (w.beyond after) := by
  have hperm : (w.selected after).Perm (w.matching.filter (w.beyond after)) := by
    refine (w.selected_perm after).trans (List.Perm.trans ?_ ((w.selected_perm none).filter _).symm)
    rw [List.filter_filter]
    refine List.Perm.of_eq (filter_congr fun row _ => ?_)
    rw [w.satisfies_eq after, Bool.and_comm]
  refine hperm.eq_of_pairwise (fun row row' _ _ h h' => ?_) (w.selected_sorted after)
    ((w.selected_sorted none).filter _)
  exact absurd h' (w.not_precedes h)

theorem above_of_precedes {row row' : Row} (h : w.Precedes row row') {cursor : String}
    (habove : w.env.engine.above cursor row = true) : w.env.engine.above cursor row' = true := by
  obtain ⟨a, b, ha, hb, hab⟩ := h
  obtain ⟨a', ha', hcursor⟩ := (w.ordered.above_iff cursor row).1 habove
  obtain rfl : a = a' := some.inj (ha.symm.trans ha')
  exact (w.ordered.above_iff cursor row').2 ⟨b, hb, w.ordered.trans _ _ _ hcursor hab⟩

theorem beyond_some {row : Row} (h : row ∈ w.store.rows w.name) (cursor : String) :
    w.beyond (some cursor) row = w.env.engine.above cursor row := by
  by_cases hempty : cursor = ""
  · subst hempty
    obtain ⟨id, hid, hne⟩ := w.ids row h
    have habove := (w.ordered.above_iff "" row).2 ⟨id, hid, w.ordered.least id hne⟩
    rw [habove]
    rfl
  · have hafter : (w.pagination (some cursor)).after = some cursor := by
      simp [ListParams.pagination, PaginationOptions.parse, hempty]
    rw [beyond, hafter, all_some]

/-! ### The pages of the walk -/

/-- The rows that a cursor selects, with their items. -/
def rest (after : Option String) : List (Row × Json) := (w.selected after).map w.shown

/-- The cursor of a full page: the id of its last row, on D1 the id of the last item. -/
def mark (last : Option (Row × Json)) : Option String :=
  match w.provider with
  | .do => last.bind fun shown => shown.1.id
  | _ => last.map fun shown =>
    idText w.env (enrichRecord w.config.hooks w.caller.auth shown.1)

theorem page_allowed (after : Option String) : ∀ row ∈ (w.page after).rows,
    evalRowRule (Worker.activeRule w.config .read w.caller) w.caller.auth row = true := by
  intro row hrow
  obtain ⟨stored, hstored, rfl⟩ := List.mem_map.1 hrow
  have hmem := mem_of_mem_take hstored
  rw [w.selected_eq] at hmem
  exact w.readable stored (mem_of_mem_filter hmem)

theorem evalRowRule_object {row : Row}
    (h : evalRowRule (Worker.activeRule w.config .read w.caller) w.caller.auth row = true) :
    evalRowRule (DatabaseDO.activeRule (some w.config) .read w.caller) w.caller.auth row =
      true := by
  unfold DatabaseDO.activeRule
  unfold Worker.activeRule at h
  split
  · rfl
  · rename_i hkey
    rw [if_neg hkey] at h
    cases hrule : rowRule (some w.config) .read with
    | none => rfl
    | some rule =>
      rw [hrule] at h
      cases htruthy : rule.truthy with
      | true =>
        rw [filter_some_pos htruthy]
        exact h
      | false =>
        rw [filter_some_neg htruthy]
        rfl

/-- A row that the handler returns, and its item. -/
def paired (row : Row) : Row × Json := (row, .obj (enrichRecord w.config.hooks w.caller.auth row))

theorem rest_take (after : Option String) :
    (w.rest after).take (min w.size 1000) = (w.page after).rows.map w.paired := by
  rw [rest, ← map_take, ListParams.page, List.map_map]
  rfl

theorem page_size (after : Option String) : (w.page after).options.pagination.size = w.size := by
  rw [ListParams.page, w.options_eq]
  rfl

theorem fetch_of_answer {after : Option String} {r : Response}
    (hresult : (handleRead .list w.object w.env w.config w.caller w.name (w.request after)
      w.provider w.store).result = .ok r)
    (hlog : returnedRows (handleRead .list w.object w.env w.config w.caller w.name
      (w.request after) w.provider w.store).log = (w.page after).rows)
    (hitems : r.items = some (.arr (((w.page after).rows.map
      (enrichRecord w.config.hooks w.caller.auth)).map .obj))) :
    w.fetch after = some ⟨(w.rest after).take (min w.size 1000), r.next⟩ := by
  rw [ListParams.fetch, readPage, hresult]
  simp only [hlog, Response.itemList, hitems, List.map_map, w.rest_take]
  have hzip := zip_map' (f := id) (g := Json.obj ∘ enrichRecord w.config.hooks w.caller.auth)
    (l := (w.page after).rows)
  rw [List.map_id] at hzip
  rw [hzip]
  rfl

theorem listBody_next (page : ReadPage) (total : Option ℕ) (items : List Row) :
    Response.next ⟨200, listBody page total items⟩ =
      if page.rows.length = page.options.pagination.size then
        some (page.rows.getLast?.bind Row.id) else none := by
  have hmore : (listBody page total items).lookup "hasMore" =
      some (.bool (page.rows.length == page.options.pagination.size)) := by
    cases hcursor : page.options.pagination.isCursor <;>
      simp [listBody, hcursor, lookup_cons]
  have hcursor : Response.cursor ⟨200, listBody page total items⟩ =
      page.rows.getLast?.bind Row.id := by
    have hlookup : (listBody page total items).lookup "cursor" =
        page.rows.getLast?.bind (·.lookup "id") := by
      cases hcursor : page.options.pagination.isCursor <;>
        cases hid : page.rows.getLast?.bind (·.lookup "id") <;>
          simp [listBody, hcursor, hid, lookup_cons]
    rw [Response.cursor, hlookup]
    cases page.rows.getLast? with
    | none => rfl
    | some row => rfl
  rw [Response.next, hmore, hcursor]
  simp only [Option.some.injEq, Json.bool.injEq, beq_iff_eq]

theorem workerBody_next_d1 (env : Env) (page : ReadPage) (visible items : List Row) :
    Response.next ⟨200, workerBody .list env .d1 page visible items none⟩ =
      if items.length = page.options.pagination.size then
        some (items.getLast?.map (idText env)) else none := by
  have hmore : (workerBody .list env .d1 page visible items none).lookup "hasMore" =
      some (.bool (items.length == page.options.pagination.size)) := rfl
  have hlookup : (workerBody .list env .d1 page visible items none).lookup "cursor" =
      some (jsonOr .str (if items.length == page.options.pagination.size then
        items.getLast?.map (idText env) else none)) := rfl
  rw [Response.next, Response.cursor, hmore, hlookup]
  by_cases hfull : items.length = page.options.pagination.size
  · cases hlast : items.getLast? with
    | none => simp [hfull, jsonOr]
    | some row => simp [hfull, jsonOr]
  · simp [hfull]

theorem workerBody_next_pg (env : Env) {provider : DbProvider} (page : ReadPage)
    (visible items : List Row) (hprovider : provider = .neon ∨ provider = .postgres)
    (hcursor : page.options.pagination.isCursor = false) :
    Response.next ⟨200, workerBody .list env provider page visible items none⟩ = none := by
  have hmore : (workerBody .list env provider page visible items none).lookup "hasMore" =
      some .null := by
    rcases hprovider with rfl | rfl <;> simp [workerBody, PG.listTail, hcursor, lookup_cons]
  rw [Response.next, hmore]
  rfl

theorem fetch_object (h : w.provider = .do) (after : Option String) :
    w.fetch after = some (keyset w.rest w.size 1000 w.mark after) := by
  have hallowed : ∀ row ∈ (w.page after).rows, evalRowRule
      (DatabaseDO.activeRule (some w.config) .read w.caller) w.caller.auth row = true :=
    fun row hrow => w.evalRowRule_object (w.page_allowed after row hrow)
  have hpage := w.fetchPage_eq after
  rw [h] at hpage
  set items := (w.page after).rows.map (enrichRecord w.config.hooks w.caller.auth)
  have hresult : (handleRead .list w.object w.env w.config w.caller w.name (w.request after)
      w.provider w.store).result = .ok ⟨200, listBody (w.page after) none items⟩ := by
    rw [h, handleRead_do_of_allowed w.declared hpage hallowed]
    rfl
  have hlog := returnedRows_do_of_allowed w.declared hpage hallowed
  rw [← h] at hlog
  rw [w.fetch_of_answer hresult hlog rfl, listBody_next, w.page_size, keyset, w.rest_take,
    length_map, List.getLast?_map, mark, h]
  cases (w.page after).rows.getLast? <;> rfl

theorem fetch_worker (h : w.provider ≠ .do) (after : Option String) :
    w.fetch after = some ⟨(w.rest after).take (min w.size 1000),
      Response.next ⟨200, workerBody .list w.env w.provider (w.page after) (w.page after).rows
        ((w.page after).rows.map (enrichRecord w.config.hooks w.caller.auth)) none⟩⟩ := by
  have hvisible : Worker.visibleRows w.config w.caller (w.page after) = (w.page after).rows :=
    filter_eq_self.2 (w.page_allowed after)
  have hpage := w.fetchPage_eq after
  set items := (w.page after).rows.map (enrichRecord w.config.hooks w.caller.auth)
  have hresult : (handleRead .list w.object w.env w.config w.caller w.name (w.request after)
      w.provider w.store).result = .ok ⟨200, workerBody .list w.env w.provider (w.page after)
        (w.page after).rows items none⟩ := by
    rw [handleRead_worker h hpage w.admitted, hvisible]
    rfl
  have hlog := returnedRows_worker h hpage w.admitted
  rw [hvisible] at hlog
  exact w.fetch_of_answer hresult hlog rfl

theorem fetch_d1 (h : w.provider = .d1) (after : Option String) :
    w.fetch after = some (keyset w.rest w.size 1000 w.mark after) := by
  have hprovider : w.provider ≠ .do := by rw [h]; exact nofun
  rw [w.fetch_worker hprovider, h, workerBody_next_d1, w.page_size, length_map,
    List.getLast?_map, keyset, w.rest_take, length_map, List.getLast?_map, mark, h]
  cases (w.page after).rows.getLast? <;> rfl

theorem fetch_pg (h : w.provider = .neon ∨ w.provider = .postgres) :
    w.fetch none = some ⟨(w.rest none).take (min w.size 1000), none⟩ := by
  have hprovider : w.provider ≠ .do := by rcases h with h | h <;> rw [h] <;> exact nofun
  have hcursor : (w.page none).options.pagination.isCursor = false := by
    rw [ListParams.page, w.options_eq]
    rfl
  rw [w.fetch_worker hprovider, workerBody_next_pg w.env _ _ _ h hcursor]

/-! ### When a walk completes -/

theorem above_shown (cursor : String) (row : Row) :
    w.env.engine.above cursor (w.shown row).1 = w.env.engine.above cursor row := by
  have hid : (w.shown row).1.id = row.id := cleanRow_id w.provider w.env row w.autoId
  rw [Bool.eq_iff_iff, w.ordered.above_iff, w.ordered.above_iff, hid]

theorem rest_some (cursor : String) : w.rest (some cursor) =
      (w.matching.map w.shown).filter fun shown => w.env.engine.above cursor shown.1 := by
  have hshown : (fun shown : Row × Json => w.env.engine.above cursor shown.1) ∘ w.shown =
      w.env.engine.above cursor := funext fun row => w.above_shown cursor row
  rw [rest, w.selected_eq, List.filter_map, hshown]
  refine congrArg _ (filter_congr fun row hrow => ?_)
  exact w.beyond_some (w.selected_sub none hrow) cursor

theorem shown_nodup : (w.matching.map w.shown).Nodup := by
  refine pairwise_map.2 ((w.ids_distinct none).imp fun {row row'} hne heq => hne ?_)
  have hid : ∀ row, (w.shown row).1.id = row.id := fun row =>
    cleanRow_id w.provider w.env row w.autoId
  rw [← hid row, heq, hid row']

/-- A cursor resumes a page if and only if it cuts the matching rows where the page begins. -/
theorem resumes_iff (hsize : 0 < w.size) {k : ℕ} {row : Row}
    (hrow : Paging.LastOfPage w.size w.matching k row) (cursor : String) :
    Paging.Resumes w.rest w.size (w.matching.map w.shown) (some cursor) k ↔
      Paging.Cuts (w.env.engine.above cursor) w.matching row (k * w.size) := by
  have hpos : 0 < k * w.size := Nat.mul_pos hrow.1 hsize
  have hindex : k * w.size - 1 + 1 = k * w.size := by omega
  have hlast : (w.matching.map w.shown)[k * w.size - 1]? = some (w.shown row) := by
    rw [List.getElem?_map, hrow.2]
    rfl
  have hsorted : (w.matching.map w.shown).Pairwise fun a b =>
      w.env.engine.above cursor a.1 = true → w.env.engine.above cursor b.1 = true := by
    refine pairwise_map.2 ((w.selected_sorted none).imp fun {row row'} h => ?_)
    rw [w.above_shown, w.above_shown]
    exact w.above_of_precedes h
  rw [Paging.Resumes, w.rest_some, ← hindex,
    filter_resumes_iff hsize w.shown_nodup hsorted hlast, Paging.Cuts, Paging.Cuts,
    w.above_shown]
  refine and_congr_right fun _ => ⟨fun h next hnext => ?_, fun h next hnext => ?_⟩
  · have hshown : (w.matching.map w.shown)[k * w.size - 1 + 1]? = some (w.shown next) := by
      rw [List.getElem?_map, hnext]
      rfl
    rw [← w.above_shown]
    exact h _ hshown
  · rw [List.getElem?_map] at hnext
    obtain ⟨row', hrow', rfl⟩ := map_eq_some_iff.1 hnext
    rw [w.above_shown]
    exact h row' hrow'

theorem cuts_own (hsize : 0 < w.size) {k : ℕ} {row : Row}
    (hrow : Paging.LastOfPage w.size w.matching k row) {id : String} (hid : row.id = some id) :
    Paging.Cuts (w.env.engine.above id) w.matching row (k * w.size) := by
  refine ⟨?_, fun next hnext => ?_⟩
  · rw [← Bool.not_eq_true, w.ordered.above_iff]
    rintro ⟨id', hid', hless⟩
    obtain rfl : id = id' := some.inj (hid.symm.trans hid')
    exact w.ordered.irrefl id hless
  · have hpos : 0 < k * w.size := Nat.mul_pos hrow.1 hsize
    obtain ⟨hlt, hget⟩ := List.getElem?_eq_some_iff.1 hrow.2
    obtain ⟨hlt', hget'⟩ := List.getElem?_eq_some_iff.1 hnext
    have hprecedes : w.Precedes w.matching[k * w.size - 1] w.matching[k * w.size] :=
      pairwise_iff_getElem.1 (w.selected_sorted none) _ _ hlt hlt' (by omega)
    rw [hget, hget'] at hprecedes
    obtain ⟨a, b, ha, hb, hab⟩ := hprecedes
    obtain rfl : id = a := some.inj (hid.symm.trans ha)
    exact (w.ordered.above_iff id next).2 ⟨b, hb, hab⟩

/-- A walk over keyset pages completes if its pages fit, and the cursor of every full page cuts the
matching rows behind it. -/
theorem completes_keyset
    (hfetch : ∀ after, w.fetch after = some (keyset w.rest w.size 1000 w.mark after))
    {cursor : Row → String} (hmark : ∀ row ∈ w.matching, w.mark (some (w.shown row)) =
      some (cursor row)) :
    w.Completes ↔ w.FitsPages ∧ (w.size ≤ 1000 → ∀ k row, Paging.LastOfPage w.size w.matching k row →
      Paging.Cuts (w.env.engine.above (cursor row)) w.matching row (k * w.size)) := by
  have hstart : w.rest none = w.matching.map w.shown := rfl
  rcases Nat.eq_zero_or_pos w.size with hzero | hsize
  · have hnone : w.mark none = none := by
      unfold mark
      cases w.provider <;> rfl
    refine ⟨fun h => absurd h (not_keyset_completes_of_zero hfetch hzero hnone), ?_⟩
    exact fun h => absurd hzero h.1.1
  · rcases Nat.lt_or_ge 1000 w.size with hlarge | hfits
    · have hcap := keyset_completes_of_cap hfetch hstart hlarge
      rw [length_map] at hcap
      rw [ListParams.Completes, hcap]
      constructor
      · exact fun h => ⟨⟨by omega, fun _ => h⟩, fun hle => absurd hlarge (by omega)⟩
      · exact fun h => h.1.2 hlarge
    · rw [ListParams.Completes, keyset_completes_iff hfetch hsize hfits hstart]
      constructor
      · refine fun h => ⟨⟨by omega, by omega⟩, fun _ k row hrow => ?_⟩
        have hshown : Paging.LastOfPage w.size (w.matching.map w.shown) k (w.shown row) := by
          refine ⟨hrow.1, ?_⟩
          rw [List.getElem?_map, hrow.2]
          rfl
        have hresumes := h k _ hshown
        rw [hmark row (mem_of_getElem? hrow.2)] at hresumes
        exact (w.resumes_iff hsize hrow _).1 hresumes
      · rintro ⟨-, hcuts⟩ k shown ⟨hk, hget⟩
        rw [List.getElem?_map] at hget
        obtain ⟨row, hrow, rfl⟩ := map_eq_some_iff.1 hget
        rw [hmark row (mem_of_getElem? hrow)]
        exact (w.resumes_iff hsize ⟨hk, hrow⟩ _).2 (hcuts hfits k row ⟨hk, hrow⟩)

theorem completes_object (h : w.provider = .do) : w.Completes ↔ w.FitsPages := by
  have hmark : ∀ row ∈ w.matching, w.mark (some (w.shown row)) = some (row.id.getD "") := by
    intro row hrow
    obtain ⟨id, hid, -⟩ := w.ids row (w.selected_sub none hrow)
    have hshown : (w.shown row).1.id = some id :=
      (cleanRow_id w.provider w.env row w.autoId).trans hid
    rw [mark, h, hid]
    exact hshown
  rw [w.completes_keyset (w.fetch_object h) hmark]
  refine and_iff_left_of_imp fun hfits _ k row hrow => ?_
  obtain ⟨id, hid, -⟩ := w.ids row (w.selected_sub none (mem_of_getElem? hrow.2))
  rw [hid]
  exact w.cuts_own (Nat.pos_of_ne_zero hfits.1) hrow hid

theorem completes_d1 (h : w.provider = .d1) :
    w.Completes ↔ w.FitsPages ∧ (w.size ≤ 1000 → w.KeepsIds) := by
  have hmark : ∀ row ∈ w.matching, w.mark (some (w.shown row)) = some (w.enrichedId row) := by
    intro row _
    rw [mark, h]
    rfl
  exact w.completes_keyset (w.fetch_d1 h) hmark

theorem completes_pg (h : w.provider = .neon ∨ w.provider = .postgres) :
    w.Completes ↔ w.matching.length ≤ min w.size 1000 := by
  rw [ListParams.Completes, completes_of_stop (w.fetch_pg h)]
  change (w.matching.map w.shown).take (min w.size 1000) = w.matching.map w.shown ↔ _
  rw [take_eq_self_iff, length_map]

end ListWalk

/-- **Lists.**  A client that lists a table page by page receives every row that matches its filters
exactly once, in the order of the ids, and stops, if and only if the page size is neither zero nor
larger than what the database sends while that is needed, on D1 `onEnrich` keeps the ids of the last
rows of the pages in their place, and on PostgreSQL the first page holds everything. -/
theorem ListWalk.completes_iff (w : ListWalk) : w.Completes ↔ w.HoldsWhen := by
  unfold ListParams.HoldsWhen
  cases h : w.provider with
  | «do» => exact w.completes_object h
  | d1 => exact w.completes_d1 h
  | neon => exact w.completes_pg (.inl h)
  | postgres => exact w.completes_pg (.inr h)

/-! ### Walks that do not complete -/

def idLe (row row' : Row) : Prop := row.id.getD "" ≤ row'.id.getD ""

instance : DecidableRel idLe := fun row row' =>
  inferInstanceAs (Decidable (row.id.getD "" ≤ row'.id.getD ""))

instance : Std.Total idLe where
  total row row' := le_total (row.id.getD "") (row'.id.getD "")

instance : IsTrans Row idLe where
  trans _ _ _ := le_trans (α := String)

/-- The simple database, with rows in the order of their ids. -/
def SqlEngine.sorting : SqlEngine :=
  { SqlEngine.simple with order := fun _ rows => rows.insertionSort idLe }

theorem empty_lt {a : String} (h : a ≠ "") : "" < a := by
  rw [String.lt_iff_toList_lt]
  cases hlist : a.toList with
  | nil => exact absurd (String.toList_eq_nil_iff.1 hlist) h
  | cons c cs => exact nil_lt_cons c cs

theorem sorting_ordersIds : SqlEngine.sorting.OrdersIds (· < ·) where
  irrefl := lt_irrefl
  trans _ _ _ := lt_trans
  total _ _ := lt_or_gt_of_ne
  least _ := empty_lt
  above_iff c r := by
    change r.id.any (c < ·) = true ↔ _
    cases hid : r.id <;> simp
  perm rows := perm_insertionSort idLe rows
  sorted rows := by
    refine (pairwise_insertionSort idLe rows).imp fun {row row'} h a b ha hb => ?_
    rw [idLe, ha, hb] at h
    exact not_lt.2 h

/-- The table of a walk through two notes that anybody may read, in pages of a given size. -/
def notesParams (provider : DbProvider) (limit : ℕ) (hooks : TableHooks) : ListParams where
  provider
  object := .single "notes" { hooks }
  env := { Env.simple with engine := .sorting }
  config := { hooks }
  caller := { auth := none }
  name := "notes"
  store := .single "notes" [[("id", .str "a")], [("id", .str "b")]]
  filters := []
  orFilters := []
  limit := some limit
  perPage := none

theorem no_alternatives : ([] : List FilterTuple).length ≤ 5 := Nat.zero_le 5

def notes (provider : DbProvider) (limit : ℕ) (hooks : TableHooks) : ListWalk where
  toListParams := notesParams provider limit hooks
  less := (· < ·)
  ordered := sorting_ordersIds
  declared := getTableConfig_single
  autoId _ h := absurd h not_mem_nil
  present := has_single
  ids := by
    rw [notesParams, rows_single]
    simp [Row.id]
  distinct := by
    rw [notesParams, rows_single]
    simp [Row.id]
  operators _ h := absurd h not_mem_nil
  alternatives := no_alternatives
  evaluated _ := rfl
  admitted := rfl
  readable _ _ := rfl

theorem notes_matching_length (provider : DbProvider) (limit : ℕ) (hooks : TableHooks) :
    (notes provider limit hooks).matching.length = 2 := by
  rw [ListParams.matching, ((notes provider limit hooks).selected_perm none).length_eq]
  cases provider <;> rfl

def hidesId : TableHooks where
  onEnrich := some fun _ _ => .returns (some [("id", .str "")])

/-- The second of two notes does not arrive from PostgreSQL, and pages without rows, and on D1 pages
with a hidden id, never end. -/
theorem listWalk_counterexample : ¬(notes .postgres 1 {}).Completes ∧ ¬(notes .do 0 {}).Completes ∧
      ¬(notes .d1 1 hidesId).Completes := by
  refine ⟨?_, ?_, ?_⟩
  · rw [ListWalk.completes_pg _ (.inr rfl), notes_matching_length]
    decide
  · rw [ListWalk.completes_object _ rfl]
    exact fun h => h.1 rfl
  · rw [ListWalk.completes_d1 _ rfl]
    rintro ⟨-, hkeeps⟩
    obtain ⟨row, hrow⟩ : ∃ row, (notes .d1 1 hidesId).matching[0]? = some row :=
      ⟨_, List.getElem?_eq_getElem (by rw [notes_matching_length]; decide)⟩
    have hcuts := (hkeeps (by decide) 1 row ⟨Nat.one_pos, hrow⟩).1
    have habove : (notes .d1 1 hidesId).env.engine.above "" row = true := by
      obtain ⟨id, hid, hne⟩ := (notes .d1 1 hidesId).ids row
        ((notes .d1 1 hidesId).selected_sub none (mem_of_getElem? hrow))
      exact (sorting_ordersIds.above_iff "" row).2 ⟨id, hid, sorting_ordersIds.least id hne⟩
    have hhidden : (notes .d1 1 hidesId).enrichedId row = "" := by
      change idText _ (Assoc.set (cleanRow .d1 _ _ row) "id" (.str "")) = ""
      rw [idText, lookup_set_self]
    rw [hhidden, habove] at hcuts
    exact nomatch hcuts

end EdgeBase
