import EdgeBase.Access.BoundedPages
import EdgeBase.Access.Pagination
import EdgeBase.Cursors.Calls
import EdgeBase.Lib.CutPages

/-!
# Walking through a list in bounded pages

A client lists a table on D1 with a bound on the bytes of an answer, and repeats the request with
the cursor of the last answer as long as the answer says that there is more.  Does it receive every
row that its rule lets it see once, in the order of the ids, in answers that keep within the bound
and have as many rows as fit?

* `BoundedParams`, `BoundedTable` : a table, the parameters of a request, and what holds of them.

The pages of a walk are those of a `CutPages.Reader`.
-/

namespace EdgeBase

open List BoundedPage Json Cursors

structure BoundedParams extends ListParams where
  bound : ℕ
  includeTotal : Bool
  /-- Whether the request says that it wants the order `id:asc`. -/
  sorted : Bool
  fields : List String
  numberText : ℚ → String
  /-- `toISOString`, on milliseconds. -/
  iso : ℕ → String

/-- When a request comes, after the one before, and the tokens that it may draw. -/
structure Visit where
  wait : ℕ
  draws : List ResponseToken

/-- An answer, and the record that its request went on from. -/
structure BoundedAnswer where
  after : Option String
  response : Response

namespace BoundedParams

variable (p : BoundedParams)

/-! ### The rows -/

def clean (row : Row) : Row := cleanRow .d1 p.env p.config (onlyColumns p.fields row)

/-- Whether the read rule allows a row. -/
def visible (row : Row) : Bool :=
  evalRowRule (Worker.activeRule p.config .read p.caller) p.caller.auth (p.clean row)

def item (row : Row) : Row := enrichRecord p.config.hooks p.caller.auth (p.clean row)

/-- The rows that the caller may see, in the order of their ids. -/
def visibleRows : List Row := p.matching.filter p.visible

/-! ### A request -/

def request (token : Option String) : PageRequest where
  options :=
    { filters := p.filters, orFilters := p.orFilters, pagination := p.pagination none
      sort := if p.sorted then [⟨"id", some "asc"⟩] else []
      fields := p.fields, includeTotal := p.includeTotal }
  maxResponseBytes := some p.bound
  responseAfter := token

/-- The statement of a request that goes on from a record. -/
def query (after : Option String) : Select :=
  { p.toListParams.query after with columns := p.fields }

def countQuery : Select where
  table := p.name
  conditions := p.conditions none

/-- The exact total, which is counted on the first page, if the request asks for it. -/
def total (after : Option String) : Option ℕ :=
  if p.includeTotal ∧ after = none then
    some ((p.store.rows p.name).filter (p.env.engine.selects p.countQuery)).length
  else none

def fetched (rows : List Row) : List Row := rows.take (min p.size 1000)

def page (rows : List Row) (total : Option ℕ) : BoundedPage where
  maxResponseBytes := p.bound
  tableName := p.name
  entries := ((p.fetched rows).filter p.visible).map fun row =>
    (p.item row, idText p.env (p.clean row))
  total
  perPage := p.size
  sourceHasMore := (p.fetched rows).length == p.size
  sourceCursorRecordId := lastRecordId p.env ((p.fetched rows).map p.clean)

/-- The page of a request that goes on from a record. -/
def pageAfter (after : Option String) : BoundedPage := p.page (p.selected after) (p.total after)

/-! ### The walk -/

section Visit

variable (s : CursorState) (draws : List ResponseToken) (token : Option String)

/-- The table of cursors when the cursor of the request has been resolved. -/
def resolvedState : CursorState := token.elim s (resolveAlone s p.name)

/-- The platform of a request: its cursors are those of the table. -/
def requestEnv : Env :=
  { p.env with
    resolveCursor := fun tableName token => Cursors.resolved s tableName token
    issueCursor := fun tableName recordId =>
      (Cursors.issued (p.resolvedState s token) draws tableName recordId).map fun c =>
        (c.1, p.iso c.2)
    cursorExpiry := p.iso (s.clock + responseCursorTtlMs) }

def resolvedAfter : Except HttpError (Option String) :=
  match token with
  | none => .ok none
  | some token => (Cursors.resolved s p.name token).map some

def stateAfter (after : Option String) : CursorState :=
  match (p.pageAfter after).recordId p.numberText with
  | some recordId => issueAlone (p.resolvedState s token) draws p.name recordId
  | none => p.resolvedState s token

/-- One request: its answer, and the table of cursors after it. -/
def visit : Option (BoundedAnswer × CursorState) :=
  match p.resolvedAfter s token,
    (handleRead .list p.object (p.requestEnv s draws token) p.config p.caller p.name
      (p.request token) p.provider p.store).result with
  | .ok after, .ok response =>
    if response.status = 200 then some (⟨after, response⟩, p.stateAfter s draws token after)
    else none
  | _, _ => none

end Visit

/-- The table of cursors when a request comes. -/
def tick (s : CursorState) (wait : ℕ) : CursorState := { s with clock := s.clock + wait }

/-- A walk of at most `n` requests: its answers, if it ends. -/
def walk : ℕ → (ℕ → Visit) → CursorState → Option String → Option (List BoundedAnswer)
  | 0, _, _, _ => none
  | n + 1, visits, s, token =>
    match p.visit (tick s (visits 0).wait) (visits 0).draws token with
    | none => none
    | some (answer, s') =>
      match answer.response.next with
      | some next => (walk n (fun k => visits (k + 1)) s' next).map (answer :: ·)
      | none => some [answer]

/-! ### What it is for -/

/-- Whether an answer says that it has left out an item that is too long. -/
def oversized (r : Response) : Bool := r.body.lookup "oversizedItem" == some (.bool true)

/-- The length of the body in which the first `k` visible rows of a page are shown, with a cursor,
if the body states it. -/
def States (after : Option String) (k : ℕ) (cursor : String × String) (length : ℕ) : Prop :=
  p.env.jsonBytes (.obj (withReturnedBytes ((p.pageAfter after).payload k cursor) length)) = length

/-- An answer keeps within the bound and shows some rows, or announces one that is too long; all
pages with more rows are too long. -/
structure Shows (a : BoundedAnswer) (part : List Row) : Prop where
  within : p.env.jsonBytes (.obj a.response.body) ≤ p.bound
  stated : a.response.body.lookup "returnedBytes" =
    some (jsonNat (p.env.jsonBytes (.obj a.response.body)))
  rows : part = ((p.fetched (p.selected a.after)).filter p.visible).take
    (max 1 a.response.itemList.length)
  shown : oversized a.response = false ∧ a.response.itemList = part.map (.obj ∘ p.item) ∨
    oversized a.response = true ∧ a.response.itemList = [] ∧ part.length = 1
  most : ∀ k, a.response.itemList.length < k →
    k ≤ ((p.fetched (p.selected a.after)).filter p.visible).length →
    ∀ cursor, StandardSize cursor → ∀ length, p.States a.after k cursor length → p.bound < length

/-- How the pages are made.  Only the page that begins with the first row announces the total. -/
def reader : CutPages.Reader Row where
  size := p.size
  cap := 1000
  visible := p.visible
  room rows := (p.page rows (if rows.length = p.matching.length then p.total none else none)).cut
    p.numberText

/-- The page size is not zero; and if it is larger than what the database sends, then behind each
page on which everything has room that it has fetched there is nothing more to see. -/
def HoldsWhen : Prop := p.size ≠ 0 ∧ (1000 < p.size → p.reader.Exhausts p.matching)

end BoundedParams

/-- The year 10000, in milliseconds; until then, the text of a time has 24 characters. -/
def yearTenThousand : ℕ := 253402300800000

/-- The requests of a walk come while the last cursor lives, and before the year 10000, and each may
draw a token that is not in the table. -/
def BoundedParams.Served (p : BoundedParams) :
    ℕ → (ℕ → Visit) → CursorState → Option String → Prop
  | 0, _, _, _ => True
  | n + 1, visits, s, token =>
    (visits 0).wait < responseCursorTtlMs ∧
    s.clock + (visits 0).wait + responseCursorTtlMs < yearTenThousand ∧
    (∃ drawn ∈ (visits 0).draws.take 3, ∀ row ∈ s.store, row.token ≠ drawn.1) ∧
    ∀ answer s', p.visit (tick s (visits 0).wait) (visits 0).draws token = some (answer, s') →
      ∀ next, answer.response.next = some next → p.Served n (fun k => visits (k + 1)) s' next

/-- A list of a table on D1, whose rows have ids of their own, with filters that the query compiler
knows and the database evaluates, by a caller who is not refused outright. -/
structure BoundedTable extends BoundedParams where
  less : String → String → Prop
  d1 : provider = .d1
  ordered : env.engine.OrdersIds less
  /-- `validateConfig` accepts what the schema says about the id. -/
  autoId : ∀ f ∈ config.schema.getD [], f.1 = "id" → f.2 = none
  present : store.has name = true
  ids : ∀ row ∈ store.rows name, ∃ id, row.id = some id ∧ id ≠ ""
  distinct : ((store.rows name).map Row.id).Nodup
  operators : ∀ t ∈ filters ++ orFilters, t.op ∈ filterOperators
  alternatives : orFilters.length ≤ 5
  evaluated : ∀ after, env.engine.queryFault (toBoundedParams.query after) (store.rows name) = none
  counted : includeTotal = true →
    env.engine.queryFault toBoundedParams.countQuery (store.rows name) = none
  admitted : isLiteralFalse (Worker.activeRule config .read caller) = false
  accepted : minMaxResponseBytes ≤ bound
  identified : fields ≠ [] → "id" ∈ fields
  writes : env.WritesJson numberText
  short : ∀ q, (numberText q).utf8ByteSize ≤ 25
  isoSize : ∀ t < yearTenThousand, (quote (iso t)).utf8ByteSize = 26
  /-- No text has more than 2⁵³ code units. -/
  texts : Json.bytes numberText
    (.arr (toListParams.matching.map (.obj ∘ toBoundedParams.item))) < 2 ^ 55

/-- A walk through the table: the requests come in time, and the cursors have keys. -/
structure BoundedWalk extends BoundedTable where
  visits : ℕ → Visit
  cursors : CursorState
  keyed : Cursors.Keyed cursors.store
  served : ∀ n, toBoundedParams.Served n visits cursors none

/-- The walk ends, and its answers show or announce every row that the caller may see once, in the
order of the ids. -/
def BoundedWalk.Completes (w : BoundedWalk) : Prop :=
  ∃ n answers parts, w.walk n w.visits w.cursors none = some answers ∧
    List.Forall₂ w.Shows answers parts ∧ parts.flatten = w.visibleRows

theorem lookup_id_of_id {row : Row} {id : String} (h : row.id = some id) :
    row.lookup "id" = some (.str id) := by
  rw [Row.id] at h
  split at h
  next s hlookup =>
    rw [hlookup, Option.some.inj h]
  next => cases h

/-! ### Cursors as texts -/

theorem escapeChar_of_plain {c : Char} (hlow : 32 ≤ c.toNat) (hhigh : c.toNat < 127)
    (hquote : c.toNat ≠ 34) (hslash : c.toNat ≠ 92) : (escapeChar c).utf8ByteSize = 1 := by
  have hsize : c.utf8Size = 1 := by
    rw [Char.utf8Size_eq_one_iff, UInt32.le_iff_toNat_le]
    exact Nat.le_of_lt_succ hhigh |>.trans (by decide)
  unfold escapeChar
  split
  all_goals first | omega | skip
  rw [if_neg (by omega), String.utf8ByteSize_singleton, hsize]

theorem utf8ByteSize_escape {cs : List Char} (h : ∀ c ∈ cs, (escapeChar c).utf8ByteSize = 1) :
    (Json.escape cs).utf8ByteSize = cs.length := by
  induction cs with
  | nil => rfl
  | cons c cs ih =>
    rw [Json.escape, String.utf8ByteSize_append, h c mem_cons_self,
      ih fun d hd => h d (mem_cons_of_mem c hd), length_cons, Nat.add_comm]

theorem toNat_of_isAlphanum {c : Char} (h : c.isAlphanum = true) :
    48 ≤ c.toNat ∧ c.toNat ≤ 122 ∧ c.toNat ≠ 92 := by
  have hnat : c.toNat = c.val.toNat := rfl
  delta Char.isAlphanum Char.isAlpha Char.isUpper Char.isLower Char.isDigit at h
  simp only [Bool.or_eq_true, Bool.and_eq_true, decide_eq_true_eq, ge_iff_le,
    UInt32.le_iff_toNat_le] at h
  have hbounds : 'A'.val.toNat = 65 ∧ 'Z'.val.toNat = 90 ∧ 'a'.val.toNat = 97 ∧
      'z'.val.toNat = 122 ∧ '0'.val.toNat = 48 ∧ '9'.val.toNat = 57 := by decide
  omega

theorem utf8ByteSize_quote_token {token : String} (h : isResponseCursor token = true) :
    (quote token).utf8ByteSize = 63 := by
  unfold isResponseCursor at h
  simp only [Bool.and_eq_true, beq_iff_eq, all_eq_true] at h
  obtain ⟨⟨hstart, hlength⟩, hrest⟩ := h
  have hsplit : token.toList = responseCursorPrefix.toList ++ token.toList.drop 29 := by
    rw [← hstart, take_append_drop]
  have hplain : ∀ c ∈ token.toList, (escapeChar c).utf8ByteSize = 1 := by
    intro c hc
    rw [hsplit] at hc
    rcases mem_append.1 hc with hc | hc
    · have hall : responseCursorPrefix.toList.all
          (fun c => (escapeChar c).utf8ByteSize == 1) = true := by decide +kernel
      exact beq_iff_eq.1 (all_eq_true.1 hall c hc)
    · have hc' := hrest c hc
      simp only [Bool.or_eq_true, beq_iff_eq] at hc'
      rcases hc' with (h | rfl) | rfl
      · obtain ⟨hlow, hhigh, hslash⟩ := toNat_of_isAlphanum h
        exact escapeChar_of_plain (by omega) (by omega) (by omega) hslash
      · decide
      · decide
  have hlen : token.toList.length = 61 := by
    have hstartLength : responseCursorPrefix.toList.length = 29 := by decide +kernel
    rw [hsplit, length_append, hlength, hstartLength]
  have hmark : "\"".utf8ByteSize = 1 := by decide
  rw [quote, String.utf8ByteSize_append, String.utf8ByteSize_append, hmark,
    utf8ByteSize_escape hplain, hlen]
namespace BoundedTable

variable (w : BoundedTable)

/-! ### The rows behind a record -/

/-- A walk through the same rows by somebody who may see all of them. -/
def unbounded : ListWalk where
  toListParams :=
    { w.toListParams with
      object := .single w.name w.config
      env := { w.env with engine := { w.env.engine with queryFault := fun _ _ => none } }
      caller := { w.caller with isServiceKey := true } }
  less := w.less
  ordered := ⟨w.ordered.irrefl, w.ordered.trans, w.ordered.total, w.ordered.least,
    w.ordered.above_iff, w.ordered.perm, w.ordered.sorted⟩
  declared := getTableConfig_single
  autoId := w.autoId
  present := w.present
  ids := w.ids
  distinct := w.distinct
  operators := w.operators
  alternatives := w.alternatives
  evaluated _ := rfl
  admitted := rfl
  readable _ _ := rfl

theorem selected_of_split {front rest : List Row} {row : Row} {id : String}
    (h : w.matching = front ++ row :: rest) (hid : row.id = some id) :
    w.selected (some id) = rest := by
  have hsorted : w.matching.Pairwise w.unbounded.Precedes := w.unbounded.selected_sorted none
  have hmem {r : Row} (hr : r ∈ w.matching) : r ∈ w.store.rows w.name :=
    w.unbounded.selected_sub none hr
  have hbeyond {r : Row} (hr : r ∈ w.matching) :
      w.unbounded.beyond (some id) r = true ↔ ∃ id', r.id = some id' ∧ w.less id id' := by
    rw [w.unbounded.beyond_some (hmem hr)]
    exact w.ordered.above_iff id r
  have hselected : w.selected (some id) = w.matching.filter (w.unbounded.beyond (some id)) :=
    w.unbounded.selected_eq (some id)
  rw [h] at hsorted hbeyond
  obtain ⟨-, hrest, hcross⟩ := pairwise_append.1 hsorted
  obtain ⟨hrow, -⟩ := pairwise_cons.1 hrest
  have hfront : front.filter (w.unbounded.beyond (some id)) = [] := by
    refine filter_eq_nil_iff.2 fun r hr habove => ?_
    obtain ⟨id', hid', hless⟩ := (hbeyond (mem_append_left _ hr)).1 habove
    obtain ⟨a, b, ha, hb, hab⟩ := hcross r hr row mem_cons_self
    obtain rfl : id' = a := Option.some.inj (hid'.symm.trans ha)
    obtain rfl : id = b := Option.some.inj (hid.symm.trans hb)
    exact w.ordered.irrefl _ (w.ordered.trans _ _ _ hless hab)
  have hown : ¬w.unbounded.beyond (some id) row = true := by
    intro habove
    obtain ⟨id', hid', hless⟩ :=
      (hbeyond (mem_append_right _ mem_cons_self)).1 habove
    obtain rfl : id = id' := Option.some.inj (hid.symm.trans hid')
    exact w.ordered.irrefl _ hless
  have hbehind : rest.filter (w.unbounded.beyond (some id)) = rest := by
    refine filter_eq_self.2 fun r hr => ?_
    obtain ⟨a, b, ha, hb, hab⟩ := hrow r hr
    obtain rfl : id = a := Option.some.inj (hid.symm.trans ha)
    exact (hbeyond (mem_append_right _ (mem_cons_of_mem _ hr))).2 ⟨b, hb, hab⟩
  rw [hselected, h, filter_append, hfront, filter_cons_of_neg hown, hbehind,
    nil_append]

theorem idText_clean {row : Row} {id : String} (hid : row.id = some id) :
    idText w.env (w.clean row) = id := by
  have honly : (onlyColumns w.fields row).id = row.id := by
    rw [onlyColumns]
    by_cases hfields : w.fields = []
    · rw [hfields]
      rfl
    · have hlookup : (Assoc.restrict (· ∈ w.fields) row).lookup "id" = row.lookup "id" := by
        rw [Assoc.lookup_restrict, if_pos (decide_eq_true (w.identified hfields))]
      rw [if_neg (mt List.isEmpty_iff.1 hfields), Row.id, hlookup, Row.id]
  have hclean : (w.clean row).id = some id :=
    (cleanRow_id .d1 w.env _ w.autoId).trans (honly.trans hid)
  rw [idText, lookup_id_of_id hclean]

/-! ### A request -/

/-- What the request asks for, once its cursor has been resolved. -/
def prepared (after : Option String) : QueryOptions :=
  { (w.request none).options with pagination := w.pagination after }

/-- The record that the cursor of a request stands for. -/
inductive Resolves (e : Env) : Option String → Option String → Prop
  | first : Resolves e none none
  | next {token id : String} (h : e.resolveCursor w.name token = .ok id) (hne : id ≠ "") :
    Resolves e (some token) (some id)

theorem prepare_eq {e : Env} {token after : Option String} (h : w.Resolves e token after) :
    prepareBoundedQuery e w.name (w.request token) false =
      .ok (some w.bound, w.prepared after) := by
  have hbound : ¬w.bound < minMaxResponseBytes := not_lt.2 w.accepted
  have hfields : ¬(w.fields ≠ [] ∧ "id" ∉ w.fields) := fun hf => hf.2 (w.identified hf.1)
  have hcheck : checkBounded (w.request token) w.bound = .ok () := by
    unfold checkBounded BoundedParams.request
    dsimp only
    rw [if_neg hbound, if_neg (by simp [ListParams.pagination, PaginationOptions.parse]),
      if_neg hfields, if_neg (by simp [ListParams.pagination, PaginationOptions.parse])]
  have hafter : resolveCursor e w.name token (w.pagination none).after = .ok after := by
    cases h with
    | first => rfl
    | next h hne => rw [resolveCursor, h]; rfl
  have hpagination : { w.pagination none with after, before := none } = w.pagination after := by
    cases h with
    | first => rfl
    | next h hne =>
      simp [ListParams.pagination, PaginationOptions.parse, Option.filter, hne]
  have hsort : ¬((w.request token).options.sort ≠ [] ∧
      (w.request token).options.sort ≠ [⟨"id", some "asc"⟩]) := by
    unfold BoundedParams.request
    cases w.sorted <;> simp
  refine Except.bind_eq_ok.2 ⟨(), hcheck, Except.bind_eq_ok.2 ⟨after, hafter,
    Except.bind_eq_ok.2 ⟨none, rfl, ?_⟩⟩⟩
  refine (if_neg hsort).trans ?_
  refine congrArg Except.ok (Prod.ext rfl ?_)
  rw [prepared, ← hpagination]
  rfl

def asked (after : Option String) : QueryOptions := D1.queryOptions w.config (w.prepared after)

theorem asked_eq (after : Option String) :
    w.asked after =
      { w.prepared after with
        filters := (w.toListParams.options none).filters
        orFilters := (w.toListParams.options none).orFilters } := by
  have hoptions : w.toListParams.options none =
      normalizeSQLiteBooleanQueryOptions (w.toListParams.request none).options w.config.schema := by
    rw [ListParams.options, w.d1]
  rw [hoptions, asked, D1.queryOptions]
  cases hschema : w.config.schema <;> rfl

theorem buildListQuery_eq {after : Option String} (hafter : ∀ id ∈ after, id ≠ "") :
    buildListQuery w.name (w.asked after) .sqlite =
      .ok (w.query after, if after = none then some w.countQuery else none) := by
  have hwhere : ∀ pagination, buildWhereClause (w.toListParams.options none).filters pagination
      (w.toListParams.options none).orFilters = .ok
        { filters := (w.toListParams.options none).filters
          orFilters := (w.toListParams.options none).orFilters
          after := pagination.after, before := pagination.before } :=
    buildWhereClause_of_operators (w.toListParams.options_op w.operators)
      (w.toListParams.options_orFilters_length ▸ w.alternatives)
  have hlimit : buildLimitClause (w.pagination after) = (min w.size 1000, 0) := by
    cases after <;> simp [buildLimitClause, ListParams.pagination, ListParams.size,
      PaginationOptions.parse, PaginationOptions.size]
  have horder : buildOrderByClause (if w.sorted then [⟨"id", some "asc"⟩] else [])
      (w.pagination after) = [.column "id" false] := by
    have hasc : ("asc".toUpper == "DESC") = false := by decide +kernel
    cases w.sorted with
    | false => rfl
    | true => simp [buildOrderByClause, hasc]
  have hcursor : (w.pagination after).isCursor = after.isSome := by
    cases after with
    | none => rfl
    | some id =>
      simp [ListParams.pagination, PaginationOptions.parse, PaginationOptions.isCursor,
        Option.filter, hafter id rfl]
  rw [w.asked_eq]
  simp only [buildListQuery, prepared, BoundedParams.request, hwhere, hlimit, horder, hcursor]
  cases after with
  | none => rfl
  | some after => rfl

def readPage (after : Option String) : ReadPage where
  bound := some w.bound
  options := w.asked after
  rows := (w.fetched (w.selected after)).map w.clean
  total := .ok (w.total after)

theorem found_eq (after : Option String) :
    w.env.engine.found (w.query after) (w.store.rows w.name) =
      (w.fetched (w.selected after)).map (onlyColumns w.fields) := by
  have hselects : w.env.engine.selects (w.query after) =
      w.env.engine.satisfies (w.conditions after) := by
    funext row
    exact Bool.and_true _
  have hproject : w.env.engine.project (w.query after) = onlyColumns w.fields := rfl
  rw [SqlEngine.found, hselects, hproject]
  rfl

theorem pageTotal_eq (after : Option String) :
    pageTotal w.env w.store (w.asked after) (if after = none then some w.countQuery else none) =
      .ok (w.total after) := by
  have hasked : (w.asked after).includeTotal = w.includeTotal := by
    rw [w.asked_eq]
    rfl
  cases after with
  | some after =>
    have htotal : w.total (some after) = none := if_neg fun h => nomatch h.2
    rw [htotal]
    rfl
  | none =>
    rw [BoundedParams.total, if_pos rfl, pageTotal, hasked]
    cases htotal : w.includeTotal with
    | false => rfl
    | true =>
      have hcount : w.env.engine.count w.countQuery (w.store.rows w.name) =
          .ok ((w.store.rows w.name).filter (w.env.engine.selects w.countQuery)).length := by
        rw [SqlEngine.count, w.counted htotal]
      exact congrArg (Except.map some) hcount

theorem fetchPage_eq {s : CursorState} {draws : List ResponseToken} {token after : Option String}
    (h : w.Resolves (w.requestEnv s draws token) token after) :
    (fetchPage .list w.object (w.requestEnv s draws token) w.config w.name (w.request token) .d1
      w.store).result = .ok (.ok (w.readPage after)) := by
  have hafter : ∀ id ∈ after, id ≠ "" := by
    cases h with
    | first => exact nofun
    | next h hne => exact fun id hid => Option.some.inj hid ▸ hne
  have hselect : (w.requestEnv s draws token).engine.select (w.query after) (w.store.rows w.name) =
      .ok ((w.fetched (w.selected after)).map (onlyColumns w.fields)) :=
    (SqlEngine.select_of_no_fault _ (w.evaluated after)).trans (congrArg _ (w.found_eq after))
  have hquery : buildListQuery w.name (D1.queryOptions w.config (w.prepared after)) .sqlite = _ :=
    w.buildListQuery_eq hafter
  have htotal : pageTotal (w.requestEnv s draws token) w.store
      (D1.queryOptions w.config (w.prepared after))
      (if after = none then some w.countQuery else none) = _ := w.pageTotal_eq after
  have hpage : w.readPage after = ⟨some w.bound, w.asked after,
    ((w.fetched (w.selected after)).map (onlyColumns w.fields)).map
      (D1.clean (w.requestEnv s draws token) w.config), .ok (w.total after)⟩ := by
    rw [readPage, map_map]
    rfl
  rw [hpage]
  simp only [fetchPage, Audited.map_apply, D1.fetchList, w.prepare_eq h, Audited.lift_ok_bind,
    hquery, Audited.read_bind_apply, id_eq, hselect, htotal]
  rfl

theorem handleRead_eq {s : CursorState} {draws : List ResponseToken} {token after : Option String}
    (h : w.Resolves (w.requestEnv s draws token) token after) :
    (handleRead .list w.object (w.requestEnv s draws token) w.config w.caller w.name
      (w.request token) .d1 w.store).result =
        buildBoundedPageResponse (w.requestEnv s draws token) (w.pageAfter after) := by
  have hvisible : Worker.visibleRows w.config w.caller (w.readPage after) =
      ((w.fetched (w.selected after)).filter w.visible).map w.clean := filter_map
  set visible := ((w.fetched (w.selected after)).filter w.visible).map w.clean with hrows
  have hentries : (visible.map (enrichRecord w.config.hooks w.caller.auth)).zip
        (visible.map (idText w.env)) =
      ((w.fetched (w.selected after)).filter w.visible).map fun row =>
        (w.item row, idText w.env (w.clean row)) := by
    rw [hrows, map_map, map_map]
    exact zip_map'
  have hsize : (w.asked after).pagination.size = w.size := by
    rw [w.asked_eq]
    rfl
  have hlength : ((w.fetched (w.selected after)).map w.clean).length =
      (w.fetched (w.selected after)).length := length_map _
  rw [handleRead_worker (by exact nofun) (w.fetchPage_eq h) w.admitted, hvisible]
  unfold respond boundedAnswer readPage BoundedParams.pageAfter BoundedParams.page
  simp only [hsize, hlength, ← hentries]
  rfl

/-! ### The cursors of a request -/

/-- At some time, the cursor of a request stands for a record. -/
inductive Stands (s : CursorState) (now : ℕ) : Option String → Option String → Prop
  | first : Stands s now none none
  | next {row : CursorRecord} (hrow : row ∈ s.store) (htable : row.tableName = w.name)
      (halive : now < row.expiresAt) (hne : row.recordId ≠ "") :
    Stands s now (some row.token) (some row.recordId)

/-- What a request finds: a table with keys, a time whose text is of standard size, and a new token
among those that it may draw. -/
structure Ready (s : CursorState) (draws : List ResponseToken) : Prop where
  keyed : Cursors.Keyed s.store
  era : s.clock + responseCursorTtlMs < yearTenThousand
  fresh : ∃ token ∈ draws.take 3, ∀ row ∈ s.store, row.token ≠ token.1

/-- What a request leaves: a table with keys, among them no new ones but those it has drawn. -/
structure Follows (s : CursorState) (draws : List ResponseToken) (s' : CursorState) : Prop where
  keyed : Cursors.Keyed s'.store
  clock : s'.clock = s.clock
  tokens : ∀ row ∈ s'.store, (∃ row' ∈ s.store, row'.token = row.token) ∨
    ∃ token ∈ draws, token.1 = row.token

variable {s : CursorState} {draws : List ResponseToken} {token after : Option String}

theorem resolved_of_stands (draws : List ResponseToken) (h : w.Stands s s.clock token after)
    (hkeyed : Cursors.Keyed s.store) :
    w.resolvedAfter s token = .ok after ∧ w.Resolves (w.requestEnv s draws token) token after ∧
      Cursors.Keyed (w.resolvedState s token).store ∧ (w.resolvedState s token).clock = s.clock ∧
      ∀ row ∈ (w.resolvedState s token).store, ∃ row' ∈ s.store, row'.token = row.token := by
  cases h with
  | first => exact ⟨rfl, .first, hkeyed, rfl, fun row hrow => ⟨row, hrow, rfl⟩⟩
  | @next row hrow htable halive hne =>
    have hspec := resolved_spec hkeyed hrow halive
    rw [htable] at hspec
    obtain ⟨hresolved, hkeyed', hclock, htokens⟩ := hspec
    refine ⟨?_, .next hresolved hne, hkeyed', hclock, htokens⟩
    rw [BoundedParams.resolvedAfter, hresolved]
    rfl

theorem issued_of_ready (hready : Ready s draws) (h : w.Stands s s.clock token after)
    (recordId : String) (hne : recordId ≠ "") :
    ∃ cursor, issueCursorFor (w.requestEnv s draws token) w.name (some recordId) =
        .ok (some cursor) ∧ StandardSize cursor ∧
      Follows s draws
        (issueAlone (w.resolvedState s token) draws w.name recordId) ∧
      ∀ now < s.clock + responseCursorTtlMs, w.Stands
        (issueAlone (w.resolvedState s token) draws w.name recordId) now (some cursor.1)
        (some recordId) := by
  obtain ⟨-, -, hkeyed, hclock, htokens⟩ := w.resolved_of_stands draws h hready.keyed
  have hfresh : ∃ drawn ∈ draws.take 3, ∀ row ∈ (w.resolvedState s token).store,
      row.token ≠ drawn.1 := by
    obtain ⟨drawn, hdrawn, hnew⟩ := hready.fresh
    refine ⟨drawn, hdrawn, fun row hrow heq => ?_⟩
    obtain ⟨row', hrow', heq'⟩ := htokens row hrow
    exact hnew row' hrow' (heq'.trans heq)
  obtain ⟨issued, hissues⟩ := issues_issueAlone hkeyed w.name recordId hfresh
  have hcursor := hissues.issued
  rw [hclock] at hcursor hissues
  have htoken := hissues.keyed.drawn _ hissues.row
  refine ⟨(issued, w.iso (s.clock + responseCursorTtlMs)), ?_,
    ⟨utf8ByteSize_quote_token htoken, w.isoSize _ hready.era⟩,
    ⟨hissues.keyed, hissues.clock.trans hclock, fun row hrow => ?_⟩, fun now hnow => ?_⟩
  · refine issueCursorFor_some.2 ⟨_, ?_, rfl⟩
    exact congrArg (Except.map fun c : String × ℕ => (c.1, w.iso c.2)) hcursor
  · refine (hissues.tokens row hrow).imp_left fun ⟨row', hrow', heq⟩ => ?_
    obtain ⟨row'', hrow'', heq'⟩ := htokens row' hrow'
    exact ⟨row'', hrow'', heq'.trans heq⟩
  · exact @Stands.next w _ now ⟨issued, w.name, recordId, s.clock + responseCursorTtlMs⟩
      hissues.row rfl hnow hne

/-! ### What is left behind a record -/

/-- These are the rows behind a record, or all of them. -/
structure Left (after : Option String) (rows : List Row) : Prop where
  selected : w.selected after = rows
  suffix : rows <:+ w.matching
  total : w.total after = if rows.length = w.matching.length then w.total none else none
  zero : w.size = 0 → after = none

variable {rows : List Row}

theorem left_first : w.Left none w.matching :=
  ⟨rfl, suffix_rfl, (if_pos rfl).symm, fun _ => rfl⟩

variable (h : w.Left after rows)
include h

theorem ids_of_left {row : Row} (hrow : row ∈ rows) :
    ∃ id, row.id = some id ∧ id ≠ "" :=
  w.ids row (w.unbounded.selected_sub none (h.suffix.subset hrow))

theorem left_next (hsize : w.size ≠ 0) {front rest : List Row} {row : Row}
    {id : String} (hrows : rows = front ++ row :: rest) (hid : row.id = some id) :
    w.Left (some id) rest := by
  obtain ⟨seen, hseen⟩ := h.suffix
  have hsplit : w.matching = (seen ++ front) ++ row :: rest := by
    rw [← hseen, hrows, append_assoc]
  refine ⟨w.selected_of_split hsplit hid, ?_, ?_, fun hzero => absurd hzero hsize⟩
  · exact ⟨(seen ++ front) ++ [row], by rw [hsplit, append_assoc, singleton_append]⟩
  · have hlength : rest.length ≠ w.matching.length := by
      rw [hsplit, length_append, length_cons]
      omega
    rw [if_neg hlength]
    exact if_neg fun hnone => nomatch hnone.2

theorem pageAfter_eq : w.pageAfter after =
      w.page rows (if rows.length = w.matching.length then w.total none else none) := by
  rw [BoundedParams.pageAfter, h.selected, h.total]

theorem cut_eq : (w.pageAfter after).cut w.numberText = w.reader.cut rows := by
  have hle := (w.pageAfter after).cut_le w.numberText
  rw [w.pageAfter_eq h] at hle ⊢
  have hlength : (w.page rows (if rows.length = w.matching.length then w.total none
      else none)).items.length = (w.reader.entries rows).length := by
    rw [BoundedPage.items, BoundedParams.page, length_map, length_map]
    rfl
  exact (Nat.min_eq_left (hlength ▸ hle)).symm

theorem items_eq : (w.pageAfter after).items = (w.reader.entries rows).map w.item := by
  rw [w.pageAfter_eq h, BoundedPage.items, BoundedParams.page, map_map]
  rfl

theorem entries_eq : (w.pageAfter after).entries =
      (w.reader.entries rows).map fun row => (w.item row, idText w.env (w.clean row)) := by
  rw [w.pageAfter_eq h]
  rfl

omit h

theorem measured (draws : List ResponseToken) (token : Option String) (h : w.Left after rows)
    (hera : s.clock + responseCursorTtlMs < yearTenThousand) :
    (w.pageAfter after).Measured w.numberText (w.requestEnv s draws token) where
  bound := w.accepted
  ids e he := by
    rw [w.entries_eq h] at he
    obtain ⟨row, hrow, rfl⟩ := mem_map.1 he
    obtain ⟨id, hid, hne⟩ := w.ids_of_left h (mem_of_mem_take (mem_of_mem_filter hrow))
    rw [w.idText_clean hid]
    exact hne
  writes := ⟨w.writes.bytes, w.writes.whole⟩
  short := w.short
  expiry := w.isoSize _ hera
  texts := by
    have hsub : (w.reader.entries rows).Sublist w.matching :=
      filter_sublist.trans ((take_sublist _ _).trans h.suffix.sublist)
    have hle := bytes_arr_le w.numberText (hsub.map w.item)
    rw [w.items_eq h]
    refine lt_of_le_of_lt hle ?_
    rw [map_map]
    exact w.texts

variable (h : w.Left after rows)
include h

theorem lastRecordId_fetched {init : List Row} {last : Row}
    (hfetched : w.fetched rows = init ++ [last]) {id : String} (hid : last.id = some id)
    (hne : id ≠ "") : (w.pageAfter after).sourceCursorRecordId = some id := by
  have hlast : ((w.fetched rows).map w.clean).getLast?.map (idText w.env) = some id := by
    rw [hfetched, map_append, map_singleton, List.getLast?_append]
    simp [w.idText_clean hid]
  rw [w.pageAfter_eq h]
  change lastRecordId w.env ((w.fetched rows).map w.clean) = some id
  rw [lastRecordId, hlast]
  exact Option.filter_some_pos (decide_eq_true hne)

theorem recordId_eq :
    (w.fetched rows = [] ∧ (w.pageAfter after).recordId w.numberText = none) ∨
      ∃ id, (w.pageAfter after).recordId w.numberText = some id ∧ id ≠ "" ∧
        w.Left (some id) (w.reader.rest rows) := by
  have hempty : (w.pageAfter after).entries.isEmpty = (w.reader.entries rows).isEmpty := by
    rw [w.entries_eq h, isEmpty_map]
  have hlength : (w.pageAfter after).items.length = (w.reader.entries rows).length := by
    rw [w.items_eq h, length_map]
  obtain hnil | ⟨init, last, hlast⟩ := eq_nil_or_concat (w.fetched rows)
  · have hentries : w.reader.entries rows = [] := by
      change (w.fetched rows).filter w.visible = []
      rw [hnil, filter_nil]
    refine .inl ⟨hnil, ?_⟩
    rw [BoundedPage.recordId, hempty, hentries, isEmpty_nil, if_pos rfl, w.pageAfter_eq h]
    change lastRecordId w.env ((w.fetched rows).map w.clean) = none
    rw [hnil]
    rfl
  right
  rw [concat_eq_append] at hlast
  have hsize : w.size ≠ 0 := by
    intro hzero
    rw [BoundedParams.fetched, hzero, Nat.zero_min, take_zero] at hlast
    exact absurd hlast.symm (append_ne_nil_of_right_ne_nil _ (cons_ne_nil _ _))
  have hrows : rows = init ++ last :: rows.drop (min w.size 1000) := by
    rw [← singleton_append, ← append_assoc, ← hlast]
    exact (take_append_drop _ _).symm
  obtain ⟨id, hid, hne⟩ := w.ids_of_left h (show last ∈ rows by rw [hrows]; simp)
  have hsource := w.lastRecordId_fetched h hlast hid hne
  by_cases hcut : w.reader.cut rows = (w.reader.entries rows).length
  · -- everything that was fetched is behind the cursor
    refine ⟨id, ?_, hne, ?_⟩
    · rw [BoundedPage.recordId, w.cut_eq h, hlength]
      dsimp only
      rw [if_pos hcut, hsource]
      split <;> rfl
    · rw [CutPages.Reader.rest, if_pos hcut]
      exact w.left_next h hsize hrows hid
  · -- the cursor is the id of the last item that is shown, or of the one that is announced
    have hlt : w.reader.cut rows - 1 < (w.reader.entries rows).length := by
      have hle : w.reader.cut rows ≤ (w.reader.entries rows).length := Nat.min_le_right _ _
      omega
    set row := (w.reader.entries rows)[w.reader.cut rows - 1] with hrow
    have hget : (w.reader.entries rows)[w.reader.cut rows - 1]? = some row :=
      List.getElem?_eq_getElem hlt
    have hfilter : (rows.filter w.visible)[w.reader.cut rows - 1]? = some row := by
      have happend := w.reader.entries_append rows
      change (rows.filter w.reader.visible)[w.reader.cut rows - 1]? = some row
      rw [← happend, List.getElem?_append_left hlt, hget]
    obtain ⟨front, hfront⟩ := CutPages.dropVisible_split hfilter
    have hmax : w.reader.cut rows - 1 + 1 = max 1 (w.reader.cut rows) := by omega
    obtain ⟨rowId, hrowId, hrowNe⟩ := w.ids_of_left h (show row ∈ rows by rw [hfront]; simp)
    refine ⟨rowId, ?_, hrowNe, ?_⟩
    · have hnonempty : ¬(w.reader.entries rows).isEmpty = true := by
        rw [List.isEmpty_iff]
        intro hnil
        rw [hnil] at hlt
        exact absurd hlt (Nat.not_lt_zero _)
      rw [BoundedPage.recordId, hempty, if_neg hnonempty, w.cut_eq h, hlength]
      dsimp only
      rw [if_neg hcut, w.entries_eq h, ← map_drop, List.head?_map, List.head?_drop, hget]
      exact congrArg some (w.idText_clean hrowId)
    · rw [CutPages.Reader.rest, if_neg hcut, ← hmax]
      exact w.left_next h hsize hfront hrowId

/-! ### One request -/

theorem shows_part (hready : Ready s draws)
    {cursor : Option (String × String)}
    (hissue : issueCursorFor (w.requestEnv s draws token) w.name
      ((w.pageAfter after).recordId w.numberText) = .ok cursor)
    (hcursor : ∀ c ∈ cursor, StandardSize c) :
    w.Shows ⟨after, { body := (w.pageAfter after).body w.numberText cursor }⟩
      (w.reader.part rows) := by
  have hmeasured := w.measured draws token h hready.era
  have hname : (w.pageAfter after).tableName = w.name := rfl
  obtain ⟨hwithin, hstated⟩ := bytes_body hmeasured (hname ▸ hissue) hcursor
  obtain ⟨hitems, -, -, hoversized⟩ :=
    lookup_body w.numberText (w.pageAfter after) cursor
  rw [w.cut_eq h, w.entries_eq h, isEmpty_map] at hoversized
  rw [w.cut_eq h, w.items_eq h, ← map_take, map_map] at hitems
  have hlist : Response.itemList { body := (w.pageAfter after).body w.numberText cursor } =
      ((w.reader.entries rows).take (w.reader.cut rows)).map (.obj ∘ w.item) := by
    rw [Response.itemList, Response.items]
    simp only [hitems]
  have hle : w.reader.cut rows ≤ (w.reader.entries rows).length := Nat.min_le_right _ _
  have hlength : (Response.itemList
      { body := (w.pageAfter after).body w.numberText cursor }).length = w.reader.cut rows := by
    rw [hlist, length_map, length_take]
    exact Nat.min_eq_left hle
  refine ⟨hwithin, hstated, ?_, ?_, ?_⟩
  · rw [hlength, h.selected]
    rfl
  · by_cases hcut : w.reader.cut rows = 0
    · by_cases hentries : w.reader.entries rows = []
      · left
        rw [BoundedParams.oversized, hoversized, hlist, CutPages.Reader.part, hentries, hcut]
        exact ⟨rfl, rfl⟩
      · right
        have hpos := length_pos_iff.2 hentries
        have hnonempty : (w.reader.entries rows).isEmpty = false :=
          isEmpty_eq_false_iff.2 hentries
        rw [BoundedParams.oversized, hoversized, hlist, CutPages.Reader.part, hcut, hnonempty,
          length_take]
        exact ⟨rfl, rfl, by omega⟩
    · left
      have hmax : max 1 (w.reader.cut rows) = w.reader.cut rows := by omega
      rw [BoundedParams.oversized, hoversized, hlist, CutPages.Reader.part, hmax,
        beq_eq_false_iff_ne.2 hcut]
      exact ⟨rfl, rfl⟩
  · intro k hk hkle c hc length hstates
    rw [hlength, ← w.cut_eq h] at hk
    rw [h.selected] at hkle
    refine bound_lt hmeasured hk ?_ hc hstates
    rw [w.items_eq h, length_map]
    exact hkle

theorem next_body (cursor : Option (String × String)) :
    Response.next { body := (w.pageAfter after).body w.numberText cursor } =
      if w.reader.more rows then some (cursor.map Prod.fst) else none := by
  obtain ⟨-, hmore, hcursor, -⟩ := lookup_body w.numberText (w.pageAfter after) cursor
  have hsource : (w.pageAfter after).sourceHasMore =
      ((w.reader.fetched rows).length == w.size) := by
    rw [w.pageAfter_eq h]
    rfl
  have hreader : (decide (max 1 (w.reader.cut rows) < (w.reader.entries rows).length) ||
      (w.reader.fetched rows).length == w.size) = w.reader.more rows := by
    have hpart : (w.reader.part rows).length < (w.reader.entries rows).length ↔
        max 1 (w.reader.cut rows) < (w.reader.entries rows).length := by
      rw [CutPages.Reader.part, length_take]
      omega
    rw [CutPages.Reader.more, decide_eq_decide.2 hpart]
    rfl
  rw [w.cut_eq h, w.items_eq h, length_map, hsource, hreader] at hmore
  rw [Response.next, hmore, Response.cursor, hcursor]
  cases w.reader.more rows with
  | false => rfl
  | true => cases cursor <;> rfl

omit h

theorem rest_of_fetched_nil (h : w.fetched rows = []) (hmore : w.reader.more rows = true) :
    w.size = 0 ∧ w.reader.rest rows = rows := by
  have hentries : w.reader.entries rows = [] := by
    change (w.fetched rows).filter w.visible = []
    rw [h, filter_nil]
  have hzero : w.size = 0 := by
    by_contra hsize
    refine w.reader.ne_nil_of_more hsize hmore ?_
    rw [BoundedParams.fetched, take_eq_nil_iff] at h
    exact h.resolve_left (by omega)
  have hcut : w.reader.cut rows = (w.reader.entries rows).length := by
    rw [CutPages.Reader.cut, hentries, length_nil, Nat.min_zero]
  refine ⟨hzero, ?_⟩
  rw [CutPages.Reader.rest, if_pos hcut]
  change rows.drop (min w.size 1000) = rows
  rw [hzero, Nat.zero_min, drop_zero]

theorem visit_of_issue (h : w.Left after rows) (hready : Ready s draws)
    (hstands : w.Stands s s.clock token after) {cursor : Option (String × String)}
    (hissue : issueCursorFor (w.requestEnv s draws token) w.name
      ((w.pageAfter after).recordId w.numberText) = .ok cursor)
    (hcursor : ∀ c ∈ cursor, StandardSize c) :
    w.visit s draws token =
      some (⟨after, { body := (w.pageAfter after).body w.numberText cursor }⟩,
        w.stateAfter s draws token after) := by
  obtain ⟨hafter, hresolves, -⟩ := w.resolved_of_stands draws hstands hready.keyed
  have hname : (w.pageAfter after).tableName = w.name := rfl
  have hanswer := (w.handleRead_eq hresolves).trans
    (buildBoundedPageResponse_eq (w.measured draws token h hready.era) (hname ▸ hissue) hcursor)
  rw [BoundedParams.visit, hafter, w.d1, hanswer]
  rfl

/-- **One request** goes on where the last answer has ended. -/
theorem visit_eq (h : w.Left after rows) (hready : Ready s draws)
    (hstands : w.Stands s s.clock token after) :
    ∃ answer s', w.visit s draws token = some (answer, s') ∧ w.Shows answer (w.reader.part rows) ∧
      Follows s draws s' ∧ (w.reader.more rows = false → answer.response.next = none) ∧
      (w.reader.more rows = true → ∃ token' after', answer.response.next = some token' ∧
        (∀ now < s.clock + responseCursorTtlMs, w.Stands s' now token' after') ∧
        w.Left after' (w.reader.rest rows)) := by
  obtain ⟨hfetched, hrecord⟩ | ⟨id, hrecord, hne, hleft⟩ := w.recordId_eq h
  · have hissue : issueCursorFor (w.requestEnv s draws token) w.name
        ((w.pageAfter after).recordId w.numberText) = .ok none := by rw [hrecord]; rfl
    obtain ⟨-, -, hkeyed, hclock, htokens⟩ := w.resolved_of_stands draws hstands hready.keyed
    have hstate : w.stateAfter s draws token after = w.resolvedState s token := by
      rw [BoundedParams.stateAfter, hrecord]
    refine ⟨_, _, w.visit_of_issue h hready hstands hissue nofun,
      w.shows_part h hready hissue nofun, ?_, fun hmore => ?_, fun hmore => ?_⟩
    · rw [hstate]
      exact ⟨hkeyed, hclock, fun row hrow => .inl (htokens row hrow)⟩
    · rw [w.next_body h, hmore]
      rfl
    · obtain ⟨hzero, hrest⟩ := w.rest_of_fetched_nil hfetched hmore
      obtain rfl := h.zero hzero
      refine ⟨none, none, ?_, fun _ _ => .first, hrest.symm ▸ h⟩
      rw [w.next_body h, hmore]
      rfl
  · obtain ⟨cursor, hissue, hstandard, hfollows, hnext⟩ := w.issued_of_ready hready hstands id hne
    rw [← hrecord] at hissue
    have hstate : w.stateAfter s draws token after =
        issueAlone (w.resolvedState s token) draws w.name id := by
      rw [BoundedParams.stateAfter, hrecord]
    have hcursor : ∀ c ∈ some cursor, StandardSize c := fun c hc => Option.some.inj hc ▸ hstandard
    refine ⟨_, _, w.visit_of_issue h hready hstands hissue hcursor,
      w.shows_part h hready hissue hcursor, hstate ▸ hfollows, fun hmore => ?_, fun hmore => ?_⟩
    · rw [w.next_body h, hmore]
      rfl
    · refine ⟨some cursor.1, some id, ?_, hstate ▸ hnext, hleft⟩
      rw [w.next_body h, hmore]
      rfl

/-! ### The walk -/

theorem walk_eq (n : ℕ) {visits : ℕ → Visit} (hkeyed : Cursors.Keyed s.store)
    (hserved : w.Served n visits s token)
    (hstands : ∀ now < s.clock + responseCursorTtlMs, w.Stands s now token after)
    (h : w.Left after rows) : (∀ starts, w.reader.walk n rows = some starts →
      ∃ answers, w.walk n visits s token = some answers ∧
        List.Forall₂ w.Shows answers (starts.map w.reader.part)) ∧
    (w.reader.walk n rows = none → w.walk n visits s token = none) := by
  induction n generalizing visits s token after rows with
  | zero => exact ⟨nofun, fun _ => rfl⟩
  | succ n ih =>
    obtain ⟨hwait, hera, hfresh, hrest⟩ := hserved
    have hready : Ready (BoundedParams.tick s (visits 0).wait) (visits 0).draws :=
      ⟨hkeyed, hera, hfresh⟩
    have hstands' : w.Stands (BoundedParams.tick s (visits 0).wait)
        (BoundedParams.tick s (visits 0).wait).clock token after := by
      cases hstands _ (Nat.add_lt_add_left hwait s.clock) with
      | first => exact .first
      | next hrow htable halive hne => exact .next hrow htable halive hne
    obtain ⟨answer, s', hvisit, hshows, hfollows, hlast, hnext⟩ := w.visit_eq h hready hstands'
    cases hmore : w.reader.more rows with
    | false =>
      have hwalk : w.walk (n + 1) visits s token = some [answer] := by
        rw [BoundedParams.walk, hvisit]
        simp only [hlast hmore]
      rw [w.reader.walk_of_not_more hmore]
      refine ⟨fun starts hstarts => ?_, nofun⟩
      obtain rfl := Option.some.inj hstarts
      exact ⟨[answer], hwalk, .cons hshows .nil⟩
    | true =>
      obtain ⟨token', after', hcursor, hlater, hleft⟩ := hnext hmore
      rw [← hfollows.clock] at hlater
      obtain ⟨hsome, hnone⟩ :=
        ih hfollows.keyed (hrest answer s' hvisit token' hcursor) hlater hleft
      have hwalk : w.walk (n + 1) visits s token =
          (w.walk n (fun k => visits (k + 1)) s' token').map (answer :: ·) := by
        rw [BoundedParams.walk, hvisit]
        simp only [hcursor]
      rw [w.reader.walk_of_more hmore, hwalk]
      constructor
      · intro starts hstarts
        obtain ⟨later, hlaterWalk, rfl⟩ := Option.map_eq_some_iff.1 hstarts
        obtain ⟨answers, hanswers, hparts⟩ := hsome later hlaterWalk
        exact ⟨answer :: answers, by rw [hanswers]; rfl, .cons hshows hparts⟩
      · intro hstarts
        rw [hnone (Option.map_eq_none_iff.1 hstarts)]
        rfl

theorem part_unique {answers : List BoundedAnswer} {parts parts' : List (List Row)}
    (h : List.Forall₂ w.Shows answers parts) (h' : List.Forall₂ w.Shows answers parts') :
    parts = parts' := by
  induction h generalizing parts' with
  | nil =>
    cases h'
    rfl
  | cons hshows _ ih =>
    cases h' with
    | cons hshows' hrest => rw [hshows.rows, ← hshows'.rows, ih hrest]

end BoundedTable

theorem BoundedWalk.completes_iff_reader (w : BoundedWalk) :
    w.Completes ↔ w.reader.Completes w.matching := by
  have hwalk := fun n => w.walk_eq n w.keyed (w.served n) (fun _ _ => .first) w.left_first
  constructor
  · rintro ⟨n, answers, parts, hanswers, hparts, hall⟩
    cases hstarts : w.reader.walk n w.matching with
    | none =>
      rw [(hwalk n).2 hstarts] at hanswers
      exact absurd hanswers nofun
    | some starts =>
      obtain ⟨answers', hanswers', hparts'⟩ := (hwalk n).1 starts hstarts
      obtain rfl := Option.some.inj (hanswers.symm.trans hanswers')
      rw [w.part_unique hparts hparts'] at hall
      exact ⟨n, starts, hstarts, hall⟩
  · rintro ⟨n, starts, hstarts, hall⟩
    obtain ⟨answers, hanswers, hparts⟩ := (hwalk n).1 starts hstarts
    exact ⟨n, answers, _, hanswers, hparts, hall⟩

/-- **Bounded lists.**  A client that lists a table in bounded pages receives every row that it may
see once, or is told of it once that it does not fit alone, in the order of the ids, in answers
within the bound that hold as many rows as fit, if and only if the page size is not zero, and no
page of a size above a thousand has room for all that it fetches while there is something to see
behind it. -/
theorem BoundedWalk.receives_iff_holdsWhen (w : BoundedWalk) : w.Completes ↔ w.HoldsWhen := by
  rw [w.completes_iff_reader, w.reader.reading_completes_iff (show 1000 ≠ 0 by decide)]
  refine and_congr_right fun _ => ⟨fun h _ => h, fun h => ?_⟩
  by_cases hlarge : 1000 < w.size
  · exact h hlarge
  · exact w.reader.exhausts_of_le (not_lt.1 hlarge) _

/-! ### A walk that does not complete -/

/-- The text of a whole number, with an exponent if it is large. -/
def shortText (q : ℚ) : String := if q.num.toNat < 10 ^ 21 then q.num.toNat.repr else "1e+21"

theorem utf8ByteSize_shortText (q : ℚ) : (shortText q).utf8ByteSize ≤ 25 := by
  rw [shortText]
  split_ifs with h
  · rw [utf8ByteSize_repr]
    exact ((SelfLength.digits_le_iff (by decide)).2 h).trans (by decide)
  · decide

/-- A note, whose id has one letter more than its number. -/
def note (n : ℕ) : Row := [("id", .str (String.ofList (List.replicate (n + 1) 'a')))]

/-- Notes that anybody may see, listed in pages of two thousand, in answers of two megabytes. -/
def manyNotes (count : ℕ) : BoundedParams where
  provider := .d1
  object := .single "notes" {}
  env := { Env.simple with engine := .sorting, jsonBytes := Json.bytes shortText }
  config := {}
  caller := { auth := none }
  name := "notes"
  store := .single "notes" ((List.range count).map note)
  filters := []
  orFilters := []
  limit := none
  perPage := some 2000
  bound := 2000000
  includeTotal := false
  sorted := false
  fields := []
  numberText := shortText
  iso _ := "2026-01-08T00:00:00.000Z"

variable (count : ℕ)

theorem rows_manyNotes : (manyNotes count).store.rows (manyNotes count).name =
    (List.range count).map note := rows_single

theorem matching_perm_notes : (manyNotes count).matching.Perm ((List.range count).map note) := by
  have hfilter (rows : List Row) : rows.filter
      ((manyNotes count).env.engine.satisfies ((manyNotes count).conditions none)) = rows :=
    filter_eq_self.2 fun _ _ => rfl
  rw [ListParams.matching, ListParams.selected, rows_manyNotes, hfilter]
  exact perm_insertionSort idLe _

theorem bytes_note (n : ℕ) :
    Json.bytes shortText (.obj ((manyNotes count).item (note n))) = n + 10 := by
  have hid : (quote (String.ofList (List.replicate (n + 1) 'a'))).utf8ByteSize = n + 3 := by
    have hplain : ∀ c ∈ List.replicate (n + 1) 'a', (escapeChar c).utf8ByteSize = 1 := by
      intro c hc
      rw [eq_of_mem_replicate hc]
      decide
    have hmark : "\"".utf8ByteSize = 1 := by decide
    rw [quote, String.utf8ByteSize_append, String.utf8ByteSize_append, hmark,
      String.toList_ofList, utf8ByteSize_escape hplain, length_replicate]
    omega
  have hkey : (quote "id").utf8ByteSize = 4 := by decide +kernel
  have hitem : (manyNotes count).item (note n) = note n := rfl
  have hstr (s : String) : Json.bytes shortText (.str s) = (quote s).utf8ByteSize := rfl
  rw [hitem, note, bytes_obj]
  simp [fieldBytes, hkey, hstr, hid]
  omega

theorem bytes_notes_le : Json.bytes shortText (.arr ((manyNotes count).matching.map
      (Json.obj ∘ (manyNotes count).item))) ≤ 2 + count * (count + 11) := by
  have hperm := (matching_perm_notes count).map (Json.obj ∘ (manyNotes count).item)
  have hsum := (hperm.map (Json.bytes shortText · + 1)).sum_eq
  have hle : ((((List.range count).map note).map (Json.obj ∘ (manyNotes count).item)).map
      (Json.bytes shortText · + 1)).sum ≤ count • (count + 11) := by
    refine (sum_le_card_nsmul _ (count + 11) fun m hm => ?_).trans_eq (by simp)
    rw [map_map, map_map, mem_map] at hm
    obtain ⟨k, hk, rfl⟩ := hm
    have hbytes := bytes_note count k
    have hlt := mem_range.1 hk
    simp only [Function.comp] at hbytes ⊢
    omega
  rw [nsmul_eq_mul, Nat.cast_id] at hle
  rw [bytes_arr, hsum]
  omega

theorem note_injective : Function.Injective note := by
  intro m n h
  have hids : String.ofList (List.replicate (m + 1) 'a') =
      String.ofList (List.replicate (n + 1) 'a') := by simpa [note] using h
  have hlength := congrArg String.length hids
  simpa using hlength

def notesTable (count : ℕ) (hcount : count ≤ 2000) : BoundedTable where
  toBoundedParams := manyNotes count
  less := (· < ·)
  d1 := rfl
  ordered := sorting_ordersIds
  autoId _ h := absurd h not_mem_nil
  present := has_single
  ids row hrow := by
    rw [rows_manyNotes] at hrow
    obtain ⟨n, -, rfl⟩ := mem_map.1 hrow
    refine ⟨_, rfl, fun h => ?_⟩
    have hlength := congrArg String.length h
    simp at hlength
  distinct := by
    rw [rows_manyNotes, map_map]
    refine List.Nodup.map (fun m n h => note_injective ?_) nodup_range
    rw [note, note, Option.some.inj h]
  operators _ h := absurd h not_mem_nil
  alternatives := no_alternatives
  evaluated _ := rfl
  counted _ := rfl
  admitted := rfl
  accepted := show 512 ≤ 2000000 by decide
  identified h := absurd rfl h
  writes :=
    { bytes := fun _ => rfl
      whole := fun n hn => by
        change shortText n = n.repr
        rw [shortText, Rat.num_natCast, Int.toNat_natCast, if_pos hn] }
  short := utf8ByteSize_shortText
  isoSize _ _ := by
    change (quote "2026-01-08T00:00:00.000Z").utf8ByteSize = 26
    decide +kernel
  texts := by
    have hle := bytes_notes_le count
    have hsquare : count * (count + 11) ≤ 2000 * 2011 := Nat.mul_le_mul hcount (by omega)
    exact lt_of_le_of_lt hle (by omega)

theorem length_matching_notes : (manyNotes count).matching.length = count := by
  rw [(matching_perm_notes count).length_eq, length_map, length_range]

theorem more_notes (hcount : count ≤ 1001) :
    (manyNotes count).reader.more (manyNotes count).matching = false := by
  set w := notesTable count (by omega)
  have hleft : w.Left none w.matching := w.left_first
  have hsize : w.size = 2000 := rfl
  have hentries : w.reader.entries w.matching = w.reader.fetched w.matching :=
    filter_eq_self.2 fun _ _ => rfl
  have hcut : w.reader.cut w.matching = (w.reader.entries w.matching).length := by
    rw [← w.cut_eq hleft]
    refine Nat.le_antisymm ((cut_le _ _).trans_eq ?_)
      (le_cut ?_ fun _ => ?_)
    · rw [w.items_eq hleft, length_map]
    · rw [w.items_eq hleft, length_map]
    · have hitems : Json.bytes shortText (.arr (((w.pageAfter none).items.take
          (w.reader.entries w.matching).length).map .obj)) ≤ 2 + count * (count + 11) := by
        have hall : Json.bytes shortText (.arr ((w.matching.map w.item).map .obj)) ≤
            2 + count * (count + 11) := by
          rw [map_map]
          exact bytes_notes_le count
        refine (bytes_arr_le shortText ((take_sublist _ _).trans ?_)).trans hall
        rw [w.items_eq hleft, hentries]
        exact (take_sublist _ _).map _
      have hsquare : count * (count + 11) ≤ 1001 * 1012 := Nat.mul_le_mul hcount (by omega)
      have hperPage : Json.bytes shortText (jsonNat (w.pageAfter none).perPage) ≤ 25 :=
        utf8ByteSize_shortText _
      have htotal : Json.bytes shortText (jsonOr jsonNat (w.pageAfter none).total) = 4 := rfl
      have hbare := bareLength_payload shortText (w.pageAfter none)
        (w.reader.entries w.matching).length BoundedPage.placeholders
      have hless : bareLength shortText ((w.pageAfter none).payload
          (w.reader.entries w.matching).length
          (placeholderCursor, "YYYY-MM-DDTHH:mm:ss.sssZ")) ≤ 1100000 := by
        rw [hbare, htotal]
        split <;> omega
      have hlength := SelfLength.length_le (lt_of_le_of_lt hless (show 1100000 < 10 ^ 7 by decide))
      exact hlength.trans (show _ ≤ 2000000 by omega)
  have hpart : w.reader.part w.matching = w.reader.entries w.matching := by
    rw [CutPages.Reader.part, hcut]
    exact take_of_length_le (Nat.le_max_right 1 _)
  change w.reader.more w.matching = false
  rw [CutPages.Reader.more, hpart, CutPages.Reader.fetched, length_take]
  have hlength : w.matching.length = count := length_matching_notes count
  change (decide _ || (min (min 2000 1000) w.matching.length == 2000)) = false
  rw [hlength, decide_eq_false (Nat.lt_irrefl _), Bool.false_or, beq_eq_false_iff_ne]
  omega

def notesWalk (hcount : count ≤ 1001) : BoundedWalk where
  toBoundedTable := notesTable count (by omega)
  visits _ := ⟨0, [Cursors.drawn]⟩
  cursors := ⟨[], 0, [], []⟩
  keyed := ⟨nodup_nil, forall_mem_nil _⟩
  served n := by
    cases n with
    | zero => trivial
    | succ n =>
      have hready : BoundedTable.Ready ⟨[], 0, [], []⟩ [Cursors.drawn] :=
        ⟨⟨nodup_nil, forall_mem_nil _⟩, by decide, Cursors.drawn,
          mem_singleton_self _, forall_mem_nil _⟩
      refine ⟨by decide, by decide, hready.fresh, fun answer s' hvisit next hnext => ?_⟩
      -- the first answer is the last one
      obtain ⟨answer', s'', hvisit', -, -, hlast, -⟩ :=
        (notesTable count (by omega)).visit_eq (notesTable count (by omega)).left_first hready
          .first
      obtain ⟨rfl, rfl⟩ := Prod.mk.inj (Option.some.inj (hvisit'.symm.trans hvisit))
      rw [hlast (more_notes count hcount)] at hnext
      exact absurd hnext nofun

/-- The first page shows a thousand of a thousand and one notes, and says that there are no more. -/
theorem boundedWalk_not_completes : ¬∀ w : BoundedWalk, w.Completes := by
  intro h
  have hcompletes := (notesWalk 1001 (Nat.le_refl _)).completes_iff_reader.1 (h _)
  have hexhausts := ((CutPages.Reader.reading_completes_iff _ (show 1000 ≠ 0 by decide) _).1
    hcompletes).2 _ .start (more_notes 1001 (Nat.le_refl _))
  have hlength : ((manyNotes 1001).matching.drop 1000).length = 1 := by
    rw [length_drop, length_matching_notes]
  obtain ⟨row, hrow⟩ := length_eq_one_iff.1 hlength
  have hhidden := hexhausts row (hrow ▸ mem_singleton_self row)
  exact absurd hhidden (show ¬true = false from nofun)

end EdgeBase
