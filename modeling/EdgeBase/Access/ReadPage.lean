import EdgeBase.Access.Pages

/-!
# All or nothing

The documentation promises that a list or search request is answered with the whole page or not at
all: 200 with every row when the read rule is true on every row of the page, 403 when it is false
on one.  The Durable Object keeps the promise except for the literal `false`, which it takes for no
rule; D1 and PostgreSQL drop the rows that a rule function denies.

* `ReadTable.allOrNothing_iff` : **when the promise holds**.
* `readPage_counterexample` : on a page with one denied row the object refuses and D1 does not.
-/

namespace EdgeBase

open List

/-- A table with a read rule, and a caller without a service key. -/
structure ReadTable where
  name : String
  config : TableConfig
  auth : Option AuthContext
  rule : RowRule
  rule_eq : rowRule (some config) .read = some rule

namespace ReadTable

variable (t : ReadTable)

def caller : Caller := { auth := t.auth }

def Allows (row : Row) : Prop := evalRowRule (some t.rule) t.auth row = true

instance (row : Row) : Decidable (t.Allows row) := inferInstanceAs (Decidable (_ = true))

def PageRow (provider : DbProvider) (row : Row) : Prop :=
  ∃ env r, cleanRow provider env t.config r = row

def answer (op : ReadOp) (provider : DbProvider) (d : DatabaseDO) (env : Env) (q : PageRequest)
    (s : Store) : Except HttpError Response :=
  (handleRead op d env t.config t.caller t.name q provider s).result

def Fetches (op : ReadOp) (provider : DbProvider) (d : DatabaseDO) (env : Env) (q : PageRequest)
    (s : Store) (page : ReadPage) : Prop :=
  (fetchPage op d env t.config t.name q provider s).result = .ok (.ok page)

/-- All or nothing: an answer of status 200 shows a page on every row of which the rule is true,
and a page with a row on which it is false is answered 403. -/
def AllOrNothing (op : ReadOp) (provider : DbProvider) : Prop :=
  ∀ d : DatabaseDO, d.getTableConfig t.name = some t.config → ∀ env q s page,
    t.Fetches op provider d env q s page →
    (∀ r, t.answer op provider d env q s = .ok r → r.status = 200 →
      (∀ row ∈ page.rows, t.Allows row) ∧
        (Shows r page.rows ∨ Shows r (page.rows.map (enrichRecord t.config.hooks t.auth)))) ∧
    ((∃ row ∈ page.rows, ¬t.Allows row) → statusOf (t.answer op provider d env q s) = 403)

def seen (answer : Except HttpError Response) : ℕ × Option Json :=
  (statusOf answer, answer.toOption.bind Response.items)

/-- The providers give the same answer to the same page. -/
def Agree (op : ReadOp) : Prop :=
  ∀ d : DatabaseDO, d.getTableConfig t.name = some t.config → ∀ (env : Env) q page
    (s : DbProvider → Store), (∀ provider, t.Fetches op provider d env q (s provider) page) →
    ∀ p₁ p₂, seen (t.answer op p₁ d env q (s p₁)) = seen (t.answer op p₂ d env q (s p₂))

/-- When a provider keeps the promise: the object on every rule but the literal `false`, the others
on a boolean and on a function that denies no row of any page. -/
def Kept (provider : DbProvider) : Prop :=
  match provider with
  | .do => t.rule ≠ .bool false
  | .d1 | .neon | .postgres =>
    t.rule.isFn = true → ∀ row, t.PageRow provider row → t.Allows row

/-- When the providers agree: the rule denies no row that all of them can fetch and is not the
literal `false`, and a search needs no enrichment. -/
def Agreed (op : ReadOp) : Prop :=
  t.rule ≠ .bool false ∧ ∀ (env : Env) (r : DbProvider → Row) (row : Row),
    (∀ provider, cleanRow provider env t.config (r provider) = row) →
      t.Allows row ∧ (op = .search → enrichRecord t.config.hooks t.auth row = row)

variable {t} {op : ReadOp} {provider : DbProvider} {d : DatabaseDO} {env : Env} {q : PageRequest}
  {s : Store} {page : ReadPage}

/-! #### The rule that the handlers enforce -/

theorem workerRule : Worker.activeRule t.config .read t.caller = some t.rule := by
  simp [Worker.activeRule, caller, t.rule_eq]

theorem isLiteralFalse_iff : isLiteralFalse (some t.rule) = true ↔ t.rule = .bool false := by
  cases t.rule with
  | bool b => cases b <;> simp [isLiteralFalse]
  | fn f => simp [isLiteralFalse]

theorem objectRule (h : t.rule ≠ .bool false) :
    DatabaseDO.activeRule (some t.config) .read t.caller = some t.rule := by
  have htruthy : t.rule.truthy = true := by
    cases hr : t.rule with
    | bool b => cases b <;> simp_all [Rule.truthy]
    | fn f => rfl
  simp [DatabaseDO.activeRule, caller, t.rule_eq, htruthy]

theorem objectRule_of_false (h : t.rule = .bool false) :
    DatabaseDO.activeRule (some t.config) .read t.caller = none := by
  simp [DatabaseDO.activeRule, caller, t.rule_eq, h, Rule.truthy]

theorem visibleRows_of_allowed (h : ∀ row ∈ page.rows, t.Allows row) :
    Worker.visibleRows t.config t.caller page = page.rows := by
  rw [Worker.visibleRows, workerRule]
  exact filter_eq_self.2 h

/-! #### A provider that keeps the promise -/

theorem objectBody_items (items : List Row) (total : Option ℕ) :
    (objectBody op page items total).lookup "items" = some (.arr (items.map .obj)) := by
  cases op <;> rfl

theorem allOrNothing_do (h : t.rule ≠ .bool false) : t.AllOrNothing op .do := by
  intro d hd env q s page hpage
  by_cases hall : ∀ row ∈ page.rows, t.Allows row
  · refine ⟨fun r hr hstatus => ⟨hall, ?_⟩, fun ⟨row, hrow, hn⟩ => absurd (hall row hrow) hn⟩
    rw [answer, handleRead_do_of_allowed hd hpage (by rw [objectRule h]; exact hall)] at hr
    exact .inr ((respond_shows (by simp) (objectBody_items _) hr hstatus).elim id id)
  · simp only [Classical.not_forall] at hall
    obtain ⟨row, hrow, hdenied⟩ := hall
    obtain ⟨message, hresult⟩ := handleRead_do_of_denied hd hpage hrow
      (by rw [objectRule h]; exact Bool.not_eq_true _ ▸ hdenied)
    have hanswer : t.answer op .do d env q s = .error ⟨403, message⟩ := hresult
    rw [hanswer]
    exact ⟨nofun, fun _ => rfl⟩

theorem workerBody_items {visible items : List Row} (total : Option ℕ) :
    (workerBody op env provider page visible items total).lookup "items" =
      some (.arr ((match op with | .list => items | .search => visible).map .obj)) := by
  cases op <;> rfl

theorem guard_of_ne (h : t.rule ≠ .bool false) :
    isLiteralFalse (Worker.activeRule t.config .read t.caller) = false := by
  rw [workerRule, ← Bool.not_eq_true, isLiteralFalse_iff]
  exact h

/-- D1 and PostgreSQL refuse everything on the literal `false`. -/
theorem answer_worker_of_false (hprovider : provider ≠ .do) (h : t.rule = .bool false)
    (op : ReadOp) (d : DatabaseDO) (env : Env) (q : PageRequest) (s : Store) :
    ∃ message, t.answer op provider d env q s = .error ⟨403, message⟩ :=
  handleRead_worker_of_false hprovider (by rw [workerRule]; exact isLiteralFalse_iff.2 h)

theorem answer_worker_of_allowed (hprovider : provider ≠ .do) (h : t.rule ≠ .bool false)
    (hpage : t.Fetches op provider d env q s page) (hall : ∀ row ∈ page.rows, t.Allows row) :
    t.answer op provider d env q s =
      respond env t.name page page.rows (page.rows.map (enrichRecord t.config.hooks t.auth))
        (workerBody op env provider page page.rows
          (page.rows.map (enrichRecord t.config.hooks t.auth))) := by
  rw [answer, handleRead_worker hprovider hpage (guard_of_ne h), visibleRows_of_allowed hall]
  rfl

theorem allOrNothing_worker (hprovider : provider ≠ .do)
    (h : t.rule.isFn = true → ∀ row, t.PageRow provider row → t.Allows row) :
    t.AllOrNothing op provider := by
  intro d hd env q s page hpage
  have hrows := fetchPage_rows hd provider hpage
  by_cases hfalse : t.rule = .bool false
  · obtain ⟨message, hanswer⟩ := answer_worker_of_false hprovider hfalse op d env q s
    rw [hanswer]
    exact ⟨nofun, fun _ => rfl⟩
  · have hall : ∀ row ∈ page.rows, t.Allows row := by
      intro row hrow
      cases hr : t.rule with
      | bool b =>
        cases b
        · exact absurd hr hfalse
        · simp [Allows, hr]
      | fn f =>
        obtain ⟨r, hr'⟩ := hrows row hrow
        exact h (by rw [hr]; rfl) row ⟨env, r, hr'⟩
    refine ⟨fun r hr hstatus => ⟨hall, ?_⟩, fun ⟨row, hrow, hn⟩ => absurd (hall row hrow) hn⟩
    rw [answer_worker_of_allowed hprovider hfalse hpage hall] at hr
    rcases respond_shows (by simp) workerBody_items hr hstatus with hs | hs
    · cases op
      · exact .inr hs
      · exact .inl hs
    · exact .inr hs

/-! #### Where the promise breaks -/

theorem fetches_simple (t : ReadTable) (op : ReadOp) (provider : DbProvider)
    (hd : d.getTableConfig t.name = some t.config) (env : Env) (r : Row) :
    t.Fetches op provider d env.onSimple (firstPage op []) (.single t.name [r])
      (simplePage op [] [cleanRow provider env t.config r]) := by
  have h := fetchPage_single op env hd provider [] r
  have hcolumns : op.columns [] = [] := by cases op <;> rfl
  rw [hcolumns] at h
  exact h

theorem answer_do_simple {row : Row} (hd : d.getTableConfig t.name = some t.config)
    (hpage : t.Fetches op .do d env q s (simplePage op [] [row]))
    (h : t.rule = .bool false ∨ t.Allows row) :
    t.answer op .do d env q s =
      .ok { body := objectBody op (simplePage op [] [row])
              [enrichRecord t.config.hooks t.auth row] none } := by
  by_cases hfalse : t.rule = .bool false
  · exact handleRead_do_of_allowed hd hpage (by simp [objectRule_of_false hfalse])
  · refine handleRead_do_of_allowed hd hpage ?_
    rw [objectRule hfalse]
    intro row' hrow'
    obtain rfl : row' = row := by simpa [simplePage] using hrow'
    exact h.resolve_left hfalse

theorem answer_worker_simple (hprovider : provider ≠ .do) (hfalse : t.rule ≠ .bool false)
    {rows : List Row} (hpage : t.Fetches op provider d env q s (simplePage op [] rows)) :
    statusOf (t.answer op provider d env q s) = 200 := by
  rw [answer, handleRead_worker hprovider hpage (guard_of_ne hfalse)]
  rfl

theorem kept_do (h : t.AllOrNothing op .do) : t.rule ≠ .bool false := by
  have hd : (DatabaseDO.single t.name t.config).getTableConfig t.name = some t.config :=
    getTableConfig_single
  intro hfalse
  have hpage := fetches_simple t op .do hd .simple []
  have hstatus := (h _ hd _ _ _ _ hpage).2
    ⟨_, mem_singleton_self _, by simp [Allows, hfalse]⟩
  rw [answer_do_simple hd hpage (.inl hfalse)] at hstatus
  exact absurd (show (200 : ℕ) = 403 from hstatus) (by decide)

theorem kept_worker (hprovider : provider ≠ .do) (h : t.AllOrNothing op provider) :
    t.rule.isFn = true → ∀ row, t.PageRow provider row → t.Allows row := by
  have hd : (DatabaseDO.single t.name t.config).getTableConfig t.name = some t.config :=
    getTableConfig_single
  rintro hfn row ⟨env, r, rfl⟩
  by_contra hdenied
  have hfalse : t.rule ≠ .bool false := by
    intro hr
    rw [hr] at hfn
    exact absurd hfn (by decide)
  have hpage := fetches_simple t op provider hd env r
  have hstatus := (h _ hd _ _ _ _ hpage).2 ⟨_, mem_singleton_self _, hdenied⟩
  rw [answer_worker_simple hprovider hfalse hpage] at hstatus
  exact absurd hstatus (by decide)

theorem allOrNothing_iff_kept : t.AllOrNothing op provider ↔ t.Kept provider := by
  cases provider with
  | «do» => exact ⟨kept_do, allOrNothing_do⟩
  | d1 | neon | postgres => exact ⟨kept_worker (by simp), allOrNothing_worker (by simp)⟩

/-! #### Agreement -/

theorem seen_respond {name : String} {visible items : List Row} {body₁ body₂ : Option ℕ → Row}
    (h : ∀ total, (body₁ total).lookup "items" = (body₂ total).lookup "items") :
    seen (respond env name page visible items body₁) =
      seen (respond env name page visible items body₂) := by
  unfold respond
  cases page.total with
  | error e => rfl
  | ok total =>
    cases page.bound with
    | some bound => rfl
    | none => exact congrArg (Prod.mk 200) (h total)

theorem seen_of_agreed (h : t.Agreed op) (hd : d.getTableConfig t.name = some t.config)
    (hpage : t.Fetches op provider d env q s page)
    (hcommon : ∀ row ∈ page.rows, ∀ provider, ∃ r, cleanRow provider env t.config r = row) :
    seen (t.answer op provider d env q s) = seen (respond env t.name page page.rows
        (page.rows.map (enrichRecord t.config.hooks t.auth))
        (objectBody op page (page.rows.map (enrichRecord t.config.hooks t.auth)))) := by
  have hrow : ∀ row ∈ page.rows, t.Allows row ∧
      (op = .search → enrichRecord t.config.hooks t.auth row = row) := by
    intro row hrow
    choose r hr using hcommon row hrow
    exact h.2 env r row hr
  have hall : ∀ row ∈ page.rows, t.Allows row := fun row hmem => (hrow row hmem).1
  by_cases hprovider : provider = .do
  · subst hprovider
    rw [answer, handleRead_do_of_allowed hd hpage (by rw [objectRule h.1]; exact hall)]
    rfl
  · rw [answer_worker_of_allowed hprovider h.1 hpage hall]
    refine seen_respond fun total => ?_
    rw [workerBody_items, objectBody_items]
    cases op with
    | list => rfl
    | search =>
      have hid : page.rows.map (enrichRecord t.config.hooks t.auth) = page.rows :=
        (map_congr_left fun row hmem => (hrow row hmem).2 rfl).trans (map_id _)
      rw [hid]

theorem agree_of_agreed (h : t.Agreed op) : t.Agree op := by
  intro d hd env q page s hpage p₁ p₂
  have hcommon : ∀ row ∈ page.rows, ∀ provider, ∃ r, cleanRow provider env t.config r = row :=
    fun row hrow provider => fetchPage_rows hd provider (hpage provider) row hrow
  exact (seen_of_agreed h hd (hpage p₁) hcommon).trans
    (seen_of_agreed h hd (hpage p₂) hcommon).symm

theorem fetches_empty (t : ReadTable) (op : ReadOp) (provider : DbProvider)
    (hd : d.getTableConfig t.name = some t.config) (env : Env) :
    t.Fetches op provider d env.onSimple (firstPage op []) (.single t.name []) (simplePage op [] []) :=
  fetchPage_simple op env hd provider [] []

theorem agreed_of_agree (h : t.Agree op) : t.Agreed op := by
  have hd : (DatabaseDO.single t.name t.config).getTableConfig t.name = some t.config :=
    getTableConfig_single
  have hd1 : DbProvider.d1 ≠ .do := by decide
  have hfalse : t.rule ≠ .bool false := by
    intro hfalse
    have hpage := fun provider => fetches_empty t op provider hd .simple
    have hsame := congrArg Prod.fst (h _ hd _ _ _ _ hpage .do .d1)
    obtain ⟨message, hrefused⟩ := answer_worker_of_false hd1 hfalse op
      (.single t.name t.config) Env.simple.onSimple (firstPage op []) (.single t.name [])
    have hobject : t.answer op .do _ _ _ _ = _ :=
      handleRead_do_of_allowed hd (hpage .do) (by simp [simplePage])
    rw [hobject, hrefused] at hsame
    exact absurd (show (200 : ℕ) = 403 from hsame) (by decide)
  refine ⟨hfalse, fun env r row hrow => ?_⟩
  have hpage : ∀ provider, t.Fetches op provider (.single t.name t.config) env.onSimple
      (firstPage op []) (.single t.name [r provider]) (simplePage op [] [row]) := by
    intro provider
    rw [← hrow provider]
    exact fetches_simple t op provider hd env (r provider)
  have hsame := h _ hd _ _ _ _ hpage .do .d1
  have hallows : t.Allows row := by
    by_contra hdenied
    obtain ⟨message, hobject⟩ := handleRead_do_of_denied hd (hpage .do)
      (mem_singleton_self _) (by rw [objectRule hfalse]; exact Bool.not_eq_true _ ▸ hdenied)
    have hrefused : t.answer op .do _ _ _ _ = .error ⟨403, message⟩ := hobject
    have hstatus : statusOf (t.answer op .do _ _ _ _) = statusOf (t.answer op .d1 _ _ _ _) :=
      congrArg Prod.fst hsame
    rw [answer_worker_simple hd1 hfalse (hpage .d1), hrefused] at hstatus
    exact absurd (show (403 : ℕ) = 200 from hstatus) (by decide)
  refine ⟨hallows, ?_⟩
  rintro rfl
  have hall : ∀ row' ∈ (simplePage .search [] [row]).rows, t.Allows row' := by
    intro row' hrow'
    obtain rfl : row' = row := mem_singleton.1 hrow'
    exact hallows
  rw [answer_worker_of_allowed hd1 hfalse (hpage .d1) hall,
    answer_do_simple hd (hpage .do) (.inr hallows)] at hsame
  have hitems : some (Json.arr [.obj (enrichRecord t.config.hooks t.auth row)]) =
      some (Json.arr [.obj row]) := congrArg Prod.snd hsame
  simpa using hitems

/-- **All or nothing.**  A provider keeps the promise exactly on the rules of `Kept`, and the
providers agree exactly on those of `Agreed`. -/
theorem allOrNothing_iff (t : ReadTable) (op : ReadOp) :
    (∀ provider, t.AllOrNothing op provider ↔ t.Kept provider) ∧ (t.Agree op ↔ t.Agreed op) :=
  ⟨fun _ => allOrNothing_iff_kept, agreed_of_agree, agree_of_agreed⟩

/-! ### A page with one denied row -/

def notes : ReadTable where
  name := "notes"
  config := { access := some { read := some (.fn fun auth row =>
    .value (row.lookup "author" = auth.map fun a => .str a.id)) } }
  auth := some { id := "alice" }
  rule := .fn fun auth row => .value (row.lookup "author" = auth.map fun a => .str a.id)
  rule_eq := rfl

def noteRows : List Row :=
  [[("id", .str "n1"), ("author", .str "alice")], [("id", .str "n2"), ("author", .str "bob")]]

/-- Alice lists the notes: the object refuses, and D1 and PostgreSQL silently drop Bob's note. -/
theorem readPage_counterexample :
    (∀ provider ∈ [DbProvider.d1, .neon, .postgres],
      seen (notes.answer .list provider (.single "notes" notes.config) .simple {}
        (.single "notes" noteRows)) =
        (200, some (.arr [.obj [("id", .str "n1"), ("author", .str "alice")]]))) ∧
    notes.answer .list .do (.single "notes" notes.config) .simple {} (.single "notes" noteRows) =
      .error ⟨403, ruleRejectedMessage "notes" "read" "n2"⟩ ∧
    (∀ provider ∈ [DbProvider.d1, .neon, .postgres], ¬notes.AllOrNothing .list provider) ∧
    ¬notes.Agree .list := by
  have hdenied : ¬notes.Allows [("author", .str "bob")] := by decide
  have hclean : ∀ provider, cleanRow provider .simple notes.config [("author", .str "bob")] =
      [("author", .str "bob")] := by
    intro provider
    cases provider <;> rfl
  refine ⟨by decide, by rfl, ?_, ?_⟩
  · intro provider hmem h
    have hkept := allOrNothing_iff_kept.1 h
    simp only [mem_cons, not_mem_nil, or_false] at hmem
    rcases hmem with rfl | rfl | rfl
    all_goals exact hdenied (hkept rfl _ ⟨_, _, hclean _⟩)
  · intro h
    exact hdenied ((agreed_of_agree h).2 .simple (fun _ => _) _ hclean).1

end ReadTable

end EdgeBase
