import EdgeBase.Access.Platform
import EdgeBase.Routes

/-!
# Counting unreadable rows

A caller for whom the read rule is false on every row should learn nothing from the count endpoint.
The middleware evaluates no read rule, so the count handlers decide: those of D1 and PostgreSQL
refuse on the literal `false` and evaluate no function, and the one of the Durable Object reads no
rule at all.

* `UnreadableTable.countOpaque_iff` : **when they are**.
* `count_counterexample` : a filtered count tells whether a hidden row has a given value.
-/

namespace EdgeBase

open Audited

def handleCount (provider : DbProvider) (d : DatabaseDO) (env : Env) (config : TableConfig)
    (caller : Caller) (name : String) (options : QueryOptions) : Handler Response :=
  match provider with
  | .do => d.count env name options
  | .d1 => D1.handleCount env config caller name options
  | .neon | .postgres => PG.handleCount env config caller name options

/-- A table none of whose rows the caller may read. -/
structure UnreadableTable where
  name : String
  config : TableConfig
  auth : Option AuthContext
  rule : RowRule
  rule_eq : rowRule (some config) .read = some rule
  denies : ∀ row, evalRowRule (some rule) auth row = false

namespace UnreadableTable

variable (t : UnreadableTable)

def caller : Caller := { auth := t.auth }

/-- The answer to a count does not depend on what the table holds or on the filter. -/
def CountOpaque (provider : DbProvider) : Prop :=
  ∀ d : DatabaseDO, d.getTableConfig t.name = some t.config → ∀ env s₁ s₂ q₁ q₂,
    (handleCount provider d env t.config t.caller t.name q₁ s₁).result =
      (handleCount provider d env t.config t.caller t.name q₂ s₂).result

variable {t}

theorem activeRule_eq : Worker.activeRule t.config .read t.caller = some t.rule := by
  simp [Worker.activeRule, caller, t.rule_eq]

/-- A literal `false` refuses every count. -/
theorem handleCount_of_false (hrule : t.rule.isFn = false) (denied : HttpError) (env : Env)
    (options : QueryOptions) (s : Store) :
    (Worker.handleCount denied env t.config t.caller t.name options s).result = .error denied := by
  have hfalse : t.rule = .bool false := by
    cases h : t.rule with
    | bool b =>
      have hb := t.denies []
      rw [h, evalRowRule_bool] at hb
      rw [hb]
    | fn f => simp [h, Rule.isFn] at hrule
  rw [Worker.handleCount, Worker.guardRead, activeRule_eq, hfalse, check_bind]
  simp [isLiteralFalse]

theorem handleCount_of_fn (hrule : t.rule.isFn = true) (denied : HttpError) (rows : List Row) :
    (Worker.handleCount denied .simple t.config t.caller t.name {} (.single t.name rows)).result =
      .ok { body := [("total", jsonNat rows.length)] } := by
  have hfn : isLiteralFalse (some t.rule) = false := by
    cases h : t.rule with
    | bool b => simp [h, Rule.isFn] at hrule
    | fn f => rfl
  rw [Worker.handleCount, Worker.guardRead, activeRule_eq, check_bind]
  rw [if_pos (by simp [hfn])]
  have hquery : buildCountQuery t.name [] [] = .ok { table := t.name } := rfl
  rw [hquery, lift_ok_bind, bind_of_ok (congrArg Outcome.result
    (runCount_simple _)), runCount_simple, rows_single]
  rfl

theorem count_object (d : DatabaseDO) (name : String) (rows : List Row) :
    (d.count .simple name {} (.single name rows)).result =
      .ok { body := [("total", jsonNat rows.length)] } := by
  have hensure := ensureTableExists_of_has (d := d) (s := .single name rows) has_single
  have hquery : buildCountQuery name [] [] = .ok { table := name } := rfl
  rw [DatabaseDO.count, bind_of_ok (congrArg Outcome.result hensure), hensure,
    emit_bind_apply, normalizeSQLiteBooleanQueryOptions_empty, hquery,
    lift_ok_bind, bind_of_ok (congrArg Outcome.result (runCount_simple _)),
    runCount_simple, rows_single]
  rfl

theorem not_opaque_of_counts {provider : DbProvider} (d : DatabaseDO)
    (hd : d.getTableConfig t.name = some t.config)
    (h : ∀ rows, (handleCount provider d .simple t.config t.caller t.name {}
      (.single t.name rows)).result = .ok { body := [("total", jsonNat rows.length)] }) :
    ¬t.CountOpaque provider := by
  intro hopaque
  have hsame := hopaque d hd .simple (.single t.name []) (.single t.name [[]]) {} {}
  rw [h, h] at hsame
  exact absurd hsame (by decide)

/-- **Counting.**  A count tells a caller for whom the read rule is false on every row nothing
about the table if and only if the provider is not the Durable Object and the rule is the literal
`false`. -/
theorem countOpaque_iff (t : UnreadableTable) (provider : DbProvider) :
    t.CountOpaque provider ↔ provider ≠ .do ∧ t.rule.isFn = false := by
  have hsingle : (DatabaseDO.single t.name t.config).getTableConfig t.name = some t.config :=
    getTableConfig_single
  constructor
  · intro h
    refine ⟨?_, ?_⟩
    · rintro rfl
      refine not_opaque_of_counts _ hsingle (fun rows => ?_) h
      exact count_object _ _ rows
    · by_contra hfn
      have hfn : t.rule.isFn = true := by simpa using hfn
      refine not_opaque_of_counts _ hsingle (fun rows => ?_) h
      cases provider with
      | «do» => exact count_object _ _ _
      | d1 =>
        rw [handleCount, D1.handleCount, D1.queryOptions,
          normalizeSQLiteBooleanQueryOptions_empty]
        exact handleCount_of_fn hfn _ _
      | neon | postgres => exact handleCount_of_fn hfn _ _
  · rintro ⟨hprovider, hfalse⟩ d - env s₁ s₂ q₁ q₂
    cases provider with
    | «do» => exact absurd rfl hprovider
    | d1 | neon | postgres =>
      exact (handleCount_of_false hfalse _ env _ s₁).trans
        (handleCount_of_false hfalse _ env _ s₂).symm

/-! ### A count as an oracle -/

def hiddenSalaries : UnreadableTable where
  name := "salaries"
  config := { access := some { read := some (.fn fun _ _ => .value false) } }
  auth := none
  rule := .fn fun _ _ => .value false
  rule_eq := rfl
  denies := fun _ => rfl

def salariesConfig (provider : DbProvider) : EdgeBaseConfig where
  databases := some [("main",
    { provider := some provider, tables := some [("salaries", hiddenSalaries.config)] })]
  release := true

/-- `GET /api/db/main/tables/salaries/count`, without any credentials. -/
def countSalaries : Request where
  method := .get
  path := [.lit "api" isSegment_api, .lit "db" isSegment_db, .lit "main",
    .lit "tables" isSegment_tables, .lit "salaries", .lit "count"]

def salaryFilter : QueryOptions where
  filters := [⟨"salary", "==", .num 100⟩]

/-- The answer of the salaries object to the filtered count, when Alice earns `salary`. -/
def filteredCount (salary : ℚ) : Except HttpError Response :=
  ((DatabaseDO.mk (salariesConfig .do) "main").count .simple "salaries" salaryFilter
    (.single "salaries" [[("id", .str "alice"), ("salary", .num salary)]])).result

/-- The count request passes the middleware, and the filtered count tells whether Alice earns
100. -/
theorem count_counterexample :
    (rulesMiddleware (salariesConfig .do) countSalaries).Passes ∧
      filteredCount 100 = .ok { body := [("total", jsonNat 1)] } ∧
      filteredCount 90 = .ok { body := [("total", jsonNat 0)] } ∧
      ¬hiddenSalaries.CountOpaque .do :=
  ⟨by decide, rfl, rfl,
    not_opaque_of_counts (.mk (salariesConfig .do) "main") rfl (fun rows => count_object _ _ rows)⟩

end UnreadableTable

end EdgeBase
