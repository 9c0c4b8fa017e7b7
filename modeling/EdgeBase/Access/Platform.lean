import EdgeBase.Reads

/-!
# A simple platform

A database that compares by equality, keeps rows in the order of their insertion, finds every row
in a search and refuses no query, for the requests that show where a handler goes wrong.  On the
few rows of those requests it does what SQLite does.

* `SqlEngine.simple`, `Env.simple`, `Env.onSimple` : the engine, the platform, and another platform
  on this engine.
* `select_simple`, `count_simple` : what the handlers fetch from a table without conditions.
-/

namespace EdgeBase

def SqlEngine.simple : SqlEngine where
  holds t r :=
    match t.op with
    | "==" => r.lookup t.field = some t.value
    | "!=" => r.lookup t.field ≠ some t.value
    | _ => false
  finds _ _ := true
  annotate _ r := r
  above id r := r.id.any (id < ·)
  below id r := r.id.any (· < id)
  order _ rows := rows
  stored _ r := r
  plus
    | .num a, .num b => .num (a + b)
    | _, b => b
  queryFault _ _ := none
  writeFault
    | .insert _ values, rows =>
      if rows.any (fun r => r.lookup "id" = values.lookup "id") then
        some ⟨409, "Record already exists. A unique constraint was violated."⟩
      else none
    | _, _ => none

def Env.simple : Env where
  engine := .simple
  jsonBytes _ := 0
  stringify _ := ""
  parseJson _ := none
  parseNumber _ := none
  textOf _ := ""
  matchesPattern _ _ := true
  isDate _ := true
  now := "2026-01-01T00:00:00.000Z"
  generateId n := "id" ++ toString n
  hookStatus _ := 400
  ftsHealthy _ _ := true
  resolveCursor _ token := .ok token
  issueCursor _ recordId := .ok (recordId, "2026-01-08T00:00:00.000Z")
  cursorExpiry := "2026-01-08T00:00:00.000Z"
  hasDbLiveConsumer := false
  hasTriggerConsumer _ _ := false

def Env.onSimple (env : Env) : Env := { env with engine := .simple }

/-- The Durable Object of a single-instance block that declares one table. -/
def DatabaseDO.single (name : String) (config : TableConfig) : DatabaseDO where
  config := { databases := some [("main", { provider := some .do, tables := some [(name, config)] })] }
  doName := "main"

def Store.single (name : String) (rows : List Row) : Store where
  tables := [(name, rows)]

section Lemmas

variable {name : String} {config : TableConfig} {rows : List Row}

@[simp] theorem getTableConfig_single :
    (DatabaseDO.single name config).getTableConfig name = some config := by
  simp [DatabaseDO.getTableConfig, DatabaseDO.single, DbBlock.table]

@[simp] theorem rows_single : (Store.single name rows).rows name = rows := by
  simp [Store.single, Store.rows]

@[simp] theorem has_single : (Store.single name rows).has name = true := by
  simp [Store.single, Store.has]

theorem ensureTableExists_of_has {d : DatabaseDO} {s : Store} (h : s.has name = true) :
    d.ensureTableExists name s = ⟨.ok (), s, []⟩ := by
  simp [DatabaseDO.ensureTableExists, h]

theorem select_simple (q : Select) (hq : q.conditions = {}) : SqlEngine.simple.select q rows =
      .ok ((q.limit.elim (rows.drop q.offset) (rows.drop q.offset).take).map
        (onlyColumns q.columns)) := by
  have hall : ∀ r, SqlEngine.simple.selects q r = true := by
    intro r
    cases hs : q.search <;> simp [SqlEngine.selects, SqlEngine.satisfies, hq, hs, SqlEngine.simple]
  have hproj : SqlEngine.simple.project q = onlyColumns q.columns := by
    funext r
    cases hs : q.search <;> simp [SqlEngine.project, hs, SqlEngine.simple]
  have hf : rows.filter (SqlEngine.simple.selects q) = rows :=
    List.filter_eq_self.2 fun r _ => hall r
  simp only [SqlEngine.select, hf, hproj]
  simp [SqlEngine.simple]

theorem count_simple : SqlEngine.simple.count { table := name } rows = .ok rows.length := by
  have hf : rows.filter (SqlEngine.simple.selects { table := name }) = rows := by
    refine List.filter_eq_self.2 fun r _ => ?_
    simp [SqlEngine.selects, SqlEngine.satisfies]
  rw [SqlEngine.count, hf]
  rfl

theorem runCount_simple (s : Store) :
    runCount .simple { table := name } s = ⟨.ok (s.rows name).length, s, []⟩ := by
  rw [runCount, Audited.read_bind_apply]
  exact congrArg (fun r => Outcome.mk r _ _) count_simple

theorem normalizeSQLiteBooleanQueryOptions_empty (fields : List String) (term : String)
    (schema : Option UserSchema) :
    normalizeSQLiteBooleanQueryOptions { fields, search := term } schema =
      { fields, search := term } := by
  cases schema <;> rfl

end Lemmas

end EdgeBase
