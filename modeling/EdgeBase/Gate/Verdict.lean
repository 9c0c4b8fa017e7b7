import EdgeBase.Routes

/-!
# What a passed middleware has evaluated

Spec lemmas of the gates of `rulesMiddleware`, one per gate: when a gate lets a request pass, and
which evaluations it leaves behind.  The properties of the routes are derived from these and never
unfold a gate.

* `rulesMiddleware_client` : the middleware on the requests of outside callers without a key.
* `insert_mem_of_passes` : where the path makes the middleware check inserts, a request that
  passes has an evaluated insert rule.
* `access_mem_of_passes` : a request that passes for an instance of a block with an access
  function has that function evaluated to `true`.
* `tableGate_passes_of_insert` : an insert rule `true` opens every table gate.
-/

namespace EdgeBase

open List Option

open PathText (Segment render)

namespace Verdict

@[simp] theorem passes_next : Verdict.next.Passes := rfl

@[simp] theorem evaluated_next : Verdict.next.evaluated = [] := rfl

@[simp] theorem not_passes_refuse (status : ℕ) (message : String) :
    ¬(Verdict.refuse status message).Passes := nofun

@[simp] theorem evaluated_refuse (status : ℕ) (message : String) :
    (Verdict.refuse status message).evaluated = [] := rfl

@[simp] theorem passes_after (v : Verdict) (e : Evaluation) : (v.after e).Passes ↔ v.Passes :=
  Iff.rfl

@[simp] theorem evaluated_after (v : Verdict) (e : Evaluation) :
    (v.after e).evaluated = e :: v.evaluated := rfl

end Verdict

section Gates

variable {config : EdgeBaseConfig} {req : Request} {path : List Char} {ns tableName : String}
  {rules : TableRules}

/-- The insert rule that a configuration declares for a table. -/
def insertRuleOf (config : EdgeBaseConfig) (ns tableName : String) : Option InsertRule :=
  (config.block ns).bind fun block =>
    (block.table tableName).bind fun table => table.access.bind TableRules.insert

/-- The paths of a `POST` without upsert on which the middleware evaluates the insert rule. -/
def checksInsert (path : List Char) : Bool :=
  if includes path "/batch" then !includes path "/batch-by-filter"
  else !includes path "/search" && !includes path "/count"

@[simp] theorem passes_unlessRelease (message : String) :
    (unlessRelease config message).Passes ↔ config.release = false := by
  unfold unlessRelease
  split_ifs with h <;> simp [h]

@[simp] theorem evaluated_unlessRelease (message : String) :
    (unlessRelease config message).evaluated = [] := by
  unfold unlessRelease
  split_ifs <;> rfl

variable (req ns tableName) in
theorem insertGate_spec (action : String) (rule : InsertRule) :
    ((insertGate req ns tableName action rule).Passes ↔
      settle workerRuleTimeoutMs (rule.call req.auth ()) = true) ∧
    (insertGate req ns tableName action rule).evaluated =
      [.insert ns tableName (settle workerRuleTimeoutMs (rule.call req.auth ()))] := by
  unfold insertGate evalWithTimeout
  cases settle workerRuleTimeoutMs (rule.call req.auth ())
  · exact ⟨by simp [tableRuleRejected], by simp [tableRuleRejected]⟩
  · exact ⟨by simp, by simp⟩

/-- On a `POST` without upsert whose path is classified as an insert, the table gate is the insert
rule, and without a rule it depends on the mode. -/
theorem tableGate_insert (hm : req.method = .post) (hup : req.upsert = false)
    (hpath : checksInsert path = true) (hp : (tableGate config req path ns tableName rules).Passes)
    (hg : config.release = true ∨ rules.insert.isSome = true) :
    .insert ns tableName true ∈ (tableGate config req path ns tableName rules).evaluated := by
  unfold tableGate batchGate at hp ⊢
  unfold checksInsert at hpath
  cases hr : rules.insert with
  | none =>
    have hrel : config.release = true := by simpa [hr] using hg
    exfalso
    by_cases hb : includes path "/batch" = true
    · rw [if_pos hb, Bool.not_eq_true'] at hpath
      simp [hup, hm, hb, hr, hrel, tableRuleRejected, hpath] at hp
    · rw [if_neg hb] at hpath
      simp only [Bool.and_eq_true, Bool.not_eq_true'] at hpath
      simp [getAction, hup, hm, hb, hr, hrel, hpath] at hp
  | some rule =>
    by_cases hb : includes path "/batch" = true
    · rw [if_pos hb, Bool.not_eq_true'] at hpath
      simp only [hup, hm, hb, hr, hpath, Bool.false_and, Bool.false_eq_true, ite_false,
        ite_true] at hp ⊢
      have hs := insertGate_spec req ns tableName "batch insert" rule
      rw [hs.2, hs.1.1 hp]
      exact mem_singleton_self _
    · rw [if_neg hb] at hpath
      simp only [Bool.and_eq_true, Bool.not_eq_true'] at hpath
      simp only [getAction, hup, hm, hb, hr, hpath, Bool.false_and, Bool.false_eq_true,
        ite_false] at hp ⊢
      have hs := insertGate_spec req ns tableName "insert" rule
      rw [hs.2, hs.1.1 hp]
      exact mem_singleton_self _

/-- An insert rule `true` opens the table gate for every method, path and mode. -/
theorem tableGate_passes_of_insert (h : rules.insert = some (.bool true)) :
    (tableGate config req path ns tableName rules).Passes := by
  have hins (action : String) :
      (insertGate req ns tableName action (.bool true)).Passes :=
    (insertGate_spec _ _ _ action _).1.2 rfl
  unfold tableGate
  split_ifs with h1 h2
  · simp [upsertGate, h, evalWithTimeout, settle, Verdict.Passes]
  · by_cases hm : req.method = .post
    · by_cases hbf : includes path "/batch-by-filter" = true
      · simp [batchGate, hm, hbf]
      · simpa [batchGate, hm, hbf, h] using hins "batch insert"
    · simp [batchGate, hm]
  · split
    · rw [h]
      exact hins _
    · exact Verdict.passes_next

/-- On a `POST` without upsert whose path is not classified as an insert, the table gate evaluates
nothing. -/
theorem evaluated_tableGate_of_not_insert (hm : req.method = .post) (hup : req.upsert = false)
    (hpath : checksInsert path = false) :
    (tableGate config req path ns tableName rules).evaluated = [] := by
  unfold checksInsert at hpath
  by_cases hb : includes path "/batch" = true
  · rw [if_pos hb, Bool.not_eq_false'] at hpath
    simp [tableGate, batchGate, hup, hm, hb, hpath]
  · rw [if_neg hb, Bool.and_eq_false_iff, Bool.not_eq_false', Bool.not_eq_false'] at hpath
    by_cases hs : includes path "/search" = true
    · simp [tableGate, getAction, hup, hb, hs]
    · simp [tableGate, getAction, hup, hb, hs, hpath.resolve_left hs]

def insertEvaluation (req : Request) (ns tableName : String) (rule : InsertRule) : Evaluation :=
  .insert ns tableName (settle workerRuleTimeoutMs (rule.call req.auth ()))

theorem mem_evaluated_upsertGate {e : Evaluation}
    (he : e ∈ (upsertGate config req ns tableName rules).evaluated) :
    (∃ b, e = .update ns tableName b) ∨
      ∃ rule ∈ rules.insert, e = insertEvaluation req ns tableName rule := by
  unfold upsertGate at he
  by_cases hnone : (rules.insert.isNone && rules.update.isNone) = true
  · rw [if_pos hnone, evaluated_unlessRelease] at he
    simp at he
  · simp only [if_neg hnone, mem_append, mem_ite_nil_right, mem_singleton] at he
    obtain ⟨hs, rfl⟩ | ⟨-, rfl⟩ := he
    · obtain ⟨rule, hr⟩ := isSome_iff_exists.1 hs
      exact .inr ⟨rule, hr, by simp [hr, insertEvaluation, evalWithTimeout]⟩
    · exact .inl ⟨_, rfl⟩

theorem mem_evaluated_batchGate {e : Evaluation}
    (he : e ∈ (batchGate config req path ns tableName rules).evaluated) :
    ∃ rule ∈ rules.insert, e = insertEvaluation req ns tableName rule := by
  unfold batchGate at he
  by_cases hm : req.method = .post
  · by_cases hbf : includes path "/batch-by-filter" = true
    · simp [hm, hbf] at he
    · cases hr : rules.insert with
      | none =>
        simp only [hm, hbf, hr, ite_true, Bool.false_eq_true, ite_false] at he
        split_ifs at he <;> simp [tableRuleRejected] at he
      | some rule =>
        simp only [hm, hbf, hr, ite_true, Bool.false_eq_true, ite_false, (insertGate_spec _ _ _ _ _).2,
          mem_singleton] at he
        exact ⟨rule, rfl, he⟩
  · simp [hm] at he

/-- The table gate evaluates rules of its own table only, and the insert rule only if there is
one. -/
theorem mem_evaluated_tableGate {e : Evaluation}
    (he : e ∈ (tableGate config req path ns tableName rules).evaluated) :
    (∃ b, e = .update ns tableName b) ∨
      ∃ rule ∈ rules.insert, e = insertEvaluation req ns tableName rule := by
  unfold tableGate at he
  split_ifs at he with h1 h2
  · exact mem_evaluated_upsertGate he
  · exact .inr (mem_evaluated_batchGate he)
  · split at he
    · cases hr : rules.insert with
      | none => simp [hr] at he
      | some rule =>
        rw [hr] at he
        simp only [(insertGate_spec _ _ _ _ _).2, mem_singleton] at he
        exact .inr ⟨rule, rfl, he⟩
    · simp at he

/-- The access gate passes exactly if the access function allows the id and the rest passes. -/
theorem accessGate_passes_iff {block : DbBlock} {dbId : Option String} {k : Verdict} :
    (accessGate req block ns dbId k).Passes ↔ (∀ access ∈ block.accessFn, ∀ id ∈ dbId,
        settle dbAccessRuleTimeoutMs (access req.auth id) = true) ∧ k.Passes := by
  unfold accessGate
  cases block.accessFn with
  | none => simp
  | some access =>
    cases dbId with
    | none => simp
    | some id => cases h : settle dbAccessRuleTimeoutMs (access req.auth id) <;>
        simp [evalWithTimeout, h]

theorem mem_of_evaluated_accessGate {block : DbBlock} {dbId : Option String} {k : Verdict}
    {e : Evaluation} (he : e ∈ (accessGate req block ns dbId k).evaluated) :
    (∃ id b, e = .access ns id b) ∨ e ∈ k.evaluated := by
  unfold accessGate at he
  split at he
  · rw [Verdict.evaluated_after, mem_cons] at he
    obtain rfl | he := he
    · exact .inl ⟨_, _, rfl⟩
    · split_ifs at he
      · exact .inr he
      · simp at he
  · exact .inr he

theorem mem_evaluated_accessGate {block : DbBlock} {dbId : Option String} {k : Verdict}
    {e : Evaluation} (hp : (accessGate req block ns dbId k).Passes) :
    e ∈ (accessGate req block ns dbId k).evaluated ↔
      (∃ access ∈ block.accessFn, ∃ id ∈ dbId, e = .access ns id true) ∨ e ∈ k.evaluated := by
  have h := (accessGate_passes_iff.1 hp).1
  unfold accessGate
  cases ha : block.accessFn with
  | none => simp
  | some access =>
    cases hd : dbId with
    | none => simp
    | some id =>
      have hs : settle dbAccessRuleTimeoutMs (access req.auth id) = true := by
        simpa [ha, hd] using h
      simp [evalWithTimeout, hs]

/-! ### The whole middleware -/

theorem rulesMiddleware_client (hc : req.IsClient) :
    rulesMiddleware config req =
      match parsePath (render req.path) with
      | .skip => .next
      | .malformed => .refuse 500 "URI malformed"
      | .table ns instanceId tableName =>
        checkRules config req (render req.path) ns instanceId tableName := by
  unfold rulesMiddleware
  dsimp only
  cases parsePath (render req.path) with
  | skip => rfl
  | malformed => rfl
  | table ns instanceId tableName => simp [hc.1, Request.validateKey, hc.2]

/-- The middleware finds the table in the block, or the block declares no tables at all. -/
def DbBlock.Admits (block : DbBlock) (tableName : String) : Prop :=
  block.tables.isSome = true → (block.table tableName).isSome = true

variable {instanceId : Option String}

variable {block : DbBlock}

theorem checkRules_of_admits (hb : config.block ns = some block) (hd : block.Admits tableName) :
    checkRules config req path ns instanceId tableName =
      accessGate req block ns (req.dbId ns instanceId) (tableRulesGate config req path ns tableName
          ((block.table tableName).bind TableConfig.access)) := by
  have hdb : config.databases.isNone = false := by
    cases hd : config.databases with
    | none => simp [EdgeBaseConfig.block, hd] at hb
    | some dbs => rfl
  have hu : ¬(block.tables.isSome && (block.table tableName).isNone) = true := by
    intro h
    obtain ⟨h1, h2⟩ := (Bool.and_eq_true _ _).mp h
    exact absurd (hd h1) (by simpa using h2)
  simp only [checkRules, hdb, hb, if_neg hu, Bool.false_eq_true, ite_false]

theorem checkRules_of_not_admits
    (hb : config.block ns = some block) (hd : ¬block.Admits tableName) :
    ((checkRules config req path ns instanceId tableName).Passes ↔ config.release = false) ∧
      (checkRules config req path ns instanceId tableName).evaluated = [] := by
  have hdb : config.databases.isNone = false := by
    cases hd : config.databases with
    | none => simp [EdgeBaseConfig.block, hd] at hb
    | some dbs => rfl
  have hu : (block.tables.isSome && (block.table tableName).isNone) = true := by
    rw [DbBlock.Admits, Classical.not_imp] at hd
    simpa using hd
  simp only [checkRules, hdb, hb, if_pos hu, Bool.false_eq_true, ite_false]
  exact ⟨passes_unlessRelease _, evaluated_unlessRelease _⟩

theorem checkRules_of_table {table : TableConfig}
    (hb : config.block ns = some block) (ht : block.table tableName = some table) :
    checkRules config req path ns instanceId tableName =
      accessGate req block ns (req.dbId ns instanceId)
        (tableRulesGate config req path ns tableName table.access) := by
  rw [checkRules_of_admits hb (fun _ => by rw [ht]; rfl), ht, bind_some]

theorem exists_table_of_passes (hb : config.block ns = some block) (hrel : config.release = true)
    (hp : (checkRules config req path ns instanceId tableName).Passes) :
    ∃ table rules, block.table tableName = some table ∧ table.access = some rules := by
  by_cases hd : block.Admits tableName
  · rw [checkRules_of_admits hb hd] at hp
    have hr := (accessGate_passes_iff.1 hp).2
    cases ht : (block.table tableName).bind TableConfig.access with
    | none => simp [ht, hrel, tableRulesGate] at hr
    | some rules =>
      obtain ⟨table, ht, ha⟩ := bind_eq_some_iff.1 ht
      exact ⟨table, rules, ht, ha⟩
  · simp [(checkRules_of_not_admits hb hd).1, hrel] at hp

/-- **A request that passes where the path makes the middleware check inserts has an evaluated
insert rule**, in release mode or if the table declares one. -/
theorem insert_mem_of_passes
    (hm : req.method = .post) (hup : req.upsert = false) (hpath : checksInsert path = true)
    (hb : config.block ns = some block)
    (hg : config.release = true ∨ (insertRuleOf config ns tableName).isSome = true)
    (hp : (checkRules config req path ns instanceId tableName).Passes) :
    .insert ns tableName true ∈ (checkRules config req path ns instanceId tableName).evaluated := by
  obtain ⟨table, rules, ht, ha, hg'⟩ : ∃ table rules, block.table tableName = some table ∧
      table.access = some rules ∧ (config.release = true ∨ rules.insert.isSome = true) := by
    obtain hrel | hdecl := hg
    · obtain ⟨table, rules, ht, ha⟩ := exists_table_of_passes hb hrel hp
      exact ⟨table, rules, ht, ha, .inl hrel⟩
    · cases ht : block.table tableName with
      | none => simp [insertRuleOf, hb, ht] at hdecl
      | some table =>
        cases ha : table.access with
        | none => simp [insertRuleOf, hb, ht, ha] at hdecl
        | some rules =>
          exact ⟨table, rules, rfl, ha, .inr (by simpa [insertRuleOf, hb, ht, ha] using hdecl)⟩
  rw [checkRules_of_table hb ht, ha] at hp ⊢
  rw [mem_evaluated_accessGate hp]
  exact .inr (tableGate_insert hm hup hpath (accessGate_passes_iff.1 hp).2 hg')

/-- **A request that passes for an instance of a block with an access function has that function
evaluated to `true`**, in release mode or if the block admits the table. -/
theorem access_mem_of_passes {id : String}
    (hb : config.block ns = some block) (ha : block.accessFn.isSome = true)
    (hid : req.dbId ns instanceId = some id) (hg : config.release = true ∨ block.Admits tableName)
    (hp : (checkRules config req path ns instanceId tableName).Passes) :
    .access ns id true ∈ (checkRules config req path ns instanceId tableName).evaluated := by
  have hd : block.Admits tableName := by
    obtain hrel | hd := hg
    · obtain ⟨table, -, ht, -⟩ := exists_table_of_passes hb hrel hp
      exact fun _ => by rw [ht]; rfl
    · exact hd
  obtain ⟨access, hacc⟩ := isSome_iff_exists.1 ha
  rw [checkRules_of_admits hb hd] at hp ⊢
  rw [mem_evaluated_accessGate hp]
  exact .inl ⟨access, hacc, id, hid, rfl⟩

theorem declared_of_insert_mem {b : Bool} {ns' t' : String}
    (he : .insert ns' t' b ∈ (checkRules config req path ns instanceId tableName).evaluated) :
    ns' = ns ∧ t' = tableName ∧ (insertRuleOf config ns tableName).isSome = true := by
  cases hb : config.block ns with
  | none =>
    unfold checkRules at he
    split_ifs at he
    · simp at he
    · simp [hb] at he
  | some block =>
    by_cases hd : block.Admits tableName
    · rw [checkRules_of_admits hb hd] at he
      obtain ⟨id, b, h⟩ | he := mem_of_evaluated_accessGate he
      · cases h
      · cases ha : (block.table tableName).bind TableConfig.access with
        | none => simp [ha, tableRulesGate] at he
        | some rules =>
          rw [ha] at he
          obtain ⟨b, h⟩ | ⟨rule, hr, h⟩ := mem_evaluated_tableGate he
          · cases h
          · cases h
            refine ⟨rfl, rfl, ?_⟩
            have hrules : insertRuleOf config ns tableName = rules.insert := by
              rw [insertRuleOf, hb, bind_some, ← bind_assoc, ha, bind_some]
            rw [hrules, mem_def.1 hr]
            rfl
    · simp [(checkRules_of_not_admits hb hd).2] at he

end Gates

end EdgeBase
