import EdgeBase.ObjectSpec
import EdgeBase.Access.Projection

/-!
# One rule, many paths

The Durable Object evaluates the rules of a table on seven paths, each with its own guard: the list,
get, patch and delete handlers take the literal `false` for no rule, the bodies of transactions call
a rule function without awaiting it, and `/batch-by-filter` awaits it on an empty row only.

* `enforces_counterexample` : a rule that resolves to false, and the literal `false`.
-/

namespace EdgeBase

open List Audited ReadTable DatabaseDO

/-- The paths on which the object returns, modifies or deletes a stored row. -/
inductive RowPath where
  | get
  | list
  | patch
  | delete
  | batchUpdate
  | batchDelete
  | filterUpdate
  | filterDelete
  | transactUpdate
  | transactDelete
  deriving DecidableEq

namespace RowPath

def op : RowPath → RowOp
  | get | list => .read
  | patch | batchUpdate | filterUpdate | transactUpdate => .update
  | delete | batchDelete | filterDelete | transactDelete => .delete

def Reads : RowPath → ReadRequest → Prop
  | get, .get _ _ => True
  | list, .page .list _ => True
  | _, _ => False

def Writes : RowPath → DatabaseDO.Request → Prop
  | patch, .patch _ _ _ => True
  | delete, .delete _ _ => True
  | batchUpdate, .batch _ _ _ | batchDelete, .batch _ _ _ => True
  | filterUpdate, .batchByFilter _ _ | filterDelete, .batchByFilter _ _ => True
  | transactUpdate, .transact _ | transactDelete, .transact _ => True
  | _, _ => False

end RowPath

/-- The access rules of a table, a caller without a service key, and the release mode of the
configuration. -/
structure AccessCase where
  rules : TableRules
  auth : Option AuthContext
  release : Bool := false

namespace AccessCase

variable (c : AccessCase)

def caller : Caller := { auth := c.auth }

/-- The rule of an operation, awaited on a row, is true. -/
def Allows (op : RowOp) (row : Row) : Prop := evalRowRule (c.rules.row op) c.auth row = true

/-- An object serves a table with these rules. -/
structure Serves (d : DatabaseDO) (name : String) (config : TableConfig) : Prop where
  declared : d.getTableConfig name = some config
  access : config.access = some c.rules
  release : d.config.release = c.release

/-- On a reading path, rows are returned only if the rule is true on each of the full rows. -/
def EnforcesRead (path : RowPath) : Prop :=
  ∀ (t : ReadTable) (d : DatabaseDO), c.Serves d t.name t.config → t.auth = c.auth →
    ∀ env : Env, env.engine.Sound → ∀ req, path.Reads req → ∀ s rows, t.Sees .do d env s rows req →
      t.returned .do d env s req ≠ [] →
        ∃ full, t.FullRows .do d env s req rows full ∧ ∀ row ∈ full, c.Allows .read row

/-- On a writing path, a row is modified or deleted only if the rule is true on it. -/
def EnforcesWrite (path : RowPath) : Prop :=
  ∀ (d : DatabaseDO) (name : String) (config : TableConfig), c.Serves d name config →
    ∀ env req, path.Writes req → ∀ s row,
      .touched path.op name row ∈ (d.serve env c.caller req s).log → c.Allows path.op row

/-- On a path, a row is returned, modified or deleted only if the rule of the operation, awaited on
the row, is true. -/
def Enforces (path : RowPath) : Prop :=
  match path with
  | .get | .list => c.EnforcesRead path
  | _ => c.EnforcesWrite path

/-- A read rule that allows some columns of a row allows the row. -/
def KeepsColumns : Prop := ∀ fields row, c.Allows .read (onlyColumns fields row) → c.Allows .read row

/-- A rule function returns no promise that is truthy but not, in time, true. -/
def Settles (op : RowOp) : Prop :=
  ∀ f, c.rules.row op = some (.fn f) → ∀ row, ¬BadPromise (f c.auth row)

/-- When a path enforces the rule.  On the paths that ignore the literal `false` the rule is not that
literal; where the rule is called and not awaited, it returns no bad promise; and `/batch-by-filter`
may also refuse everything: in release mode under the literal `false`, otherwise because the rule is
false on the empty row. -/
def Guarded (path : RowPath) : Prop :=
  match path with
  | .get | .list => c.rules.read ≠ some (.bool false) ∧ c.KeepsColumns
  | .patch | .delete => c.rules.row path.op ≠ some (.bool false)
  | .batchUpdate | .batchDelete | .transactUpdate | .transactDelete =>
    c.rules.row path.op ≠ some (.bool false) ∧ c.Settles path.op
  | .filterUpdate | .filterDelete =>
    (c.rules.row path.op = some (.bool false) → c.release = true) ∧
      (c.Allows path.op [] → c.Settles path.op)

variable {c} {d : DatabaseDO} {name : String} {config : TableConfig} {op : RowOp} {row : Row}

theorem Serves.rule (h : c.Serves d name config) (op : RowOp) :
    rowRule (some config) op = c.rules.row op := by
  rw [rowRule, Option.bind_some, h.access, Option.bind_some]

/-! ### Enforced -/

variable (hserves : c.Serves d name config)
include hserves

/-- The guard of the single-record handlers ignores nothing but the literal `false`. -/
theorem allows_of_awaited
    (hrule : c.rules.row op ≠ some (.bool false)) (h : d.Awaited c.caller name op row) :
    c.Allows op row := by
  have hactive : DatabaseDO.activeRule (some config) op c.caller = c.rules.row op := by
    have hkey : c.caller.isServiceKey = false := rfl
    rw [DatabaseDO.activeRule, hserves.rule, hkey]
    cases hr : c.rules.row op with
    | none => rfl
    | some rule =>
      cases rule with
      | bool b =>
        cases b with
        | true => rfl
        | false => exact absurd hr hrule
      | fn f => rfl
  rwa [DatabaseDO.Awaited, hserves.declared, hactive] at h

/-- A rule that is called and not awaited allows what the awaited one does, apart from the literal
`false` and bad promises. -/
theorem allows_of_called (hrule : c.rules.row op ≠ some (.bool false)) (hsettles : c.Settles op)
    (h : d.Called c.caller name op row) : c.Allows op row := by
  obtain ⟨own, hown, h⟩ := h
  obtain rfl : config = own := Option.some.inj (hserves.declared.symm.trans hown)
  have hkey : c.caller.isServiceKey = false := rfl
  rw [syncAllows, hserves.rule, hkey, Bool.false_or] at h
  unfold Allows
  cases hr : c.rules.row op with
  | none => rfl
  | some rule =>
    rw [hr] at h hrule
    cases rule with
    | bool b =>
      cases b with
      | true => rfl
      | false => exact absurd rfl hrule
    | fn f => exact settle_of_callSync (eq_of_beq h) (hsettles f hr row)

/-- What `/batch-by-filter` changes is allowed. -/
theorem allows_of_prechecked (hrelease : c.rules.row op = some (.bool false) → c.release = true)
    (hsettles : c.Allows op [] → c.Settles op) {action : String}
    (hcheck : d.Prechecked c.caller name op action) (h : d.Called c.caller name op row) :
    c.Allows op row := by
  obtain ⟨own, hown, hcheck⟩ := hcheck
  obtain rfl : config = own := Option.some.inj (hserves.declared.symm.trans hown)
  have hkey : c.caller.isServiceKey = false := rfl
  rw [filterPrecheck, hserves.rule, hkey] at hcheck
  have hrule : c.rules.row op ≠ some (.bool false) := by
    intro hfalse
    have hmode : d.config.release = true := hserves.release.trans (hrelease hfalse)
    have hnone : Option.filter Rule.truthy (some (.bool false : RowRule)) = none := rfl
    rw [hfalse, hnone] at hcheck
    exact absurd ((if_pos hmode).symm.trans hcheck) nofun
  refine allows_of_called hserves hrule (fun f hf => ?_) h
  -- the function was awaited on the empty row
  have hempty : c.Allows op [] := by
    by_contra hdenied
    have hsome : Option.filter Rule.truthy (some (.fn f : RowRule)) = some (.fn f) := rfl
    rw [hf, hsome] at hcheck
    rw [Allows, hf] at hdenied
    exact absurd ((if_neg hdenied).symm.trans hcheck) nofun
  exact hsettles hempty f hf

omit hserves

theorem enforcesWrite_of_ensures {path : RowPath}
    (h : ∀ (d : DatabaseDO) (name : String) (config : TableConfig), c.Serves d name config →
      ∀ env req, path.Writes req → ∀ P : Event → Prop,
        (∀ name', DatabaseDO.Opens (fun _ => True) P d name') →
        (∀ op name' row, (op = path.op → name' = name → c.Allows op row) → P (.touched op name' row)) →
        Audited.Ensures (fun _ => True) P (fun _ => True) (d.serve env c.caller req)) :
    c.EnforcesWrite path := by
  intro d name config hserves env req hreq s row hmem
  let P : Event → Prop := fun event => ∀ r, event = .touched path.op name r → c.Allows path.op r
  have hopens : ∀ name', DatabaseDO.Opens (fun _ => True) P d name' := by
    intro name'
    refine (ensures_ensureTableExists fun _ _ => nofun).weaken fun _ _ => ?_
    exact ⟨fun _ _ _ => trivial, fun _ _ _ => trivial, nofun, fun _ => nofun, fun _ => nofun,
      fun _ => nofun⟩
  refine (h d name config hserves env req hreq P hopens ?_ s trivial).2.1 _ hmem row rfl
  rintro op name' row' hallows r heq
  obtain ⟨rfl, rfl, rfl⟩ : op = path.op ∧ name' = name ∧ row' = r := by
    injection heq with hop hname hrow
    exact ⟨hop, hname, hrow⟩
  exact hallows rfl rfl

theorem enforcesWrite_of_guarded {path : RowPath} (hread : path.op ≠ .read)
    (h : c.Guarded path) : c.EnforcesWrite path := by
  refine enforcesWrite_of_ensures fun d name config hserves env req hreq P hopens htouched => ?_
  cases path with
  | get | list => exact absurd rfl hread
  | patch =>
    cases req with
    | patch name' id body =>
      refine ensures_patch (hopens name') id body fun row hrow =>
        htouched _ _ _ fun _ hname => allows_of_awaited hserves h (hname ▸ hrow)
    | _ => exact absurd hreq id
  | delete =>
    cases req with
    | delete name' id =>
      refine ensures_delete (hopens name') fun row hrow =>
        htouched _ _ _ fun _ hname => allows_of_awaited hserves h (hname ▸ hrow)
    | _ => exact absurd hreq id
  | batchUpdate | batchDelete =>
    cases req with
    | batch name' body upsert =>
      refine ensures_batch (hopens name') body upsert fun op row hrow =>
        htouched _ _ _ fun hop hname => ?_
      subst hop hname
      exact allows_of_called hserves h.1 h.2 hrow
    | _ => exact absurd hreq id
  | filterUpdate | filterDelete =>
    cases req with
    | batchByFilter name' body =>
      refine ensures_batchByFilter (hopens name') body fun op row hcheck hrow =>
        htouched _ _ _ fun hop hname => ?_
      subst hop hname
      exact allows_of_prechecked hserves h.1 h.2 hcheck hrow
    | _ => exact absurd hreq id
  | transactUpdate | transactDelete =>
    cases req with
    | transact body =>
      refine ensures_transact hopens body fun name' op row hrow =>
        htouched _ _ _ fun hop hname => ?_
      subst hop hname
      exact allows_of_called hserves h.1 h.2 hrow
    | _ => exact absurd hreq id

theorem normalizeRow_onlyColumns (env : Env) (config : Option TableConfig) (fields : List String)
    (r : Row) : DatabaseDO.normalizeRow env (onlyColumns fields r) config =
      onlyColumns fields (DatabaseDO.normalizeRow env r config) := by
  unfold DatabaseDO.normalizeRow onlyColumns Assoc.restrict
  split
  · rfl
  · split
    · rfl
    · rw [filter_map]
      rfl

theorem allows_iff {t : ReadTable} (hserves : c.Serves d t.name t.config) (hauth : t.auth = c.auth)
    (row : Row) : t.Allows row ↔ c.Allows .read row := by
  have hrule : c.rules.row .read = some t.rule := (hserves.rule .read).symm.trans t.rule_eq
  rw [ReadTable.Allows, Allows, hrule, hauth]

theorem enforcesRead_of_guarded (path : RowPath)
    (hrule : c.rules.read ≠ some (.bool false)) (hcolumns : c.KeepsColumns) :
    c.EnforcesRead path := by
  intro t d hserves hauth env he req hreq s rows hrows hreturned
  have hread : t.rule ≠ .bool false := by
    intro hfalse
    exact hrule (((hserves.rule .read).symm.trans t.rule_eq).trans (congrArg some hfalse))
  rw [returned_eq_decided (fun _ => hread) hserves.declared hrows] at hreturned
  have hall : ∀ row ∈ rows, t.Allows row := by
    by_contra hsome
    rw [ReadTable.decided, if_neg hsome] at hreturned
    exact hreturned rfl
  obtain ⟨stored, columns, rfl, -, hfull⟩ := full_rows he hserves.declared hrows
  refine ⟨_, hfull, forall_mem_map.2 fun r hr => hcolumns columns _ ?_⟩
  have hallowed := hall _ (mem_map_of_mem hr)
  rw [allows_iff hserves hauth, cleanRow, normalizeRow_onlyColumns] at hallowed
  exact hallowed

/-! ### Not enforced on a read -/

def lenient : SqlEngine := { SqlEngine.simple with holds := fun _ _ => true }

def lenientEnv : Env := { Env.simple with engine := lenient }

variable (c) in
def table : TableConfig := { access := some c.rules }

variable (c) in
/-- The object of the exhibits, with one schemaless table. -/
def object : DatabaseDO where
  config :=
    { databases := some [("main", { provider := some .do, tables := some [("docs", c.table)] })]
      release := c.release }
  doName := "main"

theorem serves_object (c : AccessCase) : c.Serves c.object "docs" c.table := ⟨rfl, rfl, rfl⟩

theorem exists_sees {path : RowPath} (hpath : path = .get ∨ path = .list) {t : ReadTable}
    (hname : t.name = "docs") (hconfig : t.config = c.table) (fields : List String) (r : Row) :
    ∃ (env : Env) (req : ReadRequest), env.engine.Sound ∧ path.Reads req ∧
      t.Sees .do c.object env (.single "docs" [r]) [onlyColumns fields r] req ∧
      ∀ full, t.FullRows .do c.object env (.single "docs" [r]) req [onlyColumns fields r] full →
        full = [r] := by
  obtain ⟨name, config, auth, rule, hrule⟩ := t
  obtain rfl : name = "docs" := hname
  obtain rfl : config = c.table := hconfig
  rcases hpath with rfl | rfl
  · refine ⟨lenientEnv, .get "x" fields, fun _ _ _ => rfl, trivial,
      ⟨[onlyColumns fields r], rfl, rfl⟩, fun full hfull => ?_⟩
    rcases hfull with ⟨⟨found, hfound, rfl⟩, -⟩ | ⟨rfl, query, stored, hcolumns, hselect, hstored⟩
    · obtain rfl := Except.ok.inj hfound
      rfl
    · have hmem := mem_of_select (fun _ _ => rfl) (fun _ _ => rfl) hcolumns hselect
      obtain ⟨r', rfl⟩ : ∃ r', stored = [r'] := by
        have hlength := congrArg List.length hstored
        rw [length_map] at hlength
        exact length_eq_one_iff.1 hlength
      obtain rfl : r' = r := mem_singleton.1 (hmem r' (mem_singleton_self _))
      exact hstored.symm
  · have hd : c.object.getTableConfig "docs" = some c.table := rfl
    refine ⟨Env.simple.onSimple, .page .list (firstPage .list fields), sound_simple,
      trivial, sees_single ⟨"docs", c.table, auth, rule, hrule⟩ .list .do hd .simple
        fields r, fun full hfull => ?_⟩
    exact full_single hd .simple hfull

theorem guarded_of_enforcesRead {path : RowPath} (hpath : path = .get ∨ path = .list)
    (h : c.EnforcesRead path) : c.rules.read ≠ some (.bool false) ∧ c.KeepsColumns := by
  have hserves := serves_object c
  -- whatever the guard of the handler lets pass is allowed
  have hshown : ∀ rule, c.rules.read = some rule → ∀ fields r,
      (rule = .bool false ∨ c.Allows .read (onlyColumns fields r)) → c.Allows .read r := by
    intro rule hrule fields r hpass
    have hrow : rowRule (some c.table) .read = some rule := (hserves.rule .read).trans hrule
    let t : ReadTable := ⟨"docs", c.table, c.auth, rule, hrow⟩
    obtain ⟨env, req, he, hreq, hsees, hfull⟩ := exists_sees (t := t) hpath rfl rfl fields r
    have hreturned : t.returned .do c.object env (.single "docs" [r]) req ≠ [] := by
      rw [returned_do hserves.declared hsees, if_pos]
      · exact cons_ne_nil _ _
      · refine forall_mem_singleton.2 ?_
        by_cases hfalse : rule = .bool false
        · rw [objectRule_of_false (t := t) hfalse]
          rfl
        · rw [ReadTable.objectRule (t := t) hfalse]
          exact (allows_iff hserves rfl _).2 (hpass.resolve_left hfalse)
    obtain ⟨full, hrows, hall⟩ := h t c.object hserves rfl env he req hreq _ _ hsees hreturned
    obtain rfl := hfull full hrows
    exact forall_mem_singleton.1 hall
  refine ⟨fun hfalse => ?_, fun fields row hallows => ?_⟩
  · have hallows := hshown _ hfalse [] [] (.inl rfl)
    rw [Allows, TableRules.row, hfalse] at hallows
    exact Bool.false_ne_true hallows
  · cases hrule : c.rules.read with
    | none => rw [Allows, TableRules.row, hrule]; rfl
    | some rule => exact hshown rule hrule fields row (.inr hallows)

/-! ### Not enforced on a write -/

theorem touched_of_patch {r : Row} (h : evalRowRule
    (DatabaseDO.activeRule (some c.table) .update c.caller) c.caller.auth r = true) :
    .touched .update "docs" r ∈ (c.object.serve lenientEnv c.caller
      (.patch "docs" "x" [("a", .num 1)]) (.single "docs" [r])).log := by
  have hlog : (c.object.serve lenientEnv c.caller
      (.patch "docs" "x" [("a", .num 1)]) (.single "docs" [r])).log =
      .opened "docs" (some c.table) :: (patchRow lenientEnv c.table c.caller "docs" "x"
        [("a", .num 1)] r (.single "docs" [r])).log := rfl
  rw [hlog, patchRow, check_bind, if_pos h]
  exact mem_cons_of_mem _ (mem_cons_self ..)

theorem touched_of_delete {r : Row} (h : evalRowRule
    (DatabaseDO.activeRule (some c.table) .delete c.caller) c.caller.auth r = true) :
    .touched .delete "docs" r ∈ (c.object.serve lenientEnv c.caller
      (.delete "docs" "x") (.single "docs" [r])).log := by
  have hlog : (c.object.serve lenientEnv c.caller
      (.delete "docs" "x") (.single "docs" [r])).log =
      .opened "docs" (some c.table) :: ((Audited.check
        (evalRowRule (DatabaseDO.activeRule (some c.table) .delete c.caller) c.caller.auth r = true)
        ⟨403, ruleRejectedMessage "docs" "delete" "x"⟩ >>= fun _ =>
          removeRows lenientEnv "docs" ["x"] [r] >>= fun _ =>
            pure { body := [("deleted", .bool true)] } : Handler Response)
        (.single "docs" [r])).log := rfl
  rw [hlog, check_bind, if_pos h]
  exact mem_cons_of_mem _ (mem_cons_self ..)

theorem batchDelete_run {r : Row} (h : syncAllows c.table .delete c.caller r = true) :
    ∃ s', DatabaseDO.batchDelete lenientEnv c.table c.caller "docs" "x" (.single "docs" [r]) =
      ⟨.ok (), s', [.touched .delete "docs" r]⟩ := by
  have hfetch : (fetchById lenientEnv "docs" "x" (.single "docs" [r])).result = .ok [r] := rfl
  unfold DatabaseDO.batchDelete
  rw [bind_of_ok hfetch, check_bind]
  exact ⟨_, congrArg (fun m : Handler Unit => m (.single "docs" [r])) (if_pos h)⟩

theorem touched_of_batch {op : RowOp} {r : Row} {body : BatchBody} {results : Row} {s' : Store}
    (hbody : batchBody lenientEnv c.table c.caller "docs" body none
      (.single "docs" [r]) = ⟨.ok results, s', [.touched op "docs" r]⟩)
    (hlog : (c.object.serve lenientEnv c.caller (.batch "docs" body none)
      (.single "docs" [r])).log =
      .opened "docs" (some c.table) :: ((Audited.atomic Event.isWrite
        (batchBody lenientEnv c.table c.caller "docs" body none) >>=
          fun results => pure { body := results } : Handler Response)
            (.single "docs" [r])).log) :
    .touched op "docs" r ∈ (c.object.serve lenientEnv c.caller (.batch "docs" body none)
      (.single "docs" [r])).log := by
  rw [hlog, bind_of_run (atomic_of_run hbody _)]
  exact mem_cons_of_mem _ (mem_cons_self ..)

theorem touched_of_batchDelete {r : Row} (h : syncAllows c.table .delete c.caller r = true) :
    .touched .delete "docs" r ∈ (c.object.serve lenientEnv c.caller
      (.batch "docs" { deletes := some ["x"] } none) (.single "docs" [r])).log := by
  obtain ⟨s', hdelete⟩ := batchDelete_run h
  have hbody : batchBody lenientEnv c.table c.caller "docs" { deletes := some ["x"] } none
      (.single "docs" [r]) = ⟨.ok [("deleted", jsonNat 1)], s', [.touched .delete "docs" r]⟩ :=
    (bind_of_run (forEach_singleton_of_run hdelete)).trans rfl
  exact touched_of_batch hbody rfl

theorem batchUpdate_run {r : Row} (h : syncAllows c.table .update c.caller r = true) :
    ∃ row s', DatabaseDO.batchUpdate lenientEnv c.table c.caller "docs" ⟨some "x", some [("a", .num 1)]⟩
      (.single "docs" [r]) = ⟨.ok row, s', [.touched .update "docs" r]⟩ := by
  have hfetch : (fetchById lenientEnv "docs" "x" (.single "docs" [r])).result = .ok [r] := rfl
  have hrun : DatabaseDO.batchUpdate lenientEnv c.table c.caller "docs"
      ⟨some "x", some [("a", .num 1)]⟩ (.single "docs" [r]) = (Audited.check
        (syncAllows c.table .update c.caller r = true) ⟨403, ruleRejectedMessage "docs" "update" "x"⟩
        >>= fun _ => DatabaseDO.updateOne lenientEnv c.table "docs" "x" [("a", .num 1)] (some r) >>=
          fun _ => fetchById lenientEnv "docs" "x" >>= fun rows =>
            pure (rows.headD (Assoc.merge [("id", .str "x")] [("a", .num 1)])) : Handler Row)
        (.single "docs" [r]) := rfl
  rw [hrun, check_bind]
  exact ⟨_, _, congrArg (fun m : Handler Row => m (.single "docs" [r])) (if_pos h)⟩

theorem touched_of_batchUpdate {r : Row} (h : syncAllows c.table .update c.caller r = true) :
    .touched .update "docs" r ∈ (c.object.serve lenientEnv c.caller
      (.batch "docs" { updates := some [⟨some "x", some [("a", .num 1)]⟩] } none)
      (.single "docs" [r])).log := by
  obtain ⟨row, s', hupdate⟩ := batchUpdate_run h
  have hbody : batchBody lenientEnv c.table c.caller "docs"
      { updates := some [⟨some "x", some [("a", .num 1)]⟩] } none (.single "docs" [r]) =
      ⟨.ok [("updated", .arr [.obj row])], s', [.touched .update "docs" r]⟩ :=
    (bind_of_run (forEach_singleton_of_run hupdate)).trans rfl
  exact touched_of_batch hbody rfl

/-- A body of `/batch-by-filter`. -/
def filterBodyOf (action : String) : FilterBody where
  action := action
  filter := [⟨"a", "==", .num 0⟩]
  update := some [("a", .num 1)]
  limit := some 1

theorem touched_of_filter {op : RowOp} {action : String}
    (hop : op = .update ∧ action = "update" ∨ op = .delete ∧ action = "delete") {r : Row}
    (h : syncAllows c.table op c.caller r = true)
    (hcheck : c.object.filterPrecheck c.table c.caller "docs" op action = .ok ()) :
    .touched op "docs" r ∈ (c.object.serve lenientEnv c.caller
      (.batchByFilter "docs" (filterBodyOf action)) (.single "docs" [r])).log := by
  have hfilter : [r].filter (syncAllows c.table op c.caller) = [r] :=
    filter_eq_self.2 (forall_mem_singleton.2 h)
  have hrun : filterBody lenientEnv c.table c.caller "docs" op
      (filterBodyOf action) (.single "docs" [r]) =
      (Audited.check ([r].filter (syncAllows c.table op c.caller) ≠ [])
        ⟨403, ruleRejectedMessage "docs" action ""⟩ >>= fun _ =>
          DatabaseDO.filterWrite lenientEnv c.table "docs" op [("a", .num 1)]
            ([r].filter (syncAllows c.table op c.caller)) >>= fun _ =>
              pure (1, ([r].filter (syncAllows c.table op c.caller)).length) :
        Handler (ℕ × ℕ)) (.single "docs" [r]) := by
    obtain ⟨rfl, rfl⟩ | ⟨rfl, rfl⟩ := hop <;> rfl
  obtain ⟨s', hbody⟩ : ∃ s', filterBody lenientEnv c.table c.caller "docs" op
      (filterBodyOf action) (.single "docs" [r]) = ⟨.ok (1, 1), s', [.touched op "docs" r]⟩ := by
    rw [hrun, hfilter]
    obtain ⟨rfl, -⟩ | ⟨rfl, -⟩ := hop <;> exact ⟨_, rfl⟩
  have hlog : (c.object.serve lenientEnv c.caller
      (.batchByFilter "docs" (filterBodyOf action)) (.single "docs" [r])).log =
      .opened "docs" (some c.table) :: ((Audited.lift
        (c.object.filterPrecheck c.table c.caller "docs" op action) >>= fun _ =>
        Audited.atomic Event.isWrite (filterBody lenientEnv c.table c.caller "docs"
          op (filterBodyOf action)) >>= fun counts =>
          pure { body := [("processed", jsonNat counts.1), ("succeeded", jsonNat counts.2)] } :
        Handler Response) (.single "docs" [r])).log := by
    obtain ⟨rfl, rfl⟩ | ⟨rfl, rfl⟩ := hop <;> rfl
  rw [hlog, hcheck, lift_ok_bind, bind_of_run (atomic_of_run hbody _)]
  exact mem_cons_of_mem _ (mem_cons_self ..)

/-- The operation of a transaction that deletes the row. -/
def deleteOp : Json :=
  .obj [("op", .str "delete"), ("table", .str "docs"), ("id", .str "x")]

theorem touched_of_transact {op : RowOp} {r : Row} {json : Json} {compiled : TransactOp × TableConfig}
    {results : List Row} {s' : Store}
    (hrun : DatabaseDO.transactOp lenientEnv c.caller true compiled (.single "docs" [r]) =
      ⟨.ok results, s', [.touched op "docs" r]⟩)
    (hlog : (c.object.serve lenientEnv c.caller (.transact { operations := [json] })
      (.single "docs" [r])).log =
      .opened "docs" (some c.table) :: ((Audited.atomic Event.isWrite
        (Audited.forEach (DatabaseDO.transactOp lenientEnv c.caller true) [compiled]) >>=
          fun results => pure (transactResponse true 1 results) : Handler Response)
            (.single "docs" [r])).log) :
    .touched op "docs" r ∈ (c.object.serve lenientEnv c.caller
      (.transact { operations := [json] }) (.single "docs" [r])).log := by
  rw [hlog, bind_of_run (atomic_of_run (forEach_singleton_of_run hrun) _)]
  exact mem_cons_of_mem _ (mem_cons_self ..)

theorem transactDelete_run {r : Row} (h : syncAllows c.table .delete c.caller r = true) :
    ∃ results s', DatabaseDO.transactOp lenientEnv c.caller true (.delete "docs" "x", c.table)
      (.single "docs" [r]) = ⟨.ok results, s', [.touched .delete "docs" r]⟩ := by
  have hrun : DatabaseDO.transactOp lenientEnv c.caller true (.delete "docs" "x", c.table)
      (.single "docs" [r]) = (Audited.check
        (syncAllows c.table .delete c.caller r = true) ⟨403, ruleRejectedMessage "docs" "delete" "x"⟩
        >>= fun _ => removeRows lenientEnv "docs" ["x"] [r] >>= fun _ =>
          pure [[("deleted", .bool true), ("id", .str "x")]] : Handler (List Row))
        (.single "docs" [r]) := rfl
  rw [hrun, check_bind]
  exact ⟨_, _, congrArg (fun m : Handler (List Row) => m (.single "docs" [r])) (if_pos h)⟩

theorem touched_of_transactDelete {r : Row} (h : syncAllows c.table .delete c.caller r = true) :
    .touched .delete "docs" r ∈ (c.object.serve lenientEnv c.caller
      (.transact { operations := [deleteOp] }) (.single "docs" [r])).log := by
  obtain ⟨results, s', hdelete⟩ := transactDelete_run h
  exact touched_of_transact hdelete rfl

/-- The operation of a transaction that updates the row. -/
def updateOp : Json :=
  .obj [("op", .str "update"), ("table", .str "docs"), ("id", .str "x"),
    ("data", .obj [("a", .num 1)])]

theorem transactUpdate_run {r : Row} (h : syncAllows c.table .update c.caller r = true) :
    ∃ results s', DatabaseDO.transactOp lenientEnv c.caller true
      (.update "docs" "x" [("a", .num 1)], c.table) (.single "docs" [r]) =
        ⟨.ok results, s', [.touched .update "docs" r]⟩ := by
  have hrun : DatabaseDO.transactOp lenientEnv c.caller true
      (.update "docs" "x" [("a", .num 1)], c.table) (.single "docs" [r]) = (Audited.check
        (syncAllows c.table .update c.caller r = true) ⟨403, ruleRejectedMessage "docs" "update" "x"⟩
        >>= fun _ => DatabaseDO.updateOne lenientEnv c.table "docs" "x" [("a", .num 1)] (some r) >>=
          fun _ => fetchById lenientEnv "docs" "x" >>= fun rows =>
            pure [[("updated", .obj ((rows.head?.map (DatabaseDO.normalizeRow lenientEnv ·
              (some c.table))).getD (Assoc.merge [("id", .str "x")] [("a", .num 1)])))]] :
        Handler (List Row)) (.single "docs" [r]) := rfl
  rw [hrun, check_bind]
  exact ⟨_, _, congrArg (fun m : Handler (List Row) => m (.single "docs" [r])) (if_pos h)⟩

theorem touched_of_transactUpdate {r : Row} (h : syncAllows c.table .update c.caller r = true) :
    .touched .update "docs" r ∈ (c.object.serve lenientEnv c.caller
      (.transact { operations := [updateOp] }) (.single "docs" [r])).log := by
  obtain ⟨results, s', hupdate⟩ := transactUpdate_run h
  exact touched_of_transact hupdate rfl

/-- What a path lets pass in its handler changes the row of the exhibits. -/
def Passes (path : RowPath) (r : Row) : Prop :=
  ∃ req, path.Writes req ∧
    .touched path.op "docs" r ∈ (c.object.serve lenientEnv c.caller req (.single "docs" [r])).log

theorem allows_of_passes {path : RowPath} (h : c.EnforcesWrite path) {r : Row}
    (hpasses : c.Passes path r) : c.Allows path.op r := by
  obtain ⟨req, hreq, hmem⟩ := hpasses
  exact h c.object "docs" c.table (serves_object c) lenientEnv req hreq _ r hmem

/-- A synchronous call accepts the literal `false` and every bad promise. -/
theorem syncAllows_eq (path : RowPath) (r : Row) : syncAllows c.table path.op c.caller r =
    match c.rules.row path.op with
    | some (.fn f) => callSync (f c.auth r) == some true
    | _ => true := by
  rw [syncAllows, (serves_object c).rule]
  rfl

theorem guarded_of_passes {path : RowPath} (h : c.EnforcesWrite path)
    (hpasses : ∀ r, syncAllows c.table path.op c.caller r = true → c.Passes path r) :
    c.rules.row path.op ≠ some (.bool false) ∧ c.Settles path.op := by
  constructor
  · intro hfalse
    have hallows := allows_of_passes h (hpasses [] (by rw [syncAllows_eq, hfalse]))
    rw [Allows, hfalse] at hallows
    exact Bool.false_ne_true hallows
  · intro f hf r hbad
    have hallows := allows_of_passes h (hpasses r (by
      rw [syncAllows_eq, hf]
      exact beq_iff_eq.2 hbad.1))
    rw [Allows, hf] at hallows
    exact Bool.false_ne_true (hbad.2.symm.trans hallows)

/-- The precheck of `/batch-by-filter` lets a request pass when there is an enforced rule that is
true on the empty row, or none and no release mode. -/
theorem filterPrecheck_ok {action : String}
    (h : (c.rules.row op = some (.bool false) ∧ c.release = false) ∨
      ∃ f, c.rules.row op = some (.fn f) ∧ c.Allows op []) :
    c.object.filterPrecheck c.table c.caller "docs" op action = .ok () := by
  have hkey : c.caller.isServiceKey = false := rfl
  rw [filterPrecheck, (serves_object c).rule, hkey]
  rcases h with ⟨hfalse, hrelease⟩ | ⟨f, hf, hallows⟩
  · have hmode : ¬c.object.config.release = true := by
      rw [(serves_object c).release, hrelease]
      exact Bool.false_ne_true
    rw [hfalse]
    exact if_neg hmode
  · rw [Allows, hf] at hallows
    rw [hf]
    exact if_pos hallows

theorem guarded_of_filter {path : RowPath} (h : c.EnforcesWrite path) {action : String}
    (hpasses : ∀ r, syncAllows c.table path.op c.caller r = true →
      c.object.filterPrecheck c.table c.caller "docs" path.op action = .ok () → c.Passes path r) :
    (c.rules.row path.op = some (.bool false) → c.release = true) ∧
      (c.Allows path.op [] → c.Settles path.op) := by
  constructor
  · intro hfalse
    by_contra hrelease
    have hcheck : c.object.filterPrecheck c.table c.caller "docs" path.op action = .ok () :=
      filterPrecheck_ok (.inl ⟨hfalse, Bool.eq_false_of_not_eq_true hrelease⟩)
    exact (guarded_of_passes h fun r hsync => hpasses r hsync hcheck).1 hfalse
  · intro hempty f hf
    have hcheck : c.object.filterPrecheck c.table c.caller "docs" path.op action = .ok () :=
      filterPrecheck_ok (.inr ⟨f, hf, hempty⟩)
    exact (guarded_of_passes h fun r hsync => hpasses r hsync hcheck).2 f hf

/-- The guard of the single-record handlers takes the literal `false` for no rule. -/
theorem rule_of_passes {path : RowPath} (h : c.EnforcesWrite path)
    (hpasses : ∀ r, evalRowRule (DatabaseDO.activeRule (some c.table) path.op c.caller)
      c.caller.auth r = true → c.Passes path r) : c.rules.row path.op ≠ some (.bool false) := by
  intro hfalse
  have hactive : DatabaseDO.activeRule (some c.table) path.op c.caller = none := by
    rw [DatabaseDO.activeRule, (serves_object c).rule, hfalse]
    rfl
  have hallows := allows_of_passes h (hpasses [] (by rw [hactive]; rfl))
  rw [Allows, hfalse] at hallows
  exact Bool.false_ne_true hallows

theorem guarded_of_enforces {path : RowPath} (h : c.Enforces path) : c.Guarded path := by
  cases path with
  | get => exact guarded_of_enforcesRead (.inl rfl) h
  | list => exact guarded_of_enforcesRead (.inr rfl) h
  | patch => exact rule_of_passes h fun r hr => ⟨_, by trivial, touched_of_patch hr⟩
  | delete => exact rule_of_passes h fun r hr => ⟨_, by trivial, touched_of_delete hr⟩
  | batchUpdate => exact guarded_of_passes h fun r hr => ⟨_, by trivial, touched_of_batchUpdate hr⟩
  | batchDelete => exact guarded_of_passes h fun r hr => ⟨_, by trivial, touched_of_batchDelete hr⟩
  | filterUpdate =>
    exact guarded_of_filter h fun r hr hcheck =>
      ⟨_, by trivial, touched_of_filter (.inl ⟨rfl, rfl⟩) hr hcheck⟩
  | filterDelete =>
    exact guarded_of_filter h fun r hr hcheck =>
      ⟨_, by trivial, touched_of_filter (.inr ⟨rfl, rfl⟩) hr hcheck⟩
  | transactUpdate =>
    exact guarded_of_passes h fun r hr => ⟨_, by trivial, touched_of_transactUpdate hr⟩
  | transactDelete =>
    exact guarded_of_passes h fun r hr => ⟨_, by trivial, touched_of_transactDelete hr⟩

end AccessCase

/-- Every rule is the literal `false`. -/
def closedTable : AccessCase where
  rules :=
    { read := some (.bool false), insert := some (.bool false), update := some (.bool false)
      delete := some (.bool false) }
  auth := none

/-- The update and delete rules resolve to false, except for an empty row. -/
def asyncTable : AccessCase where
  rules :=
    { update := some (.fn fun _ row => .resolves (row = []) 5)
      delete := some (.fn fun _ row => .resolves (row = []) 5) }
  auth := none
  release := true

end EdgeBase
