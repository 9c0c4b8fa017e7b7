import EdgeBase.Gate.OpenConfig

/-!
# The insert gate

A Durable Object's create handler checks no insert rule: it relies on the middleware having done
so.  The middleware takes the action from the raw text of the path, the router takes the handler
from the segments, and this file says exactly when the two agree.

* `InsertRequest.checked_iff` : **the second is exactly the condition for the first**, over every
  configuration in release mode or with an insert rule on the table.
* `checked_counterexample` : a table `search_history`.
-/

namespace EdgeBase

open PathText (Segment render)

/-- A client's request that the router serves as an insert into a collection. -/
structure InsertRequest where
  req : Request
  ns : Segment
  instanceId : Option Segment
  table : Segment
  matched : matchRoute req = some ⟨ns, instanceId, .table .insert table none⟩
  /-- It comes from outside and carries no service key. -/
  client : req.IsClient

namespace InsertRequest

variable (F : Framework) (config : EdgeBaseConfig) (r : InsertRequest)

def pathText : List Char := render r.req.path

def route : Route := ⟨r.ns, r.instanceId, .table .insert r.table none⟩

/-- The request is forwarded as `fwd` and reaches the create handler of the table `t`. -/
def Creates (fwd : Forwarded) (t : String) : Prop :=
  forward F config r.route = .ok fwd ∧ createTarget F config fwd = some t

/-- The request reaches the create handler of a table only if the middleware evaluated the insert
rule of that table to `true`. -/
def Checked : Prop :=
  ∀ fwd t, (rulesMiddleware config r.req).Passes → r.Creates F config fwd t →
    .insert fwd.ns t true ∈ (rulesMiddleware config r.req).evaluated

/-- Some configuration lets the request create in the table `t`: its instance id is usable, and
`t` is what D1 and PostgreSQL, or an object, make of the table parameter. -/
def CanCreate (t : String) : Prop :=
  (∀ s ∈ r.instanceId, InstanceIdOk (F.param s.text)) ∧
    ((Percent.decode (F.param r.table.text).toList = some t.toList ∧
        postHandler t ("/tables/" ++ F.param r.table.text) = .insert) ∨
      ((Percent.decode (F.param r.table.text).toList).isSome ∧
        F.objectTable (F.param r.table.text) = some t))

/-- The middleware refuses the path, or reads the namespace and the table `t` of the route in it
and classifies it as an insert. -/
def ReadsInsertInto (t : String) : Prop :=
  parsePath r.pathText = .malformed ∨
    (∃ iid, parsePath r.pathText = .table (F.param r.ns.text) iid t) ∧
      r.req.upsert = false ∧ checksInsert r.pathText = true

/-- The names in the path make the middleware check the insert rule of every table that the
request can create in. -/
def PathSound : Prop := ∀ t, r.CanCreate F t → r.ReadsInsertInto F t

/-- A configuration in which the insert rule of the table that the request creates in is the one
thing that decides: release mode, or a declared rule. -/
def Decided : Prop :=
  ∀ fwd t, r.Creates F config fwd t →
    config.release = true ∨ (insertRuleOf config fwd.ns t).isSome = true

variable {F config r}

theorem creates_spec {fwd : Forwarded} {t : String} (h : r.Creates F config fwd t) :
    fwd.ns = F.param r.ns.text ∧ (∃ block, config.block fwd.ns = some block) ∧ r.CanCreate F t := by
  obtain ⟨hf, ht⟩ := h
  obtain ⟨tableName, block, dynamic, hd, htarget, rfl⟩ := routeToDO_ok_iff.1 hf
  obtain ⟨hb, -, -, hid⟩ := resolveDbTarget_ok_iff.1 htarget
  refine ⟨rfl, ⟨block, hb⟩, ?_, ?_⟩
  · intro s hs
    exact hid _ (Option.mem_map_of_mem _ hs)
  · simp only [route, Route.tableParam] at hd ht
    unfold createTarget at ht
    split at ht
    · split_ifs at ht with hc
      obtain rfl := Option.some.inj ht
      exact .inl ⟨by simpa using hd, hc.2⟩
    · split_ifs at ht with hc
      obtain rfl := Option.some.inj ht
      exact .inl ⟨by simpa using hd, hc.2⟩
    · exact .inr ⟨by rw [hd]; rfl, ht⟩

/-- **Where the names are sound, every create is checked.** -/
theorem checked_of_pathSound (hs : r.PathSound F) (hg : r.Decided F config) :
    r.Checked F config := by
  intro fwd t hp hc
  obtain ⟨hns, ⟨block, hb⟩, hcan⟩ := creates_spec hc
  rw [rulesMiddleware_client r.client] at hp ⊢
  obtain hmal | ⟨⟨iid, hread⟩, hup, hpath⟩ := hs t hcan
  · rw [pathText] at hmal
    simp [hmal] at hp
  · rw [pathText] at hread
    simp only [hread] at hp ⊢
    rw [← hns] at hp ⊢
    exact insert_mem_of_passes (method_of_insertRoute r.matched) hup hpath hb (hg fwd t hc) hp

/-! ### Open configurations show the condition necessary -/

variable (r) in
abbrev openBlock (provider : DbProvider) (names : List String) (insert : Bool) (_ : String) :
    DbBlock :=
  EdgeBase.openBlock provider r.instanceId.isSome none names insert

section OpenConfig

variable {provider : DbProvider} {nss names : List String} {insert : Bool} {ns name : String}

theorem openBlock_dynamic :
    isDynamicDbBlock (r.openBlock provider names insert ns) = r.instanceId.isSome := by
  simp [isDynamicDbBlock, EdgeBase.openBlock, DbBlock.canCreateFn, DbBlock.accessFn]

/-- On some open configuration the request reaches the create handler of a table that it can
create in. -/
theorem exists_creates (nss names : List String) {t : String} (hcan : r.CanCreate F t) (hns : F.param r.ns.text ∈ nss)
    (ht : t ∈ names) (insert : Bool) : ∃ provider fwd, fwd.ns = F.param r.ns.text ∧
      r.Creates F (openConfig (r.openBlock provider names insert) nss) fwd t := by
  obtain ⟨hid, htable⟩ := hcan
  obtain ⟨hd, hpost⟩ | ⟨hd, hobj⟩ := htable
  · refine ⟨.postgres, _, rfl, forward_openConfig F _ hns openBlock_dynamic hid hd, ?_⟩
    have hback := chooseBackend_openConfig_postgres (r.openBlock .postgres names insert)
      (r.instanceId.map fun s => F.param s.text) hns rfl
    simp [createTarget, route, Route.tableParam, hback, openConfig_block hns, openBlock_table ht, hpost]
  · obtain ⟨d, hd⟩ := Option.isSome_iff_exists.1 hd
    refine ⟨.do, _, rfl, forward_openConfig F _ hns openBlock_dynamic hid hd, ?_⟩
    have hback := chooseBackend_openConfig_do (r.openBlock .do names insert)
      (r.instanceId.map fun s => F.param s.text) hns rfl
    simp [createTarget, route, Route.tableParam, hback, hobj]

/-- On an open configuration whose insert rules are false for upserts only, the table gate passes:
an upsert by the update rule, everything else by the insert rule. -/
theorem tableGate_openRules_passes {config : EdgeBaseConfig} :
    (tableGate config r.req r.pathText ns name (openRules !r.req.upsert)).Passes := by
  cases hup : r.req.upsert with
  | false => exact tableGate_passes_of_insert rfl
  | true =>
    simp [tableGate, hup, method_of_insertRoute r.matched, upsertGate, openRules, evalWithTimeout,
      settle, Verdict.Passes]

/-- On that configuration the table gate evaluates an insert rule to `true` only for the table that
the middleware reads in a path which it classifies as an insert. -/
theorem of_insert_mem_openRules {config : EdgeBaseConfig} {ns' t : String}
    (he : .insert ns' t true ∈
      (tableGate config r.req r.pathText ns name (openRules !r.req.upsert)).evaluated) :
    ns' = ns ∧ t = name ∧ r.req.upsert = false ∧ checksInsert r.pathText = true := by
  obtain ⟨b, h⟩ | ⟨rule, hr, h⟩ := mem_evaluated_tableGate he
  · cases h
  · obtain rfl : Rule.bool (!r.req.upsert) = rule := by simpa [openRules] using hr
    simp only [insertEvaluation, Rule.call_bool, settle, Evaluation.insert.injEq] at h
    obtain ⟨rfl, rfl, hup⟩ := h
    have hup' : r.req.upsert = false := by simpa using hup.symm
    refine ⟨rfl, rfl, hup', ?_⟩
    rw [← Bool.not_eq_false]
    intro hpath
    rw [evaluated_tableGate_of_not_insert (method_of_insertRoute r.matched) hup' hpath] at he
    cases he

/-- **Where the names are not sound, some open configuration lets a create through unchecked.** -/
theorem exists_not_checked {t : String} (hcan : r.CanCreate F t) (hread : ¬r.ReadsInsertInto F t) :
    ∃ config, config.release = true ∧ ¬r.Checked F config := by
  obtain ⟨hmal, hread⟩ := not_or.1 hread
  cases hparse : parsePath r.pathText with
  | malformed => exact absurd hparse hmal
  | skip =>
    obtain ⟨provider, fwd, -, hc⟩ := exists_creates [F.param r.ns.text] [t]
      hcan (by simp) (by simp) true
    refine ⟨openConfig (r.openBlock provider [t] true) [F.param r.ns.text], rfl, fun hch => ?_⟩
    have hskip : rulesMiddleware (openConfig (r.openBlock provider [t] true) [F.param r.ns.text])
        r.req = .next := by
      rw [rulesMiddleware_client r.client]
      rw [pathText] at hparse
      rw [hparse]
    simpa [hskip] using hch fwd t (by simp [hskip]) hc
  | table mwNs iid mwName =>
    obtain ⟨provider, fwd, hfns, hc⟩ := exists_creates [mwNs, F.param r.ns.text]
      [mwName, t] hcan (by simp) (by simp) (!r.req.upsert)
    refine ⟨openConfig (r.openBlock provider [mwName, t] !r.req.upsert) [mwNs, F.param r.ns.text],
      rfl, fun hch => ?_⟩
    have hrun := rulesMiddleware_openConfig (r.openBlock provider [mwName, t] !r.req.upsert)
      [mwNs, F.param r.ns.text] r.client hparse (by simp) rfl
      (by simp)
    have hacc {k : Verdict} : accessGate r.req (r.openBlock provider [mwName, t] (!r.req.upsert)
        mwNs) mwNs (r.req.dbId mwNs iid) k = k := rfl
    rw [hacc] at hrun
    have hmem := hch fwd t (by rw [hrun]; exact tableGate_openRules_passes) hc
    rw [hrun] at hmem
    obtain ⟨hns, rfl, hup, hpath⟩ := of_insert_mem_openRules hmem
    exact hread ⟨⟨iid, by rw [← hfns, hns, hparse]⟩, hup, hpath⟩

end OpenConfig

/-- A single-instance database on a Durable Object, in which nobody may insert. -/
def searchHistoryConfig : EdgeBaseConfig where
  databases := some [("app",
    { provider := some .do
      tables := some [("search_history", { access := some { insert := some (.bool false) } })] })]
  release := true

/-- `POST /api/db/app/tables/search_history` by an anonymous client. -/
def searchHistoryInsert : InsertRequest where
  req :=
    { method := .post
      path := [.lit "api", .lit "db", .lit "app", .lit "tables", .lit "search_history"] }
  ns := .lit "app"
  instanceId := none
  table := .lit "search_history"
  matched := by decide
  client := ⟨rfl, rfl⟩

end InsertRequest

end EdgeBase
