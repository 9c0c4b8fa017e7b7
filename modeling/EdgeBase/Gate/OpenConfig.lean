import EdgeBase.Gate.Verdict

/-!
# Open configurations

Release configurations that let everything pass that the middleware lets pass at all: every block
is the same, declares the same tables, and its rules are constants.  Where the middleware and the
router disagree about a request, an open configuration that declares both readings shows it.

* `rulesMiddleware_openConfig` : what the middleware does with a path on it.
* `forward_openConfig` : everything with usable names is forwarded.
-/

namespace EdgeBase

open PathText (Segment render)

/-- The access block of the tables of an open configuration. -/
def openRules (insert : Bool) : TableRules :=
  { insert := some (.bool insert), update := some (.bool true) }

/-- A block of the provider that declares the tables `names`, all with `openRules`. -/
def openBlock (provider : DbProvider) (dynamic : Bool) (access : Option DbLevelRules)
    (names : List String) (insert : Bool) : DbBlock where
  provider := some provider
  instance_ := dynamic
  access := access
  tables := some (names.map fun name => (name, { access := some (openRules insert) }))

/-- A release configuration of the namespaces `nss`, with a block for each. -/
def openConfig (block : String → DbBlock) (nss : List String) : EdgeBaseConfig where
  databases := some (nss.map fun ns => (ns, block ns))
  release := true

variable {provider : DbProvider} {dynamic : Bool} {access : Option DbLevelRules}
  {nss names : List String} {insert : Bool} {ns name : String} {block : String → DbBlock}

theorem openConfig_block (hns : ns ∈ nss) : (openConfig block nss).block ns = some (block ns) :=
  List.lookup_graph _ hns

theorem openBlock_table (hname : name ∈ names) :
    (openBlock provider dynamic access names insert).table name =
      some { access := some (openRules insert) } :=
  List.lookup_graph _ hname

/-- The middleware on a client's request, on an open configuration that declares what it reads in
the path. -/
theorem rulesMiddleware_openConfig (block : String → DbBlock) (nss : List String) {req : Request}
    (hc : req.IsClient) {iid : Option String}
    (hparse : parsePath (render req.path) = .table ns iid name) (hns : ns ∈ nss)
    (hblock : block ns = openBlock provider dynamic access names insert) (hname : name ∈ names) :
    rulesMiddleware (openConfig block nss) req =
      accessGate req (openBlock provider dynamic access names insert) ns (req.dbId ns iid)
        (tableGate (openConfig block nss) req (render req.path) ns name (openRules insert)) := by
  rw [rulesMiddleware_client hc, hparse]
  dsimp only
  rw [checkRules_of_table ((openConfig_block hns).trans (congrArg some hblock))
    (openBlock_table hname)]
  rfl

/-- An open block of PostgreSQL or of Durable Objects serves a route whose names are usable. -/
theorem forward_openConfig (F : Framework) (block : String → DbBlock) {route : Route} {tableName : List Char}
    (hns : F.param route.ns.text ∈ nss)
    (hdyn : isDynamicDbBlock (block (F.param route.ns.text)) = route.instanceId.isSome)
    (hid : ∀ s ∈ route.instanceId, InstanceIdOk (F.param s.text))
    (hd : Percent.decode (route.tableParam F).toList = some tableName) :
    forward F (openConfig block nss) route =
      .ok ⟨chooseBackend (openConfig block nss) (F.param route.ns.text)
        (route.instanceId.map fun s => F.param s.text) (block (F.param route.ns.text)),
        F.param route.ns.text, route.tableParam F, String.ofList tableName⟩ := by
  refine routeToDO_ok_iff.2 ⟨tableName, _, _, hd,
    resolveDbTarget_ok_iff.2 ⟨openConfig_block hns, rfl, ?_, ?_⟩, rfl⟩
  · rw [hdyn]
    exact Option.isSome_map
  · intro id hmem
    obtain ⟨s, hs, rfl⟩ := Option.mem_map.1 hmem
    exact hid s hs

theorem chooseBackend_openConfig_postgres (block : String → DbBlock) (iid : Option String)
    (hns : ns ∈ nss) (hblock : (block ns).provider = some .postgres) :
    chooseBackend (openConfig block nss) ns iid (block ns) = .postgres := by
  have hd1 : shouldRouteToD1 ns (openConfig block nss) = false := by
    simp [shouldRouteToD1, openConfig_block hns, hblock]
  rw [chooseBackend, hd1, Bool.and_false]
  simp [hblock]

theorem chooseBackend_openConfig_do (block : String → DbBlock) (iid : Option String)
    (hns : ns ∈ nss) (hblock : (block ns).provider = some .do) :
    chooseBackend (openConfig block nss) ns iid (block ns) = .object (getDbDoName ns iid) := by
  have hd1 : shouldRouteToD1 ns (openConfig block nss) = false := by
    simp [shouldRouteToD1, openConfig_block hns, hblock]
  rw [chooseBackend, hd1, Bool.and_false]
  simp [hblock]

end EdgeBase
