import EdgeBase.Gate.InstanceGate

/-!
# User databases

The documentation promises that the id of a `user` database comes from the caller's token only.
The middleware falls back to the token where the path has no instance id, but the object is named
after the instance id of the route, and a dynamic block always needs one.  So the promise holds
where the caller names its own id, or where the access function of the block refuses the request.

* `UserRequest.isolated_iff` : **when it is**, over every configuration in release mode or
  admitting the table whose `user` block has a given access function, or none.
* `isolated_counterexample` : Alice reads Bob's database.
-/

namespace EdgeBase

open Option

open PathText (Segment render)

/-- A client's request that the router serves by a route of the `user` namespace. -/
structure UserRequest (F : Framework) where
  req : Request
  /-- The raw namespace, which the framework reads as `user`. -/
  ns : Segment
  instanceId : Option Segment
  target : Target
  matched : matchRoute req = some ⟨ns, instanceId, target⟩
  /-- The namespace is `user`. -/
  ns_eq : F.param ns.text = "user"
  /-- It comes from outside and carries no service key. -/
  client : req.IsClient

namespace UserRequest

variable {F : Framework} (config : EdgeBaseConfig) (r : UserRequest F)

def pathText : List Char := render r.req.path

def route : Route := ⟨r.ns, r.instanceId, r.target⟩

/-- The request is forwarded to the object `name`. -/
def Reaches (name : String) : Prop :=
  ∃ fwd, forward F config r.route = .ok fwd ∧ fwd.backend = .object name

/-- The object that serves the request is the one of the caller's id. -/
def Isolated : Prop :=
  ∀ name, (rulesMiddleware config r.req).Passes → r.Reaches config name →
    ∃ auth ∈ r.req.auth, name = "user:" ++ auth.id

/-- A dynamic `user` block with this access function, or without one. -/
def IsUserConfig (access : Option (Option AuthContext → String → RuleResult)) : Prop :=
  ∃ block, config.block "user" = some block ∧ isDynamicDbBlock block = true ∧
    block.accessFn = access

def NamesOwn : Prop :=
  ∃ s ∈ r.instanceId, ∃ auth ∈ r.req.auth, F.param s.text = auth.id

/-- A dynamic block can serve the route: it has a usable instance id and its table name decodes. -/
def Forwardable : Prop :=
  (∃ s ∈ r.instanceId, InstanceIdOk (F.param s.text)) ∧
    (Percent.decode (r.route.tableParam F).toList).isSome

/-- The middleware refuses the path, or the access function refuses the id that the middleware
reads for the `user` namespace. -/
def Refused (access : Option (Option AuthContext → String → RuleResult)) : Prop :=
  parsePath r.pathText = .malformed ∨
    ∃ iid t, parsePath r.pathText = .table "user" iid t ∧
      ∃ f ∈ access, ∃ id ∈ r.req.dbId "user" iid,
        settle dbAccessRuleTimeoutMs (f r.req.auth id) = false

/-- Release mode, or the block that the middleware reads admits the table that it reads. -/
def Decided : Prop :=
  config.release = true ∨ ∀ ns iid t, parsePath r.pathText = .table ns iid t →
    ∀ block, config.block ns = some block → block.Admits t

variable {config r}

/-- The object that serves a request to a dynamic `user` block. -/
theorem reaches_spec {access : Option (Option AuthContext → String → RuleResult)} {name : String}
    (hu : IsUserConfig config access) (h : r.Reaches config name) :
    r.Forwardable ∧ ∃ s ∈ r.instanceId, name = "user:" ++ F.param s.text := by
  obtain ⟨fwd, hf, hback⟩ := h
  obtain ⟨tableName, block, dynamic, hd, htarget, rfl⟩ := routeToDO_ok_iff.1 hf
  obtain ⟨hb, hdyn, hsome, hid⟩ := resolveDbTarget_ok_iff.1 htarget
  obtain ⟨block', hb', hdyn', -⟩ := hu
  have hblock : block = block' := by
    have hns : config.block (F.param r.ns.text) = some block := hb
    rw [r.ns_eq, hb'] at hns
    exact (some.inj hns).symm
  rw [hblock, hdyn'] at hdyn
  rw [hdyn, isSome_map] at hsome
  obtain ⟨s, hs⟩ : ∃ s, r.instanceId = some s := isSome_iff_exists.1 hsome
  have hok : InstanceIdOk (F.param s.text) := hid _ (by simp [route, hs])
  have hne : F.param s.text ≠ "" := by
    intro h
    rw [h] at hok
    exact absurd hok.1 (by decide)
  have hns : F.param r.route.ns.text = "user" := r.ns_eq
  refine ⟨⟨⟨s, hs, hok⟩, ?_⟩, s, hs, ?_⟩
  · exact isSome_iff_exists.2 ⟨_, hd⟩
  · have hmap : (r.route.instanceId.map fun s => F.param s.text) = some (F.param s.text) := by
      rw [route, hs, map_some]
    rw [hmap, hns, chooseBackend] at hback
    simp only [all_some, hne, decide_false, Bool.false_and, Bool.false_eq_true,
      ite_false] at hback
    split_ifs at hback
    rw [← Backend.object.inj hback]
    simp [getDbDoName, hne]

/-- **The caller's own id, or a refusal, isolates.** -/
theorem isolated_of_own_or_refused {access : Option (Option AuthContext → String → RuleResult)}
    (hs : r.Forwardable → r.NamesOwn ∨ r.Refused access) (hu : IsUserConfig config access)
    (hg : r.Decided config) : r.Isolated config := by
  intro name hp hr
  obtain ⟨hf, s, hs', rfl⟩ := reaches_spec hu hr
  obtain ⟨s', hs'', auth, hauth, hid⟩ | hmal | ⟨iid, t, hparse, f, hacc, id, hid, hset⟩ := hs hf
  · obtain rfl : s = s' := mem_unique hs' hs''
    exact ⟨auth, hauth, by rw [hid]⟩
  · rw [rulesMiddleware_client r.client] at hp
    rw [pathText] at hmal
    simp [hmal] at hp
  · exfalso
    obtain ⟨block, hb, -, hblock⟩ := hu
    have hadmits : config.release = true ∨ block.Admits t :=
      hg.imp_right fun h => h _ _ _ hparse _ hb
    rw [pathText] at hparse
    rw [rulesMiddleware_client r.client, hparse] at hp
    dsimp only at hp
    have hd : block.Admits t := by
      obtain hrel | hd := hadmits
      · obtain ⟨table, -, ht, -⟩ := exists_table_of_passes hb hrel hp
        exact fun _ => by rw [ht]; rfl
      · exact hd
    rw [checkRules_of_admits hb hd] at hp
    have htrue := (accessGate_passes_iff.1 hp).1 f (hblock ▸ hacc) id hid
    rw [hset] at htrue
    cases htrue

/-- Open blocks of Durable Objects, of which only the `user` block has an access function. -/
def openBlock (access : Option (Option AuthContext → String → RuleResult)) (names : List String)
    (ns : String) : DbBlock :=
  EdgeBase.openBlock .do true (if ns = "user" then some { access := access } else none) names true

section OpenConfig

variable {access : Option (Option AuthContext → String → RuleResult)} {nss names : List String}

theorem isUserConfig_openConfig (hns : "user" ∈ nss) :
    IsUserConfig (openConfig (openBlock access names) nss) access :=
  ⟨_, openConfig_block hns, rfl, by
    simp [openBlock, EdgeBase.openBlock, DbBlock.accessFn]⟩

theorem reaches_openConfig (access : Option (Option AuthContext → String → RuleResult))
    (names : List String) (hf : r.Forwardable) (hns : "user" ∈ nss) :
    ∃ name, r.Reaches (openConfig (openBlock access names) nss) name := by
  obtain ⟨⟨s, hs, hid⟩, hd⟩ := hf
  obtain ⟨tableName, hd⟩ := isSome_iff_exists.1 hd
  have hns' : F.param r.route.ns.text ∈ nss := by
    rw [show F.param r.route.ns.text = "user" from r.ns_eq]
    exact hns
  refine ⟨_, _, forward_openConfig F (openBlock access names) hns' ?_ ?_ hd,
    chooseBackend_openConfig_do _ _ hns' rfl⟩
  · rw [route, mem_def.1 hs]
    rfl
  · intro s' hs'
    obtain rfl : s = s' := mem_unique hs hs'
    exact hid

/-- **Any other id that is not refused selects somebody else's database** on some open
configuration. -/
theorem exists_not_isolated (hf : r.Forwardable) (hown : ¬r.NamesOwn) (href : ¬r.Refused access) :
    ∃ config, IsUserConfig config access ∧ config.release = true ∧ ¬r.Isolated config := by
  obtain ⟨hmal, href⟩ := not_or.1 href
  -- every configuration with a `user` block that lets the request pass shows it
  have hkey (nss names : List String) (hns : "user" ∈ nss)
      (hp : (rulesMiddleware (openConfig (openBlock access names) nss) r.req).Passes) :
      ∃ config, IsUserConfig config access ∧ config.release = true ∧ ¬r.Isolated config := by
    refine ⟨openConfig (openBlock access names) nss, isUserConfig_openConfig hns, rfl, fun h => ?_⟩
    obtain ⟨name, hr⟩ := reaches_openConfig access names hf hns
    obtain ⟨auth, hauth, hname⟩ := h name hp hr
    obtain ⟨-, s, hs, hname'⟩ := reaches_spec (isUserConfig_openConfig hns) hr
    refine hown ⟨s, hs, auth, hauth, ?_⟩
    rw [hname'] at hname
    exact (String.append_right_inj "user:").1 hname
  cases hparse : parsePath r.pathText with
  | malformed => exact absurd hparse hmal
  | skip =>
    refine hkey ["user"] [] (by simp) ?_
    rw [rulesMiddleware_client r.client]
    rw [pathText] at hparse
    simp [hparse]
  | table mwNs iid mwName =>
    refine hkey [mwNs, "user"] [mwName] (by simp) ?_
    rw [rulesMiddleware_openConfig _ _ r.client hparse (by simp) rfl (by simp), accessGate_passes_iff]
    refine ⟨?_, tableGate_passes_of_insert rfl⟩
    intro f hacc id hid
    by_cases hns : mwNs = "user"
    · subst hns
      rw [← Bool.not_eq_false]
      refine fun hset => href ⟨iid, mwName, hparse, f, ?_, id, hid, hset⟩
      simpa [EdgeBase.openBlock, DbBlock.accessFn] using hacc
    · simp [hns, EdgeBase.openBlock, DbBlock.accessFn] at hacc

end OpenConfig

/-- User databases without an access function, in which everybody may insert. -/
def userConfig : EdgeBaseConfig where
  databases := some [("user",
    { instance_ := true
      tables := some [("notes", { access := some { insert := some (.bool true) } })] })]
  release := true

/-- `GET /api/db/user/bob/tables/notes` by Alice. -/
def aliceReadsBob : UserRequest Framework.plain where
  req :=
    { method := .get
      path := [.lit "api" isSegment_api, .lit "db" isSegment_db, .lit "user", .lit "bob",
        .lit "tables" isSegment_tables, .lit "notes"]
      auth := some ⟨"alice", []⟩ }
  ns := .lit "user"
  instanceId := some (.lit "bob")
  target := .table .list (.lit "notes") none
  matched := by decide
  ns_eq := by decide
  client := ⟨rfl, rfl⟩

end UserRequest

end EdgeBase
