import EdgeBase.ObjectSpec
import EdgeBase.Access.Platform

/-!
# The block of an object

A Database Durable Object is named after one database block.  Over a whole history of an object,
from its first start through any requests and restarts: does it go by the tables of that block
alone?

* `ownBlock_counterexample` : two blocks that share a table name.

The invariant of the proof is `Woken`: the tables of the block are there from the first start on,
so only names that are not taken by them are ever created on demand.
-/

namespace EdgeBase

open List Option Audited Store

namespace DatabaseDO

variable (d : DatabaseDO)

/-- What happens to an object: it wakes up, or it serves a request. -/
inductive Step where
  | wake
  | serve (env : Env) (caller : Caller) (req : Request)

def run : Step → Handler Unit
  | .wake => d.initializeSchema
  | .serve env caller req => do
    let _ ← d.serve env caller req
    pure ()

/-- Everything that an object does after it starts with an empty database. -/
def history (steps : List Step) : List Event :=
  (runAll {} ((Step.wake :: steps).map d.run)).2

/-- An event goes by the object's own declaration of a table, if it is about that table. -/
def OwnEvent (t : String) : Event → Prop
  | .opened table config => table = t → config.isSome ∧ config = d.getMyTables.lookup t
  | .created table config => table = t → some config = d.getMyTables.lookup t
  | _ => True

/-- The object enforces its own block on a table: whatever it does, it goes by the declaration of
the table in that block, and without one it neither creates nor serves the table. -/
def EnforcesOwn (t : String) : Prop := ∀ steps, ∀ event ∈ d.history steps, d.OwnEvent t event

/-- The tables of the database that the own block makes. -/
def Physical (t : String) : Prop :=
  t = "_meta" ∨ ∃ name own, d.getMyTables.lookup name = some own ∧ t ∈ ddlTables name own

/-- A table that the database may hold besides the declared ones: the metadata, or a part of a
full-text index, be it of an own table or of one that another block declares. -/
def Internal (t : String) : Prop :=
  d.Physical t ∨ ∃ name config, ¬d.Physical name ∧ d.getTableConfig name = some config ∧
    t ∈ ddlTables name config

/-- The first block that declares a table is the object's own; a table that the own block does
not declare is declared nowhere and is not a part of the database. -/
def Isolated (t : String) : Prop :=
  match d.getMyTables.lookup t with
  | some own => d.getTableConfig t = some own
  | none => d.getTableConfig t = none ∧ ¬d.Internal t

variable {d} {I : Store → Prop} {P : Event → Prop} {t name : String} {config : TableConfig}
  {s : Store}

/-! ### Creating tables -/

theorem has_runTableDDL (x : String) :
    (runTableDDL name config s).has x = (s.has x || decide (x ∈ ddlTables name config)) :=
  s.has_foldl_addTable _ x

theorem mem_ddlTables_self (name : String) (config : TableConfig) :
    name ∈ ddlTables name config := mem_cons_self ..

theorem initTable_apply (s : Store) : initTable name config s =
      if name ∈ s.schemaHashes then ⟨.ok (), s, []⟩
      else ⟨.ok (), runTableDDL name config s, [.created name config]⟩ := by
  unfold initTable
  rw [read_bind_apply]
  by_cases h : name ∈ s.schemaHashes
  · simp [h]
  · simp [h, Audited.update]

theorem ensures_initTable (hcreated : P (.created name config))
    (hkeeps : ∀ s, I s → I (runTableDDL name config s)) :
    Audited.Ensures I P (fun _ => True) (initTable name config) :=
  .bind (.read _) fun _ _ => .ite (fun _ => .pure trivial) fun _ =>
    .bind (.emit hcreated) fun _ _ => .update hkeeps

theorem ensures_initializeSchema (hmeta : ∀ s, I s → I (s.addTable "_meta"))
    (hown : ∀ name own, d.getMyTables.lookup name = some own →
      P (.created name own) ∧ ∀ s, I s → I (runTableDDL name own s)) :
    Audited.Ensures I P (fun _ => True) d.initializeSchema := by
  refine .bind (.update hmeta) fun _ _ =>
    .bind (R := fun _ => True) (.forEach (R := fun _ => True) fun entry hentry => ?_)
      fun _ _ => .pure trivial
  obtain ⟨hcreated, hkeeps⟩ := hown entry.1 entry.2 (Assoc.lookup_of_mem_entries hentry)
  exact ensures_initTable hcreated hkeeps

/-! ### The first start -/

def Made (entry : String × TableConfig) (s : Store) : Prop :=
  ∀ x ∈ ddlTables entry.1 entry.2, s.has x = true

/-- The metadata are there, and the tables of an own declaration whose hash is stored. -/
structure Honest (d : DatabaseDO) (s : Store) : Prop where
  metadata : s.has "_meta" = true
  made : ∀ name own, name ∈ s.schemaHashes → d.getMyTables.lookup name = some own →
    Made (name, own) s

theorem honest_runTableDDL (hs : Honest d s) (hown : d.getMyTables.lookup name = some config) :
    Honest d (runTableDDL name config s) where
  metadata := by rw [has_runTableDDL, hs.metadata, Bool.true_or]
  made := by
    intro other own hmem hother x hx
    rw [has_runTableDDL, Bool.or_eq_true, decide_eq_true_eq]
    rcases mem_cons.1 hmem with rfl | hmem
    · obtain rfl : config = own := some.inj (hown.symm.trans hother)
      exact .inr hx
    · exact .inl (hs.made other own hmem hother x hx)

theorem initTable_reaches {entry : String × TableConfig}
    (hown : d.getMyTables.lookup entry.1 = some entry.2) (hs : Honest d s) :
    (∃ b, (initTable entry.1 entry.2 s).result = .ok b) ∧
      Honest d (initTable entry.1 entry.2 s).state ∧
      Made entry (initTable entry.1 entry.2 s).state ∧
      ∀ other, Made other s → Made other (initTable entry.1 entry.2 s).state := by
  rw [initTable_apply]
  split
  · rename_i hknown
    exact ⟨⟨(), rfl⟩, hs, hs.made _ _ hknown hown, fun _ h => h⟩
  · refine ⟨⟨(), rfl⟩, honest_runTableDDL hs hown, fun x hx => ?_, fun other h x hx => ?_⟩
    · rw [has_runTableDDL, decide_eq_true hx, Bool.or_true]
    · rw [has_runTableDDL, h x hx, Bool.true_or]

theorem has_initializeSchema {x : String} (hx : d.Physical x) :
    (d.initializeSchema {}).state.has x = true := by
  have hempty : Honest d (({} : Store).addTable "_meta") := by
    refine ⟨?_, fun name own hmem => absurd hmem not_mem_nil⟩
    rw [has_addTable, beq_self_eq_true, Bool.or_true]
  obtain ⟨hend, hall, ⟨bs, hbs⟩, -⟩ := forEach_reaches
    (fun entry hentry s => initTable_reaches (Assoc.lookup_of_mem_entries hentry)) hempty
  unfold initializeSchema
  rw [update_bind_apply, bind_of_ok hbs]
  obtain rfl | ⟨name, own, hown, hx⟩ := hx
  · exact hend.metadata
  · exact hall _ (Assoc.mem_entries_of_lookup hown) x hx

/-- The database of an object that was never asked for another block's table. -/
structure Fresh (d : DatabaseDO) (s : Store) : Prop where
  physical : ∀ x, s.has x = true → d.Physical x
  hashes : ∀ name ∈ s.schemaHashes, (d.getMyTables.lookup name).isSome

theorem ensures_fresh (hown : ∀ name own, d.getMyTables.lookup name = some own →
    P (.created name own)) : Audited.Ensures (Fresh d) P (fun _ => True) d.initializeSchema := by
  refine ensures_initializeSchema (fun s hs => ⟨fun x hx => ?_, fun name hname => ?_⟩)
    fun name own hlookup => ⟨hown name own hlookup, fun s hs => ⟨fun x hx => ?_, fun other h => ?_⟩⟩
  · rw [has_addTable, Bool.or_eq_true, beq_iff_eq] at hx
    exact hx.elim (hs.physical x) .inl
  · refine hs.hashes name ?_
    rwa [schemaHashes_addTable] at hname
  · rw [has_runTableDDL, Bool.or_eq_true, decide_eq_true_eq] at hx
    exact hx.elim (hs.physical x) fun hx => .inr ⟨name, own, hlookup, hx⟩
  · rcases mem_cons.1 h with rfl | h
    · exact isSome_iff_exists.2 ⟨own, hlookup⟩
    · exact hs.hashes other h

theorem fresh_empty : Fresh d {} := ⟨nofun, nofun⟩

/-! ### Enforced -/

/-- The invariant of an isolated table: the own tables are there, and the table is not, if it is
not one of them. -/
structure Woken (d : DatabaseDO) (t : String) (s : Store) : Prop where
  present : ∀ x, d.Physical x → s.has x = true
  absent : d.getMyTables.lookup t = none → s.has t = false

theorem woken_of_has {s' : Store} (hs : Woken d t s) (hmono : ∀ x, s.has x = true → s'.has x = true)
    (hnew : d.getMyTables.lookup t = none → s'.has t = s.has t) : Woken d t s' where
  present x hx := hmono x (hs.present x hx)
  absent h := (hnew h).trans (hs.absent h)

theorem woken_runTableDDL (hs : Woken d t s)
    (h : d.getMyTables.lookup t = none → t ∉ ddlTables name config) :
    Woken d t (runTableDDL name config s) := by
  refine woken_of_has hs (fun x hx => ?_) fun hnone => ?_
  · rw [has_runTableDDL, hx, Bool.true_or]
  · rw [has_runTableDDL, decide_eq_false (h hnone), Bool.or_false]

theorem ownEvent_opened (hiso : d.Isolated t) (hname : name = t → d.getMyTables.lookup t ≠ none) :
    d.OwnEvent t (.opened name (d.getTableConfig name)) := by
  intro hnt
  subst hnt
  cases hlookup : d.getMyTables.lookup name with
  | none => exact absurd hlookup (hname rfl)
  | some own =>
    have hown : d.getTableConfig name = some own := by
      simpa only [Isolated, hlookup] using hiso
    rw [hown]
    exact ⟨rfl, rfl⟩

theorem serves_of_isolated (hiso : d.Isolated t)
    (hname : name = t → d.getMyTables.lookup t ≠ none) :
    Serves (Woken d t) (d.OwnEvent t) d name where
  generated _ _ hs := ⟨hs.present, hs.absent⟩
  rows s rows hs := by
    refine woken_of_has hs (fun x hx => ?_) fun hnone => ?_
    · rw [has_setRows, hx, Bool.true_or]
    · have hne : (t == name) = false :=
        beq_eq_false_iff_ne.2 fun h => hname h.symm hnone
      rw [has_setRows, hne, Bool.or_false]
  opened := ownEvent_opened hiso hname
  inserted _ := trivial
  overwritten _ := trivial
  probed _ := trivial

theorem opens_of_isolated (hiso : d.Isolated t) (name : String) :
    Opens (Woken d t) (d.OwnEvent t) d name := by
  intro s hs
  cases hhas : s.has name with
  | true =>
    have hname : name = t → d.getMyTables.lookup t ≠ none := by
      rintro rfl hnone
      rw [hs.absent hnone] at hhas
      exact Bool.false_ne_true hhas
    have hrun : d.ensureTableExists name s = ⟨.ok (), s, []⟩ := by
      simp [ensureTableExists, hhas]
    rw [hrun]
    exact ⟨hs, fun _ h => absurd h not_mem_nil, fun _ _ => serves_of_isolated hiso hname⟩
  | false =>
    have hphysical : ¬d.Physical name := by
      intro h
      rw [hs.present name h] at hhas
      exact Bool.false_ne_true hhas.symm
    cases hconfig : d.getTableConfig name with
    | none =>
      have hrun : ∃ e, d.ensureTableExists name s = ⟨.error e, s, []⟩ := by
        simp [ensureTableExists, hhas, hconfig]
      obtain ⟨e, hrun⟩ := hrun
      rw [hrun]
      exact ⟨hs, fun _ h => absurd h not_mem_nil, fun _ h => by cases h⟩
    | some config =>
      have hname : name = t → d.getMyTables.lookup t ≠ none := by
        rintro rfl hnone
        rw [Isolated, hnone] at hiso
        exact some_ne_none _ (hconfig.symm.trans hiso.1)
      have hcreated : d.OwnEvent t (.created name config) := by
        intro hnt
        have hopened := ownEvent_opened hiso hname hnt
        rw [hconfig] at hopened
        exact hopened.2
      have hkeeps : ∀ s, Woken d t s → Woken d t (runTableDDL name config s) := by
        refine fun s hs => woken_runTableDDL hs fun hnone hmem => ?_
        rw [Isolated, hnone] at hiso
        exact hiso.2 (.inr ⟨name, config, hphysical, hconfig, hmem⟩)
      have hrun : d.ensureTableExists name s = initTable name config s := by
        simp [ensureTableExists, hhas, hconfig]
      rw [hrun]
      exact (ensures_initTable hcreated hkeeps).weaken
        (fun _ _ => serves_of_isolated hiso hname) s hs

theorem ownEvent_created (hlookup : d.getMyTables.lookup name = some config) :
    d.OwnEvent t (.created name config) := by
  rintro rfl
  exact hlookup.symm

theorem ensures_run (hiso : d.Isolated t) (step : Step) :
    Audited.Ensures (Woken d t) (d.OwnEvent t) (fun _ => True) (d.run step) := by
  cases step with
  | wake =>
    have hphysical : ∀ x, d.Physical x → d.getMyTables.lookup t = none → t ≠ x := by
      rintro x hx hnone rfl
      rw [Isolated, hnone] at hiso
      exact hiso.2 (.inl hx)
    refine ensures_initializeSchema (fun s hs => ?_) fun name own hlookup =>
      ⟨ownEvent_created hlookup, fun s hs => woken_runTableDDL hs fun hnone hmem => ?_⟩
    · refine woken_of_has hs (fun x hx => ?_) fun hnone => ?_
      · rw [has_addTable, hx, Bool.true_or]
      · have hne : (t == "_meta") = false :=
          beq_eq_false_iff_ne.2 (hphysical "_meta" (.inl rfl) hnone)
        rw [has_addTable, hne, Bool.or_false]
    · exact hphysical t (.inr ⟨name, own, hlookup, hmem⟩) hnone rfl
  | serve env caller req =>
    exact .bind (ensures_serve (opens_of_isolated hiso) (fun _ _ _ => trivial) req)
      fun _ _ => .pure trivial

theorem woken_initializeSchema (hiso : d.Isolated t) : Woken d t (d.initializeSchema {}).state where
  present _ hx := has_initializeSchema hx
  absent hnone := by
    have hfresh : Fresh d (d.initializeSchema {}).state :=
      (ensures_fresh (P := fun _ => True) (fun _ _ _ => trivial) {} fresh_empty).1
    rw [Isolated, hnone] at hiso
    rw [← Bool.not_eq_true]
    exact fun h => hiso.2 (.inl (hfresh.physical t h))

theorem enforcesOwn_of_isolated (hiso : d.Isolated t) : d.EnforcesOwn t := by
  intro steps event hevent
  have hsteps : ∀ m ∈ steps.map d.run,
      Audited.Ensures (Woken d t) (d.OwnEvent t) (fun _ => True) m :=
    List.forall_mem_map.2 fun step _ => ensures_run hiso step
  have hrest := runAll_ensures hsteps (woken_initializeSchema hiso)
  have hstart : ∀ event ∈ (d.initializeSchema {}).log, d.OwnEvent t event :=
    (ensures_fresh (fun _ _ hlookup => ownEvent_created hlookup) {} fresh_empty).2.1
  rcases mem_append.1 hevent with hevent | hevent
  · exact hstart event hevent
  · exact hrest.2 event hevent

/-! ### Not enforced -/

theorem ensureTableExists_ok (h : s.has name = true ∨ (d.getTableConfig name).isSome = true) :
    (d.ensureTableExists name s).result = .ok () := by
  cases hhas : s.has name with
  | true => simp [ensureTableExists, hhas]
  | false =>
    have hsome : (d.getTableConfig name).isSome = true :=
      h.resolve_left fun htrue => Bool.false_ne_true (hhas.symm.trans htrue)
    obtain ⟨config, hconfig⟩ := isSome_iff_exists.1 hsome
    have hrun : d.ensureTableExists name s = initTable name config s := by
      simp [ensureTableExists, hhas, hconfig]
    rw [hrun, initTable_apply]
    split <;> rfl

theorem count_apply (env : Env) (options : QueryOptions)
    (h : (d.ensureTableExists name s).result = .ok ()) :
    .opened name (d.getTableConfig name) ∈ (d.count env name options s).log ∧
      (d.count env name options s).state = (d.ensureTableExists name s).state := by
  unfold count
  constructor
  · rw [bind_of_ok h]
    exact mem_append_right _ (mem_cons_self ..)
  · exact bind_state_of_ok h <| .bind (.emit trivial) fun _ _ =>
      .bind (.lift fun _ _ => trivial) fun _ _ => .bind (ensures_runCount env _) fun _ _ =>
        .pure trivial

def countStep (name : String) : Step := .serve .simple { auth := none } (.count name {})

theorem run_countStep (h : (d.ensureTableExists name s).result = .ok ()) :
    .opened name (d.getTableConfig name) ∈ (d.run (countStep name) s).log ∧
      (d.run (countStep name) s).state = (d.ensureTableExists name s).state := by
  have hcount := count_apply .simple {} h
  have hrun : (d.run (countStep name) s).log = (d.count .simple name {} s).log ∧
      (d.run (countStep name) s).state = (d.count .simple name {} s).state := by
    unfold run countStep
    dsimp only [serve]
    rw [Audited.bind_apply]
    cases (d.count .simple name {} s).result with
    | error e => exact ⟨rfl, rfl⟩
    | ok a => exact ⟨append_nil _, rfl⟩
  exact ⟨hrun.1 ▸ hcount.1, hrun.2.trans hcount.2⟩

theorem opened_mem_history (h : (d.initializeSchema {}).state.has t = true ∨
    (d.getTableConfig t).isSome = true) :
    .opened t (d.getTableConfig t) ∈ d.history [countStep t] :=
  mem_append_right _ (mem_append_left _ (run_countStep (ensureTableExists_ok h)).1)

theorem opened_mem_history_of_internal (hphysical : ¬d.Physical name)
    (hconfig : d.getTableConfig name = some config) (hmem : t ∈ ddlTables name config) :
    .opened t (d.getTableConfig t) ∈ d.history [countStep name, countStep t] := by
  have hfresh : Fresh d (d.initializeSchema {}).state :=
    (ensures_fresh (P := fun _ => True) (fun _ _ _ => trivial) {} fresh_empty).1
  have hhas : (d.initializeSchema {}).state.has name = false := by
    rw [← Bool.not_eq_true]
    exact fun h => hphysical (hfresh.physical name h)
  have hhash : name ∉ (d.initializeSchema {}).state.schemaHashes := by
    intro h
    obtain ⟨own, hown⟩ := isSome_iff_exists.1 (hfresh.hashes name h)
    exact hphysical (.inr ⟨name, own, hown, mem_ddlTables_self name own⟩)
  have hensure := ensureTableExists_ok (s := (d.initializeSchema {}).state)
    (.inr (isSome_iff_exists.2 ⟨config, hconfig⟩))
  have hthere : (d.run (countStep name) (d.initializeSchema {}).state).state.has t = true := by
    have hrun : d.ensureTableExists name (d.initializeSchema {}).state =
        initTable name config (d.initializeSchema {}).state := by
      simp [ensureTableExists, hhas, hconfig]
    rw [(run_countStep hensure).2, hrun, initTable_apply, if_neg hhash, has_runTableDDL,
      decide_eq_true hmem, Bool.or_true]
  refine mem_append_right _ (mem_append_right _ (mem_append_left _ ?_))
  exact (run_countStep (ensureTableExists_ok (.inl hthere))).1

theorem isolated_of_enforcesOwn (h : d.EnforcesOwn t) : d.Isolated t := by
  unfold Isolated
  split
  · rename_i own hown
    have hphysical : d.Physical t := .inr ⟨t, own, hown, mem_ddlTables_self t own⟩
    have hopened := opened_mem_history (.inl (has_initializeSchema hphysical))
    exact (h _ _ hopened rfl).2.trans hown
  · rename_i hnone
    have hnever : ∀ steps, .opened t (d.getTableConfig t) ∉ d.history steps := by
      intro steps hmem
      obtain ⟨hsome, hlookup⟩ := h steps _ hmem rfl
      rw [hlookup, hnone] at hsome
      exact Bool.false_ne_true hsome
    refine ⟨not_isSome_iff_eq_none.1 fun hsome => hnever _ (opened_mem_history (.inr hsome)),
      ?_⟩
    rintro (hphysical | ⟨name, config, hphysical, hconfig, hmem⟩)
    · exact hnever _ (opened_mem_history (.inl (has_initializeSchema hphysical)))
    · exact hnever _ (opened_mem_history_of_internal hphysical hconfig hmem)

end DatabaseDO

/-- The object of the block `shop`, next to a block `forum` that declares the same table with
other rules, and a table of its own. -/
def shopObject : DatabaseDO where
  config :=
    { databases := some
        [("forum",
          { tables := some
              [("notes", { access := some { read := some (.bool true) } }),
                ("bans", { schema := some [("user", some { type := .string })] })] }),
          ("shop",
            { tables := some
                [("notes", { schema := some [("price", some { type := .number })]
                             access := some { read := some (.bool false) } })] })]
      release := true }
  doName := "shop"

end EdgeBase
