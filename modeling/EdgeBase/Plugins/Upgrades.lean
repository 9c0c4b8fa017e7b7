import EdgeBase.Plugins.Runs

/-!
# Upgrades

Several isolates may read the version of a plugin before one of them has recorded the new one, and a
run that has failed or timed out leaves nothing for the next one to go on from: handlers run again.
What holds is said of each run, and of what has been recorded.

* `Ordered` : the handlers of a run are started in their order, each once, and all of them have been
  completed when the version is recorded.
* `ordered_run` : that holds however requests, isolates, failures and timeouts are interleaved.
-/

namespace EdgeBase

open List Option Progress Assoc

namespace Plugins

variable {env : Env} {log : List Report} {run i : ℕ} {sec sec' : Section} {e : Report}
  {plugin : Plugin} {rest : List Plugin} {s : World} {outcome : Outcome}

/-! ## The recorded versions -/

/-- A version is recorded that the plugin has, and is what later runs read. -/
structure VersionInv (env : Env) (initial : List (String × String)) (s : World)
    (pending : List Section) : Prop where
  versions : ∀ plugin ∈ env.plugins, s.versions.lookup plugin.name = initial.lookup plugin.name ∨
    ∃ version ∈ plugin.version, s.versions.lookup plugin.name = some version
  stored : ∀ run name version, .stored run name version ∈ s.log →
    s.versions.lookup name = some version ∧
      ∃ plugin ∈ env.plugins, plugin.name = name ∧ plugin.version = some version
  read : ∀ run name storedVersion, .read run name storedVersion ∈ s.log →
    ∀ plugin ∈ env.plugins, plugin.name = name →
      storedVersion = initial.lookup name ∨ ∃ version ∈ plugin.version, storedVersion = some version
  after : ∀ run run' name version storedVersion,
    [.stored run name version, .read run' name storedVersion].Sublist s.log →
      storedVersion = some version
  setting : ∀ job version, .setPluginVersion job version ∈ pending →
    job.plugin ∈ env.plugins ∧ job.plugin.version = some version

def Quiet (s s' : World) : Prop :=
  s'.versions = s.versions ∧ (s'.log = s.log ∨ ∃ e, s'.log = s.log ++ [e] ∧
    (∀ run name version, e ≠ .stored run name version) ∧ ∀ run name w, e ≠ .read run name w)

theorem quiet_refl (s : World) : Quiet s s := ⟨rfl, .inl rfl⟩

theorem quiet_release (s : World) (i run : ℕ) : Quiet s (s.release i run) := by
  obtain ⟨hlog, -, hversions⟩ := release_fields s i run
  exact ⟨hversions, .inl hlog⟩

theorem quiet_startMigrations (s : World) (i : ℕ) (plugins : List Plugin) :
    Quiet s (s.startMigrations env i plugins).1 ∧
      ∀ job version, .setPluginVersion job version ∉
        (s.startMigrations env i plugins).2.sections := by
  unfold World.startMigrations
  split
  · exact ⟨quiet_refl s, nofun⟩
  · exact ⟨⟨rfl, .inl rfl⟩, by simp⟩

theorem quiet_settle (s : World) (job : Job) (handler : Handler) (versions : List String) :
    Quiet s (s.settle job handler versions outcome).1 ∧
      ∀ job' version, .setPluginVersion job' version ∉
        (s.settle job handler versions outcome).2.sections := by
  cases outcome with
  | ok => exact ⟨⟨rfl, .inr ⟨_, rfl, nofun, nofun⟩⟩, by simp [World.settle]⟩
  | failed =>
    obtain ⟨hlog, -, hversions⟩ :=
      release_fields (s.report (.failed job.run job.plugin.name handler)) job.isolate job.run
    exact ⟨⟨hversions, .inr ⟨_, hlog, nofun, nofun⟩⟩, nofun⟩

theorem quiet_migrate (s : World) (job : Job) (storedVersion : Option String) :
    Quiet s (s.migrate env job storedVersion).1 ∧
      ∀ job' version, .setPluginVersion job' version ∉
        (s.migrate env job storedVersion).2.sections := by
  unfold World.migrate
  split
  · split_ifs
    · exact ⟨⟨rfl, .inr ⟨_, rfl, nofun, nofun⟩⟩, by simp⟩
    · exact ⟨quiet_refl s, by simp⟩
  · split_ifs
    · exact ⟨quiet_refl s, by simp⟩
    · exact ⟨quiet_refl s, by simp⟩

theorem quiet_runPendingMigrations (s : World) (job : Job) (versions : List String) :
    Quiet s (s.runPendingMigrations job versions).1 ∧
      ∀ job' version, .setPluginVersion job' version ∈
        (s.runPendingMigrations job versions).2.sections →
          job' = job ∧ job.plugin.version = some version := by
  unfold World.runPendingMigrations
  split
  · split_ifs
    · exact ⟨⟨rfl, .inr ⟨_, rfl, nofun, nofun⟩⟩, by simp⟩
    · exact ⟨quiet_refl s, by simp⟩
  · split
    · rename_i version hversion
      refine ⟨quiet_refl s, fun job' version' hmem => ?_⟩
      obtain ⟨rfl, rfl⟩ := Section.setPluginVersion.inj (mem_singleton.1 hmem)
      exact ⟨rfl, hversion⟩
    · exact ⟨⟨rfl, .inl rfl⟩, by simp⟩

namespace VersionInv

variable {initial : List (String × String)} {s' : World} {pending pending' : List Section}

theorem quiet (h : VersionInv env initial s pending) (hquiet : Quiet s s')
    (hsetting : ∀ job version, .setPluginVersion job version ∈ pending' →
      .setPluginVersion job version ∈ pending ∨
        job.plugin ∈ env.plugins ∧ job.plugin.version = some version) :
    VersionInv env initial s' pending' := by
  obtain ⟨hversions, hlog⟩ := hquiet
  have hmem {e : Report} (he : e ∈ s'.log) : e ∈ s.log ∨
      (∀ run name version, e ≠ .stored run name version) ∧ ∀ run name w, e ≠ .read run name w := by
    rcases hlog with heq | ⟨e', heq, hnot⟩
    · exact .inl (heq ▸ he)
    · rw [heq] at he
      refine (mem_append.1 he).imp_right fun he => ?_
      rw [mem_singleton.1 he]
      exact hnot
  refine ⟨hversions ▸ h.versions, fun run name version he => ?_, fun run name w he => ?_, ?_,
    fun job version hjob => (hsetting job version hjob).elim (h.setting job version) id⟩
  · rw [hversions]
    exact h.stored run name version ((hmem he).resolve_right fun hnot => hnot.1 _ _ _ rfl)
  · exact h.read run name w ((hmem he).resolve_right fun hnot => hnot.2 _ _ _ rfl)
  · intro run run' name version w hsublist
    rcases hlog with heq | ⟨e, heq, hnot⟩
    · exact h.after run run' name version w (heq ▸ hsublist)
    · rw [heq, Runs.pair_sublist_append] at hsublist
      · exact h.after run run' name version w hsublist
      · exact fun hread => hnot.2 _ _ _ (mem_singleton.1 hread).symm

theorem quiet_cons (h : VersionInv env initial s (sec :: pending)) (hquiet : Quiet s s')
    (next : List Section) (hnot : ∀ job version, .setPluginVersion job version ∉ next) :
    VersionInv env initial s' (next ++ pending) := by
  refine h.quiet hquiet fun job version hjob => .inl ?_
  exact mem_cons_of_mem _ ((mem_append.1 hjob).resolve_left (hnot job version))

theorem exec_read {job : Job} (h : VersionInv env initial s (.readVersion job :: pending)) :
    VersionInv env initial (s.exec env outcome (.readVersion job)).1
      ((s.exec env outcome (.readVersion job)).2.sections ++ pending) := by
  unfold World.exec
  refine ⟨h.versions, fun run name version he => ?_, fun run name w he plugin hplugin hname => ?_,
    fun run run' name version w hsublist => ?_, fun job' version hjob => ?_⟩
  · refine h.stored run name version ((mem_append.1 he).resolve_right fun he => ?_)
    cases mem_singleton.1 he
  · rcases mem_append.1 he with he | he
    · exact h.read run name w he plugin hplugin hname
    · obtain ⟨-, rfl, rfl⟩ := Report.read.inj (mem_singleton.1 he)
      rw [← hname]
      exact h.versions plugin hplugin
  · rcases Runs.pair_sublist_concat.1 hsublist with hsublist | ⟨he, heq⟩
    · exact h.after run run' name version w hsublist
    · obtain ⟨-, rfl, rfl⟩ := Report.read.inj heq
      exact (h.stored run _ version he).1
  · refine h.setting job' version (mem_cons_of_mem _ ?_)
    exact (mem_append.1 hjob).resolve_left (by simp)

theorem exec_set {job : Job} {version : String}
    (h : VersionInv env initial s (.setPluginVersion job version :: pending)) :
    VersionInv env initial (s.exec env .ok (.setPluginVersion job version)).1
      ((s.exec env .ok (.setPluginVersion job version)).2.sections ++ pending) := by
  obtain ⟨hplugin, hversion⟩ := h.setting job version mem_cons_self
  unfold World.exec
  refine ⟨fun plugin hp => ?_, fun run name version' he => ?_, fun run name w he => ?_,
    fun run run' name version' w hsublist => ?_, fun job' version' hjob => ?_⟩
  · dsimp only
    by_cases hname : plugin.name = job.plugin.name
    · obtain rfl := eq_of_name hp hplugin hname
      exact .inr ⟨version, hversion, lookup_set_self _ _ _⟩
    · rw [lookup_set_of_ne _ hname]
      exact h.versions plugin hp
  · dsimp only
    rcases mem_append.1 he with he | he
    · obtain ⟨hlookup, plugin, hp, rfl, hversion'⟩ := h.stored run name version' he
      refine ⟨?_, plugin, hp, rfl, hversion'⟩
      by_cases hname : plugin.name = job.plugin.name
      · obtain rfl := eq_of_name hp hplugin hname
        rw [lookup_set_self, ← hversion, hversion']
      · rw [lookup_set_of_ne _ hname]
        exact hlookup
    · obtain ⟨-, rfl, rfl⟩ := Report.stored.inj (mem_singleton.1 he)
      exact ⟨lookup_set_self _ _ _, job.plugin, hplugin, rfl, hversion⟩
  · refine h.read run name w ((mem_append.1 he).resolve_right fun he => ?_)
    cases mem_singleton.1 he
  · refine h.after run run' name version' w ((Runs.pair_sublist_append fun he => ?_).1 hsublist)
    cases mem_singleton.1 he
  · refine h.setting job' version' (mem_cons_of_mem _ ?_)
    exact (mem_append.1 hjob).resolve_left (by simp)

protected theorem exec (h : VersionInv env initial s (sec :: pending))
    (hsub : sec.plugins.Sublist env.plugins) :
    VersionInv env initial (s.exec env outcome sec).1
      ((s.exec env outcome sec).2.sections ++ pending) := by
  have hstop {s' : World} (hquiet : Quiet s s') : VersionInv env initial s' pending :=
    h.quiet_cons hquiet [] nofun
  cases sec with
  | execute i plugins =>
    refine h.quiet_cons (quiet_refl s) _ ?_
    dsimp only [World.exec]
    split_ifs <;> simp
  | checkCurrent i plugins =>
    unfold World.exec
    cases outcome with
    | failed => exact hstop (quiet_refl s)
    | ok =>
      dsimp only
      split_ifs
      · exact h.quiet_cons (quiet_startMigrations s i plugins).1 _
          (quiet_startMigrations s i plugins).2
      · exact hstop ⟨rfl, .inl rfl⟩
      · exact h.quiet_cons (quiet_refl s) _ (by simp)
  | queryVersions i plugins => exact h.quiet_cons (quiet_refl s) _ (by simp [World.exec])
  | compareVersions i plugins current =>
    unfold World.exec
    cases outcome with
    | failed => exact hstop (quiet_refl s)
    | ok =>
      dsimp only
      split_ifs
      · exact hstop ⟨rfl, .inl rfl⟩
      · exact h.quiet_cons (quiet_startMigrations s i plugins).1 _
          (quiet_startMigrations s i plugins).2
  | doMigrations run i plugins =>
    unfold World.exec
    cases plugins with
    | nil =>
      obtain ⟨hlog, -, hversions⟩ := finish_fields s i run
      exact hstop ⟨hversions, .inl hlog⟩
    | cons plugin rest =>
      refine h.quiet_cons (quiet_refl s) _ ?_
      dsimp only
      split_ifs <;> simp
  | readVersion job => exact h.exec_read
  | migrate job storedVersion =>
    unfold World.exec
    cases outcome with
    | failed => exact hstop (quiet_release s _ _)
    | ok =>
      exact h.quiet_cons (quiet_migrate s job storedVersion).1 _
        (quiet_migrate s job storedVersion).2
  | installed job =>
    exact h.quiet_cons (quiet_settle s job _ _).1 _ (quiet_settle s job _ _).2
  | runPendingMigrations job versions =>
    obtain ⟨hquiet, hnext⟩ := quiet_runPendingMigrations s job versions
    refine h.quiet hquiet fun job' version hjob => ?_
    rcases mem_append.1 hjob with hjob | hjob
    · obtain ⟨rfl, hversion⟩ := hnext job' version hjob
      exact .inr ⟨hsub.subset mem_cons_self, hversion⟩
    · exact .inl (mem_cons_of_mem _ hjob)
  | migrated job version versions =>
    exact h.quiet_cons (quiet_settle s job _ _).1 _ (quiet_settle s job _ _).2
  | setPluginVersion job version =>
    cases outcome with
    | failed => exact hstop (quiet_release s _ _)
    | ok => exact h.exec_set
  | versionSet job =>
    unfold World.exec
    cases outcome with
    | failed => exact hstop (quiet_release s _ _)
    | ok => exact h.quiet_cons (quiet_refl s) _ (by simp)

protected theorem handle (h : VersionInv env initial s pending) (e : Event) :
    VersionInv env initial (s.handle env e).1
      (Handlers.started (s.handle env e).2 ++ pending) := by
  cases e with
  | call i names =>
    refine h.quiet (quiet_refl s) fun job version hjob => .inl ?_
    exact (mem_append.1 hjob).resolve_left (by simp [Handlers.started, World.handle])
  | timeout i =>
    unfold World.handle
    dsimp only
    cases (s.isolates i).migrationPromise with
    | none => exact h
    | some latch =>
      dsimp only
      split_ifs
      · obtain ⟨hlog, -, hversions⟩ :=
          release_fields (s.report (.timedOut latch.run)) i latch.run
        exact h.quiet ⟨hversions, .inr ⟨_, hlog, nofun, nofun⟩⟩ fun job version => .inl
      · exact h
  | tick ms => exact h.quiet ⟨rfl, .inl rfl⟩ fun job version => .inl

end VersionInv

/-! ## All runs -/

def startsOf (run : ℕ) (name : String) (log : List Report) : List Handler :=
  log.filterMap fun
    | .started run' name' handler => if run' = run ∧ name' = name then some handler else none
    | _ => none

def completesOf (run : ℕ) (name : String) (log : List Report) : List Handler :=
  log.filterMap fun
    | .completed run' name' handler => if run' = run ∧ name' = name then some handler else none
    | _ => none

def Section.active : Section → Option (Job × Handler)
  | .installed job => some (job, .onInstall)
  | .migrated job version _ => some (job, .migration version)
  | _ => none

def active (s : System) : List (Job × Handler) := s.pending.filterMap Section.active

structure Ordered (env : Env) (initial : List (String × String)) (s : System) : Prop where
  once : ∀ run, ∀ plugin ∈ env.plugins, (startsOf run plugin.name s.state.log).Nodup
  /-- It completes `onInstall` first, and the migrations in the order of their versions. -/
  order : ∀ run, ∀ plugin ∈ env.plugins,
    (completesOf run plugin.name s.state.log).Pairwise (Handler.Before env)
  /-- No two handlers are active in one run, nor in one isolate, but after a timeout. -/
  alone : (active s).Pairwise fun a b => a.1.run ≠ b.1.run ∧
    (a.1.isolate = b.1.isolate →
      .timedOut a.1.run ∈ s.state.log ∨ .timedOut b.1.run ∈ s.state.log)
  /-- A run that reads a version that was recorded starts nothing. -/
  upToDate : ∀ run run' name version storedVersion handler,
    ¬ [.stored run name version, .read run' name storedVersion,
      .started run' name handler].Sublist s.state.log
  /-- A version is recorded once all migrations up to it have been completed. -/
  stored : ∀ run name version, .stored run name version ∈ s.state.log →
    ∃ plugin ∈ env.plugins, plugin.name = name ∧ plugin.version = some version ∧
      ∀ v, plugin.hasMigration v = true → semverCompare env.number v version ≠ .gt →
        (∀ w ∈ initial.lookup name, semverCompare env.number v w = .gt) →
          [.completed run name (.migration v), .stored run name version].Sublist s.state.log

theorem startsOf_eq (env : Env) (run : ℕ) (plugin : Plugin) (log : List Report) :
    startsOf run plugin.name log = Progress.starts (trace env run plugin log) := by
  unfold startsOf Progress.starts trace
  rw [filterMap_filterMap, filterMap_filter]
  congr 1
  funext e
  cases e with
  | started run' name' handler =>
    by_cases h : run' = run ∧ name' = plugin.name
    · obtain ⟨rfl, rfl⟩ := h
      simp [Report.key, Report.event]
    · simp [Report.key, h]
  | read run' name' storedVersion =>
    cases hscript : script env plugin storedVersion <;> simp [Report.key, Report.event, hscript]
  | timedOut => simp [Report.key]
  | _ => simp [Report.key, Report.event]

theorem completesOf_eq (env : Env) (run : ℕ) (plugin : Plugin) (log : List Report) :
    completesOf run plugin.name log = completes (trace env run plugin log) := by
  unfold completesOf completes trace
  rw [filterMap_filterMap, filterMap_filter]
  congr 1
  funext e
  cases e with
  | completed run' name' handler =>
    by_cases h : run' = run ∧ name' = plugin.name
    · obtain ⟨rfl, rfl⟩ := h
      simp [Report.key, Report.event]
    · simp [Report.key, h]
  | read run' name' storedVersion =>
    cases hscript : script env plugin storedVersion <;> simp [Report.key, Report.event, hscript]
  | timedOut => simp [Report.key]
  | _ => simp [Report.key, Report.event]

theorem mem_trace {ev : Progress.Event Handler} (he : e ∈ log)
    (hkey : e.key = some (run, plugin.name)) (hevent : e.event env plugin = some ev) :
    ev ∈ trace env run plugin log :=
  mem_filterMap.2 ⟨e, mem_filter.2 ⟨he, decide_eq_true hkey⟩, hevent⟩

theorem read_of_planned {tasks : List Handler} (h : .planned tasks ∈ trace env run plugin log) :
    ∃ storedVersion, .read run plugin.name storedVersion ∈ log ∧
      script env plugin storedVersion = some tasks := by
  obtain ⟨e, hmem, hevent⟩ := mem_filterMap.1 h
  obtain ⟨he, hkey⟩ := mem_filter.1 hmem
  have hkey := of_decide_eq_true hkey
  cases e with
  | read run' name storedVersion =>
    obtain ⟨rfl, rfl⟩ := Prod.mk.inj (some.inj hkey)
    refine ⟨storedVersion, he, ?_⟩
    have hevent := some.inj hevent
    cases hscript : script env plugin storedVersion with
    | none =>
      rw [hscript] at hevent
      cases hevent
    | some tasks' =>
      rw [hscript] at hevent
      exact congrArg some (Progress.Event.planned.inj hevent)
  | _ => cases hevent

theorem plan_ordered {φ : Progress.Phase Handler}
    (h : Progress.Shape (trace env run plugin log) φ) :
    (plan (trace env run plugin log)).Nodup ∧
      (plan (trace env run plugin log)).Pairwise (Handler.Before env) := by
  rcases h.planned with heq | heq | hplanned
  · rw [heq]
    exact ⟨.nil, .nil⟩
  · rw [heq]
    exact ⟨.nil, .nil⟩
  · obtain ⟨storedVersion, -, hscript⟩ := read_of_planned hplanned
    exact script_ordered hscript

theorem pair_sublist_trace {ev ev' : Progress.Event Handler}
    (h : [ev, ev'].Sublist (trace env run plugin log)) :
    ∃ e e', [e, e'].Sublist log ∧ (e.key = some (run, plugin.name) ∧ e.event env plugin = some ev) ∧
        e'.key = some (run, plugin.name) ∧ e'.event env plugin = some ev' := by
  obtain ⟨l, hl, heq⟩ := sublist_filterMap_iff.1 h
  obtain ⟨l₁, e, l₂, rfl, -, hev, hrest⟩ := filterMap_eq_cons_iff.1 heq.symm
  obtain ⟨l₃, e', l₄, rfl, -, hev', -⟩ := filterMap_eq_cons_iff.1 hrest
  have hpair : [e, e'].Sublist (l₁ ++ e :: (l₃ ++ e' :: l₄)) :=
    List.Sublist.trans (.cons_cons e (.trans (.cons_cons e' (nil_sublist _))
      (sublist_append_right _ _))) (sublist_append_right _ _)
  have hfilter := hpair.trans hl
  have hkey {x : Report} (hx : x ∈ [e, e']) : x.key = some (run, plugin.name) :=
    of_decide_eq_true (mem_filter.1 (hfilter.subset hx)).2
  exact ⟨e, e', hfilter.trans filter_sublist, ⟨hkey (by simp), hev⟩, hkey (by simp), hev'⟩

/-- A version is recorded by a run that has completed what was due for the version it has read. -/
theorem completed_stored {φ : Progress.Phase Handler} {version : String}
    (h : Progress.Shape (trace env run plugin log) φ) (he : .stored run plugin.name version ∈ log)
    (honly : ∀ version', .stored run plugin.name version' ∈ log → version' = version)
    (handler : Handler) :
    ∃ storedVersion tasks, .read run plugin.name storedVersion ∈ log ∧
      script env plugin storedVersion = some tasks ∧ (handler ∈ tasks →
        [.completed run plugin.name handler, .stored run plugin.name version].Sublist log) := by
  have hrecorded : .recorded ∈ trace env run plugin log := mem_trace he rfl rfl
  have hplanned :
      .planned (plan (trace env run plugin log)) ∈ trace env run plugin log := by
    rcases h.planned with heq | heq | hplanned
    · rw [heq] at hrecorded
      cases hrecorded
    · rw [heq] at hrecorded
      cases mem_singleton.1 hrecorded
    · exact hplanned
  obtain ⟨storedVersion, hread, hscript⟩ := read_of_planned hplanned
  refine ⟨storedVersion, _, hread, hscript, fun hhandler => ?_⟩
  obtain ⟨e, e', hsublist, ⟨hkey, hevent⟩, hkey', hevent'⟩ :=
    pair_sublist_trace (h.completed_recorded hrecorded hhandler)
  have hfirst : e = .completed run plugin.name handler := by
    cases e with
    | completed run' name handler' =>
      obtain ⟨rfl, rfl⟩ := Prod.mk.inj (some.inj hkey)
      obtain rfl := Progress.Event.completed.inj (some.inj hevent)
      rfl
    | read run' name w =>
      cases hscript' : script env plugin w <;> simp [Report.event, hscript'] at hevent
    | _ => cases hevent
  have hsecond : e' = .stored run plugin.name version := by
    cases e' with
    | stored run' name version' =>
      obtain ⟨rfl, rfl⟩ := Prod.mk.inj (some.inj hkey')
      rw [honly version' (hsublist.subset (by simp))]
    | read run' name w =>
      cases hscript' : script env plugin w <;> simp [Report.event, hscript'] at hevent'
    | _ => cases hevent'
  rwa [hfirst, hsecond] at hsublist

namespace Ordered

variable {initial : List (String × String)} {system : System}

/-- The runs of active handlers are distinct, and an isolate waits for one of them at most. -/
theorem alone_of_inv (h : RunInv env system.state system.pending) :
    (active system).Pairwise fun a b => a.1.run ≠ b.1.run ∧
      (a.1.isolate = b.1.isolate →
        .timedOut a.1.run ∈ system.state.log ∨ .timedOut b.1.run ∈ system.state.log) := by
  have hrun {sec : Section} {a : Job × Handler} (ha : sec.active = some a) :
      sec.run = some (a.1.run, a.1.isolate) := by
    cases sec with
    | installed job =>
      cases ha
      rfl
    | migrated job version versions =>
      cases ha
      rfl
    | _ => cases ha
  have hpairs := pairwise_filterMap.1 h.unique
  refine pairwise_filterMap.2 (hpairs.imp_of_mem fun {sec sec'} hsec hsec' hne a ha b hb => ?_)
  have hruns : a.1.run ≠ b.1.run :=
    hne _ (by rw [hrun ha]; rfl) _ (by rw [hrun hb]; rfl)
  refine ⟨hruns, fun hisolate => ?_⟩
  rcases h.awaited sec hsec _ _ (hrun ha) with hawaits | htimedOut
  · rcases h.awaited sec' hsec' _ _ (hrun hb) with hawaits' | htimedOut
    · unfold Awaits at hawaits hawaits'
      rw [← hisolate] at hawaits'
      cases hlatch : (system.state.isolates a.1.isolate).migrationPromise with
      | none =>
        rw [hlatch] at hawaits
        cases hawaits
      | some latch =>
        rw [hlatch] at hawaits hawaits'
        have hfirst : latch.run = a.1.run := by simpa using hawaits
        have hsecond : latch.run = b.1.run := by simpa using hawaits'
        exact (hruns (hfirst.symm.trans hsecond)).elim
    · exact .inr htimedOut
  · exact .inl htimedOut

theorem of_inv (h : RunInv env system.state system.pending)
    (hversions : VersionInv env initial system.state system.pending) :
    Ordered env initial system where
  once := by
    intro run plugin hplugin
    obtain ⟨φ, hφ⟩ := h.accepted run plugin hplugin
    have hshape := Progress.shape hφ
    rw [startsOf_eq env]
    exact (plan_ordered hshape).1.sublist hshape.starts_prefix.sublist
  order := by
    intro run plugin hplugin
    obtain ⟨φ, hφ⟩ := h.accepted run plugin hplugin
    have hshape := Progress.shape hφ
    rw [completesOf_eq env]
    exact (plan_ordered hshape).2.sublist
      (hshape.completes_prefix.1.trans hshape.starts_prefix).sublist
  alone := alone_of_inv h
  upToDate := by
    intro run run' name version storedVersion handler hsublist
    have hread := hversions.after run run' name version storedVersion
      ((prefix_append [_, _] [_]).sublist.trans hsublist)
    obtain ⟨-, plugin, hplugin, rfl, hversion⟩ := hversions.stored run name version
      (hsublist.subset mem_cons_self)
    subst hread
    obtain ⟨φ, hφ⟩ := h.accepted run' plugin hplugin
    -- The plugin is up to date, and there is nothing to do.
    have hscript : script env plugin (some version) = none := by
      unfold script
      dsimp only
      rw [hversion, if_neg (by simp)]
    have hdeclined : .declined ∈ trace env run' plugin system.state.log := by
      refine mem_trace (e := .read run' plugin.name (some version))
        (hsublist.subset (by simp)) rfl ?_
      simp [Report.event, hscript]
    have hstarted : .started handler ∈ trace env run' plugin system.state.log :=
      mem_trace (e := .started run' plugin.name handler) (hsublist.subset (by simp)) rfl rfl
    rw [(Progress.shape hφ).eq_of_declined hdeclined] at hstarted
    cases mem_singleton.1 hstarted
  stored := by
    intro run name version he
    obtain ⟨-, plugin, hplugin, rfl, hversion⟩ := hversions.stored run name version he
    refine ⟨plugin, hplugin, rfl, hversion, fun v hv hle hgt => ?_⟩
    obtain ⟨φ, hφ⟩ := h.accepted run plugin hplugin
    have honly (version' : String) (he' : .stored run plugin.name version' ∈ system.state.log) :
        version' = version := by
      obtain ⟨-, plugin', hplugin', hname, hversion'⟩ := hversions.stored run _ version' he'
      obtain rfl := eq_of_name hplugin' hplugin hname
      rw [hversion] at hversion'
      exact (some.inj hversion').symm
    obtain ⟨storedVersion, tasks, hread, hscript, hsublist⟩ :=
      completed_stored (Progress.shape hφ) he honly (.migration v)
    refine hsublist ?_
    -- What the run has read is what was recorded in the beginning.
    have hinitial : storedVersion = initial.lookup plugin.name := by
      refine (hversions.read run _ storedVersion hread plugin hplugin rfl).resolve_right ?_
      rintro ⟨version', hversion', rfl⟩
      rw [hversion] at hversion'
      obtain rfl := some.inj hversion'
      unfold script at hscript
      dsimp only at hscript
      rw [hversion, if_neg (by simp)] at hscript
      cases hscript
    have hdue : v ∈ plugin.pending env storedVersion := by
      have hkey : v ∈ (plugin.migrations.getD []).map Prod.fst :=
        List.mem_map_of_mem (f := Prod.fst) (mem_of_lookup (of_decide_eq_true hv))
      refine mem_pending.2 ⟨hkey, fun w hw => ?_, fun w hw => hgt w (hinitial ▸ hw)⟩
      rw [hversion] at hw
      obtain rfl := some.inj hw
      exact hle
    have hmigration : .migration v ∈ migrations plugin (plugin.pending env storedVersion) :=
      List.mem_map_of_mem (mem_filter.2 ⟨hdue, hv⟩)
    cases storedVersion with
    | none =>
      obtain rfl := some.inj hscript
      exact mem_append_right _ hmigration
    | some w =>
      unfold script at hscript
      dsimp only at hscript
      split_ifs at hscript
      obtain rfl := some.inj hscript
      exact hmigration

end Ordered

theorem inv_step {initial : List (String × String)} {system : System} (a : Step)
    (h : RunInv env system.state system.pending ∧
      VersionInv env initial system.state system.pending) :
    RunInv env (step env system a).state (step env system a).pending ∧
      VersionInv env initial (step env system a).state (step env system a).pending := by
  refine Handlers.step_induction (m := machine env)
    (J := fun s pending => RunInv env s pending ∧ VersionInv env initial s pending)
    (fun hperm h => ⟨h.1.perm hperm, ?_⟩) (fun e _ _ => ⟨h.1.handle e, h.2.handle e⟩)
    (fun sec _ hsec => ?_) (fun _ => ⟨h.1.restart, ?_⟩) h
  · exact h.2.quiet (quiet_refl _) fun job version hjob => .inl (hperm.symm.subset hjob)
  · rw [Handlers.System.pending_eq hsec] at h
    exact ⟨h.1.exec, h.2.exec (h.1.plugins sec mem_cons_self)⟩
  · exact h.2.quiet ⟨rfl, .inl rfl⟩ nofun

theorem inv_init (env : Env) (initial : List (String × String)) :
    RunInv env (init initial).state (init initial).pending ∧
      VersionInv env initial (init initial).state (init initial).pending :=
  ⟨{ accepted := fun _ _ _ => ⟨_, rfl⟩
     backed := forall_mem_nil _
     plugins := forall_mem_nil _
     unique := .nil
     fresh := forall_mem_nil _
     known := forall_mem_nil _
     awaited := forall_mem_nil _ },
   { versions := fun _ _ => .inl rfl
     stored := fun _ _ _ h => absurd h not_mem_nil
     read := fun _ _ _ h => absurd h not_mem_nil
     after := fun _ _ _ _ _ h => by cases h
     setting := fun _ _ h => absurd h not_mem_nil }⟩

/-- However requests, isolates, failures and timeouts are interleaved, the handlers of each run are
started in their order, each once, and what is recorded has been completed. -/
theorem ordered_run (env : Env) (initial : List (String × String)) (as : List Step) :
    Ordered env initial (Runs.last (step env) (init initial) as) := by
  have hinv : RunInv env (Runs.last (step env) (init initial) as).state
      (Runs.last (step env) (init initial) as).pending ∧
        VersionInv env initial (Runs.last (step env) (init initial) as).state
          (Runs.last (step env) (init initial) as).pending := by
    induction as using List.reverseRecOn with
    | nil => exact inv_init env initial
    | append_singleton as a ih =>
      rw [Runs.last_append]
      exact inv_step a ih
  exact .of_inv hinv.1 hinv.2

def seeded : Plugin where
  name := "crm"
  version := some "1.1.0"
  onInstall := true
  migrations := some [("1.1.0", true)]

def deploy : Env where
  plugins := [seeded]
  names := by decide
  number part := part.toList.foldl (fun n digit => 10 * n + (digit.toNat - 48)) 0

/-- The other isolate starts while the first one is at the migration. -/
def coldStarts : List Step :=
  let next (n : ℕ) (times : ℕ) : List Step :=
    (List.replicate times [.resume n .ok, .proceed, .proceed]).flatten
  ([.event (.call 0 ["crm"]), .proceed] : List Step) ++ next 0 6 ++
    ([.event (.call 1 ["crm"]), .proceed] : List Step) ++ next 1 5

/-- `onInstall` has completed and is started again, and two handlers are active. -/
theorem coldStarts_repeat :
    [.completed 0 "crm" .onInstall, .started 1 "crm" .onInstall].Sublist
        (Runs.last (step deploy) (init []) coldStarts).state.log ∧
      (active (Runs.last (step deploy) (init []) coldStarts)).map (fun a => (a.1.run, a.2)) =
        [(0, .migration "1.1.0"), (1, .onInstall)] := by
  decide +kernel

end Plugins

end EdgeBase
