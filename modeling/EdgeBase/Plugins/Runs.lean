import EdgeBase.Plugins.Migrations

/-!
# Runs of the migrations

A run of `doMigrations` takes the plugins one after the other.  For each it reads the recorded
version, starts what is due one by one, and records the version when all of it has completed.  What
the runs of several isolates do is mixed in one log.

* `trace` : what the log says of one run and one plugin.
-/

namespace EdgeBase

open List Option

namespace Plugins

variable {env : Env}

/-! ## Versions -/

/-- The numbers of a version, with zeros after the last one. -/
def place (number : String → ℤ) (version : String) : Lex (ℕ → ℤ) :=
  toLex fun i => (parts number version).getD i 0

theorem semverCompare_eq (number : String → ℤ) (a b : String) : semverCompare number a b =
    match (List.range (max (parts number a).length (parts number b).length)).find? fun i =>
      (parts number a).getD i 0 ≠ (parts number b).getD i 0 with
    | some i => compare ((parts number a).getD i 0) ((parts number b).getD i 0)
    | none => .eq := rfl

theorem semverCompare_eq_gt {number : String → ℤ} {a b : String} :
    semverCompare number a b = .gt ↔ place number b < place number a := by
  let pa := parts number a
  let pb := parts number b
  have hout {i : ℕ} (hi : max pa.length pb.length ≤ i) : pa.getD i 0 = pb.getD i 0 := by
    rw [getD_eq_getElem?_getD, getD_eq_getElem?_getD,
      List.getElem?_eq_none (le_trans (le_max_left _ _) hi),
      List.getElem?_eq_none (le_trans (le_max_right _ _) hi)]
  have hlt : place number b < place number a ↔
      ∃ i, (∀ j < i, pb.getD j 0 = pa.getD j 0) ∧ pb.getD i 0 < pa.getD i 0 := Iff.rfl
  rw [hlt, semverCompare_eq]
  cases hfind : (List.range (max pa.length pb.length)).find? fun i => pa.getD i 0 ≠ pb.getD i 0 with
  | none =>
    simp only [reduceCtorEq, false_iff, not_exists, not_and]
    intro i _ hi
    rw [List.find?_eq_none] at hfind
    by_cases hrange : i < max pa.length pb.length
    · have := hfind i (mem_range.2 hrange)
      simp only [decide_eq_true_eq, not_not] at this
      omega
    · rw [hout (not_lt.1 hrange)] at hi
      exact lt_irrefl _ hi
  | some i =>
    obtain ⟨hne, -, hbefore⟩ := List.find?_range_eq_some.1 hfind
    have hsame (j : ℕ) (hj : j < i) : pa.getD j 0 = pb.getD j 0 := by
      simpa using hbefore j hj
    dsimp only
    rw [compare_gt_iff_gt]
    refine ⟨fun h => ⟨i, fun j hj => (hsame j hj).symm, h⟩, ?_⟩
    rintro ⟨k, hk, hlt⟩
    -- The two first differ at the same place.
    rcases lt_trichotomy i k with h | rfl | h
    · exact (of_decide_eq_true hne (hk i h).symm).elim
    · exact hlt
    · rw [hsame k h] at hlt
      exact (lt_irrefl _ hlt).elim

theorem semverCompare_ne_gt {number : String → ℤ} {a b : String} :
    semverCompare number a b ≠ .gt ↔ place number a ≤ place number b := by
  rw [Ne, semverCompare_eq_gt]
  exact not_lt

theorem pending_sorted (plugin : Plugin) (previousVersion : Option String) :
    (plugin.pending env previousVersion).Pairwise fun a b =>
      semverCompare env.number a b ≠ .gt := by
  let le (a b : String) : Bool := semverCompare env.number a b ≠ .gt
  have htrans (a b c : String) (hab : le a b = true) (hbc : le b c = true) : le a c = true := by
    rw [decide_eq_true_eq, semverCompare_ne_gt] at hab hbc ⊢
    exact hab.trans hbc
  have htotal (a b : String) : (le a b || le b a) = true := by
    rw [Bool.or_eq_true, decide_eq_true_eq, decide_eq_true_eq, semverCompare_ne_gt,
      semverCompare_ne_gt]
    exact le_total _ _
  exact (pairwise_mergeSort htrans htotal _).imp of_decide_eq_true

theorem mem_pending {plugin : Plugin} {previousVersion : Option String} {version : String} :
    version ∈ plugin.pending env previousVersion ↔
      version ∈ (plugin.migrations.getD []).map Prod.fst ∧
        (∀ v ∈ plugin.version, semverCompare env.number version v ≠ .gt) ∧
        ∀ v ∈ previousVersion, semverCompare env.number version v = .gt := by
  unfold Plugin.pending
  simp only [mem_mergeSort, mem_filter, Option.all_eq_true, decide_eq_true_eq, and_assoc]
  exact Iff.rfl

theorem pending_nodup (plugin : Plugin) (previousVersion : Option String) :
    (plugin.pending env previousVersion).Nodup :=
  (mergeSort_perm _ _).nodup_iff.2 ((plugin.keys.filter _).filter _)

/-! ## What a run does for a plugin -/

def migrations (plugin : Plugin) (versions : List String) : List Handler :=
  (versions.filter plugin.hasMigration).map .migration

/-- What a run has to start for a plugin, given the version that it has read, unless the plugin is
up to date. -/
def script (env : Env) (plugin : Plugin) : Option String → Option (List Handler)
  | none => some ((if plugin.onInstall then [.onInstall] else []) ++
      migrations plugin (plugin.pending env none))
  | some storedVersion =>
    if plugin.version.any (storedVersion ≠ ·) then
      some (migrations plugin (plugin.pending env (some storedVersion)))
    else none

def Handler.Before (env : Env) : Handler → Handler → Prop
  | .onInstall, _ => True
  | .migration a, .migration b => semverCompare env.number a b ≠ .gt
  | .migration _, .onInstall => False

theorem migrations_nodup (plugin : Plugin) (previousVersion : Option String) :
    (migrations plugin (plugin.pending env previousVersion)).Nodup :=
  ((pending_nodup plugin previousVersion).filter _).map fun _ _ => Handler.migration.inj

theorem migrations_sorted (plugin : Plugin) (previousVersion : Option String) :
    (migrations plugin (plugin.pending env previousVersion)).Pairwise (Handler.Before env) :=
  pairwise_map.2 ((pending_sorted plugin previousVersion).filter _)

theorem not_onInstall_mem_migrations (plugin : Plugin) (versions : List String) :
    .onInstall ∉ migrations plugin versions := by simp [migrations]

theorem script_ordered {plugin : Plugin} {storedVersion : Option String} {tasks : List Handler}
    (h : script env plugin storedVersion = some tasks) :
    tasks.Nodup ∧ tasks.Pairwise (Handler.Before env) := by
  cases storedVersion with
  | none =>
    obtain rfl := some.inj h
    split_ifs
    · exact ⟨nodup_cons.2 ⟨not_onInstall_mem_migrations _ _, migrations_nodup plugin none⟩,
        pairwise_cons.2 ⟨fun _ _ => trivial, migrations_sorted plugin none⟩⟩
    · exact ⟨migrations_nodup plugin none, migrations_sorted plugin none⟩
  | some storedVersion =>
    unfold script at h
    dsimp only at h
    split_ifs at h
    obtain rfl := some.inj h
    exact ⟨migrations_nodup plugin (some storedVersion), migrations_sorted plugin _⟩

/-- Whose version, handler or record a report is about. -/
def Report.key : Report → Option (ℕ × String)
  | .read run name _ | .started run name _ | .completed run name _ => some (run, name)
  | .failed run name _ | .stored run name _ => some (run, name)
  | .timedOut _ => none

def Report.event (env : Env) (plugin : Plugin) : Report → Option (Progress.Event Handler)
  | .read _ _ storedVersion => some ((script env plugin storedVersion).elim .declined .planned)
  | .started _ _ handler => some (.started handler)
  | .completed _ _ handler => some (.completed handler)
  | .failed _ _ handler => some (.failed handler)
  | .stored _ _ _ => some .recorded
  | .timedOut _ => none

def trace (env : Env) (run : ℕ) (plugin : Plugin) (log : List Report) :
    List (Progress.Event Handler) :=
  (log.filter (·.key = some (run, plugin.name))).filterMap (Report.event env plugin)

theorem trace_report {run : ℕ} {plugin : Plugin} {e : Report} {log : List Report}
    (h : e.key = some (run, plugin.name)) : trace env run plugin (log ++ [e]) =
      trace env run plugin log ++ (e.event env plugin).toList := by
  have hkeep : [e].filter (·.key = some (run, plugin.name)) = [e] :=
    filter_eq_self.2 (by simpa using h)
  unfold trace
  rw [filter_append, filterMap_append, hkeep]
  cases hevent : e.event env plugin <;> simp [hevent]

theorem trace_report_of_ne {run : ℕ} {plugin : Plugin} {e : Report} {log : List Report}
    (h : e.key ≠ some (run, plugin.name)) :
    trace env run plugin (log ++ [e]) = trace env run plugin log := by
  unfold trace
  rw [filter_append, filterMap_append, filter_cons_of_neg (by simpa using h)]
  exact append_nil _

/-! ## What backs a run -/

/-- The run and the isolate of a section of `doMigrations`. -/
def Section.run : Section → Option (ℕ × ℕ)
  | .doMigrations run i _ => some (run, i)
  | .readVersion job | .migrate job _ | .installed job | .runPendingMigrations job _ =>
    some (job.run, job.isolate)
  | .migrated job _ _ | .setPluginVersion job _ | .versionSet job => some (job.run, job.isolate)
  | _ => none

def Section.plugins : Section → List Plugin
  | .execute _ plugins | .checkCurrent _ plugins | .queryVersions _ plugins => plugins
  | .compareVersions _ plugins _ | .doMigrations _ _ plugins => plugins
  | .readVersion job | .migrate job _ | .installed job | .runPendingMigrations job _ =>
    job.plugin :: job.rest
  | .migrated job _ _ | .setPluginVersion job _ | .versionSet job => job.plugin :: job.rest

def Section.phase (env : Env) : Section → Progress.Phase Handler
  | .migrate job storedVersion => (script env job.plugin storedVersion).elim .stopped .ready
  | .installed job =>
    .busy .onInstall (migrations job.plugin (job.plugin.pending env none))
  | .runPendingMigrations job pending => .ready (migrations job.plugin pending)
  | .migrated job version pending =>
    .busy (.migration version) (migrations job.plugin pending)
  | .setPluginVersion _ _ => .ready []
  | .versionSet _ => .recorded
  | _ => .idle

structure Backed (env : Env) (log : List Report) (run : ℕ) (sec : Section) : Prop where
  head : ∀ plugin ∈ sec.plugins.head?,
    Progress.phase (trace env run plugin log) = some (sec.phase env)
  tail : ∀ plugin ∈ sec.plugins.tail, trace env run plugin log = []

/-- A log in which each run carries out what it has planned. -/
def Accepted (env : Env) (log : List Report) : Prop :=
  ∀ run, ∀ plugin ∈ env.plugins, ∃ φ, Progress.phase (trace env run plugin log) = some φ

variable {log : List Report} {run i : ℕ} {sec sec' : Section} {e : Report} {plugin : Plugin}
  {rest : List Plugin} {s : World} {outcome : Outcome}

theorem name_ne (hsub : (plugin :: rest).Sublist env.plugins) {q : Plugin} (hq : q ∈ rest) :
    plugin.name ≠ q.name := by
  have hnodup := env.names.sublist (hsub.map (·.name))
  intro heq
  refine (nodup_cons.1 hnodup).1 ?_
  change plugin.name ∈ rest.map (·.name)
  rw [heq]
  exact List.mem_map_of_mem hq

theorem eq_of_name {p q : Plugin} (hp : p ∈ env.plugins) (hq : q ∈ env.plugins)
    (h : p.name = q.name) : p = q := inj_on_of_nodup_map env.names hp hq h

namespace Backed

variable (h : Backed env log run sec)
include h

theorem report (hplugins : sec.plugins = plugin :: rest)
    (hsub : sec.plugins.Sublist env.plugins) (hplugins' : sec'.plugins = plugin :: rest)
    (hkey : e.key = some (run, plugin.name)) {ev : Progress.Event Handler}
    (hevent : e.event env plugin = some ev)
    (hnext : Progress.next (sec.phase env) ev = some (sec'.phase env)) :
    Backed env (log ++ [e]) run sec' := by
  rw [hplugins] at hsub
  refine ⟨fun p hp => ?_, fun q hq => ?_⟩
  · rw [hplugins'] at hp
    obtain rfl := some.inj hp
    rw [trace_report hkey, hevent, Progress.phase_append,
      h.head plugin (by rw [hplugins]; rfl)]
    simpa using hnext
  · rw [hplugins'] at hq
    have hne : e.key ≠ some (run, q.name) := by
      rw [hkey]
      intro heq
      exact name_ne hsub hq (Prod.mk.inj (some.inj heq)).2
    rw [trace_report_of_ne hne]
    exact h.tail q (by rw [hplugins]; exact hq)

theorem report_of_ne (hkey : ∀ name, e.key ≠ some (run, name)) :
    Backed env (log ++ [e]) run sec := by
  refine ⟨fun p hp => ?_, fun q hq => ?_⟩
  · rw [trace_report_of_ne (hkey _)]
    exact h.head p hp
  · rw [trace_report_of_ne (hkey _)]
    exact h.tail q hq

theorem same (hplugins : sec'.plugins = sec.plugins)
    (hphase : sec'.phase env = sec.phase env) : Backed env log run sec' := by
  refine ⟨?_, ?_⟩
  · rw [hplugins, hphase]
    exact h.head
  · rw [hplugins]
    exact h.tail

theorem next {i : ℕ} (hplugins : sec.plugins = plugin :: rest) :
    Backed env log run (.doMigrations run i rest) := by
  have htail (q : Plugin) (hq : q ∈ rest) : trace env run q log = [] :=
    h.tail q (by rw [hplugins]; exact hq)
  refine ⟨fun p hp => ?_, fun q hq => htail q (mem_of_mem_tail hq)⟩
  rw [htail p (List.mem_of_mem_head? hp)]
  rfl

end Backed

namespace Accepted

theorem report (h : Accepted env log) (hplugin : plugin ∈ env.plugins)
    (hkey : e.key = some (run, plugin.name)) {φ φ' : Progress.Phase Handler}
    {ev : Progress.Event Handler} (hevent : e.event env plugin = some ev)
    (hphase : Progress.phase (trace env run plugin log) = some φ)
    (hnext : Progress.next φ ev = some φ') : Accepted env (log ++ [e]) := by
  intro run' q hq
  by_cases hsame : e.key = some (run', q.name)
  · obtain ⟨rfl, hname⟩ := Prod.mk.inj (some.inj (hkey.symm.trans hsame))
    obtain rfl := eq_of_name hplugin hq hname
    refine ⟨φ', ?_⟩
    rw [trace_report hkey, hevent, Progress.phase_append, hphase]
    simpa using hnext
  · rw [trace_report_of_ne hsame]
    exact h run' q hq

theorem report_of_none (h : Accepted env log) (hkey : e.key = none) :
    Accepted env (log ++ [e]) := by
  intro run' q hq
  rw [trace_report_of_ne (by rw [hkey]; exact nofun)]
  exact h run' q hq

end Accepted

/-! ## The invariant -/

def Awaits (s : World) (i run : ℕ) : Prop :=
  (s.isolates i).migrationPromise.any (·.run = run) = true

/-- What holds of the isolates: the runs that go on are backed by the log, and each of them is the
one that its isolate waits for, or has timed out. -/
structure RunInv (env : Env) (s : World) (pending : List Section) : Prop where
  accepted : Accepted env s.log
  backed : ∀ sec ∈ pending, ∀ run i, sec.run = some (run, i) → Backed env s.log run sec
  plugins : ∀ sec ∈ pending, sec.plugins.Sublist env.plugins
  unique : (pending.filterMap fun sec => sec.run.map Prod.fst).Nodup
  fresh : ∀ sec ∈ pending, ∀ run i, sec.run = some (run, i) → run < s.runs
  known : ∀ e ∈ s.log, ∀ run name, e.key = some (run, name) → run < s.runs
  awaited : ∀ sec ∈ pending, ∀ run i, sec.run = some (run, i) →
    Awaits s i run ∨ .timedOut run ∈ s.log

def Adds (run : ℕ) (s s' : World) : Prop :=
  s'.log = s.log ∨ ∃ e name, e.key = some (run, name) ∧ s'.log = s.log ++ [e]

theorem Adds.mem {s' : World} (h : Adds run s s') (he : e ∈ s.log) : e ∈ s'.log := by
  rcases h with heq | ⟨e', name, -, heq⟩
  · rwa [heq]
  · rw [heq]
    exact mem_append_left _ he

/-! ## What sections do to the isolates -/

theorem awaits_setIsolate (s : World) (i j run : ℕ) {f : Isolate → Isolate}
    (hf : ∀ isolate, (f isolate).migrationPromise = isolate.migrationPromise) :
    Awaits (s.setIsolate i f) j run ↔ Awaits s j run := by
  unfold Awaits World.setIsolate
  by_cases hj : j = i
  · subst hj
    dsimp only
    rw [Function.update_self, hf]
  · dsimp only
    rw [Function.update_of_ne hj]

theorem awaits_release {i j run run' : ℕ} (hne : run' ≠ run) (h : Awaits s j run') :
    Awaits (s.release i run) j run' := by
  unfold World.release
  split_ifs with hreleased
  · by_cases hj : j = i
    · -- The isolate waits for one run at a time.
      subst hj
      unfold Awaits at h
      cases hlatch : (s.isolates j).migrationPromise with
      | none =>
        rw [hlatch] at h
        cases h
      | some latch =>
        rw [hlatch] at h hreleased
        have hrun : latch.run = run := by simpa using hreleased
        have hrun' : latch.run = run' := by simpa using h
        exact (hne (hrun'.symm.trans hrun)).elim
    · unfold Awaits World.setIsolate
      dsimp only
      rwa [Function.update_of_ne hj]
  · exact h

theorem release_fields (s : World) (i run : ℕ) :
    (s.release i run).log = s.log ∧ (s.release i run).runs = s.runs ∧
      (s.release i run).versions = s.versions := by
  unfold World.release
  split_ifs <;> exact ⟨rfl, rfl, rfl⟩

theorem finish_fields (s : World) (i run : ℕ) :
    (s.finish i run).log = s.log ∧ (s.finish i run).runs = s.runs ∧
      (s.finish i run).versions = s.versions := by
  unfold World.finish
  split
  · split_ifs
    · exact release_fields _ i run
    · exact ⟨rfl, rfl, rfl⟩
  · exact ⟨rfl, rfl, rfl⟩

theorem awaits_finish {i j run run' : ℕ} (hne : run' ≠ run) (h : Awaits s j run') :
    Awaits (s.finish i run) j run' := by
  unfold World.finish
  split
  · split_ifs
    · refine awaits_release hne ?_
      refine (awaits_setIsolate s i j run' ?_).2 h
      exact fun _ => rfl
    · exact h
  · exact h

namespace RunInv

variable {s' : World} {pending : List Section}

theorem perm {pending' : List Section} (hperm : pending.Perm pending')
    (h : RunInv env s pending) : RunInv env s pending' where
  accepted := h.accepted
  backed := fun sec hsec => h.backed sec (hperm.symm.subset hsec)
  plugins := fun sec hsec => h.plugins sec (hperm.symm.subset hsec)
  unique := (hperm.filterMap _).nodup_iff.1 h.unique
  fresh := fun sec hsec => h.fresh sec (hperm.symm.subset hsec)
  known := h.known
  awaited := fun sec hsec => h.awaited sec (hperm.symm.subset hsec)

theorem run_ne (h : RunInv env s (sec :: pending)) (hrun : sec.run = some (run, i))
    (hsec' : sec' ∈ pending) {run' i' : ℕ} (hrun' : sec'.run = some (run', i')) : run' ≠ run := by
  rintro rfl
  have hunique := h.unique
  rw [filterMap_cons_some (by rw [hrun]; rfl)] at hunique
  refine (nodup_cons.1 hunique).1 (mem_filterMap.2 ⟨sec', hsec', ?_⟩)
  rw [hrun']
  rfl

theorem stop (h : RunInv env s (sec :: pending)) (hrun : sec.run = some (run, i))
    (hruns : s'.runs = s.runs) (hadds : Adds run s s') (haccepted : Accepted env s'.log)
    (hawaits : ∀ j run', run' ≠ run → Awaits s j run' → Awaits s' j run') :
    RunInv env s' pending where
  accepted := haccepted
  backed := fun sec' hsec' run' i' hrun' => by
    have hbacked := h.backed sec' (mem_cons_of_mem _ hsec') run' i' hrun'
    rcases hadds with heq | ⟨e, name, hkey, heq⟩
    · rwa [heq]
    · rw [heq]
      refine hbacked.report_of_ne fun name' hkey' => h.run_ne hrun hsec' hrun' ?_
      rw [hkey] at hkey'
      exact (Prod.mk.inj (some.inj hkey')).1.symm
  plugins := fun sec' hsec' => h.plugins sec' (mem_cons_of_mem _ hsec')
  unique := by
    have hunique := h.unique
    rw [filterMap_cons_some (by rw [hrun]; rfl)] at hunique
    exact (nodup_cons.1 hunique).2
  fresh := fun sec' hsec' => hruns ▸ h.fresh sec' (mem_cons_of_mem _ hsec')
  known := by
    rw [hruns]
    intro e he run' name' hkey'
    rcases hadds with heq | ⟨e', name, hkey, heq⟩
    · exact h.known e (heq ▸ he) run' name' hkey'
    · rw [heq] at he
      rcases mem_append.1 he with he | he
      · exact h.known e he run' name' hkey'
      · rw [mem_singleton.1 he, hkey] at hkey'
        rw [← (Prod.mk.inj (some.inj hkey')).1]
        exact h.fresh sec mem_cons_self run i hrun
  awaited := fun sec' hsec' run' i' hrun' =>
    (h.awaited sec' (mem_cons_of_mem _ hsec') run' i' hrun').imp
      (hawaits i' run' (h.run_ne hrun hsec' hrun')) hadds.mem

theorem go (h : RunInv env s (sec :: pending)) (hrun : sec.run = some (run, i))
    (hruns : s'.runs = s.runs) (hadds : Adds run s s') (haccepted : Accepted env s'.log)
    (hawaits : ∀ j run', Awaits s j run' → Awaits s' j run')
    (hrun' : sec'.run = some (run, i)) (hplugins : sec'.plugins.Sublist env.plugins)
    (hbacked : Backed env s'.log run sec') : RunInv env s' (sec' :: pending) := by
  have hrest := h.stop hrun hruns hadds haccepted fun j run' _ => hawaits j run'
  have hunique := h.unique
  rw [filterMap_cons_some (by rw [hrun]; rfl)] at hunique
  refine ⟨haccepted, ?_, ?_, ?_, ?_, hrest.known, ?_⟩
  · refine forall_mem_cons.2 ⟨fun run₀ i₀ hrun₀ => ?_, hrest.backed⟩
    rw [hrun'] at hrun₀
    rw [← (Prod.mk.inj (some.inj hrun₀)).1]
    exact hbacked
  · exact forall_mem_cons.2 ⟨hplugins, hrest.plugins⟩
  · rw [filterMap_cons_some (by rw [hrun']; rfl)]
    exact hunique
  · refine forall_mem_cons.2 ⟨fun run₀ i₀ hrun₀ => ?_, hrest.fresh⟩
    rw [hruns]
    exact h.fresh sec mem_cons_self run₀ i₀ (by rw [hrun, ← hrun₀, hrun'])
  · refine forall_mem_cons.2 ⟨fun run₀ i₀ hrun₀ => ?_, hrest.awaited⟩
    exact (h.awaited sec mem_cons_self run₀ i₀ (by rw [hrun, ← hrun₀, hrun'])).imp
      (hawaits i₀ run₀) hadds.mem

theorem go_report {job : Job} {ev : Progress.Event Handler} (h : RunInv env s (sec :: pending))
    (hrun : sec.run = some (job.run, job.isolate)) (hplugins : sec.plugins = job.plugin :: job.rest)
    (hkey : e.key = some (job.run, job.plugin.name)) (hevent : e.event env job.plugin = some ev)
    (hrun' : sec'.run = some (job.run, job.isolate))
    (hplugins' : sec'.plugins = job.plugin :: job.rest)
    (hnext : Progress.next (sec.phase env) ev = some (sec'.phase env)) :
    RunInv env (s.report e) (sec' :: pending) := by
  have hsub := h.plugins sec mem_cons_self
  have hbacked := h.backed sec mem_cons_self _ _ hrun
  have hplugin : job.plugin ∈ env.plugins :=
    hsub.subset (by rw [hplugins]; exact mem_cons_self)
  refine h.go hrun rfl (.inr ⟨e, job.plugin.name, hkey, rfl⟩) ?_ (fun _ _ => id) hrun'
    (by rwa [hplugins', ← hplugins]) (hbacked.report hplugins hsub hplugins' hkey hevent hnext)
  exact h.accepted.report hplugin hkey hevent
    (hbacked.head job.plugin (by rw [hplugins]; rfl)) hnext

theorem settle {job : Job} {handler : Handler} {versions : List String}
    (h : RunInv env s (sec :: pending)) (hrun : sec.run = some (job.run, job.isolate))
    (hplugins : sec.plugins = job.plugin :: job.rest)
    (hphase : sec.phase env = .busy handler (migrations job.plugin versions)) :
    RunInv env (s.settle job handler versions outcome).1
      ((s.settle job handler versions outcome).2.sections ++ pending) := by
  have hsub := h.plugins sec mem_cons_self
  have hbacked := h.backed sec mem_cons_self _ _ hrun
  have hhead := hbacked.head job.plugin (by rw [hplugins]; rfl)
  have hplugin : job.plugin ∈ env.plugins :=
    hsub.subset (by rw [hplugins]; exact mem_cons_self)
  cases outcome with
  | ok =>
    refine h.go_report hrun hplugins rfl rfl rfl rfl ?_
    rw [hphase]
    exact if_pos rfl
  | failed =>
    have hnext : Progress.next (sec.phase env) (.failed handler) = some .stopped := by
      rw [hphase]
      exact if_pos rfl
    obtain ⟨hlog, hruns, -⟩ :=
      release_fields (s.report (.failed job.run job.plugin.name handler)) job.isolate job.run
    refine h.stop hrun hruns (.inr ⟨_, job.plugin.name, rfl, hlog⟩) ?_
      fun j run' hne hawaits => awaits_release hne hawaits
    change Accepted env (World.log (World.release _ _ _))
    rw [hlog]
    exact h.accepted.report hplugin rfl rfl hhead hnext

theorem stop_release (h : RunInv env s (sec :: pending)) (hrun : sec.run = some (run, i)) :
    RunInv env (s.release i run) pending := by
  obtain ⟨hlog, hruns, -⟩ := release_fields s i run
  refine h.stop hrun hruns (.inl hlog) ?_ fun j run' hne hawaits => awaits_release hne hawaits
  rw [hlog]
  exact h.accepted

theorem go_same (h : RunInv env s (sec :: pending)) (hrun : sec.run = some (run, i))
    (hrun' : sec'.run = some (run, i)) (hplugins : sec'.plugins = sec.plugins)
    (hphase : sec'.phase env = sec.phase env) : RunInv env s (sec' :: pending) :=
  h.go hrun rfl (.inl rfl) h.accepted (fun _ _ => id) hrun'
    (hplugins ▸ h.plugins sec mem_cons_self)
    ((h.backed sec mem_cons_self run i hrun).same hplugins hphase)

theorem go_next (h : RunInv env s (sec :: pending)) (hrun : sec.run = some (run, i))
    (hplugins : sec.plugins = plugin :: rest) :
    RunInv env s (.doMigrations run i rest :: pending) := by
  have hsub := h.plugins sec mem_cons_self
  rw [hplugins] at hsub
  exact h.go hrun rfl (.inl rfl) h.accepted (fun _ _ => id) rfl
    ((sublist_cons_self plugin rest).trans hsub)
    ((h.backed sec mem_cons_self run i hrun).next hplugins)

theorem setIsolate (h : RunInv env s pending) (i : ℕ) {f : Isolate → Isolate}
    (hf : ∀ isolate, (f isolate).migrationPromise = isolate.migrationPromise) :
    RunInv env (s.setIsolate i f) pending :=
  { h with
    awaited := fun sec hsec run j hrun => by
      rw [awaits_setIsolate s i j run hf]
      exact h.awaited sec hsec run j hrun }

theorem runPendingMigrations {job : Job} {versions : List String}
    (h : RunInv env s (.runPendingMigrations job versions :: pending)) :
    RunInv env (s.runPendingMigrations job versions).1
      ((s.runPendingMigrations job versions).2.sections ++ pending) := by
  unfold World.runPendingMigrations
  cases versions with
  | nil =>
    dsimp only
    cases job.plugin.version with
    | some version => exact h.go_same rfl rfl rfl rfl
    | none =>
      dsimp only
      refine (h.go_next rfl rfl).setIsolate job.isolate ?_
      exact fun _ => rfl
  | cons version versions =>
    dsimp only
    split_ifs with hmigration
    · have hleft : migrations job.plugin (version :: versions) =
          .migration version :: migrations job.plugin versions := by
        simp [migrations, hmigration]
      refine h.go_report rfl rfl rfl rfl rfl rfl ?_
      dsimp only [Section.phase]
      rw [hleft]
      exact if_pos rfl
    · refine h.go_same rfl rfl rfl (congrArg Progress.Phase.ready ?_)
      simp [migrations, hmigration]

theorem migrate {job : Job} {storedVersion : Option String}
    (h : RunInv env s (.migrate job storedVersion :: pending)) :
    RunInv env (s.migrate env job storedVersion).1
      ((s.migrate env job storedVersion).2.sections ++ pending) := by
  unfold World.migrate
  cases storedVersion with
  | none =>
    dsimp only
    split_ifs with hinstall
    · have hleft : script env job.plugin none =
          some (.onInstall :: migrations job.plugin (job.plugin.pending env none)) := by
        simp [script, hinstall]
      refine h.go_report rfl rfl rfl rfl rfl rfl ?_
      dsimp only [Section.phase]
      rw [hleft]
      rfl
    · exact h.go_same rfl rfl rfl (by simp [Section.phase, script, hinstall])
  | some storedVersion =>
    dsimp only
    split_ifs with hdiffers
    · refine h.go_same rfl rfl rfl ?_
      dsimp only [Section.phase, script]
      rw [if_pos hdiffers]
      rfl
    · exact h.go_next rfl rfl

theorem request (h : RunInv env s (sec :: pending)) (hrun : sec.run = none)
    (next : List Section) (hnext : ∀ sec' ∈ next, sec'.run = none ∧ sec'.plugins = sec.plugins) :
    RunInv env s (next ++ pending) := by
  have hnone {sec' : Section} (hmem : sec' ∈ next) {p : ℕ × ℕ} : sec'.run ≠ some p := by
    rw [(hnext sec' hmem).1]
    exact fun h => by cases h
  have hunique := h.unique
  rw [filterMap_cons_none (by rw [hrun]; rfl)] at hunique
  refine ⟨h.accepted, ?_, ?_, ?_, ?_, h.known, ?_⟩
  · refine forall_mem_append.2 ⟨fun sec' hsec' run i hrun' => (hnone hsec' hrun').elim, ?_⟩
    exact fun sec' hsec' => h.backed sec' (mem_cons_of_mem _ hsec')
  · refine forall_mem_append.2 ⟨fun sec' hsec' => ?_, ?_⟩
    · rw [(hnext sec' hsec').2]
      exact h.plugins sec mem_cons_self
    · exact fun sec' hsec' => h.plugins sec' (mem_cons_of_mem _ hsec')
  · have hnil : next.filterMap (fun sec => sec.run.map Prod.fst) = [] :=
      filterMap_eq_nil_iff.2 fun sec' hsec' => by rw [(hnext sec' hsec').1]; rfl
    rwa [filterMap_append, hnil, nil_append]
  · refine forall_mem_append.2 ⟨fun sec' hsec' run i hrun' => (hnone hsec' hrun').elim, ?_⟩
    exact fun sec' hsec' => h.fresh sec' (mem_cons_of_mem _ hsec')
  · refine forall_mem_append.2 ⟨fun sec' hsec' run i hrun' => (hnone hsec' hrun').elim, ?_⟩
    exact fun sec' hsec' => h.awaited sec' (mem_cons_of_mem _ hsec')

theorem startMigrations (h : RunInv env s (sec :: pending)) (hrun : sec.run = none) :
    RunInv env (s.startMigrations env i sec.plugins).1
      ((s.startMigrations env i sec.plugins).2.sections ++ pending) := by
  have hrest : RunInv env s pending := h.request hrun [] (forall_mem_nil _)
  unfold World.startMigrations
  cases hlatch : (s.isolates i).migrationPromise with
  | some latch => exact hrest
  | none =>
    have hlt {run : ℕ} (h : run < s.runs) : run < s.runs + 1 := Nat.lt_succ_of_lt h
    have htrace (p : Plugin) : trace env s.runs p s.log = [] := by
      unfold trace
      rw [filter_eq_nil_iff.2, filterMap_nil]
      intro e he hkey
      exact lt_irrefl _ (h.known e he s.runs p.name (of_decide_eq_true hkey))
    have hawaits (j run : ℕ) (hj : Awaits s j run) :
        Awaits (s.setIsolate i fun isolate =>
          { isolate with
            migrationPromise := some ⟨s.runs, s.now + env.timeoutMs, sec.plugins⟩ }) j run := by
      have hne : j ≠ i := by
        rintro rfl
        unfold Awaits at hj
        rw [hlatch] at hj
        cases hj
      unfold Awaits World.setIsolate
      dsimp only
      rwa [Function.update_of_ne hne]
    refine ⟨h.accepted, ?_, ?_, ?_, ?_, fun e he run name hkey => hlt (h.known e he run name hkey),
      ?_⟩
    · refine forall_mem_cons.2 ⟨fun run i hrun => ?_, hrest.backed⟩
      obtain ⟨rfl, rfl⟩ := Prod.mk.inj (some.inj hrun)
      refine ⟨fun p _ => ?_, fun q _ => htrace q⟩
      change Progress.phase (trace env s.runs p s.log) = _
      rw [htrace p]
      rfl
    · exact forall_mem_cons.2 ⟨h.plugins sec mem_cons_self, hrest.plugins⟩
    · refine nodup_cons.2 ⟨fun hmem => ?_, hrest.unique⟩
      obtain ⟨sec', hsec', hrun'⟩ := mem_filterMap.1 hmem
      obtain ⟨⟨run, i⟩, hrun'', rfl⟩ := map_eq_some_iff.1 hrun'
      exact lt_irrefl _ (hrest.fresh sec' hsec' _ i hrun'')
    · refine forall_mem_cons.2 ⟨fun run i hrun => ?_, fun sec' hsec' run i hrun => ?_⟩
      · obtain ⟨rfl, rfl⟩ := Prod.mk.inj (some.inj hrun)
        exact Nat.lt_succ_self _
      · exact hlt (hrest.fresh sec' hsec' run i hrun)
    · refine forall_mem_cons.2 ⟨fun run j hrun => ?_, fun sec' hsec' run j hrun => ?_⟩
      · obtain ⟨rfl, rfl⟩ := Prod.mk.inj (some.inj hrun)
        left
        unfold Awaits World.setIsolate
        dsimp only
        rw [Function.update_self]
        exact decide_eq_true rfl
      · exact (hrest.awaited sec' hsec' run j hrun).imp_left (hawaits j run)

protected theorem exec (h : RunInv env s (sec :: pending)) : RunInv env (s.exec env outcome sec).1
      ((s.exec env outcome sec).2.sections ++ pending) := by
  have hmark {i : ℕ} {plugins : List Plugin} (hrun : sec.run = none) :
      RunInv env (s.markPluginsCurrent i plugins) pending := by
    refine (h.request hrun [] (forall_mem_nil _)).setIsolate i ?_
    exact fun _ => rfl
  cases sec with
  | execute i plugins =>
    unfold World.exec
    dsimp only
    split_ifs
    · exact h.request rfl [] (forall_mem_nil _)
    · exact h.request rfl _ (forall_mem_singleton.2 ⟨rfl, rfl⟩)
  | checkCurrent i plugins =>
    unfold World.exec
    cases outcome with
    | failed => exact h.request rfl [] (forall_mem_nil _)
    | ok =>
      dsimp only
      split_ifs
      · exact h.startMigrations rfl
      · exact hmark rfl
      · exact h.request rfl _ (forall_mem_singleton.2 ⟨rfl, rfl⟩)
  | queryVersions i plugins => exact h.request rfl _ (forall_mem_singleton.2 ⟨rfl, rfl⟩)
  | compareVersions i plugins current =>
    unfold World.exec
    cases outcome with
    | failed => exact h.request rfl [] (forall_mem_nil _)
    | ok =>
      dsimp only
      split_ifs
      · exact hmark rfl
      · exact h.startMigrations rfl
  | doMigrations run i plugins =>
    unfold World.exec
    cases plugins with
    | nil =>
      obtain ⟨hlog, hruns, -⟩ := finish_fields s i run
      refine h.stop rfl hruns (.inl hlog) ?_ fun j run' hne hawaits => awaits_finish hne hawaits
      rw [hlog]
      exact h.accepted
    | cons plugin rest =>
      dsimp only
      split_ifs
      · exact h.go_next rfl rfl
      · exact h.go_same rfl rfl rfl rfl
  | readVersion job =>
    refine h.go_report rfl rfl rfl rfl rfl rfl ?_
    dsimp only [Section.phase]
    cases script env job.plugin (s.versions.lookup job.plugin.name) <;> rfl
  | migrate job storedVersion =>
    unfold World.exec
    cases outcome with
    | failed => exact h.stop_release rfl
    | ok => exact h.migrate
  | installed job => exact h.settle rfl rfl rfl
  | runPendingMigrations job versions => exact h.runPendingMigrations
  | migrated job version versions => exact h.settle rfl rfl rfl
  | setPluginVersion job version =>
    unfold World.exec
    cases outcome with
    | failed => exact h.stop_release rfl
    | ok =>
      have hgo : RunInv env (s.report (.stored job.run job.plugin.name version))
          (.versionSet job :: pending) := h.go_report rfl rfl rfl rfl rfl rfl rfl
      exact { hgo with }
  | versionSet job =>
    unfold World.exec
    cases outcome with
    | failed => exact h.stop_release rfl
    | ok => exact h.go_next rfl rfl

variable (h : RunInv env s pending)
include h

theorem receive {i : ℕ} {plugins : List Plugin} (hplugins : plugins.Sublist env.plugins) :
    RunInv env s (.execute i plugins :: pending) where
  accepted := h.accepted
  backed := forall_mem_cons.2 ⟨fun _ _ hrun => (by cases hrun), h.backed⟩
  plugins := forall_mem_cons.2 ⟨hplugins, h.plugins⟩
  unique := h.unique
  fresh := forall_mem_cons.2 ⟨fun _ _ hrun => (by cases hrun), h.fresh⟩
  known := h.known
  awaited := forall_mem_cons.2 ⟨fun _ _ hrun => (by cases hrun), h.awaited⟩

theorem timedOut (i run : ℕ) : RunInv env ((s.report (.timedOut run)).release i run) pending := by
  obtain ⟨hlog, hruns, -⟩ := release_fields (s.report (.timedOut run)) i run
  have hmem {e : Report} (he : e ∈ s.log) : e ∈ s.log ++ [.timedOut run] :=
    mem_append_left _ he
  refine ⟨?_, fun sec hsec run' j hrun => ?_, h.plugins, h.unique, ?_, ?_, ?_⟩
  · rw [hlog]
    exact h.accepted.report_of_none rfl
  · rw [hlog]
    exact (h.backed sec hsec run' j hrun).report_of_ne fun _ h => by cases h
  · rw [hruns]
    exact h.fresh
  · rw [hlog, hruns]
    intro e he run' name hkey
    rcases mem_append.1 he with he | he
    · exact h.known e he run' name hkey
    · rw [mem_singleton.1 he] at hkey
      cases hkey
  · rw [hlog]
    intro sec hsec run' j hrun
    by_cases hsame : run' = run
    · subst hsame
      exact .inr (mem_append_right _ (mem_singleton_self _))
    · exact (h.awaited sec hsec run' j hrun).imp (awaits_release (s := s.report _) hsame) hmem

protected theorem handle (e : Event) :
    RunInv env (s.handle env e).1 (Handlers.started (s.handle env e).2 ++ pending) := by
  cases e with
  | call i names => exact h.receive filter_sublist
  | timeout i =>
    unfold World.handle
    dsimp only
    cases hlatch : (s.isolates i).migrationPromise with
    | none => exact h
    | some latch =>
      dsimp only
      split_ifs
      · exact h.timedOut i latch.run
      · exact h
  | tick ms => exact { h with }

theorem restart : RunInv env { s with isolates := fun _ => {} } [] where
  accepted := h.accepted
  backed := forall_mem_nil _
  plugins := forall_mem_nil _
  unique := .nil
  fresh := forall_mem_nil _
  known := h.known
  awaited := forall_mem_nil _

end RunInv

end Plugins

end EdgeBase
