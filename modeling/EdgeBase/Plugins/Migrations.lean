import EdgeBase.Lib.Handlers
import EdgeBase.Lib.Progress
import EdgeBase.Lib.Assoc
import Mathlib.Data.String.Basic
import Mathlib.Order.ConditionallyCompleteLattice.Basic
import Mathlib.Order.PiLex
import Mathlib.Data.Int.ConditionallyCompleteOrder

/-!
# Plugin migrations

A plugin has a version, and handlers that its installation and its upgrades run.  The first request
of an isolate runs what is due.  Isolates share the versions that have been recorded; an isolate
itself runs the migrations once at a time, but a timeout lets it try again while the work goes on.

* `semverCompare` : versions, number by number.
* `World.exec` : `executePluginMigrations` and `doMigrations`, from one await to the next.
-/

namespace EdgeBase

namespace Plugins

/-! ## Versions -/

/-- The numbers of a version.  A part is a `Number` in its place among all of them, 0 if it is not
a number. -/
def parts (number : String → ℤ) (version : String) : List ℤ :=
  (version.toList.splitOn '.').map fun part => number (String.ofList part)

def semverCompare (number : String → ℤ) (a b : String) : Ordering :=
  let pa := parts number a
  let pb := parts number b
  match (List.range (max pa.length pb.length)).find? fun i => pa.getD i 0 ≠ pb.getD i 0 with
  | some i => compare (pa.getD i 0) (pb.getD i 0)
  | none => .eq

/-- A plugin.  An empty version counts as none. -/
structure Plugin where
  name : String
  version : Option String := none
  onInstall : Bool := false
  /-- The versions with migrations, and whether there is a function. -/
  migrations : Option (List (String × Bool)) := none
  keys : ((migrations.getD []).map Prod.fst).Nodup := by decide
  deriving DecidableEq

inductive Handler where
  | onInstall
  | migration (version : String)
  deriving DecidableEq

/-- The plugins of a configuration, with distinct names, and the rest of the environment. -/
structure Env where
  plugins : List Plugin
  names : (plugins.map (·.name)).Nodup
  /-- `Number`, for a part of a version. -/
  number : String → ℤ
  timeoutMs : ℤ := 30000

/-- `CURRENT_STATE_CACHE_TTL_MS`. -/
def currentStateCacheTtl : ℤ := 30000

variable (env : Env)

/-- The versions whose migrations are due, in the order of the versions. -/
def Plugin.pending (plugin : Plugin) (previousVersion : Option String) : List String :=
  let versions := (plugin.migrations.getD []).map Prod.fst
  let due := versions
    |>.filter (fun version => plugin.version.all (semverCompare env.number version · ≠ .gt))
    |>.filter (fun version => previousVersion.all (semverCompare env.number version · = .gt))
  due.mergeSort (semverCompare env.number · · ≠ .gt)

def Plugin.hasMigration (plugin : Plugin) (version : String) : Bool :=
  (plugin.migrations.getD []).lookup version = some true

/-- `!plugin.version && (plugin.onInstall || plugin.migrations)`. -/
def Plugin.isVersionless (plugin : Plugin) : Bool :=
  plugin.version.isNone && (plugin.onInstall || plugin.migrations.isSome)

/-! ## Isolates -/

structure Latch where
  run : ℕ
  /-- When the wait is given up. -/
  timeoutAt : ℤ
  plugins : List Plugin
  deriving DecidableEq

structure Isolate where
  migrationPromise : Option Latch := none
  versionlessPluginsExecuted : List String := []
  currentVersionedPlugins : List (String × String) := []
  currentStateCacheExpiresAt : ℤ := 0
  deriving DecidableEq

inductive Report where
  | read (run : ℕ) (name : String) (storedVersion : Option String)
  | started (run : ℕ) (name : String) (handler : Handler)
  | completed (run : ℕ) (name : String) (handler : Handler)
  | failed (run : ℕ) (name : String) (handler : Handler)
  | stored (run : ℕ) (name : String) (version : String)
  /-- An isolate no longer waits for a run. -/
  | timedOut (run : ℕ)
  deriving DecidableEq

/-- A run of `doMigrations`, at some plugin. -/
structure Job where
  run : ℕ
  isolate : ℕ
  plugin : Plugin
  rest : List Plugin
  previousVersion : Option String := none
  deriving DecidableEq

inductive Section where
  /-- `executePluginMigrations`, for some of the plugins. -/
  | execute (isolate : ℕ) (plugins : List Plugin)
  /-- .. with the schema of the control database. -/
  | checkCurrent (isolate : ℕ) (plugins : List Plugin)
  /-- The control database looks the versions up. -/
  | queryVersions (isolate : ℕ) (plugins : List Plugin)
  | compareVersions (isolate : ℕ) (plugins : List Plugin) (current : Bool)
  /-- The loop of `doMigrations`. -/
  | doMigrations (run isolate : ℕ) (plugins : List Plugin)
  /-- The control database looks the version up. -/
  | readVersion (job : Job)
  | migrate (job : Job) (storedVersion : Option String)
  /-- `onInstall` has settled. -/
  | installed (job : Job)
  /-- The loop of `runPendingMigrations`. -/
  | runPendingMigrations (job : Job) (pending : List String)
  | migrated (job : Job) (version : String) (pending : List String)
  /-- The control database writes the version. -/
  | setPluginVersion (job : Job) (version : String)
  | versionSet (job : Job)
  deriving DecidableEq

inductive Outcome where
  | ok | failed
  deriving DecidableEq, Inhabited

abbrev Next : Type := Handlers.Next Section

structure World where
  /-- The `plugin_version:` rows of `_meta`. -/
  versions : List (String × String) := []
  isolates : ℕ → Isolate := fun _ => {}
  /-- The runs of `doMigrations` so far. -/
  runs : ℕ := 0
  now : ℤ := 0
  log : List Report := []

namespace World

variable (s : World)

def setIsolate (i : ℕ) (f : Isolate → Isolate) : World :=
  { s with isolates := Function.update s.isolates i (f (s.isolates i)) }

def arePluginMigrationsCurrentInMemory (i : ℕ) (plugins : List Plugin) : Bool :=
  decide (s.now ≤ (s.isolates i).currentStateCacheExpiresAt) &&
    plugins.all (fun p => !p.isVersionless ||
      (s.isolates i).versionlessPluginsExecuted.contains p.name) &&
    plugins.all fun p => p.version.isNone ||
      (s.isolates i).currentVersionedPlugins.lookup p.name = p.version

def markPluginsCurrent (i : ℕ) (plugins : List Plugin) : World :=
  s.setIsolate i fun isolate =>
    { isolate with
      currentVersionedPlugins := plugins.foldl
        (fun current p => p.version.elim current (Assoc.set current p.name))
        isolate.currentVersionedPlugins
      currentStateCacheExpiresAt := s.now + currentStateCacheTtl }

def versionsMatch (plugins : List Plugin) : Bool :=
  plugins.all fun p => p.version.isNone || s.versions.lookup p.name = p.version

/-- The migrations start, unless the isolate waits for some. -/
def startMigrations (i : ℕ) (plugins : List Plugin) : World × Next :=
  match (s.isolates i).migrationPromise with
  | some _ => (s, .run [])
  | none =>
    ({ s.setIsolate i fun isolate =>
        { isolate with migrationPromise := some ⟨s.runs, s.now + env.timeoutMs, plugins⟩ } with
        runs := s.runs + 1 },
      .run [.doMigrations s.runs i plugins])

/-- The wait of an isolate for a run is over. -/
def release (i run : ℕ) : World :=
  if (s.isolates i).migrationPromise.any (·.run = run) then
    s.setIsolate i fun isolate => { isolate with migrationPromise := none }
  else s

def finish (i run : ℕ) : World :=
  match (s.isolates i).migrationPromise with
  | some latch =>
    if latch.run = run then (s.markPluginsCurrent i latch.plugins).release i run else s
  | none => s

def report (e : Report) : World := { s with log := s.log ++ [e] }

/-- What `doMigrations` does for a plugin, once its version has been read. -/
def migrate (job : Job) : Option String → World × Next
  | none =>
    if job.plugin.onInstall then
      (s.report (.started job.run job.plugin.name .onInstall), .await [.installed job])
    else (s, .run [.runPendingMigrations job (job.plugin.pending env none)])
  | some storedVersion =>
    if job.plugin.version.any (storedVersion ≠ ·) then
      (s, .run [.runPendingMigrations { job with previousVersion := some storedVersion }
        (job.plugin.pending env (some storedVersion))])
    else (s, .run [.doMigrations job.run job.isolate job.rest])

/-- The next migration of a plugin; after the last one its version is recorded. -/
def runPendingMigrations (job : Job) : List String → World × Next
  | version :: pending =>
    if job.plugin.hasMigration version then
      (s.report (.started job.run job.plugin.name (.migration version)),
        .await [.migrated job version pending])
    else (s, .run [.runPendingMigrations job pending])
  | [] =>
    match job.plugin.version with
    | some version => (s, .await [.setPluginVersion job version])
    | none =>
      (s.setIsolate job.isolate fun isolate =>
          { isolate with versionlessPluginsExecuted :=
              isolate.versionlessPluginsExecuted ++ [job.plugin.name] },
        .run [.doMigrations job.run job.isolate job.rest])

def settle (job : Job) (handler : Handler) (pending : List String) : Outcome → World × Next
  | .ok =>
    (s.report (.completed job.run job.plugin.name handler),
      .run [.runPendingMigrations job pending])
  | .failed =>
    ((s.report (.failed job.run job.plugin.name handler)).release job.isolate job.run, .run [])

def exec (outcome : Outcome) : Section → World × Next
  | .execute i plugins =>
    (s, if s.arePluginMigrationsCurrentInMemory i plugins then .run []
      else .await [.checkCurrent i plugins])
  | .checkCurrent i plugins =>
    match outcome with
    | .failed => (s, .run [])
    | .ok =>
      if plugins.any fun p => p.isVersionless &&
          !(s.isolates i).versionlessPluginsExecuted.contains p.name then
        s.startMigrations env i plugins
      else if plugins.all (·.version.isNone) then (s.markPluginsCurrent i plugins, .run [])
      else (s, .await [.queryVersions i plugins])
  | .queryVersions i plugins => (s, .await [.compareVersions i plugins (s.versionsMatch plugins)])
  | .compareVersions i plugins current =>
    match outcome with
    | .failed => (s, .run [])
    | .ok =>
      if current then (s.markPluginsCurrent i plugins, .run [])
      else s.startMigrations env i plugins
  | .doMigrations run i [] => (s.finish i run, .run [])
  | .doMigrations run i (plugin :: rest) =>
    (s, if plugin.version.isNone && !plugin.onInstall && plugin.migrations.isNone then
        .run [.doMigrations run i rest]
      else .await [.readVersion { run, isolate := i, plugin, rest }])
  | .readVersion job =>
    let storedVersion := s.versions.lookup job.plugin.name
    (s.report (.read job.run job.plugin.name storedVersion), .await [.migrate job storedVersion])
  | .migrate job storedVersion =>
    match outcome with
    | .failed => (s.release job.isolate job.run, .run [])
    | .ok => s.migrate env job storedVersion
  | .installed job => s.settle job .onInstall (job.plugin.pending env none) outcome
  | .runPendingMigrations job pending => s.runPendingMigrations job pending
  | .migrated job version pending => s.settle job (.migration version) pending outcome
  | .setPluginVersion job version =>
    match outcome with
    | .failed => (s.release job.isolate job.run, .run [])
    | .ok =>
      ({ s.report (.stored job.run job.plugin.name version) with
          versions := Assoc.set s.versions job.plugin.name version },
        .await [.versionSet job])
  | .versionSet job =>
    match outcome with
    | .failed => (s.release job.isolate job.run, .run [])
    | .ok => (s, .run [.doMigrations job.run job.isolate job.rest])

end World

/-! ## Events -/

inductive Event where
  | call (isolate : ℕ) (names : List String)
  | timeout (isolate : ℕ)
  | tick (ms : ℕ)
  deriving DecidableEq

namespace World

variable (s : World)

def handle : Event → World × Option (Handlers.Task Empty Section)
  | .call i names =>
    (s, some ⟨none, [.execute i (env.plugins.filter (names.contains ·.name))]⟩)
  | .timeout i =>
    match (s.isolates i).migrationPromise with
    | some latch =>
      (if latch.timeoutAt ≤ s.now then (s.report (.timedOut latch.run)).release i latch.run else s,
        none)
    | none => (s, none)
  | .tick ms => ({ s with now := s.now + ms }, none)

end World

/-- The isolates.  When they are gone, the control database is left. -/
def machine : Handlers.Machine World Empty Section Event Outcome where
  exec s outcome sec := s.exec env outcome sec
  handle s e := s.handle env e
  restart s := { s with isolates := fun _ => {} }

abbrev System : Type := Handlers.System World Empty Section Outcome

/-- What happens to isolates, and to their requests. -/
abbrev Step : Type := Handlers.Action Event Outcome

/-- No isolate has started, and some versions have been recorded. -/
def init (versions : List (String × String)) : System where
  state := { versions }
  returned := .ok

def step (s : System) (a : Step) : System := s.step (machine env) a

end Plugins

end EdgeBase
