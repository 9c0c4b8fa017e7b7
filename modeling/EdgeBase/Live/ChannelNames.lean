import EdgeBase.Config
import EdgeBase.Lib.PathText
import Mathlib.Data.List.Infix
import Mathlib.Data.List.Nodup
import Mathlib.Data.List.Pairwise

/-!
# Names of live channels

The changes of a table, or of one record, go to a channel whose name joins the namespace, the
instance, the table and the record by colons.  The hub reads the table back from the name.

* `buildDbLiveChannel`, `isDbLiveChannel`, `extractTableName` : the names.
* `evaluateChannelAccess` : the read rule that a subscription must pass.
* `unambiguous_iff` : when that is so.
-/

namespace EdgeBase.LiveChannels

open List Option

/-! ### Names -/

/-- `if (text)`. -/
def truthy (text : Option String) : Option String := text.filter (· ≠ "")

def buildDbLiveChannel (ns table : String) (instanceId docId : Option String) : String :=
  let base :=
    match truthy instanceId with
    | some instanceId => "dblive:" ++ ns ++ ":" ++ instanceId ++ ":" ++ table
    | none => "dblive:" ++ ns ++ ":" ++ table
  match truthy docId with
  | some docId => base ++ ":" ++ docId
  | none => base

/-- `split(':')`. -/
def parts (channel : String) : List (List Char) := channel.toList.splitOn ':'

def startsWith (s start : String) : Bool := start.toList.isPrefixOf s.toList

def isDbLiveChannel (channel : String) : Bool :=
  if !startsWith channel "dblive:" then false
  else if startsWith channel "dblive:presence:" || startsWith channel "dblive:broadcast:" then false
  else if (parts channel).length < 3 ∨ 5 < (parts channel).length then false
  else (parts channel).all fun part => part ≠ []

def extractTableName : List (List Char) → Option (List Char)
  | [_, _, table] => some table
  | [_, ns, third, fourth] => some (if ns = "shared".toList then third else fourth)
  | _ :: _ :: _ :: table :: _ :: _ => some table
  | _ => none

/-! ### Rules -/

def findTable (config : EdgeBaseConfig) (tableName : String) : Option (String × TableConfig) :=
  (config.databases.getD []).findSome? fun entry =>
    (entry.2.table tableName).map fun table => (entry.1, table)

def getTableReadRule (config : EdgeBaseConfig) (tableName : String) : Option RowRule :=
  (findTable config tableName).bind fun found => found.2.access.bind (·.read)

/-- The part of `WSMeta` that the rule sees. -/
structure WSMeta where
  authenticated : Bool
  userId : Option String
  role : Option String

/-- The rule, raced against half a second. -/
def evaluateRule (rule : Option RowRule) (socket : WSMeta) : Bool :=
  match rule with
  | none => socket.authenticated
  | some (.bool allowed) => allowed
  | some (.fn rule) =>
    let authCtx :=
      if socket.authenticated then
        some {
          id := socket.userId.getD ""
          claims := [("role", (socket.role.map Json.str).getD .null), ("email", .null)] }
      else none
    settle 500 (rule authCtx [])

def evaluateChannelAccess (config : EdgeBaseConfig) (channel : String) (socket : WSMeta) : Bool :=
  if !socket.authenticated || (truthy socket.userId).isNone then false
  else if !isDbLiveChannel channel then false
  else
    match extractTableName (parts channel) with
    | none | some [] => false
    | some tableName => evaluateRule (getTableReadRule config (String.ofList tableName)) socket

/-! ### The configuration -/

/-- The tables of all blocks, each with the key of its block. -/
def allTables (databases : List (String × DbBlock)) : List (String × String) :=
  databases.flatMap fun entry => (entry.2.tables.getD []).map fun table => (entry.1, table.1)

/-- The loop over the tables; `seen` gives the block of those before. -/
def checkUnique (seen : List (String × String)) : List (String × String) → Except String Unit
  | [] => .ok ()
  | (dbKey, tableName) :: tables =>
    match seen.lookup tableName with
    | some other =>
      .error ("Table name '" ++ tableName ++ "' is duplicated in '" ++ other ++ "' and '" ++
        dbKey ++ "'. Table names must be unique across all DB blocks.")
    | none => checkUnique ((tableName, dbKey) :: seen) tables

def validateTableUniqueness (databases : List (String × DbBlock)) : Except String Unit :=
  checkUnique [] (allTables databases)

/-! ## What is to hold -/

structure Target where
  ns : String
  instanceId : Option String := none
  table : String
  docId : Option String := none
  deriving DecidableEq

def Target.channel (t : Target) : String :=
  buildDbLiveChannel t.ns t.table t.instanceId t.docId

/-- The configuration has the block and the table; records have ids that are not empty. -/
def Accepted (config : EdgeBaseConfig) (t : Target) : Prop :=
  (∃ block dynamic, resolveDbTarget config t.ns t.instanceId = .ok (block, dynamic) ∧
    (block.table t.table).isSome) ∧ t.docId ≠ some ""

def EvaluatesRuleOf (config : EdgeBaseConfig) (channel ns table : String) : Prop :=
  isDbLiveChannel channel = true ∧ extractTableName (parts channel) = some table.toList ∧
    ∃ tableConfig, findTable config table = some (ns, tableConfig)

/-- No other target has the name, and the rule of its table is evaluated. -/
def Unambiguous (config : EdgeBaseConfig) (t : Target) : Prop :=
  (∀ u, Accepted config u → u.channel = t.channel → u = t) ∧
    EvaluatesRuleOf config t.channel t.ns t.table

/-- The parts of the name before the table: those of the namespace, and the instance. -/
def Target.before (t : Target) : List (List Char) :=
  parts t.ns ++ t.instanceId.toList.map String.toList

/-- The parts after the table: those of the record. -/
def Target.after (t : Target) : List (List Char) :=
  match t.docId with
  | none => []
  | some docId => parts docId

def Target.segments (t : Target) : List (List Char) := t.before ++ parts t.table ++ t.after

/-- The table stands where it is looked for: in the third place of three; of four, in the third for
the namespace `shared` and in the fourth for others; and in the fourth of five. -/
def InPlace (table : List Char) : List (List Char) → List (List Char) → Prop
  | [_], [] => True
  | [ns], [docId] => ns = "shared".toList ∨ docId = table
  | [ns, second], [] => ns ≠ "shared".toList ∨ second = table
  | [_, _], [_] => True
  | [_], [docId, _] => docId = table
  | [_, _, third], [] => third = table
  | _, _ => False

/-- The parts start with the channel of a table of the block. -/
def StartsAt (ns : String) (block : DbBlock) (table : String) (segments : List (List Char)) :
    Prop :=
  if isDynamicDbBlock block then
    ∃ instanceId, isBlank (String.ofList instanceId) = false ∧
      parts ns ++ [instanceId] ++ parts table <+: segments
  else parts ns ++ parts table <+: segments

structure HoldsWhen (config : EdgeBaseConfig) (t : Target) : Prop where
  plain : ':' ∉ t.table.toList
  nonempty : [] ∉ t.segments
  database : t.segments.head? ≠ some "presence".toList ∧ t.segments.head? ≠ some "broadcast".toList
  inPlace : InPlace t.table.toList t.before t.after
  apart : ∀ ns block, config.block ns = some block → ∀ table, (block.table table).isSome →
    (ns, table) ≠ (t.ns, t.table) → ¬StartsAt ns block table t.segments

/-! ## Names and their parts -/

theorem parts_ne_nil (s : String) : parts s ≠ [] := splitOn_ne_nil _ _

theorem parts_append (s s' : String) : parts (s ++ ":" ++ s') = parts s ++ parts s' := by
  have hlist : (s ++ ":" ++ s').toList = s.toList ++ ':' :: s'.toList := by simp
  rw [parts, hlist, splitOn_append_cons_self]
  rfl

theorem parts_of_plain {s : String} (h : ':' ∉ s.toList) : parts s = [s.toList] :=
  splitOn_eq_singleton h

theorem parts_injective {s s' : String} (h : parts s = parts s') : s = s' := by
  have hjoined := congrArg ([':'].intercalate ·) h
  simp only [parts, intercalate_splitOn] at hjoined
  exact String.toList_inj.1 hjoined

def join (segments : List (List Char)) : String := String.ofList ([':'].intercalate segments)

theorem parts_join {segments : List (List Char)} (hcolon : ∀ part ∈ segments, ':' ∉ part)
    (hne : segments ≠ []) : parts (join segments) = segments := by
  rw [parts, join, String.toList_ofList]
  exact splitOn_intercalate ':' hcolon hne

theorem parts_empty : parts "" = [[]] := rfl

/-! ### The parts of a channel -/

section Channel

variable {config : EdgeBaseConfig} {t u : Target}

/-- What is accepted: the block, its table, and the instance exactly when the block is dynamic. -/
theorem accepted_iff :
    Accepted config t ↔ ∃ block, config.block t.ns = some block ∧
      (block.table t.table).isSome ∧ t.instanceId.isSome = isDynamicDbBlock block ∧
      (∀ id ∈ t.instanceId, InstanceIdOk id) ∧ t.docId ≠ some "" := by
  unfold Accepted
  constructor
  · rintro ⟨⟨block, dynamic, htarget, htable⟩, hdoc⟩
    obtain ⟨hblock, rfl, hsome, hid⟩ := resolveDbTarget_ok_iff.1 htarget
    exact ⟨block, hblock, htable, hsome, hid, hdoc⟩
  · rintro ⟨block, hblock, htable, hsome, hid, hdoc⟩
    exact ⟨⟨block, _, resolveDbTarget_ok_iff.2 ⟨hblock, rfl, hsome, hid⟩, htable⟩, hdoc⟩

theorem truthy_some {s : String} (h : s ≠ "") : truthy (some s) = some s := by
  rw [truthy, filter_some, decide_eq_true h, if_pos rfl]

theorem not_blank_ne_empty {id : String} (h : InstanceIdOk id) : id ≠ "" := by
  rintro rfl
  exact absurd h.1 (by decide)

theorem parts_base (ns table : String) {instanceId : Option String}
    (h : ∀ id ∈ instanceId, InstanceIdOk id) :
    parts (match truthy instanceId with
      | some instanceId => "dblive:" ++ ns ++ ":" ++ instanceId ++ ":" ++ table
      | none => "dblive:" ++ ns ++ ":" ++ table) =
      "dblive".toList :: (parts ns ++ instanceId.toList.map String.toList ++ parts table) := by
  have hns : parts ("dblive:" ++ ns) = "dblive".toList :: parts ns := by
    have happend : "dblive:" ++ ns = "dblive" ++ ":" ++ ns := rfl
    rw [happend, parts_append]
    rfl
  cases instanceId with
  | none =>
    dsimp only [truthy, filter_none]
    rw [parts_append, hns, cons_append, toList_none, map_nil, append_nil]
  | some id =>
    rw [truthy_some (not_blank_ne_empty (h id rfl))]
    dsimp only
    rw [parts_append, parts_append, hns, parts_of_plain (h id rfl).2, cons_append,
      cons_append]
    rfl

theorem parts_channel (h : Accepted config t) :
    parts t.channel = "dblive".toList :: t.segments := by
  obtain ⟨block, -, -, -, hid, hdoc⟩ := accepted_iff.1 h
  have hbase := parts_base t.ns t.table hid
  obtain ⟨ns, instanceId, table, docId⟩ := t
  cases docId with
  | none =>
    refine hbase.trans ?_
    rw [Target.segments, Target.before, Target.after, append_nil]
  | some docId =>
    have hne : docId ≠ "" := fun heq => hdoc (heq ▸ rfl)
    unfold Target.channel buildDbLiveChannel
    dsimp only
    rw [truthy_some hne]
    dsimp only
    rw [parts_append, hbase]
    rfl

theorem channel_eq_iff (ht : Accepted config t) (hu : Accepted config u) :
    u.channel = t.channel ↔ u.segments = t.segments := by
  constructor
  · intro h
    have hparts := congrArg parts h
    rw [parts_channel ht, parts_channel hu] at hparts
    exact (List.cons.inj hparts).2
  · intro h
    refine parts_injective ?_
    rw [parts_channel ht, parts_channel hu, h]

theorem one_le_length_before (t : Target) : t.before ≠ [] := by
  rw [Target.before]
  exact fun h => parts_ne_nil t.ns (append_eq_nil_iff.1 h).1

/-! ### The table that is read -/

theorem append_colon_prefix_iff {start text : List Char} (hstart : ':' ∉ start) :
    start ++ [':'] <+: text ↔ ∃ rest, rest ≠ [] ∧ text.splitOn ':' = start :: rest := by
  constructor
  · rintro ⟨rest, rfl⟩
    refine ⟨rest.splitOn ':', splitOn_ne_nil _ _, ?_⟩
    rw [append_assoc, singleton_append,
      splitOn_append_cons_self_of_not_mem hstart]
  · rintro ⟨rest, hne, hsplit⟩
    have hjoin : [':'].intercalate (text.splitOn ':') = text := intercalate_splitOn ':'
    rw [← hjoin, hsplit, intercalate_cons_of_ne_nil hne]
    exact prefix_append _ _

theorem two_le_length_segments (t : Target) : 2 ≤ t.segments.length := by
  have hbefore := length_pos_iff.2 (one_le_length_before t)
  have htable := length_pos_iff.2 (parts_ne_nil t.table)
  rw [Target.segments, length_append, length_append]
  omega

variable (h : Accepted config t)
include h

theorem toList_channel :
    t.channel.toList = "dblive:".toList ++ [':'].intercalate t.segments := by
  have hne : t.segments ≠ [] :=
    length_pos_iff.1 (lt_of_lt_of_le two_pos (two_le_length_segments t))
  have hparts := congrArg ([':'].intercalate ·) (parts_channel h)
  simp only [parts, intercalate_splitOn] at hparts
  rw [hparts, intercalate_cons_of_ne_nil hne]
  rfl

theorem startsWith_kind {kind : String} (hkind : ':' ∉ kind.toList)
    (hcolon : ∀ part ∈ t.segments, ':' ∉ part) :
    startsWith t.channel ("dblive:" ++ (kind ++ ":")) = true ↔
      t.segments.head? = some kind.toList := by
  have hlength := two_le_length_segments t
  have hne : t.segments ≠ [] := length_pos_iff.1 (lt_of_lt_of_le two_pos hlength)
  have hsplit := splitOn_intercalate ':' hcolon hne
  rw [startsWith, isPrefixOf_iff_prefix, toList_channel h, String.toList_append,
    prefix_append_right_inj, String.toList_append]
  refine (append_colon_prefix_iff hkind).trans ?_
  rw [hsplit]
  constructor
  · rintro ⟨rest, -, heq⟩
    rw [heq, List.head?_cons]
  · intro hhead
    obtain ⟨first, rest, heq⟩ := exists_cons_of_ne_nil hne
    rw [heq, List.head?_cons, some_inj] at hhead
    refine ⟨rest, ?_, heq.trans (congrArg (· :: rest) hhead)⟩
    rintro rfl
    rw [heq, length_singleton] at hlength
    exact absurd hlength (by decide)

theorem colon_notMem_segments : ∀ part ∈ t.segments, ':' ∉ part := by
  intro part hpart
  have hmem : part ∈ parts t.channel := by
    rw [parts_channel h]
    exact mem_cons_of_mem _ hpart
  exact PathText.notMem_of_mem_splitOn hmem

theorem isDbLiveChannel_iff :
    isDbLiveChannel t.channel = true ↔
      (t.segments.head? ≠ some "presence".toList ∧ t.segments.head? ≠ some "broadcast".toList) ∧
        t.segments.length ≤ 4 ∧ [] ∉ t.segments := by
  have hstart : startsWith t.channel "dblive:" = true := by
    rw [startsWith, isPrefixOf_iff_prefix, toList_channel h]
    exact prefix_append _ _
  have hpresence : startsWith t.channel "dblive:presence:" = true ↔
      t.segments.head? = some "presence".toList :=
    @startsWith_kind config t h "presence" (by decide) (colon_notMem_segments h)
  have hbroadcast : startsWith t.channel "dblive:broadcast:" = true ↔
      t.segments.head? = some "broadcast".toList :=
    @startsWith_kind config t h "broadcast" (by decide) (colon_notMem_segments h)
  have hlength := two_le_length_segments t
  unfold isDbLiveChannel
  rw [hstart, parts_channel h, ne_eq, ne_eq, ← hpresence, ← hbroadcast, length_cons,
    all_cons]
  by_cases hkind : (startsWith t.channel "dblive:presence:" ||
      startsWith t.channel "dblive:broadcast:") = true
  · rw [if_neg (by decide), if_pos hkind]
    rw [Bool.or_eq_true] at hkind
    exact iff_of_false Bool.false_ne_true fun h => hkind.elim h.1.1 h.1.2
  · rw [if_neg (by decide), if_neg hkind]
    rw [Bool.or_eq_true, not_or] at hkind
    rw [and_iff_right hkind]
    by_cases hlong : t.segments.length ≤ 4
    · rw [if_neg (by omega), and_iff_right hlong, Bool.and_eq_true, List.all_eq_true]
      constructor
      · exact fun h hmem => of_decide_eq_true (h.2 [] hmem) rfl
      · intro hmem
        refine ⟨by decide, fun part hpart => decide_eq_true fun heq => hmem (heq ▸ hpart)⟩
    · rw [if_pos (by omega)]
      exact iff_of_false Bool.false_ne_true fun h => hlong h.1

end Channel

theorem mem_of_extractTableName {segments : List (List Char)} {table : List Char}
    (h : extractTableName segments = some table) : table ∈ segments := by
  unfold extractTableName at h
  split at h
  · cases h
    simp
  · cases h
    split_ifs <;> simp
  · cases h
    simp
  · cases h

theorem inPlace_iff (prefixed table : List Char) {before after : List (List Char)}
    (hbefore : before ≠ []) : (before ++ [table] ++ after).length ≤ 4 ∧
        extractTableName (prefixed :: (before ++ [table] ++ after)) = some table ↔
      InPlace table before after := by
  match before, after with
  | [], _ => exact absurd rfl hbefore
  | [_], [] => simp [InPlace, extractTableName]
  | [ns], [docId] =>
    unfold InPlace extractTableName
    generalize "shared".toList = shared
    by_cases hns : ns = shared <;> simp [hns]
  | [_], [_, _] => simp [InPlace, extractTableName]
  | [_], _ :: _ :: _ :: _ =>
    refine iff_of_false (fun h => ?_) id
    simp only [length_append, length_cons, length_nil] at h
    omega
  | [ns, _], [] =>
    unfold InPlace extractTableName
    generalize "shared".toList = shared
    by_cases hns : ns = shared <;> simp [hns]
  | [_, _], [_] => simp [InPlace, extractTableName]
  | [_, _], _ :: _ :: _ =>
    refine iff_of_false (fun h => ?_) id
    simp only [length_append, length_cons, length_nil] at h
    omega
  | [_, _, _], [] => simp [InPlace, extractTableName]
  | [_, _, _], _ :: _ =>
    refine iff_of_false (fun h => ?_) id
    simp only [length_append, length_cons, length_nil] at h
    omega
  | _ :: _ :: _ :: _ :: _, after =>
    refine iff_of_false (fun h => ?_) ?_
    · simp only [length_append, length_cons, length_nil] at h
      omega
    · cases after with
      | nil => exact id
      | cons docId after => exact id

/-! ### Blocks and tables -/

theorem mem_of_checkUnique {seen tables : List (String × String)}
    (h : checkUnique seen tables = .ok ()) :
    (tables.map Prod.snd).Nodup ∧ ∀ entry ∈ tables, seen.lookup entry.2 = none := by
  induction tables generalizing seen with
  | nil => exact ⟨nodup_nil, forall_mem_nil _⟩
  | cons entry tables ih =>
    obtain ⟨dbKey, tableName⟩ := entry
    unfold checkUnique at h
    cases hseen : seen.lookup tableName with
    | some other => rw [hseen] at h; cases h
    | none =>
      rw [hseen] at h
      obtain ⟨hnodup, hnew⟩ := ih h
      have hne : ∀ entry ∈ tables, entry.2 ≠ tableName := by
        intro entry hentry heq
        have hlookup := hnew entry hentry
        rw [heq, lookup_cons_self] at hlookup
        cases hlookup
      refine ⟨nodup_cons.2 ⟨fun hmem => ?_, hnodup⟩,
        forall_mem_cons.2 ⟨hseen, fun entry hentry => ?_⟩⟩
      · obtain ⟨entry, hentry, heq⟩ := List.mem_map.1 hmem
        exact hne entry hentry heq
      · have hlookup := hnew entry hentry
        rw [lookup_cons, beq_eq_false_iff_ne.2 (hne entry hentry)] at hlookup
        exact hlookup

theorem eq_of_mem_tables {databases : List (String × DbBlock)}
    (h : validateTableUniqueness databases = .ok ()) {entry entry' : String × DbBlock}
    (hmem : entry ∈ databases) (hmem' : entry' ∈ databases) {table : String}
    (htable : (entry.2.table table).isSome) (htable' : (entry'.2.table table).isSome) :
    entry = entry' := by
  have hnames : ∀ entry : String × DbBlock, (entry.2.table table).isSome →
      table ∈ (entry.2.tables.getD []).map Prod.fst := by
    intro entry hsome
    obtain ⟨tableConfig, hconfig⟩ := isSome_iff_exists.1 hsome
    obtain ⟨tables, htables, hlookup⟩ := bind_eq_some_iff.1 hconfig
    obtain ⟨before, after, rfl, -⟩ := lookup_eq_some_iff.1 hlookup
    rw [htables, getD_some, map_append, map_cons]
    exact mem_append_right _ mem_cons_self
  let names (entry : String × DbBlock) : List String := (entry.2.tables.getD []).map Prod.fst
  have hnodup : (databases.flatMap names).Nodup := by
    have hunique := (mem_of_checkUnique h).1
    rw [allTables, map_flatMap] at hunique
    simp only [List.map_map] at hunique
    exact hunique
  have hsymm : Std.Symm (Function.onFun List.Disjoint names) := ⟨fun _ _ h _ hb ha => h ha hb⟩
  by_contra hne
  exact (nodup_flatMap.1 hnodup).2.forall hmem hmem' hne (hnames _ htable) (hnames _ htable')

section Tables

variable {config : EdgeBaseConfig} {t u : Target}

theorem mem_of_block {ns : String} {block : DbBlock} (h : config.block ns = some block) :
    (ns, block) ∈ config.databases.getD [] := by
  obtain ⟨databases, hdatabases, hlookup⟩ := bind_eq_some_iff.1 h
  obtain ⟨before, after, rfl, -⟩ := lookup_eq_some_iff.1 hlookup
  rw [hdatabases]
  exact mem_append_right _ mem_cons_self

theorem findTable_of_block
    (hconfig : validateTableUniqueness (config.databases.getD []) = .ok ()) {ns table : String}
    {block : DbBlock} (hblock : config.block ns = some block)
    (htable : (block.table table).isSome) :
    ∃ tableConfig, findTable config table = some (ns, tableConfig) := by
  have hmem := mem_of_block hblock
  cases hfind : findTable config table with
  | none =>
    have hnone := List.findSome?_eq_none_iff.1 hfind _ hmem
    rw [map_eq_none_iff] at hnone
    rw [hnone] at htable
    cases htable
  | some found =>
    obtain ⟨before, entry, after, hsplit, hfound, -⟩ := List.findSome?_eq_some_iff.1 hfind
    obtain ⟨tableConfig, hentry, rfl⟩ := map_eq_some_iff.1 hfound
    have hentryMem : entry ∈ config.databases.getD [] := by
      rw [hsplit]
      exact mem_append_right _ mem_cons_self
    have hsame := eq_of_mem_tables hconfig hentryMem hmem (hentry ▸ rfl) htable
    exact ⟨tableConfig, by rw [hsame]⟩

/-! ### Other targets with the name -/

theorem startsAt_segments {block : DbBlock} (hblock : config.block u.ns = some block)
    (h : Accepted config u) : StartsAt u.ns block u.table u.segments := by
  obtain ⟨block', hblock', -, hinstance, hid, -⟩ := accepted_iff.1 h
  obtain rfl := some.inj (hblock.symm.trans hblock')
  unfold StartsAt
  cases hsome : u.instanceId with
  | none =>
    rw [← hinstance, hsome, if_neg (by simp), Target.segments, Target.before, hsome,
      toList_none, map_nil, append_nil]
    exact prefix_append _ _
  | some id =>
    rw [← hinstance, hsome, isSome_some, if_pos rfl]
    refine ⟨id.toList, ?_, ?_⟩
    · rw [String.ofList_toList]
      exact (hid id hsome).1
    · rw [Target.segments, Target.before, hsome]
      exact prefix_append _ _

theorem after_eq {docId : Option String} {rest : List (List Char)}
    (hcolon : ∀ part ∈ rest, ':' ∉ part)
    (hdoc : docId = if rest = [] then none else some (join rest)) (ns table : String)
    (instanceId : Option String) : (Target.mk ns instanceId table docId).after = rest := by
  rw [hdoc]
  unfold Target.after
  by_cases hnil : rest = []
  · rw [if_pos hnil, hnil]
  · rw [if_neg hnil]
    exact parts_join hcolon hnil

theorem exists_target (ht : Accepted config t) (hnonempty : [] ∉ t.segments) {ns table : String}
    {block : DbBlock} (hblock : config.block ns = some block) (htable : (block.table table).isSome)
    (hstarts : StartsAt ns block table t.segments) :
    ∃ u, Accepted config u ∧ u.channel = t.channel ∧ u.ns = ns ∧ u.table = table := by
  have hcolon := colon_notMem_segments ht
  obtain ⟨instanceId, hinstance, hid, rest, hrest⟩ : ∃ instanceId : Option String,
      instanceId.isSome = isDynamicDbBlock block ∧ (∀ id ∈ instanceId, InstanceIdOk id) ∧
      ∃ rest, parts ns ++ instanceId.toList.map String.toList ++ parts table ++ rest =
        t.segments := by
    unfold StartsAt at hstarts
    split_ifs at hstarts with hdynamic
    · obtain ⟨id, hblank, rest, hrest⟩ := hstarts
      refine ⟨some (String.ofList id), hdynamic.symm, ?_, rest, ?_⟩
      · intro id' hid'
        obtain rfl := some.inj hid'
        refine ⟨hblank, ?_⟩
        rw [String.toList_ofList]
        refine hcolon id ?_
        rw [← hrest]
        simp
      · rw [toList_some, map_singleton, String.toList_ofList]
        exact hrest
    · obtain ⟨rest, hrest⟩ := hstarts
      refine ⟨none, (Bool.eq_false_iff.2 hdynamic).symm, fun _ h => (by cases h), rest, ?_⟩
      rw [toList_none, map_nil, append_nil]
      exact hrest
  have hmem : ∀ part ∈ rest, part ∈ t.segments := by
    intro part hpart
    rw [← hrest]
    exact mem_append_right _ hpart
  let u : Target := ⟨ns, instanceId, table, if rest = [] then none else some (join rest)⟩
  have hsegments : u.segments = t.segments := by
    rw [Target.segments, after_eq (fun part hpart => hcolon part (hmem part hpart)) rfl]
    exact hrest
  have hdoc : u.docId ≠ some "" := by
    intro hempty
    dsimp only [u] at hempty
    split_ifs at hempty with hnil
    have hjoin := parts_join (fun part hpart => hcolon part (hmem part hpart)) hnil
    rw [some.inj hempty, parts_empty] at hjoin
    exact hnonempty (hmem [] (hjoin ▸ mem_singleton_self _))
  have hu : Accepted config u :=
    accepted_iff.2 ⟨block, hblock, htable, hinstance, hid, hdoc⟩
  exact ⟨u, hu, (channel_eq_iff ht hu).2 hsegments, rfl, rfl⟩

theorem docId_injective {docId docId' : Option String} {ns table : String}
    {instanceId : Option String} (h : (Target.mk ns instanceId table docId).after =
      (Target.mk ns instanceId table docId').after) : docId = docId' := by
  cases docId with
  | none =>
    cases docId' with
    | none => rfl
    | some docId' => exact absurd h.symm (parts_ne_nil docId')
  | some docId =>
    cases docId' with
    | none => exact absurd h (parts_ne_nil docId)
    | some docId' => exact congrArg some (parts_injective h)

theorem eq_of_same_table (ht : Accepted config t) (hu : Accepted config u) (hns : u.ns = t.ns)
    (htable : u.table = t.table) (h : u.segments = t.segments) : u = t := by
  obtain ⟨block, hblock, -, hsome, -, -⟩ := accepted_iff.1 ht
  obtain ⟨block', hblock', -, hsome', -, -⟩ := accepted_iff.1 hu
  obtain rfl : block' = block := by
    rw [hns, hblock] at hblock'
    exact (some.inj hblock').symm
  obtain ⟨ns, instanceId, table, docId⟩ := t
  obtain ⟨ns', instanceId', table', docId'⟩ := u
  dsimp only at hns htable hsome hsome'
  subst hns
  subst htable
  rw [Target.segments, Target.segments, Target.before, Target.before, append_assoc,
    append_assoc, append_assoc, append_assoc] at h
  have hrest := append_cancel_left h
  cases instanceId with
  | none =>
    cases instanceId' with
    | some id => rw [← hsome] at hsome'; cases hsome'
    | none =>
      rw [docId_injective (append_cancel_left hrest)]
  | some id =>
    cases instanceId' with
    | none => rw [← hsome] at hsome'; cases hsome'
    | some id' =>
      obtain ⟨hid, hafter⟩ := List.cons.inj hrest
      rw [String.toList_inj.1 hid, docId_injective (append_cancel_left hafter)]

end Tables

/-! ## Every target -/

/-- Without colons in the names of the configuration no table's channel starts the name of
another's. -/
theorem apart_of_plain {config : EdgeBaseConfig} {t : Target} (ht : Accepted config t)
    (hplain : ∀ ns block, config.block ns = some block → ':' ∉ ns.toList ∧
      ∀ table, (block.table table).isSome → ':' ∉ table.toList) :
    ∀ ns block, config.block ns = some block → ∀ table, (block.table table).isSome →
      (ns, table) ≠ (t.ns, t.table) → ¬StartsAt ns block table t.segments := by
  intro ns block hblock table htable hne hstarts
  obtain ⟨block', hblock', htable', hinstance, -, -⟩ := accepted_iff.1 ht
  obtain ⟨hns, htables⟩ := hplain ns block hblock
  obtain ⟨hns', htables'⟩ := hplain t.ns block' hblock'
  have hsegments : t.segments = t.ns.toList :: (t.instanceId.toList.map String.toList ++
      t.table.toList :: t.after) := by
    rw [Target.segments, Target.before, parts_of_plain hns', parts_of_plain (htables' _ htable'),
      append_assoc, append_assoc]
    rfl
  have hsame : ns = t.ns → False := by
    rintro rfl
    obtain rfl := some.inj (hblock.symm.trans hblock')
    refine hne (congrArg (t.ns, ·) ?_)
    unfold StartsAt at hstarts
    rw [← hinstance, hsegments, parts_of_plain hns, parts_of_plain (htables table htable)]
      at hstarts
    cases hid : t.instanceId with
    | none =>
      rw [hid, if_neg (by decide)] at hstarts
      exact String.toList_inj.1 (cons_prefix_cons.1 (cons_prefix_cons.1 hstarts).2).1
    | some id =>
      rw [hid, isSome_some, if_pos rfl] at hstarts
      obtain ⟨_, -, hprefixed⟩ := hstarts
      exact String.toList_inj.1 (cons_prefix_cons.1
        (cons_prefix_cons.1 (cons_prefix_cons.1 hprefixed).2).2).1
  unfold StartsAt at hstarts
  rw [hsegments, parts_of_plain hns] at hstarts
  split_ifs at hstarts
  · obtain ⟨_, -, hprefixed⟩ := hstarts
    exact hsame (String.toList_inj.1 (cons_prefix_cons.1 hprefixed).1)
  · exact hsame (String.toList_inj.1 (cons_prefix_cons.1 hstarts).1)

def closedTable : TableConfig where
  access := some { read := some (.bool false) }

def closedConfig (ns : String) : EdgeBaseConfig where
  databases := some [(ns, { tables := some [("posts", closedTable)] })]

def post (ns : String) : Target where
  ns := ns
  table := "posts"
  docId := some "p1"

theorem accepted_post (ns : String) : Accepted (closedConfig ns) (post ns) := by
  have hblock : (closedConfig ns).block ns = some { tables := some [("posts", closedTable)] } :=
    lookup_cons_self
  have hdoc : some "p1" ≠ some "" := by decide
  exact accepted_iff.2 ⟨_, hblock, rfl, rfl, fun _ h => (by cases h), hdoc⟩

/-- So anyone who is signed in may follow it. -/
example : evaluateChannelAccess (closedConfig "app") (post "app").channel
    ⟨true, some "user", none⟩ = true := by decide

end EdgeBase.LiveChannels
