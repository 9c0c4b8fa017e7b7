import EdgeBase.Config
import EdgeBase.Lib.PathText
import Mathlib.Data.List.DropRight
import Mathlib.Data.List.Forall2
import Mathlib.Data.List.Infix
import Mathlib.Data.List.Sort

/-!
# DDL of several statements

Migrations are texts of several statements.  They are split at semicolons, unless the text
mentions `BEGIN` and `END`: then the database gets it whole, and runs its statements itself.

* `execMulti`, `runMigrations` : what is handed to the database, and what is recorded.
* `executes_iff` : when they are.
* `recorded_run` : a version is recorded behind the texts of its migration.
-/

namespace EdgeBase.MultiStatement

open List

/-! ### The source -/

/-- `text.trim()`. -/
def trimmed (text : List Char) : List Char := (text.dropWhile isTrimmed).rdropWhile isTrimmed

/-- `ddl.replace(/;\s*$/, '')`. -/
def dropSemicolon (ddl : List Char) : List Char :=
  let kept := ddl.rdropWhile isTrimmed
  if kept.getLast? = some ';' then kept.dropLast else ddl

/-- `upper.includes('BEGIN') && upper.includes('END')`. -/
def mentionsTrigger (upper : List Char) : Bool :=
  ['B', 'E', 'G', 'I', 'N'] <:+: upper ∧ ['E', 'N', 'D'] <:+: upper

/-- The texts that `execMulti` hands to the database, as long as none fails. -/
def execMulti (toUpperCase : List Char → List Char) (ddl : List Char) : List (List Char) :=
  if mentionsTrigger (toUpperCase ddl) then
    let clean := trimmed (dropSemicolon ddl)
    if clean.length > 0 then [clean] else []
  else ((ddl.splitOn ';').map trimmed).filter (· ≠ [])

structure MigrationConfig where
  version : ℕ
  up : List Char

inductive Event where
  | exec (text : List Char)
  | setMeta (version : ℕ)
  deriving DecidableEq

/-- The database runs texts until one throws. -/
def execAll (throws : List Event → List Char → Bool) :
    List (List Char) → List Event → List Event × Bool
  | [], log => (log, true)
  | text :: texts, log =>
    if throws log text then (log, false) else execAll throws texts (log ++ [.exec text])

def migrate (toUpperCase : List Char → List Char) (throws : List Event → List Char → Bool) :
    List MigrationConfig → List Event → List Event
  | [], log => log
  | migration :: pending, log =>
    match execAll throws (execMulti toUpperCase migration.up) log with
    | (log, true) => migrate toUpperCase throws pending (log ++ [.setMeta migration.version])
    | (log, false) => log

/-- The migrations behind the recorded version, in the order of their versions. -/
def pendingMigrations (migrations : List MigrationConfig) (currentVersion : ℕ) :
    List MigrationConfig :=
  (migrations.filter fun m => m.version > currentVersion).insertionSort
    fun a b => a.version ≤ b.version

def runMigrations (toUpperCase : List Char → List Char) (throws : List Event → List Char → Bool)
    (migrations : List MigrationConfig) (currentVersion : ℕ) : List Event :=
  migrate toUpperCase throws (pendingMigrations migrations currentVersion) []

/-! ### Statements -/

/-- The parts of a statement; the body of a trigger has statements of its own. -/
inductive Element where
  | code (text : List Char) (h : ';' ∉ text)
  | literal (text : List Char)
  | identifier (text : List Char)
  | lineComment (text : List Char)
  | blockComment (text : List Char)
  | body (text : List Char)

def Element.text : Element → List Char
  | .code text _ => text
  | .literal text => '\'' :: text ++ ['\'']
  | .identifier text => '"' :: text ++ ['"']
  | .lineComment text => '-' :: '-' :: text
  | .blockComment text => '/' :: '*' :: text ++ ['*', '/']
  | .body text => 'B' :: 'E' :: 'G' :: 'I' :: 'N' :: text ++ ['E', 'N', 'D']

/-- A statement has more than white space and semicolons. -/
structure Statement where
  elements : List Element
  word : ∃ c ∈ elements.flatMap Element.text, c ≠ ';' ∧ isTrimmed c = false

def Statement.text (s : Statement) : List Char := s.elements.flatMap Element.text

def render (statements : List Statement) : List Char :=
  [';'].intercalate (statements.map Statement.text)

/-- A migration: the statements, and maybe a semicolon and white space behind the last one. -/
def migrationText (statements : List Statement)
    (tail : Option {blank : List Char // ∀ c ∈ blank, isTrimmed c}) : List Char :=
  [';'].intercalate (statements.map Statement.text ++ (tail.map Subtype.val).toList)

/-- A text for some statements, but for white space and a semicolon at its end. -/
def Reads (text : List Char) (statements : List Statement) : Prop :=
  text = trimmed (render statements) ∨ text = trimmed (dropSemicolon (render statements))

/-- Each text is one of the statements or several of them, together all, in their order. -/
def Executes (texts : List (List Char)) (statements : List Statement) : Prop :=
  ∃ groups : List (List Statement), groups.flatten = statements ∧ [] ∉ groups ∧
    List.Forall₂ Reads texts groups

/-! ### White space -/

theorem mem_trimmed {c : Char} {t : List Char} (hc : isTrimmed c = false) :
    c ∈ trimmed t ↔ c ∈ t := by
  have hright (s : List Char) : c ∈ s.rdropWhile isTrimmed ↔ c ∈ s := by
    conv_rhs => rw [← rdropWhile_append_rtakeWhile (p := isTrimmed) (l := s)]
    rw [mem_append, or_iff_left]
    exact fun h => Bool.false_ne_true (hc.symm.trans (mem_rtakeWhile_imp h))
  rw [trimmed, hright]
  conv_rhs => rw [← takeWhile_append_dropWhile (p := isTrimmed) (l := t)]
  rw [mem_append, or_iff_right]
  exact fun h => Bool.false_ne_true (hc.symm.trans (mem_takeWhile_imp h))

theorem trimmed_of_blank {t : List Char} (h : ∀ c ∈ t, isTrimmed c) : trimmed t = [] := by
  rw [trimmed, dropWhile_eq_nil_iff.2 h, rdropWhile_nil]

theorem dropSemicolon_append (u : List Char) {ws : List Char} (h : ∀ c ∈ ws, isTrimmed c) :
    dropSemicolon (u ++ ';' :: ws) = u := by
  have hkept : (u ++ ';' :: ws).rdropWhile isTrimmed = u ++ [';'] := by
    have hblank : ∀ c ∈ ws.reverse, isTrimmed c := fun c hc => h c (mem_reverse.1 hc)
    have hmark : isTrimmed ';' = false := by decide
    rw [List.rdropWhile, reverse_append, reverse_cons, append_assoc,
      dropWhile_append_of_pos hblank, cons_append, nil_append,
      dropWhile_cons_of_neg (by simp [hmark])]
    simp
  rw [dropSemicolon, hkept]
  simp

theorem dropSemicolon_cases (t : List Char) :
    (∃ ws, t = dropSemicolon t ++ ';' :: ws ∧ ∀ c ∈ ws, isTrimmed c) ∨ dropSemicolon t = t := by
  unfold dropSemicolon
  dsimp only
  split_ifs with hlast
  · refine .inl ⟨t.rtakeWhile isTrimmed, ?_, fun c => mem_rtakeWhile_imp⟩
    have hkept : (t.rdropWhile isTrimmed).dropLast ++ [';'] = t.rdropWhile isTrimmed :=
      dropLast_append_getLast? _ hlast
    conv_lhs => rw [← rdropWhile_append_rtakeWhile (p := isTrimmed) (l := t), ← hkept]
    simp
  · exact .inr rfl

theorem word_mem_dropSemicolon {t : List Char} {c : Char} (hmem : c ∈ t) (hne : c ≠ ';')
    (hc : isTrimmed c = false) : c ∈ dropSemicolon t := by
  obtain ⟨ws, heq, hws⟩ | heq := dropSemicolon_cases t
  · rw [heq, mem_append, mem_cons] at hmem
    refine hmem.resolve_right fun h => h.elim hne fun h => ?_
    exact Bool.false_ne_true (hc.symm.trans (hws c h))
  · rwa [heq]

theorem semicolon_mem_dropSemicolon {x y : List Char} {w : Char} (hw : w ∈ y) (hne : w ≠ ';')
    (hword : isTrimmed w = false) : ';' ∈ dropSemicolon (x ++ ';' :: y) := by
  obtain ⟨ws, heq, hws⟩ | heq := dropSemicolon_cases (x ++ ';' :: y)
  · have hout : w ∉ ';' :: ws := not_mem_cons_of_ne_of_not_mem hne fun h =>
      Bool.false_ne_true (hword.symm.trans (hws w h))
    generalize dropSemicolon (x ++ ';' :: y) = u at heq
    obtain ⟨a, rfl, ha⟩ | ⟨b, -, hb⟩ := append_eq_append_iff.1 heq
    · obtain _ | ⟨mark, a⟩ := a
      · exact absurd ((show ';' :: y = ';' :: ws from ha) ▸ mem_cons_of_mem _ hw) hout
      · obtain rfl := (List.cons.inj ha).1
        simp
    · exact absurd (hb ▸ mem_append_right _ (mem_cons_of_mem _ hw)) hout
  · rw [heq]
    simp

/-! ### What is handed over -/

variable {statements : List Statement}

theorem Statement.word_text (s : Statement) :
    ∃ c ∈ s.text, c ≠ ';' ∧ isTrimmed c = false := s.word

def pieces (text : List Char) : List (List Char) :=
  ((text.splitOn ';').map trimmed).filter (· ≠ [])

theorem pieces_append (x y : List Char) : pieces (x ++ ';' :: y) = pieces x ++ pieces y := by
  rw [pieces, splitOn_append_cons_self, map_append, filter_append, pieces, pieces]

theorem pieces_of_blank {t : List Char} (h : ∀ c ∈ t, isTrimmed c) : pieces t = [] := by
  have hmark : ';' ∉ t := fun hmem => absurd (h _ hmem) (by decide)
  rw [pieces, splitOn_eq_singleton hmark, map_singleton, trimmed_of_blank h]
  rfl

theorem pieces_of_notMem {t : List Char} (h : ';' ∉ t) (hword : ∃ c ∈ t, isTrimmed c = false) :
    pieces t = [trimmed t] := by
  obtain ⟨c, hmem, hc⟩ := hword
  have hne : trimmed t ≠ [] := ne_nil_of_mem ((mem_trimmed hc).2 hmem)
  rw [pieces, splitOn_eq_singleton h, map_singleton]
  exact filter_cons_of_pos (decide_eq_true hne)

theorem pieces_intercalate (texts : List (List Char)) :
    pieces ([';'].intercalate texts) = texts.flatMap pieces := by
  induction texts with
  | nil => rfl
  | cons text texts ih =>
    obtain _ | ⟨text', texts⟩ := texts
    · rw [intercalate_singleton, flatMap_singleton]
    · rw [intercalate_cons_cons, append_assoc, singleton_append, pieces_append, ih]
      rfl

theorem pieces_text {s : Statement} (h : ';' ∉ dropSemicolon s.text) :
    pieces s.text = [trimmed (dropSemicolon s.text)] := by
  obtain ⟨c, hmem, hne, hc⟩ := s.word_text
  obtain ⟨ws, heq, hws⟩ | heq := dropSemicolon_cases s.text
  · have hmem' := word_mem_dropSemicolon hmem hne hc
    conv_lhs => rw [heq]
    rw [pieces_append, pieces_of_blank hws, append_nil, pieces_of_notMem h ⟨c, hmem', hc⟩]
  · rw [heq] at h ⊢
    exact pieces_of_notMem h ⟨c, hmem, hc⟩

theorem render_cons_cons (s s' : Statement) (statements : List Statement) :
    render (s :: s' :: statements) = s.text ++ ';' :: render (s' :: statements) := by
  rw [render, map_cons, map_cons, intercalate_cons_cons, append_assoc]
  rfl

theorem render_word {statements : List Statement} (h : statements ≠ []) :
    ∃ c ∈ render statements, c ≠ ';' ∧ isTrimmed c = false := by
  obtain ⟨s, rest, rfl⟩ := exists_cons_of_ne_nil h
  obtain ⟨c, hmem, hc⟩ := s.word_text
  refine ⟨c, ?_, hc⟩
  obtain _ | ⟨s', rest⟩ := rest
  · rwa [render, map_singleton, intercalate_singleton]
  · rw [render_cons_cons]
    exact mem_append_left _ hmem

theorem Reads.eq_nil_iff {text : List Char} (h : Reads text statements) :
    text = [] ↔ statements = [] := by
  constructor
  · intro htext
    by_contra hstatements
    obtain ⟨c, hmem, hne, hc⟩ := render_word hstatements
    have hin : c ∈ text := by
      obtain rfl | rfl := h
      · exact (mem_trimmed hc).2 hmem
      · exact (mem_trimmed hc).2 (word_mem_dropSemicolon hmem hne hc)
    exact not_mem_nil (htext ▸ hin)
  · rintro rfl
    exact h.elim id id

theorem eq_singleton_of_reads {text : List Char} (htext : ';' ∉ text) {g : List Statement}
    (hg : g ≠ []) (h : Reads text g) : ∃ s, g = [s] ∧ ';' ∉ dropSemicolon s.text := by
  have hmark : isTrimmed ';' = false := by decide
  have hout : ';' ∉ dropSemicolon (render g) := by
    obtain rfl | rfl := h
    · obtain ⟨ws, heq, -⟩ | heq := dropSemicolon_cases (render g)
      · refine absurd ((mem_trimmed hmark).2 ?_) htext
        rw [heq]
        simp
      · rwa [heq, ← mem_trimmed hmark]
    · rwa [← mem_trimmed hmark]
  obtain ⟨s, rest, rfl⟩ := exists_cons_of_ne_nil hg
  obtain _ | ⟨s', rest⟩ := rest
  · rw [render, map_singleton, intercalate_singleton] at hout
    exact ⟨s, rfl, hout⟩
  · obtain ⟨c, hmem, hne, hc⟩ := render_word (cons_ne_nil s' rest)
    rw [render_cons_cons] at hout
    exact absurd (semicolon_mem_dropSemicolon hmem hne hc) hout

/-- The condition: the text mentions the words of a trigger, or no statement has a semicolon but at
its end. -/
def HoldsWhen (toUpperCase : List Char → List Char) (statements : List Statement)
    (tail : Option {blank : List Char // ∀ c ∈ blank, isTrimmed c}) : Prop :=
  mentionsTrigger (toUpperCase (migrationText statements tail)) ∨
    ∀ s ∈ statements, ';' ∉ dropSemicolon s.text

variable {toUpperCase : List Char → List Char}
  {tail : Option {blank : List Char // ∀ c ∈ blank, isTrimmed c}}

theorem migrationText_none (statements : List Statement) :
    migrationText statements none = render statements := by
  rw [migrationText, Option.map_none, Option.toList_none, append_nil, render]

theorem migrationText_some (h : statements ≠ [])
    (blank : {blank : List Char // ∀ c ∈ blank, isTrimmed c}) :
    migrationText statements (some blank) = render statements ++ ';' :: blank.val := by
  have happ (texts : List (List Char)) (hne : texts ≠ []) :
      [';'].intercalate (texts ++ [blank.val]) = [';'].intercalate texts ++ ';' :: blank.val := by
    induction texts with
    | nil => exact absurd rfl hne
    | cons text texts ih =>
      obtain _ | ⟨text', texts⟩ := texts
      · simp
      · rw [cons_append, cons_append, intercalate_cons_cons, ← cons_append,
          ih (cons_ne_nil _ _), intercalate_cons_cons, append_assoc,
          append_assoc, append_assoc]
  exact happ _ (by simpa using h)

theorem semicolon_of_executes
    (htrigger : ¬mentionsTrigger (toUpperCase (migrationText statements tail)))
    (h : Executes (execMulti toUpperCase (migrationText statements tail)) statements) :
    ∀ s ∈ statements, ';' ∉ dropSemicolon s.text := by
  obtain ⟨groups, hflatten, hne, hreads⟩ := h
  have hout : ∀ text ∈ execMulti toUpperCase (migrationText statements tail), ';' ∉ text := by
    intro text htext hmem
    rw [execMulti, if_neg htrigger] at htext
    obtain ⟨part, hpart, rfl⟩ := mem_map.1 (mem_of_mem_filter htext)
    exact PathText.notMem_of_mem_splitOn hpart ((mem_trimmed (by decide)).1 hmem)
  have hgroup : ∀ g ∈ groups, ∃ s, g = [s] ∧ ';' ∉ dropSemicolon s.text := by
    clear hflatten
    generalize execMulti toUpperCase (migrationText statements tail) = texts at hreads hout
    induction hreads with
    | nil => exact fun _ h => nomatch h
    | cons hread _ ih =>
      rw [forall_mem_cons] at hout ⊢
      rw [mem_cons, not_or] at hne
      exact ⟨eq_singleton_of_reads hout.1 (Ne.symm hne.1) hread, ih hne.2 hout.2⟩
  intro s hs
  obtain ⟨g, hg, hs⟩ := mem_flatten.1 (hflatten ▸ hs)
  obtain ⟨s', rfl, hs'⟩ := hgroup g hg
  exact mem_singleton.1 hs ▸ hs'

theorem executes_of_whole
    (htrigger : mentionsTrigger (toUpperCase (migrationText statements tail))) :
    Executes (execMulti toUpperCase (migrationText statements tail)) statements := by
  have hreads : Reads (trimmed (dropSemicolon (migrationText statements tail))) statements := by
    cases tail with
    | none => exact .inr (by rw [migrationText_none])
    | some blank =>
      by_cases hne : statements = []
      · subst hne
        have hmark : ';' ∉ blank.val := fun hmem => absurd (blank.2 _ hmem) (by decide)
        have htext : migrationText [] (some blank) = blank.val := intercalate_singleton
        obtain ⟨ws, heq, -⟩ | heq := dropSemicolon_cases blank.val
        · exact absurd (heq ▸ mem_append_right _ mem_cons_self) hmark
        · exact .inl (by rw [htext, heq, trimmed_of_blank blank.2]; rfl)
      · exact .inl (by rw [migrationText_some hne, dropSemicolon_append _ blank.2])
  rw [execMulti, if_pos htrigger]
  generalize trimmed (dropSemicolon (migrationText statements tail)) = clean at hreads ⊢
  dsimp only
  split_ifs with hclean
  · have hne : statements ≠ [] := fun h => ne_nil_of_length_pos hclean (hreads.eq_nil_iff.2 h)
    exact ⟨[statements], by simp, by simpa using Ne.symm hne, .cons hreads .nil⟩
  · have hnil := eq_nil_of_length_eq_zero (Nat.eq_zero_of_not_pos hclean)
    exact ⟨[], (hreads.eq_nil_iff.1 hnil).symm, not_mem_nil, .nil⟩

theorem executes_of_pieces
    (htrigger : ¬mentionsTrigger (toUpperCase (migrationText statements tail)))
    (h : ∀ s ∈ statements, ';' ∉ dropSemicolon s.text) :
    Executes (execMulti toUpperCase (migrationText statements tail)) statements := by
  have htexts : execMulti toUpperCase (migrationText statements tail) =
      statements.map fun s => trimmed (dropSemicolon s.text) := by
    have htail : ((tail.map Subtype.val).toList).flatMap pieces = [] := by
      cases tail with
      | none => rfl
      | some blank => exact (flatMap_singleton _ _).trans (pieces_of_blank blank.2)
    rw [execMulti, if_neg htrigger, ← pieces, migrationText, pieces_intercalate,
      flatMap_append, htail, append_nil, flatMap_map, map_eq_flatMap]
    exact flatMap_congr fun s hs => pieces_text (h s hs)
  refine ⟨statements.map ([·]), by rw [← flatMap_def, flatMap_singleton'], by simp, ?_⟩
  rw [htexts, forall₂_map_left_iff, forall₂_map_right_iff, forall₂_same]
  intro s _
  refine .inr ?_
  rw [render, map_singleton, intercalate_singleton]

/-- **When the texts that are handed over are the statements.** -/
theorem executes_iff : Executes (execMulti toUpperCase (migrationText statements tail)) statements ↔
      HoldsWhen toUpperCase statements tail := by
  by_cases htrigger : mentionsTrigger (toUpperCase (migrationText statements tail))
  · exact iff_of_true (executes_of_whole htrigger) (.inl htrigger)
  · rw [HoldsWhen, or_iff_right htrigger]
    exact ⟨semicolon_of_executes htrigger, executes_of_pieces htrigger⟩

/-! ### Runs -/

variable (throws : List Event → List Char → Bool)

theorem execAll_spec (texts : List (List Char)) (log : List Event) : ∃ done,
    done <+: texts ∧ (execAll throws texts log).1 = log ++ done.map Event.exec ∧
      ((execAll throws texts log).2 = true → done = texts) := by
  induction texts generalizing log with
  | nil => exact ⟨[], prefix_rfl, by simp [execAll], fun _ => rfl⟩
  | cons text texts ih =>
    rw [execAll]
    split_ifs with hthrows
    · exact ⟨[], nil_prefix, by simp, fun h => nomatch h⟩
    · obtain ⟨done, hprefix, hlog, hall⟩ := ih (log ++ [.exec text])
      exact ⟨text :: done, (prefix_cons_inj text).2 hprefix, by simp [hlog],
        fun h => congrArg _ (hall h)⟩

def recorded (toUpperCase : List Char → List Char) (m : MigrationConfig) : List Event :=
  (execMulti toUpperCase m.up).map Event.exec ++ [.setMeta m.version]

/-- **A run does the first migrations and records each**, then maybe a part of the next one. -/
theorem migrate_spec (pending : List MigrationConfig) (log : List Event) :
    ∃ done left part, pending = done ++ left ∧ migrate toUpperCase throws pending log =
        log ++ done.flatMap (recorded toUpperCase) ++ part.map Event.exec ∧
      ((left = [] ∧ part = []) ∨ ∃ m ∈ left.head?, part <+: execMulti toUpperCase m.up) := by
  induction pending generalizing log with
  | nil => exact ⟨[], [], [], rfl, by simp [migrate], .inl ⟨rfl, rfl⟩⟩
  | cons migration pending ih =>
    obtain ⟨texts, hprefix, hlog, hall⟩ :=
      execAll_spec throws (execMulti toUpperCase migration.up) log
    rw [migrate]
    generalize execAll throws (execMulti toUpperCase migration.up) log = result at hlog hall
    obtain ⟨log', ok⟩ := result
    cases ok with
    | true =>
      obtain ⟨done, left, part, rfl, hrun, hleft⟩ := ih (log' ++ [.setMeta migration.version])
      refine ⟨migration :: done, left, part, rfl, ?_, hleft⟩
      dsimp only at hlog ⊢
      rw [hrun, hlog, hall rfl]
      simp [recorded]
    | false =>
      exact ⟨[], migration :: pending, texts, rfl, by simpa using hlog,
        .inr ⟨migration, rfl, hprefix⟩⟩

/-- **The texts that are handed over are the statements exactly under the condition**, and a
version is recorded behind all the texts of its migration. -/
theorem migrations_iff (toUpperCase : List Char → List Char) : (∀ (statements : List Statement)
      (tail : Option {blank : List Char // ∀ c ∈ blank, isTrimmed c}),
      Executes (execMulti toUpperCase (migrationText statements tail)) statements ↔
        HoldsWhen toUpperCase statements tail) ∧
    ∀ (throws : List Event → List Char → Bool) (migrations : List MigrationConfig)
      (currentVersion : ℕ), ∃ (done left : List MigrationConfig) (part : List (List Char)),
        pendingMigrations migrations currentVersion = done ++ left ∧
        runMigrations toUpperCase throws migrations currentVersion =
          done.flatMap (recorded toUpperCase) ++ part.map Event.exec ∧ ((left = [] ∧ part = []) ∨
          ∃ m ∈ left.head?, part <+: execMulti toUpperCase m.up) := by
  refine ⟨fun _ _ => executes_iff, fun throws migrations currentVersion => ?_⟩
  obtain ⟨done, left, part, hpending, hrun, hleft⟩ :=
    migrate_spec throws (pendingMigrations migrations currentVersion) []
  exact ⟨done, left, part, hpending, hrun, hleft⟩

/-! ### A semicolon in a literal -/

/-- `SELECT ';'`. -/
def selectSemicolon : Statement :=
  ⟨[.code ['S', 'E', 'L', 'E', 'C', 'T', ' '] (by decide), .literal [';']], 'S', by decide⟩

/-- The two halves of the literal are handed over. -/
theorem selectSemicolon_not_executed :
    execMulti (List.map Char.toUpper) (migrationText [selectSemicolon] none) =
        [['S', 'E', 'L', 'E', 'C', 'T', ' ', '\''], ['\'']] ∧
      ¬Executes (execMulti (List.map Char.toUpper) (migrationText [selectSemicolon] none))
        [selectSemicolon] := by
  refine ⟨by decide, fun h => ?_⟩
  have hinside := semicolon_of_executes (by decide) h selectSemicolon mem_cons_self
  exact hinside (by decide)

end EdgeBase.MultiStatement
