import EdgeBase.RelatedSearch

/-!
# The authority of related search

A source row may be found only if its target and every row of the chain of parents above that
satisfy the predicates of the relation, and the chain carries the authority that the relation asks
for.  The recursive query follows the chain while the parent type is known, and refuses it where a
predicate fails; it does neither where a null makes that unknown.  `Related.sound_iff` says exactly
when the constraint lets no other row through.

The query finds the rows of the trails that its steps admit (`mem_ancestryRows`), and a chain that
does not overflow is followed to its end (`walk_of_follows`).
-/

namespace EdgeBase

open List Truth

namespace Related

variable (dialect : SqlDialect) (db : Database) (relation : SearchRelatedRelation)
  (ancestry : SearchRelatedAncestry) (source : Row)

/-! ### What the constraint is for -/

def Satisfies (row : Row) (w : SearchRelatedWhere) : Prop :=
  match w.operator with
  | .eq v => column row w.field ≠ .null ∧ column row w.field = bindValue dialect v
  | .isIn vs => column row w.field ≠ .null ∧ ∃ v ∈ vs, column row w.field = bindValue dialect v
  | .isNotTrue => column row w.field ≠ bindValue dialect (.bool true)

/-- A row is the target of the source row, and all predicates on the target are true of it. -/
def Target (target : Row) : Prop :=
  target ∈ db.rows relation.table ∧ column target "id" ≠ .null ∧
    column target "id" = column source relation.localField ∧
    ∀ w ∈ relation.whereAll, Satisfies dialect target w

/-- A row is the parent of another one, which is not at the end of its chain: it names a parent and
its parent is not of the type to stop at. -/
def Parent (row parent : Row) : Prop :=
  parent ∈ db.rows relation.table ∧ column parent "id" ≠ .null ∧
    column parent "id" = column row ancestry.parentField ∧
    db.text (column row ancestry.parentField) ≠ "" ∧
    column row ancestry.parentTypeField ≠ .str ancestry.stopParentType

/-- A part of the chain of parents of the target, the last parent first. -/
def Chain : List Row → Prop :=
  Trail (Target dialect db relation source) fun p parent =>
    ∃ row ∈ p.head?, Parent db relation ancestry row parent

/-- A grant is for a row, and matches a principal branch. -/
def GrantsTo (g : SearchRelatedGrantSource) (grant row : Row) : Prop :=
  (column grant g.ancestorField ≠ .null ∧ column grant g.ancestorField = column row "id") ∧
    (∀ w ∈ g.whereAll, Satisfies dialect grant w) ∧
    ∃ branch ∈ g.principalAny, (∀ w ∈ branch.whereAll, Satisfies dialect grant w) ∧
      ∀ membership ∈ branch.groupMembership, ∃ member ∈ db.rows membership.table,
        (column member membership.membershipGroupField ≠ .null ∧
          column member membership.membershipGroupField =
            column grant membership.grantPrincipalField) ∧
        ∀ w ∈ membership.whereAll, Satisfies dialect member w

/-- Some row of a set carries each authority that the ancestry asks for. -/
def Carries (rows : Row → Prop) : Prop :=
  (∀ ids ∈ ancestry.requiredAncestorIds, ∃ row, rows row ∧
    column row "id" ≠ .null ∧ db.text (column row "id") ∈ ids) ∧
  ∀ g ∈ ancestry.grantSource, ∃ grant ∈ db.rows g.table, ∃ row, rows row ∧
    GrantsTo dialect db g grant row

/-- The source row may be seen. -/
structure Authorised : Prop where
  target : ∃ target, Target dialect db relation source target
  predicates : ∀ row p, Chain dialect db relation ancestry source (row :: p) →
    ∀ w ∈ ancestry.whereAll, Satisfies dialect row w
  acyclic : ∀ row p, Chain dialect db relation ancestry source (row :: p) →
    ¬Relation.TransGen (Parent db relation ancestry) row row
  bounded : ∀ row p, Chain dialect db relation ancestry source (row :: p) →
    p.length ≤ ancestry.maxDepth
  authority : Carries dialect db ancestry fun row =>
    ∃ p, Chain dialect db relation ancestry source (row :: p)

/-- The constraint lets a source row through only if it may be seen. -/
def Sound : Prop :=
  compileRelatedSearchConstraint dialect db { relation with ancestry := some ancestry } source =
    .ok true → Authorised dialect db relation ancestry source

/-! ### What the query does -/

/-- A parent that the query follows: the parent type is known. -/
def Follows (row parent : Row) : Prop :=
  Parent db relation ancestry row parent ∧ column row ancestry.parentTypeField ≠ .null

def Followed : List Row → Prop :=
  Trail (Target dialect db relation source) fun p parent =>
    ∃ row ∈ p.head?, Follows db relation ancestry row parent

/-- A row is on a path already, as far as the text of its id tells. -/
def Visited (p : List Row) (parent : Row) : Prop :=
  db.text (column parent "id") ∈ p.map fun row => db.text (column row "id")

/-- The query passes the followed chain: no predicate fails on it, it ends in time and carries the
authority that the relation asks for. -/
structure Passes : Prop where
  asks : ¬(ancestry.requiredAncestorIds.isNone ∧ ancestry.grantSource.isNone)
  target : ∃ target, Target dialect db relation source target
  predicates : ∀ row p, Followed dialect db relation ancestry source (row :: p) →
    ∀ chained ∈ db.rows relation.table, column chained "id" = column row "id" →
      ∀ w ∈ ancestry.whereAll, ¬(compileRelatedWhere dialect chained w).fails
  ends : ∀ row p parent, Followed dialect db relation ancestry source (row :: p) →
    Follows db relation ancestry row parent →
      p.length < ancestry.maxDepth ∧ ¬Visited db (row :: p) parent
  authority : Carries dialect db ancestry fun row =>
    ∃ p, Followed dialect db relation ancestry source (row :: p)

/-- No null hides anything: no predicate is unknown on the followed chain, and what is above a
parent of unknown type is as it should be. -/
structure Known : Prop where
  predicates : ∀ row p, Followed dialect db relation ancestry source (row :: p) →
    ∀ w ∈ ancestry.whereAll, compileRelatedWhere dialect row w ≠ .unknown
  beyond : ∀ row p, Chain dialect db relation ancestry source (row :: p) →
    ¬Followed dialect db relation ancestry source (row :: p) →
      (∀ w ∈ ancestry.whereAll, Satisfies dialect row w) ∧ p.length ≤ ancestry.maxDepth

section

variable {dialect : SqlDialect} {db : Database} {relation : SearchRelatedRelation}
  {ancestry : SearchRelatedAncestry} {source : Row}

/-! ### Conditions -/

theorem holds_sqlEq {a b : Json} : (sqlEq a b).holds ↔ a ≠ .null ∧ a = b := by
  unfold sqlEq
  split
  · rename_i hnull
    refine ⟨fun h => by simp [Truth.holds] at h, ?_⟩
    rintro ⟨ha, rfl⟩
    exact absurd (or_self_iff.1 hnull) ha
  · rename_i hnull
    push Not at hnull
    simp [hnull.1]

theorem fails_sqlEq {a b : Json} : (sqlEq a b).fails ↔ a ≠ .null ∧ b ≠ .null ∧ a ≠ b := by
  unfold sqlEq
  split
  · rename_i hnull
    refine ⟨fun h => by simp [Truth.fails] at h, ?_⟩
    rintro ⟨ha, hb, -⟩
    exact absurd hnull (by simp [ha, hb])
  · rename_i hnull
    push Not at hnull
    simp [hnull.1, hnull.2]

theorem holds_isNotNull {a : Json} : (isNotNull a).holds ↔ a ≠ .null := by
  simp [isNotNull]

theorem holds_compileRelatedWhere {row : Row} {w : SearchRelatedWhere} :
    (compileRelatedWhere dialect row w).holds ↔ Satisfies dialect row w := by
  unfold compileRelatedWhere Satisfies
  cases w.operator with
  | eq v => exact holds_sqlEq
  | isIn vs =>
    simp only [holds_any, mem_map, exists_exists_and_eq_and, holds_sqlEq]
    exact ⟨fun ⟨v, hv, hnull, heq⟩ => ⟨hnull, v, hv, heq⟩,
      fun ⟨hnull, v, hv, heq⟩ => ⟨v, hv, hnull, heq⟩⟩
  | isNotTrue => simp

theorem holds_compileRelatedWhereAll {row : Row} {whereAll : List SearchRelatedWhere} :
    (compileRelatedWhereAll dialect whereAll row).holds ↔
      ∀ w ∈ whereAll, Satisfies dialect row w := by
  rw [compileRelatedWhereAll, holds_all, forall_mem_map]
  exact forall₂_congr fun w _ => holds_compileRelatedWhere

theorem fails_compileRelatedWhereAll {row : Row} {whereAll : List SearchRelatedWhere} :
    (compileRelatedWhereAll dialect whereAll row).fails ↔
      ∃ w ∈ whereAll, (compileRelatedWhere dialect row w).fails := by
  simp only [compileRelatedWhereAll, fails_all, mem_map, exists_exists_and_eq_and]

theorem castText_of_ne_null {v : Json} (h : v ≠ .null) : db.castText v = .str (db.text v) :=
  if_neg h

theorem isTarget_iff {target : Row} :
    target ∈ db.rows relation.table ∧ (isTarget dialect relation source target).holds ↔
      Target dialect db relation source target := by
  rw [isTarget, holds_and, Bool.and_eq_true, holds_sqlEq, holds_compileRelatedWhereAll,
    Target, and_assoc]

/-! ### The rows of the recursive query -/

def rowOf (db : Database) (ancestry : SearchRelatedAncestry) (row : Row) (p : List Row) :
    AncestryRow where
  id := column row "id"
  parentId := column row ancestry.parentField
  parentType := column row ancestry.parentTypeField
  depth := p.length
  path := ((row :: p).map fun r => db.castText (column r "id")).reverse

theorem extendRow_rowOf (row parent : Row) (p : List Row) :
    extendRow db ancestry (rowOf db ancestry row p) parent =
      rowOf db ancestry parent (row :: p) := by
  simp [extendRow, rowOf]

/-- A chain, as far as the steps of the query admit it. -/
def Walk (dialect : SqlDialect) (db : Database) (relation : SearchRelatedRelation)
    (ancestry : SearchRelatedAncestry) (source : Row) : List Row → Prop :=
  Trail (Target dialect db relation source) fun p parent =>
    ∃ row ∈ p.head?, Follows db relation ancestry row parent ∧ p.length ≤ ancestry.maxDepth ∧
      ¬Visited db p parent

theorem Walk.id_ne_null {p : List Row} (h : Walk dialect db relation ancestry source p) :
    ∀ row ∈ p, column row "id" ≠ .null := by
  induction h with
  | first ht => exact forall_mem_singleton.2 ht.2.1
  | next hp hb ih =>
    obtain ⟨row, -, hfollows, -, -⟩ := hb
    exact forall_mem_cons.2 ⟨hfollows.1.2.1, ih⟩

theorem continues_iff {row parent : Row} {p : List Row} : parent ∈ db.rows relation.table ∧
        (continues db ancestry (rowOf db ancestry row p) parent).holds ↔
      Follows db relation ancestry row parent := by
  rw [continues, holds_all]
  simp only [forall_mem_cons, not_mem_nil, false_imp_iff, implies_true, and_true,
    holds_sqlEq, holds_isNotNull, sqlNe, holds_not, fails_sqlEq, rowOf, Follows, Parent]
  constructor
  · rintro ⟨hmem, ⟨hid, heq⟩, hparent, ⟨-, -, htext⟩, htype, -, hstop⟩
    rw [castText_of_ne_null hparent] at htext
    exact ⟨⟨hmem, hid, heq, fun h => htext (congrArg Json.str h), hstop⟩, htype⟩
  · rintro ⟨⟨hmem, hid, heq, htext, hstop⟩, htype⟩
    have hparent : column row ancestry.parentField ≠ .null := heq ▸ hid
    rw [castText_of_ne_null hparent]
    exact ⟨hmem, ⟨hid, heq⟩, hparent, ⟨nofun, nofun, fun h => htext (Json.str.inj h)⟩,
      htype, nofun, hstop⟩

theorem alreadyVisited_iff {row parent : Row} {p : List Row}
    (hids : ∀ r ∈ row :: p, column r "id" ≠ .null) (hparent : column parent "id" ≠ .null) :
    ((alreadyVisited dialect db (column parent "id") (rowOf db ancestry row p).path).holds ↔
        Visited db (row :: p) parent) ∧
      ((alreadyVisited dialect db (column parent "id") (rowOf db ancestry row p).path).fails ↔
        ¬Visited db (row :: p) parent) := by
  have hholds : ∀ r ∈ row :: p,
      ((sqlEq (db.castText (column parent "id")) (db.castText (column r "id"))).holds ↔
        db.text (column r "id") = db.text (column parent "id")) := by
    intro r hr
    rw [castText_of_ne_null hparent, castText_of_ne_null (hids r hr), holds_sqlEq]
    exact ⟨fun h => (Json.str.inj h.2).symm, fun h => ⟨nofun, congrArg Json.str h.symm⟩⟩
  have hfails : ∀ r ∈ row :: p,
      ((sqlEq (db.castText (column parent "id")) (db.castText (column r "id"))).fails ↔
        ¬db.text (column r "id") = db.text (column parent "id")) := by
    intro r hr
    rw [castText_of_ne_null hparent, castText_of_ne_null (hids r hr), fails_sqlEq]
    exact ⟨fun h heq => h.2.2 (congrArg Json.str heq.symm),
      fun h => ⟨nofun, nofun, fun heq => h (Json.str.inj heq).symm⟩⟩
  have hsome : (∃ t ∈ (rowOf db ancestry row p).path.map (sqlEq (db.castText (column parent "id"))),
      t.holds) ↔ Visited db (row :: p) parent := by
    rw [Visited, mem_map]
    simp only [rowOf, mem_map, mem_reverse, exists_exists_and_eq_and]
    exact exists_congr fun r => and_congr_right (hholds r)
  have hall : (∀ t ∈ (rowOf db ancestry row p).path.map (sqlEq (db.castText (column parent "id"))),
      t.fails) ↔ ¬Visited db (row :: p) parent := by
    rw [Visited, mem_map, not_exists]
    simp only [rowOf, forall_mem_map, mem_reverse, not_and]
    exact forall₂_congr hfails
  unfold alreadyVisited
  cases dialect with
  | postgres => exact ⟨holds_any.trans hsome, fails_any.trans hall⟩
  | sqlite =>
    dsimp only
    rw [holds_ofBool, fails_ofBool, Bool.not_eq_true', ← Bool.not_eq_true,
      any_eq_true, hsome]
    exact ⟨Iff.rfl, Iff.rfl⟩

theorem mem_ancestryStep {row : Row} {p : List Row}
    (hwalk : Walk dialect db relation ancestry source (row :: p)) {next : AncestryRow} :
    next ∈ ancestryStep dialect db relation ancestry (rowOf db ancestry row p) ↔
      ∃ parent, Walk dialect db relation ancestry source (parent :: row :: p) ∧
        next = rowOf db ancestry parent (row :: p) := by
  rw [ancestryStep, mem_map]
  constructor
  · rintro ⟨parent, hparent, rfl⟩
    rw [mem_filter, holds_and, holds_and, holds_ofBool, holds_not,
      Bool.and_eq_true, Bool.and_eq_true, decide_eq_true_iff] at hparent
    obtain ⟨hmem, ⟨hcontinues, hdepth⟩, hnew⟩ := hparent
    have hfollows := continues_iff.1 ⟨hmem, hcontinues⟩
    have hvisited := (alreadyVisited_iff hwalk.id_ne_null hfollows.1.2.1).2.1 hnew
    exact ⟨parent, .next hwalk ⟨row, rfl, hfollows, hdepth, hvisited⟩, extendRow_rowOf row parent p⟩
  · rintro ⟨parent, hnext, rfl⟩
    cases hnext with
    | next _ hadmits =>
      obtain ⟨r, hr, hfollows, hdepth, hvisited⟩ := hadmits
      obtain rfl : row = r := Option.some.inj hr
      refine ⟨parent, ?_, extendRow_rowOf row parent p⟩
      rw [mem_filter, holds_and, holds_and, holds_ofBool, holds_not,
        Bool.and_eq_true, Bool.and_eq_true, decide_eq_true_iff]
      exact ⟨hfollows.1.1, ⟨(continues_iff.2 hfollows).2, hdepth⟩,
        (alreadyVisited_iff hwalk.id_ne_null hfollows.1.2.1).2.2 hvisited⟩

theorem mem_ancestryRows {a : AncestryRow} : a ∈ ancestryRows dialect db relation ancestry source ↔
      ∃ row p, Walk dialect db relation ancestry source (row :: p) ∧ a = rowOf db ancestry row p := by
  have hstep : ∀ a b, b ∈ ancestryStep dialect db relation ancestry a →
      b.depth = a.depth + 1 ∧ b.depth ≤ ancestry.maxDepth := by
    intro a b hb
    obtain ⟨parent, hparent, rfl⟩ := mem_map.1 hb
    have hcond := (mem_filter.1 hparent).2
    rw [holds_and, holds_and, holds_ofBool, Bool.and_eq_true, Bool.and_eq_true,
      decide_eq_true_iff] at hcond
    exact ⟨rfl, hcond.1.2⟩
  have hbase : ∀ a ∈ ((db.rows relation.table).filter fun target =>
      (isTarget dialect relation source target).holds).map (initialRow db ancestry),
      a.depth = 0 ∧ a.depth ≤ ancestry.maxDepth := by
    intro a ha
    obtain ⟨target, -, rfl⟩ := mem_map.1 ha
    exact ⟨rfl, Nat.zero_le _⟩
  rw [ancestryRows, mem_recursive_iff hstep hbase (by omega)]
  constructor
  · rintro ⟨first, hfirst, hreach⟩
    obtain ⟨target, htarget, rfl⟩ := mem_map.1 hfirst
    induction hreach with
    | refl => exact ⟨target, [], .first (isTarget_iff.1 (mem_filter.1 htarget)), rfl⟩
    | tail _ hnext ih =>
      obtain ⟨row, p, hwalk, rfl⟩ := ih
      obtain ⟨parent, hparent, rfl⟩ := (mem_ancestryStep hwalk).1 hnext
      exact ⟨parent, row :: p, hparent, rfl⟩
  · rintro ⟨row, p, hwalk, rfl⟩
    induction p generalizing row with
    | nil =>
      cases hwalk with
      | first htarget =>
        exact ⟨_, mem_map.2 ⟨row, mem_filter.2 (isTarget_iff.2 htarget), rfl⟩, .refl⟩
    | cons child p ih =>
      cases hwalk with
      | next hchild hadmits =>
        obtain ⟨first, hfirst, hreach⟩ := ih child hchild
        exact ⟨first, hfirst, hreach.tail
          ((mem_ancestryStep hchild).2 ⟨row, .next hchild hadmits, rfl⟩)⟩

/-! ### What the constraint says -/

theorem Walk.head_ne_null {row : Row} {p : List Row}
    (h : Walk dialect db relation ancestry source (row :: p)) : column row "id" ≠ .null :=
  h.id_ne_null row (mem_cons_self ..)

theorem refusesRow_iff :
    refusesRow dialect db relation ancestry (ancestryRows dialect db relation ancestry source) ↔
      ∃ row p, Walk dialect db relation ancestry source (row :: p) ∧
        ∃ chained ∈ db.rows relation.table, column chained "id" = column row "id" ∧
          ∃ w ∈ ancestry.whereAll, (compileRelatedWhere dialect chained w).fails := by
  rw [refusesRow, any_eq_true]
  constructor
  · rintro ⟨a, ha, hrefuses⟩
    obtain ⟨row, p, hwalk, rfl⟩ := mem_ancestryRows.1 ha
    obtain ⟨chained, hmem, hfails⟩ := any_eq_true.1 hrefuses
    rw [holds_and, holds_not, Bool.and_eq_true, holds_sqlEq,
      fails_compileRelatedWhereAll] at hfails
    exact ⟨row, p, hwalk, chained, hmem, hfails.1.2, hfails.2⟩
  · rintro ⟨row, p, hwalk, chained, hmem, hid, hfails⟩
    refine ⟨_, mem_ancestryRows.2 ⟨row, p, hwalk, rfl⟩, any_eq_true.2 ⟨chained, hmem, ?_⟩⟩
    rw [holds_and, holds_not, Bool.and_eq_true, holds_sqlEq,
      fails_compileRelatedWhereAll]
    exact ⟨⟨hid ▸ hwalk.head_ne_null, hid⟩, hfails⟩

theorem overflows_iff :
    overflows dialect db relation ancestry (ancestryRows dialect db relation ancestry source) ↔
      ∃ row p parent, Walk dialect db relation ancestry source (row :: p) ∧
        Follows db relation ancestry row parent ∧
          (p.length ≥ ancestry.maxDepth ∨ Visited db (row :: p) parent) := by
  rw [overflows, any_eq_true]
  constructor
  · rintro ⟨a, ha, hoverflows⟩
    obtain ⟨row, p, hwalk, rfl⟩ := mem_ancestryRows.1 ha
    obtain ⟨parent, hmem, hnext⟩ := any_eq_true.1 hoverflows
    rw [holds_and, holds_or, holds_ofBool, Bool.and_eq_true, Bool.or_eq_true,
      decide_eq_true_iff] at hnext
    obtain ⟨hcontinues, hend⟩ := hnext
    have hfollows := continues_iff.1 ⟨hmem, hcontinues⟩
    rw [(alreadyVisited_iff hwalk.id_ne_null hfollows.1.2.1).1] at hend
    exact ⟨row, p, parent, hwalk, hfollows, hend⟩
  · rintro ⟨row, p, parent, hwalk, hfollows, hend⟩
    refine ⟨_, mem_ancestryRows.2 ⟨row, p, hwalk, rfl⟩,
      any_eq_true.2 ⟨parent, hfollows.1.1, ?_⟩⟩
    rw [holds_and, holds_or, holds_ofBool, Bool.and_eq_true, Bool.or_eq_true,
      decide_eq_true_iff, (alreadyVisited_iff hwalk.id_ne_null hfollows.1.2.1).1]
    exact ⟨(continues_iff.2 hfollows).2, hend⟩

theorem hasRequiredAncestor_iff {ids : List String} :
    hasRequiredAncestor db (ancestryRows dialect db relation ancestry source) ids ↔
      ∃ row, (∃ p, Walk dialect db relation ancestry source (row :: p)) ∧
        column row "id" ≠ .null ∧ db.text (column row "id") ∈ ids := by
  rw [hasRequiredAncestor, any_eq_true]
  simp only [holds_any, mem_map, exists_exists_and_eq_and, holds_sqlEq]
  constructor
  · rintro ⟨a, ha, id, hid, -, htext⟩
    obtain ⟨row, p, hwalk, rfl⟩ := mem_ancestryRows.1 ha
    have htext' : db.castText (column row "id") = .str id := htext
    rw [castText_of_ne_null hwalk.head_ne_null] at htext'
    exact ⟨row, ⟨p, hwalk⟩, hwalk.head_ne_null, Json.str.inj htext' ▸ hid⟩
  · rintro ⟨row, ⟨p, hwalk⟩, hnull, hid⟩
    have htext : db.castText (column row "id") = .str (db.text (column row "id")) :=
      castText_of_ne_null hnull
    exact ⟨_, mem_ancestryRows.2 ⟨row, p, hwalk, rfl⟩, _, hid, htext ▸ nofun, htext⟩

theorem holds_isMember {grant : Row} {membership : SearchRelatedGroupMembership} :
    (isMember dialect db grant membership).holds ↔ ∃ member ∈ db.rows membership.table,
      (column member membership.membershipGroupField ≠ .null ∧
        column member membership.membershipGroupField =
          column grant membership.grantPrincipalField) ∧
      ∀ w ∈ membership.whereAll, Satisfies dialect member w := by
  rw [isMember, holds_ofBool, any_eq_true]
  simp only [holds_and, Bool.and_eq_true, holds_sqlEq, holds_compileRelatedWhereAll]

theorem holds_grantApplies {g : SearchRelatedGrantSource} {grant row : Row} :
    (grantApplies dialect db g grant (column row "id")).holds ↔ GrantsTo dialect db g grant row := by
  rw [grantApplies, holds_and, holds_and, Bool.and_eq_true, Bool.and_eq_true,
    holds_sqlEq, holds_compileRelatedWhereAll, holds_any, GrantsTo, and_assoc]
  simp only [mem_map, exists_exists_and_eq_and]
  refine and_congr_right fun _ => and_congr_right fun _ => exists_congr fun branch =>
    and_congr_right fun _ => ?_
  rw [principalBranch, holds_and, Bool.and_eq_true, holds_compileRelatedWhereAll]
  refine and_congr_right fun _ => ?_
  cases branch.groupMembership with
  | none => simp [Truth.holds]
  | some membership => simpa using holds_isMember

theorem hasGrant_iff {g : SearchRelatedGrantSource} :
    hasGrant dialect db (ancestryRows dialect db relation ancestry source) g ↔
      ∃ grant ∈ db.rows g.table, ∃ row, (∃ p, Walk dialect db relation ancestry source (row :: p)) ∧
          GrantsTo dialect db g grant row := by
  rw [hasGrant, any_eq_true]
  refine exists_congr fun grant => and_congr_right fun _ => ?_
  rw [any_eq_true]
  constructor
  · rintro ⟨a, ha, hgrant⟩
    obtain ⟨row, p, hwalk, rfl⟩ := mem_ancestryRows.1 ha
    exact ⟨row, ⟨p, hwalk⟩, holds_grantApplies.1 hgrant⟩
  · rintro ⟨row, ⟨p, hwalk⟩, hgrant⟩
    exact ⟨_, mem_ancestryRows.2 ⟨row, p, hwalk, rfl⟩, holds_grantApplies.2 hgrant⟩

theorem authorityClauses_iff : (authorityClauses dialect db ancestry
        (ancestryRows dialect db relation ancestry source)).all id ↔
      Carries dialect db ancestry fun row =>
        ∃ p, Walk dialect db relation ancestry source (row :: p) := by
  rw [authorityClauses, all_append, Bool.and_eq_true, Carries]
  refine and_congr ?_ ?_
  · cases ancestry.requiredAncestorIds with
    | none => simp
    | some ids => simpa using hasRequiredAncestor_iff
  · cases ancestry.grantSource with
    | none => simp
    | some g => simpa using hasGrant_iff

/-! ### Walks that do not overflow -/

theorem followed_of_walk {p : List Row} (h : Walk dialect db relation ancestry source p) :
    Followed dialect db relation ancestry source p :=
  h.mono fun _ _ ⟨row, hrow, hfollows, _⟩ => ⟨row, hrow, hfollows⟩

theorem walk_of_followed
    (hends : ∀ row p parent, Walk dialect db relation ancestry source (row :: p) →
      Follows db relation ancestry row parent →
        p.length < ancestry.maxDepth ∧ ¬Visited db (row :: p) parent)
    {p : List Row} (h : Followed dialect db relation ancestry source p) :
    Walk dialect db relation ancestry source p := by
  induction h with
  | first htarget => exact .first htarget
  | @next row parent p hp hadmits ih =>
    obtain ⟨r, hr, hfollows⟩ := hadmits
    obtain rfl : row = r := Option.some.inj hr
    obtain ⟨hdepth, hvisited⟩ := hends row p parent ih hfollows
    exact .next ih ⟨row, rfl, hfollows, hdepth, hvisited⟩

theorem Carries.mono {rows rows' : Row → Prop} (h : ∀ row, rows row → rows' row)
    (hrows : Carries dialect db ancestry rows) : Carries dialect db ancestry rows' := by
  obtain ⟨hrequired, hgrant⟩ := hrows
  refine ⟨fun ids hids => ?_, fun g hg => ?_⟩
  · obtain ⟨row, hrow, hid⟩ := hrequired ids hids
    exact ⟨row, h row hrow, hid⟩
  · obtain ⟨grant, hgrantMem, row, hrow, hgrants⟩ := hgrant g hg
    exact ⟨grant, hgrantMem, row, h row hrow, hgrants⟩

theorem passes_of_ancestryHolds
    (hasks : ¬(ancestry.requiredAncestorIds.isNone ∧ ancestry.grantSource.isNone))
    (h : ancestryHolds dialect db relation ancestry source) :
    Passes dialect db relation ancestry source := by
  simp only [ancestryHolds, Bool.and_eq_true, Bool.not_eq_true', ← Bool.not_eq_true,
    refusesRow_iff, overflows_iff, authorityClauses_iff, List.isEmpty_iff] at h
  obtain ⟨⟨⟨hnonempty, hrefuses⟩, hoverflows⟩, hauthority⟩ := h
  have hends : ∀ row p parent, Walk dialect db relation ancestry source (row :: p) →
      Follows db relation ancestry row parent →
        p.length < ancestry.maxDepth ∧ ¬Visited db (row :: p) parent := by
    intro row p parent hwalk hfollows
    by_contra hend
    rw [not_and_or, not_not, not_lt] at hend
    exact hoverflows ⟨row, p, parent, hwalk, hfollows, hend⟩
  obtain ⟨a, ha⟩ := exists_mem_of_ne_nil _ hnonempty
  obtain ⟨row, p, hwalk, -⟩ := mem_ancestryRows.1 ha
  refine ⟨hasks, hwalk.exists_start, ?_, ?_, ?_⟩
  · intro row p hfollowed chained hmem hid w hw hfails
    exact hrefuses ⟨row, p, walk_of_followed hends hfollowed, chained, hmem, hid, w, hw, hfails⟩
  · intro row p parent hfollowed hfollows
    exact hends row p parent (walk_of_followed hends hfollowed) hfollows
  · exact hauthority.mono fun row ⟨p, hwalk⟩ => ⟨p, followed_of_walk hwalk⟩

theorem ancestryHolds_of_passes (h : Passes dialect db relation ancestry source) :
    ancestryHolds dialect db relation ancestry source := by
  have hends : ∀ row p parent, Walk dialect db relation ancestry source (row :: p) →
      Follows db relation ancestry row parent →
        p.length < ancestry.maxDepth ∧ ¬Visited db (row :: p) parent :=
    fun row p parent hwalk => h.ends row p parent (followed_of_walk hwalk)
  simp only [ancestryHolds, Bool.and_eq_true, Bool.not_eq_true', ← Bool.not_eq_true,
    refusesRow_iff, overflows_iff, authorityClauses_iff, List.isEmpty_iff]
  refine ⟨⟨⟨?_, ?_⟩, ?_⟩, ?_⟩
  · obtain ⟨target, htarget⟩ := h.target
    exact ne_nil_of_mem (mem_ancestryRows.2 ⟨target, [], .first htarget, rfl⟩)
  · rintro ⟨row, p, hwalk, chained, hmem, hid, w, hw, hfails⟩
    exact h.predicates row p (followed_of_walk hwalk) chained hmem hid w hw hfails
  · rintro ⟨row, p, parent, hwalk, hfollows, hend⟩
    obtain ⟨hdepth, hvisited⟩ := hends row p parent hwalk hfollows
    exact hend.elim (fun hle => absurd hdepth (not_lt.2 hle)) hvisited
  · exact h.authority.mono fun row ⟨p, hfollowed⟩ => ⟨p, walk_of_followed hends hfollowed⟩

theorem compile_eq_ok_true_iff :
    compileRelatedSearchConstraint dialect db { relation with ancestry := some ancestry } source =
      .ok true ↔ Passes dialect db relation ancestry source := by
  have hcompile : compileRelatedSearchConstraint dialect db
      { relation with ancestry := some ancestry } source =
        if ancestry.requiredAncestorIds.isNone ∧ ancestry.grantSource.isNone then
          .error "Related search ancestry requires at least one authority constraint."
        else .ok (ancestryHolds dialect db relation ancestry source) := rfl
  rw [hcompile]
  split
  · rename_i hnone
    exact ⟨nofun, fun h => absurd hnone h.asks⟩
  · rename_i hasks
    exact ⟨fun h => passes_of_ancestryHolds hasks (Except.ok.inj h),
      fun h => congrArg Except.ok (ancestryHolds_of_passes h)⟩

/-! ### The theorem -/

theorem chain_of_followed {p : List Row} (h : Followed dialect db relation ancestry source p) :
    Chain dialect db relation ancestry source p :=
  h.mono fun _ _ ⟨row, hrow, hfollows⟩ => ⟨row, hrow, hfollows.1⟩

theorem Chain.mem_rows {row : Row} {p : List Row}
    (h : Chain dialect db relation ancestry source (row :: p)) : row ∈ db.rows relation.table := by
  cases h with
  | first htarget => exact htarget.1
  | next _ hadmits =>
    obtain ⟨_, -, hparent⟩ := hadmits
    exact hparent.1

theorem Chain.extend {row row' : Row} {p : List Row}
    (h : Chain dialect db relation ancestry source (row :: p))
    (hreach : Relation.TransGen (Parent db relation ancestry) row row') :
    ∃ q, Chain dialect db relation ancestry source (row' :: q) ∧ p.length < q.length := by
  induction hreach with
  | single hparent => exact ⟨row :: p, .next h ⟨row, rfl, hparent⟩, Nat.lt_succ_self _⟩
  | tail _ hparent ih =>
    obtain ⟨q, hq, hlt⟩ := ih
    exact ⟨_ :: q, .next hq ⟨_, rfl, hparent⟩, Nat.lt_succ_of_lt hlt⟩

theorem acyclic_of_bounded
    (hbounded : ∀ row p, Chain dialect db relation ancestry source (row :: p) →
      p.length ≤ ancestry.maxDepth) {row : Row} {p : List Row}
    (h : Chain dialect db relation ancestry source (row :: p)) :
    ¬Relation.TransGen (Parent db relation ancestry) row row := by
  intro hcycle
  have hlong : ∀ n, ∃ q, Chain dialect db relation ancestry source (row :: q) ∧ n ≤ q.length := by
    intro n
    induction n with
    | zero => exact ⟨p, h, Nat.zero_le _⟩
    | succ n ih =>
      obtain ⟨q, hq, hle⟩ := ih
      obtain ⟨q', hq', hlt⟩ := Chain.extend hq hcycle
      exact ⟨q', hq', by omega⟩
  obtain ⟨q, hq, hle⟩ := hlong (ancestry.maxDepth + 1)
  have := hbounded row q hq
  omega

theorem Passes.length_le (h : Passes dialect db relation ancestry source) {row : Row}
    {p : List Row} (hfollowed : Followed dialect db relation ancestry source (row :: p)) :
    p.length ≤ ancestry.maxDepth := by
  cases hfollowed with
  | first _ => exact Nat.zero_le _
  | @next child _ p hchild hadmits =>
    obtain ⟨r, hr, hfollows⟩ := hadmits
    obtain rfl : child = r := Option.some.inj hr
    exact (h.ends child p row hchild hfollows).1

theorem Passes.satisfies (h : Passes dialect db relation ancestry source)
    (hknown : Known dialect db relation ancestry source) {row : Row} {p : List Row}
    (hfollowed : Followed dialect db relation ancestry source (row :: p)) :
    ∀ w ∈ ancestry.whereAll, Satisfies dialect row w := by
  intro w hw
  have hmem := (chain_of_followed hfollowed).mem_rows
  have hfails := h.predicates row p hfollowed row hmem rfl w hw
  exact holds_compileRelatedWhere.1
    (holds_iff.2 ⟨hfails, hknown.predicates row p hfollowed w hw⟩)

/-- The constraint is sound for a source row exactly when it does not pass the followed chain, or no
null hides anything from it. -/
theorem sound_iff (dialect : SqlDialect) (db : Database) (relation : SearchRelatedRelation)
    (ancestry : SearchRelatedAncestry) (source : Row) : Sound dialect db relation ancestry source ↔
      (Passes dialect db relation ancestry source → Known dialect db relation ancestry source) := by
  rw [Sound, compile_eq_ok_true_iff]
  refine ⟨fun hsound hpasses => ?_, fun hknown hpasses => ?_⟩
  · have hauthorised := hsound hpasses
    refine ⟨fun row p hfollowed w hw hunknown => ?_, fun row p hchain _ =>
      ⟨hauthorised.predicates row p hchain, hauthorised.bounded row p hchain⟩⟩
    have hholds := holds_compileRelatedWhere.2
      (hauthorised.predicates row p (chain_of_followed hfollowed) w hw)
    exact (holds_iff.1 hholds).2 hunknown
  · have hknown := hknown hpasses
    have hbounded : ∀ row p, Chain dialect db relation ancestry source (row :: p) →
        p.length ≤ ancestry.maxDepth := by
      intro row p hchain
      by_cases hfollowed : Followed dialect db relation ancestry source (row :: p)
      · exact hpasses.length_le hfollowed
      · exact (hknown.beyond row p hchain hfollowed).2
    refine ⟨hpasses.target, fun row p hchain => ?_,
      fun row p hchain => acyclic_of_bounded hbounded hchain, hbounded, ?_⟩
    · by_cases hfollowed : Followed dialect db relation ancestry source (row :: p)
      · exact hpasses.satisfies hknown hfollowed
      · exact (hknown.beyond row p hchain hfollowed).1
    · exact hpasses.authority.mono fun row ⟨p, hfollowed⟩ => ⟨p, chain_of_followed hfollowed⟩

end

/-! ### A null hides an ancestor of another workspace -/

/-- A page of the workspace `w`. -/
def page : Row := [("id", .str "p"), ("workspaceId", .str "w"), ("parentId", .str "f"),
  ("parentType", .str "page")]

def folder : Row := [("id", .str "f"), ("workspaceId", .null), ("parentId", .null),
  ("parentType", .str "workspace")]

def block : Row := [("id", .str "b"), ("pageId", .str "p")]

def pages : Database where
  tables := [("pages", [page, folder])]
  text
    | .str s => s
    | _ => ""

def ofWorkspace : SearchRelatedRelation where
  localField := "pageId"
  table := "pages"
  whereAll := [⟨"workspaceId", .eq (.str "w")⟩]

/-- Every page above is to be in the workspace too, and the page itself is a required ancestor. -/
def inWorkspace : SearchRelatedAncestry where
  parentField := "parentId"
  parentTypeField := "parentType"
  stopParentType := "workspace"
  maxDepth := 8
  whereAll := [⟨"workspaceId", .eq (.str "w")⟩]
  requiredAncestorIds := some ["p"]

/-- The block is found, although the folder above its page is in no workspace. -/
theorem nullWorkspace_found :
    compileRelatedSearchConstraint .sqlite pages { ofWorkspace with ancestry := some inWorkspace }
        block = .ok true ∧
      ¬Sound .sqlite pages ofWorkspace inWorkspace block := by
  have hfound : compileRelatedSearchConstraint .sqlite pages
      { ofWorkspace with ancestry := some inWorkspace } block = .ok true := by decide
  refine ⟨hfound, fun hsound => ?_⟩
  have htarget : Target .sqlite pages ofWorkspace block page :=
    isTarget_iff.1 ⟨mem_cons_self .., by decide⟩
  have hparent : Parent pages ofWorkspace inWorkspace page folder :=
    ⟨mem_cons_of_mem _ (mem_cons_self ..), nofun, rfl, by decide, by decide⟩
  have hchain : Chain .sqlite pages ofWorkspace inWorkspace block [folder, page] :=
    .next (.first htarget) ⟨page, rfl, hparent⟩
  have hsatisfies : Satisfies .sqlite folder ⟨"workspaceId", .eq (.str "w")⟩ :=
    (hsound hfound).predicates folder [page] hchain _ (mem_cons_self ..)
  exact hsatisfies.1 rfl

end Related

end EdgeBase
