import EdgeBase.Lib.Sql
import EdgeBase.Query

/-!
# The related-search constraint

What the SQL of `compileRelatedSearchConstraint` says of a source row, clause by clause, on the
contents of the tables: which rows its subqueries find, and which of its conditions hold, fail or
are unknown.

* `SearchRelatedRelation` : the relation of a request.
-/

namespace EdgeBase

/-! ### Relations -/

inductive SearchRelatedOperator where
  /-- `'=='`. -/
  | eq (value : Json)
  /-- `'in'`. -/
  | isIn (values : List Json)
  /-- `'is-not-true'`. -/
  | isNotTrue
  deriving DecidableEq

/-- `SearchRelatedWhere`. -/
structure SearchRelatedWhere where
  field : String
  operator : SearchRelatedOperator
  deriving DecidableEq

structure SearchRelatedGroupMembership where
  table : String
  grantPrincipalField : String
  membershipGroupField : String
  whereAll : List SearchRelatedWhere

structure SearchRelatedPrincipalBranch where
  whereAll : List SearchRelatedWhere
  groupMembership : Option SearchRelatedGroupMembership := none

structure SearchRelatedGrantSource where
  table : String
  ancestorField : String
  whereAll : List SearchRelatedWhere
  principalAny : List SearchRelatedPrincipalBranch

structure SearchRelatedAncestry where
  parentField : String
  parentTypeField : String
  stopParentType : String
  maxDepth : ℕ
  whereAll : List SearchRelatedWhere
  requiredAncestorIds : Option (List String) := none
  grantSource : Option SearchRelatedGrantSource := none

structure SearchRelatedRelation where
  localField : String
  table : String
  whereAll : List SearchRelatedWhere
  ancestry : Option SearchRelatedAncestry := none

/-! ### Values -/

def column (row : Row) (field : String) : Json := (row.lookup field).getD .null

/-- `=`: unknown on a null. -/
def sqlEq (a b : Json) : Truth := if a = .null ∨ b = .null then .unknown else .ofBool (a = b)

/-- `<>`. -/
def sqlNe (a b : Json) : Truth := (sqlEq a b).not

/-- `IS NOT NULL`. -/
def isNotNull (a : Json) : Truth := .ofBool (a ≠ .null)

/-- A bound value; SQLite has numbers for booleans. -/
def bindValue (dialect : SqlDialect) (v : Json) : Json :=
  match dialect with
  | .sqlite => booleanAsNumber v
  | .postgres => v

def compileRelatedWhere (dialect : SqlDialect) (row : Row) (w : SearchRelatedWhere) : Truth :=
  match w.operator with
  | .isNotTrue => .ofBool (column row w.field ≠ bindValue dialect (.bool true))
  | .eq v => sqlEq (column row w.field) (bindValue dialect v)
  | .isIn vs => .any (vs.map fun v => sqlEq (column row w.field) (bindValue dialect v))

/-- `compileRelatedWhereAll`, on a row. -/
def compileRelatedWhereAll (dialect : SqlDialect) (whereAll : List SearchRelatedWhere)
    (row : Row) : Truth :=
  .all (whereAll.map (compileRelatedWhere dialect row))

namespace Related

/-- The contents of the tables, and the text that `CAST` makes of a value that is not null. -/
structure Database where
  tables : List (String × List Row)
  text : Json → String

def Database.rows (db : Database) (table : String) : List Row := (db.tables.lookup table).getD []

/-- `CAST(value AS TEXT)`. -/
def Database.castText (db : Database) (v : Json) : Json :=
  if v = .null then .null else .str (db.text v)

variable (dialect : SqlDialect) (db : Database) (relation : SearchRelatedRelation)
  (ancestry : SearchRelatedAncestry)

/-! ### The target and its ancestors -/

def isTarget (source target : Row) : Truth :=
  (sqlEq (column target "id") (column source relation.localField)).and
    (compileRelatedWhereAll dialect relation.whereAll target)

structure AncestryRow where
  id : Json
  parentId : Json
  parentType : Json
  depth : ℕ
  path : List Json

def initialRow (target : Row) : AncestryRow where
  id := column target "id"
  parentId := column target ancestry.parentField
  parentType := column target ancestry.parentTypeField
  depth := 0
  path := [db.castText (column target "id")]

def extendRow (row : AncestryRow) (parent : Row) : AncestryRow where
  id := column parent "id"
  parentId := column parent ancestry.parentField
  parentType := column parent ancestry.parentTypeField
  depth := row.depth + 1
  path := row.path ++ [db.castText (column parent "id")]

/-- Whether an id is on a path; `EXISTS` over `json_each` is never unknown, `ANY` may be. -/
def alreadyVisited (id : Json) (path : List Json) : Truth :=
  let same := path.map (sqlEq (db.castText id))
  match dialect with
  | .postgres => .any same
  | .sqlite => .ofBool (same.any Truth.holds)

/-- The conditions under which the chain goes on from a row to a parent, up to its depth. -/
def continues (row : AncestryRow) (parent : Row) : Truth :=
  .all [sqlEq (column parent "id") row.parentId, isNotNull row.parentId,
    sqlNe (db.castText row.parentId) (.str ""),
    sqlNe row.parentType (.str ancestry.stopParentType)]

/-- The recursive part of the query, on one row. -/
def ancestryStep (row : AncestryRow) : List AncestryRow :=
  ((db.rows relation.table).filter fun parent =>
    (((continues db ancestry row parent).and (.ofBool (row.depth < ancestry.maxDepth))).and
      (alreadyVisited dialect db (column parent "id") row.path).not).holds).map
    (extendRow db ancestry row)

/-- The recursive query; a row of depth `maxDepth` has no further one. -/
def ancestryRows (source : Row) : List AncestryRow :=
  recursive (ancestryStep dialect db relation ancestry) (ancestry.maxDepth + 1)
    (((db.rows relation.table).filter fun target =>
      (isTarget dialect relation source target).holds).map (initialRow db ancestry))

/-! ### The clauses -/

/-- The first `NOT EXISTS`: some row of the chain does not satisfy the predicates. -/
def refusesRow (rows : List AncestryRow) : Bool :=
  rows.any fun row => (db.rows relation.table).any fun chained =>
    ((sqlEq (column chained "id") row.id).and
      (compileRelatedWhereAll dialect ancestry.whereAll chained).not).holds

/-- The second `NOT EXISTS`: the chain goes on too far, or in a cycle. -/
def overflows (rows : List AncestryRow) : Bool :=
  rows.any fun current => (db.rows relation.table).any fun next =>
    ((continues db ancestry current next).and
      ((Truth.ofBool (current.depth ≥ ancestry.maxDepth)).or
        (alreadyVisited dialect db (column next "id") current.path))).holds

def hasRequiredAncestor (rows : List AncestryRow) (ids : List String) : Bool :=
  rows.any fun row => (Truth.any (ids.map fun id => sqlEq (db.castText row.id) (.str id))).holds

def isMember (grant : Row) (membership : SearchRelatedGroupMembership) : Truth :=
  .ofBool ((db.rows membership.table).any fun member =>
    ((sqlEq (column member membership.membershipGroupField)
        (column grant membership.grantPrincipalField)).and
      (compileRelatedWhereAll dialect membership.whereAll member)).holds)

def principalBranch (grant : Row) (branch : SearchRelatedPrincipalBranch) : Truth :=
  (compileRelatedWhereAll dialect branch.whereAll grant).and
    (branch.groupMembership.elim .yes (isMember dialect db grant))

def grantApplies (source : SearchRelatedGrantSource) (grant : Row) (ancestorId : Json) : Truth :=
  ((sqlEq (column grant source.ancestorField) ancestorId).and
    (compileRelatedWhereAll dialect source.whereAll grant)).and
    (.any (source.principalAny.map (principalBranch dialect db grant)))

def hasGrant (rows : List AncestryRow) (source : SearchRelatedGrantSource) : Bool :=
  (db.rows source.table).any fun grant => rows.any fun row =>
    (grantApplies dialect db source grant row.id).holds

/-- The clauses that say who may see the row. -/
def authorityClauses (rows : List AncestryRow) : List Bool :=
  (ancestry.requiredAncestorIds.map (hasRequiredAncestor db rows)).toList ++
    (ancestry.grantSource.map (hasGrant dialect db rows)).toList

/-- The constraint of a relation with ancestors, without the check that there is an authority. -/
def ancestryHolds (source : Row) : Bool :=
  let rows := ancestryRows dialect db relation ancestry source
  !rows.isEmpty && !refusesRow dialect db relation ancestry rows &&
    !overflows dialect db relation ancestry rows &&
    (authorityClauses dialect db ancestry rows).all id

end Related

/-- Whether the constraint that `compileRelatedSearchConstraint` compiles a relation to holds of a
source row; an ancestry without an authority is an error. -/
def compileRelatedSearchConstraint (dialect : SqlDialect) (db : Related.Database)
    (relation : SearchRelatedRelation) (source : Row) : Except String Bool :=
  match relation.ancestry with
  | none => .ok ((db.rows relation.table).any fun target =>
      (Related.isTarget dialect relation source target).holds)
  | some ancestry =>
    if ancestry.requiredAncestorIds.isNone ∧ ancestry.grantSource.isNone then
      .error "Related search ancestry requires at least one authority constraint."
    else .ok (Related.ancestryHolds dialect db relation ancestry source)

end EdgeBase
