import EdgeBase.Representation.BatchUpsert

/-!
# Snapshots of a table

`TableRef.onSnapshot` keeps the rows of the changes that it gets, and calls its subscriber with
them.  Its filters are conditions of equality.

* `matchesSnapshotFilters` : the filters on the data of a change.
* `Subscriber.handle`, `Subscriber.flush` : a change arrives; the timer fires.
-/

namespace EdgeBase

/-- A condition `[field, '==', value]`. -/
structure Equality where
  field : String
  value : Json
  deriving DecidableEq

/-- `fieldValue === expected`: two arrays or two objects are never the same one. -/
def strictlyEqual : Option Json → Json → Bool
  | some .null, .null => true
  | some (.bool a), .bool b => a = b
  | some (.num a), .num b => a = b
  | some (.str a), .str b => a = b
  | _, _ => false

/-- `evaluateFilterCondition` on an equality. -/
def Equality.holds (data : Row) (condition : Equality) : Bool :=
  strictlyEqual (data.lookup condition.field) condition.value

def matchesAllFilters (data : Row) (filters : List Equality) : Bool :=
  filters.isEmpty || filters.all (·.holds data)

def matchesAnyFilter (data : Row) (filters : List Equality) : Bool :=
  filters.isEmpty || filters.any (·.holds data)

def matchesSnapshotFilters (data : Row) (filters orFilters : List Equality) : Bool :=
  if !matchesAllFilters data filters then false
  else if orFilters.isEmpty then true
  else matchesAnyFilter data orFilters

/-- The changes of a snapshot; a change without data adds `null`. -/
structure SnapshotChanges where
  added : List (Option Row) := []
  modified : List (Option Row) := []
  removed : List (Option Row) := []
  deriving DecidableEq

def SnapshotChanges.count (c : SnapshotChanges) : ℕ :=
  c.added.length + c.modified.length + c.removed.length

structure Snapshot where
  items : List Row
  changes : SnapshotChanges
  deriving DecidableEq

/-- A subscription of `TableRef.onSnapshot`, with the snapshots that its subscriber saw. -/
structure Subscriber where
  filters : List Equality := []
  orFilters : List Equality := []
  /-- `options?.serverFilter !== false`. -/
  serverFilter : Bool := true
  isOpen : Bool := true
  items : List (Option Json × Row) := []
  pending : SnapshotChanges := {}
  seen : List Snapshot := []
  deriving DecidableEq

namespace Subscriber

variable (sub : Subscriber) (change : LiveChange)

/-- `hasFilterConstraints`. -/
def hasFilterConstraints : Bool := !sub.filters.isEmpty || !sub.orFilters.isEmpty

/-- `items.has(docId)`. -/
def hasItem : Bool := (sub.items.lookup change.docId).isSome

/-- Whether a change has data that the filters let through. -/
def wants : Bool :=
  change.data.any fun data => matchesSnapshotFilters data sub.filters sub.orFilters

def remove : Subscriber :=
  { sub with
    items := Assoc.restrict (· ≠ change.docId) sub.items
    pending := { sub.pending with
      removed := sub.pending.removed ++
        [(change.data.or (sub.items.lookup change.docId)).or
          (some [("id", change.docId.getD .null)])] } }

/-- A row enters the items, or is replaced there. -/
def put : Subscriber :=
  { sub with
    items := change.data.elim sub.items (Assoc.set sub.items change.docId)
    pending :=
      if sub.hasItem change then
        { sub.pending with modified := sub.pending.modified ++ [change.data] }
      else { sub.pending with added := sub.pending.added ++ [change.data] } }

def handle : Subscriber :=
  if sub.hasFilterConstraints && change.type = .removed && !sub.hasItem change then sub
  else if sub.hasFilterConstraints && change.type ≠ .removed && !sub.wants change then
    if sub.hasItem change then sub.remove change else sub
  else if change.type = .removed then sub.remove change
  else sub.put change

/-- The timer fires: the subscriber sees the items, if something changed. -/
def flush : Subscriber :=
  if sub.pending.count = 0 then sub
  else { sub with
    pending := {}
    seen := sub.seen ++ [{ items := sub.items.map Prod.snd, changes := sub.pending }] }

/-- A change that the filters keep from a subscriber which does not have its row. -/
def Ignores : Prop :=
  sub.hasFilterConstraints = true ∧ sub.hasItem change = false ∧
    (change.type = .removed ∨ sub.wants change = false)

instance : Decidable (sub.Ignores change) := inferInstanceAs (Decidable (_ ∧ _ ∧ _))

variable {sub change}

theorem handle_of_ignores (h : sub.Ignores change) : sub.handle change = sub := by
  obtain ⟨hfilters, hitem, htype⟩ := h
  unfold handle
  by_cases hremoved : change.type = .removed
  · simp [hfilters, hitem, hremoved]
  · simp [hfilters, hitem, hremoved, htype.resolve_left hremoved]

@[simp] theorem count_remove : (sub.remove change).pending.count = sub.pending.count + 1 := by
  simp only [remove, SnapshotChanges.count, List.length_append, List.length_singleton]
  omega

@[simp] theorem count_put : (sub.put change).pending.count = sub.pending.count + 1 := by
  simp only [put, SnapshotChanges.count]
  split
  · simp only [List.length_append, List.length_singleton]
    omega
  · simp only [List.length_append, List.length_singleton]
    omega

theorem count_handle_of_not_ignores (h : ¬sub.Ignores change) :
    (sub.handle change).pending.count = sub.pending.count + 1 := by
  unfold handle
  split
  · next hskip =>
    simp only [Bool.and_eq_true, decide_eq_true_eq, Bool.not_eq_true'] at hskip
    exact absurd ⟨hskip.1.1, hskip.2, .inl hskip.1.2⟩ h
  · split
    · next hunwanted =>
      simp only [Bool.and_eq_true, decide_eq_true_eq, Bool.not_eq_true'] at hunwanted
      split
      · exact count_remove
      · next hitem =>
        exact absurd ⟨hunwanted.1.1, by simpa using hitem, .inr hunwanted.2⟩ h
    · split
      · exact count_remove
      · exact count_put

theorem handle_eq_self_iff : sub.handle change = sub ↔ sub.Ignores change := by
  refine ⟨fun h => ?_, handle_of_ignores⟩
  by_contra hignores
  have hcount := count_handle_of_not_ignores hignores
  rw [h] at hcount
  omega

/-- The number of changes of the snapshots that a subscriber saw or is about to see. -/
def total (sub : Subscriber) : ℕ :=
  (sub.seen.map fun snapshot => snapshot.changes.count).sum + sub.pending.count

@[simp] theorem total_flush : sub.flush.total = sub.total := by
  unfold flush total
  split
  · rfl
  · simp [SnapshotChanges.count]

theorem seen_handle : (sub.handle change).seen = sub.seen := by
  unfold handle
  split_ifs <;> rfl

theorem total_handle_of_not_ignores (h : ¬sub.Ignores change) :
    (sub.handle change).total = sub.total + 1 := by
  rw [total, total, seen_handle, count_handle_of_not_ignores h, Nat.add_assoc]

@[simp] theorem pending_flush : sub.flush.pending.count = 0 := by
  unfold flush
  split
  · assumption
  · rfl

theorem total_of_flushed : sub.total = (sub.flush.seen.map fun s => s.changes.count).sum := by
  rw [← total_flush, total, pending_flush, Nat.add_zero]

end Subscriber

end EdgeBase
