import EdgeBase.Forwarding

/-!
# The names of the objects

A dynamic block has an object for each instance id, named by `getDbDoName`, and an object learns
from its name alone what it stores.

* `getDbDoName_eq_iff` : when two targets share an object.
* `DatabaseDO.readsBack_iff` : when an object knows the target that it was made for.
-/

namespace EdgeBase

/-- What a request names: a block, and an instance of it if it is dynamic. -/
structure DbTarget where
  ns : String
  instanceId : Option String

namespace DbTarget

def Accepted (config : EdgeBaseConfig) (t : DbTarget) : Prop :=
  ∃ block dynamic, resolveDbTarget config t.ns t.instanceId = .ok (block, dynamic)

/-- A single-instance block is named as an object of a dynamic one. -/
def Shadows (t u : DbTarget) : Prop :=
  t.instanceId = none ∧ ∃ id, u.instanceId = some id ∧ t.ns = u.ns ++ ":" ++ id

def doName (t : DbTarget) : String := getDbDoName t.ns t.instanceId

variable {config : EdgeBaseConfig} {t u : DbTarget} {i : String}

theorem Accepted.id (h : t.Accepted config) (hid : t.instanceId = some i) :
    i ≠ "" ∧ ':' ∉ i.toList := by
  obtain ⟨block, dynamic, h⟩ := h
  obtain ⟨hblank, hcolon⟩ := (resolveDbTarget_ok_iff.1 h).2.2.2 i hid
  refine ⟨?_, hcolon⟩
  rintro rfl
  exact absurd hblank (by decide)

theorem Accepted.doName_some (h : t.Accepted config) (hid : t.instanceId = some i) :
    t.doName = t.ns ++ ":" ++ i := by
  rw [doName, hid]
  exact if_neg (h.id hid).1

/-- The last colon of a name is the one before the instance id. -/
theorem append_colon_inj {ns ns' id id' : List Char} (hid : ':' ∉ id) (hid' : ':' ∉ id')
    (h : ns ++ ':' :: id = ns' ++ ':' :: id') : ns = ns' ∧ id = id' := by
  have htake : ∀ ns id : List Char, ':' ∉ id →
      (ns ++ ':' :: id).reverse.takeWhile (· ≠ ':') = id.reverse := by
    intro ns id hid
    rw [List.reverse_append, List.reverse_cons, List.append_assoc, List.takeWhile_append_of_pos]
    · simp
    · intro c hc
      simpa using fun heq : c = ':' => hid (heq ▸ List.mem_reverse.1 hc)
  have hids : id = id' := by
    rw [← List.reverse_inj, ← htake ns id hid, h, htake ns' id' hid']
  subst hids
  exact ⟨List.append_cancel_right h, rfl⟩

theorem doName_eq_iff (ht : t.Accepted config) (hu : u.Accepted config) :
    t.doName = u.doName ↔ t = u ∨ t.Shadows u ∨ u.Shadows t := by
  obtain ⟨ns, tid⟩ := t
  obtain ⟨ns', uid⟩ := u
  cases tid with
  | none =>
    have hname : doName ⟨ns, none⟩ = ns := rfl
    cases uid with
    | none => simp [doName, getDbDoName, Shadows]
    | some id => simp [hname, hu.doName_some rfl, Shadows]
  | some id =>
    cases uid with
    | none =>
      have hname : doName ⟨ns', none⟩ = ns' := rfl
      simp [hname, ht.doName_some rfl, Shadows, eq_comm]
    | some id' =>
      rw [ht.doName_some rfl, hu.doName_some rfl]
      constructor
      · intro h
        have hlist := congrArg String.toList h
        simp only [String.toList_append, List.append_assoc] at hlist
        obtain ⟨hns, hid⟩ := append_colon_inj (ht.id rfl).2 (hu.id rfl).2 hlist
        rw [String.toList_inj.1 hns, String.toList_inj.1 hid]
        exact .inl rfl
      · rintro (h | h | h)
        · cases h
          rfl
        · cases h.1
        · cases h.1

/-- An object knows the block and the instance that it was made for. -/
def ReadsBack (t : DbTarget) (d : DatabaseDO) : Prop :=
  parseDbDoName d.doName = t.ns ∧ d.instanceId = t.instanceId

theorem readsBack_iff {d : DatabaseDO} (ht : t.Accepted config) (hd : d.doName = t.doName) :
    t.ReadsBack d ↔ ':' ∉ t.ns.toList := by
  constructor
  · rintro ⟨hns, -⟩ hmem
    rw [← hns, parseDbDoName, String.toList_ofList] at hmem
    exact absurd (List.mem_takeWhile_imp hmem) (by decide)
  · intro hns
    have hall : ∀ c ∈ t.ns.toList, decide (c ≠ ':') = true :=
      fun c hc => decide_eq_true fun heq : c = ':' => hns (heq ▸ hc)
    cases hid : t.instanceId with
    | none =>
      have hname : d.doName = t.ns := by rw [hd, doName, hid, getDbDoName]
      constructor
      · rw [hname, parseDbDoName, List.takeWhile_eq_self_iff.2 hall, String.ofList_toList]
      · rw [DatabaseDO.instanceId, hname, List.dropWhile_eq_nil_iff.2 hall, hid]
    | some i =>
      have hname : d.doName.toList = t.ns.toList ++ ':' :: i.toList := by
        rw [hd, ht.doName_some hid]
        simp [String.toList_append]
      constructor
      · rw [parseDbDoName, hname, List.takeWhile_append_of_pos hall]
        simp
      · rw [DatabaseDO.instanceId, hname, List.dropWhile_append_of_pos hall, hid]
        simp

/-- **Who shares an object.**  The objects of two accepted targets are the same one only if the
targets are, or one is a single-instance block whose name is that of an object of a dynamic one; and
an object knows its target if and only if the name of the block has no colon. -/
theorem objects (ht : t.Accepted config) (hu : u.Accepted config) :
    (t.doName = u.doName ↔ t = u ∨ t.Shadows u ∨ u.Shadows t) ∧
      ∀ d : DatabaseDO, d.doName = t.doName → (t.ReadsBack d ↔ ':' ∉ t.ns.toList) :=
  ⟨doName_eq_iff ht hu, fun _ hd => readsBack_iff ht hd⟩

def shadowConfig : EdgeBaseConfig where
  databases := some [("a", { instance_ := true }), ("a:b", { provider := some .do })]

theorem objects_shadow :
    (⟨"a:b", none⟩ : DbTarget).doName = (⟨"a", some "b"⟩ : DbTarget).doName := by
  have ht : Accepted shadowConfig ⟨"a:b", none⟩ := ⟨{ provider := some .do }, false, rfl⟩
  have hu : Accepted shadowConfig ⟨"a", some "b"⟩ := ⟨{ instance_ := true }, true, rfl⟩
  exact (objects ht hu).1.2 (.inr (.inl ⟨rfl, "b", rfl, by decide +kernel⟩))

end DbTarget

end EdgeBase
