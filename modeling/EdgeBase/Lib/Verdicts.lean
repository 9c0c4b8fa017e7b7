import Mathlib.Data.List.Basic
import Mathlib.Logic.Basic

/-!
# Verdicts

Conditions on which a decision is made answer yes or no, or fail.  They are looked at one after the
other, and the first that settles the matter does.

* `allAndAny` : all of some conditions, and one of others.
* `allAndAny_denied_eq_iff` : when it comes to the same decision.
-/

namespace Verdicts

variable {α : Type*} (p : α → Option Bool)

/-- Every condition holds; the first that does not gives the answer. -/
def everyOf : List α → Option Bool
  | [] => some true
  | a :: as =>
    match p a with
    | some true => everyOf as
    | other => other

/-- Some condition holds; the first that is not false gives the answer. -/
def someOf : List α → Option Bool
  | [] => some false
  | a :: as =>
    match p a with
    | some false => someOf as
    | other => other

def allAndAny (as bs : List α) : Option Bool := do
  let all ← everyOf p as
  if !all then return false
  if bs.isEmpty then return true
  someOf p bs

variable {p}

theorem everyOf_map {β : Type*} (f : β → α) (bs : List β) :
    everyOf p (bs.map f) = everyOf (fun b => p (f b)) bs := by
  induction bs with
  | nil => rfl
  | cons b bs ih =>
    unfold List.map everyOf
    rw [ih]

theorem someOf_map {β : Type*} (f : β → α) (bs : List β) :
    someOf p (bs.map f) = someOf (fun b => p (f b)) bs := by
  induction bs with
  | nil => rfl
  | cons b bs ih =>
    unfold List.map someOf
    rw [ih]

@[simp] theorem everyOf_singleton (a : α) : everyOf p [a] = p a := by
  unfold everyOf
  split
  · next h => rw [h]; rfl
  · rfl

theorem everyOf_eq (as : List α) :
    everyOf p as = (as.find? (p · ≠ some true)).elim (some true) p := by
  induction as with
  | nil => rfl
  | cons a as ih =>
    by_cases ha : p a = some true
    · simp [everyOf, ha, ih]
    · rw [List.find?_cons_of_pos (by simpa using ha)]
      unfold everyOf
      split
      · contradiction
      · rfl

theorem someOf_eq (as : List α) :
    someOf p as = (as.find? (p · ≠ some false)).elim (some false) p := by
  induction as with
  | nil => rfl
  | cons a as ih =>
    by_cases ha : p a = some false
    · simp [someOf, ha, ih]
    · rw [List.find?_cons_of_pos (by simpa using ha)]
      unfold someOf
      split
      · contradiction
      · rfl

theorem allAndAny_of_every {as bs : List α} (h : everyOf p as = some true) :
    allAndAny p as bs = if bs.isEmpty then some true else someOf p bs := by
  unfold allAndAny
  rw [h]
  rfl

theorem allAndAny_of_not_every {as bs : List α} (h : everyOf p as ≠ some true) :
    allAndAny p as bs = everyOf p as := by
  unfold allAndAny
  cases hevery : everyOf p as with
  | none => rfl
  | some b =>
    cases b with
    | false => rfl
    | true => exact absurd hevery h

/-- A condition rejects: one of all is the first that is not true, and false, or all are true and
each of the others is false. -/
def Rejects (p : α → Option Bool) (as bs : List α) : Prop :=
  (∃ a, as.find? (p · ≠ some true) = some a ∧ p a = some false) ∨
    (∀ a ∈ as, p a = some true) ∧ bs ≠ [] ∧ ∀ b ∈ bs, p b = some false

theorem allAndAny_eq_false_iff {as bs : List α} :
    allAndAny p as bs = some false ↔ Rejects p as bs := by
  unfold Rejects
  cases hfind : as.find? (p · ≠ some true) with
  | some a =>
    have hevery : everyOf p as = p a := by rw [everyOf_eq, hfind]; rfl
    have ha : p a ≠ some true := by simpa using List.find?_some hfind
    rw [allAndAny_of_not_every (hevery ▸ ha), hevery]
    constructor
    · exact fun h => .inl ⟨a, rfl, h⟩
    · rintro (⟨a', ha', h⟩ | ⟨hall, -⟩)
      · rwa [Option.some.inj ha']
      · exact absurd (hall a (List.mem_of_find?_eq_some hfind)) ha
  | none =>
    have hall : ∀ a ∈ as, p a = some true := by simpa using hfind
    rw [allAndAny_of_every (by rw [everyOf_eq, hfind]; rfl)]
    cases bs with
    | nil => simp
    | cons b bs =>
      rw [if_neg (by simp), someOf_eq]
      cases hany : (b :: bs).find? (p · ≠ some false) with
      | none =>
        have hnone : ∀ c ∈ b :: bs, p c = some false := by simpa using hany
        exact ⟨fun _ => .inr ⟨hall, by simp, hnone⟩, fun _ => rfl⟩
      | some c =>
        have hc : p c ≠ some false := by simpa using List.find?_some hany
        constructor
        · exact fun h => absurd h hc
        · rintro (⟨a, ha, -⟩ | ⟨-, -, hnone⟩)
          · cases ha
          · exact absurd (hnone c (List.mem_of_find?_eq_some hany)) hc

/-- No condition of some kind decides: where one is the first of all that could, another rejects;
where one is the first of the others that is not false, another one that is not of this kind gives
the same. -/
def Undecided (p : α → Option Bool) (loose : α → Prop) [DecidablePred loose] (as bs : List α) :
    Prop :=
  (∀ a, as.find? (fun a => loose a ∨ p a ≠ some true) = some a → loose a → Rejects p as bs) ∧
    ((∀ a ∈ as, ¬loose a ∧ p a = some true) →
      ∀ b, bs.find? (p · ≠ some false) = some b → loose b →
        ∃ c, bs.find? (fun c => ¬loose c ∧ p c ≠ some false) = some c ∧ p c = p b)

section Loose

variable {loose : α → Prop} [DecidablePred loose]

def denied (p : α → Option Bool) (loose : α → Prop) [DecidablePred loose] (a : α) : Option Bool :=
  if loose a then some false else p a

theorem denied_ne_true {a : α} : denied p loose a ≠ some true ↔ loose a ∨ p a ≠ some true := by
  by_cases ha : loose a <;> simp [denied, ha]

theorem denied_ne_false {a : α} : denied p loose a ≠ some false ↔ ¬loose a ∧ p a ≠ some false := by
  by_cases ha : loose a <;> simp [denied, ha]

theorem someOf_denied_eq_iff (bs : List α) : someOf (denied p loose) bs = someOf p bs ↔
      ∀ b, bs.find? (p · ≠ some false) = some b → loose b →
        ∃ c, bs.find? (fun c => ¬loose c ∧ p c ≠ some false) = some c ∧ p c = p b := by
  rw [someOf_eq, someOf_eq]
  simp only [denied_ne_false]
  cases hany : bs.find? (p · ≠ some false) with
  | none =>
    have hnone : bs.find? (fun c => ¬loose c ∧ p c ≠ some false) = none := by
      refine List.find?_eq_none.2 fun c hc => ?_
      have hfalse : p c = some false := by simpa using List.find?_eq_none.1 hany c hc
      simp [hfalse]
    rw [hnone]
    exact ⟨fun _ => nofun, fun _ => rfl⟩
  | some c =>
    have hc : p c ≠ some false := by simpa using List.find?_some hany
    by_cases hl : loose c
    · constructor
      · intro h c' hc' _
        obtain rfl := Option.some.inj hc'
        cases hd : bs.find? (fun c => ¬loose c ∧ p c ≠ some false) with
        | none =>
          rw [hd] at h
          exact absurd h.symm hc
        | some d =>
          have hdl : ¬loose d ∧ p d ≠ some false := by simpa using List.find?_some hd
          rw [hd] at h
          refine ⟨d, rfl, ?_⟩
          change denied p loose d = p c at h
          rwa [denied, if_neg hdl.1] at h
      · intro h
        obtain ⟨d, hd, heq⟩ := h c rfl hl
        have hdl : ¬loose d ∧ p d ≠ some false := by simpa using List.find?_some hd
        rw [hd]
        change denied p loose d = p c
        rw [denied, if_neg hdl.1, heq]
    · have hsame : bs.find? (fun c => ¬loose c ∧ p c ≠ some false) = some c := by
        rw [List.find?_eq_some_iff_append] at hany ⊢
        obtain ⟨-, before, after, heq, hbefore⟩ := hany
        refine ⟨by simp [hl, hc], before, after, heq, fun d hd => ?_⟩
        have hfalse : p d = some false := by simpa using hbefore d hd
        simp [hfalse]
      rw [hsame]
      refine ⟨fun _ c' hc' hl' => ?_, fun _ => ?_⟩
      · rw [Option.some.inj hc'] at hl
        exact absurd hl' hl
      · change denied p loose c = p c
        rw [denied, if_neg hl]

/-- Taking conditions of some kind for false changes nothing if and only if none of them decides. -/
theorem allAndAny_denied_eq_iff (as bs : List α) :
    allAndAny (denied p loose) as bs = allAndAny p as bs ↔ Undecided p loose as bs := by
  have hevery : everyOf (denied p loose) as =
      (as.find? (fun a => loose a ∨ p a ≠ some true)).elim (some true) (denied p loose) := by
    rw [everyOf_eq]
    simp only [denied_ne_true]
  unfold Undecided
  cases hfind : as.find? (fun a => loose a ∨ p a ≠ some true) with
  | some a =>
    rw [hfind] at hevery
    change _ = denied p loose a at hevery
    have ha : loose a ∨ p a ≠ some true := by simpa using List.find?_some hfind
    have hall : ¬∀ a ∈ as, ¬loose a ∧ p a = some true := fun hall =>
      ha.elim (hall a (List.mem_of_find?_eq_some hfind)).1
        fun hp => hp (hall a (List.mem_of_find?_eq_some hfind)).2
    rw [allAndAny_of_not_every (hevery ▸ denied_ne_true.2 ha), hevery]
    by_cases hl : loose a
    · -- The condition is denied, and the rest is not looked at.
      rw [denied, if_pos hl, eq_comm, allAndAny_eq_false_iff]
      exact ⟨fun h => ⟨fun _ _ _ => h, fun h => absurd h hall⟩, fun h => h.1 a rfl hl⟩
    · have hp : everyOf p as = p a := by
        have hsame : as.find? (p · ≠ some true) = some a := by
          rw [List.find?_eq_some_iff_append] at hfind ⊢
          obtain ⟨-, before, after, heq, hbefore⟩ := hfind
          refine ⟨by simpa using ha.resolve_left hl, before, after, heq, fun b hb => ?_⟩
          have hno : ¬loose b ∧ p b = some true := by simpa using hbefore b hb
          simp [hno.2]
        rw [everyOf_eq, hsame]
        rfl
      rw [denied, if_neg hl, allAndAny_of_not_every (hp ▸ ha.resolve_left hl), hp]
      refine ⟨fun _ => ⟨fun a' ha' hl' => ?_, fun h => absurd h hall⟩, fun _ => rfl⟩
      rw [Option.some.inj ha'] at hl
      exact absurd hl' hl
  | none =>
    rw [hfind] at hevery
    have hall : ∀ a ∈ as, ¬loose a ∧ p a = some true := by
      intro a ha
      simpa [not_or] using List.find?_eq_none.1 hfind a ha
    have hp : everyOf p as = some true := by
      have hnone : as.find? (p · ≠ some true) = none :=
        List.find?_eq_none.2 fun a ha => by simp [(hall a ha).2]
      rw [everyOf_eq, hnone]
      rfl
    rw [allAndAny_of_every hevery, allAndAny_of_every hp]
    cases bs with
    | nil => simp
    | cons b bs =>
      rw [if_neg (by simp), if_neg (by simp), someOf_denied_eq_iff]
      exact ⟨fun h => ⟨nofun, fun _ => h⟩, fun h => h.2 hall⟩

end Loose

end Verdicts
