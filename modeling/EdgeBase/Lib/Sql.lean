import Mathlib.Logic.Relation
import Mathlib.Data.List.Chain

/-!
# Truth values and recursive queries of SQL

* `Truth` : the three truth values.  A `WHERE` clause keeps the rows on which its condition holds;
  the negation of a condition holds where that fails, and not where it is unknown.
* `mem_recursive_iff` : the rows of a recursive query whose rank is bounded are those that its steps
  reach.
-/

inductive Truth where
  | yes
  | no
  | unknown
  deriving DecidableEq

namespace Truth

def ofBool (b : Bool) : Truth := if b then yes else no

/-- `AND`. -/
def and : Truth → Truth → Truth
  | no, _ | _, no => no
  | yes, yes => yes
  | _, _ => unknown

/-- `OR`. -/
def or : Truth → Truth → Truth
  | yes, _ | _, yes => yes
  | no, no => no
  | _, _ => unknown

/-- `NOT`. -/
def not : Truth → Truth
  | yes => no
  | no => yes
  | unknown => unknown

/-- Whether a `WHERE` clause keeps a row. -/
def holds (t : Truth) : Bool := t == yes

/-- Whether the negation of a condition holds. -/
def fails (t : Truth) : Bool := t == no

def all (ts : List Truth) : Truth := ts.foldr and yes

def any (ts : List Truth) : Truth := ts.foldr or no

@[simp] theorem holds_ofBool (b : Bool) : (ofBool b).holds = b := by cases b <;> rfl

@[simp] theorem fails_ofBool (b : Bool) : (ofBool b).fails = !b := by cases b <;> rfl

@[simp] theorem holds_and (s t : Truth) : (s.and t).holds = (s.holds && t.holds) := by
  cases s <;> cases t <;> rfl

@[simp] theorem holds_or (s t : Truth) : (s.or t).holds = (s.holds || t.holds) := by
  cases s <;> cases t <;> rfl

@[simp] theorem holds_not (t : Truth) : t.not.holds = t.fails := by cases t <;> rfl

@[simp] theorem fails_and (s t : Truth) : (s.and t).fails = (s.fails || t.fails) := by
  cases s <;> cases t <;> rfl

@[simp] theorem fails_or (s t : Truth) : (s.or t).fails = (s.fails && t.fails) := by
  cases s <;> cases t <;> rfl

variable {ts : List Truth}

theorem holds_all : (all ts).holds ↔ ∀ t ∈ ts, t.holds := by
  induction ts with
  | nil => simp [all, holds]
  | cons t ts ih => simp only [all, List.foldr_cons, holds_and, Bool.and_eq_true,
      List.forall_mem_cons] at ih ⊢; rw [ih]

theorem holds_any : (any ts).holds ↔ ∃ t ∈ ts, t.holds := by
  induction ts with
  | nil => simp [any, holds]
  | cons t ts ih => simp only [any, List.foldr_cons, holds_or, Bool.or_eq_true,
      List.exists_mem_cons_iff] at ih ⊢; rw [ih]

theorem fails_all : (all ts).fails ↔ ∃ t ∈ ts, t.fails := by
  induction ts with
  | nil => simp [all, fails]
  | cons t ts ih => simp only [all, List.foldr_cons, fails_and, Bool.or_eq_true,
      List.exists_mem_cons_iff] at ih ⊢; rw [ih]

theorem fails_any : (any ts).fails ↔ ∀ t ∈ ts, t.fails := by
  induction ts with
  | nil => simp [any, fails]
  | cons t ts ih => simp only [any, List.foldr_cons, fails_or, Bool.and_eq_true,
      List.forall_mem_cons] at ih ⊢; rw [ih]

theorem holds_iff {t : Truth} : t.holds ↔ ¬t.fails ∧ t ≠ unknown := by
  cases t <;> simp [holds, fails]

end Truth

variable {α : Type}

/-- The rows of a recursive query from a working table, in so many rounds. -/
def recursive (step : α → List α) : ℕ → List α → List α
  | 0, _ => []
  | n + 1, work => work ++ recursive step n (work.flatMap step)

/-- A recursive query gives what its steps reach, if the rank of a row grows with each step and the
rounds last beyond the greatest rank. -/
theorem mem_recursive_iff {step : α → List α} {rank : α → ℕ} {bound : ℕ}
    (hstep : ∀ a b, b ∈ step a → rank b = rank a + 1 ∧ rank b ≤ bound) {b : α} {rounds low : ℕ}
    {work : List α} (hwork : ∀ a ∈ work, rank a = low ∧ rank a ≤ bound)
    (hrounds : bound < low + rounds) : b ∈ recursive step rounds work ↔
      ∃ a ∈ work, Relation.ReflTransGen (fun a b => b ∈ step a) a b := by
  induction rounds generalizing low work with
  | zero =>
    have hempty : work = [] := by
      by_contra hne
      obtain ⟨a, ha⟩ := List.exists_mem_of_ne_nil work hne
      have hrank := hwork a ha
      omega
    simp [recursive, hempty]
  | succ rounds ih =>
    have hnext : ∀ c ∈ work.flatMap step, rank c = low + 1 ∧ rank c ≤ bound := by
      intro c hc
      obtain ⟨a, ha, hac⟩ := List.mem_flatMap.1 hc
      obtain ⟨hrank, hbound⟩ := hstep a c hac
      exact ⟨by rw [hrank, (hwork a ha).1], hbound⟩
    rw [recursive, List.mem_append, ih hnext (by omega)]
    constructor
    · rintro (hb | ⟨c, hc, hcb⟩)
      · exact ⟨b, hb, .refl⟩
      · obtain ⟨a, ha, hac⟩ := List.mem_flatMap.1 hc
        exact ⟨a, ha, .head hac hcb⟩
    · rintro ⟨a, ha, hab⟩
      rcases hab.cases_head with rfl | ⟨c, hac, hcb⟩
      · exact .inl ha
      · exact .inr ⟨c, List.mem_flatMap.2 ⟨a, ha, hac⟩, hcb⟩

/-- A list of steps, the last one first: the first step is one of `start`, and each later one is
admitted by those before it. -/
inductive Trail (start : α → Prop) (admits : List α → α → Prop) : List α → Prop where
  | first {a : α} (h : start a) : Trail start admits [a]
  | next {a b : α} {p : List α} (h : Trail start admits (a :: p)) (hb : admits (a :: p) b) :
    Trail start admits (b :: a :: p)

namespace Trail

variable {start : α → Prop} {admits admits' : List α → α → Prop}

theorem mono (h : ∀ p a, admits p a → admits' p a) {p : List α} (hp : Trail start admits p) :
    Trail start admits' p := by
  induction hp with
  | first ha => exact .first ha
  | next _ hb ih => exact .next ih (h _ _ hb)

theorem exists_start {p : List α} (hp : Trail start admits p) : ∃ a, start a := by
  induction hp with
  | first ha => exact ⟨_, ha⟩
  | next _ _ ih => exact ih

end Trail
