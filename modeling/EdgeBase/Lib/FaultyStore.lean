import EdgeBase.Lib.Assoc
import EdgeBase.Lib.Triple
import Mathlib.Data.List.Dedup

/-!
# A store whose operations may fail

A program reads and writes named items that others see as well, and a memory of its own.  A list of
faults says which of its operations on the items fail, in the order in which they are made; one that
fails throws, and changes nothing.

* `getItem`, `setItem`, `removeItem`, `keys` : the operations.
* `Keeps.yields`, `yields_finish` : what a run that succeeds gives.
-/

namespace EdgeBase

open Audited

open Audited (Ensures Yields)

namespace FaultyStore

/-- The items, the memory of the program, and whether its next operations fail. -/
structure Area (κ ν μ : Type) where
  items : List (κ × ν)
  memory : μ
  faults : List Bool

abbrev Program (κ ν μ α : Type) := Audited (Area κ ν μ) Empty Unit α

variable {κ ν μ α β : Type}

/-- What every operation on the items begins with. -/
def access : Program κ ν μ Unit := do
  let failed ← Audited.read fun s => s.faults.headD false
  Audited.update fun s => { s with faults := s.faults.tail }
  Audited.check (failed = false) ()

def getItem [DecidableEq κ] (k : κ) : Program κ ν μ (Option ν) := do
  access
  Audited.read (·.items.lookup k)

def setItem [DecidableEq κ] (k : κ) (v : ν) : Program κ ν μ Unit := do
  access
  Audited.update fun s => { s with items := Assoc.set s.items k v }

def removeItem [DecidableEq κ] (k : κ) : Program κ ν μ Unit := do
  access
  Audited.update fun s => { s with items := Assoc.restrict (· != k) s.items }

def keys [DecidableEq κ] : Program κ ν μ (List κ) := do
  access
  Audited.read fun s => (s.items.map Prod.fst).dedup

def memory : Program κ ν μ μ := Audited.read (·.memory)

def remember (f : μ → μ) : Program κ ν μ Unit :=
  Audited.update fun s => { s with memory := f s.memory }

/-- `try` with a `catch` that goes on: whether nothing was thrown. -/
def attempt (m : Program κ ν μ Unit) : Program κ ν μ Bool :=
  Audited.recover (m >>= fun _ => pure true) fun _ => pure false

/-- `try` with a `finally`. -/
def finish (m : Program κ ν μ α) (last : Program κ ν μ Unit) : Program κ ν μ α := do
  let result ← Audited.recover (m >>= fun a => pure (Except.ok a)) fun e => pure (.error e)
  last
  Audited.lift result

/-! ### What is kept of items and memory -/

/-- From items and memory that satisfy `I` a run ends in such ones, however it ends, and what it
returns satisfies `Q`. -/
def Keeps (I : List (κ × ν) → μ → Prop) (Q : α → Prop) (m : Program κ ν μ α) : Prop :=
  Ensures (fun s => I s.items s.memory) (fun _ => True) Q m

namespace Keeps

variable {I : List (κ × ν) → μ → Prop} {Q : α → Prop} {R : β → Prop} {m : Program κ ν μ α}
  {f : α → Program κ ν μ β} {k : κ}

theorem state (h : Keeps I Q m) {s : Area κ ν μ} (hs : I s.items s.memory) :
    I (m s).state.items (m s).state.memory := (h s hs).1

theorem yields (h : Keeps I Q m) {P : Area κ ν μ → Prop} (hP : ∀ s, P s → I s.items s.memory) :
    Yields P m fun a s => Q a ∧ I s.items s.memory :=
  fun s hs a ha => ⟨(h s (hP s hs)).2.2 a ha, h.state (hP s hs)⟩

theorem any (h : Keeps I Q m) : Keeps I (fun _ => True) m := h.weaken fun _ _ => trivial

theorem pure {a : α} (h : Q a) : Keeps I Q (Pure.pure a : Program κ ν μ α) := Ensures.pure h

theorem fail (e : Unit) : Keeps I Q (Audited.fail e : Program κ ν μ α) := Ensures.fail e

theorem bind (hm : Keeps I Q m) (hf : ∀ a, Q a → Keeps I R (f a)) : Keeps I R (m >>= f) :=
  Ensures.bind hm hf

theorem state_bind {J : List (κ × ν) → μ → Prop} (hm : Keeps I Q m)
    (hIJ : ∀ items memory, I items memory → J items memory)
    (hf : ∀ a s, Q a → I s.items s.memory → J (f a s).state.items (f a s).state.memory)
    {s : Area κ ν μ} (hs : I s.items s.memory) :
    J ((m >>= f) s).state.items ((m >>= f) s).state.memory := by
  obtain ⟨hstate, -, hresult⟩ := hm s hs
  cases hr : (m s).result with
  | error e =>
    rw [bind_of_error hr]
    exact hIJ _ _ hstate
  | ok a =>
    rw [bind_of_ok hr]
    exact hf a _ (hresult a hr) hstate

theorem ite {c : Prop} [Decidable c] {m' : Program κ ν μ α} (hm : c → Keeps I Q m)
    (hm' : ¬c → Keeps I Q m') : Keeps I Q (if c then m else m') := Ensures.ite hm hm'

theorem access : Keeps I (fun _ => True) (FaultyStore.access : Program κ ν μ Unit) :=
  Ensures.bind (.read _) fun _ _ => .bind (.update fun _ h => h) fun _ _ =>
    (Ensures.check _ _).weaken fun _ _ => trivial

theorem getItem [DecidableEq κ] {Q : Option ν → Prop}
    (h : ∀ items memory, I items memory → Q (items.lookup k)) :
    Keeps I Q (FaultyStore.getItem k : Program κ ν μ (Option ν)) :=
  access.bind fun _ _ => Ensures.read_of fun s hs => h s.items s.memory hs

theorem getItem_any [DecidableEq κ] :
    Keeps I (fun _ => True) (FaultyStore.getItem k : Program κ ν μ (Option ν)) :=
  getItem fun _ _ _ => trivial

theorem setItem [DecidableEq κ] {v : ν}
    (h : ∀ items memory, I items memory → I (Assoc.set items k v) memory) :
    Keeps I (fun _ => True) (FaultyStore.setItem k v : Program κ ν μ Unit) :=
  access.bind fun _ _ => Ensures.update fun s hs => h s.items s.memory hs

theorem removeItem [DecidableEq κ]
    (h : ∀ items memory, I items memory → I (Assoc.restrict (· != k) items) memory) :
    Keeps I (fun _ => True) (FaultyStore.removeItem k : Program κ ν μ Unit) :=
  access.bind fun _ _ => Ensures.update fun s hs => h s.items s.memory hs

theorem keys [DecidableEq κ] : Keeps I List.Nodup (FaultyStore.keys : Program κ ν μ (List κ)) :=
  access.bind fun _ _ => Ensures.read_of fun _ _ => List.nodup_dedup _

theorem memory : Keeps I (fun _ => True) (FaultyStore.memory : Program κ ν μ μ) := Ensures.read _

theorem remember {g : μ → μ} (h : ∀ items memory, I items memory → I items (g memory)) :
    Keeps I (fun _ => True) (FaultyStore.remember g : Program κ ν μ Unit) :=
  Ensures.update fun s hs => h s.items s.memory hs

theorem recover {h : Unit → Program κ ν μ α} (hm : Keeps I Q m) (hh : ∀ e, Keeps I Q (h e)) :
    Keeps I Q (Audited.recover m h) := by
  intro s hs
  cases hr : (m s).result with
  | ok a =>
    rw [recover_of_ok hr]
    exact hm s hs
  | error e =>
    rw [recover_of_error hr]
    exact ⟨(hh e).state (hm.state hs), fun _ _ => trivial, ((hh e) _ (hm.state hs)).2.2⟩

theorem attempt {m : Program κ ν μ Unit} (hm : Keeps I (fun _ => True) m) :
    Keeps I (fun _ => True) (FaultyStore.attempt m) :=
  (hm.bind fun _ _ => pure trivial).recover fun _ => pure trivial

theorem finish {last : Program κ ν μ Unit} (hm : Keeps I Q m)
    (hlast : Keeps I (fun _ => True) last) : Keeps I (fun _ => True) (FaultyStore.finish m last) :=
  .bind (Q := fun _ => True) (.recover (hm.bind fun _ _ => pure trivial) fun _ => pure trivial)
    fun _ _ => hlast.bind fun _ _ => Ensures.lift fun _ _ => trivial

theorem forEach {g : α → β} (xs : List α) (hf : ∀ x ∈ xs, Keeps I (· = g x) (f x)) :
    Keeps I (· = xs.map g) (Audited.forEach f xs) := by
  induction xs with
  | nil => exact pure rfl
  | cons x xs ih =>
    refine (hf x List.mem_cons_self).bind fun y hy => ?_
    refine (ih fun x' hx' => hf x' (List.mem_cons_of_mem _ hx')).bind fun ys hys => pure ?_
    rw [hy, hys, List.map_cons]

end Keeps

theorem state_setItem [DecidableEq κ] {J : List (κ × ν) → Prop} {f : Unit → Program κ ν μ β} {k : κ}
    {v : ν} {s : Area κ ν μ} (hs : J s.items)
    (h : ∀ s' : Area κ ν μ, s'.items = Assoc.set s.items k v → J (f () s').state.items) :
    J ((setItem k v >>= f) s).state.items := by
  obtain ⟨items, memory, faults⟩ := s
  match faults with
  | [] => exact h ⟨_, memory, []⟩ rfl
  | false :: faults => exact h ⟨_, memory, faults⟩ rfl
  | true :: faults => exact hs

theorem state_recover {J : List (κ × ν) → μ → Prop} {Q : α → Prop} {m : Program κ ν μ α}
    {h : Unit → Program κ ν μ α} {s : Area κ ν μ} (hm : J (m s).state.items (m s).state.memory)
    (hh : ∀ e, Keeps J Q (h e)) :
    J (Audited.recover m h s).state.items (Audited.recover m h s).state.memory := by
  cases hr : (m s).result with
  | ok a =>
    rw [recover_of_ok hr]
    exact hm
  | error e =>
    rw [recover_of_error hr]
    exact (hh e).state hm

/-! ### Runs that succeed -/

theorem yields_attempt_removeItem [DecidableEq κ] {P : Area κ ν μ → Prop} (k : κ) :
    Yields P (attempt (removeItem k) : Program κ ν μ Bool) fun removed s =>
      removed = true → s.items.lookup k = none := by
  have hremove : Yields (fun _ => True) (removeItem k : Program κ ν μ Unit) fun _ s =>
      s.items.lookup k = none :=
    .bind .any fun _ => .update fun s _ => by simp [Assoc.lookup_restrict]
  have hdone : Yields (fun _ => True) (removeItem k >>= fun _ => pure true : Program κ ν μ Bool)
      fun removed s => removed = true → s.items.lookup k = none :=
    hremove.bind fun _ => .pure fun s hs _ => hs
  exact .recover (fun s _ => hdone s trivial) fun _ => .pure fun _ _ h => nomatch h

theorem yields_finish {P : Area κ ν μ → Prop} {Q : α → Area κ ν μ → Prop} {m : Program κ ν μ α}
    {last : Program κ ν μ Unit} (hm : Yields P m Q) (hlast : ∀ a, Yields (Q a) last fun _ => Q a) :
    Yields P (finish m last) Q := by
  refine .bind (Q := fun r s => ∀ a, r = .ok a → Q a s) ?_ fun r => ?_
  · refine .recover (hm.bind fun a => .pure fun s hs b hb => ?_) fun e => .pure fun s _ a ha => ?_
    · exact Except.ok.inj hb ▸ hs
    · exact nomatch ha
  · cases r with
    | error e => exact .bind .any fun _ => .fail e
    | ok a =>
      refine .bind (fun s hs => hlast a s (hs a rfl)) fun _ => .lift fun b hb s hs => ?_
      exact Except.ok.inj hb ▸ hs

end FaultyStore

end EdgeBase
