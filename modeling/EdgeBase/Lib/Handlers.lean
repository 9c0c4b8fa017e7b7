import EdgeBase.Lib.Runs
import Mathlib.Data.List.Flatten
import Mathlib.Data.List.Perm.Basic

/-!
# Handlers that wait

Handlers share a state.  A handler is a list of sections, each of which runs at once; between some
of them it waits, and other handlers run.

* `Handlers.step_induction` : what every step keeps of the state and of the sections still to do.
-/

namespace Handlers

open List

/-- What follows a section: other sections at once, or after a wait. -/
inductive Next (ι : Type*) where
  | run (sections : List ι)
  | await (sections : List ι)
  deriving DecidableEq

/-- A handler: what it has still to do.  The handlers of one owner do not run side by side. -/
structure Task (κ ι : Type*) where
  owner : Option κ
  sections : List ι
  deriving DecidableEq

/-- Sections that read what the wait before them has returned, and events that start handlers. -/
structure Machine (σ κ ι ε ν : Type*) where
  exec : σ → ν → ι → σ × Next ι
  handle : σ → ε → σ × Option (Task κ ι)
  /-- What is left of the state when the handlers are gone. -/
  restart : σ → σ

structure System (σ κ ι ν : Type*) where
  state : σ
  tasks : List (Task κ ι) := []
  running : Task κ ι := ⟨none, []⟩
  returned : ν
  deriving DecidableEq

inductive Action (ε ν : Type*) where
  | event (e : ε)
  | resume (n : ℕ) (returned : ν)
  /-- The next section of the handler that runs. -/
  | proceed
  | restart
  deriving DecidableEq

/-- What a handler still does once a section has been executed. -/
@[simp] def Next.sections {ι : Type*} : Next ι → List ι
  | .run sections => sections
  | .await sections => sections

variable {σ κ ι ε ν : Type*}

namespace System

def current (s : System σ κ ι ν) : Option ι := s.running.sections.head?

def pending (s : System σ κ ι ν) : List ι :=
  s.running.sections ++ s.tasks.flatMap (·.sections)

def others (s : System σ κ ι ν) : List ι :=
  s.running.sections.tail ++ s.tasks.flatMap (·.sections)

theorem pending_eq {s : System σ κ ι ν} {sec : ι} (h : s.current = some sec) :
    s.pending = sec :: s.others := by
  obtain ⟨rest, hrest⟩ := List.head?_eq_some_iff.1 h
  unfold pending others
  rw [hrest]
  rfl

theorem mem_pending {s : System σ κ ι ν} {sec : ι} (h : s.current = some sec) :
    sec ∈ s.pending := by
  rw [pending_eq h]
  exact mem_cons_self

def busy [DecidableEq κ] (s : System σ κ ι ν) : Option κ → Bool
  | none => false
  | some owner => s.tasks.any (·.owner = some owner)

variable [DecidableEq κ] [Inhabited ν] (m : Machine σ κ ι ε ν)

/-- An event, unless it starts a handler of an owner who has one. -/
def event (s : System σ κ ι ν) (e : ε) : System σ κ ι ν :=
  match m.handle s.state e with
  | (state, none) => { s with state := state }
  | (state, some task) =>
    if s.busy task.owner then s
    else { s with state := state, running := task, returned := default }

def resume (s : System σ κ ι ν) (n : ℕ) (returned : ν) : System σ κ ι ν :=
  match s.tasks[n]? with
  | some task => { s with tasks := s.tasks.eraseIdx n, running := task, returned := returned }
  | none => s

def proceed (s : System σ κ ι ν) : System σ κ ι ν :=
  match s.running.sections with
  | [] => s
  | sec :: rest =>
    match m.exec s.state s.returned sec with
    | (state, .run sections) =>
      { s with state := state, running := ⟨s.running.owner, sections ++ rest⟩, returned := default }
    | (state, .await sections) =>
      { s with
        state := state
        tasks := s.tasks ++ [⟨s.running.owner, sections ++ rest⟩]
        running := ⟨none, []⟩ }

/-- A handler that runs is not interrupted, but by a restart. -/
def step (s : System σ κ ι ν) : Action ε ν → System σ κ ι ν
  | .event e => if s.running.sections = [] then s.event m e else s
  | .resume n returned => if s.running.sections = [] then s.resume n returned else s
  | .proceed => s.proceed m
  | .restart =>
    { s with state := m.restart s.state, tasks := [], running := ⟨none, []⟩ }

end System

variable {s : System σ κ ι ν}

def started (task : Option (Task κ ι)) : List ι := task.elim [] (·.sections)

theorem pending_resume {n : ℕ} {task : Task κ ι} (hidle : s.running.sections = [])
    (hn : s.tasks[n]? = some task) :
    s.pending.Perm (task.sections ++ (s.tasks.eraseIdx n).flatMap (·.sections)) := by
  obtain ⟨hlt, rfl⟩ := List.getElem?_eq_some_iff.1 hn
  unfold System.pending
  rw [hidle, nil_append]
  exact ((getElem_cons_eraseIdx_perm hlt).flatMap_right _).symm

variable [DecidableEq κ] [Inhabited ν] {m : Machine σ κ ι ε ν} {J : σ → List ι → Prop}

theorem state_proceed {sec : ι} (h : s.current = some sec) :
    (s.step m .proceed).state = (m.exec s.state s.returned sec).1 := by
  obtain ⟨rest, hrest⟩ := List.head?_eq_some_iff.1 h
  unfold System.step System.proceed
  dsimp only
  rw [hrest]
  dsimp only
  cases m.exec s.state s.returned sec with
  | mk state next => cases next <;> rfl

/-- A relation between the state and the sections still to do holds after a step, if events,
sections and restarts keep it. -/
theorem step_induction {a : Action ε ν}
    (hperm : ∀ {state : σ} {l l' : List ι}, l.Perm l' → J state l → J state l')
    (hevent : ∀ e, a = .event e → s.running.sections = [] →
      J (m.handle s.state e).1 (started (m.handle s.state e).2 ++ s.pending))
    (hsection : ∀ sec, a = .proceed → s.current = some sec → J (m.exec s.state s.returned sec).1
        ((m.exec s.state s.returned sec).2.sections ++ s.others))
    (hrestart : a = .restart → J (m.restart s.state) [])
    (h : J s.state s.pending) : J (s.step m a).state (s.step m a).pending := by
  cases a with
  | event e =>
    unfold System.step
    dsimp only
    split_ifs with hidle
    · have hnext := hevent e rfl hidle
      unfold System.event
      cases hhandle : m.handle s.state e with
      | mk state task =>
        rw [hhandle] at hnext
        cases task with
        | none => exact hnext
        | some task =>
          dsimp only
          split_ifs
          · exact h
          · unfold System.pending at hnext ⊢
            rw [hidle, nil_append] at hnext
            exact hnext
    · exact h
  | resume n returned =>
    unfold System.step
    dsimp only
    split_ifs with hidle
    · unfold System.resume
      cases hn : s.tasks[n]? with
      | none => exact h
      | some task => exact hperm (pending_resume hidle hn) h
    · exact h
  | proceed =>
    unfold System.step System.proceed
    dsimp only
    cases hrunning : s.running.sections with
    | nil => exact h
    | cons sec rest =>
      have hnext := hsection sec rfl (by unfold System.current; rw [hrunning]; rfl)
      dsimp only
      unfold System.others at hnext
      rw [hrunning] at hnext
      cases hexec : m.exec s.state s.returned sec with
      | mk state next =>
        rw [hexec] at hnext
        cases next with
        | run sections =>
          refine hperm ?_ hnext
          change (sections ++ (rest ++ _)).Perm (sections ++ rest ++ _)
          rw [append_assoc]
        | await sections =>
          refine hperm ?_ hnext
          change (sections ++ (rest ++ _)).Perm
            ([] ++ (s.tasks ++ [(⟨_, sections ++ rest⟩ : Task κ ι)]).flatMap _)
          rw [nil_append, flatMap_append, flatMap_singleton, ← append_assoc]
          exact perm_append_comm
  | restart => exact hrestart rfl

/-! ### A handler alone -/

/-- What a handler does to the state if nothing else happens; any wait may return anything. -/
inductive Alone (m : Machine σ κ ι ε ν) : σ → ν → List ι → σ → Prop
  | done (state : σ) (r : ν) : Alone m state r [] state
  | run {state state' last : σ} {r : ν} {sec : ι} {sections rest : List ι}
    (hexec : m.exec state r sec = (state', .run sections))
    (hrest : Alone m state' default (sections ++ rest) last) : Alone m state r (sec :: rest) last
  | await {state state' last : σ} {r r' : ν} {sec : ι} {sections rest : List ι}
    (hexec : m.exec state r sec = (state', .await sections))
    (hrest : Alone m state' r' (sections ++ rest) last) : Alone m state r (sec :: rest) last

omit [DecidableEq κ] in
theorem alone_nil {state last : σ} {r : ν} : Alone m state r [] last ↔ last = state := by
  constructor
  · rintro ⟨⟩
    rfl
  · rintro rfl
    exact .done _ _

/-- What follows a section of a handler that runs alone. -/
def After (m : Machine σ κ ι ε ν) (rest : List ι) (last : σ) : σ × Next ι → Prop
  | (state, .run sections) => Alone m state default (sections ++ rest) last
  | (state, .await sections) => ∃ r, Alone m state r (sections ++ rest) last

omit [DecidableEq κ] in
theorem alone_cons {state last : σ} {r : ν} {sec : ι} {rest : List ι} :
    Alone m state r (sec :: rest) last ↔ After m rest last (m.exec state r sec) := by
  constructor
  · intro h
    cases h with
    | run hexec hrest => rw [hexec]; exact hrest
    | await hexec hrest => rw [hexec]; exact ⟨_, hrest⟩
  · intro h
    cases hexec : m.exec state r sec with
    | mk state' next =>
      rw [hexec] at h
      cases next with
      | run sections => exact .run hexec h
      | await sections =>
        obtain ⟨r', hrest⟩ := h
        exact .await hexec hrest

end Handlers
