import EdgeBase.Lib.Runs
import Mathlib.Data.List.Forall2
import Mathlib.Data.List.Infix

/-!
# Programs that share a store

A program calls a store, one call after the other, and decides on each answer how to go on.  A call
is atomic; between two calls of one program there may be any calls of others, and whatever else
happens to the store.

* `Shared.Moves`, `Shared.moves_step` : what an action does.
* `Shared.exists_returns` : a program that is left to itself returns.
-/

/-- A program that makes calls, each with an answer, and returns a value. -/
inductive Prog (ι : Type) (ρ : ι → Type) (α : Type) where
  | pure (a : α)
  | call (i : ι) (next : ρ i → Prog ι ρ α)

abbrev Answered {ι : Type} (ρ : ι → Type) := (i : ι) × ρ i

namespace Prog

variable {ι : Type} {ρ : ι → Type} {α β : Type}

def bind : Prog ι ρ α → (α → Prog ι ρ β) → Prog ι ρ β
  | .pure a, f => f a
  | .call i next, f => .call i fun r => (next r).bind f

instance : Monad (Prog ι ρ) where
  pure := .pure
  bind := bind

def perform (i : ι) : Prog ι ρ (ρ i) := .call i .pure

theorem bind_pure' (p : Prog ι ρ α) : p.bind .pure = p := by
  induction p with
  | pure a => rfl
  | call i next ih => exact congrArg (Prog.call i) (funext ih)

theorem bind_bind {γ : Type} (p : Prog ι ρ α) (f : α → Prog ι ρ β) (g : β → Prog ι ρ γ) :
    (p.bind f).bind g = p.bind fun a => (f a).bind g := by
  induction p with
  | pure a => rfl
  | call i next ih => exact congrArg (Prog.call i) (funext ih)

instance : LawfulMonad (Prog ι ρ) := LawfulMonad.mk' _ bind_pure' (fun _ _ => rfl) bind_bind

def batch {γ : Type} : List ι → Prog ι (fun _ => γ) (List γ)
  | [] => pure []
  | i :: is => do
    let r ← perform i
    let rs ← batch is
    pure (r :: rs)

def returned : Prog ι ρ α → Option α
  | .pure a => some a
  | .call _ _ => none

theorem returned_eq_some {p : Prog ι ρ α} {a : α} : p.returned = some a ↔ p = .pure a := by
  cases p <;> simp [returned]

/-! ### Contracts -/

/-- What a program relies on and guarantees, after the calls that it has made. -/
structure Contract {ι : Type} (ρ : ι → Type) where
  rely : List (Answered ρ) → (i : ι) → ρ i → Prop
  guarantee : List (Answered ρ) → ι → Prop

/-- The calls of a program are what its contract guarantees, and what it returns is as stated. -/
def Meets (c : Contract ρ) (Q : List (Answered ρ) → α → Prop) :
    Prog ι ρ α → List (Answered ρ) → Prop
  | .pure a, log => Q log a
  | .call i next, log =>
    c.guarantee log i ∧ ∀ r, c.rely log i r → Meets c Q (next r) (log ++ [⟨i, r⟩])

variable {c : Contract ρ} {Q Q' : List (Answered ρ) → α → Prop} {p : Prog ι ρ α}
  {log : List (Answered ρ)}

@[simp] theorem meets_pure {a : α} : Meets c Q (.pure a) log ↔ Q log a := Iff.rfl

@[simp] theorem meets_pure' {a : α} : Meets c Q (Pure.pure a) log ↔ Q log a := Iff.rfl

theorem meets_call {i : ι} {next : ρ i → Prog ι ρ α} : Meets c Q (.call i next) log ↔
    c.guarantee log i ∧ ∀ r, c.rely log i r → Meets c Q (next r) (log ++ [⟨i, r⟩]) := Iff.rfl

@[simp] theorem meets_perform {i : ι} {Q : List (Answered ρ) → ρ i → Prop} :
    Meets c Q (perform i) log ↔
      c.guarantee log i ∧ ∀ r, c.rely log i r → Q (log ++ [⟨i, r⟩]) r := Iff.rfl

@[simp] theorem meets_bind {f : α → Prog ι ρ β} {Q : List (Answered ρ) → β → Prop} :
    Meets c Q (p >>= f) log ↔ Meets c (fun log a => Meets c Q (f a) log) p log := by
  induction p generalizing log with
  | pure a => rfl
  | call i next ih => exact and_congr_right fun _ => forall₂_congr fun r _ => ih r

@[simp] theorem meets_map {f : α → β} {Q : List (Answered ρ) → β → Prop} :
    Meets c Q (f <$> p) log ↔ Meets c (fun log a => Q log (f a)) p log := by
  rw [map_eq_pure_bind, meets_bind]
  rfl

theorem Meets.imp (h : Meets c Q p log)
    (hQ : ∀ log' a, log <+: log' → Q log' a → Q' log' a) : Meets c Q' p log := by
  induction p generalizing log with
  | pure a => exact hQ log a (List.prefix_refl log) h
  | call i next ih =>
    exact ⟨h.1, fun r hr => ih r (h.2 r hr) fun log' a hlog =>
      hQ log' a ((List.prefix_append log [⟨i, r⟩]).trans hlog)⟩

/-- A call that was made after some others, and before some. -/
def Made (c : Contract ρ) (log log' : List (Answered ρ)) (i : ι) (r : ρ i) : Prop :=
  ∃ before, log <+: before ∧ c.rely before i r ∧ before ++ [⟨i, r⟩] <+: log'

theorem Made.mem {log' : List (Answered ρ)} {i : ι} {r : ρ i} (h : Made c log log' i r) :
    (⟨i, r⟩ : Answered ρ) ∈ log' := by
  obtain ⟨before, -, -, h⟩ := h
  exact h.subset (List.mem_append_right _ (List.mem_singleton_self _))

theorem meets_batch {γ : Type} {c : Contract fun _ : ι => γ} {is : List ι}
    {log : List (Answered fun _ : ι => γ)}
    (hg : ∀ log', log <+: log' → ∀ i ∈ is, c.guarantee log' i) :
    Meets c (fun log' rs => List.Forall₂ (Made c log log') is rs) (batch is) log := by
  induction is generalizing log with
  | nil => exact .nil
  | cons i is ih =>
    simp only [batch, meets_bind, meets_perform]
    refine ⟨hg log (List.prefix_refl log) i (List.mem_cons_self ..), fun r hr => ?_⟩
    have hlog : log <+: log ++ [⟨i, r⟩] := List.prefix_append ..
    refine (ih fun log' h i' hi' => hg log' (hlog.trans h) i' (List.mem_cons_of_mem i hi')).imp
      fun log' rs h hrs => ?_
    refine .cons ⟨log, List.prefix_refl log, hr, h⟩ (hrs.imp ?_)
    rintro i' r' ⟨before, hbefore, hmade⟩
    exact ⟨before, hlog.trans hbefore, hmade⟩

/-! ### Programs that throw -/

section

variable {δ : Type} {Q : List (Answered ρ) → Except δ α → Prop}

theorem meets_run_bind {x : ExceptT δ (Prog ι ρ) β} {f : β → ExceptT δ (Prog ι ρ) α} :
    Meets c Q (x >>= f).run log ↔ Meets c (fun log r =>
      match r with
      | .ok b => Meets c Q (f b).run log
      | .error e => Q log (.error e)) x.run log := by
  rw [ExceptT.run_bind, meets_bind]
  constructor
  · refine fun h => h.imp fun log r _ h => ?_
    cases r <;> exact h
  · refine fun h => h.imp fun log r _ h => ?_
    cases r <;> exact h

@[simp] theorem meets_run_lift {p : Prog ι ρ α} :
    Meets c Q (liftM p : ExceptT δ (Prog ι ρ) α).run log ↔
      Meets c (fun log a => Q log (.ok a)) p log :=
  meets_map

@[simp] theorem meets_run_pure {a : α} :
    Meets c Q (Pure.pure a : ExceptT δ (Prog ι ρ) α).run log ↔ Q log (.ok a) :=
  Iff.rfl

@[simp] theorem meets_run_throw {e : δ} :
    Meets c Q (throw e : ExceptT δ (Prog ι ρ) α).run log ↔ Q log (.error e) :=
  Iff.rfl

@[simp] theorem meets_run_mk {x : Except δ α} :
    Meets c Q (ExceptT.mk (Pure.pure x) : ExceptT δ (Prog ι ρ) α).run log ↔ Q log x :=
  Iff.rfl

theorem meets_run_ite {b : Prop} [Decidable b] {x y : ExceptT δ (Prog ι ρ) α} :
    Meets c Q (if b then x else y).run log ↔
      (b → Meets c Q x.run log) ∧ (¬b → Meets c Q y.run log) := by
  split <;> simp [*]

theorem Meets.run_bind {x : ExceptT δ (Prog ι ρ) β} {f : β → ExceptT δ (Prog ι ρ) α}
    {R : List (Answered ρ) → β → Prop}
    (h : Meets c (fun log r => ∃ b, r = .ok b ∧ R log b) x.run log)
    (hf : ∀ log' b, log <+: log' → R log' b → Meets c Q (f b).run log') :
    Meets c Q (x >>= f).run log := by
  refine meets_run_bind.2 (h.imp ?_)
  rintro log' _ hlog ⟨b, rfl, hb⟩
  exact hf log' b hlog hb

end

end Prog

/-! ### Programs side by side -/

/-- A store, calls with what is left of their programs, and all that they have called. -/
structure Shared (σ : Type) {ι : Type} (ρ : ι → Type) (κ α : Type) where
  store : σ
  threads : List (κ × Prog ι ρ α) := []
  history : List (ℕ × Answered ρ) := []

namespace Shared

variable {σ ι : Type} {ρ : ι → Type} {κ α ε : Type}

/-- How the store answers, what else happens to it, and the programs. -/
structure System (σ : Type) {ι : Type} (ρ : ι → Type) (κ α ε : Type) where
  exec : (i : ι) → σ → ρ i × σ
  env : ε → σ → σ
  body : κ → Prog ι ρ α

inductive Action (κ ε : Type) where
  | begin (k : κ)
  /-- A program makes its next call. -/
  | proceed (n : ℕ)
  /-- Something else happens to the store. -/
  | other (e : ε)

def step (S : System σ ρ κ α ε) (w : Shared σ ρ κ α) : Action κ ε → Shared σ ρ κ α
  | .begin k => { w with threads := w.threads ++ [(k, S.body k)] }
  | .proceed n =>
    match w.threads[n]? with
    | some (k, .call i next) =>
      { store := (S.exec i w.store).2
        threads := w.threads.set n (k, next (S.exec i w.store).1)
        history := w.history ++ [(n, ⟨i, (S.exec i w.store).1⟩)] }
    | _ => w
  | .other e => { w with store := S.env e w.store }

def idle (s : σ) : Shared σ ρ κ α := { store := s }

def own (n : ℕ) (history : List (ℕ × Answered ρ)) : List (Answered ρ) :=
  history.filterMap fun e => if e.1 = n then some e.2 else none

theorem own_append (n m : ℕ) (history : List (ℕ × Answered ρ)) (e : Answered ρ) :
    own n (history ++ [(m, e)]) = own n history ++ if m = n then [e] else [] := by
  unfold own
  rw [List.filterMap_append]
  split <;> simp [*]

theorem mem_own {n : ℕ} {history : List (ℕ × Answered ρ)} {e : Answered ρ} :
    e ∈ own n history ↔ (n, e) ∈ history := by
  simp only [own, List.mem_filterMap, Option.ite_none_right_eq_some, Option.some.injEq]
  constructor
  · rintro ⟨⟨m, e'⟩, hmem, rfl, rfl⟩
    exact hmem
  · exact fun hmem => ⟨(n, e), hmem, rfl, rfl⟩

inductive Moves (S : System σ ρ κ α ε) (w : Shared σ ρ κ α) : Action κ ε → Shared σ ρ κ α → Prop
  | begin (k : κ) : Moves S w (.begin k) { w with threads := w.threads ++ [(k, S.body k)] }
  | call {n : ℕ} {k : κ} {i : ι} {next : ρ i → Prog ι ρ α}
    (hn : w.threads[n]? = some (k, .call i next)) :
    Moves S w (.proceed n)
      { store := (S.exec i w.store).2
        threads := w.threads.set n (k, next (S.exec i w.store).1)
        history := w.history ++ [(n, ⟨i, (S.exec i w.store).1⟩)] }
  /-- There is no such program, or it has returned. -/
  | idle {n : ℕ} (hn : ∀ k i next, w.threads[n]? ≠ some (k, .call i next)) :
    Moves S w (.proceed n) w
  | other (e : ε) : Moves S w (.other e) { w with store := S.env e w.store }

theorem moves_step (S : System σ ρ κ α ε) (w : Shared σ ρ κ α) (action : Action κ ε) :
    Moves S w action (w.step S action) := by
  cases action with
  | begin k => exact .begin k
  | other e => exact .other e
  | proceed n =>
    rw [step]
    split
    · next k i next hn => exact .call hn
    · next hn => exact .idle fun k i next h => hn k i next h

structure Meeting (c : κ → Prog.Contract ρ) (Post : κ → List (Answered ρ) → α → Prop)
    (w : Shared σ ρ κ α) : Prop where
  meets : ∀ (n : ℕ) (k : κ) (q : Prog ι ρ α), w.threads[n]? = some (k, q) →
    q.Meets (c k) (Post k) (own n w.history)
  fresh : ∀ n : ℕ, w.threads.length ≤ n → own n w.history = []

variable {S : System σ ρ κ α ε} {c : κ → Prog.Contract ρ}
  {Post : κ → List (Answered ρ) → α → Prop} {w w' : Shared σ ρ κ α} {action : Action κ ε}

theorem meeting_idle (s : σ) : Meeting c Post (idle s) where
  meets _ _ _ hthread := by cases hthread
  fresh _ _ := rfl

namespace Meeting

theorem returned (h : Meeting c Post w) {n : ℕ} {k : κ} {a : α}
    (hn : w.threads[n]? = some (k, .pure a)) : Post k (own n w.history) a :=
  h.meets n k _ hn

theorem guarantee (h : Meeting c Post w) {n : ℕ} {k : κ} {i : ι} {next : ρ i → Prog ι ρ α}
    (hn : w.threads[n]? = some (k, .call i next)) : (c k).guarantee (own n w.history) i :=
  (Prog.meets_call.1 (h.meets n k _ hn)).1

theorem step (h : Meeting c Post w) (hmoves : Moves S w action w')
    (hbody : ∀ k, (S.body k).Meets (c k) (Post k) [])
    (hrely : ∀ n k i next, action = .proceed n → w.threads[n]? = some (k, .call i next) →
      (c k).rely (own n w.history) i (S.exec i w.store).1) : Meeting c Post w' := by
  cases hmoves with
  | other e => exact ⟨h.meets, h.fresh⟩
  | idle hn => exact h
  | begin k =>
    refine ⟨fun n k' q hthread => ?_, fun n hn => h.fresh n ?_⟩
    · rcases lt_or_ge n w.threads.length with hn | hn
      · exact h.meets n k' q (by rwa [List.getElem?_append_left hn] at hthread)
      · -- a new program has called nothing
        have hown : own n w.history = [] := h.fresh n hn
        rw [List.getElem?_append_right hn, List.getElem?_singleton] at hthread
        split at hthread
        · obtain ⟨rfl, rfl⟩ := Prod.mk.inj (Option.some.inj hthread)
          exact hown.symm ▸ hbody k
        · cases hthread
    · simp only [List.length_append, List.length_singleton] at hn
      omega
  | @call n k i next hn =>
    have hlt : n < w.threads.length := (List.getElem?_eq_some_iff.1 hn).1
    have hmeets := Prog.meets_call.1 (h.meets n k _ hn)
    refine ⟨fun m k' q hthread => ?_, fun m hm => ?_⟩
    · rw [own_append]
      by_cases hnm : n = m
      · subst hnm
        rw [List.getElem?_set_self hlt] at hthread
        obtain ⟨rfl, rfl⟩ := Prod.mk.inj (Option.some.inj hthread)
        rw [if_pos rfl]
        exact hmeets.2 _ (hrely n k i next rfl hn)
      · rw [List.getElem?_set_ne hnm] at hthread
        rw [if_neg hnm, List.append_nil]
        exact h.meets m k' q hthread
    · rw [List.length_set] at hm
      have hnm : n ≠ m := by omega
      rw [own_append, if_neg hnm, List.append_nil]
      exact h.fresh m hm

end Meeting

/-- The rule of rely and guarantee: what holds answers every call as its program relies on, and the
calls that the programs guarantee keep it. -/
theorem meeting_run {P Q : Shared σ ρ κ α → Action κ ε → Prop} {I : Shared σ ρ κ α → Prop} {s : σ}
    {actions : List (Action κ ε)} (h : Runs.Along (step S) P (idle s) actions) (hs : I (idle s))
    (hbody : ∀ k, (S.body k).Meets (c k) (Post k) [])
    (hrely : ∀ w n k i next, Meeting c Post w → I w → P w (.proceed n) →
      w.threads[n]? = some (k, .call i next) → (c k).rely (own n w.history) i (S.exec i w.store).1)
    (hstep : ∀ w w' action, Moves S w action w' → Meeting c Post w → Meeting c Post w' → I w →
      P w action → I w') (hQ : ∀ w action, Meeting c Post w → I w → P w action → Q w action) :
    Runs.Along (step S) Q (idle s) actions ∧ Meeting c Post (Runs.last (step S) (idle s) actions) ∧
        I (Runs.last (step S) (idle s) actions) := by
  refine h.of_invariant (I := fun w => Meeting c Post w ∧ I w) ⟨meeting_idle s, hs⟩ ?_
    fun w action hw hP => hQ w action hw.1 hw.2 hP
  rintro w action ⟨hmeeting, hI⟩ hP
  have hmeeting' : Meeting c Post (w.step S action) :=
    hmeeting.step (moves_step S w action) hbody fun n k i next haction hn =>
      hrely w n k i next hmeeting hI (haction ▸ hP) hn
  exact ⟨hmeeting', hstep w _ action (moves_step S w action) hmeeting hmeeting' hI hP⟩

def outcome (w : Shared σ ρ κ α) (n : ℕ) : Option (κ × Option α) :=
  w.threads[n]?.map fun t => (t.1, t.2.returned)

theorem outcome_eq_some {n : ℕ} {k : κ} {a : α} :
    w.outcome n = some (k, some a) ↔ w.threads[n]? = some (k, .pure a) := by
  simp only [outcome, Option.map_eq_some_iff, Prod.mk.injEq, Prog.returned_eq_some]
  constructor
  · rintro ⟨⟨k, q⟩, hn, rfl, rfl⟩
    exact hn
  · exact fun hn => ⟨_, hn, rfl, rfl⟩

theorem exists_returns {n : ℕ} {k : κ} {q : Prog ι ρ α} (hn : w.threads[n]? = some (k, q)) :
    ∃ m a, (Runs.last (step S) w (List.replicate m (.proceed n))).threads[n]? =
      some (k, .pure a) := by
  induction q generalizing w with
  | pure a => exact ⟨0, a, hn⟩
  | call i next ih =>
    have hlt : n < w.threads.length := (List.getElem?_eq_some_iff.1 hn).1
    have hstep : (w.step S (.proceed n)).threads[n]? =
        some (k, next (S.exec i w.store).1) := by
      simp only [step, hn]
      exact List.getElem?_set_self hlt
    obtain ⟨m, a, h⟩ := ih _ hstep
    exact ⟨m + 1, a, h⟩

end Shared
