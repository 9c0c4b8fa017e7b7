import Mathlib.Data.List.Basic

/-!
# Computations with a log

Computations over a state that log events and may fail.  Unlike in an exception monad over a
writer, a failing run keeps the state it reached and the events it logged: what a request did
before it was refused counts.

* `Audited.runAll_ensures` : a run of many computations keeps what each of them does.
* `Audited.forEach_reaches` : what each computation of a list establishes holds after all of them.
-/

theorem Except.bind_eq_ok {ε α β : Type} {x : Except ε α} {f : α → Except ε β} {b : β} :
    (x >>= f) = .ok b ↔ ∃ a, x = .ok a ∧ f a = .ok b := by
  cases x with
  | error e => exact ⟨nofun, fun ⟨_, h, _⟩ => nomatch h⟩
  | ok a => exact ⟨fun h => ⟨a, rfl, h⟩, fun ⟨_, ha, h⟩ => by obtain rfl := Except.ok.inj ha; exact h⟩

/-- What one run gives: a value or an error, the state reached, and the events logged. -/
structure Outcome (σ τ ε α : Type) where
  result : Except ε α
  state : σ
  log : List τ

/-- A computation over the states `σ` that logs events `τ` and fails with errors `ε`. -/
def Audited (σ τ ε α : Type) := σ → Outcome σ τ ε α

namespace Audited

open List

variable {σ τ ε α β : Type}

/-- Sequencing: the second computation runs where the first one succeeded. -/
def bind (m : Audited σ τ ε α) (k : α → Audited σ τ ε β) : Audited σ τ ε β := fun s =>
  match (m s).result with
  | .error e => ⟨.error e, (m s).state, (m s).log⟩
  | .ok a =>
    let next := k a (m s).state
    ⟨next.result, next.state, (m s).log ++ next.log⟩

instance : Monad (Audited σ τ ε) where
  pure a := fun s => ⟨.ok a, s, []⟩
  bind := bind

def fail (e : ε) : Audited σ τ ε α := fun s => ⟨.error e, s, []⟩

/-- The value of an expression that may fail. -/
def lift (x : Except ε α) : Audited σ τ ε α := fun s => ⟨x, s, []⟩

def emit (t : τ) : Audited σ τ ε Unit := fun s => ⟨.ok (), s, [t]⟩

def emitAll (ts : List τ) : Audited σ τ ε Unit := fun s => ⟨.ok (), s, ts⟩

def read (f : σ → α) : Audited σ τ ε α := fun s => ⟨.ok (f s), s, []⟩

def update (f : σ → σ) : Audited σ τ ε Unit := fun s => ⟨.ok (), f s, []⟩

/-- Fails with `e` unless `c` holds. -/
def check (c : Prop) [Decidable c] (e : ε) : Audited σ τ ε Unit :=
  if c then pure () else fail e

/-- A transaction: a failing body leaves no trace but the events that are not `undone`. -/
def atomic (undone : τ → Bool) (m : Audited σ τ ε α) : Audited σ τ ε α := fun s =>
  match (m s).result with
  | .ok a => ⟨.ok a, (m s).state, (m s).log⟩
  | .error e => ⟨.error e, s, (m s).log.filter fun t => !undone t⟩

/-- `try ... catch`: the handler goes on from the state that the failing run reached. -/
def recover (m : Audited σ τ ε α) (h : ε → Audited σ τ ε α) : Audited σ τ ε α := fun s =>
  match (m s).result with
  | .ok a => ⟨.ok a, (m s).state, (m s).log⟩
  | .error e =>
    let next := h e (m s).state
    ⟨next.result, next.state, (m s).log ++ next.log⟩

/-- Runs a computation for each element in turn, and collects the values. -/
def forEach (f : α → Audited σ τ ε β) : List α → Audited σ τ ε (List β)
  | [] => pure []
  | x :: xs => do
    let b ← f x
    let bs ← forEach f xs
    pure (b :: bs)

/-! ### Running a computation -/

theorem bind_apply (m : Audited σ τ ε α) (k : α → Audited σ τ ε β) (s : σ) :
    (m >>= k) s = match (m s).result with
      | .error e => ⟨.error e, (m s).state, (m s).log⟩
      | .ok a => ⟨(k a (m s).state).result, (k a (m s).state).state,
          (m s).log ++ (k a (m s).state).log⟩ := rfl

theorem bind_of_ok {m : Audited σ τ ε α} {k : α → Audited σ τ ε β} {s : σ} {a : α}
    (h : (m s).result = .ok a) : (m >>= k) s = ⟨(k a (m s).state).result, (k a (m s).state).state,
      (m s).log ++ (k a (m s).state).log⟩ := by
  rw [bind_apply, h]

theorem bind_of_error {m : Audited σ τ ε α} {k : α → Audited σ τ ε β} {s : σ} {e : ε}
    (h : (m s).result = .error e) : (m >>= k) s = ⟨.error e, (m s).state, (m s).log⟩ := by
  rw [bind_apply, h]

theorem map_apply (f : α → β) (m : Audited σ τ ε α) (s : σ) :
    (f <$> m) s = ⟨(m s).result.map f, (m s).state, (m s).log⟩ := by
  change (m >>= fun a => pure (f a)) s = _
  rw [bind_apply]
  cases (m s).result with
  | error e => rfl
  | ok a => exact congrArg (Outcome.mk _ _) (append_nil _)

@[simp] theorem pure_apply (a : α) (s : σ) :
    (pure a : Audited σ τ ε α) s = ⟨.ok a, s, []⟩ := rfl

theorem bind_result_ok {m : Audited σ τ ε α} {k : α → Audited σ τ ε β} {s : σ} {b : β} :
    ((m >>= k) s).result = .ok b ↔
      ∃ a, (m s).result = .ok a ∧ ((k a) (m s).state).result = .ok b := by
  rw [bind_apply]
  cases (m s).result with
  | error e => exact ⟨nofun, fun ⟨_, h, _⟩ => nomatch h⟩
  | ok a => exact ⟨fun h => ⟨a, rfl, h⟩, fun ⟨_, ha, h⟩ => by obtain rfl := Except.ok.inj ha; exact h⟩

theorem lift_bind_result_ok {x : Except ε α} {k : α → Audited σ τ ε β} {s : σ} {b : β} :
    ((lift x >>= k) s).result = .ok b ↔ ∃ a, x = .ok a ∧ (k a s).result = .ok b :=
  bind_result_ok

@[simp] theorem fail_apply (e : ε) (s : σ) :
    (fail e : Audited σ τ ε α) s = ⟨.error e, s, []⟩ := rfl

@[simp] theorem fail_bind (e : ε) (k : α → Audited σ τ ε β) :
    (fail e >>= k : Audited σ τ ε β) = fail e := rfl

@[simp] theorem lift_ok_bind (a : α) (k : α → Audited σ τ ε β) :
    (lift (.ok a) >>= k : Audited σ τ ε β) = k a := rfl

@[simp] theorem lift_error_bind (e : ε) (k : α → Audited σ τ ε β) :
    (lift (.error e) >>= k : Audited σ τ ε β) = fail e := rfl

@[simp] theorem read_bind_apply (f : σ → α) (k : α → Audited σ τ ε β) (s : σ) :
    (read f >>= k) s = k (f s) s := rfl

@[simp] theorem update_bind_apply (f : σ → σ) (k : Unit → Audited σ τ ε β) (s : σ) :
    (update f >>= k) s = k () (f s) := rfl

@[simp] theorem emit_bind_apply (t : τ) (k : Unit → Audited σ τ ε β) (s : σ) :
    (emit t >>= k) s = ⟨(k () s).result, (k () s).state, t :: (k () s).log⟩ := rfl

@[simp] theorem emitAll_bind_apply (ts : List τ) (k : Unit → Audited σ τ ε β) (s : σ) :
    (emitAll ts >>= k) s = ⟨(k () s).result, (k () s).state, ts ++ (k () s).log⟩ := rfl

@[simp] theorem pure_bind' (a : α) (k : α → Audited σ τ ε β) :
    (pure a >>= k : Audited σ τ ε β) = k a := rfl

theorem recover_fail (m : Audited σ τ ε α) : recover m fail = m := by
  funext s
  unfold recover
  obtain ⟨result, state, log⟩ := m s
  cases result with
  | ok a => rfl
  | error e => exact congrArg (Outcome.mk _ _) (append_nil log)

theorem recover_of_ok {m : Audited σ τ ε α} {s : σ} {a : α} (h : (m s).result = .ok a)
    (handler : ε → Audited σ τ ε α) : recover m handler s = m s := by
  rw [recover, h]
  exact congrArg (Outcome.mk · _ _) h.symm

theorem recover_of_error {m : Audited σ τ ε α} {s : σ} {e : ε} (h : (m s).result = .error e)
    (handler : ε → Audited σ τ ε α) :
    recover m handler s = ⟨(handler e (m s).state).result, (handler e (m s).state).state,
      (m s).log ++ (handler e (m s).state).log⟩ := by
  rw [recover, h]

theorem check_bind (c : Prop) [Decidable c] (e : ε) (k : Unit → Audited σ τ ε β) :
    (check c e >>= k : Audited σ τ ε β) = if c then k () else fail e := by
  unfold check
  split <;> rfl

/-! ### Runs that succeed -/

theorem bind_of_run {m : Audited σ τ ε α} {k : α → Audited σ τ ε β} {s s' : σ} {a : α} {l : List τ}
    (h : m s = ⟨.ok a, s', l⟩) :
    (m >>= k) s = ⟨(k a s').result, (k a s').state, l ++ (k a s').log⟩ := by
  rw [bind_apply, h]

theorem bind_of_failed_run {m : Audited σ τ ε α} {k : α → Audited σ τ ε β} {s s' : σ} {e : ε}
    {l : List τ} (h : m s = ⟨.error e, s', l⟩) : (m >>= k) s = ⟨.error e, s', l⟩ := by
  rw [bind_apply, h]

theorem atomic_of_ok {m : Audited σ τ ε α} {s : σ} {a : α} (h : (m s).result = .ok a)
    (undone : τ → Bool) : atomic undone m s = m s := by
  rw [atomic, h]
  exact congrArg (Outcome.mk · _ _) h.symm

theorem atomic_of_error {m : Audited σ τ ε α} {s : σ} {e : ε} (h : (m s).result = .error e)
    (undone : τ → Bool) :
    atomic undone m s = ⟨.error e, s, (m s).log.filter fun t => !undone t⟩ := by
  rw [atomic, h]

theorem atomic_of_run {m : Audited σ τ ε α} {s s' : σ} {a : α} {l : List τ}
    (h : m s = ⟨.ok a, s', l⟩) (undone : τ → Bool) : atomic undone m s = ⟨.ok a, s', l⟩ := by
  rw [atomic, h]

variable {f : α → Audited σ τ ε β}

theorem forEach_singleton_of_run {x : α} {s s' : σ} {b : β} {l : List τ}
    (h : f x s = ⟨.ok b, s', l⟩) : forEach f [x] s = ⟨.ok [b], s', l⟩ := by
  rw [forEach, bind_of_run h]
  exact congrArg (Outcome.mk _ _) (append_nil l)

theorem forEach_singleton_of_ok {x : α} {s : σ} {b : β} (h : (f x s).result = .ok b) :
    (forEach f [x] s).result = .ok [b] ∧ (forEach f [x] s).state = (f x s).state := by
  rw [forEach, bind_of_ok h]
  exact ⟨rfl, rfl⟩

theorem forEach_cons_of_error {x : α} {s : σ} {e : ε}
    (h : (f x s).result = .error e) (xs : List α) : (forEach f (x :: xs) s).result = .error e := by
  rw [forEach, bind_of_error h]

theorem forEach_append_of_ok {xs : List α} {s : σ} {bs : List β}
    (h : (forEach f xs s).result = .ok bs) (ys : List α) : (forEach f (xs ++ ys) s).result =
        (forEach f ys (forEach f xs s).state).result.map (bs ++ ·) ∧
      (forEach f (xs ++ ys) s).state = (forEach f ys (forEach f xs s).state).state := by
  induction xs generalizing s bs with
  | nil =>
    obtain rfl : [] = bs := Except.ok.inj h
    refine ⟨?_, rfl⟩
    change (forEach f ys s).result = (forEach f ys s).result.map id
    cases (forEach f ys s).result <;> rfl
  | cons x xs ih =>
    obtain ⟨b, hb, hrest⟩ := bind_result_ok.1 h
    obtain ⟨cs, hcs, hpure⟩ := bind_result_ok.1 hrest
    obtain rfl : b :: cs = bs := Except.ok.inj hpure
    obtain ⟨hresult, hstate⟩ := ih hcs
    have hxs : (forEach f (x :: xs) s).state = (forEach f xs (f x s).state).state := by
      rw [forEach, bind_of_ok hb, bind_of_ok hcs]
      rfl
    rw [cons_append, forEach, bind_of_ok hb, hxs]
    dsimp only
    rw [bind_apply]
    cases hys : (forEach f ys (forEach f xs (f x s).state).state).result with
    | error e =>
      rw [hys] at hresult
      rw [hresult]
      exact ⟨rfl, hstate⟩
    | ok ds =>
      rw [hys] at hresult
      rw [hresult]
      exact ⟨rfl, hstate⟩

theorem forEach_append_of_error {xs : List α} {s : σ} {e : ε}
    (h : (forEach f xs s).result = .error e) (ys : List α) :
    (forEach f (xs ++ ys) s).result = .error e := by
  induction xs generalizing s with
  | nil => exact nomatch h
  | cons x xs ih =>
    rw [cons_append, forEach]
    cases hx : (f x s).result with
    | error e' =>
      rw [forEach, bind_of_error hx] at h
      rw [bind_of_error hx]
      exact h
    | ok b =>
      rw [forEach, bind_of_ok hx] at h
      rw [bind_of_ok hx]
      cases hxs : (forEach f xs (f x s).state).result with
      | ok bs => rw [bind_of_ok hxs] at h; exact nomatch h
      | error e' =>
        rw [bind_of_error hxs] at h
        obtain rfl : e' = e := Except.error.inj h
        rw [bind_of_error (ih hxs)]

/-! ### What a computation does -/

/-- From every state that satisfies `I` a run ends in one, logs only events that satisfy `P`, and
returns, if anything, a value that satisfies `Q`. -/
def Ensures (I : σ → Prop) (P : τ → Prop) (Q : α → Prop) (m : Audited σ τ ε α) : Prop :=
  ∀ s, I s → I (m s).state ∧ (∀ t ∈ (m s).log, P t) ∧ ∀ a, (m s).result = .ok a → Q a

namespace Ensures

variable {I : σ → Prop} {P : τ → Prop} {Q : α → Prop} {R : β → Prop} {m : Audited σ τ ε α}
  {k : α → Audited σ τ ε β}

theorem weaken {Q' : α → Prop} (hm : Ensures I P Q m) (h : ∀ a, Q a → Q' a) : Ensures I P Q' m := by
  intro s hs
  obtain ⟨hstate, hlog, hresult⟩ := hm s hs
  exact ⟨hstate, hlog, fun a ha => h a (hresult a ha)⟩

theorem triv (m : Audited σ τ ε α) : Ensures (fun _ => True) (fun _ => True) (fun _ => True) m :=
  fun _ _ => ⟨trivial, fun _ _ => trivial, fun _ _ => trivial⟩

theorem pure {a : α} (h : Q a) : Ensures I P Q (Pure.pure a : Audited σ τ ε α) := by
  intro s hs
  refine ⟨hs, nofun, fun b hb => ?_⟩
  obtain rfl : a = b := Except.ok.inj hb
  exact h

theorem fail (e : ε) : Ensures I P Q (Audited.fail e : Audited σ τ ε α) :=
  fun _ hs => ⟨hs, nofun, nofun⟩

theorem lift {x : Except ε α} (h : ∀ a, x = .ok a → Q a) :
    Ensures I P Q (Audited.lift x : Audited σ τ ε α) := fun _ hs => ⟨hs, nofun, h⟩

theorem read (f : σ → α) : Ensures I P (fun _ => True) (Audited.read f : Audited σ τ ε α) :=
  fun _ hs => ⟨hs, nofun, fun _ _ => trivial⟩

theorem read_of {f : σ → α} (h : ∀ s, I s → Q (f s)) :
    Ensures I P Q (Audited.read f : Audited σ τ ε α) := by
  intro s hs
  refine ⟨hs, nofun, fun a ha => ?_⟩
  obtain rfl : f s = a := Except.ok.inj ha
  exact h s hs

theorem update {f : σ → σ} (h : ∀ s, I s → I (f s)) :
    Ensures I P (fun _ => True) (Audited.update f : Audited σ τ ε Unit) :=
  fun s hs => ⟨h s hs, nofun, fun _ _ => trivial⟩

theorem emitAll {ts : List τ} (h : ∀ t ∈ ts, P t) :
    Ensures I P (fun _ => True) (Audited.emitAll ts : Audited σ τ ε Unit) :=
  fun _ hs => ⟨hs, h, fun _ _ => trivial⟩

theorem emit {t : τ} (h : P t) :
    Ensures I P (fun _ => True) (Audited.emit t : Audited σ τ ε Unit) :=
  emitAll (forall_mem_singleton.2 h)

theorem check (c : Prop) [Decidable c] (e : ε) :
    Ensures I P (fun _ => c) (Audited.check c e : Audited σ τ ε Unit) := by
  unfold Audited.check
  split
  · exact pure ‹_›
  · exact fail e

theorem bind (hm : Ensures I P Q m) (hk : ∀ a, Q a → Ensures I P R (k a)) :
    Ensures I P R (m >>= k) := by
  intro s hs
  obtain ⟨hstate, hlog, hresult⟩ := hm s hs
  rw [bind_apply]
  cases ha : (m s).result with
  | error e => exact ⟨hstate, hlog, nofun⟩
  | ok a =>
    obtain ⟨hstate', hlog', hresult'⟩ := hk a (hresult a ha) _ hstate
    refine ⟨hstate', fun t ht => ?_, hresult'⟩
    rcases mem_append.1 ht with ht | ht
    · exact hlog t ht
    · exact hlog' t ht

theorem map {f : α → β} (hm : Ensures I P (fun a => R (f a)) m) : Ensures I P R (f <$> m) := by
  intro s hs
  obtain ⟨hstate, hlog, hresult⟩ := hm s hs
  rw [map_apply]
  refine ⟨hstate, hlog, fun b hb => ?_⟩
  cases ha : (m s).result with
  | error e => simp [ha, Except.map] at hb
  | ok a =>
    obtain rfl : f a = b := by simpa [ha, Except.map] using hb
    exact hresult a ha

theorem ite {c : Prop} [Decidable c] {m₁ m₂ : Audited σ τ ε α} (h₁ : c → Ensures I P Q m₁)
    (h₂ : ¬c → Ensures I P Q m₂) : Ensures I P Q (if c then m₁ else m₂) := by
  split
  · exact h₁ ‹_›
  · exact h₂ ‹_›

theorem atomic (undone : τ → Bool) (h : Ensures I P Q m) :
    Ensures I P Q (Audited.atomic undone m) := by
  intro s hs
  obtain ⟨hstate, hlog, hresult⟩ := h s hs
  unfold Audited.atomic
  cases ha : (m s).result with
  | error e => exact ⟨hs, fun t ht => hlog t (mem_of_mem_filter ht), nofun⟩
  | ok a => exact ⟨hstate, hlog, fun b hb => hresult b (ha.trans hb)⟩

theorem forEach {f : α → Audited σ τ ε β} {xs : List α} (h : ∀ x ∈ xs, Ensures I P R (f x)) :
    Ensures I P (fun bs => ∀ b ∈ bs, R b) (Audited.forEach f xs) := by
  induction xs with
  | nil => exact pure nofun
  | cons x xs ih =>
    refine bind (h x (mem_cons_self ..)) fun b hb =>
      bind (ih fun y hy => h y (mem_cons_of_mem _ hy)) fun bs hbs => pure ?_
    exact forall_mem_cons.2 ⟨hb, hbs⟩

theorem forEach_all {f : α → Audited σ τ ε β} {xs : List α} {R : α → Prop}
    (h : ∀ x ∈ xs, Ensures I P (fun _ => R x) (f x)) :
    Ensures I P (fun _ => ∀ x ∈ xs, R x) (Audited.forEach f xs) := by
  induction xs with
  | nil => exact pure nofun
  | cons x xs ih =>
    refine bind (h x (mem_cons_self ..)) fun b hx =>
      bind (ih fun y hy => h y (mem_cons_of_mem _ hy)) fun bs hxs => pure ?_
    exact forall_mem_cons.2 ⟨hx, hxs⟩

end Ensures

/-- A sequence ends in the state that its first part reached, if its second part keeps that. -/
theorem bind_state_of_ok {m : Audited σ τ ε α} {k : α → Audited σ τ ε β} {s : σ} {a : α}
    (h : (m s).result = .ok a)
    (hk : Ensures (· = (m s).state) (fun _ => True) (fun _ => True) (k a)) :
    ((m >>= k) s).state = (m s).state := by
  rw [bind_of_ok h]
  exact (hk _ rfl).1

/-! ### Runs that fail -/

/-- From every state that satisfies `I` a run that fails ends in one that satisfies `J`. -/
def FailKeeps (I J : σ → Prop) (m : Audited σ τ ε α) : Prop :=
  ∀ s, I s → ∀ e, (m s).result = .error e → J (m s).state

theorem FailKeeps.bind {I J : σ → Prop} {P : τ → Prop} {Q : α → Prop} {m : Audited σ τ ε α}
    {k : α → Audited σ τ ε β} (hIJ : ∀ s, I s → J s) (hm : Ensures I P Q m)
    (hk : ∀ a, Q a → FailKeeps I J (k a)) : FailKeeps I J (m >>= k) := by
  intro s hs e he
  obtain ⟨hstate, -, hresult⟩ := hm s hs
  rw [bind_apply] at he ⊢
  cases ha : (m s).result with
  | error e' => exact hIJ _ hstate
  | ok a =>
    rw [ha] at he
    exact hk a (hresult a ha) _ hstate e he

theorem FailKeeps.map {I J : σ → Prop} {m : Audited σ τ ε α} (hm : FailKeeps I J m) (f : α → β) :
    FailKeeps I J (m >>= fun a => pure (f a)) := by
  intro s hs e he
  rw [bind_apply] at he ⊢
  cases ha : (m s).result with
  | error e' => exact hm s hs e' ha
  | ok a => simp [ha] at he

theorem FailKeeps.forEach {I : σ → Prop} {P : τ → Prop} {R : β → Prop} {f : α → Audited σ τ ε β}
    {xs : List α} (h : ∀ x ∈ xs.dropLast, Ensures I P R (f x)) (hlast : ∀ x, FailKeeps I I (f x)) :
    FailKeeps I I (Audited.forEach f xs) := by
  induction xs with
  | nil => exact fun s hs e he => hs
  | cons x xs ih =>
    cases xs with
    | nil => exact (hlast x).map fun b => [b]
    | cons y ys =>
      refine .bind (fun _ hs => hs) (h x (mem_cons_self ..)) fun b _ => ?_
      exact (ih fun z hz => h z (mem_cons_of_mem _ hz)).map fun bs => b :: bs

/-- From every state that satisfies `I` a run succeeds, with a value that satisfies `Q` and in a
state that satisfies `J`. -/
def Succeeds (I : σ → Prop) (Q : α → Prop) (J : σ → Prop) (m : Audited σ τ ε α) : Prop :=
  ∀ s, I s → ∃ a, (m s).result = .ok a ∧ Q a ∧ J (m s).state

/-- From every state that satisfies `I` a run fails, in a state that satisfies `J`. -/
def Fails (I J : σ → Prop) (m : Audited σ τ ε α) : Prop :=
  ∀ s, I s → ∃ e, (m s).result = .error e ∧ J (m s).state

section

variable {I J K : σ → Prop} {Q : α → Prop} {R : β → Prop} {m : Audited σ τ ε α}
  {k : α → Audited σ τ ε β}

theorem Succeeds.pure {a : α} (h : Q a) : Succeeds I Q I (Pure.pure a : Audited σ τ ε α) :=
  fun _ hs => ⟨a, rfl, h, hs⟩

theorem Succeeds.lift {x : Except ε α} {a : α} (hx : x = .ok a) (h : Q a) :
    Succeeds I Q I (Audited.lift x : Audited σ τ ε α) :=
  fun _ hs => ⟨a, hx, h, hs⟩

theorem Succeeds.read {f : σ → α} (h : ∀ s, I s → Q (f s)) :
    Succeeds I Q I (Audited.read f : Audited σ τ ε α) :=
  fun s hs => ⟨f s, rfl, h s hs, hs⟩

theorem Succeeds.check {c : Prop} [Decidable c] (h : c) (e : ε) :
    Succeeds I (fun _ => True) I (Audited.check c e : Audited σ τ ε Unit) := by
  rw [Audited.check, if_pos h]
  exact pure trivial

theorem Succeeds.bind (hm : Succeeds I Q J m) (hk : ∀ a, Q a → Succeeds J R K (k a)) :
    Succeeds I R K (m >>= k) := by
  intro s hs
  obtain ⟨a, ha, hQ, hJ⟩ := hm s hs
  rw [bind_of_ok ha]
  exact hk a hQ _ hJ

theorem Succeeds.forEach {f : α → Audited σ τ ε β} {xs : List α}
    (h : ∀ x ∈ xs, Succeeds I (fun _ => True) I (f x)) :
    Succeeds I (fun _ => True) I (Audited.forEach f xs) := by
  induction xs with
  | nil => exact pure trivial
  | cons x xs ih =>
    exact .bind (h x (mem_cons_self ..)) fun b _ =>
      .bind (ih fun y hy => h y (mem_cons_of_mem _ hy)) fun bs _ => pure trivial

theorem Fails.lift {x : Except ε α} {e : ε} (h : x = .error e) :
    Fails I I (Audited.lift x : Audited σ τ ε α) :=
  fun _ hs => ⟨e, h, hs⟩

theorem Fails.bind (hm : Fails I J m) : Fails I J (m >>= k) := by
  intro s hs
  obtain ⟨e, he, hJ⟩ := hm s hs
  rw [bind_of_error he]
  exact ⟨e, rfl, hJ⟩

theorem Fails.seq (hm : Succeeds I Q J m) (hk : ∀ a, Q a → Fails J K (k a)) :
    Fails I K (m >>= k) := by
  intro s hs
  obtain ⟨a, ha, hQ, hJ⟩ := hm s hs
  rw [bind_of_ok ha]
  exact hk a hQ _ hJ

end

/-! ### Runs -/

/-- A run of a list of computations, each from the state in which the last one ended, whether that
succeeded or not: the state reached, and everything logged. -/
def runAll (s : σ) : List (Audited σ τ ε α) → σ × List τ
  | [] => (s, [])
  | m :: ms =>
    let rest := runAll (m s).state ms
    (rest.1, (m s).log ++ rest.2)

theorem runAll_ensures {I : σ → Prop} {P : τ → Prop} {Q : α → Prop}
    {ms : List (Audited σ τ ε α)} (h : ∀ m ∈ ms, Ensures I P Q m) {s : σ} (hs : I s) :
    I (runAll s ms).1 ∧ ∀ t ∈ (runAll s ms).2, P t := by
  induction ms generalizing s with
  | nil => exact ⟨hs, nofun⟩
  | cons m ms ih =>
    obtain ⟨hstate, hlog, -⟩ := h m (mem_cons_self ..) s hs
    obtain ⟨hstate', hlog'⟩ := ih (fun m' hm' => h m' (mem_cons_of_mem _ hm')) hstate
    refine ⟨hstate', fun t ht => ?_⟩
    rcases mem_append.1 ht with ht | ht
    · exact hlog t ht
    · exact hlog' t ht

/-- What each computation of a list establishes holds after all of them, if they succeed and none
takes back what another has established. -/
theorem forEach_reaches {I : σ → Prop} {J : α → σ → Prop} {f : α → Audited σ τ ε β} {xs : List α}
    (h : ∀ x ∈ xs, ∀ s, I s → (∃ b, (f x s).result = .ok b) ∧ I (f x s).state ∧
      J x (f x s).state ∧ ∀ y, J y s → J y (f x s).state) {s : σ} (hs : I s) :
    I (forEach f xs s).state ∧ (∀ x ∈ xs, J x (forEach f xs s).state) ∧
      (∃ bs, (forEach f xs s).result = .ok bs) ∧ ∀ y, J y s → J y (forEach f xs s).state := by
  induction xs generalizing s with
  | nil => exact ⟨hs, nofun, ⟨[], rfl⟩, fun _ hy => hy⟩
  | cons x xs ih =>
    obtain ⟨⟨b, hb⟩, hstate, hx, hkeep⟩ := h x (mem_cons_self ..) s hs
    obtain ⟨hend, hall, ⟨bs, hbs⟩, hkeep'⟩ :=
      ih (fun y hy => h y (mem_cons_of_mem _ hy)) hstate
    have hrun : forEach f (x :: xs) s = ⟨.ok (b :: bs), (forEach f xs (f x s).state).state,
        (f x s).log ++ ((forEach f xs (f x s).state).log ++ [])⟩ := by
      rw [forEach, bind_of_ok hb, bind_of_ok hbs]
      rfl
    rw [hrun]
    refine ⟨hend, fun y hy => ?_, ⟨_, rfl⟩, fun y hy => hkeep' y (hkeep y hy)⟩
    rcases mem_cons.1 hy with rfl | hy
    · exact hkeep' y hx
    · exact hall y hy

end Audited
