import EdgeBase.Lib.Audit

/-!
# Partial correctness

What a run of a computation with a log returns, and the state it ends in, if it succeeds.

* `Audited.Yields` : from every state that satisfies `P`, a run that succeeds ends with a value and
  a state that satisfy `Q`; the rules follow the syntax of a program.
-/

theorem Except.forall_of_mapM_ok {ε α β : Type} {f : α → Except ε β} {Q : β → Prop}
    (h : ∀ a b, f a = .ok b → Q b) {as : List α} {bs : List β} (hbs : as.mapM f = .ok bs) :
    ∀ b ∈ bs, Q b := by
  induction as generalizing bs with
  | nil =>
    obtain rfl := Except.ok.inj hbs
    exact nofun
  | cons a as ih =>
    rw [List.mapM_cons] at hbs
    obtain ⟨b, hb, hbs⟩ := Except.bind_eq_ok.1 hbs
    obtain ⟨cs, hcs, hbs⟩ := Except.bind_eq_ok.1 hbs
    obtain rfl := Except.ok.inj hbs
    exact List.forall_mem_cons.2 ⟨h a b hb, ih hcs⟩

namespace Audited

variable {σ τ ε α β : Type}

instance : LawfulMonad (Audited σ τ ε) :=
  LawfulMonad.mk' _
    (fun m => by
      funext s
      rw [map_apply]
      cases h : (m s).result <;> simp [← h])
    (fun _ _ => rfl)
    (fun m k k' => by
      funext s
      simp only [bind_apply]
      cases (m s).result with
      | error e => rfl
      | ok a =>
        dsimp only
        cases (k a (m s).state).result with
        | error e => rfl
        | ok b => simp [List.append_assoc])

@[simp] theorem read_bind_const (f : σ → α) (m : Audited σ τ ε β) :
    (read f >>= fun _ => m) = m := by
  funext s
  rfl

@[simp] theorem map_fail (f : α → β) (e : ε) :
    f <$> (fail e : Audited σ τ ε α) = fail e := rfl

theorem atomic_map (undone : τ → Bool) (f : α → β) (m : Audited σ τ ε α) :
    atomic undone (f <$> m) = f <$> atomic undone m := by
  funext s
  rw [map_apply]
  unfold atomic
  rw [map_apply]
  cases (m s).result <;> rfl

@[simp] theorem map_const_read {γ : Type} (f : σ → γ) (a : α) :
    (fun _ => a) <$> (read f : Audited σ τ ε γ) = pure a := rfl

theorem forEach_map {γ : Type} (g : β → γ) (f : α → Audited σ τ ε β) (xs : List α) :
    forEach (fun x => g <$> f x) xs = List.map g <$> forEach f xs := by
  induction xs with
  | nil => rfl
  | cons x xs ih => simp [forEach, ih]

/-! ### Computations that only look -/

/-- A run changes no state and logs nothing. -/
def Silent (m : Audited σ τ ε α) : Prop := ∀ s, (m s).state = s ∧ (m s).log = []

namespace Silent

variable {m : Audited σ τ ε α} {k : α → Audited σ τ ε β}

theorem pure (a : α) : Silent (Pure.pure a : Audited σ τ ε α) := fun _ => ⟨rfl, rfl⟩

theorem lift (x : Except ε α) : Silent (Audited.lift x : Audited σ τ ε α) := fun _ => ⟨rfl, rfl⟩

theorem read (f : σ → α) : Silent (Audited.read f : Audited σ τ ε α) := fun _ => ⟨rfl, rfl⟩

theorem bind (hm : Silent m) (hk : ∀ a, Silent (k a)) : Silent (m >>= k) := by
  intro s
  obtain ⟨hstate, hlog⟩ := hm s
  rw [bind_apply]
  cases hr : (m s).result with
  | error e => exact ⟨hstate, hlog⟩
  | ok a =>
    obtain ⟨hstate', hlog'⟩ := hk a s
    dsimp only
    rw [hstate, hlog]
    exact ⟨hstate', hlog'⟩

theorem forEach {f : α → Audited σ τ ε β} (h : ∀ x, Silent (f x)) (xs : List α) :
    Silent (Audited.forEach f xs) := by
  induction xs with
  | nil => exact pure _
  | cons x xs ih => exact bind (h x) fun b => bind ih fun bs => pure _

theorem map_const_recover (hm : Silent m) (a : α) (b : β) :
    (fun _ => b) <$> recover m (fun _ => Pure.pure a) = (Pure.pure b : Audited σ τ ε β) := by
  funext s
  obtain ⟨hstate, hlog⟩ := hm s
  rw [map_apply, pure_apply]
  unfold recover
  cases hr : (m s).result with
  | error e => simp [hstate, hlog, Except.map]
  | ok a => simp [hstate, hlog, Except.map]

end Silent

/-! ### What a run returns -/

/-- From every state that satisfies `P` a run that succeeds returns a value and ends in a state
that satisfy `Q`. -/
def Yields (P : σ → Prop) (m : Audited σ τ ε α) (Q : α → σ → Prop) : Prop :=
  ∀ s, P s → ∀ a, (m s).result = .ok a → Q a (m s).state

namespace Yields

variable {P : σ → Prop} {Q : α → σ → Prop} {R : β → σ → Prop} {m : Audited σ τ ε α}
  {k : α → Audited σ τ ε β}

theorem weaken {Q' : α → σ → Prop} (hm : Yields P m Q) (h : ∀ a s, Q a s → Q' a s) :
    Yields P m Q' := fun s hs a ha => h a _ (hm s hs a ha)

theorem any : Yields P m fun _ _ => True := fun _ _ _ _ => trivial

theorem assume {φ : Prop} (h : φ → Yields P m Q) : Yields (fun s => φ ∧ P s) m Q :=
  fun s hs => h hs.1 s hs.2

theorem start (h : ∀ s₀, P s₀ → Yields (· = s₀) m Q) : Yields P m Q := fun s hs => h s hs s rfl

theorem pure {a : α} (h : ∀ s, P s → Q a s) : Yields P (Pure.pure a : Audited σ τ ε α) Q := by
  intro s hs b hb
  obtain rfl : a = b := Except.ok.inj hb
  exact h s hs

theorem fail (e : ε) : Yields P (Audited.fail e : Audited σ τ ε α) Q := fun _ _ _ ha => nomatch ha

theorem lift {x : Except ε α} (h : ∀ a, x = .ok a → ∀ s, P s → Q a s) :
    Yields P (Audited.lift x : Audited σ τ ε α) Q := fun s hs a ha => h a ha s hs

theorem check {c : Prop} [Decidable c] {e : ε} {Q : Unit → σ → Prop}
    (h : c → ∀ s, P s → Q () s) : Yields P (Audited.check c e : Audited σ τ ε Unit) Q := by
  unfold Audited.check
  split
  · next hc => exact pure (h hc)
  · exact fail e

theorem emit {t : τ} {Q : Unit → σ → Prop} (h : ∀ s, P s → Q () s) :
    Yields P (Audited.emit t : Audited σ τ ε Unit) Q := fun s hs _ _ => h s hs

theorem read {f : σ → α} (h : ∀ s, P s → Q (f s) s) :
    Yields P (Audited.read f : Audited σ τ ε α) Q := by
  intro s hs a ha
  obtain rfl : f s = a := Except.ok.inj ha
  exact h s hs

theorem update {f : σ → σ} {Q : Unit → σ → Prop} (h : ∀ s, P s → Q () (f s)) :
    Yields P (Audited.update f : Audited σ τ ε Unit) Q := fun s hs _ _ => h s hs

theorem bind (hm : Yields P m Q) (hk : ∀ a, Yields (Q a) (k a) R) : Yields P (m >>= k) R := by
  intro s hs b hb
  obtain ⟨a, ha, hb'⟩ := bind_result_ok.1 hb
  rw [bind_of_ok ha]
  exact hk a _ (hm s hs a ha) b hb'

theorem skip (hk : ∀ a, Yields (fun _ => True) (k a) R) : Yields P (m >>= k) R :=
  bind any hk

theorem bind_of_eq {a : α} {J : σ → Prop} (hm : Yields P m fun b s => b = a ∧ J s)
    (hk : Yields J (k a) R) : Yields P (m >>= k) R := by
  refine bind hm fun b s hs => ?_
  obtain ⟨rfl, hs⟩ := hs
  exact hk s hs

theorem ite {c : Prop} [Decidable c] {m' : Audited σ τ ε α} (h : c → Yields P m Q)
    (h' : ¬c → Yields P m' Q) : Yields P (if c then m else m') Q := by
  split
  · next hc => exact h hc
  · next hc => exact h' hc

theorem recover {h : ε → Audited σ τ ε α} (hm : Yields P m Q)
    (hh : ∀ e, Yields (fun _ => True) (h e) Q) : Yields P (Audited.recover m h) Q := by
  intro s hs a ha
  cases hr : (m s).result with
  | ok b =>
    rw [recover_of_ok hr] at ha ⊢
    exact hm s hs a ha
  | error e =>
    rw [recover_of_error hr] at ha ⊢
    exact hh e _ trivial a ha

theorem atomic (undone : τ → Bool) (hm : Yields P m Q) : Yields P (Audited.atomic undone m) Q := by
  intro s hs a ha
  unfold Audited.atomic at ha ⊢
  cases hr : (m s).result with
  | error e =>
    rw [hr] at ha
    cases ha
  | ok b =>
    rw [hr] at ha
    obtain rfl : b = a := Except.ok.inj ha
    exact hm s hs b hr

theorem forEach_pairs {J : σ → Prop} {f : α → Audited σ τ ε β} {xs : List α} {Q : α → β → Prop}
    (h : ∀ x ∈ xs, Yields J (f x) fun b s => Q x b ∧ J s) :
    Yields J (Audited.forEach f xs) fun bs s => List.Forall₂ Q xs bs ∧ J s := by
  induction xs with
  | nil => exact pure fun s hs => ⟨.nil, hs⟩
  | cons x xs ih =>
    obtain ⟨hx, hxs⟩ := List.forall_mem_cons.1 h
    refine bind hx fun b s hb => ?_
    have hrest : Yields J (do
        let bs ← Audited.forEach f xs
        Pure.pure (b :: bs)) fun bs s => List.Forall₂ Q (x :: xs) bs ∧ J s :=
      bind (ih hxs) fun bs => pure fun s hbs => ⟨.cons hb.1 hbs.1, hbs.2⟩
    exact hrest s hb.2

theorem forEach {J : σ → Prop} {f : α → Audited σ τ ε β} {xs : List α} {Q : β → Prop}
    (h : ∀ x ∈ xs, Yields J (f x) fun b s => Q b ∧ J s) :
    Yields J (Audited.forEach f xs) fun bs s => (∀ b ∈ bs, Q b) ∧ J s := by
  have hall : ∀ {xs : List α} {bs : List β}, List.Forall₂ (fun _ b => Q b) xs bs → ∀ b ∈ bs, Q b := by
    intro xs bs hbs
    induction hbs with
    | nil => exact nofun
    | cons hb _ ih => exact List.forall_mem_cons.2 ⟨hb, ih⟩
  exact (forEach_pairs h).weaken fun bs s hbs => ⟨hall hbs.1, hbs.2⟩

theorem forEach_eq {J : σ → Prop} {f : α → Audited σ τ ε β} {xs : List α} {g : α → β}
    (h : ∀ x ∈ xs, Yields J (f x) fun b s => b = g x ∧ J s) :
    Yields J (Audited.forEach f xs) fun bs s => bs = xs.map g ∧ J s := by
  have hmap : ∀ {xs : List α} {bs : List β}, List.Forall₂ (fun x b => b = g x) xs bs →
      bs = xs.map g := by
    intro xs bs hbs
    induction hbs with
    | nil => rfl
    | cons hb _ ih => rw [hb, ih, List.map_cons]
  exact (forEach_pairs h).weaken fun bs s hbs => ⟨hmap hbs.1, hbs.2⟩

theorem bind_forEach {Q : β → Prop} {f : α → Audited σ τ ε β} {xs : List α} {γ : Type}
    {R : γ → σ → Prop} {k : List β → Audited σ τ ε γ}
    (h : ∀ x ∈ xs, Yields (fun _ => True) (f x) fun b _ => Q b)
    (hk : ∀ bs, (∀ b ∈ bs, Q b) → Yields (fun _ => True) (k bs) R) :
    Yields (fun _ => True) (Audited.forEach f xs >>= k) R :=
  bind (forEach fun x hx => (h x hx).weaken fun _ _ hb => ⟨hb, trivial⟩) fun bs =>
    assume fun hbs => hk bs hbs

end Yields


end Audited
