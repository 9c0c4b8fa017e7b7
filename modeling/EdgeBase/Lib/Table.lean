import Mathlib.Data.List.Nodup

/-!
# Tables and batches

A table is a list of rows.  A batch runs its statements one after the other; when one of them is
refused the tables stay as they were.

* `Table.update`, `Table.delete`, `Table.upsert` : the statements that change a table.
-/

namespace Table

variable {ρ κ : Type*}

/-- `UPDATE`. -/
def update (p : ρ → Prop) [DecidablePred p] (f : ρ → ρ) (rows : List ρ) : List ρ :=
  rows.map fun r => if p r then f r else r

/-- `DELETE`. -/
def delete (p : ρ → Prop) [DecidablePred p] (rows : List ρ) : List ρ := rows.filter fun r => ¬p r

/-- `INSERT … ON CONFLICT DO UPDATE SET … WHERE`: the rows of the conflict are those that satisfy
`c`, and of these the ones that satisfy `p` are updated. -/
def upsert (c p : ρ → Prop) [DecidablePred c] [DecidablePred p] (r : ρ) (f : ρ → ρ)
    (rows : List ρ) : List ρ :=
  if ∃ x ∈ rows, c x then update (fun x => c x ∧ p x) f rows else rows ++ [r]

/-- No two rows agree on a key. -/
def Unique (key : ρ → κ) (rows : List ρ) : Prop := (rows.map key).Nodup

instance [DecidableEq κ] (key : ρ → κ) (rows : List ρ) : Decidable (Unique key rows) :=
  inferInstanceAs (Decidable (List.Nodup _))

section

variable {p : ρ → Prop} [DecidablePred p] {f : ρ → ρ} {rows : List ρ} {r : ρ} {key : ρ → κ}

theorem mem_update : r ∈ update p f rows ↔ ∃ x ∈ rows, (if p x then f x else x) = r := List.mem_map

theorem mem_delete : r ∈ delete p rows ↔ r ∈ rows ∧ ¬p r := by
  rw [delete, List.mem_filter, decide_eq_true_eq]

theorem mem_update_of_not (hr : r ∈ rows) (hp : ¬p r) : r ∈ update p f rows :=
  mem_update.2 ⟨r, hr, if_neg hp⟩

theorem mem_update_of (hr : r ∈ rows) (hp : p r) : f r ∈ update p f rows :=
  mem_update.2 ⟨r, hr, if_pos hp⟩

theorem mem_update_cases (hr : r ∈ update p f rows) :
    (r ∈ rows ∧ ¬p r) ∨ ∃ x ∈ rows, p x ∧ f x = r := by
  obtain ⟨x, hx, rfl⟩ := mem_update.1 hr
  by_cases hp : p x
  · exact .inr ⟨x, hx, hp, (if_pos hp).symm⟩
  · rw [if_neg hp]
    exact .inl ⟨hx, hp⟩

theorem mem_upsert_cases {c : ρ → Prop} [DecidablePred c] {r' : ρ} (hr : r' ∈ upsert c p r f rows) :
    (r' ∈ rows ∧ ¬(c r' ∧ p r')) ∨ (∃ x ∈ rows, (c x ∧ p x) ∧ f x = r') ∨
      (r' = r ∧ ∀ x ∈ rows, ¬c x) := by
  unfold upsert at hr
  split at hr
  · exact (mem_update_cases hr).imp_right .inl
  · next hnone =>
    have hnone : ∀ x ∈ rows, ¬c x := fun x hx hc => hnone ⟨x, hx, hc⟩
    rcases List.mem_append.1 hr with hr | hr
    · exact .inl ⟨hr, fun h => hnone r' hr h.1⟩
    · exact .inr (.inr ⟨List.mem_singleton.1 hr, hnone⟩)

theorem mem_upsert_of_not {c : ρ → Prop} [DecidablePred c] {r' : ρ} (hr : r' ∈ rows)
    (hp : ¬(c r' ∧ p r')) : r' ∈ upsert c p r f rows := by
  unfold upsert
  split
  · exact mem_update_of_not hr hp
  · exact List.mem_append_left _ hr

theorem mem_upsert_of {c : ρ → Prop} [DecidablePred c] {r' : ρ} (hr : r' ∈ rows)
    (hp : c r' ∧ p r') : f r' ∈ upsert c p r f rows := by
  unfold upsert
  rw [if_pos ⟨r', hr, hp.1⟩]
  exact mem_update_of hr hp

theorem exists_mem_update {q : ρ → Prop} : (∃ r ∈ update p f rows, q r) ↔
    (∃ r ∈ rows, p r ∧ q (f r)) ∨ ∃ r ∈ rows, ¬p r ∧ q r := by
  constructor
  · rintro ⟨r, hr, hq⟩
    obtain ⟨hr, hp⟩ | ⟨x, hx, hp, rfl⟩ := mem_update_cases hr
    · exact .inr ⟨r, hr, hp, hq⟩
    · exact .inl ⟨x, hx, hp, hq⟩
  · rintro (⟨r, hr, hp, hq⟩ | ⟨r, hr, hp, hq⟩)
    · exact ⟨f r, mem_update_of hr hp, hq⟩
    · exact ⟨r, mem_update_of_not hr hp, hq⟩

theorem exists_marked {q : ρ → Prop} (hfresh : ∀ r ∈ rows, ¬q r) :
    (∃ r ∈ update p f rows, q r) ↔ ∃ r ∈ rows, p r ∧ q (f r) := by
  rw [exists_mem_update, or_iff_left]
  rintro ⟨r, hr, -, hq⟩
  exact hfresh r hr hq

theorem filter_update {q : ρ → Bool} (h : ∀ r, p r → q r = false ∧ q (f r) = false) :
    (update p f rows).filter q = rows.filter q := by
  induction rows with
  | nil => rfl
  | cons r rows ih =>
    change ((if p r then f r else r) :: update p f rows).filter q = _
    rw [List.filter_cons, List.filter_cons, ih]
    split
    · next hp =>
      rw [(h r hp).1, (h r hp).2]
      rfl
    · rfl

theorem filter_delete {q : ρ → Bool} (h : ∀ r, p r → q r = false) :
    (delete p rows).filter q = rows.filter q := by
  rw [delete, List.filter_filter]
  refine List.filter_congr fun r _ => ?_
  by_cases hp : p r
  · rw [h r hp]
    rfl
  · rw [decide_eq_true hp, Bool.and_true]

theorem filter_append_singleton {q : ρ → Bool} (h : q r = false) :
    (rows ++ [r]).filter q = rows.filter q := by
  rw [List.filter_append, List.filter_cons_of_neg (by rw [h]; exact Bool.false_ne_true),
    List.filter_nil, List.append_nil]

theorem map_update (hf : ∀ r, p r → key (f r) = key r) :
    (update p f rows).map key = rows.map key := by
  rw [update, List.map_map]
  refine List.map_congr_left fun r _ => ?_
  rw [Function.comp_apply]
  split
  · next hp => exact hf r hp
  · rfl

namespace Unique

variable {r' : ρ} (h : Unique key rows)
include h

theorem eq_of_key (hr : r ∈ rows) (hr' : r' ∈ rows) (hkey : key r = key r') : r = r' :=
  List.inj_on_of_nodup_map h hr hr' hkey

theorem update (hf : ∀ r, p r → key (f r) = key r) : Unique key (Table.update p f rows) := by
  unfold Unique
  rw [map_update hf]
  exact h

theorem filter (q : ρ → Bool) : Unique key (rows.filter q) :=
  List.Nodup.sublist (List.filter_sublist.map key) h

theorem delete : Unique key (Table.delete p rows) := h.filter _

theorem append (hr : ∀ x ∈ rows, key x ≠ key r) : Unique key (rows ++ [r]) := by
  unfold Unique
  rw [List.map_append, List.nodup_append]
  refine ⟨h, List.nodup_singleton _, fun k hk k' hk' => ?_⟩
  obtain ⟨x, hx, rfl⟩ := List.mem_map.1 hk
  rw [List.map_singleton, List.mem_singleton] at hk'
  exact hk' ▸ hr x hx

theorem countP_le_filter {k : κ} {a b q : ρ → Bool}
    (hrest : ∀ r ∈ rows, key r ≠ k → a r = true → q r = true ∧ b r = true) :
    rows.countP a ≤ (rows.filter q).countP b + 1 := by
  induction rows with
  | nil => exact Nat.zero_le _
  | cons r rows ih =>
    obtain ⟨hr, hrows⟩ := List.nodup_cons.1 h
    rw [List.countP_filter] at ih ⊢
    by_cases hkey : key r = k
    · -- the other rows have other keys, so all of them still count
      have hle : rows.countP a ≤ rows.countP fun x => b x && q x := by
        refine List.countP_mono_left fun x hx ha => ?_
        have hne : key x ≠ k := fun hk => hr (hkey.trans hk.symm ▸ List.mem_map_of_mem hx)
        obtain ⟨hq, hb⟩ := hrest x (List.mem_cons_of_mem _ hx) hne ha
        rw [hq, hb]
        rfl
      calc (r :: rows).countP a ≤ rows.countP a + 1 := by
            rw [List.countP_cons]
            split <;> omega
        _ ≤ (r :: rows).countP (fun x => b x && q x) + 1 := by
            rw [List.countP_cons]
            omega
    · have ih := ih hrows fun x hx => hrest x (List.mem_cons_of_mem _ hx)
      rw [List.countP_cons, List.countP_cons]
      by_cases ha : a r = true
      · obtain ⟨hq, hb⟩ := hrest r List.mem_cons_self hkey ha
        rw [if_pos ha, if_pos (by rw [hq, hb]; rfl)]
        omega
      · rw [if_neg ha]
        omega

theorem upsert [DecidableEq κ] (hf : ∀ x, key x = key r → key (f x) = key x) :
    Unique key (Table.upsert (fun x => key x = key r) p r f rows) := by
  unfold Table.upsert
  split
  · exact h.update fun x hx => hf x hx.1
  · next hnone => exact h.append fun x hx hkey => hnone ⟨x, hx, hkey⟩

end Unique

end

end Table

namespace Batch

variable {σ : Type*}

/-- A statement: the tables after it, or nothing when the database refuses it. -/
abbrev Statement (σ : Type*) := σ → Option σ

def Statement.write (f : σ → σ) : Statement σ := fun s => some (f s)

/-- A statement that changes nothing, and is refused unless a condition holds. -/
def Statement.guard (p : σ → Prop) [DecidablePred p] : Statement σ := fun s => if p s then some s else none

/-- The statements of a batch, one after the other. -/
def run : List (Statement σ) → Statement σ
  | [], s => some s
  | st :: sts, s => (st s).bind (run sts)

/-- The tables after a statement or a batch: as they were when it is refused. -/
def commit (st : Statement σ) (s : σ) : σ := (st s).getD s

section

variable {f : σ → σ} {p : σ → Prop} [DecidablePred p] {st : Statement σ} {sts : List (Statement σ)}
  {s s' : σ}

@[simp] theorem run_nil (s : σ) : run [] s = some s := rfl

@[simp] theorem run_write (f : σ → σ) (sts : List (Statement σ)) (s : σ) :
    run (.write f :: sts) s = run sts (f s) := rfl

theorem run_guard : run (.guard p :: sts) s = if p s then run sts s else none := by
  change (if p s then some s else none).bind (run sts) = _
  split <;> rfl

theorem run_guard_eq_some : run (.guard p :: sts) s = some s' ↔ p s ∧ run sts s = some s' := by
  rw [run_guard]
  split
  · next hp => exact ⟨fun h => ⟨hp, h⟩, And.right⟩
  · next hp => exact ⟨(nomatch ·), fun h => absurd h.1 hp⟩

theorem run_append (sts sts' : List (Statement σ)) (s : σ) :
    run (sts ++ sts') s = (run sts s).bind (run sts') := by
  induction sts generalizing s with
  | nil => rfl
  | cons st sts ih =>
    change (st s).bind (run (sts ++ sts')) = ((st s).bind (run sts)).bind (run sts')
    cases st s with
    | none => rfl
    | some s => exact ih s

theorem holds_of_getLast? (h : run sts s = some s') (hlast : sts.getLast? = some (.guard p)) :
    p s' := by
  obtain ⟨sts, rfl⟩ := List.getLast?_eq_some_iff.1 hlast
  rw [run_append] at h
  obtain ⟨t, -, ht⟩ := Option.bind_eq_some_iff.1 h
  obtain ⟨hp, hnil⟩ := run_guard_eq_some.1 ht
  exact Option.some.inj hnil ▸ hp

theorem commit_of_some (h : st s = some s') : commit st s = s' := by
  rw [commit, h]
  rfl

theorem commit_of_none (h : st s = none) : commit st s = s := by
  rw [commit, h]
  rfl

theorem commit_keeps {I : σ → Prop} (hs : I s) (h : ∀ s', st s = some s' → I s') :
    I (commit st s) := by
  cases hst : st s with
  | none => rwa [commit_of_none hst]
  | some s' =>
    rw [commit_of_some hst]
    exact h s' hst

end

/-! ### What a statement does to the tables -/

/-- Whatever a statement that is not refused does to the tables is related. -/
def Statement.Respects (R : σ → σ → Prop) (st : Statement σ) : Prop :=
  ∀ s s', st s = some s' → R s s'

section

variable {R : σ → σ → Prop} {f : σ → σ} {p : σ → Prop} [DecidablePred p]
  {sts : List (Statement σ)}

theorem Statement.respects_write (h : ∀ s, R s (f s)) : (Statement.write f).Respects R := by
  rintro s _ ⟨⟩
  exact h s

theorem Statement.respects_guard (hrefl : ∀ s, R s s) : (Statement.guard p).Respects R := by
  intro s s' h
  unfold Statement.guard at h
  split at h
  · cases h
    exact hrefl s
  · cases h

/-- What relates the tables before and after every statement relates them before and after the
batch. -/
theorem respects_run (hrefl : ∀ s, R s s) (htrans : ∀ s t u, R s t → R t u → R s u)
    (h : ∀ st ∈ sts, Statement.Respects R st) : Statement.Respects R (run sts) := by
  induction sts with
  | nil =>
    rintro s _ ⟨⟩
    exact hrefl s
  | cons st sts ih =>
    intro s s' hrun
    obtain ⟨hst, hsts⟩ := List.forall_mem_cons.1 h
    obtain ⟨t, ht, hrest⟩ := Option.bind_eq_some_iff.1 hrun
    exact htrans s t s' (hst s t ht) (ih hsts t s' hrest)

end

end Batch
