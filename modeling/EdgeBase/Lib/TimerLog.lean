import EdgeBase.Lib.Runs
import Mathlib.Data.List.Nodup

/-!
# Logs of named timers

A timer is set under a name, in place of the one that had it, and is cleared by its name, or fires.

* `TimerLog.due` : the timers that have been set, and neither replaced nor cleared nor fired since.
* `Sound.once` : in a sound log no timer fires twice.
* `Sound.not_cleared`, `Sound.not_replaced` : nor once it has been cleared, or replaced.
-/

namespace TimerLog

open List

variable {κ ν : Type*} [DecidableEq κ] [DecidableEq ν]

inductive Event (κ ν : Type*) where
  | set (name : κ) (timer : ν)
  | clear (name : κ)
  | fire (name : κ) (timer : ν)
  deriving DecidableEq

/-- What an event makes of the timers that are due. -/
def next (due : List (κ × ν)) : Event κ ν → List (κ × ν)
  | .set name timer => due.filter (·.1 ≠ name) ++ [(name, timer)]
  | .clear name => due.filter (·.1 ≠ name)
  | .fire name timer => due.filter (· ≠ (name, timer))

def due (log : List (Event κ ν)) : List (κ × ν) := Runs.last next [] log

def Fires (due : List (κ × ν)) : Event κ ν → Prop
  | .fire name timer => (name, timer) ∈ due
  | _ => True

def Sound (log : List (Event κ ν)) : Prop := Runs.Along next Fires [] log

def sets (log : List (Event κ ν)) : List (κ × ν) :=
  log.filterMap fun
    | .set name timer => some (name, timer)
    | _ => none

def fires (log : List (Event κ ν)) : List (κ × ν) :=
  log.filterMap fun
    | .fire name timer => some (name, timer)
    | _ => none

variable {log log' : List (Event κ ν)} {e : Event κ ν} {b : κ × ν}

theorem due_concat : due (log ++ [e]) = next (due log) e := Runs.last_append _ _

theorem sound_append : Sound (log ++ log') ↔ Sound log ∧ Runs.Along next Fires (due log) log' :=
  Runs.Along.append

theorem sound_concat : Sound (log ++ [e]) ↔ Sound log ∧ Fires (due log) e := by
  rw [sound_append]
  exact and_congr_right fun _ => and_iff_left trivial

omit [DecidableEq κ] [DecidableEq ν] in
theorem sets_append : sets (log ++ log') = sets log ++ sets log' := filterMap_append

omit [DecidableEq κ] [DecidableEq ν] in
theorem fires_append : fires (log ++ log') = fires log ++ fires log' := filterMap_append

variable {due : List (κ × ν)}

theorem mem_next_set {name : κ} {timer : ν} :
    b ∈ next due (.set name timer) ↔ (b ∈ due ∧ b.1 ≠ name) ∨ b = (name, timer) := by
  simp [next]

theorem mem_next_clear {name : κ} : b ∈ next due (.clear name) ↔ b ∈ due ∧ b.1 ≠ name := by
  simp [next]

theorem mem_next_fire {name : κ} {timer : ν} :
    b ∈ next due (.fire name timer) ↔ b ∈ due ∧ b ≠ (name, timer) := by
  simp [next]

theorem not_fires_of_not_due (h : Runs.Along next Fires due log)
    (hdue : b ∉ due) (hset : b ∉ sets log) : b ∉ fires log := by
  induction log generalizing due with
  | nil => simp [fires]
  | cons e log ih =>
    cases e with
    | set name timer =>
      simp only [sets, filterMap_cons, mem_cons, not_or] at hset
      refine ih h.2 ?_ hset.2
      rw [mem_next_set]
      exact fun hmem => hmem.elim (fun hmem => hdue hmem.1) hset.1
    | clear name => exact ih h.2 (fun hmem => hdue (mem_next_clear.1 hmem).1) hset
    | fire name timer =>
      have hnot := ih h.2 (fun hmem => hdue (mem_next_fire.1 hmem).1) hset
      intro hmem
      simp only [fires, filterMap_cons, mem_cons] at hmem
      rcases hmem with rfl | hmem
      · exact hdue h.1
      · exact hnot hmem

theorem nodup_fires (h : Runs.Along next Fires due log)
    (hsets : (sets log).Nodup) (hdue : ∀ b ∈ due, b ∉ sets log) : (fires log).Nodup := by
  induction log generalizing due with
  | nil => exact nodup_nil
  | cons e log ih =>
    cases e with
    | set name timer =>
      obtain ⟨hnew, hsets⟩ := nodup_cons.1 hsets
      refine ih h.2 hsets fun b hb => ?_
      rcases mem_next_set.1 hb with ⟨hb, -⟩ | rfl
      · exact fun hmem => hdue b hb (mem_cons_of_mem _ hmem)
      · exact hnew
    | clear name => exact ih h.2 hsets fun b hb => hdue b (mem_next_clear.1 hb).1
    | fire name timer =>
      refine nodup_cons.2 ⟨?_, ih h.2 hsets fun b hb => hdue b (mem_next_fire.1 hb).1⟩
      exact not_fires_of_not_due h.2 (fun hmem => (mem_next_fire.1 hmem).2 rfl) (hdue _ h.1)

namespace Sound

theorem fires_subset (h : Sound log) : fires log ⊆ sets log := by
  intro b hb
  by_contra hset
  exact not_fires_of_not_due h not_mem_nil hset hb

theorem once (h : Sound log) (hsets : (sets log).Nodup) : (fires log).Nodup :=
  nodup_fires h hsets nofun

theorem not_after {name : κ} {timer : ν} (h : Sound log) (hsets : (sets log).Nodup)
    (he : ∀ due : List (κ × ν), (name, timer) ∉ next due e) :
    ¬ [.set name timer, e, .fire name timer].Sublist log := by
  intro hsublist
  obtain ⟨before, rest, rfl, hset, hrest⟩ := cons_sublist_iff.1 hsublist
  obtain ⟨between, after, rfl, hmem, hfire⟩ := cons_sublist_iff.1 hrest
  obtain ⟨l, l', rfl⟩ := append_of_mem hmem
  have hlog : before ++ (l ++ e :: l' ++ after) = (before ++ l) ++ e :: (l' ++ after) := by simp
  rw [hlog] at h hsets
  have hnot : (name, timer) ∉ fires (l' ++ after) := by
    refine not_fires_of_not_due (sound_append.1 h).2.2 (he _) fun hagain => ?_
    have hbefore : (name, timer) ∈ sets (before ++ l) :=
      mem_filterMap.2 ⟨_, mem_append_left _ hset, rfl⟩
    rw [sets_append] at hsets
    refine (nodup_append.1 hsets).2.2 _ hbefore _ ?_ rfl
    exact (sublist_cons_self e _).filterMap _ |>.subset hagain
  refine hnot (mem_filterMap.2 ⟨.fire name timer, ?_, rfl⟩)
  exact mem_append_right _ (singleton_sublist.1 hfire)

theorem not_cleared {name : κ} {timer : ν} (h : Sound log) (hsets : (sets log).Nodup) :
    ¬ [.set name timer, .clear name, .fire name timer].Sublist log :=
  h.not_after hsets fun _ hmem => (mem_next_clear.1 hmem).2 rfl

theorem not_replaced {name : κ} {timer timer' : ν} (h : Sound log) (hsets : (sets log).Nodup)
    (hne : timer ≠ timer') :
    ¬ [.set name timer, .set name timer', .fire name timer].Sublist log := by
  refine h.not_after hsets fun due hmem => ?_
  rcases mem_next_set.1 hmem with ⟨-, hname⟩ | heq
  · exact hname rfl
  · exact hne (Prod.mk.inj heq).2

end Sound

end TimerLog
