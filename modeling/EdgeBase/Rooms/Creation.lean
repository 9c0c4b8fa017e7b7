import EdgeBase.Rooms.Sections
import EdgeBase.Lib.Runs

/-!
# The creation of a room

`onCreate` runs when the first player joins.  Whether it has run is kept in memory alone, so a room
that hibernates and is restored runs it again.

* `createdOnce_run` : `onCreate` runs once in the life of a room, exactly if no join reopens it.
-/

namespace EdgeBase

open List

namespace Rooms

/-- What has been seen of a room since it was last destroyed or cleaned up. -/
def life (history : List Report) : List Report :=
  (history.reverse.takeWhile fun r => !r.isEnd).reverse

/-- `onCreate` has run once at most in the life of the room. -/
def CreatedOnce (s : RoomsDO) : Prop := (life s.history).count .onCreate ≤ 1

/-- The access rule lets a player in. -/
def Joins (s : RoomsDO) (e : RoomEvent) : Prop :=
  match e, s.running.sections with
  | .proceed, .create _ _ _ _ :: _ => s.verdict = true
  | _, _ => False

def Restored (s : RoomsDO) : Prop := [Report.onCreate, .hibernated].Sublist (life s.history)

/-- A player is let into a room that has hibernated since it was created. -/
def Reopens (s : RoomsDO) (e : RoomEvent) : Prop := Joins s e ∧ Restored s

/-! ## The life of a room -/

section Life

variable {history rs : List Report} {r : Report}

theorem life_append_end (h : r.isEnd) : life (history ++ [r]) = [] := by
  unfold life
  rw [reverse_append]
  simp [h]

theorem life_append (h : ∀ r ∈ rs, r.isEnd = false) :
    life (history ++ rs) = life history ++ rs := by
  unfold life
  rw [reverse_append, takeWhile_append_of_pos, reverse_append, reverse_reverse]
  intro r hr
  simp [h r (mem_reverse.1 hr)]

theorem isEnd_of_isLifecycle (h : r.isLifecycle = false) : r.isEnd = false := by
  cases r <;> first | rfl | cases h

end Life

/-! ## What a step does to the life of a room -/

variable {env : Settings} {s s' : RoomsDO} {e : RoomEvent} {ok : Bool} {sec : Section}

inductive Turn (s s' : RoomsDO) (joins : Prop) : Prop
  | steady (hroom : s'.roomCreated = s.roomCreated) (rs : List Report)
      (hrs : ∀ r ∈ rs, r.isLifecycle = false) (hhistory : s'.history = s.history ++ rs)
  | created (hjoins : joins) (h : s.roomCreated = false) (hroom : s'.roomCreated = true)
      (hhistory : s'.history = s.history ++ [.onCreate])
  | ended (r : Report) (hr : r.isEnd) (hhistory : s'.history = s.history ++ [r])
  | hibernated (hroom : s'.roomCreated = false) (hhistory : s'.history = s.history ++ [.hibernated])

theorem Turn.of_steady {joins : Prop} (h : Steady s s') : Turn s s' joins := by
  obtain ⟨rs, hrs, hhistory⟩ := h.history
  exact .steady h.roomCreated rs hrs hhistory

theorem Turn.of_quiet {joins : Prop} (h : Quiet s s') : Turn s s' joins := .of_steady (.of_quiet h)

theorem turn_handle (env : Settings) (s : RoomsDO) (e : RoomEvent) (joins : Prop) :
    Turn s (s.handle env e) joins := by
  have refl : Turn s s joins := .of_steady (.refl s)
  have same {s' : RoomsDO} (hcreated : s'.roomCreated = s.roomCreated)
      (h : s'.history = s.history) : Turn s s' joins :=
    .steady hcreated [] nofun (h.trans (append_nil _).symm)
  cases e with
  | connect =>
    unfold RoomsDO.handle
    dsimp only
    split_ifs
    · exact refl
    · exact same rfl rfl
  | message =>
    unfold RoomsDO.handle
    dsimp only
    split_ifs
    · exact refl
    · exact same rfl rfl
  | close connectionId =>
    unfold RoomsDO.handle
    dsimp only
    cases hsocket : s.socket connectionId with
    | none => exact refl
    | some socket => exact same rfl rfl
  | drop => exact .of_quiet (quiet_closeSockets s _)
  | kick => exact same rfl rfl
  | block => exact same rfl rfl
  | alarm =>
    unfold RoomsDO.handle
    dsimp only
    split_ifs
    · exact refl
    · exact same rfl rfl
  | resume n ok =>
    unfold RoomsDO.handle
    dsimp only
    cases hn : s.tasks[n]? with
    | none => exact refl
    | some task => exact same rfl rfl
  | proceed => exact refl
  | setSharedState => exact same rfl rfl
  | setPlayerState userId =>
    obtain ⟨rs, hrs, hhistory⟩ := (Steady.of_quiet (quiet_sendFrame s .playerDelta
      fun _ u => u = userId)).history
    exact .steady rfl rs hrs hhistory
  | flush => exact .of_quiet (quiet_flushSharedDelta s)
  | sendMessage => exact .of_quiet (quiet_sendFrame s _ _)
  | sendMessageTo => exact .of_quiet (quiet_sendFrame s _ _)
  | saveState => exact same rfl rfl
  | expireState =>
    unfold RoomsDO.handle
    dsimp only
    split_ifs
    · exact same rfl rfl
    · exact refl
  | hibernate => exact .hibernated rfl rfl
  | tick => exact same rfl rfl

theorem turn_step (env : Settings) (s : RoomsDO) (e : RoomEvent) :
    Turn s (s.step env e) (Joins s e) := by
  cases hrunning : s.running.sections with
  | nil =>
    rw [step_eq_handle env e hrunning]
    exact turn_handle env s e _
  | cons sec rest =>
    rcases step_eq_proceed env e hrunning with hstep | ⟨rfl, hstep⟩ <;> rw [hstep]
    · exact .of_steady (.refl s)
    · obtain ⟨tasks, running, verdict, hproceed, -, -⟩ := proceed_spec env hrunning
      rw [hproceed]
      have heffect := effect_exec env s s.verdict sec
      generalize (s.exec env s.verdict sec).1 = s' at heffect
      cases heffect with
      | steady h =>
        obtain ⟨rs, hrs, hhistory⟩ := h.history
        exact .steady h.roomCreated rs hrs hhistory
      | authenticated connectionId userId =>
        obtain ⟨rs, hrs, hhistory⟩ := (Steady.authenticate s connectionId userId).history
        exact .steady (Steady.authenticate s connectionId userId).roomCreated rs hrs hhistory
      | created connectionId userId hadMember wasReconnecting hverdict hroom =>
        refine .created ?_ hroom rfl rfl
        unfold Joins
        rw [hrunning]
        exact hverdict
      | ended r hr hframe hhistory => exact .ended r hr hhistory

theorem onCreate_of_joins (env : Settings) (hjoins : Joins s e) (hcreated : s.roomCreated = false) :
    (s.step env e).history = s.history ++ [.onCreate] := by
  unfold Joins at hjoins
  split at hjoins
  · rename_i hrunning
    unfold RoomsDO.step RoomsDO.proceed
    rw [hrunning]
    dsimp only
    rw [if_pos rfl, hjoins]
    unfold RoomsDO.exec
    simp only [↓reduceIte, hcreated]
    rfl
  · exact hjoins.elim

/-! ## Runs -/

/-- What memory and the reports say of the creation of a room. -/
structure CreationInv (s : RoomsDO) : Prop where
  createdOnce : CreatedOnce s
  /-- A room that was created, and has not hibernated since, knows it. -/
  roomCreated_of_mem : .onCreate ∈ life s.history → ¬ Restored s → s.roomCreated = true
  not_roomCreated : Restored s → s.roomCreated = false

theorem CreationInv.of_life (h : life s.history = []) : CreationInv s where
  createdOnce := by
    unfold CreatedOnce
    rw [h]
    exact Nat.zero_le 1
  roomCreated_of_mem := by
    rw [h]
    nofun
  not_roomCreated := by
    unfold Restored
    rw [h]
    nofun

theorem CreationInv.append (hinv : CreationInv s) (hroom : s'.roomCreated = s.roomCreated)
    {rs : List Report} (hrs : ∀ r ∈ rs, r.isLifecycle = false)
    (hhistory : s'.history = s.history ++ rs) : CreationInv s' := by
  have hlife : life s'.history = life s.history ++ rs := by
    rw [hhistory]
    exact life_append fun r hr => isEnd_of_isLifecycle (hrs r hr)
  have hcreate : Report.onCreate ∉ rs := fun hmem => by cases hrs _ hmem
  have hhibernated : Report.hibernated ∉ rs := fun hmem => by cases hrs _ hmem
  have hrestored : Restored s' ↔ Restored s := by
    unfold Restored
    rw [hlife]
    exact Runs.pair_sublist_append hhibernated
  refine ⟨?_, ?_, ?_⟩
  · unfold CreatedOnce
    rw [hlife, count_append, count_eq_zero.2 hcreate]
    exact hinv.createdOnce
  · rw [hlife, hrestored, hroom]
    intro hmem
    exact hinv.roomCreated_of_mem ((mem_append.1 hmem).resolve_right hcreate)
  · rw [hrestored, hroom]
    exact hinv.not_roomCreated

theorem CreationInv.step (hinv : CreationInv s) (he : ¬ Reopens s e) :
    CreationInv (s.step env e) := by
  cases turn_step env s e with
  | steady hroom rs hrs hhistory => exact hinv.append hroom hrs hhistory
  | ended r hr hhistory => exact .of_life (by rw [hhistory, life_append_end hr])
  | created hjoins hroom hroom' hhistory =>
    have hlife : life (s.step env e).history = life s.history ++ [.onCreate] := by
      rw [hhistory]
      exact life_append (by decide)
    have hrestored : ¬ Restored s := fun h => he ⟨hjoins, h⟩
    -- The room does not know of its creation and has not hibernated since: there was none.
    have hmem : .onCreate ∉ life s.history := fun hmem => by
      have := hinv.roomCreated_of_mem hmem hrestored
      rw [hroom] at this
      cases this
    have hrestored' : ¬ Restored (s.step env e) := by
      unfold Restored
      rw [hlife, Runs.pair_sublist_append (by decide)]
      exact hrestored
    refine ⟨?_, fun _ _ => hroom', fun h => (hrestored' h).elim⟩
    unfold CreatedOnce
    rw [hlife, count_append, count_eq_zero.2 hmem]
    decide
  | hibernated hroom hhistory =>
    have hlife : life (s.step env e).history = life s.history ++ [.hibernated] := by
      rw [hhistory]
      exact life_append (by decide)
    refine ⟨?_, fun hmem hrestored => ?_, fun _ => hroom⟩
    · unfold CreatedOnce
      rw [hlife, count_append]
      exact hinv.createdOnce
    · refine (hrestored ?_).elim
      rw [hlife] at hmem
      have hmem : .onCreate ∈ life s.history :=
        (mem_append.1 hmem).resolve_right (by decide)
      unfold Restored
      rw [hlife]
      exact (singleton_sublist.2 hmem).append (.refl [Report.hibernated])

theorem not_createdOnce_of_reopens (hinv : CreationInv s) (he : Reopens s e) :
    ¬ CreatedOnce (s.step env e) := by
  obtain ⟨hjoins, hrestored⟩ := he
  have hhistory := onCreate_of_joins env hjoins (hinv.not_roomCreated hrestored)
  have hmem : .onCreate ∈ life s.history := hrestored.subset (by decide)
  have hpos : 0 < (life s.history).count .onCreate := count_pos_iff.2 hmem
  unfold CreatedOnce
  rw [hhistory, life_append (by decide), count_append, count_singleton_self]
  omega

/-- `onCreate` runs once in the life of a room, exactly if nobody is let into the room after it has
hibernated since its creation. -/
theorem createdOnce_run (env : Settings) (es : List RoomEvent) :
    Runs.Along (RoomsDO.step env) (fun s e => ¬ Reopens s e) {} es ↔
      Runs.Along (RoomsDO.step env) (fun s e => CreatedOnce (s.step env e)) {} es := by
  refine Runs.Along.iff_of_invariant (I := CreationInv) (.of_life rfl) (fun s e hinv => ?_)
    fun s e hinv he => hinv.step he
  refine ⟨fun he => (hinv.step he).createdOnce, fun h he => ?_⟩
  exact not_createdOnce_of_reopens hinv he h

/-- A room with a state hibernates between the joins of two players. -/
def restoredRoom : List RoomEvent :=
  joining "c1" "ann" ++ script [.setSharedState true, .saveState, .hibernate] ++ joining "c2" "bob"

theorem restoredRoom_not_createdOnce :
    (Runs.last (RoomsDO.step {}) {} restoredRoom).hasState = true ∧
      ¬ CreatedOnce (Runs.last (RoomsDO.step {}) {} restoredRoom) := by
  unfold CreatedOnce
  decide +kernel

end Rooms

end EdgeBase
