import EdgeBase.Rooms.OutboundRuns
import Mathlib.Algebra.Order.BigOperators.Group.List
import Mathlib.Algebra.Order.Group.Nat
import Mathlib.Algebra.GroupWithZero.Nat

/-!
# Delivery of the frames

While the authority calls the session active no frame is dropped, and the microtasks and answers
that are left come to an end.

* `outbound_queue` : frames are sent in their order, once, by one drain, with a new answer of the
  authority; and all of them are sent while the session is active.
-/

namespace EdgeBase.RoomOutbound

open List Option Socket

/-! ### An active session -/

/-- The authority answers that the session is active, and the socket stays open. -/
def Action.Active : Action → Prop
  | .settle _ answer => answer = .active
  | .close => False
  | _ => True

/-- What holds while the authority answers so. -/
structure Good (s : Socket) : Prop where
  bound : ∀ {m}, s.getWSMeta = some m → m.authenticated ∧ Waiter.Bound ⟨m, true⟩
  opened : s.queue ≠ [] → s.getWSMeta ≠ none
  active : ∀ {check answer}, s.answers check = some answer → answer = .active
  live : ∀ {m outcome}, .resume m outcome ∈ s.jobs → outcome = .live
  all : s.sentQueue ++ s.queue = s.enqueued
  draining : s.queue ≠ [] → s.drains

structure Calm (s s' : Socket) : Prop where
  getWSMeta : s'.getWSMeta = s.getWSMeta
  queue : s'.queue = s.queue
  sent : s'.sentQueue = s.sentQueue
  enqueued : s'.enqueued = s.enqueued
  drains : s'.drains = s.drains
  answers : s'.answers = s.answers
  live : ∀ {m outcome}, .resume m outcome ∈ s'.jobs → .resume m outcome ∈ s.jobs ∨ outcome = .live

namespace Calm

variable {s : Socket}

theorem refl : Calm s s := ⟨rfl, rfl, rfl, rfl, rfl, rfl, .inl⟩

theorem push {job : Job} (h : ∀ {m outcome}, job = .resume m outcome → outcome = .live) :
    Calm s (s.push job) :=
  ⟨rfl, rfl, rfl, rfl, rfl, rfl, fun hmem => (mem_append.1 hmem).imp_right fun hmem =>
    h (mem_singleton.1 hmem).symm⟩

theorem settleCall (waiter : Waiter) : Calm s (s.settleCall waiter .live) := by
  rw [Socket.settleCall]
  split_ifs
  · exact push fun heq => (Job.resume.inj heq).2.symm
  · exact refl

theorem ensured {waiter : Waiter} {s' : Socket} (hbound : waiter.Bound)
    (h : Ensured s waiter s') : Calm s s' := by
  cases h with
  | revoked hunbound => exact absurd hbound hunbound
  | late hbound hcheck hanswer => exact push nofun
  | joined hbound hcheck hanswer => exact ⟨rfl, rfl, rfl, rfl, rfl, rfl, .inl⟩
  | asked hbound hnone => exact ⟨rfl, rfl, rfl, rfl, rfl, rfl, .inl⟩

theorem answer (hactive : ∀ {check answer}, s.answers check = some answer → answer = .active)
    (check : ℕ) (waiter : Waiter) : Calm s (s.answer check waiter) := by
  rw [Socket.answer]
  split
  · exact settleCall waiter
  · rename_i hanswer
    cases hactive hanswer
  · rename_i hanswer
    cases hactive hanswer
  · rename_i hanswer
    cases hactive hanswer
  · exact refl

end Calm

namespace Good

variable {s : Socket}

theorem opened_socket : Good .opened :=
  ⟨nofun, fun h => absurd rfl h, nofun, nofun, rfl, fun h => absurd rfl h⟩

variable (h : Good s)
include h

theorem of_calm {s' : Socket} (hcalm : Calm s s') : Good s' where
  bound hm := h.bound (hcalm.getWSMeta ▸ hm)
  opened hqueue := hcalm.getWSMeta ▸ h.opened (hcalm.queue ▸ hqueue)
  active hanswer := h.active (hcalm.answers ▸ hanswer)
  live hmem := (hcalm.live hmem).elim h.live id
  all := by
    rw [hcalm.sent, hcalm.queue, hcalm.enqueued]
    exact h.all
  draining hqueue := by
    rw [hcalm.drains]
    exact h.draining (hcalm.queue ▸ hqueue)

theorem pop {job : Job} {jobs : List Job} (hjobs : s.jobs = job :: jobs) : Good { s with jobs } :=
  ⟨h.bound, h.opened, h.active, fun hmem => h.live (hjobs ▸ mem_cons_of_mem _ hmem), h.all,
    h.draining⟩

theorem loop_eq (hqueue : s.queue ≠ []) (hops : ℕ) : ∃ m, s.getWSMeta = some m ∧
    Waiter.Bound ⟨m, true⟩ ∧ s.loop hops = s.ensureLiveSessionAuthority ⟨m, true⟩ := by
  obtain ⟨m, hm⟩ := ne_none_iff_exists'.1 (h.opened hqueue)
  obtain ⟨hauth, hbound⟩ := h.bound hm
  refine ⟨m, hm, hbound, ?_⟩
  rw [Socket.loop, if_neg hqueue, hm]
  exact if_pos hauth

theorem safeSendRaw (msg : String) : Good (s.safeSendRaw msg) := by
  have hdirect : Good (s.sendRawUnchecked msg) :=
    ⟨h.bound, h.opened, h.active, h.live,
      (Kept.sendRawUnchecked (s := s) msg).sent.symm ▸ h.all, h.draining⟩
  rw [Socket.safeSendRaw]
  split
  · rename_i m hm
    split_ifs
    · exact hdirect
    · have hall : s.sentQueue ++ (s.queue ++ [(s.enqueued.length, msg)]) =
          s.enqueued ++ [(s.enqueued.length, msg)] := by
        rw [← append_assoc, h.all]
      have hopen : s.getWSMeta ≠ none := by
        rw [hm]
        exact some_ne_none m
      rw [Socket.startOutboundSessionDrain]
      split_ifs with hdrains
      · exact ⟨h.bound, fun _ => hopen, h.active, h.live, hall, fun _ => hdrains⟩
      · refine ⟨h.bound, fun _ => hopen, h.active, fun hmem => ?_, hall, fun _ => rfl⟩
        exact h.live ((mem_append.1 hmem).resolve_right fun hmem => by
          cases mem_singleton.1 hmem)
  · exact hdirect

theorem tick (hinv : Inv s) {job : Job} {jobs : List Job}
    (hjobs : s.jobs = job :: jobs) : Good ({ s with jobs }.run job) := by
  have hpop := h.pop hjobs
  have hunasked : s.answers s.checks = none := hinv.sessions.unasked le_rfl
  cases job with
  | start =>
    by_cases hqueue : s.queue = []
    · have hloop : Socket.run { s with jobs } .start =
          Socket.push { s with jobs } (.settling 3) := if_pos hqueue
      rw [hloop]
      exact hpop.of_calm (.push fun heq => by cases heq)
    · obtain ⟨m, -, hbound, hloop⟩ := hpop.loop_eq hqueue 3
      rw [Socket.run, hloop]
      exact hpop.of_calm (.ensured hbound (ensured _ hbound.tokenless hunasked))
  | forget key check =>
    rw [Socket.run]
    split_ifs
    · exact ⟨hpop.bound, hpop.opened, hpop.active, hpop.live, hpop.all, hpop.draining⟩
    · exact hpop
  | answered check waiter => exact hpop.of_calm (.answer hpop.active check waiter)
  | resume currentMeta outcome =>
    obtain rfl := h.live (hjobs ▸ mem_cons_self)
    rw [run_burst]
    refine ⟨h.bound, fun hne => absurd rfl hne, h.active, fun hmem => ?_, ?_,
      fun hne => absurd rfl hne⟩
    · exact hpop.live ((mem_append.1 hmem).resolve_right fun hmem => by
        cases mem_singleton.1 hmem)
    · have hsent := sentQueue_burst (s := { s with jobs })
      change (Socket.burst { s with jobs }).sentQueue ++ [] = s.enqueued
      rw [hsent, append_nil]
      exact h.all
  | settling hops =>
    cases hops with
    | succ hops => exact hpop.of_calm (.push fun heq => by cases heq)
    | zero =>
      rw [Socket.run]
      split_ifs with hqueue
      · exact ⟨h.bound, h.opened, h.active, hpop.live, h.all, fun hne => absurd hqueue hne⟩
      · refine ⟨h.bound, h.opened, h.active, fun hmem => ?_, h.all, fun _ => rfl⟩
        exact hpop.live ((mem_append.1 hmem).resolve_right fun hmem => by
          cases mem_singleton.1 hmem)

theorem step (hinv : Inv s) {a : Action} (ha : a.Active) : Good (step s a) := by
  cases a with
  | safeSendRaw msg => exact h.safeSendRaw msg
  | authenticate userId sessionId =>
    rw [RoomOutbound.step]
    split_ifs with hmissing
    · exact h
    · refine ⟨fun hm => ?_, fun _ => some_ne_none _, h.active, h.live, h.all, h.draining⟩
      rw [← some.inj hm]
      exact ⟨rfl, rfl, fun heq => hmissing (.inr heq), fun heq => hmissing (.inl heq)⟩
  | message =>
    rw [RoomOutbound.step]
    split
    · rename_i currentMeta hmeta
      obtain ⟨-, htokenless, hsession, huser⟩ := h.bound hmeta
      split_ifs
      · have hbound : Waiter.Bound ⟨currentMeta, false⟩ := ⟨htokenless, hsession, huser⟩
        exact h.of_calm (.ensured hbound
          (ensured _ htokenless (hinv.sessions.unasked le_rfl)))
      · exact h
    · exact h
  | otherSocket key =>
    rw [RoomOutbound.step]
    split
    · exact h
    · exact ⟨h.bound, h.opened, h.active, h.live, h.all, h.draining⟩
  | settle check answer =>
    obtain rfl : answer = .active := ha
    rw [RoomOutbound.step]
    split
    · refine ⟨h.bound, h.opened, fun {check' answer'} hanswer => ?_, fun hmem => ?_, h.all,
        h.draining⟩
      · change Function.update s.answers check (some .active) check' = some answer' at hanswer
        by_cases hne : check' = check
        · rw [hne, Function.update_self] at hanswer
          exact (some.inj hanswer).symm
        · rw [Function.update_of_ne hne] at hanswer
          exact h.active hanswer
      · rcases mem_append.1 hmem with hmem | hmem
        · exact h.live hmem
        · obtain ⟨waiting, -, heq⟩ := List.mem_map.1 ((mem_cons.1 hmem).resolve_left fun heq => by
            cases heq)
          cases heq
    · exact h
  | close => exact ha.elim
  | tick =>
    rw [RoomOutbound.step]
    split
    · rename_i job jobs hjobs
      exact h.tick hinv hjobs
    · exact h

theorem all_sent (hinv : Inv s) (hjobs : s.jobs = []) (hpending : s.pending = []) :
    s.sentQueue = s.enqueued := by
  by_cases hqueue : s.queue = []
  · rw [← h.all, hqueue, append_nil]
  · -- a drain would wait for a check
    have htokens := hinv.tokens
    rw [if_pos (h.draining hqueue), Socket.tokens, hjobs, countP_nil, Nat.zero_add] at htokens
    obtain ⟨⟨check, waiter⟩, hmem, -⟩ := countP_pos_iff.1 (htokens ▸ Nat.one_pos)
    have hlookup := (hinv.sessions.waiting hmem).2
    rw [hpending] at hlookup
    cases hlookup

end Good

/-! ### What is left to do -/

/-- How many steps a microtask leads to; more while there are frames in the queue. -/
def Job.rank (idle : Bool) : Job → ℕ
  | .start => if idle then 5 else 8
  | .forget _ _ => 1
  | .answered _ waiter => if waiter.drains then 5 else 1
  | .resume _ _ => 4
  | .settling hops => hops + 1 + if idle then 0 else 8

def Waiter.rank (waiter : Waiter) : ℕ := if waiter.drains then 5 else 1

/-- How many steps are left without new calls. -/
def Socket.work (s : Socket) : ℕ :=
  (s.jobs.map (Job.rank (s.queue = []))).sum + (s.waiters.map fun waiting => waiting.2.rank).sum +
    2 * s.pending.length

def Internal (s : Socket) : Action → Prop
  | .tick => s.jobs ≠ []
  | .settle check answer => answer = .active ∧ (s.pending.lookup check).isSome
  | _ => False

section Work

variable {s : Socket}

theorem work_push (job : Job) : (s.push job).work = s.work + job.rank (s.queue = []) := by
  rw [work, Socket.push, map_append, sum_append, map_singleton,
    sum_singleton, work]
  dsimp only
  omega

theorem work_pop {job : Job} {jobs : List Job} (hjobs : s.jobs = job :: jobs) :
    s.work = work { s with jobs } + job.rank (s.queue = []) := by
  rw [work, hjobs, map_cons, sum_cons, work]
  dsimp only
  omega

theorem work_settleCall (waiter : Waiter) :
    (s.settleCall waiter .live).work < s.work + waiter.rank := by
  rw [Socket.settleCall, Waiter.rank]
  split_ifs
  · rw [work_push, Job.rank]
    omega
  · omega

theorem work_ensured {waiter : Waiter} {s' : Socket} (hbound : waiter.Bound)
    (h : Ensured s waiter s') : s'.work ≤ s.work + 2 + waiter.rank := by
  cases h with
  | revoked hunbound => exact absurd hbound hunbound
  | late hbound hcheck hanswer =>
    rw [work_push, Job.rank, Waiter.rank]
    omega
  | joined hbound hcheck hanswer =>
    rw [work, map_append, sum_append, map_singleton, sum_singleton,
      work]
    dsimp only
    omega
  | asked hbound hnone =>
    rw [work, map_append, sum_append, map_singleton, sum_singleton,
      Socket.ask, length_append, length_singleton, work]
    dsimp only
    omega

theorem rank_idle (job : Job) (idle : Bool) : job.rank true ≤ job.rank idle := by
  cases job <;> cases idle <;> simp [Job.rank]

theorem work_burst : s.burst.work ≤ s.work := by
  have hle : (s.jobs.map (Job.rank true)).sum ≤ (s.jobs.map (Job.rank (s.queue = []))).sum :=
    sum_le_sum fun job _ => rank_idle job _
  change (s.jobs.map (Job.rank true)).sum + _ + _ ≤ _
  rw [work]
  exact Nat.add_le_add_right (Nat.add_le_add_right hle _) _

theorem work_settle {check : ℕ} {key : AuthorityKey} (hlookup : s.pending.lookup check = some key) :
    (s.settle check key .active).work < s.work := by
  have hwaiters : ∀ l : List (ℕ × Waiter), (l.map fun waiting => waiting.2.rank).sum =
      ((l.filter (·.1 = check)).map fun waiting => waiting.2.rank).sum +
        ((l.filter (·.1 ≠ check)).map fun waiting => waiting.2.rank).sum := by
    intro l
    induction l with
    | nil => rfl
    | cons waiting rest ih =>
      by_cases hcheck : waiting.1 = check <;> simp [hcheck, ih] <;> omega
  have hjobs : ∀ idle, (((s.waiters.filter (·.1 = check)).map fun waiting =>
      Job.answered check waiting.2).map (Job.rank idle)).sum =
        ((s.waiters.filter (·.1 = check)).map fun waiting => waiting.2.rank).sum := by
    intro idle
    rw [List.map_map]
    rfl
  have hpending : (s.pending.filter (·.1 ≠ check)).length < s.pending.length :=
    length_filter_lt_length_iff_exists.2 ⟨_, Assoc.mem_of_lookup hlookup, by simp⟩
  rw [work, Socket.settle, map_append, sum_append, map_cons, sum_cons,
    hjobs, Job.rank, work, hwaiters s.waiters]
  dsimp only at *
  omega

theorem work_lt (h : Good s) (hinv : Inv s) {a : Action} (ha : Internal s a) :
    (step s a).work < s.work := by
  have hunasked : s.answers s.checks = none := hinv.sessions.unasked le_rfl
  cases a with
  | settle check answer =>
    obtain ⟨rfl, hsome⟩ := ha
    obtain ⟨key, hlookup⟩ := isSome_iff_exists.1 hsome
    rw [step, hlookup]
    exact work_settle hlookup
  | tick =>
    obtain ⟨job, jobs, hjobs⟩ := exists_cons_of_ne_nil ha
    have hpop := h.pop hjobs
    have hwork := work_pop hjobs
    rw [step, hjobs]
    change (Socket.run { s with jobs } job).work < s.work
    rw [hwork]
    cases job with
    | start =>
      by_cases hqueue : s.queue = []
      · have hloop : Socket.run { s with jobs } .start =
            Socket.push { s with jobs } (.settling 3) := if_pos hqueue
        rw [hloop, work_push]
        simp [Job.rank, hqueue]
      · obtain ⟨m, -, hbound, hloop⟩ := hpop.loop_eq hqueue 3
        have hle := work_ensured hbound (ensured (s := { s with jobs }) _ hbound.tokenless hunasked)
        rw [Socket.run, hloop]
        simp only [Waiter.rank, if_true] at hle
        simp only [Job.rank, hqueue, decide_false, Bool.false_eq_true, if_false]
        omega
    | forget key check =>
      have hsame : (Socket.run { s with jobs } (.forget key check)).work =
          work { s with jobs } := by
        rw [Socket.run]
        split_ifs <;> rfl
      rw [hsame, Job.rank]
      omega
    | answered check waiter =>
      have hmem : Job.answered check waiter ∈ s.jobs := hjobs ▸ mem_cons_self
      obtain ⟨-, answer, hanswer, -⟩ := hinv.sessions.answered hmem
      have hlive : Socket.answer { s with jobs } check waiter =
          Socket.settleCall { s with jobs } waiter .live := by
        rw [h.active hanswer] at hanswer
        rw [Socket.answer, hanswer]
      rw [Socket.run, hlive]
      exact work_settleCall waiter
    | resume currentMeta outcome =>
      obtain rfl := h.live (hjobs ▸ mem_cons_self)
      have hburst := work_burst (s := { s with jobs })
      rw [run_burst, work_push]
      change (Socket.burst { s with jobs }).work + 3 < _ + 4
      omega
    | settling hops =>
      cases hops with
      | succ hops =>
        rw [Socket.run, work_push, Job.rank, Job.rank]
        dsimp only
        omega
      | zero =>
        rw [Socket.run]
        by_cases hqueue : s.queue = []
        · rw [if_pos hqueue, Job.rank]
          exact Nat.lt_add_of_pos_right (Nat.add_pos_left Nat.one_pos _)
        · rw [if_neg hqueue]
          change (Socket.push { s with jobs } .start).work < _
          rw [work_push]
          simp [Job.rank, hqueue]
  | _ => exact ha.elim

theorem internal_run (h : Good s) (hinv : Inv s) {bs : List Action}
    (hbs : Runs.Along step Internal s bs) : bs.length ≤ s.work ∧
      ((∀ a, ¬Internal (Runs.last step s bs) a) →
        (Runs.last step s bs).sentQueue = (Runs.last step s bs).enqueued) := by
  induction bs generalizing s with
  | nil =>
    refine ⟨Nat.zero_le _, fun hdone => h.all_sent hinv (not_not.1 (hdone .tick)) ?_⟩
    cases hpending : s.pending with
    | nil => rfl
    | cons first rest =>
      refine absurd ⟨rfl, ?_⟩ (hdone (.settle first.1 .active))
      change (s.pending.lookup first.1).isSome
      simp [hpending]
  | cons b bs ih =>
    have hactive : b.Active := by
      cases b with
      | settle check answer => exact hbs.1.1
      | close => exact hbs.1.elim
      | _ => trivial
    obtain ⟨hlength, hdone⟩ := ih (h.step hinv hactive) (hinv.step b) hbs.2
    have hlt := work_lt h hinv hbs.1
    exact ⟨by rw [length_cons]; omega, hdone⟩

end Work

/-! ### Runs -/

end EdgeBase.RoomOutbound
