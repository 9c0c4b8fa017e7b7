import EdgeBase.Lib.Assoc
import EdgeBase.Rooms.OutboundQueue

/-!
# Runs of a drain

What holds of the frames of a socket in every order of calls, answers and microtasks.

* `Sessions` : the checks of the sessions; a drain that begins finds no old answer.
* `Inv` : one drain at most, and the frames in their order.
* `authorised` : an answer of the authority before every burst.
-/

namespace EdgeBase.RoomOutbound

open List Option Socket

/-! ### Drains -/

def Job.drains : Job → Bool
  | .start => true
  | .forget _ _ => false
  | .answered _ waiter => waiter.drains
  | .resume _ _ => true
  | .settling _ => true

namespace Socket

variable (s : Socket)

/-- How many drains go on in a microtask, or when an answer comes. -/
def tokens : ℕ := s.jobs.countP Job.drains + s.waiters.countP fun waiting => waiting.2.drains

def sentQueue : List (ℕ × String) :=
  s.sent.filterMap fun
    | .queued frame => some frame
    | .direct _ => none

end Socket

structure Waiter.Bound (waiter : Waiter) : Prop where
  tokenless : waiter.currentMeta.tokenless = false
  sessionId : waiter.currentMeta.sessionId ≠ ""
  userId : waiter.currentMeta.userId ≠ ""

/-! ### What a call does -/

/-- What a call of `ensureLiveSessionAuthority` does. -/
inductive Ensured (s : Socket) (waiter : Waiter) : Socket → Prop
  | revoked (hbound : ¬waiter.Bound) : Ensured s waiter
      ((s.revokeLiveSession waiter.currentMeta).settleCall waiter .notLive)
  /-- The answer of the check in flight is already there. -/
  | late (hbound : waiter.Bound) {check : ℕ} {answer : Answer}
      (hcheck : s.sessionAuthorityInFlight waiter.currentMeta.key = some check)
      (hanswer : s.answers check = some answer) : Ensured s waiter (s.push (.answered check waiter))
  | joined (hbound : waiter.Bound) {check : ℕ}
      (hcheck : s.sessionAuthorityInFlight waiter.currentMeta.key = some check)
      (hanswer : s.answers check = none) :
      Ensured s waiter { s with waiters := s.waiters ++ [(check, waiter)] }
  | asked (hbound : waiter.Bound)
      (hnone : s.sessionAuthorityInFlight waiter.currentMeta.key = none) :
      Ensured s waiter { s.ask waiter.currentMeta.key with
        waiters := s.waiters ++ [(s.checks, waiter)] }

theorem ensured {s : Socket} (waiter : Waiter)
    (htokenless : waiter.currentMeta.tokenless = false) (hunasked : s.answers s.checks = none) :
    Ensured s waiter (s.ensureLiveSessionAuthority waiter) := by
  rw [Socket.ensureLiveSessionAuthority, htokenless, if_neg Bool.false_ne_true]
  split_ifs with hmissing
  · exact .revoked fun hbound => hmissing.elim hbound.sessionId hbound.userId
  · have hbound : waiter.Bound :=
      ⟨htokenless, fun h => hmissing (.inl h), fun h => hmissing (.inr h)⟩
    cases hcheck : s.sessionAuthorityInFlight waiter.currentMeta.key with
    | none =>
      have hanswer : (s.ask waiter.currentMeta.key).answers s.checks = none := hunasked
      simp only [Socket.await, hanswer]
      exact .asked hbound hcheck
    | some check =>
      cases hanswer : s.answers check with
      | none =>
        simp only [Socket.await, hanswer]
        exact .joined hbound hcheck hanswer
      | some answer =>
        simp only [Socket.await, hanswer]
        exact .late hbound hcheck hanswer

/-! ### Sessions -/

/-- No drain begins before a job. -/
def Behind (job : Job) : List Job → Prop
  | [] => True
  | next :: rest => next = job ∨ next ≠ .start ∧ Behind job rest

theorem Behind.append {job : Job} {jobs : List Job} (h : Behind job jobs) (hmem : job ∈ jobs)
    (more : List Job) : Behind job (jobs ++ more) := by
  induction jobs with
  | nil => cases hmem
  | cons next rest ih =>
    rcases h with rfl | ⟨hne, h⟩
    · exact .inl rfl
    · rcases mem_cons.1 hmem with rfl | hmem
      · exact .inl rfl
      · exact .inr ⟨hne, ih h hmem⟩

theorem Behind.of_notMem {job : Job} : ∀ {jobs : List Job}, .start ∉ jobs → Behind job jobs
  | [], _ => trivial
  | _ :: _, h => .inr ⟨fun heq => h (heq ▸ mem_cons_self),
      of_notMem fun hmem => h (mem_cons_of_mem _ hmem)⟩

structure Sessions (s : Socket) : Prop where
  asked : ∀ {check key}, (check, key) ∈ s.pending → check < s.checks
  unasked : ∀ {check}, s.checks ≤ check → s.answers check = none
  unanswered : ∀ {check key}, s.pending.lookup check = some key → s.answers check = none
  waiting : ∀ {check waiter}, (check, waiter) ∈ s.waiters →
    waiter.Bound ∧ s.pending.lookup check = some waiter.currentMeta.key
  answered : ∀ {check waiter}, .answered check waiter ∈ s.jobs → waiter.Bound ∧
    ∃ answer, s.answers check = some answer ∧
      (waiter.drains → answer = .active → waiter.currentMeta.key ∈ s.granted)
  resumed : ∀ {currentMeta}, .resume currentMeta .live ∈ s.jobs → currentMeta.key ∈ s.granted
  /-- A check in flight has no answer, or it is just to be forgotten: then no drain that begins
  finds an answer from before its last burst. -/
  inFlight : ∀ {key check}, s.sessionAuthorityInFlight key = some check →
    s.pending.lookup check = some key ∨
      ∃ answer, s.answers check = some answer ∧ .forget key check ∈ s.jobs ∧
        (answer = .active → key ∈ s.granted ∨ Behind (.forget key check) s.jobs)

namespace Sessions

variable {s : Socket}

variable (h : Sessions s)
include h

theorem of_same (currentMeta : Option RoomWSMeta) (queue : List (ℕ × String))
    (drains : Bool) (sent : List Frame) (enqueued : List (ℕ × String)) :
    Sessions { s with getWSMeta := currentMeta, queue, drains, sent, enqueued } :=
  ⟨h.asked, h.unasked, h.unanswered, h.waiting, h.answered, h.resumed, h.inFlight⟩

theorem push {job : Job}
    (hanswered : ∀ {check waiter}, job = .answered check waiter → waiter.Bound ∧
      ∃ answer, s.answers check = some answer ∧
        (waiter.drains → answer = .active → waiter.currentMeta.key ∈ s.granted))
    (hresumed : ∀ {currentMeta}, job = .resume currentMeta .live →
      currentMeta.key ∈ s.granted) : Sessions (s.push job) where
  asked := h.asked
  unasked := h.unasked
  unanswered := h.unanswered
  waiting := h.waiting
  answered hmem := by
    rcases mem_append.1 hmem with hmem | hmem
    · exact h.answered hmem
    · exact hanswered (mem_singleton.1 hmem).symm
  resumed hmem := by
    rcases mem_append.1 hmem with hmem | hmem
    · exact h.resumed hmem
    · exact hresumed (mem_singleton.1 hmem).symm
  inFlight hcheck := by
    refine (h.inFlight hcheck).imp_right ?_
    rintro ⟨answer, hanswer, hmem, hbehind⟩
    exact ⟨answer, hanswer, mem_append_left _ hmem, fun hactive =>
      (hbehind hactive).imp_right fun h => h.append hmem _⟩

theorem pushSettling (hops : ℕ) : Sessions (s.push (.settling hops)) :=
  h.push nofun nofun

theorem startOutboundSessionDrain : Sessions s.startOutboundSessionDrain := by
  rw [Socket.startOutboundSessionDrain]
  split_ifs
  · exact h
  · have hpush : Sessions (s.push .start) := h.push nofun nofun
    exact hpush.of_same s.getWSMeta s.queue true s.sent s.enqueued

theorem settleCall {waiter : Waiter} {outcome : Outcome}
    (hgranted : waiter.drains → outcome = .live → waiter.currentMeta.key ∈ s.granted) :
    Sessions (s.settleCall waiter outcome) := by
  rw [Socket.settleCall]
  split_ifs with hdrains
  · refine h.push nofun fun heq => ?_
    obtain ⟨rfl, hlive⟩ := Job.resume.inj heq
    exact hgranted hdrains hlive
  · exact h

theorem wait {check : ℕ} {waiter : Waiter} (hbound : waiter.Bound)
    (hpending : s.pending.lookup check = some waiter.currentMeta.key) :
    Sessions { s with waiters := s.waiters ++ [(check, waiter)] } where
  asked := h.asked
  unasked := h.unasked
  unanswered := h.unanswered
  waiting hmem := by
    rcases mem_append.1 hmem with hmem | hmem
    · exact h.waiting hmem
    · obtain ⟨rfl, rfl⟩ := Prod.mk.inj (mem_singleton.1 hmem)
      exact ⟨hbound, hpending⟩
  answered := h.answered
  resumed := h.resumed
  inFlight := h.inFlight

omit h

theorem lookup_ask (key : AuthorityKey) {check : ℕ} {key' : AuthorityKey}
    (hlookup : s.pending.lookup check = some key') :
    (s.ask key).pending.lookup check = some key' := by
  rw [Socket.ask, lookup_append, hlookup, some_or]

variable (h : Sessions s)
include h

theorem lookup_asked (key : AuthorityKey) : (s.ask key).pending.lookup s.checks = some key := by
  have hnone : s.pending.lookup s.checks = none := by
    cases hlookup : s.pending.lookup s.checks with
    | none => rfl
    | some key' => exact absurd (h.asked (Assoc.mem_of_lookup hlookup)) (Nat.lt_irrefl _)
  rw [Socket.ask, lookup_append, hnone, none_or]
  simp

theorem ask {key : AuthorityKey} : Sessions (s.ask key) where
  asked hmem := by
    rcases mem_append.1 hmem with hmem | hmem
    · exact Nat.lt_succ_of_lt (h.asked hmem)
    · obtain ⟨rfl, -⟩ := Prod.mk.inj (mem_singleton.1 hmem)
      exact Nat.lt_succ_self _
  unasked hle := h.unasked (Nat.le_of_succ_le hle)
  unanswered {check key'} hlookup := by
    rw [Socket.ask, lookup_append] at hlookup
    cases hold : s.pending.lookup check with
    | some key'' => exact h.unanswered hold
    | none =>
      rw [hold, none_or] at hlookup
      obtain ⟨rfl, -⟩ := Prod.mk.inj (mem_singleton.1 (Assoc.mem_of_lookup hlookup))
      exact h.unasked le_rfl
  waiting hmem := ⟨(h.waiting hmem).1, lookup_ask key (h.waiting hmem).2⟩
  answered := h.answered
  resumed := h.resumed
  inFlight {key' check} hcheck := by
    change Function.update s.sessionAuthorityInFlight key (some s.checks) key' = some check
      at hcheck
    by_cases hkey : key' = key
    · subst hkey
      rw [Function.update_self] at hcheck
      obtain rfl := some.inj hcheck
      exact .inl (h.lookup_asked key')
    · rw [Function.update_of_ne hkey] at hcheck
      exact (h.inFlight hcheck).imp_left (lookup_ask key)

/-- A call of `ensureLiveSessionAuthority`; a drain does not find an old answer. -/
theorem ensureLiveSessionAuthority {waiter : Waiter}
    (htokenless : waiter.currentMeta.tokenless = false) (hnew : waiter.drains → ∀ {check},
      s.sessionAuthorityInFlight waiter.currentMeta.key = some check →
        s.answers check = some .active → waiter.currentMeta.key ∈ s.granted) :
    Sessions (s.ensureLiveSessionAuthority waiter) := by
  have hensured := ensured waiter htokenless (h.unasked le_rfl)
  generalize s.ensureLiveSessionAuthority waiter = s' at hensured
  cases hensured with
  | revoked hbound =>
    refine settleCall ?_ nofun
    exact h.of_same _ s.queue s.drains _ s.enqueued
  | @late hbound check answer hcheck hanswer =>
    refine h.push (fun heq => ?_) nofun
    obtain ⟨rfl, rfl⟩ := Job.answered.inj heq
    refine ⟨hbound, answer, hanswer, fun hdrains hactive => hnew hdrains hcheck ?_⟩
    rw [hanswer, hactive]
  | joined hbound hcheck hanswer =>
    refine h.wait hbound ((h.inFlight hcheck).resolve_right ?_)
    rintro ⟨answer, hanswer', -⟩
    rw [hanswer] at hanswer'
    cases hanswer'
  | asked hbound hnone => exact h.ask.wait hbound (h.lookup_asked _)

theorem answer {check : ℕ} {waiter : Waiter}
    (hgranted : waiter.drains → s.answers check = some .active →
      waiter.currentMeta.key ∈ s.granted) : Sessions (s.answer check waiter) := by
  rw [Socket.answer]
  split
  · rename_i hanswer
    exact h.settleCall fun hdrains _ => hgranted hdrains hanswer
  · exact settleCall (h.of_same _ s.queue s.drains _ s.enqueued) nofun
  · exact settleCall (h.of_same s.getWSMeta s.queue s.drains _ s.enqueued) nofun
  · exact h.settleCall nofun
  · exact h

theorem loop (htokenless : ∀ {m}, s.getWSMeta = some m → m.tokenless = false)
    (hnew : ∀ {key check}, s.sessionAuthorityInFlight key = some check →
      s.answers check = some .active → key ∈ s.granted) (hops : ℕ) : Sessions (s.loop hops) := by
  have hcleared : Sessions ({ s with queue := [] }.push (.settling hops)) :=
    (h.of_same s.getWSMeta [] s.drains s.sent s.enqueued).pushSettling hops
  rw [Socket.loop]
  split_ifs with hqueue
  · exact h.pushSettling hops
  · split
    · rename_i currentMeta hmeta
      split_ifs
      · exact h.ensureLiveSessionAuthority (htokenless hmeta) fun _ _ => hnew
      · exact hcleared
    · exact hcleared

theorem pop {job : Job} {jobs : List Job} (hjobs : s.jobs = job :: jobs)
    (hforget : ∀ key check, job ≠ .forget key check) : Sessions { s with jobs } where
  asked := h.asked
  unasked := h.unasked
  unanswered := h.unanswered
  waiting := h.waiting
  answered hmem := h.answered (hjobs ▸ mem_cons_of_mem _ hmem)
  resumed hmem := h.resumed (hjobs ▸ mem_cons_of_mem _ hmem)
  inFlight {key check} hcheck := by
    refine (h.inFlight hcheck).imp_right ?_
    rintro ⟨answer, hanswer, hmem, hbehind⟩
    rw [hjobs] at hmem hbehind
    refine ⟨answer, hanswer, (mem_cons.1 hmem).resolve_left (hforget key check).symm,
      fun hactive => (hbehind hactive).imp_right ?_⟩
    rintro (heq | ⟨-, hbehind⟩)
    · exact absurd heq (hforget key check)
    · exact hbehind

theorem forget {key : AuthorityKey} {check : ℕ} {jobs : List Job}
    (hjobs : s.jobs = .forget key check :: jobs) :
    Sessions ({ s with jobs }.run (.forget key check)) := by
  -- every other check in flight is forgotten by another job
  have hothers : ∀ {key' check'}, s.sessionAuthorityInFlight key' = some check' →
      Job.forget key check ≠ .forget key' check' → s.pending.lookup check' = some key' ∨
        ∃ answer, s.answers check' = some answer ∧ .forget key' check' ∈ jobs ∧
          (answer = .active → key' ∈ s.granted ∨ Behind (.forget key' check') jobs) := by
    intro key' check' hcheck hne
    refine (h.inFlight hcheck).imp_right ?_
    rintro ⟨answer, hanswer, hmem, hbehind⟩
    rw [hjobs] at hmem hbehind
    refine ⟨answer, hanswer, (mem_cons.1 hmem).resolve_left hne.symm,
      fun hactive => (hbehind hactive).imp_right ?_⟩
    rintro (heq | ⟨-, hbehind⟩)
    · exact absurd heq hne
    · exact hbehind
  rw [Socket.run]
  split_ifs with hflight
  · refine ⟨h.asked, h.unasked, h.unanswered, h.waiting,
      fun hmem => h.answered (hjobs ▸ mem_cons_of_mem _ hmem),
      fun hmem => h.resumed (hjobs ▸ mem_cons_of_mem _ hmem), fun {key' check'} hcheck => ?_⟩
    change Function.update s.sessionAuthorityInFlight key none key' = some check' at hcheck
    by_cases hkey : key' = key
    · rw [hkey, Function.update_self] at hcheck
      cases hcheck
    · rw [Function.update_of_ne hkey] at hcheck
      exact hothers hcheck fun heq => hkey (Job.forget.inj heq).1.symm
  · refine ⟨h.asked, h.unasked, h.unanswered, h.waiting,
      fun hmem => h.answered (hjobs ▸ mem_cons_of_mem _ hmem),
      fun hmem => h.resumed (hjobs ▸ mem_cons_of_mem _ hmem), fun {key' check'} hcheck => ?_⟩
    refine hothers hcheck fun heq => hflight ?_
    obtain ⟨rfl, rfl⟩ := Job.forget.inj heq
    exact hcheck

theorem burst (hjobs : ∀ job ∈ s.jobs, job.drains = false) : Sessions s.burst where
  asked := h.asked
  unasked := h.unasked
  unanswered := h.unanswered
  waiting := h.waiting
  answered hmem := by
    obtain ⟨hbound, answer, hanswer, -⟩ := h.answered hmem
    refine ⟨hbound, answer, hanswer, fun hdrains => ?_⟩
    have hnone := hjobs _ hmem
    rw [Job.drains, hdrains] at hnone
    cases hnone
  resumed hmem := nomatch hjobs _ hmem
  inFlight hcheck := by
    refine (h.inFlight hcheck).imp_right ?_
    rintro ⟨answer, hanswer, hmem, -⟩
    exact ⟨answer, hanswer, hmem, fun _ =>
      .inr (Behind.of_notMem fun hstart => nomatch hjobs _ hstart)⟩

theorem settle {check : ℕ} {key : AuthorityKey}
    (hlookup : s.pending.lookup check = some key) (answer : Answer) :
    Sessions (s.settle check key answer) := by
  have hgranted : ∀ {key'}, key' ∈ s.granted → key' ∈ (s.settle check key answer).granted := by
    intro key' hmem
    rw [Socket.settle]
    dsimp only
    split_ifs
    · exact mem_cons_of_mem _ hmem
    · exact hmem
  have hactive : answer = .active → key ∈ (s.settle check key answer).granted := by
    intro hactive
    rw [Socket.settle]
    dsimp only
    rw [if_pos hactive]
    exact mem_cons_self
  have hanswers : ∀ {check'}, check' ≠ check →
      (s.settle check key answer).answers check' = s.answers check' :=
    fun hne => Function.update_of_ne hne _ _
  have hanswer : (s.settle check key answer).answers check = some answer :=
    Function.update_self ..
  have hnone := h.unanswered hlookup
  have hpending : ∀ {check' key'}, check' ≠ check → s.pending.lookup check' = some key' →
      (s.settle check key answer).pending.lookup check' = some key' := by
    intro check' key' hne hlookup'
    have hrestrict := Assoc.lookup_restrict (· ≠ check) s.pending check'
    rw [if_pos (decide_eq_true hne)] at hrestrict
    exact hrestrict.trans hlookup'
  constructor
  · exact fun hmem => h.asked (mem_of_mem_filter hmem)
  · intro check' hle
    have hlt := h.asked (Assoc.mem_of_lookup hlookup)
    have hne : check' ≠ check := by
      rintro rfl
      exact absurd hlt (Nat.not_lt.2 hle)
    rw [hanswers hne]
    exact h.unasked hle
  · intro check' key' hlookup'
    have hrestrict := Assoc.lookup_restrict (· ≠ check) s.pending check'
    by_cases hne : check' = check
    · rw [if_neg (by simpa using hne)] at hrestrict
      cases hrestrict.symm.trans hlookup'
    · rw [if_pos (decide_eq_true hne)] at hrestrict
      rw [hanswers hne]
      exact h.unanswered (hrestrict.symm.trans hlookup')
  · intro check' waiter hmem
    obtain ⟨hmem, hne⟩ := mem_filter.1 hmem
    obtain ⟨hbound, hlookup'⟩ := h.waiting hmem
    exact ⟨hbound, hpending (of_decide_eq_true hne) hlookup'⟩
  · intro check' waiter hmem
    rcases mem_append.1 hmem with hmem | hmem
    · obtain ⟨hbound, answer', hanswer', hdrains⟩ := h.answered hmem
      have hne : check' ≠ check := by
        rintro rfl
        rw [hnone] at hanswer'
        cases hanswer'
      exact ⟨hbound, answer', (hanswers hne).trans hanswer',
        fun hd ha => hgranted (hdrains hd ha)⟩
    · obtain ⟨waiting, hfilter, heq⟩ := List.mem_map.1 ((mem_cons.1 hmem).resolve_left nofun)
      obtain ⟨hwaiting, hcheck⟩ := mem_filter.1 hfilter
      obtain ⟨rfl, rfl⟩ := Job.answered.inj heq
      obtain ⟨hbound, hlookup'⟩ := h.waiting hwaiting
      rw [of_decide_eq_true hcheck, hlookup] at hlookup'
      refine ⟨hbound, answer, hanswer, fun _ ha => ?_⟩
      rw [← some.inj hlookup']
      exact hactive ha
  · intro currentMeta hmem
    rcases mem_append.1 hmem with hmem | hmem
    · exact hgranted (h.resumed hmem)
    · obtain ⟨waiting, -, heq⟩ := List.mem_map.1 ((mem_cons.1 hmem).resolve_left nofun)
      cases heq
  · intro key' check' hcheck
    by_cases hne : check' = check
    · subst hne
      have hkey : key' = key := by
        rcases h.inFlight hcheck with hlookup' | ⟨answer', hanswer', -⟩
        · exact some.inj (hlookup'.symm.trans hlookup)
        · rw [hnone] at hanswer'
          cases hanswer'
      subst hkey
      exact .inr ⟨answer, hanswer, mem_append_right _ mem_cons_self,
        fun ha => .inl (hactive ha)⟩
    · refine (h.inFlight hcheck).imp (hpending hne) ?_
      rintro ⟨answer', hanswer', hmem, hbehind⟩
      exact ⟨answer', (hanswers hne).trans hanswer', mem_append_left _ hmem, fun ha =>
        (hbehind ha).imp hgranted fun hb => hb.append hmem _⟩

end Sessions

/-! ### One drain at most -/

namespace Socket

variable {s : Socket}

theorem tokens_push (job : Job) : (s.push job).tokens = s.tokens + if job.drains then 1 else 0 := by
  change (s.jobs ++ [job]).countP Job.drains + s.waiters.countP _ = _
  rw [tokens, countP_append, countP_singleton]
  omega

theorem tokens_wait (check : ℕ) (waiter : Waiter) :
    tokens { s with waiters := s.waiters ++ [(check, waiter)] } =
      s.tokens + if waiter.drains then 1 else 0 := by
  change s.jobs.countP Job.drains + (s.waiters ++ [(check, waiter)]).countP _ = _
  rw [tokens, countP_append, countP_singleton]
  exact (Nat.add_assoc _ _ _).symm

theorem tokens_settleCall (waiter : Waiter) (outcome : Outcome) :
    (s.settleCall waiter outcome).tokens = s.tokens + if waiter.drains then 1 else 0 := by
  rw [settleCall]
  split_ifs
  · exact tokens_push _
  · rfl

theorem tokens_ensured {waiter : Waiter} {s' : Socket} (h : Ensured s waiter s') :
    s'.tokens = s.tokens + (if waiter.drains then 1 else 0) ∧ s'.drains = s.drains := by
  cases h with
  | revoked hbound =>
    refine ⟨tokens_settleCall _ _, ?_⟩
    rw [settleCall]
    split_ifs <;> rfl
  | late hbound hcheck hanswer => exact ⟨tokens_push _, rfl⟩
  | joined hbound hcheck hanswer => exact ⟨tokens_wait _ _, rfl⟩
  | asked hbound hnone => exact ⟨tokens_wait _ _, rfl⟩

theorem tokens_answer (check : ℕ) (waiter : Waiter) (h : s.answers check ≠ none) :
    (s.answer check waiter).tokens = s.tokens + (if waiter.drains then 1 else 0) ∧
      (s.answer check waiter).drains = s.drains := by
  have hdrains : ∀ (s' : Socket) (outcome : Outcome),
      (s'.settleCall waiter outcome).drains = s'.drains := by
    intro s' outcome
    rw [settleCall]
    split_ifs <;> rfl
  rw [answer]
  split
  · exact ⟨tokens_settleCall _ _, hdrains _ _⟩
  · exact ⟨tokens_settleCall _ _, hdrains _ _⟩
  · exact ⟨tokens_settleCall _ _, hdrains _ _⟩
  · exact ⟨tokens_settleCall _ _, hdrains _ _⟩
  · exact absurd ‹_› h

theorem tokens_loop (htokenless : ∀ {m}, s.getWSMeta = some m → m.tokenless = false)
    (hunasked : s.answers s.checks = none) (hops : ℕ) :
    (s.loop hops).tokens = s.tokens + 1 ∧ (s.loop hops).drains = s.drains := by
  rw [loop]
  split_ifs
  · exact ⟨tokens_push _, rfl⟩
  · split
    · rename_i currentMeta hmeta
      split_ifs
      · exact tokens_ensured (ensured ⟨currentMeta, true⟩ (htokenless hmeta) hunasked)
      · exact ⟨tokens_push _, rfl⟩
    · exact ⟨tokens_push _, rfl⟩

theorem tokens_settle (check : ℕ) (key : AuthorityKey) (answer : Answer) :
    (s.settle check key answer).tokens = s.tokens := by
  have hsplit : s.waiters.countP (fun waiting => waiting.2.drains) =
      (s.waiters.filter (·.1 = check)).countP (fun waiting => waiting.2.drains) +
        (s.waiters.filter (·.1 ≠ check)).countP fun waiting => waiting.2.drains := by
    rw [countP_filter, countP_filter]
    induction s.waiters with
    | nil => rfl
    | cons waiting rest ih =>
      simp only [countP_cons, ih]
      by_cases hcheck : waiting.1 = check <;> simp [hcheck] <;> omega
  have hmap : ((s.waiters.filter (·.1 = check)).map fun waiting =>
      Job.answered check waiting.2).countP Job.drains =
        (s.waiters.filter (·.1 = check)).countP fun waiting => waiting.2.drains := by
    rw [countP_map]
    rfl
  rw [tokens, settle, countP_append, countP_cons, hmap, tokens, hsplit]
  simp only [Job.drains, Bool.false_eq_true, if_false]
  omega

theorem run_burst (currentMeta : RoomWSMeta) :
    s.run (.resume currentMeta .live) = s.burst.push (.settling 2) := by
  have hqueue : s.burst.queue = [] := rfl
  rw [run, loop, if_pos hqueue]

theorem sentQueue_burst : s.burst.sentQueue = s.sentQueue ++ s.queue := by
  simp [sentQueue, burst, filterMap_map]

end Socket

/-! ### Frames -/

/-- No frame of the queue is sent, but the queue may be emptied. -/
structure Kept (s s' : Socket) : Prop where
  queue : s'.queue = s.queue ∨ s'.queue = []
  sent : s'.sentQueue = s.sentQueue
  enqueued : s'.enqueued = s.enqueued
  tokenless : (∀ {m}, s.getWSMeta = some m → m.tokenless = false) →
    ∀ {m}, s'.getWSMeta = some m → m.tokenless = false

namespace Kept

variable {s : Socket}

theorem push (job : Job) : Kept s (s.push job) := ⟨.inl rfl, rfl, rfl, id⟩

theorem sendRawUnchecked (msg : String) : Kept s (s.sendRawUnchecked msg) :=
  ⟨.inl rfl, by simp [Socket.sentQueue, Socket.sendRawUnchecked], rfl, id⟩

theorem revokeLiveSession {currentMeta : RoomWSMeta} (h : currentMeta.tokenless = false) :
    Kept s (s.revokeLiveSession currentMeta) where
  queue := .inl rfl
  sent := by simp [Socket.sentQueue, Socket.revokeLiveSession, Socket.sendRawUnchecked]
  enqueued := rfl
  tokenless _ := fun {m} hm => by
    rw [← some.inj hm]
    exact h

theorem settleCall {s' : Socket} (h : Kept s s') (waiter : Waiter) (outcome : Outcome) :
    Kept s (s'.settleCall waiter outcome) := by
  rw [Socket.settleCall]
  split_ifs
  · exact ⟨h.queue, h.sent, h.enqueued, h.tokenless⟩
  · exact h

theorem ensured {waiter : Waiter} {s' : Socket} (htokenless : waiter.currentMeta.tokenless = false)
    (h : Ensured s waiter s') : Kept s s' := by
  cases h with
  | revoked hbound => exact (revokeLiveSession htokenless).settleCall _ _
  | late hbound hcheck hanswer => exact push _
  | joined hbound hcheck hanswer => exact ⟨.inl rfl, rfl, rfl, id⟩
  | asked hbound hnone => exact ⟨.inl rfl, rfl, rfl, id⟩

theorem refl : Kept s s := ⟨.inl rfl, rfl, rfl, id⟩

theorem answer {check : ℕ} {waiter : Waiter} (hbound : waiter.Bound) :
    Kept s (s.answer check waiter) := by
  rw [Socket.answer]
  split
  · exact refl.settleCall _ _
  · exact (revokeLiveSession hbound.tokenless).settleCall _ _
  · exact (sendRawUnchecked _).settleCall _ _
  · exact refl.settleCall _ _
  · exact refl

theorem loop (htokenless : ∀ {m}, s.getWSMeta = some m → m.tokenless = false)
    (hunasked : s.answers s.checks = none) (hops : ℕ) : Kept s (s.loop hops) := by
  have hcleared : Kept s ({ s with queue := [] }.push (.settling hops)) :=
    ⟨.inr rfl, rfl, rfl, id⟩
  rw [Socket.loop]
  split_ifs
  · exact push _
  · split
    · rename_i currentMeta hmeta
      split_ifs
      · exact ensured (htokenless hmeta)
          (RoomOutbound.ensured ⟨currentMeta, true⟩ (htokenless hmeta) hunasked)
      · exact hcleared
    · exact hcleared

end Kept

/-! ### Steps -/

structure Inv (s : Socket) : Prop where
  sessions : Sessions s
  tokens : s.tokens = if s.drains then 1 else 0
  tokenless : ∀ {m}, s.getWSMeta = some m → m.tokenless = false
  order : (s.sentQueue ++ s.queue).Sublist s.enqueued
  numbered : s.enqueued.map Prod.fst = List.range s.enqueued.length

namespace Inv

variable {s : Socket}

theorem opened : Inv .opened where
  sessions := ⟨nofun, fun _ => rfl, nofun, nofun, nofun, nofun, nofun⟩
  tokens := rfl
  tokenless := nofun
  order := .refl _
  numbered := rfl

theorem of_kept (h : Inv s) {s' : Socket} (hkept : Kept s s') (hsessions : Sessions s')
    (htokens : s'.tokens = if s'.drains then 1 else 0) : Inv s' where
  sessions := hsessions
  tokens := htokens
  tokenless := hkept.tokenless h.tokenless
  order := by
    rw [hkept.sent, hkept.enqueued]
    rcases hkept.queue with hqueue | hqueue
    · rw [hqueue]
      exact h.order
    · rw [hqueue, append_nil]
      exact (sublist_append_left _ _).trans h.order
  numbered := by
    rw [hkept.enqueued]
    exact h.numbered

theorem sendRawUnchecked (h : Inv s) (msg : String) : Inv (s.sendRawUnchecked msg) :=
  h.of_kept (.sendRawUnchecked msg)
    (h.sessions.of_same s.getWSMeta s.queue s.drains _ s.enqueued) h.tokens

theorem safeSendRaw (h : Inv s) (msg : String) : Inv (s.safeSendRaw msg) := by
  rw [Socket.safeSendRaw]
  split
  · split_ifs
    · exact h.sendRawUnchecked msg
    · have hsessions : Sessions { s with
          queue := s.queue ++ [(s.enqueued.length, msg)]
          enqueued := s.enqueued ++ [(s.enqueued.length, msg)] } :=
        h.sessions.of_same s.getWSMeta _ s.drains s.sent _
      have horder : (s.sentQueue ++ (s.queue ++ [(s.enqueued.length, msg)])).Sublist
          (s.enqueued ++ [(s.enqueued.length, msg)]) := by
        rw [← append_assoc]
        exact h.order.append_right _
      have hnumbered : (s.enqueued ++ [(s.enqueued.length, msg)]).map Prod.fst =
          List.range (s.enqueued ++ [(s.enqueued.length, msg)]).length := by
        rw [map_append, h.numbered, length_append, length_singleton,
          range_succ, map_singleton]
      have hsessions' := hsessions.startOutboundSessionDrain
      have htokens := h.tokens
      rw [Socket.startOutboundSessionDrain] at hsessions' ⊢
      dsimp only at hsessions' ⊢
      split_ifs at hsessions' ⊢ with hdrains
      · exact ⟨hsessions', h.tokens, h.tokenless, horder, hnumbered⟩
      · refine ⟨hsessions', ?_, h.tokenless, horder, hnumbered⟩
        have hpush := s.tokens_push .start
        rw [h.tokens, if_neg hdrains] at hpush
        exact hpush
  · exact h.sendRawUnchecked msg

theorem ensureLiveSessionAuthority (h : Inv s) {waiter : Waiter}
    (htokenless : waiter.currentMeta.tokenless = false) (hdrains : waiter.drains = false) :
    Inv (s.ensureLiveSessionAuthority waiter) := by
  have hensured := ensured waiter htokenless (h.sessions.unasked le_rfl)
  obtain ⟨htokens, hsame⟩ := tokens_ensured hensured
  refine h.of_kept (.ensured htokenless hensured)
    (h.sessions.ensureLiveSessionAuthority htokenless fun hd => ?_) ?_
  · rw [hdrains] at hd
    cases hd
  · rw [htokens, hdrains, hsame]
    exact h.tokens

theorem granted_of_start (h : Inv s) {jobs : List Job} (hjobs : s.jobs = .start :: jobs)
    {key : AuthorityKey} {check : ℕ} (hcheck : s.sessionAuthorityInFlight key = some check)
    (hanswer : s.answers check = some .active) : key ∈ s.granted := by
  rcases h.sessions.inFlight hcheck with hlookup | ⟨answer, hanswer', -, hbehind⟩
  · rw [h.sessions.unanswered hlookup] at hanswer
    cases hanswer
  · obtain rfl := some.inj (hanswer.symm.trans hanswer')
    refine (hbehind rfl).resolve_right fun hbehind => ?_
    rw [hjobs] at hbehind
    rcases hbehind with heq | ⟨hne, -⟩
    · cases heq
    · exact hne rfl

theorem tokens_pop {job : Job} {jobs : List Job} (hjobs : s.jobs = job :: jobs) :
    s.tokens = Socket.tokens { s with jobs } + if job.drains then 1 else 0 := by
  rw [Socket.tokens, hjobs, countP_cons]
  change _ = jobs.countP Job.drains + s.waiters.countP _ + _
  omega

theorem notDrains_of_pop (h : Inv s) {job : Job} {jobs : List Job} (hjobs : s.jobs = job :: jobs)
    (hdrains : job.drains) : s.drains = true ∧ ∀ job ∈ jobs, job.drains = false := by
  have hpop := tokens_pop hjobs
  rw [h.tokens, if_pos hdrains] at hpop
  split_ifs at hpop with hd
  refine ⟨hd, fun job' hmem => ?_⟩
  have hzero : jobs.countP Job.drains = 0 := by
    have hle : jobs.countP Job.drains ≤ Socket.tokens { s with jobs } := Nat.le_add_right _ _
    omega
  simpa using countP_eq_zero.1 hzero job' hmem

theorem tick (h : Inv s) {job : Job} {jobs : List Job} (hjobs : s.jobs = job :: jobs) :
    Inv ({ s with jobs }.run job) := by
  have hpop := tokens_pop hjobs
  have hunasked : s.answers s.checks = none := h.sessions.unasked le_rfl
  have hkept : ∀ {s'}, Kept { s with jobs } s' → Kept s s' :=
    fun hk => ⟨hk.queue, hk.sent, hk.enqueued, hk.tokenless⟩
  rw [h.tokens] at hpop
  cases job with
  | start =>
    have hsessions := h.sessions.pop hjobs nofun
    obtain ⟨htokens, hsame⟩ := tokens_loop (s := { s with jobs }) h.tokenless hunasked 3
    refine h.of_kept (hkept (Kept.loop (s := { s with jobs }) h.tokenless hunasked 3))
      (hsessions.loop h.tokenless (h.granted_of_start hjobs) 3) ?_
    rw [Socket.run, htokens, hsame]
    exact hpop.symm
  | forget key check =>
    have hsame : Socket.tokens { s with jobs } = if s.drains then 1 else 0 := hpop.symm
    refine h.of_kept ?_ (h.sessions.forget hjobs) ?_
    · rw [Socket.run]
      split_ifs <;> exact ⟨.inl rfl, rfl, rfl, id⟩
    · rw [Socket.run]
      by_cases hflight : s.sessionAuthorityInFlight key = some check
      · rw [if_pos hflight]
        exact hsame
      · rw [if_neg hflight]
        exact hsame
  | answered check waiter =>
    have hmem : Job.answered check waiter ∈ s.jobs := hjobs ▸ mem_cons_self
    obtain ⟨hbound, answer, hanswer, hgranted⟩ := h.sessions.answered hmem
    have hsessions := h.sessions.pop hjobs nofun
    obtain ⟨htokens, hsame⟩ := tokens_answer (s := { s with jobs }) check waiter
      (by rw [hanswer]; exact some_ne_none _)
    refine h.of_kept (hkept (.answer hbound)) (hsessions.answer fun hd ha => ?_) ?_
    · exact hgranted hd (some.inj (hanswer.symm.trans ha))
    · rw [Socket.run, htokens, hsame]
      exact hpop.symm
  | resume currentMeta outcome =>
    obtain ⟨hd, hjobs'⟩ := h.notDrains_of_pop hjobs rfl
    have hsessions := h.sessions.pop hjobs nofun
    cases outcome with
    | live =>
      rw [run_burst]
      refine ⟨(hsessions.burst hjobs').pushSettling 2, ?_, h.tokenless, ?_, h.numbered⟩
      · rw [tokens_push]
        exact hpop.symm
      · have hsent := sentQueue_burst (s := { s with jobs })
        change List.Sublist ((Socket.burst { s with jobs }).sentQueue ++ []) s.enqueued
        rw [hsent, append_nil]
        exact h.order
    | notLive =>
      refine h.of_kept ⟨.inr rfl, rfl, rfl, id⟩ ?_ ?_
      · exact (hsessions.of_same s.getWSMeta [] s.drains s.sent s.enqueued).pushSettling 2
      · rw [Socket.run, tokens_push]
        exact hpop.symm
    | thrown =>
      refine h.of_kept ⟨.inl rfl, rfl, rfl, id⟩ (hsessions.pushSettling 2) ?_
      rw [Socket.run, tokens_push]
      exact hpop.symm
  | settling hops =>
    obtain ⟨hd, hjobs'⟩ := h.notDrains_of_pop hjobs rfl
    have hsessions := h.sessions.pop hjobs nofun
    cases hops with
    | succ hops =>
      refine h.of_kept ⟨.inl rfl, rfl, rfl, id⟩ (hsessions.pushSettling hops) ?_
      rw [Socket.run, tokens_push]
      exact hpop.symm
    | zero =>
      have hzero : Socket.tokens { s with jobs } = 0 := by
        rw [if_pos hd] at hpop
        have hone : (if (Job.settling 0).drains then 1 else 0) = 1 := rfl
        omega
      have hstopped : Sessions { s with jobs, drains := false } :=
        hsessions.of_same s.getWSMeta s.queue false s.sent s.enqueued
      rw [Socket.run]
      split_ifs with hqueue
      · exact h.of_kept ⟨.inl rfl, rfl, rfl, id⟩ hstopped hzero
      · refine h.of_kept ⟨.inl rfl, rfl, rfl, id⟩ hstopped.startOutboundSessionDrain ?_
        have hpush := tokens_push (s := { s with jobs }) .start
        rw [hzero] at hpush
        exact hpush

theorem step (h : Inv s) (a : Action) : Inv (step s a) := by
  cases a with
  | safeSendRaw msg => exact h.safeSendRaw msg
  | authenticate userId sessionId =>
    rw [RoomOutbound.step]
    split_ifs
    · exact h
    · refine ⟨h.sessions.of_same _ s.queue s.drains s.sent s.enqueued, h.tokens, fun hm => ?_,
        h.order, h.numbered⟩
      rw [← some.inj hm]
  | message =>
    rw [RoomOutbound.step]
    split
    · rename_i currentMeta hmeta
      split_ifs
      · exact h.ensureLiveSessionAuthority (h.tokenless hmeta) rfl
      · exact h
    · exact h
  | otherSocket key =>
    rw [RoomOutbound.step]
    split
    · exact h
    · exact ⟨h.sessions.ask, h.tokens, h.tokenless, h.order, h.numbered⟩
  | settle check answer =>
    rw [RoomOutbound.step]
    split
    · rename_i key hlookup
      refine ⟨h.sessions.settle hlookup answer, ?_, h.tokenless, h.order, h.numbered⟩
      rw [tokens_settle]
      exact h.tokens
    · exact h
  | close =>
    exact ⟨h.sessions.of_same _ s.queue s.drains s.sent s.enqueued, h.tokens, nofun, h.order,
      h.numbered⟩
  | tick =>
    rw [RoomOutbound.step]
    split
    · rename_i job jobs hjobs
      exact h.tick hjobs
    · exact h

end Inv

/-- Frames of the queue are sent by a drain alone, whose session the authority has called active
since the last burst. -/
def Authorised (s : Socket) (a : Action) : Prop :=
  (step s a).sentQueue ≠ s.sentQueue → a = .tick ∧ ∃ currentMeta jobs,
    s.jobs = .resume currentMeta .live :: jobs ∧ currentMeta.key ∈ s.granted

theorem authorised {s : Socket} (h : Inv s) (a : Action) : Authorised s a := by
  have hunasked : s.answers s.checks = none := h.sessions.unasked le_rfl
  intro hsent
  cases a with
  | safeSendRaw msg =>
    refine absurd ?_ hsent
    have hdirect := (Kept.sendRawUnchecked (s := s) msg).sent
    rw [step, Socket.safeSendRaw]
    split
    · split_ifs
      · exact hdirect
      · rw [Socket.startOutboundSessionDrain]
        split_ifs <;> rfl
    · exact hdirect
  | authenticate userId sessionId =>
    refine absurd ?_ hsent
    rw [step]
    split_ifs <;> rfl
  | message =>
    refine absurd ?_ hsent
    rw [step]
    split
    · rename_i currentMeta hmeta
      split_ifs
      · exact (Kept.ensured (h.tokenless hmeta)
          (ensured ⟨currentMeta, false⟩ (h.tokenless hmeta) hunasked)).sent
      · rfl
    · rfl
  | otherSocket key =>
    refine absurd ?_ hsent
    rw [step]
    split <;> rfl
  | settle check answer =>
    refine absurd ?_ hsent
    rw [step]
    split <;> rfl
  | close => exact absurd rfl hsent
  | tick =>
    refine ⟨rfl, ?_⟩
    cases hjobs : s.jobs with
    | nil =>
      refine absurd ?_ hsent
      rw [step, hjobs]
    | cons job jobs =>
      rw [step, hjobs] at hsent
      change (Socket.run { s with jobs } job).sentQueue ≠ s.sentQueue at hsent
      cases job with
      | start =>
        exact absurd (Kept.loop (s := { s with jobs }) h.tokenless hunasked 3).sent hsent
      | forget key check =>
        refine absurd ?_ hsent
        rw [Socket.run]
        split_ifs <;> rfl
      | answered check waiter =>
        have hmem : Job.answered check waiter ∈ s.jobs := hjobs ▸ mem_cons_self
        exact absurd (Kept.answer (s := { s with jobs }) (h.sessions.answered hmem).1).sent hsent
      | resume currentMeta outcome =>
        cases outcome with
        | live =>
          exact ⟨currentMeta, jobs, rfl, h.sessions.resumed (hjobs ▸ mem_cons_self)⟩
        | notLive => exact absurd rfl hsent
        | thrown => exact absurd rfl hsent
      | settling hops =>
        refine absurd ?_ hsent
        cases hops with
        | succ hops => rfl
        | zero =>
          rw [Socket.run]
          split_ifs
          · rfl
          · rw [Socket.startOutboundSessionDrain]
            split_ifs <;> rfl

end EdgeBase.RoomOutbound
