import EdgeBase.Auth.ReuseDetection

/-!
# Refreshes are linear

Any number of requests present the current token of a session, and each of them takes its turns in
any order.  The token is rotated once.  Whoever presented it is answered with the token that came in
its place, or not at all.

* `State.rotations` : the rotations of a run, one after the other.
-/

namespace EdgeBase

open List Option

namespace Auth

/-! ## Rotations -/

/-- A request has put a new token in the place of the current one. -/
structure Rotation where
  request : ℕ
  sessionId : String
  old : String
  new : String
  deriving DecidableEq

def State.rotation (s : State) : Action → Option Rotation
  | .advance r env =>
    match s.requests.lookup r with
    | some (.swap session _ new _) =>
      if ∃ σ ∈ s.sessions, swaps session env.check σ then
        some ⟨r, session.id, session.refreshToken, new⟩
      else none
    | _ => none
  | _ => none

def State.rotations (s : State) : List Action → List Rotation
  | [] => []
  | a :: actions =>
    (s.rotation a).toList ++ (s.step a).elim [] fun s' => s'.rotations actions

theorem State.run_append (s : State) (actions more : List Action) :
    s.run (actions ++ more) = (s.run actions).bind fun s' => s'.run more := by
  induction actions generalizing s with
  | nil => rfl
  | cons b actions ih =>
    change (s.step b).bind (fun s' => s'.run (actions ++ more)) = ((s.step b).bind _).bind _
    rw [bind_assoc]
    exact congrArg _ (funext fun s' => ih s')

theorem State.run_concat (s : State) (actions : List Action) (a : Action) :
    s.run (actions ++ [a]) = (s.run actions).bind fun s' => s'.step a := by
  rw [s.run_append]
  refine congrArg _ (funext fun s' => ?_)
  change (s'.step a).bind some = s'.step a
  cases s'.step a <;> rfl

theorem State.rotations_append {s s' : State} {actions : List Action}
    (h : s.run actions = some s') (more : List Action) :
    s.rotations (actions ++ more) = s.rotations actions ++ s'.rotations more := by
  induction actions generalizing s with
  | nil =>
    cases h
    rfl
  | cons b actions ih =>
    obtain ⟨s₁, h₁, h⟩ := bind_eq_some_iff.1 h
    change (s.rotation b).toList ++ (s.step b).elim [] _ =
      (s.rotation b).toList ++ (s.step b).elim [] _ ++ _
    rw [h₁, append_assoc]
    exact congrArg _ (ih h)

theorem State.rotations_singleton (s : State) (a : Action) :
    s.rotations [a] = (s.rotation a).toList := by
  change (s.rotation a).toList ++ (s.step a).elim [] (fun _ => []) = _
  cases s.step a <;> simp

/-- In the row of this session one token came in the place of another. -/
def Replaced (rotations : List Rotation) (id old new : String) : Prop :=
  ∃ ρ ∈ rotations, ρ.sessionId = id ∧ ρ.old = old ∧ ρ.new = new

theorem Replaced.append {rotations : List Rotation} {id old new : String}
    (h : Replaced rotations id old new) (more : List Rotation) :
    Replaced (rotations ++ more) id old new := by
  obtain ⟨ρ, hρ, heq⟩ := h
  exact ⟨ρ, mem_append_left _ hρ, heq⟩

/-! ## What a request is about -/

def Presented (past : List Action) (r : ℕ) (token : String) : Prop :=
  ∃ userId, .present r token userId ∈ past

/-- At some moment of a request the token is current in the row of the session. -/
def HeldDuring (past : List Action) (r : ℕ) (id token : String) : Prop :=
  ∃ before after s, past = before ++ after ∧ State.init.run before = some s ∧
    (∃ phase, (r, phase) ∈ s.requests) ∧ ∃ σ ∈ s.sessions, σ.id = id ∧ σ.refreshToken = token

theorem HeldDuring.append {past : List Action} {r : ℕ} {id token : String}
    (h : HeldDuring past r id token) (more : List Action) :
    HeldDuring (past ++ more) r id token := by
  obtain ⟨before, after, s, rfl, h⟩ := h
  exact ⟨before, after ++ more, s, append_assoc .., h⟩

/-- The request looks for the row of this token. -/
def Phase.About (token : String) : Phase → Prop
  | .findCurrent token' _ | .findPrevious token' _ => token' = token
  | .loadUser session _ | .swap session _ _ _ => session.refreshToken = token
  | .findWinnerCurrent session _ | .findWinnerPrevious session _ => session.refreshToken = token
  | _ => True

/-- The request is going to be answered with this token. -/
def Phase.Yields (id token : String) : Phase → Prop
  | .rotated id' token' | .granted id' token' => id' = id ∧ token' = token
  | .loadGraceUser session _ => session.id = id ∧ session.refreshToken = token
  | _ => False

def Phase.Rotates (env : Env) (sessions : List Session) : Phase → Prop
  | .swap session _ _ _ => ∃ σ ∈ sessions, swaps session env.check σ
  | _ => False

section Turns

variable {env : Env} {sessions : List Session} {phase : Phase} {token : String}

theorem Phase.swap_of_rotates (h : phase.Rotates env sessions) :
    ∃ session userId new expiresAt, phase = .swap session userId new expiresAt ∧
      ∃ σ ∈ sessions, swaps session env.check σ := by
  cases phase with
  | swap session userId new expiresAt => exact ⟨session, userId, new, expiresAt, rfl, h⟩
  | _ => exact h.elim

theorem Phase.proceed_swap {session : Session} {userId new : String} {expiresAt : Int}
    (h : ∃ σ ∈ sessions, swaps session env.check σ) :
    (swap session userId new expiresAt).proceed env sessions =
      (sessions.map (rotate session new expiresAt env.now env.check),
        .inl (.rotated session.id new)) := by
  have hswap : compareAndSwapUserSession sessions session new expiresAt env.now env.check =
      some (sessions.map (rotate session new expiresAt env.now env.check)) := if_pos h
  simp only [Phase.proceed, hswap]

theorem Phase.proceed_subset (h : ¬phase.Rotates env sessions) :
    (phase.proceed env sessions).1 ⊆ sessions := by
  rcases phase.proceed_sessions env sessions with he | ⟨_, _, _, _, rfl, hσ, -⟩ | ⟨_, -, he⟩
  · rw [he]
    exact List.Subset.refl _
  · exact absurd hσ h
  · rw [he]
    exact filter_subset_self _

/-- Another turn stays about the token: what it will be answered with is what it had read, or
stands in the row that has the token as its preceding one. -/
theorem Phase.proceed_about (h : ¬phase.Rotates env sessions) (habout : phase.About token)
    {next : Phase} (hnext : (phase.proceed env sessions).2 = .inl next) :
    next.About token ∧ ∀ id t, next.Yields id t → phase.Yields id t ∨
      ∃ σ ∈ sessions, σ.previousRefreshToken = some token ∧ σ.id = id ∧ σ.refreshToken = t := by
  cases phase with
  | findCurrent token' userId =>
    obtain rfl : token' = token := habout
    simp only [Phase.proceed] at hnext
    split at hnext <;> cases hnext
    · next σ hσ => exact ⟨(mem_of_findByCurrent hσ).2.1, fun _ _ h => h.elim⟩
    · exact ⟨rfl, fun _ _ h => h.elim⟩
  | findPrevious token' userId =>
    obtain rfl : token' = token := habout
    simp only [Phase.proceed] at hnext
    split at hnext
    · cases hnext
    · next σ hσ =>
      obtain ⟨hmem, hprevious, -⟩ := mem_of_findByPrevious hσ
      split at hnext <;> cases hnext
      · exact ⟨trivial, fun id t h => .inr ⟨σ, hmem, hprevious, h⟩⟩
      · exact ⟨trivial, fun _ _ h => h.elim⟩
  | loadUser session userId =>
    simp only [Phase.proceed] at hnext
    repeat' split at hnext
    all_goals cases hnext
    exact ⟨habout, fun _ _ h => h.elim⟩
  | swap session userId new expiresAt =>
    have hswap : compareAndSwapUserSession sessions session new expiresAt env.now env.check =
        none := if_neg h
    simp only [Phase.proceed, hswap] at hnext
    cases hnext
    exact ⟨habout, fun _ _ h => h.elim⟩
  | findWinnerCurrent session userId =>
    simp only [Phase.proceed] at hnext
    split at hnext <;> cases hnext
    exact ⟨habout, fun _ _ h => h.elim⟩
  | findWinnerPrevious session userId =>
    obtain rfl : session.refreshToken = token := habout
    simp only [Phase.proceed] at hnext
    split at hnext
    · cases hnext
    · next σ hσ =>
      obtain ⟨hmem, hprevious, -⟩ := mem_of_findByPrevious hσ
      split at hnext <;> cases hnext
      exact ⟨trivial, fun id t h => .inr ⟨σ, hmem, hprevious, h⟩⟩
  | loadGraceUser session userId =>
    simp only [Phase.proceed] at hnext
    split at hnext <;> cases hnext
    exact ⟨trivial, fun id t h => .inl h⟩
  | rotated id new => cases hnext
  | granted id token' => cases hnext
  | revoke id => cases hnext

theorem Phase.yields_of_tokens {id t : String}
    (h : (phase.proceed env sessions).2 = .inr (.tokens id t)) : phase.Yields id t := by
  cases phase with
  | rotated id' new => cases h; exact ⟨rfl, rfl⟩
  | granted id' token' => cases h; exact ⟨rfl, rfl⟩
  | revoke id' => cases h
  | _ =>
    simp only [Phase.proceed, invalidRefreshToken] at h
    repeat' split at h
    all_goals cases h

end Turns

/-! ## All turns -/

/-- The table, the requests and the answers follow from the rotations. -/
structure Linear (past : List Action) (s : State) : Prop where
  sound : s.Sound
  nodup : ((State.init.rotations past).map Rotation.old).Nodup
  spent : ∀ ρ ∈ State.init.rotations past, ρ.old ∈ s.issued ∧
    (∀ σ ∈ s.sessions, σ.refreshToken ≠ ρ.old) ∧ ∀ p ∈ s.requests, ρ.old ∉ p.2.fresh
  replaced : ∀ σ ∈ s.sessions, ∀ token, σ.previousRefreshToken = some token →
    Replaced (State.init.rotations past) σ.id token σ.refreshToken
  used : ∀ r token, Presented past r token →
    (∃ phase, (r, phase) ∈ s.requests) ∨ ∃ a, (r, a) ∈ s.answers
  about : ∀ r token, Presented past r token → ∀ phase, (r, phase) ∈ s.requests →
    phase.About token ∧ ∀ id t, phase.Yields id t →
      Replaced (State.init.rotations past) id token t ∧ HeldDuring past r id t
  answered : ∀ r token, Presented past r token → ∀ id t, (r, .tokens id t) ∈ s.answers →
    Replaced (State.init.rotations past) id token t ∧ HeldDuring past r id t

theorem State.Unused.notMem {s : State} {r : ℕ} (h : s.Unused r) :
    (∀ phase, (r, phase) ∉ s.requests) ∧ ∀ a, (r, a) ∉ s.answers := by
  refine ⟨fun phase hmem => ?_, fun a hmem => ?_⟩
  · simpa using lookup_eq_none_iff.1 h.1 _ hmem
  · simpa using lookup_eq_none_iff.1 h.2 _ hmem

section Turn

variable {s : State} {r r' : ℕ} {env : Env} {phase phase' : Phase}

theorem State.mem_turn_requests (h : (r', phase') ∈ (s.turn r env phase).requests) :
    r' = r ∧ (phase.proceed env s.sessions).2 = .inl phase' ∨
      (r', phase') ∈ s.requests ∧ r' ≠ r := by
  rcases mem_append.1 h with h | h
  · simp only [mem_toList, map_eq_some_iff, Sum.getLeft?_eq_some_iff] at h
    obtain ⟨next, hnext, he⟩ := h
    cases he
    exact .inl ⟨rfl, hnext⟩
  · obtain ⟨hmem, hne⟩ := mem_filter.1 h
    exact .inr ⟨hmem, of_decide_eq_true hne⟩

theorem State.mem_turn_answers {a : Answer} (h : (r', a) ∈ (s.turn r env phase).answers) :
    r' = r ∧ (phase.proceed env s.sessions).2 = .inr a ∨ (r', a) ∈ s.answers := by
  rcases mem_append.1 h with h | h
  · simp only [mem_toList, map_eq_some_iff, Sum.getRight?_eq_some_iff] at h
    obtain ⟨a', ha, he⟩ := h
    cases he
    exact .inl ⟨rfl, ha⟩
  · exact .inr h

theorem State.used_turn (h : (∃ p, (r', p) ∈ s.requests) ∨ ∃ a, (r', a) ∈ s.answers) :
    (∃ p, (r', p) ∈ (s.turn r env phase).requests) ∨
      ∃ a, (r', a) ∈ (s.turn r env phase).answers := by
  rcases h with ⟨p, hp⟩ | ⟨a, ha⟩
  · by_cases hr : r' = r
    · subst hr
      cases hnext : (phase.proceed env s.sessions).2 with
      | inl next =>
        refine .inl ⟨next, mem_append_left _ ?_⟩
        simp [hnext]
      | inr a =>
        refine .inr ⟨a, mem_append_left _ ?_⟩
        simp [hnext]
    · exact .inl ⟨p, mem_append_right _ (mem_filter.2 ⟨hp, decide_eq_true hr⟩)⟩
  · exact .inr ⟨a, mem_append_right _ ha⟩

theorem State.rotation_advance (h : s.requests.lookup r = some phase) :
    (¬phase.Rotates env s.sessions → s.rotation (.advance r env) = none) ∧
      ∀ session userId new expiresAt, phase = .swap session userId new expiresAt →
        (∃ σ ∈ s.sessions, swaps session env.check σ) →
        s.rotation (.advance r env) = some ⟨r, session.id, session.refreshToken, new⟩ := by
  unfold State.rotation
  dsimp only
  rw [h]
  refine ⟨fun hnot => ?_, ?_⟩
  · cases phase with
    | swap session userId new expiresAt => exact if_neg hnot
    | _ => rfl
  · rintro session userId new expiresAt rfl hσ
    exact if_pos hσ

end Turn

theorem Presented.concat {past : List Action} {a : Action} {r : ℕ} {token : String}
    (h : Presented (past ++ [a]) r token) :
    Presented past r token ∨ ∃ userId, a = .present r token userId := by
  obtain ⟨userId, h⟩ := h
  rcases mem_append.1 h with h | h
  · exact .inl ⟨userId, h⟩
  · exact .inr ⟨userId, (mem_singleton.1 h).symm⟩

namespace Linear

variable {past : List Action} {s s' : State}

theorem init : Linear [] State.init where
  sound := .init
  nodup := nodup_nil
  spent := forall_mem_nil _
  replaced := forall_mem_nil _
  used := by
    rintro r token ⟨userId, h⟩
    cases h
  about := by
    rintro r token ⟨userId, h⟩
    cases h
  answered := by
    rintro r token ⟨userId, h⟩
    cases h

theorem rotations_of_none (hrun : State.init.run past = some s) {a : Action}
    (h : s.rotation a = none) : State.init.rotations (past ++ [a]) = State.init.rotations past := by
  rw [State.rotations_append hrun, State.rotations_singleton, h, toList_none,
    append_nil]

variable (h : Linear past s)
include h

variable (hrun : State.init.run past = some s)
include hrun

theorem present {r : ℕ} {token userId : String} (hs' : s.step (.present r token userId) = some s') :
    Linear (past ++ [.present r token userId]) s' := by
  have hsound := h.sound.step hs'
  have hrotations := rotations_of_none hrun (a := .present r token userId) rfl
  simp only [State.step] at hs'
  split at hs' <;> cases hs'
  next hunused =>
  obtain ⟨hwaiting, hanswered⟩ := hunused.notMem
  -- no request had this number
  have hfirst : ∀ token, ¬Presented past r token := by
    intro token hpresented
    rcases h.used r token hpresented with ⟨phase, hmem⟩ | ⟨a, hmem⟩
    · exact hwaiting phase hmem
    · exact hanswered a hmem
  have hmem {r' : ℕ} {phase : Phase}
      (hmem : (r', phase) ∈ s.resume r (some (.findCurrent token userId))) :
      r' = r ∧ phase = .findCurrent token userId ∨ (r', phase) ∈ s.requests ∧ r' ≠ r := by
    rcases mem_cons.1 hmem with he | hmem
    · cases he
      exact .inl ⟨rfl, rfl⟩
    · obtain ⟨hmem, hne⟩ := mem_filter.1 hmem
      exact .inr ⟨hmem, of_decide_eq_true hne⟩
  refine ⟨hsound, ?_, ?_, ?_, ?_, ?_, ?_⟩
  · rw [hrotations]
    exact h.nodup
  · rw [hrotations]
    intro ρ hρ
    obtain ⟨hissued, hrows, hfresh⟩ := h.spent ρ hρ
    refine ⟨hissued, hrows, fun p hp => ?_⟩
    rcases hmem hp with ⟨-, hphase⟩ | ⟨hp, -⟩
    · rw [hphase]
      exact not_mem_nil
    · exact hfresh p hp
  · rw [hrotations]
    exact h.replaced
  · intro r' token' hpresented
    rcases hpresented.concat with hpresented | ⟨userId', he⟩
    · rcases h.used r' token' hpresented with ⟨phase, hphase⟩ | hans
      · refine .inl ⟨phase, mem_cons_of_mem _ (mem_filter.2 ⟨hphase, ?_⟩)⟩
        refine decide_eq_true fun hr => ?_
        exact hwaiting phase (hr ▸ hphase)
      · exact .inr hans
    · cases he
      exact .inl ⟨_, mem_cons_self⟩
  · rw [hrotations]
    intro r' token' hpresented phase hphase
    rcases hmem hphase with ⟨rfl, rfl⟩ | ⟨hphase, hne⟩
    · rcases hpresented.concat with hpresented | ⟨userId', he⟩
      · exact absurd hpresented (hfirst _)
      · cases he
        exact ⟨rfl, fun _ _ h => h.elim⟩
    · rcases hpresented.concat with hpresented | ⟨userId', he⟩
      · obtain ⟨habout, hyields⟩ := h.about r' token' hpresented phase hphase
        exact ⟨habout, fun id t hy => (hyields id t hy).imp_right (·.append _)⟩
      · cases he
        exact absurd rfl hne
  · rw [hrotations]
    intro r' token' hpresented id t hans
    rcases hpresented.concat with hpresented | ⟨userId', he⟩
    · exact (h.answered r' token' hpresented id t hans).imp_right (·.append _)
    · cases he
      exact absurd hans (hanswered _)

theorem other {a : Action} (hstep : s.step a = some s') (hnone : s.rotation a = none)
    (hpresents : ∀ r token userId, a ≠ .present r token userId)
    (hissued : s.issued ⊆ s'.issued) (hrequests : s'.requests = s.requests)
    (hanswers : ∀ r answer, (r, answer) ∈ s.answers → (r, answer) ∈ s'.answers)
    (hanswered : ∀ r id t, (r, .tokens id t) ∈ s'.answers → (r, .tokens id t) ∈ s.answers)
    (hrows : ∀ σ ∈ s'.sessions, σ ∈ s.sessions ∨
      σ.previousRefreshToken = none ∧ σ.refreshToken ∉ s.issued) : Linear (past ++ [a]) s' := by
  have hrotations := rotations_of_none hrun hnone
  have hold {r : ℕ} {token : String} (hp : Presented (past ++ [a]) r token) :
      Presented past r token := by
    rcases hp.concat with hp | ⟨userId, he⟩
    · exact hp
    · exact absurd he (hpresents r token userId)
  refine ⟨h.sound.step hstep, ?_, ?_, ?_, ?_, ?_, ?_⟩
  · rw [hrotations]
    exact h.nodup
  · rw [hrotations, hrequests]
    intro ρ hρ
    obtain ⟨hmem, hcurrent, hfresh⟩ := h.spent ρ hρ
    refine ⟨hissued hmem, fun σ hσ => ?_, hfresh⟩
    rcases hrows σ hσ with hσ | ⟨-, hnew⟩
    · exact hcurrent σ hσ
    · exact fun heq => hnew (heq ▸ hmem)
  · rw [hrotations]
    intro σ hσ token hprevious
    rcases hrows σ hσ with hσ | ⟨hnone, -⟩
    · exact h.replaced σ hσ token hprevious
    · rw [hnone] at hprevious
      cases hprevious
  · intro r token hpresented
    rw [hrequests]
    refine (h.used r token (hold hpresented)).imp_right ?_
    exact fun ⟨answer, hmem⟩ => ⟨answer, hanswers r answer hmem⟩
  · rw [hrotations, hrequests]
    intro r token hpresented phase hphase
    obtain ⟨habout, hyields⟩ := h.about r token (hold hpresented) phase hphase
    exact ⟨habout, fun id t hy => (hyields id t hy).imp_right (·.append _)⟩
  · rw [hrotations]
    intro r token hpresented id t hans
    exact (h.answered r token (hold hpresented) id t (hanswered r id t hans)).imp_right
      (·.append _)

theorem turn {r : ℕ} {env : Env} {phase : Phase} (hr : s.requests.lookup r = some phase)
    (hnew : env.newRefreshToken ∉ s.issued) (hnot : ¬phase.Rotates env s.sessions) :
    Linear (past ++ [.advance r env]) (s.turn r env phase) := by
  have hmem := Assoc.mem_of_lookup hr
  have hrotations := rotations_of_none hrun ((State.rotation_advance hr).1 hnot)
  have hsubset := Phase.proceed_subset hnot
  have hold {r' : ℕ} {token : String} (hp : Presented (past ++ [.advance r env]) r' token) :
      Presented past r' token := by
    rcases hp.concat with hp | ⟨userId, he⟩
    · exact hp
    · cases he
  -- a row that is read is there while the request waits
  have hheld {σ : Session} (hσ : σ ∈ s.sessions) :
      HeldDuring past r σ.id σ.refreshToken :=
    ⟨past, [], s, (append_nil _).symm, hrun, ⟨phase, hmem⟩, σ, hσ, rfl, rfl⟩
  refine ⟨h.sound.turn hmem hnew, ?_, ?_, ?_, ?_, ?_, ?_⟩
  · rw [hrotations]
    exact h.nodup
  · rw [hrotations]
    intro ρ hρ
    obtain ⟨hissued, hrows, hfresh⟩ := h.spent ρ hρ
    refine ⟨mem_cons_of_mem _ hissued, fun σ hσ => hrows σ (hsubset hσ), ?_⟩
    rintro ⟨r', next⟩ hp
    rcases State.mem_turn_requests hp with ⟨rfl, hnext⟩ | ⟨hp, -⟩
    · intro hold
      rw [mem_singleton.1 ((Phase.proceed_next hnext).1 hold)] at hissued
      exact hnew hissued
    · exact hfresh _ hp
  · rw [hrotations]
    exact fun σ hσ => h.replaced σ (hsubset hσ)
  · exact fun r' token hpresented => State.used_turn (h.used r' token (hold hpresented))
  · rw [hrotations]
    intro r' token hpresented phase' hphase'
    rcases State.mem_turn_requests hphase' with ⟨rfl, hnext⟩ | ⟨hphase', -⟩
    · obtain ⟨habout, hyields⟩ := h.about r' token (hold hpresented) phase hmem
      obtain ⟨habout', hnext⟩ := Phase.proceed_about hnot habout hnext
      refine ⟨habout', fun id t hy => ?_⟩
      rcases hnext id t hy with hy | ⟨σ, hσ, hprevious, rfl, rfl⟩
      · exact (hyields id t hy).imp_right (·.append _)
      · exact ⟨h.replaced σ hσ token hprevious, (hheld hσ).append _⟩
    · obtain ⟨habout, hyields⟩ := h.about r' token (hold hpresented) phase' hphase'
      exact ⟨habout, fun id t hy => (hyields id t hy).imp_right (·.append _)⟩
  · rw [hrotations]
    intro r' token hpresented id t hans
    rcases State.mem_turn_answers hans with ⟨rfl, hproceed⟩ | hans
    · have hyields := (h.about r' token (hold hpresented) phase hmem).2 id t
      exact (hyields (Phase.yields_of_tokens hproceed)).imp_right (·.append _)
    · exact (h.answered r' token (hold hpresented) id t hans).imp_right (·.append _)

theorem rotates {r : ℕ} {env : Env} {session : Session} {userId new : String} {expiresAt : Int}
    (hr : s.requests.lookup r = some (.swap session userId new expiresAt))
    (hnew : env.newRefreshToken ∉ s.issued) (hσ : ∃ σ ∈ s.sessions, swaps session env.check σ) :
    Linear (past ++ [.advance r env]) (s.turn r env (.swap session userId new expiresAt)) := by
  have hmem := Assoc.mem_of_lookup hr
  have hstep : s.step (.advance r env) =
      some (s.turn r env (.swap session userId new expiresAt)) := by
    simp only [State.step]
    rw [if_neg hnew, hr, map_some]
  have hrun' : State.init.run (past ++ [.advance r env]) =
      some (s.turn r env (.swap session userId new expiresAt)) := by
    rw [State.run_concat, hrun, bind_some, hstep]
  have hrotations := State.rotations_append hrun [.advance r env]
  rw [State.rotations_singleton, (State.rotation_advance hr).2 _ _ _ _ rfl hσ,
    toList_some] at hrotations
  have hproceed : Phase.proceed env s.sessions (.swap session userId new expiresAt) = _ :=
    Phase.proceed_swap hσ
  obtain ⟨σ₀, hσ₀, hswaps⟩ := hσ
  obtain ⟨-, hwaits, hdisjoint⟩ := h.sound.waiting _ hmem
  have hcurrent : session.refreshToken ∈ σ₀.tokens := by simp [Session.tokens, hswaps.2.1]
  have hold {r' : ℕ} {token : String} (hp : Presented (past ++ [.advance r env]) r' token) :
      Presented past r' token := by
    rcases hp.concat with hp | ⟨userId, he⟩
    · exact hp
    · cases he
  have hsessions {σ : Session}
      (hσ : σ ∈ (s.turn r env (.swap session userId new expiresAt)).sessions) :
      ∃ τ ∈ s.sessions, σ = rotate session new expiresAt env.now env.check τ := by
    have hσ' : σ ∈ (Phase.proceed env s.sessions (.swap session userId new expiresAt)).1 := hσ
    rw [hproceed] at hσ'
    obtain ⟨τ, hτ, he⟩ := List.mem_map.1 hσ'
    exact ⟨τ, hτ, he.symm⟩
  have hnever : ∀ σ ∈ s.sessions, new ∉ σ.tokens := fun σ hσ =>
    singleton_disjoint.1 (hdisjoint σ hσ)
  refine ⟨h.sound.turn hmem hnew, ?_, ?_, ?_, ?_, ?_, ?_⟩
  · rw [hrotations, map_append]
    refine nodup_append.2 ⟨h.nodup, pairwise_singleton _ _, ?_⟩
    intro old hmap old' hold'
    obtain ⟨ρ, hρ, rfl⟩ := List.mem_map.1 hmap
    obtain rfl := mem_singleton.1 hold'
    intro heq
    exact (h.spent ρ hρ).2.1 σ₀ hσ₀ (hswaps.2.1.trans heq.symm)
  · rw [hrotations]
    intro ρ hρ
    rcases mem_append.1 hρ with hρ | hρ
    · obtain ⟨hissued, hrows, hfresh⟩ := h.spent ρ hρ
      refine ⟨mem_cons_of_mem _ hissued, fun σ hσ => ?_, ?_⟩
      · obtain ⟨τ, hτ, rfl⟩ := hsessions hσ
        unfold rotate
        split
        · exact fun heq => hfresh _ hmem (mem_singleton.2 heq.symm)
        · exact hrows τ hτ
      · rintro ⟨r', next⟩ hp
        rcases State.mem_turn_requests hp with ⟨rfl, hnext⟩ | ⟨hp, -⟩
        · rw [hproceed] at hnext
          cases hnext
          exact not_mem_nil
        · exact hfresh _ hp
    · obtain rfl := mem_singleton.1 hρ
      refine ⟨mem_cons_of_mem _ ((h.sound.rows σ₀ hσ₀).2.2 hcurrent), fun σ hσ => ?_, ?_⟩
      · obtain ⟨τ, hτ, rfl⟩ := hsessions hσ
        unfold rotate
        split
        · intro heq
          have heq' : new = session.refreshToken := heq
          exact hnever σ₀ hσ₀ (heq' ▸ hcurrent)
        · next hnot =>
          -- no other row has the token that was current in this one
          intro heq
          have heq' : τ.refreshToken = session.refreshToken := heq
          have htokens : session.refreshToken ∈ τ.tokens := by simp [Session.tokens, heq']
          rw [Session.Apart.eq_of_mem h.sound.apart hτ hσ₀ htokens hcurrent] at hnot
          exact hnot hswaps
      · rintro ⟨r', next⟩ hp
        rcases State.mem_turn_requests hp with ⟨rfl, hnext⟩ | ⟨hp, -⟩
        · rw [hproceed] at hnext
          cases hnext
          exact not_mem_nil
        · exact fun hfresh => (h.sound.waiting _ hp).2.2 σ₀ hσ₀ hfresh hcurrent
  · rw [hrotations]
    intro σ hσ token hprevious
    obtain ⟨τ, hτ, rfl⟩ := hsessions hσ
    rw [rotate_id]
    unfold rotate at hprevious ⊢
    split at hprevious
    · next hτswaps =>
      rw [if_pos hτswaps, ← some.inj hprevious, hτswaps.1]
      exact ⟨_, mem_append_right _ (mem_singleton_self _), rfl, rfl, rfl⟩
    · next hnot =>
      rw [if_neg hnot]
      exact (h.replaced τ hτ token hprevious).append _
  · exact fun r' token hpresented => State.used_turn (h.used r' token (hold hpresented))
  · rw [hrotations]
    intro r' token hpresented phase' hphase'
    rcases State.mem_turn_requests hphase' with ⟨rfl, hnext⟩ | ⟨hphase, -⟩
    · obtain ⟨habout, -⟩ := h.about r' token (hold hpresented) _ hmem
      rw [hproceed] at hnext
      cases hnext
      refine ⟨trivial, ?_⟩
      rintro id t ⟨rfl, rfl⟩
      refine ⟨⟨_, mem_append_right _ (mem_singleton_self _), rfl, habout, rfl⟩, ?_⟩
      refine ⟨_, [], _, (append_nil _).symm, hrun', ⟨_, hphase'⟩,
        rotate session new expiresAt env.now env.check σ₀, ?_, ?_, ?_⟩
      · change _ ∈ (Phase.proceed env s.sessions (.swap session userId new expiresAt)).1
        rw [hproceed]
        exact List.mem_map_of_mem hσ₀
      · rw [rotate_id]
        exact hswaps.1
      · rw [rotate, if_pos hswaps]
    · obtain ⟨habout, hyields⟩ := h.about r' token (hold hpresented) phase' hphase
      exact ⟨habout, fun id t hy =>
        (hyields id t hy).imp (·.append _) (·.append _)⟩
  · rw [hrotations]
    intro r' token hpresented id t hans
    rcases State.mem_turn_answers hans with ⟨rfl, hnext⟩ | hans
    · rw [hproceed] at hnext
      cases hnext
    · exact (h.answered r' token (hold hpresented) id t hans).imp (·.append _) (·.append _)

omit hrun

omit h

protected theorem step (h : Linear past s) (hrun : State.init.run past = some s) {a : Action}
    (hs' : s.step a = some s') : Linear (past ++ [a]) s' := by
  cases a with
  | present r token userId => exact h.present hrun hs'
  | refuse r status code =>
    have hstep := hs'
    simp only [State.step] at hstep
    split at hstep <;> cases hstep
    refine h.other hrun hs' rfl (fun _ _ _ heq => by cases heq) (List.Subset.refl _) rfl ?_ ?_ fun σ hσ => .inl hσ
    · exact fun r' answer hmem => mem_cons_of_mem _ hmem
    · intro r' id t hmem
      rcases mem_cons.1 hmem with he | hmem
      · cases he
      · exact hmem
  | advance r env =>
    simp only [State.step] at hs'
    split at hs'
    · cases hs'
    · next hnew =>
      obtain ⟨phase, hr, rfl⟩ := map_eq_some_iff.1 hs'
      by_cases hrotates : phase.Rotates env s.sessions
      · obtain ⟨session, userId, new, expiresAt, rfl, hσ⟩ := Phase.swap_of_rotates hrotates
        exact h.rotates hrun hr hnew hσ
      · exact h.turn hrun hr hnew hrotates
  | signIn session =>
    have hstep := hs'
    simp only [State.step] at hstep
    split at hstep
    · cases hstep
    · next hno =>
      cases hstep
      simp only [not_or, not_not] at hno
      refine h.other hrun hs' rfl (fun _ _ _ heq => by cases heq) (subset_cons_self _ _) rfl (fun _ _ h => h)
        (fun _ _ _ h => h) fun σ hσ => ?_
      rcases mem_cons.1 hσ with rfl | hσ
      · exact .inr ⟨hno.2.2, hno.2.1⟩
      · exact .inl hσ
  | signOut id =>
    have hstep := hs'
    cases hstep
    exact h.other hrun hs' rfl (fun _ _ _ heq => by cases heq) (List.Subset.refl _) rfl (fun _ _ h => h)
      (fun _ _ _ h => h) fun σ hσ => .inl (mem_of_mem_filter hσ)

theorem run {actions : List Action} (h : State.init.run actions = some s) : Linear actions s := by
  induction actions using List.reverseRecOn generalizing s with
  | nil =>
    cases h
    exact init
  | append_singleton actions a ih =>
    rw [State.run_concat] at h
    obtain ⟨s₁, h₁, h⟩ := bind_eq_some_iff.1 h
    exact (ih h₁).step h₁ h

end Linear

/-! ## A token that is still to be rotated -/

/-- The request finds the user of this session, and does not close it. -/
def Phase.Undisturbed (id : String) (env : Env) : Phase → Prop
  | .loadUser session _ => session.id = id → env.user = some { disabled := false }
  | .revoke id' => id' ≠ id
  | _ => True

instance (id : String) (env : Env) : DecidablePred (Phase.Undisturbed id env) := fun phase => by
  cases phase <;> unfold Phase.Undisturbed <;> infer_instance

/-- The session has not expired, its user is there, and nothing closes it. -/
def Undisturbed (id : String) (s : State) : Action → Prop
  | .advance r env => (∀ phase ∈ s.requests.lookup r, phase.Undisturbed id env) ∧
    ∀ σ ∈ s.sessions, σ.id = id → env.check < σ.expiresAt
  | .signOut id' => id' ≠ id
  | _ => True

instance (id : String) (s : State) : DecidablePred (Undisturbed id s) := fun a => by
  cases a <;> unfold Undisturbed <;> infer_instance

/-- Every action of a run leaves the session undisturbed. -/
def StaysUndisturbed (id : String) : List Action → State → Prop
  | [], _ => True
  | a :: actions, s => Undisturbed id s a ∧ ∀ s' ∈ s.step a, StaysUndisturbed id actions s'

instance decidableStaysUndisturbed (id : String) :
    ∀ actions, DecidablePred (StaysUndisturbed id actions)
  | [], _ => inferInstanceAs (Decidable True)
  | a :: actions, s =>
    have := decidableStaysUndisturbed id actions
    inferInstanceAs (Decidable (Undisturbed id s a ∧ ∀ s' ∈ s.step a, _))

/-- The token is current in the row of this session. -/
def Current (s : State) (id token userId : String) : Prop :=
  ∃ σ ∈ s.sessions, σ.id = id ∧ σ.refreshToken = token ∧ σ.userId = userId

/-- A request that has presented a token and not tried to rotate it. -/
def Phase.Early (id token userId : String) : Phase → Prop
  | .findCurrent token' userId' => token' = token ∧ userId' = userId
  | .loadUser session _ | .swap session _ _ _ => session.id = id ∧ session.refreshToken = token
  | _ => False

/-- Nobody has rotated the token, and this request is going to. -/
structure Unrotated (r : ℕ) (id token userId : String) (s : State) : Prop where
  current : Current s id token userId
  waits : ∃ phase, s.requests.lookup r = some phase ∧ phase.Early id token userId
  unanswered : ∀ a, (r, a) ∉ s.answers

theorem State.lookup_resume {s : State} {r r' : ℕ} (h : r' ≠ r) (phase : Option Phase) :
    (s.resume r phase).lookup r' = s.requests.lookup r' := by
  have hbeq : (r' == r) = false := beq_eq_false_iff_ne.2 h
  have hfilter : (s.requests.filter fun p => p.1 ≠ r).lookup r' = s.requests.lookup r' := by
    have hrestrict := Assoc.lookup_restrict (fun k => decide (k ≠ r)) s.requests r'
    rwa [if_pos (decide_eq_true h)] at hrestrict
  unfold State.resume
  cases phase with
  | none => exact hfilter
  | some phase =>
    change List.lookup r' ((r, phase) :: _) = _
    rw [lookup_cons, hbeq]
    exact hfilter

namespace Unrotated

variable {s s' : State} {r : ℕ} {id token userId : String}

variable (h : Unrotated r id token userId s)
include h

theorem mono (hsessions : ∀ σ ∈ s.sessions, σ.id = id → σ.refreshToken = token → σ ∈ s'.sessions)
    (hrequests : s'.requests.lookup r = s.requests.lookup r)
    (hanswers : ∀ a, (r, a) ∈ s'.answers → (r, a) ∈ s.answers) :
    Unrotated r id token userId s' := by
  obtain ⟨⟨σ, hσ, hid, hcurrent, huser⟩, hwaits, hunanswered⟩ := h
  exact ⟨⟨σ, hsessions σ hσ hid hcurrent, hid, hcurrent, huser⟩, by rwa [hrequests],
    fun a ha => hunanswered a (hanswers a ha)⟩

theorem own (hs : s.Sound) {env : Env} {phase : Phase}
    (hr : s.requests.lookup r = some phase) (hundisturbed : Undisturbed id s (.advance r env)) :
    Unrotated r id token userId (s.turn r env phase) ∨
      ∃ ρ, s.rotation (.advance r env) = some ρ ∧ ρ.sessionId = id ∧ ρ.old = token := by
  obtain ⟨hphase, hunexpired⟩ := hundisturbed
  obtain ⟨⟨σ, hσ, hid, hcurrent, huserId⟩, ⟨phase', hr', hearly⟩, hunanswered⟩ := h
  rw [hr] at hr'
  cases hr'
  -- a turn to another phase without a rotation
  have hgo (next : Phase) (hproceed : phase.proceed env s.sessions = (s.sessions, .inl next))
      (hnext : next.Early id token userId) :
      Unrotated r id token userId (s.turn r env phase) := by
    refine ⟨⟨σ, ?_, hid, hcurrent, huserId⟩, ⟨next, ?_, hnext⟩, fun a ha => ?_⟩
    · change σ ∈ (phase.proceed env s.sessions).1
      rw [hproceed]
      exact hσ
    · change (s.resume r (phase.proceed env s.sessions).2.getLeft?).lookup r = _
      rw [hproceed]
      simp [State.resume]
    · rcases State.mem_turn_answers ha with ⟨-, ha⟩ | ha
      · rw [hproceed] at ha
        cases ha
      · exact hunanswered a ha
  cases phase with
  | findCurrent token' userId' =>
    obtain ⟨rfl, rfl⟩ : token' = token ∧ userId' = userId := hearly
    have hfind : findByCurrent s.sessions token' userId' = some σ := by
      cases hfound : findByCurrent s.sessions token' userId' with
      | none =>
        have hno := List.find?_eq_none.1 hfound σ hσ
        simp [hcurrent, huserId] at hno
      | some τ =>
        obtain ⟨hτ, hτcurrent, -⟩ := mem_of_findByCurrent hfound
        have hmem {υ : Session} (hυ : υ.refreshToken = token') : token' ∈ υ.tokens := by
          simp [Session.tokens, hυ]
        rw [Session.Apart.eq_of_mem hs.apart hσ hτ (hmem hcurrent) (hmem hτcurrent)]
    refine .inl (hgo (.loadUser σ userId') ?_ ⟨hid, hcurrent⟩)
    simp only [Phase.proceed, hfind]
  | loadUser session userId' =>
    obtain ⟨hsession, htoken⟩ : session.id = id ∧ session.refreshToken = token := hearly
    refine .inl (hgo (.swap session userId' env.newRefreshToken env.expiresAt) ?_
      ⟨hsession, htoken⟩)
    have huser : env.user = some { disabled := false } := hphase _ hr hsession
    simp only [Phase.proceed, huser]
    rfl
  | swap session userId' new expiresAt =>
    obtain ⟨hsession, htoken⟩ : session.id = id ∧ session.refreshToken = token := hearly
    have hswaps : ∃ σ ∈ s.sessions, swaps session env.check σ :=
      ⟨σ, hσ, hid.trans hsession.symm, hcurrent.trans htoken.symm, hunexpired σ hσ hid⟩
    exact .inr ⟨_, (State.rotation_advance hr).2 _ _ _ _ rfl hswaps, hsession, htoken⟩
  | _ => exact hearly.elim

theorem another {r' : ℕ} {env : Env} {phase : Phase}
    (hne : r ≠ r') (hr : s.requests.lookup r' = some phase)
    (hundisturbed : Undisturbed id s (.advance r' env)) :
    Unrotated r id token userId (s.turn r' env phase) ∨
      ∃ ρ, s.rotation (.advance r' env) = some ρ ∧ ρ.sessionId = id ∧ ρ.old = token := by
  have hmono (hsessions : ∀ σ ∈ s.sessions, σ.id = id → σ.refreshToken = token →
      σ ∈ (phase.proceed env s.sessions).1) :
      Unrotated r id token userId (s.turn r' env phase) := by
    refine h.mono hsessions (State.lookup_resume hne _) fun a ha => ?_
    exact (State.mem_turn_answers ha).resolve_left fun heq => hne heq.1
  rcases phase.proceed_sessions env s.sessions with
    he | ⟨session, userId', new, expiresAt, rfl, hσ, he⟩ | ⟨id', rfl, he⟩
  · refine .inl (hmono fun σ hσ _ _ => ?_)
    rwa [he]
  · by_cases hsame : session.id = id ∧ session.refreshToken = token
    · exact .inr ⟨_, (State.rotation_advance hr).2 _ _ _ _ rfl hσ, hsame⟩
    · refine .inl (hmono fun σ hσ hid hcurrent => ?_)
      rw [he]
      refine List.mem_map.2 ⟨σ, hσ, if_neg fun hswaps => hsame ?_⟩
      exact ⟨hswaps.1.symm.trans hid, hswaps.2.1.symm.trans hcurrent⟩
  · refine .inl (hmono fun σ hσ hid _ => ?_)
    rw [he]
    refine mem_filter.2 ⟨hσ, decide_eq_true ?_⟩
    rintro rfl
    exact hundisturbed.1 _ hr hid

omit h

protected theorem step (h : Unrotated r id token userId s) (hs : s.Sound) {a : Action}
    (hstep : s.step a = some s') (hundisturbed : Undisturbed id s a) :
    Unrotated r id token userId s' ∨
      ∃ ρ, s.rotation a = some ρ ∧ ρ.sessionId = id ∧ ρ.old = token := by
  obtain ⟨phase, hr, -⟩ := h.waits
  have hne {r' : ℕ} (hunused : s.Unused r') : r ≠ r' := by
    rintro rfl
    rw [hunused.1] at hr
    cases hr
  cases a with
  | present r' token' userId' =>
    simp only [State.step] at hstep
    split at hstep <;> cases hstep
    next hunused =>
    exact .inl (h.mono (fun σ hσ _ _ => hσ) (State.lookup_resume (hne hunused) _) fun _ h => h)
  | refuse r' status code =>
    simp only [State.step] at hstep
    split at hstep <;> cases hstep
    next hunused =>
    refine .inl (h.mono (fun σ hσ _ _ => hσ) rfl fun a ha => ?_)
    rcases mem_cons.1 ha with he | ha
    · exact absurd (Prod.mk.inj he).1 (hne hunused)
    · exact ha
  | advance r' env =>
    simp only [State.step] at hstep
    split at hstep
    · cases hstep
    · obtain ⟨phase', hr', rfl⟩ := map_eq_some_iff.1 hstep
      by_cases heq : r = r'
      · subst heq
        exact h.own hs hr' hundisturbed
      · exact h.another heq hr' hundisturbed
  | signIn session =>
    simp only [State.step] at hstep
    split at hstep <;> cases hstep
    exact .inl (h.mono (fun σ hσ _ _ => mem_cons_of_mem _ hσ) rfl fun _ h => h)
  | signOut id' =>
    cases hstep
    refine .inl (h.mono (fun σ hσ hid _ => ?_) rfl fun _ h => h)
    refine mem_filter.2 ⟨hσ, decide_eq_true ?_⟩
    rintro rfl
    exact hundisturbed hid

theorem run {actions : List Action} (h : Unrotated r id token userId s) (hs : s.Sound)
    (hrun : s.run actions = some s') (hundisturbed : StaysUndisturbed id actions s) :
    Unrotated r id token userId s' ∨
      ∃ ρ ∈ s.rotations actions, ρ.sessionId = id ∧ ρ.old = token := by
  induction actions generalizing s with
  | nil =>
    cases hrun
    exact .inl h
  | cons a actions ih =>
    obtain ⟨s₁, h₁, hrun⟩ := bind_eq_some_iff.1 hrun
    obtain ⟨ha, hactions⟩ := hundisturbed
    have hsome : s.rotations (a :: actions) = (s.rotation a).toList ++ s₁.rotations actions := by
      change _ ++ (s.step a).elim [] _ = _
      rw [h₁]
      rfl
    rw [hsome]
    rcases h.step hs h₁ ha with h | ⟨ρ, hρ, heq⟩
    · rcases ih h (hs.step h₁) hrun (hactions s₁ h₁) with h | ⟨ρ, hρ, heq⟩
      · exact .inl h
      · exact .inr ⟨ρ, mem_append_right _ hρ, heq⟩
    · refine .inr ⟨ρ, mem_append_left _ ?_, heq⟩
      rw [hρ]
      exact mem_singleton_self ρ

end Unrotated

/-! ## Every run -/

/-- However the requests take their turns: no token is rotated twice; a request is answered with the
token that came in the place of the one it presented, and this token was current while it waited;
and a token that was current when it was presented is rotated before the request is answered, if the
session is not disturbed. -/
theorem refreshes_linear {actions : List Action} {s : State}
    (hrun : State.init.run actions = some s) :
    ((State.init.rotations actions).map Rotation.old).Nodup ∧
    (∀ r token id t, Presented actions r token → (r, .tokens id t) ∈ s.answers →
      Replaced (State.init.rotations actions) id token t ∧ HeldDuring actions r id t) ∧
    ∀ past future s₁ r id token userId a, actions = past ++ .present r token userId :: future →
      State.init.run past = some s₁ → Current s₁ id token userId →
      StaysUndisturbed id (.present r token userId :: future) s₁ → (r, a) ∈ s.answers →
      ∃ ρ ∈ State.init.rotations actions, ρ.sessionId = id ∧ ρ.old = token := by
  have hlinear := Linear.run hrun
  refine ⟨hlinear.nodup, fun r token id t hpresented hans => ?_, ?_⟩
  · exact hlinear.answered r token hpresented id t hans
  · rintro past future s₁ r id token userId a rfl hpast hcurrent hundisturbed hans
    rw [State.rotations_append hpast]
    rw [State.run_append, hpast, bind_some] at hrun
    obtain ⟨s₂, h₂, hrun⟩ := bind_eq_some_iff.1 hrun
    have hsound : s₁.Sound := State.Sound.init.run hpast
    have hunrotated : Unrotated r id token userId s₂ := by
      have hstep := h₂
      simp only [State.step] at hstep
      split at hstep <;> cases hstep
      next hunused =>
      refine ⟨hcurrent, ⟨.findCurrent token userId, ?_, rfl, rfl⟩, hunused.notMem.2⟩
      simp [State.resume]
    have hsome : s₁.rotations (.present r token userId :: future) = s₂.rotations future := by
      change _ ++ (s₁.step _).elim [] _ = _
      rw [h₂]
      rfl
    rw [hsome]
    rcases hunrotated.run (hsound.step h₂) hrun (hundisturbed.2 s₂ h₂) with h | ⟨ρ, hρ, heq⟩
    · exact absurd hans (h.unanswered a)
    · exact ⟨ρ, mem_append_right _ hρ, heq⟩

/-! ### Two requests at once -/

/-- A session is opened, and two requests present its token; the first rotates it, and the second
finds that out. -/
def racingRun : List Action :=
  [.signIn { id := "s", userId := "u", refreshToken := "t0", expiresAt := 1000000 },
    .present 0 "t0" "u", .present 1 "t0" "u", .advance 0 (envAt 0 "a"), .advance 1 (envAt 0 "b"),
    .advance 0 (envAt 0 "t1"), .advance 1 (envAt 0 "t2"), .advance 0 (envAt 0 "c"),
    .advance 1 (envAt 0 "d"), .advance 1 (envAt 0 "e"), .advance 1 (envAt 0 "f"),
    .advance 0 (envAt 0 "g"), .advance 1 (envAt 0 "h")]

/-- The second request is answered with the token of the first. -/
theorem racing_linear :
    (Replaced (State.init.rotations racingRun) "s" "t0" "t1" ∧ HeldDuring racingRun 1 "s" "t1") ∧
      ∃ ρ ∈ State.init.rotations racingRun, ρ.sessionId = "s" ∧ ρ.old = "t0" := by
  have hrun : State.init.run racingRun = some (stateOf .init racingRun) := by decide
  obtain ⟨-, hanswered, hrotated⟩ := refreshes_linear hrun
  refine ⟨hanswered 1 "t0" "s" "t1" ⟨"u", by decide⟩ (by decide), ?_⟩
  exact hrotated (racingRun.take 1) (racingRun.drop 2) (stateOf .init (racingRun.take 1)) 0 "s" "t0"
    "u" (.tokens "s" "t1") rfl (by decide) ⟨_, mem_singleton_self _, rfl, rfl, rfl⟩
    (by decide) (by decide)

end Auth

end EdgeBase
