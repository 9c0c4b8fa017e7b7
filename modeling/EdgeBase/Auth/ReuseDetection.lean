import EdgeBase.Auth.RefreshTokens
import EdgeBase.Lib.Assoc
import Mathlib.Data.List.Pairwise

/-!
# Which reuse of a refresh token is detected

The table keeps two tokens of a session: the current one, and the one before it.  When the one
before it comes back after the grace period the session is closed, and it yields nothing more.
An older token is in no row.  It is refused like a token that never was, and the session goes on.

* `State.Sound` : every token in the table belongs to one session (`Sound.run`).
-/

namespace EdgeBase

open List Option

namespace Auth

/-! ### What one turn does -/

/-- The new token with which a request waits. -/
def Phase.fresh : Phase → List String
  | .swap _ _ newRefreshToken _ => [newRefreshToken]
  | _ => []

def Phase.ids : Phase → List String
  | .findCurrent _ _ => []
  | .findPrevious _ _ => []
  | .loadUser session _ => [session.id]
  | .swap session _ _ _ => [session.id]
  | .findWinnerCurrent session _ => [session.id]
  | .findWinnerPrevious session _ => [session.id]
  | .rotated sessionId _ => [sessionId]
  | .loadGraceUser session _ => [session.id]
  | .granted sessionId _ => [sessionId]
  | .revoke sessionId => [sessionId]

/-- The request has read all that it needs for tokens of this session. -/
def Phase.Holds (sessionId : String) : Phase → Prop
  | .rotated id _ => id = sessionId
  | .granted id _ => id = sessionId
  | .loadGraceUser session _ => session.id = sessionId
  | _ => False

def rotate (session : Session) (nextRefreshToken : String) (expiresAt rotatedAt check : Int)
    (σ : Session) : Session :=
  if swaps session check σ then
    { σ with
      refreshToken := nextRefreshToken
      previousRefreshToken := some session.refreshToken
      rotatedAt := some rotatedAt
      expiresAt := expiresAt }
  else σ

theorem compareAndSwapUserSession_eq_some {sessions sessions' : List Session} {session : Session}
    {next : String} {expiresAt rotatedAt check : Int}
    (h : compareAndSwapUserSession sessions session next expiresAt rotatedAt check =
      some sessions') : (∃ σ ∈ sessions, swaps session check σ) ∧
      sessions' = sessions.map (rotate session next expiresAt rotatedAt check) := by
  rw [compareAndSwapUserSession] at h
  split at h
  · next hσ =>
    cases h
    exact ⟨hσ, rfl⟩
  · cases h

theorem mem_of_findByCurrent {sessions : List Session} {token userId : String} {σ : Session}
    (h : findByCurrent sessions token userId = some σ) :
    σ ∈ sessions ∧ σ.refreshToken = token ∧ σ.userId = userId := by
  have hp := List.find?_some h
  exact ⟨List.mem_of_find?_eq_some h, by simpa using hp⟩

theorem mem_of_findByPrevious {sessions : List Session} {token userId : String} {σ : Session}
    (h : findByPrevious sessions token userId = some σ) :
    σ ∈ sessions ∧ σ.previousRefreshToken = some token ∧ σ.userId = userId := by
  have hp := List.find?_some h
  exact ⟨List.mem_of_find?_eq_some h, by simpa using hp⟩

theorem Phase.proceed_sessions (env : Env) (sessions : List Session) (phase : Phase) :
    (phase.proceed env sessions).1 = sessions ∨
      (∃ session userId new expiresAt, phase = .swap session userId new expiresAt ∧
        (∃ σ ∈ sessions, swaps session env.check σ) ∧ (phase.proceed env sessions).1 =
          sessions.map (rotate session new expiresAt env.now env.check)) ∨
      ∃ id, phase = .revoke id ∧ (phase.proceed env sessions).1 = sessions.filter (·.id ≠ id) := by
  cases phase with
  | swap session userId new expiresAt =>
    simp only [Phase.proceed]
    cases h : compareAndSwapUserSession sessions session new expiresAt env.now env.check with
    | none => exact .inl rfl
    | some sessions' =>
      obtain ⟨hσ, rfl⟩ := compareAndSwapUserSession_eq_some h
      exact .inr (.inl ⟨session, userId, new, expiresAt, rfl, hσ, rfl⟩)
  | revoke id => exact .inr (.inr ⟨id, rfl, rfl⟩)
  | findCurrent token userId =>
    left
    simp only [Phase.proceed]
    split <;> rfl
  | findPrevious token userId =>
    left
    simp only [Phase.proceed]
    repeat' split
    all_goals rfl
  | loadUser session userId =>
    left
    simp only [Phase.proceed]
    repeat' split
    all_goals rfl
  | findWinnerCurrent session userId =>
    left
    simp only [Phase.proceed]
    split <;> rfl
  | findWinnerPrevious session userId =>
    left
    simp only [Phase.proceed]
    repeat' split
    all_goals rfl
  | rotated id new => exact .inl rfl
  | loadGraceUser session userId =>
    left
    simp only [Phase.proceed]
    split <;> rfl
  | granted id token => exact .inl rfl

/-- Where a request waits after a turn: with no token but the turn's own, on a session that it
had read or reads now. -/
theorem Phase.proceed_next {env : Env} {sessions : List Session} {phase next : Phase}
    (h : (phase.proceed env sessions).2 = .inl next) : next.fresh ⊆ [env.newRefreshToken] ∧
      (next.ids ⊆ phase.ids ∨ ∃ σ ∈ sessions, next.ids = [σ.id]) ∧
      ∀ id, next.Holds id → phase.Holds id ∨ ∃ σ ∈ sessions, σ.id = id := by
  cases phase with
  | findCurrent token userId =>
    simp only [Phase.proceed] at h
    split at h <;> cases h
    · next σ hσ =>
      obtain ⟨hmem, -⟩ := mem_of_findByCurrent hσ
      exact ⟨by simp [fresh], .inr ⟨σ, hmem, rfl⟩, fun _ h => h.elim⟩
    · exact ⟨by simp [fresh], .inl (by simp [ids]), fun _ h => h.elim⟩
  | findPrevious token userId =>
    simp only [Phase.proceed] at h
    split at h
    · cases h
    · next σ hσ =>
      obtain ⟨hmem, -⟩ := mem_of_findByPrevious hσ
      split at h <;> cases h
      · exact ⟨by simp [fresh], .inr ⟨σ, hmem, rfl⟩, fun _ h => .inr ⟨σ, hmem, h⟩⟩
      · exact ⟨by simp [fresh], .inr ⟨σ, hmem, rfl⟩, fun _ h => h.elim⟩
  | loadUser session userId =>
    simp only [Phase.proceed] at h
    repeat' split at h
    all_goals cases h
    exact ⟨by simp [fresh], .inl (by simp [ids]), fun _ h => h.elim⟩
  | swap session userId new expiresAt =>
    simp only [Phase.proceed] at h
    split at h <;> cases h
    · next hswap =>
      obtain ⟨⟨σ, hσ, hid, -⟩, -⟩ := compareAndSwapUserSession_eq_some hswap
      exact ⟨by simp [fresh], .inl (by simp [ids]), fun _ h => .inr ⟨σ, hσ, hid.trans h⟩⟩
    · exact ⟨by simp [fresh], .inl (by simp [ids]), fun _ h => h.elim⟩
  | findWinnerCurrent session userId =>
    simp only [Phase.proceed] at h
    split at h <;> cases h
    exact ⟨by simp [fresh], .inl (by simp [ids]), fun _ h => h.elim⟩
  | findWinnerPrevious session userId =>
    simp only [Phase.proceed] at h
    split at h
    · cases h
    · next σ hσ =>
      obtain ⟨hmem, -⟩ := mem_of_findByPrevious hσ
      split at h <;> cases h
      exact ⟨by simp [fresh], .inr ⟨σ, hmem, rfl⟩, fun _ h => .inr ⟨σ, hmem, h⟩⟩
  | rotated id new => cases h
  | loadGraceUser session userId =>
    simp only [Phase.proceed] at h
    split at h <;> cases h
    exact ⟨by simp [fresh], .inl (by simp [ids]), fun _ h => .inl h⟩
  | granted id token => cases h
  | revoke id => cases h

theorem Phase.holds_of_tokens {env : Env} {sessions : List Session} {phase : Phase}
    {id token : String} (h : (phase.proceed env sessions).2 = .inr (.tokens id token)) :
    phase.Holds id := by
  cases phase with
  | rotated id' new => cases h; rfl
  | granted id' token' => cases h; rfl
  | revoke id' => cases h
  | _ =>
    simp only [Phase.proceed, invalidRefreshToken] at h
    repeat' split at h
    all_goals cases h

/-! ### Soundness -/

/-- Two rows that share no token. -/
def Session.Apart (σ τ : Session) : Prop :=
  σ.id ≠ τ.id ∧ σ.tokens.Disjoint τ.tokens

/-- Two requests that will not write the same token. -/
def Differ (p q : ℕ × Phase) : Prop :=
  p.2.fresh.Disjoint q.2.fresh

instance : Std.Symm Session.Apart := ⟨fun _ _ h => ⟨h.1.symm, disjoint_symm h.2⟩⟩

instance : Std.Symm Differ := ⟨fun _ _ h => disjoint_symm h⟩

/-- No token has two places, and none that waits to be written has one yet. -/
structure State.Sound (s : State) : Prop where
  apart : s.sessions.Pairwise Session.Apart
  rows : ∀ σ ∈ s.sessions, σ.tokens.Nodup ∧ σ.id ∈ s.ids ∧ σ.tokens ⊆ s.issued
  pending : s.requests.Pairwise Differ
  waiting : ∀ p ∈ s.requests, p.2.ids ⊆ s.ids ∧ p.2.fresh ⊆ s.issued ∧
    ∀ σ ∈ s.sessions, p.2.fresh.Disjoint σ.tokens

theorem State.Sound.init : State.init.Sound :=
  ⟨.nil, by simp [State.init], .nil, by simp [State.init]⟩

section Rotate

variable {session : Session} {next : String} {expiresAt rotatedAt check : Int}

@[simp] theorem rotate_id (σ : Session) :
    (rotate session next expiresAt rotatedAt check σ).id = σ.id := by
  unfold rotate
  split <;> rfl

theorem rotate_of_ne {σ : Session} (h : σ.id ≠ session.id) :
    rotate session next expiresAt rotatedAt check σ = σ :=
  if_neg fun hs => h hs.1

theorem rotate_tokens_subset (σ : Session) :
    (rotate session next expiresAt rotatedAt check σ).tokens ⊆ next :: σ.tokens := by
  unfold rotate
  split
  · next h =>
    intro token ht
    simp only [Session.tokens, toList_some, mem_cons, not_mem_nil, or_false]
      at ht ⊢
    rcases ht with rfl | rfl
    · exact .inl rfl
    · exact .inr (.inl h.2.1.symm)
  · exact subset_cons_self _ _

theorem nodup_rotate {σ : Session} (hσ : σ.tokens.Nodup) (hn : next ∉ σ.tokens) :
    (rotate session next expiresAt rotatedAt check σ).tokens.Nodup := by
  unfold rotate
  split
  · next h =>
    have hne : next ≠ session.refreshToken := by
      rintro rfl
      exact hn (by simp [Session.tokens, h.2.1])
    simpa [Session.tokens] using hne
  · exact hσ

theorem Session.Apart.rotate {σ τ : Session} (h : σ.Apart τ) (hσ : next ∉ σ.tokens)
    (hτ : next ∉ τ.tokens) : (rotate session next expiresAt rotatedAt check σ).Apart
      (rotate session next expiresAt rotatedAt check τ) := by
  -- at most one of the two rows is the rotated one
  refine ⟨by simpa using h.1, ?_⟩
  by_cases hid : σ.id = session.id
  · rw [rotate_of_ne fun h' => h.1 (hid.trans h'.symm)]
    refine disjoint_of_subset_left (rotate_tokens_subset σ) ?_
    exact disjoint_cons_left.2 ⟨hτ, h.2⟩
  · rw [rotate_of_ne hid]
    refine disjoint_of_subset_right (rotate_tokens_subset τ) ?_
    exact disjoint_cons_right.2 ⟨hσ, h.2⟩

end Rotate

namespace State.Sound

variable {s : State}

variable (hs : s.Sound)
include hs

theorem filter_sessions (p : Session → Bool) :
    State.Sound { s with sessions := s.sessions.filter p } where
  apart := hs.apart.filter p
  rows σ hσ := hs.rows σ (mem_of_mem_filter hσ)
  pending := hs.pending
  waiting q hq :=
    have h := hs.waiting q hq
    ⟨h.1, h.2.1, fun σ hσ => h.2.2 σ (mem_of_mem_filter hσ)⟩

theorem filter_requests (p : ℕ × Phase → Bool) :
    State.Sound { s with requests := s.requests.filter p } where
  apart := hs.apart
  rows := hs.rows
  pending := hs.pending.filter p
  waiting q hq := hs.waiting q (mem_of_mem_filter hq)

theorem rotate {r : ℕ} {session : Session} {userId new : String}
    {expiresAt at' rotatedAt check : Int}
    (hr : (r, Phase.swap session userId new at') ∈ s.requests) :
    State.Sound
      { s with
        sessions := s.sessions.map (Auth.rotate session new expiresAt rotatedAt check)
        requests := s.requests.filter (·.1 ≠ r) } := by
  obtain ⟨-, hissued, hfresh⟩ := hs.waiting _ hr
  have hnew : ∀ σ ∈ s.sessions, new ∉ σ.tokens := fun σ hσ =>
    singleton_disjoint.1 (hfresh σ hσ)
  have hnewIssued : new ∈ s.issued := hissued (mem_singleton_self new)
  constructor
  · refine pairwise_map.2 (hs.apart.imp_of_mem fun hσ hτ h => ?_)
    exact h.rotate (hnew _ hσ) (hnew _ hτ)
  · simp only [List.mem_map, forall_exists_index, and_imp, forall_apply_eq_imp_iff₂]
    intro σ hσ
    obtain ⟨hnodup, hid, htokens⟩ := hs.rows σ hσ
    refine ⟨nodup_rotate hnodup (hnew σ hσ), by simpa using hid, ?_⟩
    exact List.Subset.trans (rotate_tokens_subset σ) (cons_subset.2 ⟨hnewIssued, htokens⟩)
  · exact hs.pending.filter _
  · intro q hq
    obtain ⟨hq, hne⟩ := mem_filter.1 hq
    obtain ⟨hids, hq', hdisjoint⟩ := hs.waiting q hq
    refine ⟨hids, hq', ?_⟩
    simp only [List.mem_map, forall_exists_index, and_imp, forall_apply_eq_imp_iff₂]
    intro σ hσ
    refine disjoint_of_subset_right (rotate_tokens_subset σ) ?_
    -- the other requests wait with other tokens
    have hdiffer : Differ q (r, .swap session userId new at') :=
      hs.pending.forall hq hr (by rintro rfl; simp at hne)
    exact disjoint_cons_right.2
      ⟨disjoint_singleton.1 hdiffer, hdisjoint σ hσ⟩

theorem cons_request {r : ℕ} {phase : Phase} {new : String}
    (hids : phase.ids ⊆ s.ids) (hfresh : phase.fresh ⊆ [new]) (hnew : new ∉ s.issued) : State.Sound
      { s with requests := (r, phase) :: s.requests, issued := new :: s.issued } := by
  have hfar : ∀ tokens : List String, tokens ⊆ s.issued → phase.fresh.Disjoint tokens := by
    intro tokens ht
    refine disjoint_of_subset_left hfresh ?_
    exact singleton_disjoint.2 fun h => hnew (ht h)
  refine ⟨hs.apart, fun σ hσ => ?_, ?_, fun q hq => ?_⟩
  · obtain ⟨hnodup, hid, htokens⟩ := hs.rows σ hσ
    exact ⟨hnodup, hid, List.Subset.trans htokens (subset_cons_self _ _)⟩
  · exact pairwise_cons.2 ⟨fun q hq => hfar _ (hs.waiting q hq).2.1, hs.pending⟩
  · rcases mem_cons.1 hq with rfl | hq
    · exact ⟨hids, List.Subset.trans hfresh (by simp), fun σ hσ => hfar _ (hs.rows σ hσ).2.2⟩
    · obtain ⟨h, hq', hdisjoint⟩ := hs.waiting q hq
      exact ⟨h, List.Subset.trans hq' (subset_cons_self _ _), hdisjoint⟩

theorem issue (new : String) : State.Sound { s with issued := new :: s.issued } where
  apart := hs.apart
  rows σ hσ :=
    have h := hs.rows σ hσ
    ⟨h.1, h.2.1, List.Subset.trans h.2.2 (subset_cons_self _ _)⟩
  pending := hs.pending
  waiting q hq :=
    have h := hs.waiting q hq
    ⟨h.1, List.Subset.trans h.2.1 (subset_cons_self _ _), h.2.2⟩

theorem answer (answers : List (ℕ × Answer)) : State.Sound { s with answers := answers } :=
  ⟨hs.apart, hs.rows, hs.pending, hs.waiting⟩

theorem proceed {r : ℕ} {phase : Phase} (env : Env) (hr : (r, phase) ∈ s.requests) :
    State.Sound
      { s with
        sessions := (phase.proceed env s.sessions).1
        requests := s.requests.filter (·.1 ≠ r) } := by
  rcases phase.proceed_sessions env s.sessions with h | ⟨σ, u, new, e, rfl, -, h⟩ | ⟨id, rfl, h⟩
  · rw [h]
    exact hs.filter_requests _
  · rw [h]
    exact hs.rotate hr
  · rw [h]
    exact (hs.filter_sessions _).filter_requests _

theorem turn {r : ℕ} {phase : Phase} {env : Env} (hr : (r, phase) ∈ s.requests)
    (hnew : env.newRefreshToken ∉ s.issued) : (s.turn r env phase).Sound := by
  have hs' := hs.proceed env hr
  unfold State.turn State.resume
  cases h : (phase.proceed env s.sessions).2 with
  | inl next =>
    obtain ⟨hfresh, hids, -⟩ := Phase.proceed_next h
    suffices hread : next.ids ⊆ s.ids by
      simp only [h, Sum.getLeft?_inl, map_some, toList_some, singleton_append]
      exact (hs'.cons_request hread hfresh hnew).answer _
    rcases hids with hids | ⟨σ, hσ, hids⟩
    · exact List.Subset.trans hids (hs.waiting _ hr).1
    · rw [hids]
      exact cons_subset.2 ⟨(hs.rows σ hσ).2.1, nil_subset _⟩
  | inr a =>
    simp only [h, Sum.getLeft?_inr, map_none, toList_none, nil_append]
    exact (hs'.issue _).answer _

omit hs

theorem step {s' : State} {a : Action} (hs : s.Sound) (h : s.step a = some s') : s'.Sound := by
  cases a with
  | present r token userId =>
    simp only [State.step, State.resume] at h
    split at h <;> cases h
    refine ⟨hs.apart, hs.rows, ?_, ?_⟩
    · refine pairwise_cons.2 ⟨fun q _ => disjoint_nil_left _, hs.pending.filter _⟩
    · intro q hq
      rcases mem_cons.1 hq with rfl | hq
      · simp [Phase.ids, Phase.fresh]
      · exact hs.waiting q (mem_of_mem_filter hq)
  | refuse r status code =>
    simp only [State.step] at h
    split at h <;> cases h
    exact hs.answer _
  | advance r env =>
    simp only [State.step] at h
    split at h
    · cases h
    · next hnew =>
      obtain ⟨phase, hr, rfl⟩ := map_eq_some_iff.1 h
      exact hs.turn (Assoc.mem_of_lookup hr) hnew
  | signIn session =>
    simp only [State.step] at h
    split at h
    · cases h
    · next hno =>
      cases h
      simp only [not_or, not_not] at hno
      obtain ⟨hid, htoken, hprevious⟩ := hno
      have htokens : session.tokens = [session.refreshToken] := by
        simp [Session.tokens, hprevious]
      refine ⟨?_, ?_, hs.pending, ?_⟩
      · refine pairwise_cons.2 ⟨fun σ hσ => ⟨?_, ?_⟩, hs.apart⟩
        · rintro h
          exact hid (h ▸ (hs.rows σ hσ).2.1)
        · rw [htokens]
          exact singleton_disjoint.2 fun h => htoken ((hs.rows σ hσ).2.2 h)
      · intro σ hσ
        rcases mem_cons.1 hσ with rfl | hσ
        · simp [htokens]
        · obtain ⟨hnodup, h, h'⟩ := hs.rows σ hσ
          exact ⟨hnodup, mem_cons_of_mem _ h,
            List.Subset.trans h' (subset_cons_self _ _)⟩
      · intro q hq
        obtain ⟨hids, hfresh, hdisjoint⟩ := hs.waiting q hq
        refine ⟨List.Subset.trans hids (subset_cons_self _ _),
          List.Subset.trans hfresh (subset_cons_self _ _), fun σ hσ => ?_⟩
        rcases mem_cons.1 hσ with rfl | hσ
        · rw [htokens]
          exact disjoint_singleton.2 fun h => htoken (hfresh h)
        · exact hdisjoint σ hσ
  | signOut id =>
    cases h
    exact hs.filter_sessions _

theorem run {s' : State} {actions : List Action} (hs : s.Sound)
    (h : s.run actions = some s') : s'.Sound := by
  induction actions generalizing s with
  | nil =>
    cases h
    exact hs
  | cons a actions ih =>
    obtain ⟨s₁, h₁, h⟩ := bind_eq_some_iff.1 h
    exact ih (hs.step h₁) h

end State.Sound

/-! ### A closed session stays closed -/

/-- In no run from here is there a row of this session, and it yields no tokens but to requests
that hold it now. -/
def State.Ended (s : State) (sessionId : String) : Prop :=
  ∀ future s', s.run future = some s' →
    (∀ σ ∈ s'.sessions, σ.id ≠ sessionId) ∧
      ∀ r token, (r, Answer.tokens sessionId token) ∈ s'.answers →
        (r, Answer.tokens sessionId token) ∈ s.answers ∨
          ∃ phase, (r, phase) ∈ s.requests ∧ phase.Holds sessionId

/-- What is left of a session since `s₀`. -/
structure State.Closed (s₀ : State) (id : String) (s : State) : Prop where
  known : id ∈ s.ids
  gone : ∀ σ ∈ s.sessions, σ.id ≠ id
  holding : ∀ r phase, (r, phase) ∈ s.requests → phase.Holds id →
    ∃ phase, (r, phase) ∈ s₀.requests ∧ phase.Holds id
  answered : ∀ r token, (r, Answer.tokens id token) ∈ s.answers →
    (r, Answer.tokens id token) ∈ s₀.answers ∨ ∃ phase, (r, phase) ∈ s₀.requests ∧ phase.Holds id

theorem Phase.exists_of_proceed {env : Env} {sessions : List Session} {phase : Phase} {σ : Session}
    (h : σ ∈ (phase.proceed env sessions).1) : ∃ τ ∈ sessions, τ.id = σ.id := by
  rcases phase.proceed_sessions env sessions with he | ⟨_, _, _, _, -, -, he⟩ | ⟨_, -, he⟩
  · exact ⟨σ, he ▸ h, rfl⟩
  · rw [he] at h
    obtain ⟨τ, hτ, rfl⟩ := List.mem_map.1 h
    exact ⟨τ, hτ, (rotate_id τ).symm⟩
  · rw [he] at h
    exact ⟨σ, mem_of_mem_filter h, rfl⟩

namespace State.Closed

variable {s₀ s : State} {id : String}

variable (hs : State.Closed s₀ id s)
include hs

theorem turn {r : ℕ} {phase : Phase} (env : Env)
    (hr : (r, phase) ∈ s.requests) : State.Closed s₀ id (s.turn r env phase) := by
  constructor
  · exact hs.known
  · intro σ hσ
    obtain ⟨τ, hτ, hid⟩ := Phase.exists_of_proceed hσ
    exact hid ▸ hs.gone τ hτ
  · intro r' phase' hr' hholds
    rcases mem_append.1 hr' with h | h
    · -- it holds the session only if it held it before the turn: there is no row to read
      simp only [mem_toList, map_eq_some_iff, Sum.getLeft?_eq_some_iff] at h
      obtain ⟨next, hnext, he⟩ := h
      cases he
      rcases (Phase.proceed_next hnext).2.2 id hholds with hp | ⟨σ, hσ, hid⟩
      · exact hs.holding r phase hr hp
      · exact absurd hid (hs.gone σ hσ)
    · exact hs.holding r' phase' (mem_of_mem_filter h) hholds
  · intro r' token hr'
    rcases mem_append.1 hr' with h | h
    · simp only [mem_toList, map_eq_some_iff, Sum.getRight?_eq_some_iff] at h
      obtain ⟨a, ha, he⟩ := h
      cases he
      exact .inr (hs.holding r phase hr (Phase.holds_of_tokens ha))
    · exact hs.answered r' token h

theorem step {s' : State} {a : Action} (h : s.step a = some s') : State.Closed s₀ id s' := by
  cases a with
  | present r token userId =>
    simp only [State.step, State.resume] at h
    split at h <;> cases h
    refine ⟨hs.known, hs.gone, fun r' phase hr hholds => ?_, hs.answered⟩
    rcases mem_cons.1 hr with he | hr
    · cases he
      exact hholds.elim
    · exact hs.holding r' phase (mem_of_mem_filter hr) hholds
  | refuse r status code =>
    simp only [State.step] at h
    split at h <;> cases h
    refine ⟨hs.known, hs.gone, hs.holding, fun r' token hr => ?_⟩
    rcases mem_cons.1 hr with he | hr
    · cases he
    · exact hs.answered r' token hr
  | advance r env =>
    simp only [State.step] at h
    split at h
    · cases h
    · obtain ⟨phase, hr, rfl⟩ := map_eq_some_iff.1 h
      exact hs.turn env (Assoc.mem_of_lookup hr)
  | signIn session =>
    simp only [State.step] at h
    split at h
    · cases h
    · next hno =>
      cases h
      refine ⟨mem_cons_of_mem _ hs.known, fun σ hσ => ?_, hs.holding, hs.answered⟩
      rcases mem_cons.1 hσ with rfl | hσ
      · rintro rfl
        exact hno (.inl hs.known)
      · exact hs.gone σ hσ
  | signOut sessionId =>
    cases h
    exact ⟨hs.known, fun σ hσ => hs.gone σ (mem_of_mem_filter hσ), hs.holding, hs.answered⟩

theorem run {s' : State} {actions : List Action}
    (h : s.run actions = some s') : State.Closed s₀ id s' := by
  induction actions generalizing s with
  | nil =>
    cases h
    exact hs
  | cons a actions ih =>
    obtain ⟨s₁, h₁, h⟩ := bind_eq_some_iff.1 h
    exact ih (hs.step h₁) h

end State.Closed

theorem State.ended {s : State} {id : String} (hid : id ∈ s.ids)
    (hgone : ∀ σ ∈ s.sessions, σ.id ≠ id) : s.Ended id := by
  intro future s' h
  have hs : State.Closed s id s :=
    ⟨hid, hgone, fun _ phase hr hholds => ⟨phase, hr, hholds⟩, fun _ _ hr => .inl hr⟩
  exact ⟨(hs.run h).gone, (hs.run h).answered⟩

/-! ### What the route detects -/

theorem Session.Apart.eq_of_mem {sessions : List Session} (h : sessions.Pairwise Session.Apart)
    {σ τ : Session} (hσ : σ ∈ sessions) (hτ : τ ∈ sessions) {token : String}
    (ht : token ∈ σ.tokens) (ht' : token ∈ τ.tokens) : σ = τ := by
  by_contra hne
  exact (h.forall hσ hτ hne).2 ht ht'

theorem Session.mem_tokens_of_previous {σ : Session} {token : String}
    (h : σ.previousRefreshToken = some token) : token ∈ σ.tokens := by
  simp [Session.tokens, h]

namespace State.Sound

variable {s : State}

theorem findByCurrent_of_previous (hs : s.Sound) {σ : Session} (hσ : σ ∈ s.sessions)
    {token : String} (h : σ.previousRefreshToken = some token) (userId : String) :
    findByCurrent s.sessions token userId = none := by
  refine eq_none_iff_forall_ne_some.2 fun τ hτ => ?_
  obtain ⟨hmem, hcurrent, -⟩ := mem_of_findByCurrent hτ
  obtain rfl : σ = τ := Session.Apart.eq_of_mem hs.apart hσ hmem
    (Session.mem_tokens_of_previous h) (by simp [Session.tokens, hcurrent])
  have hnodup := (hs.rows σ hσ).1
  rw [Session.tokens, h, hcurrent] at hnodup
  simp at hnodup

theorem findByPrevious_eq (hs : s.Sound) {σ : Session} (hσ : σ ∈ s.sessions) {token : String}
    (h : σ.previousRefreshToken = some token) :
    findByPrevious s.sessions token σ.userId = some σ := by
  cases hf : findByPrevious s.sessions token σ.userId with
  | none =>
    have := List.find?_eq_none.1 hf σ hσ
    simp [h] at this
  | some τ =>
    obtain ⟨hmem, hprevious, -⟩ := mem_of_findByPrevious hf
    rw [Session.Apart.eq_of_mem hs.apart hσ hmem (Session.mem_tokens_of_previous h)
      (Session.mem_tokens_of_previous hprevious)]

end State.Sound

theorem findByCurrent_eq_none {sessions : List Session} {token userId : String}
    (h : ∀ σ ∈ sessions, σ.userId = userId → token ∉ σ.tokens) :
    findByCurrent sessions token userId = none := by
  refine eq_none_iff_forall_ne_some.2 fun τ hτ => ?_
  obtain ⟨hmem, hcurrent, huser⟩ := mem_of_findByCurrent hτ
  exact h τ hmem huser (by simp [Session.tokens, hcurrent])

theorem findByPrevious_eq_none {sessions : List Session} {token userId : String}
    (h : ∀ σ ∈ sessions, σ.userId = userId → token ∉ σ.tokens) :
    findByPrevious sessions token userId = none := by
  refine eq_none_iff_forall_ne_some.2 fun τ hτ => ?_
  obtain ⟨hmem, hprevious, huser⟩ := mem_of_findByPrevious hτ
  exact h τ hmem huser (Session.mem_tokens_of_previous hprevious)

theorem State.step_advance {s s' : State} {r : ℕ} {env : Env} {phase : Phase}
    (h : s.step (.advance r env) = some s') (hr : s.requests.lookup r = some phase) :
    s'.sessions = (phase.proceed env s.sessions).1 ∧ s'.ids = s.ids ∧
      (∀ next, (phase.proceed env s.sessions).2 = .inl next → s'.requests.lookup r = some next) ∧
      ∀ a, (phase.proceed env s.sessions).2 = .inr a → (r, a) ∈ s'.answers := by
  simp only [State.step] at h
  split at h
  · cases h
  · rw [hr] at h
    cases h
    refine ⟨rfl, rfl, fun next hnext => ?_, fun a ha => ?_⟩
    · simp [State.turn, State.resume, hnext]
    · simp [State.turn, ha]

section Exhibits

/-- In this action a token is rotated out of a session. -/
def State.RotatesOut (s : State) (a : Action) (id token : String) (time : Int) : Prop :=
  ∃ r env σ userId new expiresAt, a = .advance r env ∧
    s.requests.lookup r = some (.swap σ userId new expiresAt) ∧ σ.id = id ∧
    σ.refreshToken = token ∧ env.now = time ∧ ∃ τ ∈ s.sessions, swaps σ env.check τ

/-- Every token that was rotated out ends its session when it comes back after the grace period:
once it is looked up, no request is answered with tokens of that session. -/
def ReuseEndsSession : Prop :=
  ∀ past s a s₁ between s₂ r token userId id time env s₃ future s₄,
    State.init.run past = some s → s.RotatesOut a id token time → s.step a = some s₁ →
    s₁.run between = some s₂ → s₂.requests.lookup r = some (.findPrevious token userId) →
    refreshTokenGracePeriod < env.now - time → s₂.step (.advance r env) = some s₃ →
    s₃.run future = some s₄ →
    ∀ r' token', (r', Answer.tokens id token') ∈ s₄.answers →
      (r', Answer.tokens id token') ∈ s₃.answers

/-- A turn at this time; the token is used only before the swap. -/
def envAt (now : Int) (newRefreshToken : String) : Env where
  now := now
  check := now
  user := some { disabled := false }
  newRefreshToken := newRefreshToken
  expiresAt := 1000000

def refreshRun (now : Int) (r : ℕ) (token new : String) : List Action :=
  [.present r token "u", .advance r (envAt now (new ++ "-")), .advance r (envAt now new)]

def answerRun (now : Int) (r : ℕ) (new : String) : List Action :=
  [.advance r (envAt now (new ++ "+")), .advance r (envAt now (new ++ "*"))]

/-- A sign-in, and a first refresh up to its swap. -/
def firstRun : List Action :=
  .signIn { id := "s", userId := "u", refreshToken := "t0", expiresAt := 1000000 } ::
    refreshRun 0 0 "t0" "t1"

/-- The first refresh is answered, and a second one; then the first token comes back. -/
def secondRun : List Action :=
  [.advance 0 (envAt 0 "t1*")] ++ refreshRun 10 1 "t1" "t2" ++ answerRun 10 1 "t2" ++
    [.present 2 "t0" "u", .advance 2 (envAt 100000 "x")]

/-- The session is refreshed once more. -/
def thirdRun : List Action :=
  refreshRun 100000 3 "t2" "t3" ++ answerRun 100000 3 "t3"

def stateOf (s : State) (actions : List Action) : State :=
  (s.run actions).getD s

def rotating : State := stateOf .init firstRun

def rotated : State := stateOf rotating [.advance 0 (envAt 0 "t1+")]

def presented : State := stateOf rotated secondRun

def refused : State := stateOf presented [.advance 2 (envAt 100000 "y")]

/-- The token of one rotation ago, 100 seconds later. -/
def previousRun : List Action :=
  firstRun ++ answerRun 0 0 "t1" ++ [.present 2 "t0" "u", .advance 2 (envAt 100000 "x"),
    .advance 2 (envAt 100000 "y")]

def reused : State := stateOf .init previousRun

def revoked : State := stateOf reused [.advance 2 (envAt 100000 "z")]

end Exhibits

end Auth

end EdgeBase
