import EdgeBase.Lib.Assoc
import EdgeBase.Lib.Runs
import EdgeBase.Lib.TokenBucket
import Mathlib.Data.Rat.Defs
import Mathlib.Algebra.Order.Ring.Rat
import Mathlib.Algebra.Field.Rat

/-!
# The rate limit of rooms

A room has a bucket of tokens for every connection and scope, under a key made of both.

* `checkRateLimit`, `clearRateBuckets` : the two functions on the buckets.
* `answers_apart` : what is answered to a connection in a scope does not depend on the others.
* `within_limit` : how many calls are accepted in a window.
-/

namespace EdgeBase.RoomRateLimit

open List

/-! ### The buckets -/

inductive RoomRateLimitScope where
  | actions
  | signals
  | admin
  deriving DecidableEq

def RoomRateLimitScope.text : RoomRateLimitScope → String
  | .actions => "actions"
  | .signals => "signals"
  | .admin => "admin"

/-- `rateLimit` of a namespace, in calls per second. -/
structure RateLimit where
  actions : ℚ
  signals : Option ℚ := none
  admin : Option ℚ := none

def DEFAULT_RATE_LIMIT_ACTIONS : ℚ := 10

def maxActions (rateLimit : Option RateLimit) (scope : RoomRateLimitScope) : ℚ :=
  let own : Option ℚ :=
    match scope with
    | .signals => rateLimit.bind (·.signals)
    | .admin => rateLimit.bind (·.admin)
    | .actions => none
  (own.or (rateLimit.map (·.actions))).getD DEFAULT_RATE_LIMIT_ACTIONS

/-- The ids that `crypto.randomUUID` makes: hexadecimal digits and hyphens. -/
abbrev ConnectionId := {text : String // ':' ∉ text.toList}

structure RateBucket where
  tokens : ℚ
  lastRefill : ℚ
  deriving DecidableEq

/-- `rateBuckets`, a `Map`. -/
abbrev RateBuckets := List (String × RateBucket)

def bucketKey (connectionId : ConnectionId) (scope : RoomRateLimitScope) : String :=
  connectionId.val ++ ":" ++ scope.text

/-- The bucket that a call leaves, and its answer. -/
def refillAndTake (maxActions now : ℚ) (bucket : RateBucket) : Bool × RateBucket :=
  let elapsed := now - bucket.lastRefill
  let refill := elapsed / 1000 * maxActions
  let tokens := min maxActions (bucket.tokens + refill)
  if 1 ≤ tokens then (true, ⟨tokens - 1, now⟩) else (false, ⟨tokens, now⟩)

def checkRateLimit (rateLimit : Option RateLimit) (rateBuckets : RateBuckets) (now : ℚ)
    (connectionId : ConnectionId) (scope : RoomRateLimitScope) : Bool × RateBuckets :=
  let maxActions := maxActions rateLimit scope
  let bucketKey := bucketKey connectionId scope
  let bucket := (rateBuckets.lookup bucketKey).getD ⟨maxActions, now⟩
  let taken := refillAndTake maxActions now bucket
  (taken.1, Assoc.set rateBuckets bucketKey taken.2)

def clearRateBuckets (rateBuckets : RateBuckets) (connectionId : ConnectionId) : RateBuckets :=
  rateBuckets.filter fun entry => !(connectionId.val ++ ":").toList.isPrefixOf entry.1.toList

/-! ### Runs -/

inductive Event where
  | check (now : ℚ) (connectionId : ConnectionId) (scope : RoomRateLimitScope)
  | clear (connectionId : ConnectionId)

structure Answer where
  now : ℚ
  connectionId : ConnectionId
  scope : RoomRateLimitScope
  accepted : Bool

section Runs

variable (rateLimit : Option RateLimit)

def step (rateBuckets : RateBuckets) : Event → RateBuckets
  | .check now connectionId scope =>
    (checkRateLimit rateLimit rateBuckets now connectionId scope).2
  | .clear connectionId => clearRateBuckets rateBuckets connectionId

def report (rateBuckets : RateBuckets) : Event → List Answer
  | .check now connectionId scope =>
    [⟨now, connectionId, scope,
      (checkRateLimit rateLimit rateBuckets now connectionId scope).1⟩]
  | .clear _ => []

def answers (events : List Event) : List Answer :=
  Runs.log (step rateLimit) (report rateLimit) [] events

end Runs

def Event.now? : Event → Option ℚ
  | .check now _ _ => some now
  | .clear _ => none

/-- Whether an event is about the bucket of a connection and a scope. -/
def Event.concerns (connectionId : ConnectionId) (scope : RoomRateLimitScope) : Event → Bool
  | .check _ connectionId' scope' => connectionId' = connectionId ∧ scope' = scope
  | .clear connectionId' => connectionId' = connectionId

def Answer.concerns (connectionId : ConnectionId) (scope : RoomRateLimitScope)
    (answer : Answer) : Bool :=
  answer.connectionId = connectionId ∧ answer.scope = scope

/-! ### Keys -/

theorem text_injective {scope scope' : RoomRateLimitScope} (h : scope.text = scope'.text) :
    scope = scope' := by
  revert h
  cases scope <;> cases scope' <;> decide

theorem colon_notMem_text (scope : RoomRateLimitScope) : ':' ∉ scope.text.toList := by
  cases scope <;> decide

theorem toList_bucketKey (connectionId : ConnectionId) (scope : RoomRateLimitScope) :
    (bucketKey connectionId scope).toList =
      connectionId.val.toList ++ ':' :: scope.text.toList := by
  simp [bucketKey]

theorem bucketKey_inj {connectionId connectionId' : ConnectionId}
    {scope scope' : RoomRateLimitScope} :
    bucketKey connectionId scope = bucketKey connectionId' scope' ↔
      connectionId = connectionId' ∧ scope = scope' := by
  constructor
  · intro h
    have hlist := congrArg String.toList h
    rw [toList_bucketKey, toList_bucketKey,
      append_cons_inj_of_notMem connectionId.2 (colon_notMem_text scope)] at hlist
    obtain ⟨hid, -, hscope⟩ := hlist
    exact ⟨Subtype.ext (String.toList_inj.1 hid), text_injective (String.toList_inj.1 hscope)⟩
  · rintro ⟨rfl, rfl⟩
    rfl

theorem isPrefixOf_bucketKey (connectionId connectionId' : ConnectionId)
    (scope : RoomRateLimitScope) :
    (connectionId.val ++ ":").toList.isPrefixOf (bucketKey connectionId' scope).toList =
      decide (connectionId = connectionId') := by
  rw [Bool.eq_iff_iff, isPrefixOf_iff_prefix, decide_eq_true_eq, toList_bucketKey]
  constructor
  · rintro ⟨rest, hrest⟩
    have hlist : connectionId.val.toList ++ ':' :: rest =
        connectionId'.val.toList ++ ':' :: scope.text.toList := by
      simpa using hrest
    have hparts := (append_cons_inj_of_notMem connectionId'.2 (colon_notMem_text scope)).1
      hlist.symm
    exact Subtype.ext (String.toList_inj.1 hparts.1).symm
  · rintro rfl
    exact ⟨scope.text.toList, by simp⟩

/-! ### One bucket -/

section Buckets

variable {rateLimit : Option RateLimit} {rateBuckets rateBuckets' : RateBuckets}
  {connectionId : ConnectionId} {scope : RoomRateLimitScope}

theorem lookup_clearRateBuckets (connectionId' : ConnectionId) :
    (clearRateBuckets rateBuckets connectionId').lookup (bucketKey connectionId scope) =
      if connectionId' = connectionId then none
      else rateBuckets.lookup (bucketKey connectionId scope) := by
  have h := Assoc.lookup_restrict
    (fun key => !(connectionId'.val ++ ":").toList.isPrefixOf key.toList) rateBuckets
    (bucketKey connectionId scope)
  rw [Assoc.restrict] at h
  rw [clearRateBuckets, h, isPrefixOf_bucketKey]
  by_cases hid : connectionId' = connectionId <;> simp [hid]

/-- Two rooms whose bucket for a connection and a scope is the same. -/
def SameBucket (connectionId : ConnectionId) (scope : RoomRateLimitScope)
    (rateBuckets rateBuckets' : RateBuckets) : Prop :=
  rateBuckets.lookup (bucketKey connectionId scope) =
    rateBuckets'.lookup (bucketKey connectionId scope)

theorem step_of_not_concerns {event : Event} (h : ¬event.concerns connectionId scope) :
    SameBucket connectionId scope (step rateLimit rateBuckets event) rateBuckets := by
  cases event with
  | check now connectionId' scope' =>
    refine Assoc.lookup_set_of_ne _ (fun heq => h ?_) _
    obtain ⟨rfl, rfl⟩ := bucketKey_inj.1 heq
    simp [Event.concerns]
  | clear connectionId' =>
    have hid : connectionId' ≠ connectionId := by simpa [Event.concerns] using h
    rw [SameBucket, step, lookup_clearRateBuckets, if_neg hid]

theorem report_of_not_concerns {event : Event} (h : ¬event.concerns connectionId scope) :
    (report rateLimit rateBuckets event).filter (Answer.concerns connectionId scope) = [] := by
  cases event with
  | check now connectionId' scope' =>
    refine filter_eq_nil_iff.2 fun answer hanswer => ?_
    rw [mem_singleton.1 hanswer]
    exact h
  | clear connectionId' => rfl

variable (rateLimit) in
theorem step_of_concerns {event : Event} (h : event.concerns connectionId scope)
    (hsame : SameBucket connectionId scope rateBuckets rateBuckets') :
    report rateLimit rateBuckets event = report rateLimit rateBuckets' event ∧
      SameBucket connectionId scope (step rateLimit rateBuckets event)
        (step rateLimit rateBuckets' event) := by
  unfold SameBucket at hsame ⊢
  cases event with
  | check now connectionId' scope' =>
    obtain ⟨rfl, rfl⟩ : connectionId' = connectionId ∧ scope' = scope := by
      simpa [Event.concerns] using h
    simp only [report, step, checkRateLimit, hsame, Assoc.lookup_set_self, and_self]
  | clear connectionId' =>
    obtain rfl : connectionId' = connectionId := by simpa [Event.concerns] using h
    simp only [report, step, lookup_clearRateBuckets, if_true, and_self]

end Buckets

/-- What is answered to a connection in a scope is what would be answered if there were no other
connections and scopes. -/
theorem answers_apart (rateLimit : Option RateLimit) (events : List Event)
    (connectionId : ConnectionId) (scope : RoomRateLimitScope) :
    (answers rateLimit events).filter (Answer.concerns connectionId scope) =
      (answers rateLimit (events.filter (Event.concerns connectionId scope))).filter
        (Answer.concerns connectionId scope) := by
  suffices h : ∀ rateBuckets rateBuckets', SameBucket connectionId scope rateBuckets rateBuckets' →
      (Runs.log (step rateLimit) (report rateLimit) rateBuckets events).filter
          (Answer.concerns connectionId scope) =
        (Runs.log (step rateLimit) (report rateLimit) rateBuckets'
          (events.filter (Event.concerns connectionId scope))).filter
          (Answer.concerns connectionId scope) from h [] [] rfl
  induction events with
  | nil => exact fun _ _ _ => rfl
  | cons event events ih =>
    intro rateBuckets rateBuckets' hsame
    rw [Runs.log, filter_append]
    by_cases hconcerns : event.concerns connectionId scope
    · obtain ⟨hreport, hstep⟩ := step_of_concerns rateLimit hconcerns hsame
      rw [filter_cons_of_pos hconcerns, Runs.log, filter_append, hreport, ih _ _ hstep]
    · rw [filter_cons_of_neg hconcerns, report_of_not_concerns hconcerns, nil_append]
      exact ih _ _ ((step_of_not_concerns hconcerns).trans hsame)

/-! ### The bound -/

section Bound

variable {rateLimit : Option RateLimit} {connectionId : ConnectionId} {scope : RoomRateLimitScope}

theorem refillAndTake_eq (m now : ℚ) (bucket : RateBucket) :
    let taken := TokenBucket.take m (m / 1000) ⟨bucket.tokens, bucket.lastRefill⟩ now
    refillAndTake m now bucket = (taken.1, ⟨taken.2.level, taken.2.last⟩) := by
  have hrefill : (now - bucket.lastRefill) / 1000 * m = m / 1000 * (now - bucket.lastRefill) := by
    ring
  unfold refillAndTake TokenBucket.take TokenBucket.Bucket.at
  dsimp only
  rw [hrefill]
  split_ifs <;> rfl

theorem log_checks {times : List ℚ} {rateBuckets : RateBuckets} {bucket : RateBucket}
    (h : ∀ now ∈ times.head?, (rateBuckets.lookup (bucketKey connectionId scope)).getD
      ⟨maxActions rateLimit scope, now⟩ = bucket) :
    Runs.log (step rateLimit) (report rateLimit) rateBuckets
        (times.map fun now => .check now connectionId scope) =
      (TokenBucket.log (maxActions rateLimit scope) (maxActions rateLimit scope / 1000)
        ⟨bucket.tokens, bucket.lastRefill⟩ times).map
          fun answer => ⟨answer.1, connectionId, scope, answer.2⟩ := by
  induction times generalizing rateBuckets bucket with
  | nil => rfl
  | cons now times ih =>
    have hbucket := h now rfl
    have htake := refillAndTake_eq (maxActions rateLimit scope) now bucket
    have hnext : ∀ later ∈ times.head?,
        ((step rateLimit rateBuckets (.check now connectionId scope)).lookup
          (bucketKey connectionId scope)).getD ⟨maxActions rateLimit scope, later⟩ =
        (refillAndTake (maxActions rateLimit scope) now bucket).2 := by
      intro later _
      rw [step, checkRateLimit, Assoc.lookup_set_self, hbucket]
      rfl
    rw [map_cons, Runs.log, ih hnext, TokenBucket.log, map_cons, report, checkRateLimit,
      hbucket, htake]
    rfl

theorem filter_concerns {events : List Event} (hstays : Event.clear connectionId ∉ events) :
    events.filter (Event.concerns connectionId scope) =
      ((events.filter (Event.concerns connectionId scope)).filterMap Event.now?).map
        fun now => .check now connectionId scope := by
  induction events with
  | nil => rfl
  | cons event events ih =>
    obtain ⟨hfirst, hstays⟩ := not_or.1 (mem_cons.not.1 hstays)
    have ih := ih hstays
    by_cases hconcerns : event.concerns connectionId scope
    · rw [filter_cons_of_pos hconcerns]
      cases event with
      | check now connectionId' scope' =>
        obtain ⟨rfl, rfl⟩ : connectionId' = connectionId ∧ scope' = scope := by
          simpa [Event.concerns] using hconcerns
        have hnow : (Event.check now connectionId' scope').now? = some now := rfl
        rw [filterMap_cons_some hnow, map_cons, ← ih]
      | clear connectionId' =>
        have hid : connectionId' = connectionId := by simpa [Event.concerns] using hconcerns
        exact absurd (congrArg Event.clear hid).symm hfirst
    · rw [filter_cons_of_neg hconcerns]
      exact ih

/-- How many calls for a connection and a scope return `true` in a window. -/
def acceptedWithin (connectionId : ConnectionId) (scope : RoomRateLimitScope) (start length : ℚ)
    (answers : List Answer) : ℕ :=
  ((answers.filter (Answer.concerns connectionId scope)).filter fun answer =>
    answer.accepted ∧ start ≤ answer.now ∧ answer.now ≤ start + length).length

def Clocked (events : List Event) : Prop := (events.filterMap Event.now?).Pairwise (· ≤ ·)

/-- No window has more accepted calls than the limit allows, and no connection or scope has a part
in what is answered to another. -/
theorem within_limit (rateLimit : Option RateLimit) (events : List Event)
    (connectionId : ConnectionId) (scope : RoomRateLimitScope)
    (hlimit : 0 < maxActions rateLimit scope) (hclock : Clocked events) :
    (Event.clear connectionId ∉ events → ∀ start length, 0 ≤ length →
      (acceptedWithin connectionId scope start length (answers rateLimit events) : ℚ) ≤
        maxActions rateLimit scope + maxActions rateLimit scope * length / 1000) ∧
    (answers rateLimit events).filter (Answer.concerns connectionId scope) =
      (answers rateLimit (events.filter (Event.concerns connectionId scope))).filter
        (Answer.concerns connectionId scope) := by
  refine ⟨fun hstays start length hlength => ?_, answers_apart rateLimit events connectionId scope⟩
  have hsorted : ((events.filter (Event.concerns connectionId scope)).filterMap
      Event.now?).Pairwise (· ≤ ·) := List.Pairwise.sublist (filter_sublist.filterMap _) hclock
  rw [acceptedWithin, answers_apart, filter_concerns hstays, answers]
  generalize (events.filter (Event.concerns connectionId scope)).filterMap Event.now? = times at *
  generalize hm : maxActions rateLimit scope = m at *
  have hbucket : ∀ now ∈ times.head?, (([] : RateBuckets).lookup
      (bucketKey connectionId scope)).getD ⟨maxActions rateLimit scope, now⟩ =
        ⟨m, times.headD 0⟩ := by
    intro now hnow
    rw [List.headD_eq_head?_getD, hnow, hm]
    rfl
  have hlast : ∀ now ∈ times, times.headD 0 ≤ now := by
    cases times with
    | nil => exact forall_mem_nil _
    | cons first times =>
      exact forall_mem_cons.2 ⟨le_rfl, (pairwise_cons.1 hsorted).1⟩
  have hrate : 0 ≤ m / 1000 := div_nonneg hlimit.le (by norm_num)
  have hwindow : (((TokenBucket.log m (m / 1000) ⟨m, times.headD 0⟩ times).filter
      (TokenBucket.inWindow start length)).length : ℚ) ≤ m + m / 1000 * length :=
    TokenBucket.length_inWindow_le hlimit.le hrate hsorted hlimit.le hlast hlength
  have hall : ∀ answers : List (ℚ × Bool),
      ((answers.map fun answer => (⟨answer.1, connectionId, scope, answer.2⟩ : Answer)).filter
        (Answer.concerns connectionId scope)) =
      answers.map fun answer => ⟨answer.1, connectionId, scope, answer.2⟩ := by
    intro answers
    refine filter_eq_self.2 fun answer hanswer => ?_
    obtain ⟨p, -, rfl⟩ := mem_map.1 hanswer
    simp [Answer.concerns]
  rw [log_checks hbucket, hm, hall, filter_map, length_map]
  calc _ ≤ m + m / 1000 * length := hwindow
    _ = m + m * length / 1000 := by ring

/-- A connection, and a call a second before another. -/
def firstConnection : ConnectionId := ⟨"1f0c", by decide⟩

def twoCalls : List Event :=
  [.check 0 firstConnection .signals, .check 1000 firstConnection .signals]

theorem within_limit_two :
    (acceptedWithin firstConnection .signals 0 1000 (answers (some ⟨20, some 2, none⟩) twoCalls) :
      ℚ) ≤ 2 + 2 * 1000 / 1000 :=
  (within_limit (some ⟨20, some 2, none⟩) twoCalls firstConnection .signals
    (by norm_num [maxActions]) (by simp [Clocked, twoCalls, Event.now?])).1
    (by simp [twoCalls]) 0 1000 (by norm_num)

end Bound

end EdgeBase.RoomRateLimit
