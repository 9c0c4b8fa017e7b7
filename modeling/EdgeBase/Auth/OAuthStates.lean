import EdgeBase.Lib.Runs
import Mathlib.Algebra.Order.Ring.Int
import Mathlib.Data.List.Infix

/-!
# The coordinator of OAuth states and completions

One `AuthDO` is addressed by the key of a state, and handles one request at a time.  A state is
consumed once; a completion is claimed for as long as a lease runs, taken over when the lease is
over, and finished by one result that every later claim returns.

* `AuthDO`, `AuthDO.handle` : the record of the key, and what a request does to it.
* `AuthDO.step` : requests and alarms, while the clock goes on.
* `AuthDO.coordinates_run` : what holds in every order of the requests.
-/

namespace EdgeBase

open Option

namespace Auth

structure OAuthCoordinatorRecord where
  value : Option String
  expiresAt : ℤ
  claimId : Option String := none
  leaseUntil : Option ℤ := none
  completedValue : Option String := none
  deriving DecidableEq

/-- The storage of an `AuthDO` for its key, its alarm, and the clock. -/
structure AuthDO where
  record : Option OAuthCoordinatorRecord := none
  alarm : Option ℤ := none
  now : ℤ
  deriving DecidableEq

/-- The requests of `oauth-state-store.ts`. -/
inductive OAuthRequest where
  | consume
  | claim (claimId : String) (leaseMs : ℤ)
  | renew (claimId : String) (leaseMs : ℤ)
  | checkpoint (claimId value : String)
  | complete (claimId value : String) (expiresAt : ℤ)
  | release (claimId : String)
  deriving DecidableEq

/-- What an `AuthDO` answers. -/
inductive OAuthResponse where
  /-- Status 400: the lease is out of range. -/
  | invalid
  | consumed (value : Option String) (coordinated : Bool)
  | missing
  | completed (value : String)
  | inProgress
  | claimed (value : Option String)
  | renewed (renewed : Bool)
  /-- Status 409 where nothing is stored. -/
  | stored (stored : Bool)
  | released
  deriving DecidableEq

/-- A text that counts as a value, as it does in a condition. -/
def truthy (s : Option String) : Option String := s.filter (· ≠ "")

namespace AuthDO

variable (d : AuthDO)

/-- `setAlarm`, where no earlier alarm is set. -/
def scheduleAlarm (at' : ℤ) : AuthDO :=
  match d.alarm with
  | none => { d with alarm := some at' }
  | some current => if at' < current then { d with alarm := some at' } else d

/-- `POST /internal/oauth-state`. -/
def put (value : String) (expiresAt : ℤ) : AuthDO :=
  { d with record := some { value := some value, expiresAt } }.scheduleAlarm expiresAt

/-- `DELETE /internal/oauth-state`. -/
def consume : OAuthResponse × AuthDO :=
  match d.record with
  | none => (.consumed none false, d)
  | some record =>
    match record.value with
    | none => (.consumed none true, d)
    | some value =>
      let d := { d with record := some { value := none, expiresAt := record.expiresAt } }
      if record.expiresAt < d.now then (.consumed none true, d)
      else (.consumed (some value) true, d)

def validLease (leaseMs : ℤ) : Bool := 1000 ≤ leaseMs && leaseMs ≤ 60000

/-- A claim or a renewal extends the lease, and the record outlives it. -/
def lease (record : OAuthCoordinatorRecord) (leaseMs : ℤ) : AuthDO :=
  let expiresAt := max record.expiresAt (d.now + leaseMs + 5000)
  { d with record := some { record with leaseUntil := some (d.now + leaseMs), expiresAt } }
    |>.scheduleAlarm expiresAt

/-- `/internal/oauth-completion/claim`. -/
def claim (claimId : String) (leaseMs : ℤ) : OAuthResponse × AuthDO :=
  if !validLease leaseMs then (.invalid, d)
  else
    match d.record with
    | none => (.missing, d)
    | some record =>
      if record.expiresAt ≤ d.now then
        -- an expiry of zero is left to the alarm
        (.missing, if record.expiresAt ≠ 0 then { d with record := none } else d)
      else
        match truthy record.completedValue with
        | some value => (.completed value, d)
        | none =>
          if record.value = none then (.missing, d)
          else if (truthy record.claimId).any (· ≠ claimId) && d.now < record.leaseUntil.getD 0 then
            (.inProgress, d)
          else (.claimed record.value, d.lease { record with claimId := some claimId } leaseMs)

/-- The record, if a claim id may write to it. -/
def owned (claimId : String) : Option OAuthCoordinatorRecord :=
  d.record.filter fun record => record.claimId = some claimId && truthy record.completedValue = none

/-- `/internal/oauth-completion/renew`. -/
def renew (claimId : String) (leaseMs : ℤ) : OAuthResponse × AuthDO :=
  if !validLease leaseMs then (.invalid, d)
  else
    match d.owned claimId with
    | none => (.renewed false, d)
    | some record => (.renewed true, d.lease record leaseMs)

/-- `/internal/oauth-completion/checkpoint`. -/
def checkpoint (claimId value : String) : OAuthResponse × AuthDO :=
  match d.owned claimId with
  | none => (.stored false, d)
  | some record => (.stored true, { d with record := some { record with value := some value } })

/-- `/internal/oauth-completion/complete`. -/
def complete (claimId value : String) (expiresAt : ℤ) : OAuthResponse × AuthDO :=
  match d.owned claimId with
  | none => (.stored false, d)
  | some _ =>
    (.stored true, { d with
      record := some { value := none, completedValue := some value, expiresAt } }.scheduleAlarm
        expiresAt)

/-- `/internal/oauth-completion/release`. -/
def release (claimId : String) : OAuthResponse × AuthDO :=
  match d.owned claimId with
  | none => (.released, d)
  | some record =>
    (.released, { d with record := some { record with claimId := none, leaseUntil := none } })

def handle : OAuthRequest → OAuthResponse × AuthDO
  | .consume => d.consume
  | .claim claimId leaseMs => d.claim claimId leaseMs
  | .renew claimId leaseMs => d.renew claimId leaseMs
  | .checkpoint claimId value => d.checkpoint claimId value
  | .complete claimId value expiresAt => d.complete claimId value expiresAt
  | .release claimId => d.release claimId

/-- `alarm`. -/
def fire : AuthDO :=
  match d.record with
  | none => { d with alarm := none }
  | some record =>
    let effectiveExpiry := max record.expiresAt (record.leaseUntil.getD 0)
    if effectiveExpiry ≤ d.now then { d with record := none, alarm := none }
    else { d with alarm := some effectiveExpiry }

/-- What happens to an `AuthDO`. -/
inductive Action where
  | request (r : OAuthRequest)
  /-- The alarm is run, on time, late or once more. -/
  | alarm
  | wait (ms : ℕ)
  deriving DecidableEq

def step : Action → AuthDO
  | .request r => (d.handle r).2
  | .alarm => d.fire
  | .wait ms => { d with now := d.now + ms }

def handsOut : Action → List String
  | .request .consume =>
    match d.consume.1 with
    | .consumed value _ => value.toList
    | _ => []
  | _ => []

/-! ### Who may write -/

/-- A claim id may write a checkpoint or a result. -/
def Commits (claimId : String) : Prop :=
  (∃ value, (d.checkpoint claimId value).1 = .stored true) ∨
    ∃ value expiresAt, (d.complete claimId value expiresAt).1 = .stored true

variable {d} {a b : String}

theorem scheduleAlarm_record (d : AuthDO) (at' : ℤ) : (d.scheduleAlarm at').record = d.record := by
  unfold scheduleAlarm
  repeat' split
  all_goals rfl

theorem scheduleAlarm_now (d : AuthDO) (at' : ℤ) : (d.scheduleAlarm at').now = d.now := by
  unfold scheduleAlarm
  repeat' split
  all_goals rfl

theorem lease_record (d : AuthDO) (record : OAuthCoordinatorRecord) (leaseMs : ℤ) :
    (d.lease record leaseMs).record = some { record with
      leaseUntil := some (d.now + leaseMs)
      expiresAt := max record.expiresAt (d.now + leaseMs + 5000) } := scheduleAlarm_record _ _

theorem owned_eq_some {record : OAuthCoordinatorRecord} : d.owned a = some record ↔
    d.record = some record ∧ record.claimId = some a ∧ truthy record.completedValue = none := by
  simp [owned, filter_eq_some_iff]

theorem owned_eq_none (h : ∀ record ∈ d.record, record.claimId ≠ some a) : d.owned a = none :=
  eq_none_iff_forall_ne_some.2 fun record howned =>
    h record (owned_eq_some.1 howned).1 (owned_eq_some.1 howned).2.1

theorem Commits.claimId (h : d.Commits a) : ∃ record ∈ d.record, record.claimId = some a := by
  cases howned : d.owned a with
  | some record =>
    obtain ⟨hrecord, hclaim, -⟩ := owned_eq_some.1 howned
    exact ⟨record, hrecord, hclaim⟩
  | none =>
    rcases h with ⟨value, h⟩ | ⟨value, expiresAt, h⟩
    · simp [checkpoint, howned] at h
    · simp [complete, howned] at h

/-! ### What a step does to the record -/

/-- What an action may do to the record at a time. -/
inductive Moves (now : ℤ) :
    Action → Option OAuthCoordinatorRecord → Option OAuthCoordinatorRecord → Prop where
  | stay (action : Action) (record : Option OAuthCoordinatorRecord) : Moves now action record record
  | expire {action : Action} {record : OAuthCoordinatorRecord} (h : record.expiresAt ≤ now)
      (hlease : action = .alarm → ∀ leaseUntil ∈ record.leaseUntil, leaseUntil ≤ now) :
      Moves now action (some record) none
  | consume {record : OAuthCoordinatorRecord} (hvalue : record.value ≠ none) :
      Moves now (.request .consume) (some record)
        (some { value := none, expiresAt := record.expiresAt })
  | claim {record : OAuthCoordinatorRecord} {claimId : String} {leaseMs : ℤ}
      (hvalue : record.value ≠ none) (hcompleted : truthy record.completedValue = none) :
      Moves now (.request (.claim claimId leaseMs)) (some record) (some { record with
        claimId := some claimId
        leaseUntil := some (now + leaseMs)
        expiresAt := max record.expiresAt (now + leaseMs + 5000) })
  /-- The holder of the claim goes on: it keeps the claim or gives it up. -/
  | write {record record' : OAuthCoordinatorRecord} {action : Action} {claimId : String}
      (howned : record.claimId = some claimId) (hcompleted : truthy record.completedValue = none)
      (hclaim : record'.claimId = some claimId ∨ record'.claimId = none) :
      Moves now action (some record) (some record')

theorem Moves.of_owned {record record' : OAuthCoordinatorRecord} (howned : d.owned a = some record)
    (hclaim : record'.claimId = record.claimId ∨ record'.claimId = none) {now : ℤ}
    {action : Action} : Moves now action d.record (some record') := by
  obtain ⟨hrecord, ha, hcompleted⟩ := owned_eq_some.1 howned
  rw [hrecord]
  exact .write ha hcompleted (ha ▸ hclaim)

theorem moves_consume (d : AuthDO) : Moves d.now (.request .consume) d.record d.consume.2.record := by
  unfold AuthDO.consume
  split
  · exact .stay _ _
  · next record hrecord =>
    rw [hrecord]
    split
    · exact hrecord ▸ .stay _ _
    · next value hvalue =>
      have hne : record.value ≠ none := by simp [hvalue]
      dsimp only
      split <;> exact .consume hne

theorem moves_claim (d : AuthDO) (claimId : String) (leaseMs : ℤ) :
    Moves d.now (.request (.claim claimId leaseMs)) d.record (d.claim claimId leaseMs).2.record := by
  unfold AuthDO.claim
  split
  · exact .stay _ _
  · split
    · exact .stay _ _
    · next record hrecord =>
      have hstay : Moves d.now (.request (.claim claimId leaseMs)) (some record) d.record :=
        hrecord ▸ .stay _ _
      rw [hrecord]
      split
      · next hexpired =>
        dsimp only
        split
        · exact .expire hexpired nofun
        · exact hstay
      · split
        · exact hstay
        · next hcompleted =>
          split
          · exact hstay
          · next hvalue =>
            split
            · exact hstay
            · rw [lease_record]
              exact .claim hvalue hcompleted

theorem moves_step (d : AuthDO) (action : Action) :
    Moves d.now action d.record (d.step action).record := by
  cases action with
  | wait ms => exact .stay _ _
  | alarm =>
    simp only [step, fire]
    split
    · exact .stay _ _
    · next record hrecord =>
      rw [hrecord]
      split
      · next hexpired =>
        refine .expire (le_of_max_le_left hexpired) fun _ leaseUntil hlease => ?_
        have := le_of_max_le_right hexpired
        rwa [hlease] at this
      · exact hrecord ▸ .stay _ _
  | request r =>
    cases r with
    | consume => exact moves_consume d
    | claim claimId leaseMs => exact moves_claim d claimId leaseMs
    | renew claimId leaseMs =>
      simp only [step, handle, renew]
      split
      · exact .stay _ _
      · split
        · exact .stay _ _
        · next howned =>
          rw [lease_record]
          refine .of_owned howned ?_
          exact .inl rfl
    | checkpoint claimId value =>
      simp only [step, handle, checkpoint]
      split
      · exact .stay _ _
      · next howned =>
        refine .of_owned howned ?_
        exact .inl rfl
    | complete claimId value expiresAt =>
      simp only [step, handle, complete]
      split
      · exact .stay _ _
      · next howned =>
        rw [scheduleAlarm_record]
        exact .of_owned howned (.inr rfl)
    | release claimId =>
      simp only [step, handle, release]
      split
      · exact .stay _ _
      · next howned => exact .of_owned howned (.inr rfl)

theorem now_handle (d : AuthDO) (r : OAuthRequest) : (d.handle r).2.now = d.now := by
  cases r <;> simp only [handle, consume, claim, renew, checkpoint, complete, release] <;>
    repeat' split
  all_goals simp [lease, scheduleAlarm_now]

theorem now_le_step (d : AuthDO) (action : Action) : d.now ≤ (d.step action).now := by
  cases action with
  | request r => exact (now_handle d r).ge
  | wait ms => simp [step]
  | alarm =>
    simp only [step, fire]
    repeat' split
    all_goals exact le_rfl

/-! ### What every order keeps -/

/-- Nothing is left to hand out, and nobody holds a claim. -/
def Spent (record : Option OAuthCoordinatorRecord) : Prop :=
  ∀ r ∈ record, r.value = none ∧ r.claimId = none

/-- A claim id holds no claim. -/
def Barred (claimId : String) (record : Option OAuthCoordinatorRecord) : Prop :=
  ∀ r ∈ record, r.claimId ≠ some claimId

variable {now : ℤ} {action : Action} {record record' : Option OAuthCoordinatorRecord}

theorem Moves.spent (h : Moves now action record record') (hspent : Spent record) :
    Spent record' := by
  cases h with
  | stay => exact hspent
  | expire => exact nofun
  | consume => simp [Spent]
  | claim hvalue => exact absurd (hspent _ rfl).1 hvalue
  | write howned => simp [(hspent _ rfl).2] at howned

theorem Moves.barred (h : Moves now action record record') (hbarred : Barred a record)
    (hclaim : ∀ leaseMs, action ≠ .request (.claim a leaseMs)) : Barred a record' := by
  cases h with
  | stay => exact hbarred
  | expire => exact nofun
  | consume => simp [Barred]
  | claim =>
    rintro r hr hclaimed
    obtain rfl := some.inj hr
    obtain rfl := some.inj hclaimed
    exact hclaim _ rfl
  | write howned _ hwritten =>
    have hne := hbarred _ rfl
    rw [howned] at hne
    rintro r hr hclaimed
    obtain rfl := some.inj hr
    rcases hwritten with hwritten | hwritten
    · exact hne (hwritten.symm.trans hclaimed)
    · simp [hwritten] at hclaimed

/-- What a claim that has been completed leaves. -/
def result (value : String) (expiresAt : ℤ) : OAuthCoordinatorRecord :=
  { value := none, completedValue := some value, expiresAt }

/-- A result stays as it is until it expires. -/
def Finished (value : String) (expiresAt : ℤ) (d : AuthDO) : Prop :=
  d.record = some (result value expiresAt) ∨ d.record = none ∧ expiresAt ≤ d.now

theorem Finished.step {value : String} {expiresAt : ℤ} (h : Finished value expiresAt d)
    (action : Action) : Finished value expiresAt (d.step action) := by
  have hmoves := moves_step d action
  have hnow := now_le_step d action
  rcases h with hrecord | ⟨hrecord, hexpired⟩
  · generalize hnext : (d.step action).record = next at hmoves
    rw [hrecord] at hmoves
    cases hmoves with
    | stay => exact .inl hnext
    | expire hexpired => exact .inr ⟨hnext, le_trans hexpired hnow⟩
    | consume hvalue => exact absurd rfl hvalue
    | claim hvalue => exact absurd rfl hvalue
    | write howned => cases howned
  · generalize hnext : (d.step action).record = next at hmoves
    rw [hrecord] at hmoves
    cases hmoves
    exact .inr ⟨hnext, hexpired.trans hnow⟩

/-! ### Runs -/

/-- What is asked of a run: a state is handed out once, one claim id at a time may write, whoever
has been replaced may not, no alarm deletes what is leased, and a result is final. -/
structure Coordinates (d : AuthDO) (actions : List Action) : Prop where
  consumedOnce : (Runs.log step handsOut d actions).length ≤ 1
  exclusive : ∀ a b, (Runs.last step d actions).Commits a → (Runs.last step d actions).Commits b →
    a = b
  /-- A claimant that has been replaced, and has not claimed again, writes nothing. -/
  replaced : ∀ as as' a b leaseMs value, actions = as ++ .request (.claim b leaseMs) :: as' →
    ((Runs.last step d as).claim b leaseMs).1 = .claimed value → a ≠ b →
    (∀ leaseMs, .request (.claim a leaseMs) ∉ as') →
      ¬(Runs.last step d actions).Commits a ∧
        ((Runs.last step d actions).release a).2 = Runs.last step d actions
  leased : Runs.Along step (fun d action => action = .alarm →
    ∀ record ∈ d.record, ∀ leaseUntil ∈ record.leaseUntil, d.now < leaseUntil →
      d.fire.record = some record) d actions
  /-- A result that is not empty is what every claim returns until it expires. -/
  final : ∀ as as' a value expiresAt,
    actions = as ++ .request (.complete a value expiresAt) :: as' →
    ((Runs.last step d as).complete a value expiresAt).1 = .stored true → value ≠ "" →
      (∀ record ∈ (Runs.last step d actions).record, record.completedValue = some value) ∧
        ((Runs.last step d actions).now < expiresAt → ∀ b leaseMs, validLease leaseMs = true →
          ((Runs.last step d actions).claim b leaseMs).1 = .completed value)

theorem commits_unique (ha : d.Commits a) (hb : d.Commits b) : a = b := by
  obtain ⟨record, hrecord, hclaim⟩ := ha.claimId
  obtain ⟨record', hrecord', hclaim'⟩ := hb.claimId
  obtain rfl := some.inj (hrecord.symm.trans hrecord')
  exact some.inj (hclaim.symm.trans hclaim')

theorem spent_of_handsOut {text : String} (h : text ∈ d.handsOut action) :
    Spent (d.step action).record := by
  cases action with
  | wait ms => cases h
  | alarm => cases h
  | request r =>
    cases r with
    | consume =>
      simp only [handsOut, consume] at h
      simp only [step, handle, consume]
      cases hrecord : d.record with
      | none => simp [hrecord] at h
      | some record =>
        cases hvalue : record.value with
        | none => simp [hrecord, hvalue] at h
        | some value =>
          simp only [hvalue]
          split <;> simp [Spent]
    | claim | renew | checkpoint | complete | release => cases h

theorem consumedOnce_run (d : AuthDO) (actions : List Action) :
    (Runs.log step handsOut d actions).length ≤ 1 := by
  have hrun : Runs.Along step (fun _ _ => True) d actions := .of_forall fun _ _ => trivial
  have hpairwise : (Runs.log step handsOut d actions).Pairwise fun _ _ => False := by
    -- once something has been handed out, the state stays spent, and a spent one hands out nothing
    refine Runs.pairwise_log (I := fun _ => True) (J := fun _ d => Spent d.record) hrun trivial
      (fun _ _ _ _ => trivial) (fun d action _ _ => ?_) (fun d action _ _ _ h => spent_of_handsOut h)
      (fun d action _ _ _ h => (moves_step d action).spent h) (fun d action text _ _ h text' h' => ?_)
    · cases action with
      | wait ms => exact .nil
      | alarm => exact .nil
      | request r =>
        cases r with
        | consume =>
          simp only [handsOut]
          split
          · next value _ _ => cases value <;> simp
          · exact .nil
        | claim | renew | checkpoint | complete | release => exact .nil
    · cases action with
      | wait ms => cases h'
      | alarm => cases h'
      | request r =>
        cases r with
        | consume =>
          simp only [handsOut, consume] at h'
          cases hrecord : d.record with
          | none => simp [hrecord] at h'
          | some record => simp [hrecord, (h record hrecord).1] at h'
        | claim | renew | checkpoint | complete | release => cases h'
  match hlog : Runs.log step handsOut d actions with
  | [] => exact Nat.zero_le 1
  | [_] => exact le_rfl
  | _ :: _ :: _ =>
    rw [hlog, List.pairwise_cons] at hpairwise
    exact absurd List.mem_cons_self (hpairwise.1 _)

theorem barred_claim {leaseMs : ℤ} {value : Option String}
    (h : (d.claim b leaseMs).1 = .claimed value) (hne : a ≠ b) :
    Barred a (d.claim b leaseMs).2.record := by
  revert h
  unfold claim
  repeat' split
  all_goals first
    | intro hclaim; cases hclaim; done
    | intro _ r hr hclaimed
      rw [lease_record] at hr
      obtain rfl := some.inj hr
      exact hne (some.inj hclaimed).symm

theorem finished_complete {value : String} {expiresAt : ℤ}
    (h : (d.complete a value expiresAt).1 = .stored true) :
    Finished value expiresAt (d.complete a value expiresAt).2 := by
  revert h
  unfold complete
  split
  · exact nofun
  · exact fun _ => .inl (scheduleAlarm_record _ _)

theorem Finished.claim {value : String} {expiresAt : ℤ} (h : Finished value expiresAt d)
    (hvalue : value ≠ "") (hnow : d.now < expiresAt) (b : String) {leaseMs : ℤ}
    (hlease : validLease leaseMs = true) : (d.claim b leaseMs).1 = .completed value := by
  rcases h with h | ⟨-, hexpired⟩
  · simp [AuthDO.claim, hlease, h, result, truthy, Option.filter, hvalue, not_le.2 hnow]
  · exact absurd hexpired (not_le.2 hnow)

/-- Whatever the order of the requests and alarms. -/
theorem coordinates_run (text : String) (expiry now : ℤ) (actions : List Action) :
    Coordinates (AuthDO.put { now } text expiry) actions where
  consumedOnce := consumedOnce_run _ actions
  exclusive _ _ := commits_unique
  replaced as as' a b leaseMs value hactions hclaim hne hnot := by
    rw [hactions, Runs.last_append, Runs.last_cons]
    have hrun : Runs.Along step (fun _ action => ∀ leaseMs, action ≠ .request (.claim a leaseMs))
        (step (Runs.last step (AuthDO.put { now } text expiry) as) (.request (.claim b leaseMs)))
        as' := .of_forall fun action haction leaseMs heq => hnot leaseMs (heq ▸ haction)
    have hbarred := (hrun.of_invariant (I := fun d => Barred a d.record) (barred_claim hclaim hne)
      (fun d action h hne => (moves_step d action).barred h hne) fun _ _ _ h => h).2
    refine ⟨fun hcommits => ?_, ?_⟩
    · obtain ⟨record, hrecord, hclaimed⟩ := hcommits.claimId
      exact hbarred record hrecord hclaimed
    · simp only [release, owned_eq_none hbarred]
  leased := by
    have hrun : Runs.Along step (fun _ _ => True) (AuthDO.put { now } text expiry) actions :=
      .of_forall fun _ _ => trivial
    refine hrun.imp fun d action _ _ record hrecord leaseUntil hlease hnow => ?_
    have hrunning : ¬max record.expiresAt (record.leaseUntil.getD 0) ≤ d.now := by
      rw [hlease, getD_some, max_le_iff]
      omega
    simp only [fire, mem_def.1 hrecord, if_neg hrunning]
  final as as' a value expiresAt hactions hstored hvalue := by
    rw [hactions, Runs.last_append, Runs.last_cons]
    have hrun : Runs.Along step (fun _ _ => True)
        (step (Runs.last step (AuthDO.put { now } text expiry) as)
          (.request (.complete a value expiresAt)))
        as' := .of_forall fun _ _ => trivial
    have hfinished := (hrun.of_invariant (I := Finished value expiresAt) (finished_complete hstored)
      (fun _ action h _ => h.step action) fun _ _ _ h => h).2
    refine ⟨fun record hrecord => ?_, fun hnow b _ hlease => hfinished.claim hvalue hnow b hlease⟩
    rcases hfinished with h | ⟨h, -⟩
    · obtain rfl := some.inj (h.symm.trans hrecord)
      rfl
    · exact absurd (h.symm.trans hrecord) nofun

/-- A result that is the empty text does not count as one: a claim before its expiry finds nothing. -/
theorem claim_emptyResult :
    let d := ((AuthDO.put { now := 0 } "ticket" 600000).claim "a" 30000).2
    (d.complete "a" "" 600000).1 = .stored true ∧
      ((d.complete "a" "" 600000).2.claim "b" 30000).1 ≠ .completed "" := by
  decide

end AuthDO

end Auth

end EdgeBase
