import EdgeBase.Auth.Tables

/-!
# Reservations of identities

The email, phone and OAuth indexes of `auth-d1.ts`.  A key is reserved for a user, confirmed by the
holder of the reservation, and may be taken over when the reservation has expired.  Every call is a
few statements, and the statements of different calls interleave.

* `IndexPhase` : what a call has still to do; the calls of the three indexes are `registerEmailPending`,
  `confirmEmail` and their likes.
-/

namespace EdgeBase

open List Table

namespace Auth

/-- `PENDING_EXPIRY_MINUTES`, in milliseconds. -/
def pendingExpiry : Int := 5 * 60000

section Rows

variable {κ : Type} (key : κ) (userId reservationId : String) (r : Reservation κ)

/-- A pending reservation that is older than a cutoff. -/
def Reservation.Stale (cutoff : Int) : Prop := r.status = .pending ∧ r.createdAt < cutoff

def Reservation.Pending : Prop :=
  r.key = key ∧ r.userId = userId ∧ r.status = .pending ∧ r.reservationId = some reservationId

def Reservation.Confirmed : Prop := r.key = key ∧ r.userId = userId ∧ r.status = .confirmed

def Reservation.confirm : Reservation κ := { r with status := .confirmed, reservationId := none }

instance (cutoff : Int) : Decidable (r.Stale cutoff) := inferInstanceAs (Decidable (_ ∧ _))

variable [DecidableEq κ]

instance : Decidable (r.Pending key userId reservationId) :=
  inferInstanceAs (Decidable (_ ∧ _ ∧ _ ∧ _))

instance : Decidable (r.Confirmed key userId) := inferInstanceAs (Decidable (_ ∧ _ ∧ _))

end Rows

structure IndexErrors where
  alreadyRegistered : String
  conflict : String
  lost : String

/-- The errors of `_email_index`. -/
def emailErrors : IndexErrors where
  alreadyRegistered := "EMAIL_ALREADY_REGISTERED"
  conflict := "EMAIL_RESERVATION_CONFLICT"
  lost := "EMAIL_RESERVATION_LOST"

/-- The errors of `_phone_index`. -/
def phoneErrors : IndexErrors where
  alreadyRegistered := "PHONE_ALREADY_REGISTERED"
  conflict := "PHONE_RESERVATION_CONFLICT"
  lost := "PHONE_RESERVATION_LOST"

/-- The errors of `_oauth_index`. -/
def oauthErrors : IndexErrors where
  alreadyRegistered := "OAUTH_ALREADY_LINKED"
  conflict := "OAUTH_RESERVATION_CONFLICT"
  lost := "OAUTH_RESERVATION_LOST"

/-! ### Calls -/

/-- What a call on an index has still to do: its next statement, and what follows. -/
inductive IndexPhase (κ : Type) where
  | cleanOwn (cutoff : Int) (key : κ) (next : IndexPhase κ)
  | cleanOldest (cutoff : Int) (next : IndexPhase κ)
  | reserve (createdAt cutoff : Int) (key : κ) (userId reservationId : String)
  | readReserved (key : κ)
  | confirm (key : κ) (userId reservationId : String)
  | readConfirmed (key : κ) (userId reservationId : String)
  | deletePending (key : κ) (userId reservationId : String)
  | delete (key : κ)
  | deleteForUser (key : κ) (userId : String)
  | lookup (key : κ)
  deriving DecidableEq

inductive IndexResult where
  | reserved (reservationId : String)
  | confirmed
  | deleted (found : Bool)
  | owner (userId : Option String)
  | done
  | thrown (error : String)
  deriving DecidableEq

section Calls

variable (now created : Int) (userId reservationId : String)

def lookupEmail (email : String) : IndexPhase String :=
  .cleanOwn (now - pendingExpiry) email (.cleanOldest (now - pendingExpiry) (.lookup email))

def registerEmailPending (email : String) : IndexPhase String :=
  .reserve created (now - pendingExpiry) email userId reservationId

def confirmEmail (email : String) : IndexPhase String := .confirm email userId reservationId

def deleteEmailPending (email : String) : IndexPhase String :=
  .deletePending email userId reservationId

def deleteEmail (email : String) : IndexPhase String := .delete email

def deleteEmailForUser (email : String) : IndexPhase String := .deleteForUser email userId

def lookupPhone (phone : String) : IndexPhase String :=
  .cleanOwn (now - pendingExpiry) phone (.lookup phone)

def registerPhonePending (phone : String) : IndexPhase String :=
  .reserve created (now - pendingExpiry) phone userId reservationId

def confirmPhone (phone : String) : IndexPhase String := .confirm phone userId reservationId

def deletePhonePending (phone : String) : IndexPhase String :=
  .deletePending phone userId reservationId

def deletePhone (phone : String) : IndexPhase String := .delete phone

def deletePhoneForUser (phone : String) : IndexPhase String := .deleteForUser phone userId

variable (provider providerUserId : String)

def lookupOAuth : IndexPhase (String × String) :=
  .cleanOwn (now - pendingExpiry) (provider, providerUserId) (.lookup (provider, providerUserId))

/-- `registerOAuthPending`, which cleans up before it reserves. -/
def registerOAuthPending : IndexPhase (String × String) :=
  .cleanOldest (now - pendingExpiry)
    (.reserve created (now - pendingExpiry) (provider, providerUserId) userId reservationId)

def confirmOAuth : IndexPhase (String × String) :=
  .confirm (provider, providerUserId) userId reservationId

def deleteOAuthPending : IndexPhase (String × String) :=
  .deletePending (provider, providerUserId) userId reservationId

def deleteOAuth : IndexPhase (String × String) := .delete (provider, providerUserId)

end Calls

/-! ### Statements -/

/-- An index: its errors, and the order in which the engine cleans up. -/
structure Index (κ : Type) where
  errors : IndexErrors
  /-- `ORDER BY createdAt ASC`, with the engine's own order of equal times. -/
  older : Reservation κ → Reservation κ → Bool

section Run

variable {κ : Type} [DecidableEq κ]

/-- A reservation may be taken over when it has expired, and renewed by its holder. -/
def Reservation.Yields (cutoff : Int) (key : κ) (userId reservationId : String)
    (r : Reservation κ) : Prop :=
  r.Stale cutoff ∨ r.Pending key userId reservationId

instance (cutoff : Int) (key : κ) (userId reservationId : String) (r : Reservation κ) :
    Decidable (r.Yields cutoff key userId reservationId) := inferInstanceAs (Decidable (_ ∨ _))

def oldest (index : Index κ) (cutoff : Int) (rows : List (Reservation κ)) : List κ :=
  (((rows.filter (Reservation.Stale · cutoff)).mergeSort index.older).take 10).map Reservation.key

def reservation (createdAt : Int) (key : κ) (userId reservationId : String) : Reservation κ where
  key
  userId
  status := .pending
  reservationId := some reservationId
  createdAt

def reserveKey (createdAt cutoff : Int) (key : κ) (userId reservationId : String)
    (rows : List (Reservation κ)) : List (Reservation κ) :=
  Table.upsert (·.key = key) (Reservation.Yields cutoff key userId reservationId)
    (reservation createdAt key userId reservationId)
    (fun _ => reservation createdAt key userId reservationId) rows

/-- The next statement of a call: the rows after it, and what follows. -/
def IndexPhase.run (index : Index κ) (rows : List (Reservation κ)) :
    IndexPhase κ → List (Reservation κ) × (IndexPhase κ ⊕ IndexResult)
  | .cleanOwn cutoff key next =>
    (Table.delete (fun r => r.key = key ∧ r.Stale cutoff) rows, .inl next)
  | .cleanOldest cutoff next =>
    (Table.delete (fun r => r.key ∈ oldest index cutoff rows) rows, .inl next)
  | .reserve createdAt cutoff key userId reservationId =>
    (reserveKey createdAt cutoff key userId reservationId rows,
      if ∀ r ∈ rows, r.key = key → r.Yields cutoff key userId reservationId then
        .inr (.reserved reservationId)
      else .inl (.readReserved key))
  | .readReserved key =>
    (rows, .inr (.thrown
      (if ((rows.find? (·.key = key)).map Reservation.status) = some .confirmed then
        index.errors.alreadyRegistered
      else index.errors.conflict)))
  | .confirm key userId reservationId =>
    (Table.update (Reservation.Pending key userId reservationId) Reservation.confirm rows,
      if ∃ r ∈ rows, r.Pending key userId reservationId then .inr .confirmed
      else .inl (.readConfirmed key userId reservationId))
  | .readConfirmed key userId _ =>
    (rows, .inr (if ∃ r ∈ rows, r.Confirmed key userId then .confirmed
      else .thrown index.errors.lost))
  | .deletePending key userId reservationId =>
    (Table.delete (Reservation.Pending key userId reservationId) rows,
      .inr (.deleted (∃ r ∈ rows, r.Pending key userId reservationId)))
  | .delete key => (Table.delete (·.key = key) rows, .inr .done)
  | .deleteForUser key userId =>
    (Table.delete (fun r => r.key = key ∧ r.userId = userId) rows, .inr .done)
  | .lookup key =>
    (rows, .inr (.owner
      ((rows.find? fun r => r.key = key ∧ r.status = .confirmed).map Reservation.userId)))

end Run

/-! ### Runs -/

structure IndexState (κ : Type) where
  rows : List (Reservation κ)
  calls : List (ℕ × IndexPhase κ) := []
  deriving DecidableEq

/-- What happens on an index: a call starts, or takes its turn. -/
inductive IndexAction (κ : Type) where
  | call (r : ℕ) (phase : IndexPhase κ)
  | turn (r : ℕ)
  deriving DecidableEq

structure Confirmation (κ : Type) where
  key : κ
  userId : String
  reservationId : String
  deriving DecidableEq

variable {κ : Type} [DecidableEq κ]

/-- A call that is going to reserve a key for a user. -/
def IndexPhase.Reserves (c : Confirmation κ) : IndexPhase κ → Prop
  | .cleanOwn _ _ next => next.Reserves c
  | .cleanOldest _ next => next.Reserves c
  | .reserve _ _ key userId reservationId => c = ⟨key, userId, reservationId⟩
  | _ => False

def IndexPhase.confirmation : IndexPhase κ → Option (Confirmation κ)
  | .confirm key userId reservationId => some ⟨key, userId, reservationId⟩
  | .readConfirmed key userId reservationId => some ⟨key, userId, reservationId⟩
  | _ => none

/-- A statement that deletes a key, for its owner or whoever that is. -/
def IndexPhase.Deletes (r : Reservation κ) (phase : IndexPhase κ) : Prop :=
  phase = .delete r.key ∨ phase = .deleteForUser r.key r.userId

namespace IndexState

variable (index : Index κ)

def step (s : IndexState κ) : IndexAction κ → IndexState κ
  | .call r phase => { s with calls := (r, phase) :: s.calls.filter (·.1 ≠ r) }
  | .turn r =>
    match s.calls.lookup r with
    | none => s
    | some phase =>
      let (rows, next) := phase.run index s.rows
      { rows
        calls := (next.getLeft?.map fun p => (r, p)).toList ++ s.calls.filter (·.1 ≠ r) }

def statement (s : IndexState κ) : IndexAction κ → Option (IndexPhase κ)
  | .call _ _ => none
  | .turn r => s.calls.lookup r

def confirmed (s : IndexState κ) (a : IndexAction κ) : Option (Confirmation κ) :=
  match s.statement a with
  | some phase =>
    if (phase.run index s.rows).2 = .inr .confirmed then phase.confirmation else none
  | none => none

/-- What an action keeps to: no key gets a second owner; a confirmed key stays with its owner
unless it is deleted; and a confirm call completes for the holder of the reservation, or when the
key is confirmed for its user already. -/
structure Exclusive (s : IndexState κ) (a : IndexAction κ) : Prop where
  unique : Table.Unique Reservation.key (s.step index a).rows
  keeps : ∀ r ∈ s.rows, r.status = .confirmed →
    r ∈ (s.step index a).rows ∨ ∃ phase, s.statement a = some phase ∧ phase.Deletes r
  holder : ∀ c, s.confirmed index a = some c →
    (∃ r ∈ s.rows, r.Pending c.key c.userId c.reservationId ∧
      r.confirm ∈ (s.step index a).rows) ∨
    ∃ r ∈ s.rows, r.Confirmed c.key c.userId

/-- A reservation that is not in force, and that no call is about to make. -/
def Replaced (c : Confirmation κ) (s : IndexState κ) : Prop :=
  (∀ r ∈ s.rows, ¬r.Pending c.key c.userId c.reservationId) ∧
    ∀ x ∈ s.calls, ¬x.2.Reserves c

variable {index} {s : IndexState κ} {a : IndexAction κ}

theorem rows_step (index : Index κ) (s : IndexState κ) (a : IndexAction κ) :
    (s.step index a).rows = (s.statement a).elim s.rows fun phase => (phase.run index s.rows).1 := by
  cases a with
  | call r phase => rfl
  | turn r =>
    simp only [step, statement]
    cases s.calls.lookup r <;> rfl

/-- The rows of an index after a statement: a row that was there, one that is reserved, or one that
is confirmed. -/
theorem mem_run {phase : IndexPhase κ} {rows : List (Reservation κ)} {r : Reservation κ}
    (hr : r ∈ (phase.run index rows).1) : r ∈ rows ∨ (∃ createdAt cutoff key userId reservationId,
      phase = .reserve createdAt cutoff key userId reservationId ∧
        r = reservation createdAt key userId reservationId) ∨ ∃ x ∈ rows, r = x.confirm := by
  cases phase with
  | reserve createdAt cutoff key userId reservationId =>
    simp only [IndexPhase.run, reserveKey, Table.upsert] at hr
    split at hr
    · obtain ⟨hr, -⟩ | ⟨x, -, -, rfl⟩ := mem_update_cases hr
      · exact .inl hr
      · exact .inr (.inl ⟨_, _, _, _, _, rfl, rfl⟩)
    · rcases mem_append.1 hr with hr | hr
      · exact .inl hr
      · exact .inr (.inl ⟨_, _, _, _, _, rfl, mem_singleton.1 hr⟩)
  | confirm key userId reservationId =>
    obtain ⟨hr, -⟩ | ⟨x, hx, -, rfl⟩ := mem_update_cases hr
    · exact .inl hr
    · exact .inr (.inr ⟨x, hx, rfl⟩)
  | cleanOwn | cleanOldest | deletePending | delete | deleteForUser =>
    exact .inl (mem_delete.1 hr).1
  | readReserved | readConfirmed | lookup => exact .inl hr

theorem unique_run {rows : List (Reservation κ)} (h : Table.Unique Reservation.key rows)
    (phase : IndexPhase κ) : Table.Unique Reservation.key (phase.run index rows).1 := by
  cases phase with
  | reserve createdAt cutoff key userId reservationId =>
    exact h.upsert (p := Reservation.Yields cutoff key userId reservationId)
      (r := reservation createdAt key userId reservationId)
      (f := fun _ => reservation createdAt key userId reservationId) fun x hx => hx.symm
  | confirm key userId reservationId =>
    exact h.update (p := Reservation.Pending key userId reservationId) fun _ _ => rfl
  | cleanOwn | cleanOldest | deletePending | delete | deleteForUser => exact h.filter _
  | readReserved | readConfirmed | lookup => exact h

theorem confirmed_run {rows : List (Reservation κ)} (h : Table.Unique Reservation.key rows)
    {r : Reservation κ} (hr : r ∈ rows) (hconfirmed : r.status = .confirmed)
    (phase : IndexPhase κ) : r ∈ (phase.run index rows).1 ∨ phase.Deletes r := by
  have hstale : ∀ cutoff, ¬r.Stale cutoff := fun cutoff hstale =>
    nomatch hconfirmed.symm.trans hstale.1
  have hpending : ∀ key userId reservationId, ¬r.Pending key userId reservationId :=
    fun key userId reservationId hpending => nomatch hconfirmed.symm.trans hpending.2.2.1
  cases phase with
  | cleanOwn cutoff key next =>
    exact .inl (mem_delete.2 ⟨hr, fun h => hstale cutoff h.2⟩)
  | cleanOldest cutoff next =>
    refine .inl (mem_delete.2 ⟨hr, fun hkey => ?_⟩)
    -- a stale row with the key would be the confirmed one
    obtain ⟨x, hx, hxkey⟩ := mem_map.1 hkey
    have hxmem := mem_mergeSort.1 (mem_of_mem_take hx)
    obtain ⟨hxrows, hxstale⟩ := mem_filter.1 hxmem
    obtain rfl := h.eq_of_key hxrows hr hxkey
    exact hstale cutoff (of_decide_eq_true hxstale)
  | reserve createdAt cutoff key userId reservationId =>
    left
    simp only [IndexPhase.run, reserveKey, Table.upsert]
    split
    · exact mem_update_of_not hr fun h =>
        h.2.elim (hstale cutoff) (hpending key userId reservationId)
    · exact mem_append_left _ hr
  | confirm key userId reservationId =>
    exact .inl (mem_update_of_not hr (hpending key userId reservationId))
  | deletePending key userId reservationId =>
    exact .inl (mem_delete.2 ⟨hr, hpending key userId reservationId⟩)
  | delete key =>
    by_cases hkey : r.key = key
    · exact .inr (.inl (by rw [hkey]))
    · exact .inl (mem_delete.2 ⟨hr, hkey⟩)
  | deleteForUser key userId =>
    by_cases howner : r.key = key ∧ r.userId = userId
    · exact .inr (.inr (by rw [howner.1, howner.2]))
    · exact .inl (mem_delete.2 ⟨hr, howner⟩)
  | readReserved | readConfirmed | lookup => exact .inl hr

/-- A confirm call completes by confirming the reservation, or by reading that the key is
confirmed. -/
theorem confirmed_cases {c : Confirmation κ} (hc : s.confirmed index a = some c) :
    (s.statement a = some (.confirm c.key c.userId c.reservationId) ∧
      ∃ r ∈ s.rows, r.Pending c.key c.userId c.reservationId) ∨
    (s.statement a = some (.readConfirmed c.key c.userId c.reservationId) ∧
      ∃ r ∈ s.rows, r.Confirmed c.key c.userId) := by
  unfold confirmed at hc
  split at hc
  · next phase hphase =>
    split at hc
    · next hresult =>
      cases phase with
      | confirm key userId reservationId =>
        obtain rfl := Option.some.inj hc
        refine .inl ⟨hphase, ?_⟩
        by_contra hnone
        simp only [IndexPhase.run, if_neg hnone] at hresult
        cases hresult
      | readConfirmed key userId reservationId =>
        obtain rfl := Option.some.inj hc
        refine .inr ⟨hphase, ?_⟩
        by_contra hnone
        simp only [IndexPhase.run, if_neg hnone] at hresult
        cases hresult
      | _ => cases hc
    · cases hc
  · cases hc

theorem exclusive_step (hs : Table.Unique Reservation.key s.rows) (a : IndexAction κ) :
    Exclusive index s a where
  unique := by
    rw [rows_step]
    cases s.statement a with
    | none => exact hs
    | some phase => exact unique_run hs phase
  keeps r hr hconfirmed := by
    rw [rows_step]
    cases s.statement a with
    | none => exact .inl hr
    | some phase => exact (confirmed_run hs hr hconfirmed phase).imp_right fun h => ⟨phase, rfl, h⟩
  holder c hc := by
    obtain ⟨hstatement, r, hr, hpending⟩ | ⟨-, hread⟩ := confirmed_cases hc
    · refine .inl ⟨r, hr, hpending, ?_⟩
      rw [rows_step, hstatement]
      exact mem_update_of hr hpending
    · exact .inr hread

theorem reserves_of_next {c : Confirmation κ} {phase next : IndexPhase κ}
    {rows : List (Reservation κ)} (hnext : (phase.run index rows).2 = .inl next)
    (h : next.Reserves c) : phase.Reserves c := by
  cases phase with
  | cleanOwn cutoff key next' =>
    obtain rfl := Sum.inl.inj hnext
    exact h
  | cleanOldest cutoff next' =>
    obtain rfl := Sum.inl.inj hnext
    exact h
  | reserve | confirm =>
    simp only [IndexPhase.run] at hnext
    split at hnext
    · cases hnext
    · obtain rfl := Sum.inl.inj hnext
      cases h
  | readReserved | readConfirmed | deletePending | delete | deleteForUser | lookup => cases hnext

theorem Replaced.step {c : Confirmation κ} (hs : Replaced c s)
    (ha : ∀ r phase, a = .call r phase → ¬phase.Reserves c) : Replaced c (s.step index a) := by
  cases a with
  | call r phase =>
    refine ⟨hs.1, fun x hx => ?_⟩
    rcases mem_cons.1 hx with rfl | hx
    · exact ha r phase rfl
    · exact hs.2 x (mem_of_mem_filter hx)
  | turn r =>
    simp only [IndexState.step]
    split
    · exact hs
    · next phase hphase =>
      have hphase : ¬phase.Reserves c := hs.2 (r, phase) (Assoc.mem_of_lookup hphase)
      refine ⟨fun x hx hpending => ?_, fun x hx => ?_⟩
      · obtain hx | ⟨_, _, _, _, _, rfl, rfl⟩ | ⟨y, -, rfl⟩ := mem_run hx
        · exact hs.1 x hx hpending
        · obtain ⟨hkey, huser, -, hid⟩ := hpending
          refine hphase ?_
          obtain ⟨key, userId, reservationId⟩ := c
          obtain rfl := hkey
          obtain rfl := huser
          obtain rfl := Option.some.inj hid
          rfl
        · cases hpending.2.2.1
      · rcases mem_append.1 hx with hx | hx
        · obtain ⟨next, hnext, rfl⟩ :
              ∃ next, (phase.run index s.rows).2 = .inl next ∧ (r, next) = x := by simpa using hx
          exact fun h => hphase (reserves_of_next hnext h)
        · exact hs.2 x (mem_of_mem_filter hx)

/-- From every index with unique keys: every action of a run keeps the identities exclusive, and
what was replaced is never confirmed by its first holder, unless the key is confirmed for that user
already. -/
theorem exclusive_run (index : Index κ) {s : IndexState κ}
    (hs : Table.Unique Reservation.key s.rows) (actions : List (IndexAction κ)) :
    Runs.Along (step index) (Exclusive index) s actions ∧
    ∀ c, Replaced c s → (∀ r phase, .call r phase ∈ actions → ¬phase.Reserves c) →
      Runs.Along (step index) (fun s a => s.confirmed index a = some c →
        ∃ r ∈ s.rows, r.Confirmed c.key c.userId) s actions := by
  constructor
  · have halong : Runs.Along (step index) (fun _ _ => True) s actions :=
      Runs.Along.of_forall fun _ _ => trivial
    exact (halong.of_invariant (I := fun s => Table.Unique Reservation.key s.rows) hs
      (fun s a hs _ => (exclusive_step hs a).unique) fun s a hs _ => exclusive_step hs a).1
  · intro c hc hcalls
    have halong : Runs.Along (step index)
        (fun _ a => ∀ r phase, a = .call r phase → ¬phase.Reserves c) s actions :=
      Runs.Along.of_forall fun a ha r phase hcall => hcalls r phase (hcall ▸ ha)
    refine (halong.of_invariant (I := Replaced c) hc (fun s a hs ha => hs.step ha)
      fun s a hs _ hconfirmed => ?_).1
    obtain ⟨-, r, hr, hpending⟩ | ⟨-, hread⟩ := confirmed_cases hconfirmed
    · exact absurd hpending (hs.1 r hr)
    · exact hread

/-! ### Confirming twice -/

/-- The email index of an engine that keeps the order of equal times. -/
def emailIndex : Index String where
  errors := emailErrors
  older a b := a.createdAt ≤ b.createdAt

/-- A reservation that expires and is taken over, before its first holder confirms it. -/
def takeover : List (IndexAction String) :=
  [.call 0 (registerEmailPending 0 0 "a" "ra" "x@y.z"), .turn 0,
    .call 1 (registerEmailPending 400000 400000 "b" "rb" "x@y.z"), .turn 1,
    .call 0 (confirmEmail "a" "ra" "x@y.z"), .turn 0, .turn 0,
    .call 1 (confirmEmail "b" "rb" "x@y.z"), .turn 1]

theorem exclusive_takeover :
    Runs.Along (step emailIndex) (Exclusive emailIndex) { rows := [] } takeover :=
  (exclusive_run emailIndex (s := { rows := [] }) nodup_nil takeover).1

example : (Runs.last (step emailIndex) { rows := [] } takeover).rows =
    [{ key := "x@y.z", userId := "b", status := .confirmed, reservationId := none,
       createdAt := 400000 }] := by decide +kernel

/-- A confirm call completes for the holder of the reservation only. -/
def HolderOnly (index : Index κ) (s : IndexState κ) (a : IndexAction κ) : Prop :=
  ∀ c ∈ s.confirmed index a, ∃ r ∈ s.rows, r.Pending c.key c.userId c.reservationId

instance (index : Index κ) (s : IndexState κ) (a : IndexAction κ) :
    Decidable (HolderOnly index s a) := inferInstanceAs (Decidable (∀ _ ∈ _, ∃ _ ∈ _, _))

/-- A key that is confirmed, and confirmed again with a reservation that never was. -/
def confirmTwice : List (IndexAction String) :=
  [.call 0 (registerEmailPending 0 0 "a" "ra" "x@y.z"), .turn 0,
    .call 0 (confirmEmail "a" "ra" "x@y.z"), .turn 0,
    .call 0 (confirmEmail "a" "other" "x@y.z"), .turn 0, .turn 0]

/-- The second confirm call completes, although nobody holds a reservation. -/
theorem confirmTwice_not_holderOnly :
    ¬Runs.Along (step emailIndex) (HolderOnly emailIndex) { rows := [] } confirmTwice := by
  decide +kernel

end IndexState

end Auth

end EdgeBase
