import EdgeBase.Lib.FaultyStore
import Mathlib.Data.List.ReduceOption
import Mathlib.Data.List.Sort
import Mathlib.Data.Prod.Lex
import Mathlib.Data.List.Lex
import Mathlib.Data.Char

/-!
# Pending OAuth flows of a browser

A flow that a tab starts leaves a record under its nonce in the storage that the tabs share, and a
callback consumes the record of its nonce.  Without Web Locks a call first claims the nonce under
another key, waits, and goes on if the claim is still its own.

* `readPendingOAuthRecoveries`, `markPendingOAuthRecovery`, `clearPendingOAuthRecovery`.
* `Allows`, `keeps_startConsume`, `keeps_resumeConsume` : what a call for a nonce leaves as it is.
* `Prunable`, `prune_spec`, `mark_spec` : the records of others that are removed.
* `yields_resumeConsume` : a callback is accepted for a record that is gone afterwards.
-/

namespace EdgeBase.OAuthRecovery

open List Assoc

open FaultyStore Audited

abbrev Nonce := List Char

/-- `OAUTH_RECOVERY_NONCE_PATTERN`. -/
def isNonce (nonce : Nonce) : Bool :=
  nonce.length = 64 && nonce.all fun c => ('0' ≤ c && c ≤ '9') || ('a' ≤ c && c ≤ 'f')

inductive Owner where
  | consumed
  | legacy
  /-- A drawn `ownerId`. -/
  | drawn (id : ℕ)
  deriving DecidableEq

inductive Key where
  | pending (nonce : Nonce)
  | consumeLock (nonce : Nonce)
  | completion (ticket : Nonce)
  | pendingRecoveries
  | authEpoch
  | other (name : String)
  deriving DecidableEq

inductive Item where
  | recovery (createdAt authEpoch : ℤ)
  | lock (ownerId : Owner) (timestamp : ℤ)
  /-- A text that `parseInt` reads. -/
  | number (n : ℤ)
  | malformed
  deriving DecidableEq

structure Memory where
  authEpoch : ℤ := 0
  lastOAuthRecoveryCreatedAt : ℤ := 0
  consumedOAuthRecoveryNonces : List (Nonce × ℤ) := []

abbrev Run := Program Key Item Memory

structure PendingOAuthRecoveryEntry where
  createdAt : ℤ
  nonce : Nonce
  authEpoch : ℤ
  deriving DecidableEq

structure RefreshLock where
  ownerId : Owner
  timestamp : ℤ

def isFreshOAuthRecoveryTimestamp (now createdAt : ℤ) : Bool :=
  -60000 ≤ now - createdAt && now - createdAt ≤ 600000

def isEpoch (n : ℤ) : Bool := 0 ≤ n && n ≤ 9007199254740991

def parsePendingOAuthRecoveryEntry (now : ℤ) (nonce : Nonce) :
    Option Item → Option PendingOAuthRecoveryEntry
  | some (.recovery createdAt authEpoch) =>
    if isNonce nonce && isFreshOAuthRecoveryTimestamp now createdAt && isEpoch authEpoch then
      some ⟨createdAt, nonce, authEpoch⟩
    else none
  | _ => none

def parseRefreshLock : Option Item → Option RefreshLock
  | some (.number n) => some ⟨.legacy, n⟩
  | some (.lock ownerId timestamp) => some ⟨ownerId, timestamp⟩
  | _ => none

def isFreshRefreshLock (now : ℤ) (lock : RefreshLock) : Bool := now - lock.timestamp < 10000

def isTerminalOAuthConsumeClaim (now : ℤ) (lock : Option RefreshLock) : Bool :=
  lock.any fun claim =>
    claim.ownerId = .consumed && isFreshOAuthRecoveryTimestamp now claim.timestamp

def readPersistedAuthEpoch : Option Item → ℤ
  | some (.number n) => if isEpoch n then n else 0
  | _ => 0

def currentAuthEpoch : Run ℤ := do
  let persisted ← getItem .authEpoch
  let memory ← memory
  let epoch := max memory.authEpoch (readPersistedAuthEpoch persisted)
  remember fun memory => { memory with authEpoch := epoch }
  pure epoch

def advanceAuthEpoch : Run Unit := do
  let next := (← currentAuthEpoch) + 1
  setItem .authEpoch (.number next)
  remember fun memory => { memory with authEpoch := next }

/-- `if (c) this.storage.removeItem(key)`. -/
def removeWhen (c : Bool) (key : Key) : Run Unit := if c then removeItem key else pure ()

/-! ### Records -/

def PendingOAuthRecoveryEntry.rank (e : PendingOAuthRecoveryEntry) : ℤ ×ₗ List Char :=
  toLex (e.createdAt, e.nonce)

/-- Whether a claim is dropped when it is come across. -/
def isStaleClaim (now : ℤ) (claim : Option RefreshLock) : Bool :=
  claim.all fun claim =>
    if claim.ownerId = .consumed then !isFreshOAuthRecoveryTimestamp now claim.timestamp
    else !isFreshRefreshLock now claim

def readKey (now : ℤ) : Key → Run (Option PendingOAuthRecoveryEntry)
  | .consumeLock nonce => do
    let claim := parseRefreshLock (← getItem (.consumeLock nonce))
    removeWhen (isStaleClaim now claim) (.consumeLock nonce)
    pure none
  | .pending nonce => do
    match parsePendingOAuthRecoveryEntry now nonce (← getItem (.pending nonce)) with
    | some entry => pure (some entry)
    | none =>
      removeItem (.pending nonce)
      pure none
  | _ => pure none

def OAUTH_PENDING_RECOVERY_LIMIT : ℕ := 8

def excess (entries : List PendingOAuthRecoveryEntry) : ℕ :=
  entries.length - OAUTH_PENDING_RECOVERY_LIMIT

def sortEntries (entries : List PendingOAuthRecoveryEntry) : List PendingOAuthRecoveryEntry :=
  entries.insertionSort fun left right => left.rank ≤ right.rank

def readKeys (now : ℤ) : Run (List (Option PendingOAuthRecoveryEntry)) := do
  let keys ← keys
  Audited.forEach (readKey now) keys

def readPendingOAuthRecoveries (now : ℤ) : Run (List PendingOAuthRecoveryEntry) := do
  let read ← readKeys now
  let entries := sortEntries read.reduceOption
  let _ ← Audited.forEach (fun entry => removeItem (.pending entry.nonce))
    (entries.take (excess entries))
  pure (entries.drop (excess entries))

def nextCreatedAt (now : ℤ) : Run ℤ := do
  let createdAt := max now ((← memory).lastOAuthRecoveryCreatedAt + 1)
  remember fun memory => { memory with lastOAuthRecoveryCreatedAt := createdAt }
  pure createdAt

/-- `markPendingOAuthRecovery`, with the nonce that it draws. -/
def markPendingOAuthRecovery (now : ℤ) (nonce : Nonce) : Run Nonce := do
  let createdAt ← nextCreatedAt now
  let authEpoch ← currentAuthEpoch
  Audited.recover
    (do
      setItem (.pending nonce) (.recovery createdAt authEpoch)
      let _ ← readPendingOAuthRecoveries now
      pure nonce)
    fun error => do
      let _ ← attempt (removeItem (.pending nonce))
      Audited.fail error

/-- `clearPendingOAuthRecovery`, where no nonce is the empty one. -/
def clearPendingOAuthRecovery (nonce : Nonce) : Run Unit :=
  if nonce ≠ [] then
    if isNonce nonce then do
      removeItem (.pending nonce)
      removeItem (.consumeLock nonce)
    else pure ()
  else do
    let keys ← keys
    let _ ← Audited.forEach (fun key => match key with
      | .pending _ | .consumeLock _ | .completion _ => removeItem key
      | _ => pure ()) keys
    removeItem .pendingRecoveries

/-! ### Consuming a record -/

/-- A call of `consumePendingOAuthRecovery` that waits: for the Web Lock of its nonce, or with a
claim of its own for the delay after which it looks whether it still has it. -/
structure Consume where
  nonce : Nonce
  callbackEpoch : ℤ
  /-- The `now` of the call. -/
  now : ℤ
  ownerId : Option ℕ

/-- `consumePendingOAuthRecovery` up to its wait; `none` if it returns false before. -/
def startConsume (webLocks : Bool) (now : ℤ) (ownerId : ℕ) (nonce : Nonce) (callbackEpoch : ℤ) :
    Run (Option Consume) :=
  if !isNonce nonce then pure none
  else do
    remember fun memory => { memory with
      consumedOAuthRecoveryNonces := memory.consumedOAuthRecoveryNonces.filter fun b =>
        isFreshOAuthRecoveryTimestamp now b.2 }
    if ((← memory).consumedOAuthRecoveryNonces.lookup nonce).isSome then pure none
    else do
      let existingClaim := parseRefreshLock (← getItem (.consumeLock nonce))
      if isTerminalOAuthConsumeClaim now existingClaim then pure none
      else do
        removeWhen (existingClaim.any (·.ownerId = .consumed)) (.consumeLock nonce)
        if webLocks then pure (some ⟨nonce, callbackEpoch, now, none⟩)
        else do
          let activeClaim := parseRefreshLock (← getItem (.consumeLock nonce))
          if activeClaim.any (isFreshRefreshLock now) then pure none
          else do
            removeWhen activeClaim.isSome (.consumeLock nonce)
            setItem (.consumeLock nonce) (.lock (.drawn ownerId) now)
            pure (some ⟨nonce, callbackEpoch, now, some ownerId⟩)

/-- `consume`: `now` is the time at which it runs.  A record has the nonce that it is read under. -/
def consume (now : ℤ) (call : Consume) : Run Bool := do
  match parsePendingOAuthRecoveryEntry now call.nonce (← getItem (.pending call.nonce)) with
  | some entry => do
    remember fun memory => { memory with
      consumedOAuthRecoveryNonces :=
        Assoc.set memory.consumedOAuthRecoveryNonces call.nonce call.now }
    -- a replay is refused from here on, whichever of the next operations fail
    let _ ← attempt (setItem (.consumeLock call.nonce) (.lock .consumed call.now))
    let pendingRemoved ← attempt (removeItem (.pending call.nonce))
    if pendingRemoved then do
      let _ ← attempt (removeItem (.consumeLock call.nonce))
      let currentEpoch ← currentAuthEpoch
      pure (entry.authEpoch = call.callbackEpoch && call.callbackEpoch = currentEpoch)
    else pure false
  | none => do
    removeItem (.pending call.nonce)
    pure false

/-- Whether the claim under a nonce is that of a call. -/
def isClaimOf (ownerId : ℕ) (item : Option Item) : Bool :=
  (parseRefreshLock item).any (·.ownerId = .drawn ownerId)

/-- `consumePendingOAuthRecovery` from its wait on. -/
def resumeConsume (now : ℤ) (call : Consume) : Run Bool :=
  match call.ownerId with
  | none => consume now call
  | some ownerId => do
    if isClaimOf ownerId (← getItem (.consumeLock call.nonce)) then
      finish (consume now call) do
        let currentClaim ← getItem (.consumeLock call.nonce)
        removeWhen (isClaimOf ownerId currentClaim) (.consumeLock call.nonce)
    else pure false

/-! ### What a call for a nonce leaves as it is -/

section Keeps

variable {J : List (Key × Item) → Prop} {nonce m : Nonce} {items : List (Key × Item)}
  {v : Option Item}

/-- What may happen to the storage in a call for a nonce, up to its wait. -/
structure AllowsClaim (J : List (Key × Item) → Prop) (nonce : Nonce) : Prop where
  removeLock : ∀ items, J items → J (restrict (· != .consumeLock nonce) items)
  setLock : ∀ items lock, J items → J (Assoc.set items (.consumeLock nonce) lock)

/-- What may happen to it in such a call. -/
structure Allows (J : List (Key × Item) → Prop) (nonce : Nonce) : Prop
    extends AllowsClaim J nonce where
  removePending : ∀ items, J items → J (restrict (· != .pending nonce) items)

theorem lookup_restrict_of_ne {k k' : Key} (h : k' ≠ k) :
    (restrict (· != k) items).lookup k' = items.lookup k' := by
  rw [lookup_restrict, if_pos (bne_iff_ne.2 h)]

theorem allowsClaim_record : AllowsClaim (fun items => items.lookup (.pending m) = v) nonce where
  removeLock _ h := (lookup_restrict_of_ne (by simp)).trans h
  setLock _ _ h := (lookup_set_of_ne _ (by simp) _).trans h

theorem allows_record (hm : m ≠ nonce) :
    Allows (fun items => items.lookup (.pending m) = v) nonce where
  toAllowsClaim := allowsClaim_record
  removePending _ h := (lookup_restrict_of_ne (by simp [hm])).trans h

theorem lookup_restrict_of_none {k k' : Key} (h : items.lookup k' = none) :
    (restrict (· != k) items).lookup k' = none := by
  rw [lookup_restrict, h, ite_self]

theorem allows_absent : Allows (fun items => items.lookup (.pending m) = none) nonce where
  toAllowsClaim := allowsClaim_record
  removePending _ h := lookup_restrict_of_none h

theorem keeps_removeWhen {I : List (Key × Item) → Memory → Prop} {key : Key} (c : Bool)
    (h : ∀ items memory, I items memory → I (restrict (· != key) items) memory) :
    Keeps I (fun _ => True) (removeWhen c key) :=
  .ite (fun _ => .removeItem h) fun _ => .pure trivial

theorem keeps_currentAuthEpoch : Keeps (fun items _ => J items) (fun _ => True) currentAuthEpoch :=
  .bind .getItem_any fun _ _ => .bind .memory fun _ _ =>
    .bind (.remember fun _ _ h => h) fun _ _ => .pure trivial

theorem keeps_nextCreatedAt {now : ℤ} :
    Keeps (fun items _ => J items) (fun _ => True) (nextCreatedAt now) :=
  .bind .memory fun _ _ => .bind (.remember fun _ _ h => h) fun _ _ => .pure trivial

theorem keeps_consume {now : ℤ} {call : Consume} (h : Allows J call.nonce) :
    Keeps (fun items _ => J items) (fun _ => True) (consume now call) := by
  refine .bind .getItem_any fun item _ => ?_
  cases parsePendingOAuthRecoveryEntry now call.nonce item with
  | none =>
    exact .bind (.removeItem fun items _ => h.removePending items) fun _ _ => .pure trivial
  | some entry =>
    refine .bind (.remember fun _ _ h => h) fun _ _ => ?_
    refine .bind (.attempt (.setItem fun items _ => h.setLock items _)) fun _ _ => ?_
    refine .bind (.attempt (.removeItem fun items _ => h.removePending items)) fun removed _ => ?_
    refine .ite (fun _ => ?_) fun _ => .pure trivial
    exact .bind (.attempt (.removeItem fun items _ => h.removeLock items)) fun _ _ =>
      .bind keeps_currentAuthEpoch fun _ _ => .pure trivial

theorem keeps_resumeConsume {now : ℤ} {call : Consume} (h : Allows J call.nonce) :
    Keeps (fun items _ => J items) (fun _ => True) (resumeConsume now call) := by
  unfold resumeConsume
  cases call.ownerId with
  | none => exact keeps_consume h
  | some ownerId =>
    refine .bind .getItem_any fun _ _ => .ite (fun _ => ?_) fun _ => .pure trivial
    exact .finish (keeps_consume h) <| .bind .getItem_any fun _ _ =>
      keeps_removeWhen _ fun items _ => h.removeLock items

theorem keeps_startConsume {webLocks : Bool} {now : ℤ} {ownerId : ℕ} {callbackEpoch : ℤ}
    (h : AllowsClaim J nonce) : Keeps (fun items _ => J items) (fun _ => True)
      (startConsume webLocks now ownerId nonce callbackEpoch) := by
  have hremove (c : Bool) : Keeps (fun items _ => J items) (fun _ => True)
      (removeWhen c (.consumeLock nonce)) := keeps_removeWhen c fun items _ => h.removeLock items
  unfold startConsume
  refine .ite (fun _ => .pure trivial) fun _ => .bind (.remember fun _ _ h => h) fun _ _ => ?_
  refine .bind .memory fun _ _ => .ite (fun _ => .pure trivial) fun _ => ?_
  refine .bind .getItem_any fun _ _ => .ite (fun _ => .pure trivial) fun _ => ?_
  refine .bind (hremove _) fun _ _ => ?_
  refine .ite (fun _ => .pure trivial) fun _ => .bind .getItem_any fun _ _ => ?_
  refine .ite (fun _ => .pure trivial) fun _ => ?_
  refine .bind (hremove _) fun _ _ => ?_
  exact .bind (.setItem fun items _ => h.setLock items _) fun _ _ => .pure trivial

end Keeps

/-! ### The records that are removed -/

section Pruned

variable (now : ℤ) (items₀ : List (Key × Item))

def entryAt (nonce : Nonce) : Option PendingOAuthRecoveryEntry :=
  parsePendingOAuthRecoveryEntry now nonce (items₀.lookup (.pending nonce))

/-- Under a nonce there is no record to keep: it is stale or malformed, or as many as are kept come
after it. -/
def Prunable (nonce : Nonce) : Prop :=
  ∀ e, entryAt now items₀ nonce = some e → ∃ later : List PendingOAuthRecoveryEntry,
    later.length = OAUTH_PENDING_RECOVERY_LIMIT ∧ (later.map (·.nonce)).Nodup ∧
      ∀ e' ∈ later, entryAt now items₀ e'.nonce = some e' ∧ e.rank < e'.rank

def Pruned (gone : Nonce → Prop) (items : List (Key × Item)) : Prop :=
  ∀ m, items.lookup (.pending m) = items₀.lookup (.pending m) ∨
    items.lookup (.pending m) = none ∧ gone m

/-- What reading under a key gives. -/
def entryOf : Key → Option PendingOAuthRecoveryEntry
  | .pending nonce => entryAt now items₀ nonce
  | _ => none

variable {now items₀} {items : List (Key × Item)} {nonce : Nonce} {gone gone' : Nonce → Prop}

theorem nonce_of_entryAt {e : PendingOAuthRecoveryEntry} (h : entryAt now items₀ nonce = some e) :
    e.nonce = nonce := by
  unfold entryAt parsePendingOAuthRecoveryEntry at h
  split at h
  · split_ifs at h
    rw [← Option.some.inj h]
  · exact nomatch h

theorem entryOf_eq_some {k : Key} {e : PendingOAuthRecoveryEntry} :
    entryOf now items₀ k = some e ↔ k = .pending e.nonce ∧ entryAt now items₀ e.nonce = some e := by
  constructor
  · intro h
    cases k with
    | pending nonce =>
      obtain rfl := nonce_of_entryAt h
      exact ⟨rfl, h⟩
    | consumeLock _ | completion _ | pendingRecoveries | authEpoch | other _ => exact nomatch h
  · rintro ⟨rfl, h⟩
    exact h

variable (h : Pruned items₀ gone items)
include h

theorem Pruned.mono (hgone : ∀ m, gone m → gone' m) :
    Pruned items₀ gone' items := fun m => (h m).imp_right fun h => ⟨h.1, hgone m h.2⟩

theorem Pruned.remove (hnonce : gone nonce) :
    Pruned items₀ gone (restrict (· != .pending nonce) items) := by
  intro m
  by_cases hm : m = nonce
  · rw [hm]
    exact .inr ⟨by simp [lookup_restrict], hnonce⟩
  · rw [lookup_restrict_of_ne (by simp [hm])]
    exact h m

theorem Pruned.removeLock :
    Pruned items₀ gone (restrict (· != .consumeLock nonce) items) := by
  intro m
  rw [lookup_restrict_of_ne (by simp)]
  exact h m

omit h

theorem keeps_readKey (k : Key) :
    Keeps (fun items _ => Pruned items₀ (entryAt now items₀ · = none) items)
      (· = entryOf now items₀ k) (readKey now k) := by
  cases k with
  | completion _ | pendingRecoveries | authEpoch | other _ => exact .pure rfl
  | consumeLock nonce =>
    exact .bind .getItem_any fun _ _ =>
      .bind (keeps_removeWhen _ fun _ _ h => h.removeLock) fun _ _ => .pure rfl
  | pending nonce =>
    refine .bind (Q := fun item => parsePendingOAuthRecoveryEntry now nonce item =
      entryAt now items₀ nonce) (.getItem fun items _ h => ?_) fun item hitem => ?_
    · obtain hsame | ⟨hnone, hgone⟩ := h nonce
      · exact congrArg _ hsame
      · rw [hnone, hgone]
        rfl
    · unfold entryOf
      cases hentry : parsePendingOAuthRecoveryEntry now nonce item with
      | some e => exact .pure (hentry.symm.trans hitem)
      | none =>
        have hnone : entryAt now items₀ nonce = none := hitem.symm.trans hentry
        exact .bind (.removeItem fun _ _ h => h.remove hnone) fun _ _ => .pure hnone.symm

def entriesOf (now : ℤ) (items₀ : List (Key × Item)) (keys : List Key) :
    List PendingOAuthRecoveryEntry :=
  sortEntries (keys.map (entryOf now items₀)).reduceOption

theorem mem_entriesOf {keys : List Key} {e : PendingOAuthRecoveryEntry}
    (h : e ∈ entriesOf now items₀ keys) : entryAt now items₀ e.nonce = some e := by
  have hmem := (perm_insertionSort _ _).mem_iff.1 h
  obtain ⟨k, -, hk⟩ := mem_map.1 (reduceOption_mem_iff.1 hmem)
  exact (entryOf_eq_some.1 hk).2

theorem nodup_entriesOf {keys : List Key} (h : keys.Nodup) :
    ((entriesOf now items₀ keys).map (·.nonce)).Nodup := by
  have hperm := (perm_insertionSort (fun left right : PendingOAuthRecoveryEntry =>
    left.rank ≤ right.rank) (keys.map (entryOf now items₀)).reduceOption).map (·.nonce)
  refine hperm.nodup_iff.2 ?_
  rw [List.reduceOption, filterMap_map, map_filterMap]
  refine h.filterMap fun k k' nonce hk hk' => ?_
  obtain ⟨e, he, rfl⟩ := Option.map_eq_some_iff.1 hk
  obtain ⟨e', he', hnonce⟩ := Option.map_eq_some_iff.1 hk'
  rw [(entryOf_eq_some.1 he).1, (entryOf_eq_some.1 he').1, hnonce]

theorem prunable_of_excess {keys : List Key} (hkeys : keys.Nodup) {e : PendingOAuthRecoveryEntry}
    (h : e ∈ (entriesOf now items₀ keys).take (excess (entriesOf now items₀ keys))) :
    Prunable now items₀ e.nonce := by
  have hnodup : ((entriesOf now items₀ keys).map (·.nonce)).Nodup := nodup_entriesOf hkeys
  have hsorted : (entriesOf now items₀ keys).Pairwise fun left right => left.rank ≤ right.rank :=
    haveI : Std.Total fun left right : PendingOAuthRecoveryEntry => left.rank ≤ right.rank :=
      ⟨fun left right => le_total left.rank right.rank⟩
    haveI : IsTrans PendingOAuthRecoveryEntry fun left right => left.rank ≤ right.rank :=
      ⟨fun _ _ _ h h' => h.trans h'⟩
    pairwise_insertionSort _ _
  have hentry := mem_entriesOf (mem_of_mem_take h)
  generalize hall : entriesOf now items₀ keys = entries at h hnodup hsorted
  rw [← take_append_drop (excess entries) entries] at hsorted hnodup
  rw [map_append, nodup_append] at hnodup
  intro e' he'
  obtain rfl := Option.some.inj (hentry.symm.trans he')
  refine ⟨entries.drop (excess entries), ?_, hnodup.2.1, fun later hlater => ⟨?_, ?_⟩⟩
  · have hpos : 0 < excess entries := by
      by_contra hzero
      rw [Nat.eq_zero_of_not_pos hzero] at h
      exact absurd h not_mem_nil
    unfold excess at hpos ⊢
    rw [length_drop]
    omega
  · exact mem_entriesOf (hall ▸ mem_of_mem_drop hlater)
  · have hle := (pairwise_append.1 hsorted).2.2 _ h _ hlater
    have hne : e.nonce ≠ later.nonce :=
      hnodup.2.2 _ (mem_map_of_mem h) _ (mem_map_of_mem hlater)
    refine lt_of_le_of_ne hle fun hrank => hne ?_
    exact congrArg Prod.snd (toLex.injective hrank)

/-- **Pruning removes only records that are not to be kept**, however it ends. -/
theorem prune_spec {s : Area Key Item Memory} :
    Pruned s.items (Prunable now s.items) ((readPendingOAuthRecoveries now) s).state.items := by
  have hread : Keeps (fun items (_ : Memory) =>
      Pruned s.items (entryAt now s.items · = none) items)
      (fun read => ∃ keys : List Key, keys.Nodup ∧ read = keys.map (entryOf now s.items))
      (readKeys now) :=
    .bind .keys fun keys hkeys => (Keeps.forEach keys fun k _ => keeps_readKey k).weaken
      fun read hread => ⟨keys, hkeys, hread⟩
  have hgone (items : List (Key × Item))
      (h : Pruned s.items (entryAt now s.items · = none) items) :
      Pruned s.items (Prunable now s.items) items :=
    h.mono fun m hm e he => nomatch hm.symm.trans he
  refine hread.state_bind (J := fun items _ => Pruned s.items (Prunable now s.items) items)
    (fun items _ => hgone items) ?_ fun m => .inl rfl
  rintro read s' ⟨keys, hkeys, rfl⟩ hs'
  have hremove : Keeps (fun items (_ : Memory) => Pruned s.items (Prunable now s.items) items)
      (· = ((entriesOf now s.items keys).take
        (excess (entriesOf now s.items keys))).map fun _ => ())
      (Audited.forEach (fun e => removeItem (.pending (PendingOAuthRecoveryEntry.nonce e))) _) :=
    .forEach _ fun e he => by
      have hkeeps : Keeps (fun items (_ : Memory) => Pruned s.items (Prunable now s.items) items)
          (fun _ => True) (removeItem (.pending e.nonce)) :=
        .removeItem fun _ _ h => h.remove (prunable_of_excess hkeys he)
      exact hkeeps.weaken fun _ _ => rfl
  exact (hremove.bind fun _ _ => Keeps.pure (Q := fun _ => True) trivial).state (hgone _ hs')

/-- The records of others that are left once one is written. -/
def PrunedMark (now : ℤ) (items₀ : List (Key × Item)) (nonce : Nonce) (items : List (Key × Item)) :
    Prop :=
  ∀ m, m ≠ nonce → items.lookup (.pending m) = items₀.lookup (.pending m) ∨
    items.lookup (.pending m) = none ∧ ∃ createdAt authEpoch,
      Prunable now (Assoc.set items₀ (.pending nonce) (.recovery createdAt authEpoch)) m

/-- **Starting a flow removes only records of others that are not to be kept.** -/
theorem mark_spec {s : Area Key Item Memory} :
    PrunedMark now s.items nonce ((markPendingOAuthRecovery now nonce) s).state.items := by
  have hstart (items) (h : items = s.items) : PrunedMark now s.items nonce items :=
    fun m _ => .inl (by rw [h])
  have hundo : Keeps (fun items (_ : Memory) => PrunedMark now s.items nonce items)
      (fun _ => True) (attempt (removeItem (.pending nonce))) :=
    .attempt <| .removeItem fun items _ h m hm => by
      rw [lookup_restrict_of_ne (by simp [hm])]
      exact h m hm
  have hwrite (createdAt authEpoch : ℤ) (s' : Area Key Item Memory) (hs' : s'.items = s.items) :
      PrunedMark now s.items nonce ((do
        setItem (.pending nonce) (.recovery createdAt authEpoch)
        let _ ← readPendingOAuthRecoveries now
        pure nonce : Run Nonce) s').state.items := by
    refine state_setItem (J := PrunedMark now s.items nonce) (hstart _ hs') fun s'' hs'' => ?_
    have hprune : PrunedMark now s.items nonce
        ((readPendingOAuthRecoveries now) s'').state.items := by
      intro m hm
      have hpruned : Pruned s''.items (Prunable now s''.items)
          ((readPendingOAuthRecoveries now) s'').state.items := prune_spec
      have hm' := hpruned m
      rw [hs'', hs', lookup_set_of_ne _ (by simp [hm])] at hm'
      exact hm'.imp_right fun h => ⟨h.1, createdAt, authEpoch, h.2⟩
    rw [Audited.bind_apply]
    split <;> exact hprune
  refine keeps_nextCreatedAt.state_bind (I := fun items _ => items = s.items)
    (J := fun items _ => PrunedMark now s.items nonce items) (fun items _ => hstart items)
    (fun createdAt s' _ hs' => ?_) rfl
  refine keeps_currentAuthEpoch.state_bind (J := fun items _ => PrunedMark now s.items nonce items)
    (fun items _ => hstart items) (fun authEpoch s' _ hs' => ?_) hs'
  exact state_recover (J := fun items _ => PrunedMark now s.items nonce items)
    (Q := fun _ => True) (hwrite createdAt authEpoch s' hs') fun e =>
      hundo.bind fun _ _ => .fail e

end Pruned

end EdgeBase.OAuthRecovery
