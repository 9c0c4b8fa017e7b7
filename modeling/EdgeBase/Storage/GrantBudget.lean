import EdgeBase.Storage.GrantRequests
import Mathlib.Algebra.BigOperators.Group.List.Basic
import Mathlib.Algebra.Ring.Int.Defs

/-!
# The budget of a signed multipart grant

The bytes that are reserved stand in the metadata of a marker, which is read, and written on
condition that it is still the marker that was read.

* `budgets` : any number of requests on one bucket.
* `BudgetMoves`, `BudgetSound.budgetMoves` : what a request does to the marker.
* `BudgetSound`, `KeptBudgets.step` : how the marker, what was written and what was returned are
  related.
* `budget_run` : the bytes that were granted are within the budget, and are what the marker says.
-/

namespace EdgeBase.Storage

open List

/-! ### The marker of one grant -/

abbrev Budgets := Shared Bucket Op.Answer BudgetCall BudgetReturned

def budgets : Shared.System Bucket Op.Answer BudgetCall BudgetReturned ℕ where
  exec op bucket := op.exec bucket
  env ms bucket := bucket.tick ms
  body := BudgetCall.body

abbrev BudgetAction := Shared.Action BudgetCall ℕ

/-- A request for the grant that has returned what counts. -/
def Succeeded (key : MarkerKey) (w : Budgets) (n : ℕ) (call : BudgetCall) : Prop :=
  ∃ returned, w.threads[n]? = some (call, .pure returned) ∧ call.Success returned = true ∧
    signedUploadGrantMarkerKey call.claims = .ok key

def grantedBy (key : MarkerKey) : BudgetCall × GrantM BudgetReturned → ℤ
  | (.reserve claims _ bytes, .pure (.reserved (.ok true))) =>
    if signedUploadGrantMarkerKey claims = .ok key then bytes else 0
  | _ => 0

/-- The bytes of all reservations that returned `true`. -/
def granted (key : MarkerKey) (w : Budgets) : ℤ := (w.threads.map (grantedBy key)).sum

/-- An ETag was given for this metadata. -/
def Written (key : MarkerKey) (etag : ℕ) (metadata : GrantMetadata) (history : List (ℕ × Sent)) :
    Prop :=
  ∃ n onlyIf, (n, (⟨.put key onlyIf metadata, some etag⟩ : Sent)) ∈ history

/-- What a marker may be, and how many bytes were granted then. -/
inductive BudgetShape (maxBytes : ℤ) : Option Marker → ℤ → Prop
  | unclaimed : BudgetShape maxBytes none 0
  | creating (etag : ℕ) : BudgetShape maxBytes (some ⟨etag, { state := some .creating }⟩) 0
  | multipart (etag : ℕ) (uploadId : String) {reserved : ℤ} (h : reserved ≤ maxBytes) :
    BudgetShape maxBytes
      (some ⟨etag, ⟨some .multipart, some uploadId, some maxBytes, some reserved⟩⟩) reserved
  | failed (marker : Marker) {reserved : ℤ} (hstate : marker.customMetadata.state = some .failed)
    (h : reserved ≤ maxBytes) : BudgetShape maxBytes (some marker) reserved

/-- How the marker of a grant, what was written and what was returned are related. -/
structure BudgetSound (key : MarkerKey) (grant : SignedUploadGrantClaims) (maxBytes : ℤ)
    (w : Budgets) : Prop where
  shape : BudgetShape maxBytes (w.store.find key) (granted key w)
  below : ∀ etag metadata, Written key etag metadata w.history → etag < w.store.nextEtag
  unique : ∀ etag metadata metadata', Written key etag metadata w.history →
    Written key etag metadata' w.history → metadata = metadata'
  current : ∀ marker ∈ w.store.find key,
    Written key marker.etag marker.customMetadata w.history
  read : ∀ n marker, (n, (⟨.head key, some marker⟩ : Sent)) ∈ w.history →
    Written key marker.etag marker.customMetadata w.history
  calls : ∀ (n : ℕ) (call : BudgetCall) (q : GrantM BudgetReturned),
    w.threads[n]? = some (call, q) →
    signedUploadGrantMarkerKey call.claims = .ok key →
      call.claims = grant ∧ ∀ etag ∈ call.held,
        Written key etag { state := some .creating } w.history
  unclaimed : w.store.find key = none → ∀ n claims, ¬Succeeded key w n (.claim claims)
  once : ∀ n m claims claims', Succeeded key w n (.claim claims) →
    Succeeded key w m (.claim claims') → n = m

inductive BudgetMoves (maxBytes : ℤ) (call : BudgetCall) (key : MarkerKey) :
    Option Marker → Sent → Option Marker → Prop
  | kept {marker : Option Marker} {e : Sent} (h : ¬Marks key e) :
    BudgetMoves maxBytes call key marker e marker
  | claimed {e : Sent} (etag : ℕ) {claims : SignedUploadGrantClaims} (h : call = .claim claims)
    (he : e = ⟨.put key .etagDoesNotMatchAny { state := some .creating }, some etag⟩) :
    BudgetMoves maxBytes call key none e (some ⟨etag, { state := some .creating }⟩)
  | bound {e : Sent} (etag etag' : ℕ) {claims : SignedUploadGrantClaims} (uploadId : String)
    (h : call = .bind claims etag uploadId) (he : Marks key e) :
    BudgetMoves maxBytes call key (some ⟨etag, { state := some .creating }⟩) e
      (some ⟨etag', ⟨some .multipart, some uploadId, some maxBytes, some 0⟩⟩)
  | reserved {e : Sent} (etag etag' : ℕ) {claims : SignedUploadGrantClaims} {uploadId : String}
    {bytes reservedBytes : ℤ} (h : call = .reserve claims uploadId bytes)
    (he : call.Wins key e) (hbytes : bytes ≤ maxBytes - reservedBytes) :
    BudgetMoves maxBytes call key
      (some ⟨etag, ⟨some .multipart, some uploadId, some maxBytes, some reservedBytes⟩⟩) e
      (some ⟨etag', ⟨some .multipart, some uploadId, some maxBytes,
        some (reservedBytes + bytes)⟩⟩)
  | exhausted {e : Sent} (etag etag' : ℕ) {claims : SignedUploadGrantClaims} {uploadId : String}
    {bytes reservedBytes : ℤ} (h : call = .reserve claims uploadId bytes)
    (he : ¬call.Wins key e) :
    BudgetMoves maxBytes call key
      (some ⟨etag, ⟨some .multipart, some uploadId, some maxBytes, some reservedBytes⟩⟩) e
      (some ⟨etag', ⟨some .failed, some uploadId, some maxBytes, some reservedBytes⟩⟩)
  | terminated {e : Sent} (etag etag' : ℕ) {claims : SignedUploadGrantClaims}
    (h : call = .terminate claims etag) :
    BudgetMoves maxBytes call key (some ⟨etag, { state := some .creating }⟩) e
      (some ⟨etag', { state := some .failed }⟩)

abbrev MeetingBudgets (w : Budgets) : Prop :=
  Shared.Meeting budgetContract BudgetCall.Post w

theorem eq_of_reservedBytesOf {maxBytes reservedBytes : ℤ} {metadata : GrantMetadata}
    (h : reservedBytesOf maxBytes metadata = some reservedBytes) :
    metadata.maxBytes = some maxBytes ∧ metadata.reservedBytes = some reservedBytes := by
  unfold reservedBytesOf at h
  split at h
  · next markerMaxBytes reserved hmax hreserved =>
    split at h
    · next hvalid =>
      obtain rfl := Option.some.inj h
      exact ⟨by rw [hmax, hvalid.2.2.1], hreserved⟩
    · cases h
  · cases h

theorem BudgetSound.budgetMoves {key : MarkerKey} {grant : SignedUploadGrantClaims} {maxBytes : ℤ}
    {w : Budgets} (h : BudgetSound key grant maxBytes w) (hmax : grant.maxBytes = some maxBytes)
    (hmeeting : MeetingBudgets w) {n : ℕ} {call : BudgetCall} {op : Op}
    {next : op.Answer → GrantM BudgetReturned} (hn : w.threads[n]? = some (call, .call op next)) :
    BudgetMoves maxBytes call key (w.store.find key) ⟨op, (op.exec w.store).1⟩
      ((op.exec w.store).2.find key) := by
  obtain ⟨-, hput, hdelete⟩ := hmeeting.guarantee hn
  have htouches := touches_exec w.store op key
  generalize hanswer : (op.exec w.store).1 = answer at htouches
  generalize (op.exec w.store).2.find key = marker' at htouches
  have hcurrent := h.current
  generalize w.store.find key = marker at htouches hcurrent
  cases htouches with
  | other hput' =>
    refine .kept ?_
    rintro ⟨onlyIf, metadata, etag, heq⟩
    exact hput' onlyIf metadata (Sigma.mk.inj heq).1
  | refused =>
    refine .kept ?_
    rintro ⟨onlyIf, metadata, etag, heq⟩
    cases heq
  | @deleted keys => exact absurd rfl (hdelete keys)
  | @written onlyIf metadata etag hholds =>
    obtain ⟨hkey, hwrites⟩ := hput key onlyIf metadata rfl
    obtain ⟨hclaims, hheld⟩ := h.calls n call _ hn hkey
    cases call with
    | claim claims =>
      obtain ⟨rfl, rfl⟩ := hwrites
      obtain rfl : marker = none := hholds
      exact .claimed etag rfl rfl
    | bind claims claim uploadId =>
      obtain ⟨rfl, rfl⟩ := hwrites
      obtain ⟨⟨etag', metadata⟩, hmarker, rfl⟩ := hholds
      obtain rfl := h.unique _ _ _ (hcurrent _ hmarker) (hheld _ rfl)
      obtain rfl : marker = _ := hmarker
      have hbound : boundMetadata claims uploadId =
          ⟨some .multipart, some uploadId, some maxBytes, some 0⟩ := by
        have hclaims' : claims.maxBytes = some maxBytes :=
          (congrArg SignedUploadGrantClaims.maxBytes hclaims).trans hmax
        rw [boundMetadata, hclaims', Option.map_some]
      rw [hbound]
      exact .bound etag' etag uploadId rfl ⟨_, _, etag, rfl⟩
    | terminate claims claim =>
      obtain ⟨rfl, rfl⟩ := hwrites
      obtain ⟨⟨etag', metadata⟩, hmarker, rfl⟩ := hholds
      obtain rfl := h.unique _ _ _ (hcurrent _ hmarker) (hheld _ rfl)
      obtain rfl : marker = _ := hmarker
      exact .terminated etag' etag rfl
    | reserve claims uploadId bytes =>
      obtain ⟨read, maxBytes', reservedBytes, hread, rfl, hmax', hpositive, hstate, hupload,
        hreserved, hmetadata⟩ := hwrites
      obtain rfl : maxBytes' = maxBytes :=
        Option.some.inj (hmax'.symm.trans ((congrArg _ hclaims).trans hmax))
      obtain ⟨⟨etag', current⟩, hmarker, rfl⟩ := hholds
      obtain rfl : marker = _ := hmarker
      -- what was read is what is there
      obtain rfl := h.unique _ _ _ (hcurrent _ rfl) (h.read n read (Shared.mem_own.1 hread))
      obtain ⟨hmarkerMax, hmarkerReserved⟩ := eq_of_reservedBytesOf hreserved
      have hcurrent' : read.customMetadata =
          ⟨some .multipart, some uploadId, some maxBytes', some reservedBytes⟩ := by
        rw [← hstate, ← hupload, ← hmarkerMax, ← hmarkerReserved]
      rw [hcurrent']
      obtain ⟨-, rfl⟩ | ⟨hwithin, rfl⟩ := hmetadata
      · refine .exhausted _ _ rfl ?_
        rintro ⟨onlyIf, metadata, etag'', heq, hmultipart⟩
        cases heq
        cases hmultipart
      · exact .reserved _ _ rfl ⟨_, _, etag, rfl, rfl⟩ hwithin

section

variable {key : MarkerKey} {w : Budgets} {n : ℕ} {call : BudgetCall} {op : Op}
  {next : op.Answer → GrantM BudgetReturned}

/-- The state after a request has made its next call. -/
def afterCall (w : Budgets) (n : ℕ) (call : BudgetCall) (op : Op)
    (next : op.Answer → GrantM BudgetReturned) : Budgets where
  store := (op.exec w.store).2
  threads := w.threads.set n (call, next (op.exec w.store).1)
  history := w.history ++ [(n, ⟨op, (op.exec w.store).1⟩)]

theorem succeeded_afterCall (hmeeting : MeetingBudgets w)
    (hmeeting' : MeetingBudgets (afterCall w n call op next))
    (hn : w.threads[n]? = some (call, .call op next)) {m : ℕ} {call' : BudgetCall} :
    Succeeded key (afterCall w n call op next) m call' ↔ Succeeded key w m call' ∨
        (m = n ∧ call' = call ∧ call.Wins key ⟨op, (op.exec w.store).1⟩) := by
  have hlt : n < w.threads.length := (List.getElem?_eq_some_iff.1 hn).1
  have hunwritten := (hmeeting.guarantee hn).1
  by_cases hmn : m = n
  · subst hmn
    have hold : ¬Succeeded key w m call' := by
      rintro ⟨returned, hm, -⟩
      rw [hn] at hm
      cases hm
    have hthread : (afterCall w m call op next).threads[m]? =
        some (call, next (op.exec w.store).1) := List.getElem?_set_self hlt
    have hown : Shared.own m (afterCall w m call op next).history =
        Shared.own m w.history ++ [⟨op, (op.exec w.store).1⟩] := by
      rw [afterCall, Shared.own_append, if_pos rfl]
    have hnew : Succeeded key (afterCall w m call op next) m call' ↔
        call' = call ∧ call.Wins key ⟨op, (op.exec w.store).1⟩ := by
      unfold Succeeded
      rw [hthread]
      cases hnext : next (op.exec w.store).1 with
      | call op' next' =>
        rw [hnext] at hthread
        have hunwritten' := (hmeeting'.guarantee hthread).1
        rw [hown] at hunwritten'
        refine iff_of_false ?_ ?_
        · rintro ⟨returned, hreturned, -⟩
          cases hreturned
        · rintro ⟨-, hwins⟩
          exact hunwritten' _ (mem_append_right _ (mem_singleton_self _)) key hwins.marks
      | pure returned =>
        rw [hnext] at hthread
        have hpost := (hmeeting'.returned hthread).1 key
        rw [hown, hunwritten.wins_append] at hpost
        constructor
        · rintro ⟨returned', hreturned, hsuccess⟩
          cases hreturned
          exact ⟨rfl, hpost.2 hsuccess⟩
        · rintro ⟨rfl, hwins⟩
          exact ⟨returned, rfl, hpost.1 hwins⟩
    rw [hnew]
    simp [hold]
  · have hthread : (afterCall w n call op next).threads[m]? = w.threads[m]? :=
      List.getElem?_set_ne (Ne.symm hmn)
    simp [Succeeded, hthread, hmn]

theorem grantedBy_of_succeeded {claims : SignedUploadGrantClaims} {uploadId : String} {bytes : ℤ}
    {q : GrantM BudgetReturned} (hn : w.threads[n]? = some (.reserve claims uploadId bytes, q))
    (h : Succeeded key w n (.reserve claims uploadId bytes)) :
    grantedBy key (.reserve claims uploadId bytes, q) = bytes := by
  obtain ⟨returned, hreturned, hsuccess, hkey⟩ := h
  rw [hn] at hreturned
  cases hreturned
  unfold BudgetCall.Success at hsuccess
  split at hsuccess
  · cases ‹BudgetCall.reserve _ _ _ = .claim _›
  · cases ‹BudgetCall.reserve _ _ _ = .bind _ _ _›
  · exact if_pos hkey
  · cases hsuccess

theorem grantedBy_of_not_succeeded {q : GrantM BudgetReturned}
    (hn : w.threads[n]? = some (call, q)) (h : ¬Succeeded key w n call) :
    grantedBy key (call, q) = 0 := by
  unfold grantedBy
  split
  · next claims uploadId bytes heq =>
    cases heq
    exact if_neg fun hkey => h ⟨_, hn, rfl, hkey⟩
  · rfl

theorem granted_afterCall (hn : w.threads[n]? = some (call, .call op next)) :
    granted key (afterCall w n call op next) =
      granted key w + grantedBy key (call, next (op.exec w.store).1) := by
  obtain ⟨hlt, hget⟩ := List.getElem?_eq_some_iff.1 hn
  have hold : grantedBy key w.threads[n] = 0 := by
    rw [hget]
    unfold grantedBy
    split
    · next heq => cases heq
    · rfl
  rw [granted, afterCall, map_set, sum_set', granted, dif_pos (by simpa using hlt)]
  simp [hold]

end

theorem written_append {key : MarkerKey} {etag : ℕ} {metadata : GrantMetadata}
    {history : List (ℕ × Sent)} {x : ℕ × Sent} : Written key etag metadata (history ++ [x]) ↔
      Written key etag metadata history ∨
        ∃ onlyIf, x.2 = ⟨.put key onlyIf metadata, some etag⟩ := by
  constructor
  · rintro ⟨n, onlyIf, hmem⟩
    rcases mem_append.1 hmem with hmem | hmem
    · exact .inl ⟨n, onlyIf, hmem⟩
    · rw [← mem_singleton.1 hmem]
      exact .inr ⟨onlyIf, rfl⟩
  · rintro (⟨n, onlyIf, hmem⟩ | ⟨onlyIf, hx⟩)
    · exact ⟨n, onlyIf, mem_append_left _ hmem⟩
    · exact ⟨x.1, onlyIf, mem_append_right _ (by rw [← hx]; exact mem_singleton_self _)⟩

theorem BudgetShape.step {maxBytes granted d : ℤ} {key : MarkerKey} {call : BudgetCall}
    {marker marker' : Option Marker} {e : Sent} (hmax : 0 ≤ maxBytes)
    (h : BudgetShape maxBytes marker granted)
    (hmoves : BudgetMoves maxBytes call key marker e marker')
    (hreserve : ∀ claims uploadId bytes, call = .reserve claims uploadId bytes →
      call.Wins key e → d = bytes)
    (hother : ((∀ claims uploadId bytes, call ≠ .reserve claims uploadId bytes) ∨
      ¬call.Wins key e) → d = 0) : BudgetShape maxBytes marker' (granted + d) := by
  cases hmoves with
  | kept hmarks =>
    rw [hother (.inr fun hwins => hmarks hwins.marks), add_zero]
    exact h
  | claimed etag hcall he =>
    rw [hother (.inl (by simp [hcall])), add_zero]
    cases h
    exact .creating etag
  | bound etag etag' uploadId hcall he =>
    rw [hother (.inl (by simp [hcall])), add_zero]
    cases h with
    | creating => exact .multipart etag' uploadId hmax
    | failed _ hstate => cases hstate
  | terminated etag etag' hcall =>
    rw [hother (.inl (by simp [hcall])), add_zero]
    cases h with
    | creating => exact .failed _ rfl hmax
    | failed _ hstate => cases hstate
  | reserved etag etag' hcall hwins hbytes =>
    rw [hreserve _ _ _ hcall hwins]
    cases h with
    | multipart => exact .multipart _ _ (by omega)
    | failed _ hstate => cases hstate
  | exhausted etag etag' hcall hwins =>
    rw [hother (.inr hwins), add_zero]
    cases h with
    | multipart _ _ h => exact .failed _ rfl h
    | failed _ hstate => cases hstate

section

variable {key : MarkerKey} {grant : SignedUploadGrantClaims} {maxBytes : ℤ} {w : Budgets} {n : ℕ}
  {call : BudgetCall} {op : Op} {next : op.Answer → GrantM BudgetReturned}

theorem BudgetMoves.none_of_claim {marker marker' : Option Marker} {e : Sent}
    {claims : SignedUploadGrantClaims}
    (h : BudgetMoves maxBytes (.claim claims) key marker e marker')
    (hwins : (BudgetCall.claim claims).Wins key e) : marker = none ∧ marker' ≠ none := by
  cases h with
  | kept hmarks => exact absurd hwins hmarks
  | claimed => exact ⟨rfl, nofun⟩
  | bound _ _ _ hcall | reserved _ _ hcall | exhausted _ _ hcall | terminated _ _ hcall =>
    cases hcall

theorem BudgetSound.shape_call (hmax : 0 ≤ maxBytes) (h : BudgetSound key grant maxBytes w)
    (hmeeting : MeetingBudgets w) (hmeeting' : MeetingBudgets (afterCall w n call op next))
    (hn : w.threads[n]? = some (call, .call op next))
    (hmoves : BudgetMoves maxBytes call key (w.store.find key) ⟨op, (op.exec w.store).1⟩
      ((op.exec w.store).2.find key)) :
    BudgetShape maxBytes ((afterCall w n call op next).store.find key)
      (granted key (afterCall w n call op next)) := by
  have hthread : (afterCall w n call op next).threads[n]? = some (call, next (op.exec w.store).1) :=
    List.getElem?_set_self (List.getElem?_eq_some_iff.1 hn).1
  have hsucceeded : Succeeded key (afterCall w n call op next) n call ↔ _ :=
    succeeded_afterCall hmeeting hmeeting' hn
  have hold : ¬Succeeded key w n call := by
    rintro ⟨returned, hreturned, -⟩
    rw [hn] at hreturned
    cases hreturned
  simp only [hold, false_or, true_and] at hsucceeded
  rw [granted_afterCall hn]
  refine h.shape.step hmax hmoves ?_ ?_
  · rintro claims uploadId bytes rfl hwins
    exact grantedBy_of_succeeded hthread (hsucceeded.2 hwins)
  · rintro (hcall | hwins)
    · unfold grantedBy
      split
      · next claims uploadId bytes heq => exact absurd (Prod.mk.inj heq).1 (hcall _ _ _)
      · rfl
    · exact grantedBy_of_not_succeeded hthread fun h => hwins (hsucceeded.1 h)

theorem BudgetSound.proceed (hmax : 0 ≤ maxBytes) (hgrant : grant.maxBytes = some maxBytes)
    (h : BudgetSound key grant maxBytes w) (hmeeting : MeetingBudgets w)
    (hmeeting' : MeetingBudgets (afterCall w n call op next))
    (hn : w.threads[n]? = some (call, .call op next)) :
    BudgetSound key grant maxBytes (afterCall w n call op next) := by
  have hmoves := h.budgetMoves hgrant hmeeting hn
  have htouches := touches_exec w.store op key
  have hmono : ∀ {etag metadata}, Written key etag metadata w.history →
      Written key etag metadata (afterCall w n call op next).history :=
    fun hwritten => written_append.2 (.inl hwritten)
  refine
    { shape := h.shape_call hmax hmeeting hmeeting' hn hmoves
      below := fun etag metadata hwritten => ?_
      unique := fun etag metadata metadata' hwritten hwritten' => ?_
      current := fun marker hmarker => ?_
      read := fun m marker hmem => ?_
      calls := fun m call' q hm hkey => ?_
      unclaimed := fun hnone m claims hsucceeded => ?_
      once := fun m m' claims claims' hm hm' => ?_ }
  · have hle := nextEtag_le_exec w.store op
    rcases written_append.1 hwritten with hold | ⟨onlyIf, hnew⟩
    · exact (h.below etag metadata hold).trans_le hle
    · obtain ⟨rfl, hnext⟩ := fresh_exec hnew
      show _ < (op.exec w.store).2.nextEtag
      omega
  · rcases written_append.1 hwritten with hold | ⟨onlyIf, hnew⟩ <;>
      rcases written_append.1 hwritten' with hold' | ⟨onlyIf', hnew'⟩
    · exact h.unique etag metadata metadata' hold hold'
    · exact absurd (fresh_exec hnew').1 (h.below etag metadata hold).ne
    · exact absurd (fresh_exec hnew).1 (h.below etag metadata' hold').ne
    · cases hnew.symm.trans hnew'
      rfl
  · generalize hfind : w.store.find key = before at htouches
    generalize hanswer : (op.exec w.store).1 = answer at htouches
    have hmarker : (op.exec w.store).2.find key = some marker := hmarker
    rw [hmarker] at htouches
    cases htouches with
    | other | refused => exact hmono (h.current marker hfind)
    | @written onlyIf metadata etag hholds =>
      refine written_append.2 (.inr ⟨onlyIf, ?_⟩)
      rw [hanswer]
  · rcases mem_append.1 hmem with hmem | hmem
    · exact hmono (h.read m marker hmem)
    · obtain ⟨-, he⟩ := Prod.mk.inj (mem_singleton.1 hmem)
      exact hmono (h.current marker (htouches.eq_of_head he.symm).symm)
  · have hold : ∃ q', w.threads[m]? = some (call', q') := by
      by_cases hmn : m = n
      · subst hmn
        rw [show (afterCall w m call op next).threads[m]? = _ from
          List.getElem?_set_self (List.getElem?_eq_some_iff.1 hn).1] at hm
        cases hm
        exact ⟨_, hn⟩
      · rw [show (afterCall w n call op next).threads[m]? = w.threads[m]? from
          List.getElem?_set_ne (Ne.symm hmn)] at hm
        exact ⟨q, hm⟩
    obtain ⟨q', hm'⟩ := hold
    obtain ⟨hclaims, hheld⟩ := h.calls m call' q' hm' hkey
    exact ⟨hclaims, fun etag hetag => hmono (hheld etag hetag)⟩
  · rcases (succeeded_afterCall hmeeting hmeeting' hn).1 hsucceeded with hold | ⟨rfl, rfl, hwins⟩
    · -- no marker is deleted
      have hnone' : w.store.find key = none := by
        generalize w.store.find key = before at hmoves
        rw [show (op.exec w.store).2.find key = none from hnone] at hmoves
        cases hmoves with
        | kept => rfl
      exact h.unclaimed hnone' m claims hold
    · exact (hmoves.none_of_claim hwins).2 hnone
  · rcases (succeeded_afterCall hmeeting hmeeting' hn).1 hm with hold | ⟨rfl, rfl, hwins⟩ <;>
      rcases (succeeded_afterCall hmeeting hmeeting' hn).1 hm' with hold' | ⟨rfl, hcall', hwins'⟩
    · exact h.once m m' claims claims' hold hold'
    · subst hcall'
      exact absurd hold (h.unclaimed (hmoves.none_of_claim hwins').1 m claims)
    · exact absurd hold' (h.unclaimed (hmoves.none_of_claim hwins).1 m' claims')
    · rfl

end

/-! ### Every run -/

/-- Requests for a grant carry its token; and who binds or terminates it holds the claim that a
request has returned. -/
def Honest (key : MarkerKey) (grant : SignedUploadGrantClaims) (w : Budgets) : BudgetAction → Prop
  | .begin call => signedUploadGrantMarkerKey call.claims = .ok key → call.claims = grant ∧
    ∀ etag ∈ call.held, ∃ n, w.outcome n = some (.claim grant, some (.claimed (.ok etag)))
  | _ => True

/-- Every request meets its contract, and the marker of the grant is right. -/
structure KeptBudgets (key : MarkerKey) (grant : SignedUploadGrantClaims) (maxBytes : ℤ)
    (w : Budgets) : Prop where
  meeting : MeetingBudgets w
  sound : BudgetSound key grant maxBytes w

section

variable {key : MarkerKey} {grant : SignedUploadGrantClaims} {maxBytes : ℤ} {w : Budgets}

theorem succeeded_begin {call : BudgetCall} (hmeeting : MeetingBudgets w)
    (hmeeting' : MeetingBudgets { w with threads := w.threads ++ [(call, call.body)] }) {n : ℕ}
    {call' : BudgetCall} :
    Succeeded key { w with threads := w.threads ++ [(call, call.body)] } n call' ↔
      Succeeded key w n call' := by
  rcases lt_or_ge n w.threads.length with hn | hn
  · simp only [Succeeded, List.getElem?_append_left hn]
  · refine iff_of_false ?_ ?_
    · rintro ⟨returned, hreturned, hsuccess, hkey⟩
      obtain ⟨e, he, -⟩ := ((hmeeting'.returned hreturned).1 key).2 ⟨hsuccess, hkey⟩
      rw [show Shared.own n w.history = [] from hmeeting.fresh n hn] at he
      cases he
    · rintro ⟨returned, hreturned, -⟩
      rw [List.getElem?_eq_none hn] at hreturned
      cases hreturned

theorem KeptBudgets.begin (h : KeptBudgets key grant maxBytes w) {call : BudgetCall}
    (hhonest : Honest key grant w (.begin call))
    (hmeeting' : MeetingBudgets { w with threads := w.threads ++ [(call, call.body)] }) :
    BudgetSound key grant maxBytes { w with threads := w.threads ++ [(call, call.body)] } where
  below := h.sound.below
  unique := h.sound.unique
  current := h.sound.current
  read := h.sound.read
  unclaimed hnone n claims hsucceeded :=
    h.sound.unclaimed hnone n claims ((succeeded_begin h.meeting hmeeting').1 hsucceeded)
  once n m claims claims' hn hm := h.sound.once n m claims claims'
    ((succeeded_begin h.meeting hmeeting').1 hn) ((succeeded_begin h.meeting hmeeting').1 hm)
  shape := by
    have hnew : grantedBy key (call, call.body) = 0 := by
      have hthread : (w.threads ++ [(call, call.body)])[w.threads.length]? =
          some (call, call.body) := by simp
      refine grantedBy_of_not_succeeded
        (w := { w with threads := w.threads ++ [(call, call.body)] }) hthread fun hsucceeded => ?_
      obtain ⟨returned, hreturned, -⟩ := (succeeded_begin h.meeting hmeeting').1 hsucceeded
      simp at hreturned
    have hgranted : granted key { w with threads := w.threads ++ [(call, call.body)] } =
        granted key w := by
      simp [granted, hnew]
    rw [hgranted]
    exact h.sound.shape
  calls n call' q hn hkey := by
    rcases lt_or_ge n w.threads.length with hlt | hge
    · rw [List.getElem?_append_left hlt] at hn
      exact h.sound.calls n call' q hn hkey
    · rw [List.getElem?_append_right hge, List.getElem?_singleton] at hn
      split at hn
      · cases hn
        obtain ⟨hclaims, hheld⟩ := hhonest hkey
        refine ⟨hclaims, fun etag hetag => ?_⟩
        -- the claim was returned by who has written the marker
        obtain ⟨m, hm⟩ := hheld etag hetag
        obtain ⟨key', hkey', hmem⟩ :=
          (h.meeting.returned (Shared.outcome_eq_some.1 hm)).2 etag rfl
        obtain rfl := Except.ok.inj ((hkey'.symm.trans (congrArg _ hclaims.symm)).trans hkey)
        exact ⟨m, _, Shared.mem_own.1 hmem⟩
      · cases hn

theorem KeptBudgets.step (hmax : 0 ≤ maxBytes) (hgrant : grant.maxBytes = some maxBytes)
    (h : KeptBudgets key grant maxBytes w) {action : BudgetAction}
    (hhonest : Honest key grant w action) :
    KeptBudgets key grant maxBytes (w.step budgets action) := by
  have hmoves := Shared.moves_step budgets w action
  have hmeeting' := h.meeting.step hmoves meets_budget fun _ _ _ _ _ _ => trivial
  refine ⟨hmeeting', ?_⟩
  generalize w.step budgets action = w' at hmoves hmeeting'
  cases hmoves with
  | begin call => exact h.begin hhonest hmeeting'
  | call hn => exact h.sound.proceed hmax hgrant h.meeting hmeeting' hn
  | idle => exact h.sound
  | other ms => exact ⟨h.sound.shape, h.sound.below, h.sound.unique, h.sound.current, h.sound.read,
      h.sound.calls, h.sound.unclaimed, h.sound.once⟩

end

theorem BudgetMoves.uploadId {maxBytes : ℤ} {call : BudgetCall} {key : MarkerKey}
    {marker marker' : Option Marker} {e : Sent} (h : BudgetMoves maxBytes call key marker e marker')
    {uploadId : String} (hupload : ∃ m ∈ marker, m.customMetadata.uploadId = some uploadId) :
    ∃ m ∈ marker', m.customMetadata.uploadId = some uploadId := by
  obtain ⟨m, hm, hupload⟩ := hupload
  cases h with
  | kept => exact ⟨m, hm, hupload⟩
  | claimed => cases hm
  | bound | terminated =>
    cases hm
    cases hupload
  | reserved | exhausted =>
    cases hm
    exact ⟨_, rfl, hupload⟩

theorem BudgetMoves.failed {maxBytes : ℤ} {call : BudgetCall} {key : MarkerKey}
    {marker marker' : Option Marker} {e : Sent} (h : BudgetMoves maxBytes call key marker e marker')
    (hfailed : ∃ m ∈ marker, m.customMetadata.state = some .failed) :
    marker' = marker ∧ ¬Marks key e := by
  obtain ⟨m, hm, hfailed⟩ := hfailed
  cases h with
  | kept hmarks => exact ⟨rfl, hmarks⟩
  | claimed => cases hm
  | bound | reserved | exhausted | terminated =>
    cases hm
    cases hfailed

theorem BudgetShape.le {maxBytes granted : ℤ} {marker : Option Marker}
    (h : BudgetShape maxBytes marker granted) (hmax : 0 ≤ maxBytes) : granted ≤ maxBytes := by
  cases h with
  | unclaimed | creating => exact hmax
  | multipart _ _ h => exact h
  | failed _ _ h => exact h

theorem BudgetShape.reservedBytes {maxBytes granted : ℤ} {marker : Option Marker} {m : Marker}
    (h : BudgetShape maxBytes marker granted) (hm : m ∈ marker)
    (hstate : m.customMetadata.state = some .multipart) :
    m.customMetadata.reservedBytes = some granted := by
  cases h with
  | unclaimed => cases hm
  | creating =>
    cases hm
    cases hstate
  | multipart =>
    cases hm
    rfl
  | failed _ hfailed =>
    cases hm
    cases hfailed.symm.trans hstate

def BoundTo (key : MarkerKey) (uploadId : String) (w : Budgets) : Prop :=
  ∃ marker ∈ w.store.find key, marker.customMetadata.uploadId = some uploadId

def Failed (key : MarkerKey) (w : Budgets) : Prop :=
  ∃ marker ∈ w.store.find key, marker.customMetadata.state = some .failed

section

variable {key : MarkerKey} {grant : SignedUploadGrantClaims} {maxBytes : ℤ} {w : Budgets}

theorem KeptBudgets.boundTo_step (hgrant : grant.maxBytes = some maxBytes)
    (h : KeptBudgets key grant maxBytes w) {uploadId : String} (hbound : BoundTo key uploadId w)
    (action : BudgetAction) : BoundTo key uploadId (w.step budgets action) := by
  have hmoves := Shared.moves_step budgets w action
  generalize w.step budgets action = w' at hmoves
  cases hmoves with
  | begin | idle | other => exact hbound
  | call hn => exact (h.sound.budgetMoves hgrant h.meeting hn).uploadId hbound

theorem KeptBudgets.failed_step (hgrant : grant.maxBytes = some maxBytes)
    (h : KeptBudgets key grant maxBytes w) (hfailed : Failed key w) (action : BudgetAction) :
    Failed key (w.step budgets action) ∧ ∀ n call, Succeeded key (w.step budgets action) n call →
      Succeeded key w n call := by
  have hmoves := Shared.moves_step budgets w action
  have hmeeting' := h.meeting.step hmoves meets_budget fun _ _ _ _ _ _ => trivial
  generalize w.step budgets action = w' at hmoves hmeeting'
  cases hmoves with
  | idle | other => exact ⟨hfailed, fun _ _ hsucceeded => hsucceeded⟩
  | begin call => exact ⟨hfailed, fun _ _ => (succeeded_begin h.meeting hmeeting').1⟩
  | call hn =>
    obtain ⟨hsame, hmarks⟩ := (h.sound.budgetMoves hgrant h.meeting hn).failed hfailed
    refine ⟨?_, fun n call hsucceeded => ?_⟩
    · obtain ⟨marker, hmarker, hstate⟩ := hfailed
      exact ⟨marker, hsame.trans hmarker, hstate⟩
    · rcases (succeeded_afterCall h.meeting hmeeting' hn).1 hsucceeded with hold | ⟨-, -, hwins⟩
      · exact hold
      · exact absurd hwins.marks hmarks

end

/-- Over any interleaving of the requests for a grant: the bytes that were granted are within the
budget, and are what the marker says; at most one claim succeeds; the bound upload never changes;
and when the marker has failed nothing succeeds any more. -/
theorem budget_run (key : MarkerKey) (grant : SignedUploadGrantClaims) (maxBytes : ℤ)
    (hgrant : grant.maxBytes = some maxBytes) (hmax : 0 ≤ maxBytes) (clock : ℤ)
    (actions actions' : List BudgetAction)
    (hhonest : Runs.Along (Shared.step budgets) (Honest key grant)
      (Shared.idle { clock }) (actions ++ actions')) :
    let w : Budgets := Runs.last (Shared.step budgets) (Shared.idle { clock }) actions
    let w' : Budgets := Runs.last (Shared.step budgets) w actions'
    granted key w ≤ maxBytes ∧
    (∀ marker ∈ w.store.find key, marker.customMetadata.state = some .multipart →
      marker.customMetadata.reservedBytes = some (granted key w)) ∧
    (∀ n m claims claims', Succeeded key w n (.claim claims) →
      Succeeded key w m (.claim claims') → n = m) ∧
    (∀ uploadId, BoundTo key uploadId w → BoundTo key uploadId w') ∧
    (Failed key w → Failed key w' ∧
      ∀ n call, Succeeded key w' n call → Succeeded key w n call) := by
  intro w w'
  obtain ⟨hactions, hactions'⟩ := Runs.Along.append.1 hhonest
  have hidle : KeptBudgets key grant maxBytes (Shared.idle { clock }) := by
    refine ⟨Shared.meeting_idle _, .unclaimed, ?_, ?_, nofun, nofun, nofun, ?_, ?_⟩
    · rintro etag metadata ⟨n, onlyIf, hmem⟩
      cases hmem
    · rintro etag metadata metadata' ⟨n, onlyIf, hmem⟩
      cases hmem
    · rintro - n claims ⟨returned, hn, -⟩
      cases hn
    · rintro n m claims claims' ⟨returned, hn, -⟩
      cases hn
  have hkept : KeptBudgets key grant maxBytes w :=
    (hactions.of_invariant (Q := fun _ _ => True) hidle
      (fun w action h hhonest => h.step hmax hgrant hhonest) fun _ _ _ _ => trivial).2
  have hrest : ∀ J : Budgets → Prop, J w → (∀ w action, KeptBudgets key grant maxBytes w → J w →
      J (w.step budgets action)) → J w' := by
    intro J hw hJ
    exact (hactions'.of_invariant (I := fun w => KeptBudgets key grant maxBytes w ∧ J w)
      (Q := fun _ _ => True) ⟨hkept, hw⟩
      (fun w action h hhonest => ⟨h.1.step hmax hgrant hhonest, hJ w action h.1 h.2⟩)
      fun _ _ _ _ => trivial).2.2
  refine ⟨?_, ?_, hkept.sound.once, fun uploadId hbound => ?_, fun hfailed => ?_⟩
  · exact hkept.sound.shape.le hmax
  · exact fun marker hmarker => hkept.sound.shape.reservedBytes hmarker
  · exact hrest _ hbound fun w action h hw => h.boundTo_step hgrant hw action
  · refine hrest (fun w' => Failed key w' ∧
      ∀ n call, Succeeded key w' n call → Succeeded key w n call) ⟨hfailed, fun _ _ h => h⟩ ?_
    rintro w₁ action h ⟨hfailed₁, hsucceeded⟩
    obtain ⟨hfailed₂, hold⟩ := h.failed_step hgrant hfailed₁ action
    exact ⟨hfailed₂, fun n call h => hsucceeded n call (hold n call h)⟩

def budgetGrant : SignedUploadGrantClaims where
  expiresAt := 1000
  grantId := some "0123456789abcdef0123456789abcdef"
  maxBytes := some 10

def budgetKey : MarkerKey where
  expiresAt := 1000
  grantId := "0123456789abcdef0123456789abcdef"

/-- A claim, a bind with what it has returned, and two reservations of which one fits. -/
def budgetActions : List BudgetAction :=
  [.begin (.claim budgetGrant), .proceed 0, .proceed 0, .begin (.bind budgetGrant 1 "upload"),
    .proceed 1, .proceed 1, .begin (.reserve budgetGrant "upload" 6), .proceed 2,
    .begin (.reserve budgetGrant "upload" 7), .proceed 3, .proceed 2, .proceed 3, .proceed 2]

theorem budget_run_within : granted budgetKey (Runs.last (Shared.step budgets)
    (Shared.idle { clock := 0 }) budgetActions) ≤ 10 := by
  refine (budget_run budgetKey budgetGrant 10 rfl (by decide) 0 budgetActions [] ?_).1
  refine ⟨fun _ => ⟨rfl, nofun⟩, trivial, trivial, fun _ => ⟨rfl, ?_⟩, trivial, trivial,
    fun _ => ⟨rfl, nofun⟩, trivial, fun _ => ⟨rfl, nofun⟩, trivial, trivial, trivial, trivial,
    trivial⟩
  rintro etag ⟨rfl⟩
  exact ⟨0, by decide +kernel⟩

end EdgeBase.Storage
