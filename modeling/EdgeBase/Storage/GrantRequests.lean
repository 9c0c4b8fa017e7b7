import EdgeBase.Storage.Grants

/-!
# Requests of a signed multipart grant

A request claims a grant, binds it to an upload, reserves bytes of its budget, or terminates it.

* `BudgetCall`, `BudgetCall.body` : the requests.
* `budgetContract`, `meets_budget` : a request that has written something is done, and returns what
  it has achieved.
-/

namespace EdgeBase.Storage

open List Prog

inductive BudgetCall where
  | claim (claims : SignedUploadGrantClaims)
  | bind (claims : SignedUploadGrantClaims) (claim : ℕ) (uploadId : String)
  | reserve (claims : SignedUploadGrantClaims) (uploadId : String) (bytes : ℤ)
  | terminate (claims : SignedUploadGrantClaims) (claim : ℕ)
  deriving DecidableEq

inductive BudgetReturned where
  | claimed (result : Except GrantError ℕ)
  | bound (result : Except GrantError Unit)
  | reserved (result : Except GrantError Bool)
  | terminated (result : Except GrantError Bool)
  deriving DecidableEq

namespace BudgetCall

def body : BudgetCall → GrantM BudgetReturned
  | .claim claims => .claimed <$> (claimSignedMultipartUploadGrant claims).run
  | .bind claims etag uploadId =>
    .bound <$> (bindSignedMultipartUploadGrant claims etag uploadId).run
  | .reserve claims uploadId bytes =>
    .reserved <$> (reserveSignedMultipartUploadBytes claims uploadId bytes).run
  | .terminate claims etag =>
    .terminated <$> (terminateSignedMultipartUploadGrant claims etag).run

def claims : BudgetCall → SignedUploadGrantClaims
  | .claim claims => claims
  | .bind claims _ _ => claims
  | .reserve claims _ _ => claims
  | .terminate claims _ => claims

def held : BudgetCall → Option ℕ
  | .bind _ etag _ => some etag
  | .terminate _ etag => some etag
  | _ => none

def Success : BudgetCall → BudgetReturned → Bool
  | .claim _, .claimed (.ok _) => true
  | .bind _ _ _, .bound (.ok ()) => true
  | .reserve _ _ _, .reserved (.ok true) => true
  | _, _ => false

def Wins : BudgetCall → MarkerKey → Sent → Prop
  | .reserve _ _ _, key, e => ∃ onlyIf metadata etag,
    e = ⟨.put key onlyIf metadata, some etag⟩ ∧ metadata.state = some .multipart
  | .terminate _ _, _, _ => False
  | _, key, e => Marks key e

/-- What a request may write, after what it has read. -/
def Writes : BudgetCall → List Sent → MarkerKey → OnlyIf → GrantMetadata → Prop
  | .claim _, _, _, onlyIf, metadata =>
    onlyIf = .etagDoesNotMatchAny ∧ metadata = { state := some .creating }
  | .bind claims etag uploadId, _, _, onlyIf, metadata =>
    onlyIf = .etagMatches etag ∧ metadata = boundMetadata claims uploadId
  | .terminate _ etag, _, _, onlyIf, metadata =>
    onlyIf = .etagMatches etag ∧ metadata = { state := some .failed }
  | .reserve claims uploadId bytes, log, key, onlyIf, metadata =>
    ∃ marker maxBytes reservedBytes, (⟨.head key, some marker⟩ : Sent) ∈ log ∧
      onlyIf = .etagMatches marker.etag ∧ claims.maxBytes = some maxBytes ∧ 0 < bytes ∧
      marker.customMetadata.state = some .multipart ∧
      marker.customMetadata.uploadId = some uploadId ∧
      reservedBytesOf maxBytes marker.customMetadata = some reservedBytes ∧
      ((maxBytes - reservedBytes < bytes ∧ metadata =
        ⟨some .failed, some uploadId, some maxBytes, some reservedBytes⟩) ∨
      (bytes ≤ maxBytes - reservedBytes ∧ metadata =
        ⟨some .multipart, some uploadId, some maxBytes, some (reservedBytes + bytes)⟩))

end BudgetCall

def Unwritten (log : List Sent) : Prop := ∀ e ∈ log, ∀ key, ¬Marks key e

def budgetContract (call : BudgetCall) : Prog.Contract Op.Answer where
  rely _ _ _ := True
  guarantee log op := Unwritten log ∧
    (∀ key onlyIf metadata, op = .put key onlyIf metadata →
      signedUploadGrantMarkerKey call.claims = .ok key ∧ call.Writes log key onlyIf metadata) ∧
    ∀ keys, op ≠ .delete keys

/-- A request has succeeded if what it has written counts; a claim is the ETag of what was
written. -/
def BudgetCall.Post (call : BudgetCall) (log : List Sent) (returned : BudgetReturned) : Prop :=
  (∀ key, (∃ e ∈ log, call.Wins key e) ↔
    call.Success returned ∧ signedUploadGrantMarkerKey call.claims = .ok key) ∧
  ∀ etag, returned = .claimed (.ok etag) → ∃ key,
    signedUploadGrantMarkerKey call.claims = .ok key ∧
      (⟨.put key .etagDoesNotMatchAny { state := some .creating }, some etag⟩ : Sent) ∈ log

section

variable {call : BudgetCall} {log : List Sent} {e : Sent} {key : MarkerKey}

theorem unwritten_nil : Unwritten [] :=
  forall_mem_nil _

theorem Unwritten.append (h : Unwritten log) (he : ∀ key, ¬Marks key e) :
    Unwritten (log ++ [e]) := by
  intro e' he'
  rcases mem_append.1 he' with he' | he'
  · exact h e' he'
  · obtain rfl := mem_singleton.1 he'
    exact he

theorem BudgetCall.Wins.marks (h : call.Wins key e) : Marks key e := by
  cases call with
  | claim | bind => exact h
  | terminate => exact h.elim
  | reserve =>
    obtain ⟨onlyIf, metadata, etag, rfl, -⟩ := h
    exact ⟨onlyIf, metadata, etag, rfl⟩

theorem Unwritten.not_wins (h : Unwritten log) : ¬∃ e ∈ log, call.Wins key e := by
  rintro ⟨e, he, hwins⟩
  exact h e he key hwins.marks

theorem Unwritten.post (h : Unwritten log) {returned : BudgetReturned}
    (hsuccess : call.Success returned = false) (hclaimed : ∀ etag, returned ≠ .claimed (.ok etag)) :
    call.Post log returned :=
  ⟨fun _ => iff_of_false h.not_wins fun h => by simp [hsuccess] at h,
    fun etag h => absurd h (hclaimed etag)⟩

theorem Unwritten.wins_append (h : Unwritten log) :
    (∃ e' ∈ log ++ [e], call.Wins key e') ↔ call.Wins key e := by
  constructor
  · rintro ⟨e', he', hwins⟩
    rcases mem_append.1 he' with he' | he'
    · exact absurd ⟨e', he', hwins⟩ h.not_wins
    · obtain rfl := mem_singleton.1 he'
      exact hwins
  · exact fun hwins => ⟨e, mem_append_right _ (mem_singleton_self _), hwins⟩

theorem meets_assertUsable {claims : SignedUploadGrantClaims}
    {Q : List Sent → Except GrantError String → Prop} (hlog : Unwritten log)
    (hQ : ∀ log' r, Unwritten log' → Q log' r) :
    Prog.Meets (budgetContract call) Q (assertUsableGrant claims).run log := by
  unfold assertUsableGrant
  cases claims.grantId with
  | none => exact hQ log _ hlog
  | some grantId =>
    refine meets_run_ite.2 ⟨fun _ => hQ log _ hlog, fun _ => ?_⟩
    refine meets_run_bind.2 (meets_run_lift.2 ⟨⟨hlog, by simp, by simp⟩, fun now _ => ?_⟩)
    have hlog' : Unwritten (log ++ [⟨.now, now⟩]) := hlog.append (by simp [Marks])
    simp only [meets_run_bind, meets_run_ite, meets_run_throw, meets_run_pure]
    exact ⟨fun _ => hQ _ _ hlog', fun _ => hQ _ _ hlog'⟩

end

/-! ### What the requests do -/

variable (claims : SignedUploadGrantClaims)

theorem meets_claim : (BudgetCall.body (.claim claims)).Meets (budgetContract (.claim claims))
      (BudgetCall.Post (.claim claims)) [] := by
  refine meets_map.2
    (meets_run_bind.2 (meets_assertUsable unwritten_nil fun log r hlog => ?_))
  cases r with
  | error error => exact hlog.post (by simp [BudgetCall.Success]) (by simp)
  | ok _ =>
    refine meets_run_bind.2 (meets_run_mk.2 ?_)
    cases hkey : signedUploadGrantMarkerKey claims with
    | error error => exact hlog.post (by simp [BudgetCall.Success]) (by simp)
    | ok key =>
      refine meets_run_bind.2 (meets_run_lift.2 ⟨⟨hlog, ?_, by simp⟩, fun marker _ => ?_⟩)
      · rintro _ _ _ ⟨rfl, rfl, rfl⟩
        exact ⟨hkey, rfl, rfl⟩
      cases marker with
      | none =>
        exact (hlog.append (by simp [marks_put])).post (by simp [BudgetCall.Success]) (by simp)
      | some etag =>
        refine ⟨fun key' => ?_, ?_⟩
        · rw [hlog.wins_append]
          refine marks_put.trans ⟨fun h => ⟨rfl, by rw [h.1]; exact hkey⟩, fun h => ?_⟩
          exact ⟨Except.ok.inj (h.2.symm.trans hkey), rfl⟩
        · rintro etag' ⟨rfl⟩
          exact ⟨key, hkey, mem_append_right _ (mem_singleton_self _)⟩

theorem meets_bindGrant (etag : ℕ) (uploadId : String) :
    (BudgetCall.body (.bind claims etag uploadId)).Meets
      (budgetContract (.bind claims etag uploadId)) (BudgetCall.Post (.bind claims etag uploadId))
      [] := by
  refine meets_map.2
    (meets_run_bind.2 (meets_assertUsable unwritten_nil fun log r hlog => ?_))
  cases r with
  | error error => exact hlog.post (by simp [BudgetCall.Success]) (by simp)
  | ok _ =>
    simp only [meets_run_bind, meets_run_ite, meets_run_throw, meets_run_pure]
    refine ⟨fun _ => hlog.post (by simp [BudgetCall.Success]) (by simp), fun _ =>
      ⟨fun _ => hlog.post (by simp [BudgetCall.Success]) (by simp), fun _ => ?_⟩⟩
    refine meets_run_mk.2 ?_
    cases hkey : signedUploadGrantMarkerKey claims with
    | error error => exact hlog.post (by simp [BudgetCall.Success]) (by simp)
    | ok key =>
      refine meets_run_lift.2 ⟨⟨hlog, ?_, by simp⟩, fun marker _ => ?_⟩
      · rintro _ _ _ ⟨rfl, rfl, rfl⟩
        exact ⟨hkey, rfl, rfl⟩
      refine ⟨?_, fun hmarker => ?_⟩
      · rintro rfl
        exact (hlog.append (by simp [marks_put])).post (by simp [BudgetCall.Success]) (by simp)
      · refine ⟨fun key' => ?_, by simp⟩
        rw [hlog.wins_append]
        refine marks_put.trans ⟨fun h => ⟨rfl, by rw [h.1]; exact hkey⟩, fun h => ?_⟩
        exact ⟨Except.ok.inj (h.2.symm.trans hkey), Option.isSome_iff_ne_none.2 hmarker⟩

theorem meets_terminate (etag : ℕ) :
    (BudgetCall.body (.terminate claims etag)).Meets (budgetContract (.terminate claims etag))
      (BudgetCall.Post (.terminate claims etag)) [] := by
  refine meets_map.2 ?_
  have hpost : ∀ (log : List Sent) (r : Except GrantError Bool),
      (BudgetCall.terminate claims etag).Post log (.terminated r) := fun log r =>
    ⟨fun _ => by simp [BudgetCall.Wins, BudgetCall.Success], by simp⟩
  refine meets_run_ite.2 ⟨fun _ => hpost _ _, fun _ => ?_⟩
  refine meets_run_bind.2 (meets_run_mk.2 ?_)
  cases hkey : signedUploadGrantMarkerKey claims with
  | error error => exact hpost _ _
  | ok key =>
    refine meets_run_bind.2
      (meets_run_lift.2 ⟨⟨unwritten_nil, ?_, by simp⟩, fun _ _ => hpost _ _⟩)
    rintro _ _ _ ⟨rfl, rfl, rfl⟩
    exact ⟨hkey, rfl, rfl⟩

theorem meets_reserveAttempts {claims : SignedUploadGrantClaims} {uploadId : String}
    {bytes maxBytes : ℤ} {key : MarkerKey} (hkey : signedUploadGrantMarkerKey claims = .ok key)
    (hmax : claims.maxBytes = some maxBytes) (hbytes : 0 < bytes) {attempts : ℕ} {log : List Sent}
    (hlog : Unwritten log) : Prog.Meets (budgetContract (.reserve claims uploadId bytes))
      (fun log r => (BudgetCall.reserve claims uploadId bytes).Post log (.reserved r))
      (reserveAttempts key maxBytes uploadId bytes attempts).run log := by
  have herror : ∀ {log : List Sent} {error : GrantError}, Unwritten log →
      (BudgetCall.reserve claims uploadId bytes).Post log (.reserved (.error error)) :=
    fun hlog => hlog.post (by simp [BudgetCall.Success]) (by simp)
  induction attempts generalizing log with
  | zero => exact herror hlog
  | succ attempts ih =>
    refine meets_run_bind.2 (meets_run_lift.2 ⟨⟨hlog, by simp, by simp⟩, ?_⟩)
    intro marker _
    have hread : Unwritten (log ++ [⟨.head key, marker⟩]) := hlog.append (by simp [Marks])
    cases marker with
    | none => exact herror hread
    | some marker =>
      have hmem : (⟨.head key, some marker⟩ : Sent) ∈ log ++ [⟨.head key, some marker⟩] :=
        mem_append_right _ (mem_singleton_self _)
      refine meets_run_ite.2 ⟨fun _ => herror hread, fun hbound => ?_⟩
      rw [not_or, not_not, not_not] at hbound
      cases hreserved : reservedBytesOf maxBytes marker.customMetadata with
      | none => exact herror hread
      | some reservedBytes =>
        -- what is written is made of the marker that was read
        have hwrites : ∀ metadata, ((maxBytes - reservedBytes < bytes ∧ metadata =
            ⟨some .failed, some uploadId, some maxBytes, some reservedBytes⟩) ∨
            (bytes ≤ maxBytes - reservedBytes ∧ metadata =
              ⟨some .multipart, some uploadId, some maxBytes, some (reservedBytes + bytes)⟩)) →
            (BudgetCall.reserve claims uploadId bytes).Writes
              (log ++ [⟨.head key, some marker⟩]) key (.etagMatches marker.etag) metadata :=
          fun metadata h => ⟨marker, maxBytes, reservedBytes, hmem, rfl, hmax, hbytes, hbound.1,
            hbound.2, hreserved, h⟩
        refine meets_run_ite.2 ⟨fun hover => ?_, fun hwithin => ?_⟩
        · refine meets_run_bind.2 (meets_run_lift.2 ⟨⟨hread, ?_, by simp⟩, ?_⟩)
          · rintro _ _ _ ⟨rfl, rfl, rfl⟩
            exact ⟨hkey, hwrites _ (.inl ⟨hover, rfl⟩)⟩
          · intro terminal _
            cases terminal with
            | none => exact ih (hread.append (by simp [marks_put]))
            | some etag =>
              refine ⟨fun key' => ?_, by simp⟩
              rw [hread.wins_append]
              refine iff_of_false ?_ (by simp [BudgetCall.Success])
              rintro ⟨onlyIf, metadata, etag', heq, hstate⟩
              cases heq
              cases hstate
        · refine meets_run_bind.2 (meets_run_lift.2 ⟨⟨hread, ?_, by simp⟩, ?_⟩)
          · rintro _ _ _ ⟨rfl, rfl, rfl⟩
            exact ⟨hkey, hwrites _ (.inr ⟨by omega, rfl⟩)⟩
          · intro reserved _
            cases reserved with
            | none => exact ih (hread.append (by simp [marks_put]))
            | some etag =>
              refine ⟨fun key' => ?_, by simp⟩
              rw [hread.wins_append]
              refine ⟨?_, fun h => ?_⟩
              · rintro ⟨onlyIf, metadata, etag', heq, -⟩
                cases heq
                exact ⟨rfl, hkey⟩
              · obtain rfl := Except.ok.inj (h.2.symm.trans hkey)
                exact ⟨_, _, etag, rfl, rfl⟩

theorem meets_reserve (claims : SignedUploadGrantClaims) (uploadId : String) (bytes : ℤ) :
    (BudgetCall.body (.reserve claims uploadId bytes)).Meets
      (budgetContract (.reserve claims uploadId bytes))
      (BudgetCall.Post (.reserve claims uploadId bytes)) [] := by
  refine meets_map.2
    (meets_run_bind.2 (meets_assertUsable unwritten_nil fun log r hlog => ?_))
  have herror : ∀ {error : GrantError},
      (BudgetCall.reserve claims uploadId bytes).Post log (.reserved (.error error)) :=
    hlog.post (by simp [BudgetCall.Success]) (by simp)
  cases r with
  | error error => exact herror
  | ok _ =>
    cases hmax : claims.maxBytes with
    | none => exact herror
    | some maxBytes =>
      simp only [meets_run_bind, meets_run_ite, meets_run_throw]
      refine ⟨fun _ => herror, fun hvalid => meets_run_mk.2 ?_⟩
      cases hkey : signedUploadGrantMarkerKey claims with
      | error error => exact herror
      | ok key =>
        have hbytes : 0 < bytes := by
          simp only [not_or] at hvalid
          omega
        exact meets_reserveAttempts hkey hmax hbytes hlog

theorem meets_budget (call : BudgetCall) : call.body.Meets (budgetContract call) call.Post [] := by
  cases call with
  | claim claims => exact meets_claim claims
  | bind claims etag uploadId => exact meets_bindGrant claims etag uploadId
  | reserve claims uploadId bytes => exact meets_reserve claims uploadId bytes
  | terminate claims etag => exact meets_terminate claims etag

end EdgeBase.Storage
