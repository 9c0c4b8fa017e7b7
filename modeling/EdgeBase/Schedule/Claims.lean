import EdgeBase.Schedule.Attempts
import Mathlib.Data.List.Pairwise

/-!
# Claims of scheduled deliveries

A worker reads a row and updates it in a later statement; others may do the same in between.

* `meets_claimChunk`, `meets_claimMany` : a call has a claim for each request, and has won those
  that say so.
* `deliveries_run` : over any number of interleaved calls, no attempt is claimed twice, only a
  failed attempt has a next one, and what has succeeded stays.
-/

namespace EdgeBase.Schedule

open List Prog.Meets

/-! ### The calls of a worker -/

/-- A key that was inserted before is found; a retry is of an attempt that was seen to have
failed. -/
def claimContract : Prog.Contract fun _ : Statement => Option ScheduledDeliveryState where
  rely log statement answer :=
    ∀ key, statement = .select key → Inserted key log → ∃ row, answer = some row
  guarantee log statement :=
    ∀ request attempt, statement = .retry request attempt →
      SeenFailed request.toScheduledDeliveryKey attempt log

theorem guarantee_of_ne {log : List Sent} {statement : Statement}
    (h : ∀ request attempt, statement ≠ .retry request attempt) :
    claimContract.guarantee log statement :=
  fun request attempt hretry => absurd hretry (h request attempt)

def WonBy (log : List Sent) (claim : ScheduledDeliveryClaim) : Prop :=
  ∃ statement : Statement, statement.Claiming ∧
    statement.key = some claim.request.toScheduledDeliveryKey ∧
      (⟨statement, some claim.state⟩ : Sent) ∈ log

/-- The requests have claims, and those that say so have won their attempt. -/
structure Resolves (requests : List ScheduledDeliveryClaimRequest) (log : List Sent)
    (claims : List ScheduledDeliveryClaim) : Prop where
  mem_iff : ∀ request, request ∈ claims.map (·.request) ↔ request ∈ requests
  won : ∀ claim ∈ claims, claim.claimed = true → WonBy log claim

namespace Resolves

variable {requests requests' : List ScheduledDeliveryClaimRequest} {log log' : List Sent}
  {claims claims' : List ScheduledDeliveryClaim}

variable (h : Resolves requests log claims)
include h

theorem mono (hlog : log <+: log') : Resolves requests log' claims where
  mem_iff := h.mem_iff
  won claim hclaim hclaimed := by
    obtain ⟨statement, hclaiming, hkey, hmem⟩ := h.won claim hclaim hclaimed
    exact ⟨statement, hclaiming, hkey, hlog.subset hmem⟩

theorem append (h' : Resolves requests' log claims') :
    Resolves (requests ++ requests') log (claims ++ claims') where
  mem_iff request := by
    rw [map_append, mem_append, mem_append, h.mem_iff, h'.mem_iff]
  won claim hclaim := by
    rcases mem_append.1 hclaim with hclaim | hclaim
    · exact h.won claim hclaim
    · exact h'.won claim hclaim

theorem of_mem_iff (hrequests : ∀ request, request ∈ requests ↔ request ∈ requests') :
    Resolves requests' log claims where
  mem_iff request := (h.mem_iff request).trans (hrequests request)
  won := h.won

end Resolves

/-- The statements of a batch were sent, and this is what they got. -/
structure Got {α : Type} (statement : α → Statement) (log log' : List Sent) (xs : List α)
    (results : List (α × Option ScheduledDeliveryState)) : Prop where
  fst : results.map Prod.fst = xs
  made : ∀ x row, (x, row) ∈ results → Prog.Made claimContract log log' (statement x) row

section

variable {α : Type} {statement : α → Statement} {log log' : List Sent} {xs : List α}
  {results : List (α × Option ScheduledDeliveryState)}

theorem got_of_forall₂ {rows : List (Option ScheduledDeliveryState)}
    (h : List.Forall₂ (Prog.Made claimContract log log') (xs.map statement) rows) :
    Got statement log log' xs (xs.zip rows) := by
  induction xs generalizing rows with
  | nil => exact ⟨rfl, by simp⟩
  | cons x xs ih =>
    cases h with
    | cons hmade h =>
      obtain ⟨hfst, hrest⟩ := ih h
      refine ⟨congrArg (x :: ·) hfst, fun y row hy => ?_⟩
      rcases mem_cons.1 hy with hy | hy
      · obtain ⟨rfl, rfl⟩ := Prod.mk.inj hy
        exact hmade
      · exact hrest y row hy

theorem meets_batchOf
    (hg : ∀ log', log <+: log' → ∀ x ∈ xs, claimContract.guarantee log' (statement x)) :
    Prog.Meets claimContract (fun log' results => Got statement log log' xs results)
      (batchOf statement xs) log := by
  refine Prog.meets_bind.2 ((Prog.meets_batch ?_).imp fun log' rows _ h => got_of_forall₂ h)
  intro log' hlog i hi
  obtain ⟨x, hx, rfl⟩ := mem_map.1 hi
  exact hg log' hlog x hx

theorem mem_resolved {β : Type} {f : α → ScheduledDeliveryState → β} {y : β} :
    y ∈ resolved f results ↔ ∃ x row, (x, some row) ∈ results ∧ f x row = y := by
  simp [resolved]

theorem mem_raced {x : α} : x ∈ raced results ↔ (x, none) ∈ results := by
  simp [raced]

theorem Got.mem_iff (h : Got statement log log' xs results) {x : α} :
    x ∈ xs ↔ (∃ row, (x, some row) ∈ results) ∨ x ∈ raced results := by
  rw [← h.fst, mem_raced, mem_map]
  constructor
  · rintro ⟨⟨x, row⟩, hmem, rfl⟩
    cases row with
    | none => exact .inr hmem
    | some row => exact .inl ⟨row, hmem⟩
  · rintro (⟨row, hmem⟩ | hmem)
    · exact ⟨_, hmem, rfl⟩
    · exact ⟨_, hmem, rfl⟩

theorem Got.mono {log'' : List Sent} (h : Got statement log log' xs results)
    (hlog : log' <+: log'') : Got statement log log'' xs results where
  fst := h.fst
  made x row hmem := by
    obtain ⟨before, hbefore, hrely, hmade⟩ := h.made x row hmem
    exact ⟨before, hbefore, hrely, hmade.trans hlog⟩

theorem Got.resolves (h : Got statement log log' xs results) (g : α → ScheduledDeliveryClaimRequest)
    (claim : α → ScheduledDeliveryState → ScheduledDeliveryClaim)
    {claims : List ScheduledDeliveryClaim}
    (hclaim : ∀ x row, (claim x row).request = g x ∧ (claim x row).state = row)
    (hkey : ∀ x, (statement x).key = some (g x).toScheduledDeliveryKey)
    (hclaiming : ∀ x row, (claim x row).claimed = true → (statement x).Claiming)
    (hraced : Resolves ((raced results).map g) log' claims) :
    Resolves (xs.map g) log' (resolved claim results ++ claims) where
  mem_iff request := by
    rw [map_append, mem_append, hraced.mem_iff, mem_map, mem_map, mem_map]
    constructor
    · rintro (⟨c, hc, rfl⟩ | ⟨x, hx, rfl⟩)
      · obtain ⟨x, row, hmem, rfl⟩ := mem_resolved.1 hc
        exact ⟨x, h.mem_iff.2 (.inl ⟨row, hmem⟩), (hclaim x row).1.symm⟩
      · exact ⟨x, h.mem_iff.2 (.inr hx), rfl⟩
    · rintro ⟨x, hx, rfl⟩
      rcases h.mem_iff.1 hx with ⟨row, hmem⟩ | hx
      · exact .inl ⟨claim x row, mem_resolved.2 ⟨x, row, hmem, rfl⟩, (hclaim x row).1⟩
      · exact .inr ⟨x, hx, rfl⟩
  won c hc hclaimed := by
    rcases mem_append.1 hc with hc | hc
    · obtain ⟨x, row, hmem, rfl⟩ := mem_resolved.1 hc
      refine ⟨statement x, hclaiming x row hclaimed, ?_, ?_⟩
      · rw [hkey, (hclaim x row).1]
      · rw [(hclaim x row).2]
        exact (h.made x (some row) hmem).mem
    · exact hraced.won c hc hclaimed

end

theorem mapM_ok {ε α β : Type} {f : α → Except ε β} {R : α → β → Prop} {xs : List α}
    (h : ∀ x ∈ xs, ∃ y, f x = .ok y ∧ R x y) : ∃ ys, xs.mapM f = .ok ys ∧ List.Forall₂ R xs ys := by
  induction xs with
  | nil => exact ⟨[], rfl, .nil⟩
  | cons x xs ih =>
    obtain ⟨⟨y, hy, hR⟩, hxs⟩ := forall_mem_cons.1 h
    obtain ⟨ys, hys, hRs⟩ := ih hxs
    refine ⟨y :: ys, ?_, .cons hR hRs⟩
    rw [mapM_cons, hy, hys]
    rfl

theorem map_eq_of_forall₂ {α β : Type} {g : β → α} {xs : List α} {ys : List β}
    (h : List.Forall₂ (fun x y => g y = x) xs ys) : ys.map g = xs := by
  have heq : List.Forall₂ (· = ·) xs (ys.map g) :=
    forall₂_map_right_iff.2 (h.imp fun _ _ => Eq.symm)
  rw [forall₂_eq_eq_eq] at heq
  exact heq.symm

theorem exists_of_forall₂ {α β : Type} {R : α → β → Prop} {xs : List α} {ys : List β}
    (h : List.Forall₂ R xs ys) {y : β} (hy : y ∈ ys) : ∃ x ∈ xs, R x y := by
  induction h with
  | nil => cases hy
  | @cons x y' xs ys hR _ ih =>
    rcases mem_cons.1 hy with rfl | hy
    · exact ⟨x, mem_cons_self .., hR⟩
    · obtain ⟨x', hx', hR'⟩ := ih hy
      exact ⟨x', mem_cons_of_mem x hx', hR'⟩

section

variable {log : List Sent} {requests : List ScheduledDeliveryClaimRequest}

theorem meets_loadMany
    (hinserted : ∀ request ∈ requests, Inserted request.toScheduledDeliveryKey log) :
    Prog.Meets claimContract (fun log' existing =>
      (∀ request ∈ requests, ∃ row, existing.lookup request.toScheduledDeliveryKey = some row) ∧
        ∀ key row, existing.lookup key = some row → (⟨.select key, some row⟩ : Sent) ∈ log')
      (loadMany requests) log := by
  refine Prog.meets_bind.2 ((meets_batchOf fun _ _ _ _ => guarantee_of_ne (by simp)).imp
    fun log' results hlog h => ?_)
  refine ⟨fun request hrequest => ?_, fun key row hrow => ?_⟩
  · -- the key was inserted, so the answer is a row
    have hanswer : ∃ row, (request, some row) ∈ results := by
      rcases h.mem_iff.1 hrequest with hrow | hraced
      · exact hrow
      · obtain ⟨before, hbefore, hrely, -⟩ := h.made request none (mem_raced.1 hraced)
        obtain ⟨row, hrow⟩ := hrely _ rfl ((hinserted request hrequest).mono hbefore.subset)
        cases hrow
    obtain ⟨row, hmem⟩ := hanswer
    exact Option.ne_none_iff_exists'.1
      (Assoc.lookup_merge_ne_none_of_mem (mem_resolved.2 ⟨request, row, hmem, rfl⟩))
  · rcases Assoc.mem_of_lookup_merge hrow with hrow | hmem
    · cases hrow
    · obtain ⟨request, row', hgot, hpair⟩ := mem_resolved.1 hmem
      obtain ⟨rfl, rfl⟩ := Prod.mk.inj hpair
      exact (h.made request _ hgot).mem

theorem meets_liftExcept {α : Type} {x : Except ScheduledDeliveryError α}
    {Q : List Sent → Except ScheduledDeliveryError α → Prop} :
    Prog.Meets claimContract Q (liftExcept x).run log ↔ Q log x :=
  Iff.rfl

theorem exists_reloaded {existing : List (ScheduledDeliveryKey × ScheduledDeliveryState)}
    (hexisting : ∀ request ∈ requests, ∃ row,
      existing.lookup request.toScheduledDeliveryKey = some row) :
    ∀ request ∈ requests, ∃ claim,
      (match existing.lookup request.toScheduledDeliveryKey with
      | none => .error (ScheduledDeliveryError.disappeared request.toScheduledDeliveryKey)
      | some state => .ok (claimFromExisting request state)) = Except.ok claim ∧
        claim.request = request ∧ claim.claimed = false := by
  intro request hrequest
  obtain ⟨row, hrow⟩ := hexisting request hrequest
  exact ⟨claimFromExisting request row, by rw [hrow], rfl, rfl⟩

theorem meets_reload
    (hinserted : ∀ request ∈ requests, Inserted request.toScheduledDeliveryKey log) :
    Prog.Meets claimContract
      (fun log' r => ∃ claims, r = .ok claims ∧ Resolves requests log' claims)
      (reload requests).run log := by
  refine run_bind (R := fun _ existing => ∀ request ∈ requests, ∃ row,
    existing.lookup request.toScheduledDeliveryKey = some row) ?_ ?_
  · exact Prog.meets_run_lift.2 ((meets_loadMany hinserted).imp fun _ existing _ h =>
      ⟨existing, rfl, h.1⟩)
  · intro log' existing _ hexisting
    obtain ⟨claims, hclaims, hR⟩ := mapM_ok (exists_reloaded hexisting)
    refine meets_liftExcept.2 ⟨claims, hclaims, ?_, ?_⟩
    · rw [map_eq_of_forall₂ (hR.imp fun _ _ h => h.1)]
      exact fun _ => Iff.rfl
    · intro claim hclaim hclaimed
      obtain ⟨request, -, -, hfalse⟩ := exists_of_forall₂ hR hclaim
      rw [hfalse] at hclaimed
      cases hclaimed

/-- Every item that has a row is sorted; those to be retried have failed. -/
structure Sorts (existing : List (ScheduledDeliveryKey × ScheduledDeliveryState))
    (unresolved : List ScheduledDeliveryClaimRequest) (sorted : Sorted) : Prop where
  mem_iff : ∀ request, request ∈ sorted.claims.map (·.request) ++ sorted.expired.map Prod.fst ++
    sorted.retries.map Prod.fst ↔ request ∈ unresolved
  retries : ∀ candidate ∈ sorted.retries,
    existing.lookup candidate.1.toScheduledDeliveryKey = some candidate.2 ∧
      candidate.2.status = .failed
  claims : ∀ claim ∈ sorted.claims, claim.claimed = false

theorem sorts_sortExisting {existing : List (ScheduledDeliveryKey × ScheduledDeliveryState)}
    {unresolved : List ScheduledDeliveryClaimRequest} (h : ∀ request ∈ unresolved, ∃ row,
      existing.lookup request.toScheduledDeliveryKey = some row) :
    ∃ sorted, sortExisting existing unresolved = .ok sorted ∧ Sorts existing unresolved sorted := by
  induction unresolved with
  | nil => exact ⟨{}, rfl, by simp, by simp, by simp⟩
  | cons request unresolved ih =>
    obtain ⟨⟨row, hrow⟩, hrest⟩ := forall_mem_cons.1 h
    obtain ⟨sorted, hsorted, hmem, hretries, hclaims⟩ := ih hrest
    simp only [sortExisting, hrow, hsorted]
    by_cases hdue : row.Due request.now
    · refine ⟨{ sorted with expired := (request, row) :: sorted.expired }, ?_, ?_, hretries,
        hclaims⟩
      · simp [hdue, bind, Except.bind, pure, Except.pure]
      · intro r
        rw [mem_cons, ← hmem r]
        simp only [map_cons, mem_append, mem_cons]
        tauto
    · cases hretry : shouldRetryScheduledDelivery row.status request.retry with
      | true =>
        refine ⟨{ sorted with retries := (request, row) :: sorted.retries }, ?_, ?_, ?_, hclaims⟩
        · simp [hdue, bind, Except.bind, pure, Except.pure]
        · intro r
          rw [mem_cons, ← hmem r]
          simp only [map_cons, mem_append, mem_cons]
          tauto
        · exact forall_mem_cons.2
            ⟨⟨hrow, by simpa [shouldRetryScheduledDelivery] using hretry⟩, hretries⟩
      | false =>
        refine ⟨{ sorted with claims := claimFromExisting request row :: sorted.claims }, ?_, ?_,
          hretries, forall_mem_cons.2 ⟨rfl, hclaims⟩⟩
        · simp [hdue, bind, Except.bind, pure, Except.pure]
        · intro r
          rw [mem_cons, ← hmem r]
          simp only [map_cons, mem_append, mem_cons, claimFromExisting]
          tauto

theorem meets_updateMany {statement : ScheduledDeliveryClaimRequest → ℤ → Statement}
    {claim : ScheduledDeliveryClaimRequest → ScheduledDeliveryState → ScheduledDeliveryClaim}
    {candidates : List (ScheduledDeliveryClaimRequest × ScheduledDeliveryState)}
    (hinserted : ∀ c ∈ candidates, Inserted c.1.toScheduledDeliveryKey log)
    (hg : ∀ log', log <+: log' → ∀ c ∈ candidates,
      claimContract.guarantee log' (statement c.1 c.2.attempt))
    (hclaim : ∀ request row, (claim request row).request = request ∧
      (claim request row).state = row) (hkey : ∀ request attempt, (statement request attempt).key =
      some request.toScheduledDeliveryKey)
    (hclaiming : ∀ request row attempt, (claim request row).claimed = true →
      (statement request attempt).Claiming) :
    Prog.Meets claimContract (fun log' r => ∃ claims, r = .ok claims ∧
      Resolves (candidates.map Prod.fst) log' claims) (updateMany statement claim candidates).run
      log := by
  refine run_bind (R := fun log' results =>
    Got (fun c => statement c.1 c.2.attempt) log log' candidates results) ?_ ?_
  · exact Prog.meets_run_lift.2 ((meets_batchOf hg).imp fun log' results _ h => ⟨results, rfl, h⟩)
  · intro log' results hlog hgot
    -- those that got no row have lost against another worker
    have hraced : ∀ request ∈ (raced results).map Prod.fst,
        Inserted request.toScheduledDeliveryKey log' := by
      intro request hrequest
      obtain ⟨c, hc, rfl⟩ := mem_map.1 hrequest
      exact (hinserted c (hgot.mem_iff.2 (.inr hc))).mono hlog.subset
    refine run_bind (meets_reload hraced) fun log'' claims hlog' hclaims => ?_
    refine ⟨_, rfl, ?_⟩
    exact (hgot.mono hlog').resolves Prod.fst (fun c row => claim c.1 row)
      (fun c row => hclaim c.1 row) (fun c => hkey c.1 c.2.attempt)
      (fun c row => hclaiming c.1 row c.2.attempt) hclaims

theorem exists_resolved {claims : List ScheduledDeliveryClaim}
    (hnodup : (requests.map (·.toScheduledDeliveryKey)).Nodup) (h : Resolves requests log claims) :
    ∀ request ∈ requests, ∃ claim, (match (Assoc.merge [] (claims.map fun claim =>
      (claim.request.toScheduledDeliveryKey, claim))).lookup request.toScheduledDeliveryKey with
      | none => .error (ScheduledDeliveryError.unresolved request.toScheduledDeliveryKey)
      | some claim => .ok claim) = Except.ok claim ∧ claim.request = request ∧ claim ∈ claims := by
  intro request hrequest
  obtain ⟨claim, hclaim, rfl⟩ := mem_map.1 ((h.mem_iff request).2 hrequest)
  have hmem : (claim.request.toScheduledDeliveryKey, claim) ∈ claims.map fun claim =>
      (claim.request.toScheduledDeliveryKey, claim) := mem_map_of_mem hclaim
  obtain ⟨claim', hclaim'⟩ := Option.ne_none_iff_exists'.1
    (Assoc.lookup_merge_ne_none_of_mem (l := []) hmem)
  rw [hclaim']
  refine ⟨claim', rfl, ?_⟩
  rcases Assoc.mem_of_lookup_merge hclaim' with hnil | hmem
  · cases hnil
  · obtain ⟨claim'', hclaim'', hpair⟩ := mem_map.1 hmem
    obtain ⟨hkey, rfl⟩ := Prod.mk.inj hpair
    -- distinct requests have distinct keys
    exact ⟨inj_on_of_nodup_map hnodup
      ((h.mem_iff _).1 (mem_map_of_mem hclaim'')) hrequest hkey, hclaim''⟩

theorem resolve_ok {claims : List ScheduledDeliveryClaim}
    (hnodup : (requests.map (·.toScheduledDeliveryKey)).Nodup) (h : Resolves requests log claims) :
    ∃ claims', resolve claims requests = .ok claims' ∧ claims'.map (·.request) = requests ∧
      ∀ claim ∈ claims', claim ∈ claims := by
  obtain ⟨claims', hclaims', hR⟩ := mapM_ok (exists_resolved hnodup h)
  refine ⟨claims', hclaims', map_eq_of_forall₂ (hR.imp fun _ _ h => h.1), fun claim hclaim => ?_⟩
  obtain ⟨request, -, -, hmem⟩ := exists_of_forall₂ hR hclaim
  exact hmem

theorem meets_claimChunk (hnodup : (requests.map (·.toScheduledDeliveryKey)).Nodup) :
    Prog.Meets claimContract (fun log' r => ∃ claims, r = .ok claims ∧
      claims.map (·.request) = requests ∧ ∀ claim ∈ claims, claim.claimed = true → WonBy log' claim)
      (claimChunk requests).run log := by
  refine run_bind (R := fun log' inserted =>
    Got Statement.insert log log' requests inserted) ?_ fun log₁ inserted hlog₁ hgot => ?_
  · exact Prog.meets_run_lift.2 ((meets_batchOf fun _ _ _ _ => guarantee_of_ne (by simp)).imp
      fun log' results _ h => ⟨results, rfl, h⟩)
  have hinserted : ∀ request ∈ requests, Inserted request.toScheduledDeliveryKey log₁ := by
    intro request hrequest
    rcases hgot.mem_iff.1 hrequest with ⟨row, hmem⟩ | hmem
    · exact ⟨request, some row, (hgot.made request _ hmem).mem, rfl⟩
    · exact ⟨request, none, (hgot.made request _ (mem_raced.1 hmem)).mem, rfl⟩
  have hraced : ∀ request ∈ raced inserted, Inserted request.toScheduledDeliveryKey log₁ :=
    fun request h => hinserted request (hgot.mem_iff.2 (.inr h))
  refine run_bind (R := fun log' existing =>
    (∀ request ∈ raced inserted, ∃ row,
      existing.lookup request.toScheduledDeliveryKey = some row) ∧
    ∀ key row, existing.lookup key = some row → (⟨.select key, some row⟩ : Sent) ∈ log') ?_
    fun log₂ existing hlog₂ hexisting => ?_
  · exact Prog.meets_run_lift.2 ((meets_loadMany hraced).imp
      fun log' existing _ h => ⟨existing, rfl, h⟩)
  obtain ⟨sorted, hsorted, hsorts⟩ := sorts_sortExisting hexisting.1
  refine run_bind (R := fun _ sorted' => sorted = sorted')
    (meets_liftExcept.2 ⟨sorted, hsorted, rfl⟩) fun log₂' _ hlog₂' hsorted' => ?_
  subst hsorted'
  have hcandidates : ∀ c ∈ sorted.expired ++ sorted.retries, c.1 ∈ raced inserted := by
    intro c hc
    refine (hsorts.mem_iff c.1).1 ?_
    rcases mem_append.1 hc with hc | hc
    · exact mem_append_left _ (mem_append_right _ (mem_map_of_mem hc))
    · exact mem_append_right _ (mem_map_of_mem hc)
  have hlog : log₁ <+: log₂' := hlog₂.trans hlog₂'
  refine run_bind (R := Resolves (sorted.expired.map Prod.fst)) ?_
    fun log₃ expired hlog₃ hexpired => ?_
  · refine meets_updateMany (fun c hc => ?_) (fun _ _ _ _ => guarantee_of_ne (by simp))
      (fun _ _ => ⟨rfl, rfl⟩) (fun _ _ => rfl) (by simp [claimFromExisting])
    exact (hraced c.1 (hcandidates c (mem_append_left _ hc))).mono hlog.subset
  refine run_bind (R := Resolves (sorted.retries.map Prod.fst)) ?_
    fun log₄ retries hlog₄ hretries => ?_
  · refine meets_updateMany (fun c hc => ?_) ?_ (fun _ _ => ⟨rfl, rfl⟩) (fun _ _ => rfl)
      (fun _ _ _ _ => trivial)
    · exact (hraced c.1 (hcandidates c (mem_append_right _ hc))).mono
        (hlog.trans hlog₃).subset
    · -- the row that is to be retried was read before
      rintro log' hlog' c hc request attempt hretry
      obtain ⟨rfl, rfl⟩ := Statement.retry.inj hretry
      obtain ⟨hlookup, hfailed⟩ := hsorts.retries c hc
      exact ⟨c.2, (hlog₂'.trans (hlog₃.trans hlog')).subset (hexisting.2 _ _ hlookup), hfailed, rfl⟩
  have hclaims : Resolves (sorted.claims.map (·.request)) log₄ sorted.claims :=
    ⟨fun _ => Iff.rfl, fun claim hclaim hclaimed => by
      simp [hsorts.claims claim hclaim] at hclaimed⟩
  have hothers : Resolves ((raced inserted).map id) log₄ (sorted.claims ++ expired ++ retries) := by
    rw [map_id]
    exact ((hclaims.append (hexpired.mono hlog₄)).append hretries).of_mem_iff hsorts.mem_iff
  have hall : Resolves requests log₄
      (resolved (claimWon .new) inserted ++ sorted.claims ++ expired ++ retries) := by
    simpa using (hgot.mono (hlog.trans (hlog₃.trans hlog₄))).resolves id (claimWon .new)
      (fun _ _ => ⟨rfl, rfl⟩) (fun _ => rfl) (fun _ _ _ => trivial) hothers
  obtain ⟨claims, hresolve, hrequests, hmem⟩ := resolve_ok hnodup hall
  exact meets_liftExcept.2 ⟨claims, hresolve, hrequests,
    fun claim hclaim => hall.won claim (hmem claim hclaim)⟩

end

theorem flatten_chunks {α : Type} (xs : List α) : (chunks xs).flatten = xs := by
  induction xs using chunks.induct with
  | case1 => simp [chunks]
  | case2 x xs ih =>
    rw [chunks, flatten_cons, ih, take_append_drop]

theorem chunks_of_length_le {α : Type} {xs : List α} (hne : xs ≠ [])
    (h : xs.length ≤ SCHEDULED_DELIVERY_DB_CHUNK_SIZE) : chunks xs = [xs] := by
  obtain ⟨x, xs, rfl⟩ := exists_cons_of_ne_nil hne
  rw [chunks, take_of_length_le h, drop_of_length_le h, chunks]

theorem meets_claimChunks {log : List Sent} {chunks : List (List ScheduledDeliveryClaimRequest)}
    (hnodup : (chunks.flatten.map (·.toScheduledDeliveryKey)).Nodup) :
    Prog.Meets claimContract (fun log' r => ∃ claims, r = .ok claims ∧
      claims.map (·.request) = chunks.flatten ∧
        ∀ claim ∈ claims, claim.claimed = true → WonBy log' claim)
      (claimChunks chunks).run log := by
  induction chunks generalizing log with
  | nil => exact ⟨[], rfl, rfl, by simp⟩
  | cons chunk rest ih =>
    rw [flatten_cons, map_append] at hnodup
    obtain ⟨hchunk, hrest, -⟩ := nodup_append.1 hnodup
    refine run_bind (meets_claimChunk hchunk) fun log₁ claims _ hclaims => ?_
    refine run_bind (ih hrest) fun log₂ more hlog hmore => ?_
    refine ⟨claims ++ more, rfl, ?_, fun claim hclaim hclaimed => ?_⟩
    · rw [map_append, hclaims.1, hmore.1, flatten_cons]
    · rcases mem_append.1 hclaim with hclaim | hclaim
      · obtain ⟨statement, hclaiming, hkey, hmem⟩ := hclaims.2 claim hclaim hclaimed
        exact ⟨statement, hclaiming, hkey, hlog.subset hmem⟩
      · exact hmore.2 claim hclaim hclaimed

theorem firstDuplicate_eq_none {seen : List ScheduledDeliveryKey}
    {requests : List ScheduledDeliveryClaimRequest} : firstDuplicate seen requests = none ↔
      (requests.map (·.toScheduledDeliveryKey)).Nodup ∧
        ∀ request ∈ requests, request.toScheduledDeliveryKey ∉ seen := by
  induction requests generalizing seen with
  | nil => simp [firstDuplicate]
  | cons request requests ih =>
    rw [firstDuplicate]
    split
    · next h => simp [h]
    · next h =>
      rw [ih, map_cons, nodup_cons, forall_mem_cons]
      simp only [mem_cons, mem_map, not_or]
      constructor
      · rintro ⟨hnodup, hseen⟩
        exact ⟨⟨fun ⟨r, hr, hkey⟩ => (hseen r hr).1 hkey, hnodup⟩, h, fun r hr => (hseen r hr).2⟩
      · rintro ⟨⟨hnew, hnodup⟩, -, hseen⟩
        exact ⟨hnodup, fun r hr => ⟨fun hkey => hnew ⟨r, hr, hkey⟩, hseen r hr⟩⟩

/-- What a call returns: a claim for each request, in their order, unless a key comes twice. -/
def Call.Post : Call → List Sent → Returned → Prop
  | .claimMany requests, log, returned =>
    if (requests.map (·.toScheduledDeliveryKey)).Nodup then
      ∃ claims, returned = .claims (.ok claims) ∧ claims.map (·.request) = requests ∧
        ∀ claim ∈ claims, claim.claimed = true → WonBy log claim
    else ∃ key, returned = .claims (.error (.duplicate key))
  | _, _, _ => True

theorem meets_claimMany (requests : List ScheduledDeliveryClaimRequest) :
    (Call.body (.claimMany requests)).Meets claimContract (Call.Post (.claimMany requests)) [] := by
  refine Prog.meets_map.2 ?_
  simp only [Call.Post, claimMany]
  cases hduplicate : firstDuplicate [] requests with
  | some key =>
    have hnodup : ¬(requests.map (·.toScheduledDeliveryKey)).Nodup := by
      intro h
      have hnone : firstDuplicate [] requests = none :=
        firstDuplicate_eq_none.2 ⟨h, fun _ _ => not_mem_nil⟩
      rw [hnone] at hduplicate
      cases hduplicate
    simp only [if_neg hnodup]
    exact ⟨key, rfl⟩
  | none =>
    have hnodup := (firstDuplicate_eq_none.1 hduplicate).1
    simp only [if_pos hnodup]
    refine (meets_claimChunks (by rwa [flatten_chunks])).imp fun log r _ h => ?_
    obtain ⟨claims, rfl, hrequests, hwon⟩ := h
    exact ⟨claims, rfl, by rw [hrequests, flatten_chunks], hwon⟩

theorem meets_settleChunks {log : List Sent} (chunks : List (List ScheduledDeliverySettlement)) :
    Prog.Meets claimContract (fun _ _ => True) (settleChunks chunks) log := by
  induction chunks generalizing log with
  | nil => trivial
  | cons chunk rest ih =>
    refine Prog.meets_bind.2 ((meets_batchOf fun _ _ _ _ => guarantee_of_ne (by simp)).imp
      fun log' _ _ _ => ?_)
    exact Prog.meets_bind.2 (ih.imp fun _ _ _ _ => trivial)

theorem meets_loadMany_true {log : List Sent} (requests : List ScheduledDeliveryClaimRequest) :
    Prog.Meets claimContract (fun _ _ => True) (loadMany requests) log :=
  Prog.meets_bind.2 ((meets_batchOf fun _ _ _ _ => guarantee_of_ne (by simp)).imp
    fun _ _ _ _ => trivial)

theorem meets_body (call : Call) : call.body.Meets claimContract call.Post [] := by
  cases call with
  | claimMany requests => exact meets_claimMany requests
  | settleMany settlements =>
    refine Prog.meets_map.2 (Prog.meets_run_bind.2 (Prog.meets_run_lift.2
      ((meets_settleChunks _).imp fun _ stale _ _ => ?_)))
    show Prog.Meets _ _ (ExceptT.run (if stale = [] then _ else _)) _
    split <;> trivial
  | inspectMany requests =>
    cases requests with
    | nil => trivial
    | cons request rest =>
      refine Prog.meets_map.2 (Prog.meets_bind.2 ?_)
      refine Prog.meets_bind.2 ⟨guarantee_of_ne (by simp), fun _ _ => ?_⟩
      exact Prog.meets_bind.2 ((meets_loadMany_true _).imp fun _ _ _ _ => trivial)
  | prune now => exact ⟨guarantee_of_ne (by simp), fun _ _ => trivial⟩

/-! ### Every run -/

/-- How the table and all that was sent are related: no attempt of a key was claimed twice. -/
def Invariant (rows : Rows) (history : List (ℕ × Sent)) : Prop :=
  (∀ key, Sound key (rows.find key) (history.map Prod.snd)) ∧
    history.Pairwise fun e e' => ∀ key attempt, Won key attempt e.2 → ¬Won key attempt e'.2

theorem own_subset (n : ℕ) (history : List (ℕ × Sent)) :
    Shared.own n history ⊆ history.map Prod.snd :=
  fun _ he => mem_map.2 ⟨_, Shared.mem_own.1 he, rfl⟩

theorem Invariant.call {rows : Rows} {history : List (ℕ × Sent)} (h : Invariant rows history)
    (n : ℕ) (statement : Statement) :
    Invariant (statement.exec rows).2 (history ++ [(n, ⟨statement, (statement.exec rows).1⟩)]) := by
  refine ⟨fun key => ?_, ?_⟩
  · rw [map_append]
    exact (h.1 key).step (moves_exec rows statement key)
  · refine pairwise_append.2 ⟨h.2, pairwise_singleton .., ?_⟩
    intro e he e' he' key attempt hwon hwon'
    obtain rfl := mem_singleton.1 he'
    -- the attempts that were won before are at most that of the row
    obtain ⟨r, hr, hle⟩ := (h.1 key).attempts e.2 (mem_map_of_mem he) attempt hwon
    obtain ⟨-, ⟨hnone, -⟩ | ⟨r', request, hr', hattempt, -⟩⟩ :=
      (moves_exec rows statement key).won hwon'
    · rw [hnone] at hr
      cases hr
    · obtain rfl := Option.some.inj (hr.symm.trans hr')
      omega

theorem Invariant.rely {rows : Rows} {history : List (ℕ × Sent)} (h : Invariant rows history)
    (n : ℕ) (statement : Statement) :
    claimContract.rely (Shared.own n history) statement (statement.exec rows).1 := by
  rintro key rfl hinserted
  exact (h.1 key).present (hinserted.mono (own_subset n history))

def Claims (w : Deliveries) (action : Shared.Action Call Empty) (key : ScheduledDeliveryKey)
    (attempt : ℤ) : Prop :=
  ∃ n call statement next, action = .proceed n ∧ w.threads[n]? = some (call, .call statement next) ∧
    Won key attempt ⟨statement, (statement.exec w.store).1⟩

/-- An attempt is claimed only if it is the first one, or the one before is settled `failed` and is
what the row says. -/
def OnlyAfterFailure (w : Deliveries) (action : Shared.Action Call Empty) : Prop :=
  ∀ key attempt, Claims w action key attempt →
    (w.store.find key = none ∧ attempt = 1) ∨
    ∃ row, w.store.find key = some row ∧ row.status = .failed ∧ attempt = row.attempt + 1 ∧
      SettledFailed key row.attempt (w.history.map Prod.snd)

/-- A settlement changes no row of another attempt. -/
def KeepsOtherAttempts (w : Deliveries) (action : Shared.Action Call Empty) : Prop :=
  ∀ n call settlement next key row, action = .proceed n →
    w.threads[n]? = some (call, .call (.settle settlement) next) → w.store.find key = some row →
      row.attempt ≠ settlement.attempt → (w.step deliveries action).store.find key = some row

/-- A call of `claimMany` that has returned. -/
def Returns (w : Deliveries) (n : ℕ) (claims : List ScheduledDeliveryClaim) : Prop :=
  ∃ requests, w.threads[n]? = some (.claimMany requests, .pure (.claims (.ok claims)))

/-- Every call meets its contract, and the table and all that was sent are related. -/
structure KeptDeliveries (w : Deliveries) : Prop where
  meeting : Shared.Meeting (fun _ : Call => claimContract) Call.Post w
  holds : Invariant w.store w.history

theorem onlyAfterFailure {w : Deliveries} (h : KeptDeliveries w)
    (action : Shared.Action Call Empty) : OnlyAfterFailure w action := by
  rintro key attempt ⟨n, call, statement, next, rfl, hn, hwon⟩
  obtain ⟨-, hfirst | ⟨row, request, hrow, hattempt, hstatement, hkey⟩⟩ :=
    (moves_exec w.store statement key).won hwon
  · exact .inl hfirst
  · -- who sends the retry has seen that the attempt failed
    have hseen : SeenFailed key row.attempt (w.history.map Prod.snd) := by
      have hguarantee := h.meeting.guarantee hn request row.attempt hstatement
      exact hkey ▸ hguarantee.mono (own_subset n w.history)
    have hsound := h.holds.1 key
    exact .inr ⟨row, hrow, hsound.failed_of_retry hseen hrow rfl, hattempt, (hsound.seen _ hseen).1⟩

theorem keepsOtherAttempts (w : Deliveries) (action : Shared.Action Call Empty) :
    KeepsOtherAttempts w action := by
  rintro n call settlement next key row rfl hn hrow hattempt
  have hmoves := moves_exec w.store (.settle settlement) key
  rw [hrow] at hmoves
  simp only [Shared.step, hn]
  exact hmoves.settle_of_ne hattempt

theorem find_step_of_succeeded {w : Deliveries} {key : ScheduledDeliveryKey}
    {row : ScheduledDeliveryState} (hrow : w.store.find key = some row)
    (hsucceeded : row.status = .succeeded) (action : Shared.Action Call Empty) :
    (w.step deliveries action).store.find key = some row := by
  cases action with
  | begin call => exact hrow
  | other e => cases e
  | proceed n =>
    simp only [Shared.step]
    split
    · next call statement next hn =>
      have hmoves := moves_exec w.store statement key
      rw [hrow] at hmoves
      exact hmoves.succeeded hsucceeded
    · exact hrow

theorem find_last_of_succeeded {w : Deliveries} {key : ScheduledDeliveryKey}
    {row : ScheduledDeliveryState} (hrow : w.store.find key = some row)
    (hsucceeded : row.status = .succeeded) (actions : List (Shared.Action Call Empty)) :
    (Runs.last (Shared.step deliveries) w actions).store.find key = some row := by
  induction actions generalizing w with
  | nil => exact hrow
  | cons action actions ih => exact ih (find_step_of_succeeded hrow hsucceeded action)

theorem kept_deliveries (actions : List (Shared.Action Call Empty)) :
    Runs.Along (Shared.step deliveries) (fun w action => OnlyAfterFailure w action)
        (Shared.idle []) actions ∧
      KeptDeliveries (Runs.last (Shared.step deliveries) (Shared.idle []) actions) := by
  have hany : Runs.Along (Shared.step deliveries) (fun _ _ => True) (Shared.idle []) actions :=
    Runs.Along.of_forall fun _ _ => trivial
  have hrun := Shared.meeting_run (S := deliveries) (c := fun _ : Call => claimContract)
    (P := fun _ _ => True) (Q := OnlyAfterFailure) (I := fun w => Invariant w.store w.history) hany
    ⟨fun key => sound_empty key, .nil⟩ meets_body
    (fun w n call statement next _ hw _ _ => hw.rely n statement) ?_
    fun w action hmeeting hw _ => onlyAfterFailure ⟨hmeeting, hw⟩ action
  · exact ⟨hrun.1, hrun.2.1, hrun.2.2⟩
  · intro w w' action hmoves _ _ hw _
    cases hmoves with
    | begin | idle => exact hw
    | other e => exact e.elim
    | call hn => exact hw.call _ _

variable {w : Deliveries}

theorem KeptDeliveries.won (h : KeptDeliveries w) {n : ℕ}
    {claims : List ScheduledDeliveryClaim} (hn : Returns w n claims)
    {claim : ScheduledDeliveryClaim} (hclaim : claim ∈ claims) (hclaimed : claim.claimed = true) :
    ∃ e, (n, e) ∈ w.history ∧ Won claim.request.toScheduledDeliveryKey claim.state.attempt e := by
  obtain ⟨requests, hn⟩ := hn
  have hpost := h.meeting.returned hn
  simp only [Call.Post] at hpost
  split at hpost
  · obtain ⟨claims', hclaims, -, hwon⟩ := hpost
    obtain rfl := Except.ok.inj (Returned.claims.inj hclaims)
    obtain ⟨statement, hclaiming, hkey, hmem⟩ := hwon claim hclaim hclaimed
    exact ⟨_, Shared.mem_own.1 hmem, hclaiming, hkey, claim.state, rfl, rfl⟩
  · obtain ⟨key, hclaims⟩ := hpost
    cases hclaims

theorem KeptDeliveries.nodup (h : KeptDeliveries w) {n : ℕ}
    {claims : List ScheduledDeliveryClaim} (hn : Returns w n claims) :
    (claims.map (·.request.toScheduledDeliveryKey)).Nodup := by
  obtain ⟨requests, hn⟩ := hn
  have hpost := h.meeting.returned hn
  simp only [Call.Post] at hpost
  split at hpost
  · next hnodup =>
    obtain ⟨claims', hclaims, rfl, -⟩ := hpost
    obtain rfl := Except.ok.inj (Returned.claims.inj hclaims)
    simpa [Function.comp_def] using hnodup
  · obtain ⟨key, hclaims⟩ := hpost
    cases hclaims

theorem KeptDeliveries.unique (h : KeptDeliveries w) {n m i j : ℕ}
    {claims claims' : List ScheduledDeliveryClaim} {claim claim' : ScheduledDeliveryClaim}
    (hn : Returns w n claims) (hm : Returns w m claims') (hi : claims[i]? = some claim)
    (hj : claims'[j]? = some claim') (hclaimed : claim.claimed = true)
    (hclaimed' : claim'.claimed = true)
    (hkey : claim.request.toScheduledDeliveryKey = claim'.request.toScheduledDeliveryKey)
    (hattempt : claim.state.attempt = claim'.state.attempt) : n = m ∧ i = j := by
  obtain ⟨e, he, hwon⟩ := h.won hn (mem_of_getElem? hi) hclaimed
  obtain ⟨e', he', hwon'⟩ := h.won hm (mem_of_getElem? hj) hclaimed'
  have hsymm : Std.Symm fun e e' : ℕ × Sent =>
      ∀ key attempt, Won key attempt e.2 → ¬Won key attempt e'.2 :=
    ⟨fun _ _ h key attempt hwon hwon' => h key attempt hwon' hwon⟩
  have heq : (n, e) = (m, e') := by
    by_contra hne
    exact h.holds.2.forall he he' hne _ _ hwon (by rwa [hkey, hattempt])
  obtain ⟨rfl, -⟩ := Prod.mk.inj heq
  refine ⟨rfl, ?_⟩
  -- and a call has one claim for a key
  obtain ⟨requests, hn⟩ := hn
  obtain ⟨requests', hm⟩ := hm
  obtain ⟨-, hreturned⟩ := Prod.mk.inj (Option.some.inj (hn.symm.trans hm))
  obtain rfl := Except.ok.inj (Returned.claims.inj (Prog.pure.inj hreturned))
  have hlength : i < (claims.map (·.request.toScheduledDeliveryKey)).length := by
    rw [length_map]
    exact (List.getElem?_eq_some_iff.1 hi).1
  refine (List.getElem?_inj hlength (h.nodup ⟨requests, hn⟩)).1 ?_
  rw [List.getElem?_map, List.getElem?_map, hi, hj, Option.map_some, Option.map_some, hkey]

/-- No two claims that were returned are of one attempt of a key. -/
def ClaimsOnce (w : Deliveries) : Prop :=
  ∀ (n m i j : ℕ) (claims claims' : List ScheduledDeliveryClaim)
    (claim claim' : ScheduledDeliveryClaim), Returns w n claims → Returns w m claims' →
    claims[i]? = some claim → claims'[j]? = some claim' → claim.claimed = true →
    claim'.claimed = true →
    claim.request.toScheduledDeliveryKey = claim'.request.toScheduledDeliveryKey →
    claim.state.attempt = claim'.state.attempt → n = m ∧ i = j

/-- A claim that was returned as claimed has claimed its attempt on the table. -/
def ClaimsWon (w : Deliveries) : Prop :=
  ∀ (n : ℕ) (claims : List ScheduledDeliveryClaim), Returns w n claims →
    ∀ claim ∈ claims, claim.claimed = true → ∃ e, (n, e) ∈ w.history ∧
      Won claim.request.toScheduledDeliveryKey claim.state.attempt e

/-- A row that has succeeded is the same after whatever follows. -/
def SucceededStays (w : Deliveries) : Prop :=
  ∀ key row, w.store.find key = some row → row.status = .succeeded →
    ∀ actions, (Runs.last (Shared.step deliveries) w actions).store.find key = some row

/-- A call of `claimMany` may always go on until it returns; and it returns a claim for each
request, in their order, unless a key came twice. -/
def AnswersInOrder (w : Deliveries) : Prop :=
  ∀ (n : ℕ) (requests : List ScheduledDeliveryClaimRequest) (left : DeliveryM Returned),
    w.threads[n]? = some (.claimMany requests, left) →
    (∃ m returned,
      (Runs.last (Shared.step deliveries) w (List.replicate m (.proceed n))).threads[n]? =
        some (.claimMany requests, .pure returned)) ∧
    ∀ returned, left = .pure returned →
      if (requests.map (·.toScheduledDeliveryKey)).Nodup then
        ∃ claims, returned = .claims (.ok claims) ∧ claims.map (·.request) = requests
      else ∃ key, returned = .claims (.error (.duplicate key))

theorem KeptDeliveries.answersInOrder (h : KeptDeliveries w) : AnswersInOrder w := by
  intro n requests left hn
  refine ⟨Shared.exists_returns hn, ?_⟩
  rintro returned rfl
  have hpost := h.meeting.returned hn
  simp only [Call.Post] at hpost
  split at hpost
  · next hnodup =>
    obtain ⟨claims, hclaims, hrequests, -⟩ := hpost
    rw [if_pos hnodup]
    exact ⟨claims, hclaims, hrequests⟩
  · next hnodup =>
    rw [if_neg hnodup]
    exact hpost

/-- Over any number of interleaved calls, with any clocks: an attempt of a key is claimed at most
once; it is claimed only if the attempt before was settled `failed` and the row still says so; a row
that has succeeded stays; a settlement changes no row of another attempt; and `claimMany` returns
one claim for each request, in their order. -/
theorem deliveries_run (actions : List (Shared.Action Call Empty)) :
    let w : Deliveries := Runs.last (Shared.step deliveries) (Shared.idle []) actions
    ClaimsOnce w ∧ ClaimsWon w ∧
      Runs.Along (Shared.step deliveries) OnlyAfterFailure (Shared.idle []) actions ∧
      SucceededStays w ∧
      Runs.Along (Shared.step deliveries) KeepsOtherAttempts (Shared.idle []) actions ∧
      AnswersInOrder w := by
  obtain ⟨hfailure, hkept⟩ := kept_deliveries actions
  refine ⟨fun n m i j claims claims' claim claim' => hkept.unique,
    fun n claims hn claim => hkept.won hn, hfailure,
    fun key row hrow hsucceeded => find_last_of_succeeded hrow hsucceeded, ?_, hkept.answersInOrder⟩
  exact hfailure.imp fun w action _ => keepsOtherAttempts w action

end EdgeBase.Schedule
