import EdgeBase.Storage.Grants

/-!
# Replay of a signed upload grant

Whether a grant has expired is asked before its marker is written, and the marker is deleted when
the grant has expired.

* `consumedOnce_iff` : a grant is used once unless an upload writes after the deletion.
* `lateReplay_not_consumedOnce` : a run in which it does.
-/

namespace EdgeBase.Storage

open List Prog Shared

inductive ReplayCall where
  | consume (claims : SignedUploadGrantClaims)
  | cleanup (now : Option ℤ) (maxDeletes : ℕ)
  deriving DecidableEq

inductive ReplayReturned where
  | consumed (result : Except GrantError Unit)
  | cleaned (deleted : ℕ)
  deriving DecidableEq

def ReplayCall.body : ReplayCall → GrantM ReplayReturned
  | .consume claims => .consumed <$> (consumeSignedUploadGrant claims).run
  | .cleanup now maxDeletes => .cleaned <$> cleanupExpiredSignedUploadGrants now maxDeletes

abbrev Replays := Shared Bucket Op.Answer ReplayCall ReplayReturned

/-- The clock moves forward between the steps. -/
def replays : Shared.System Bucket Op.Answer ReplayCall ReplayReturned ℕ where
  exec op bucket := op.exec bucket
  env ms bucket := bucket.tick ms
  body := ReplayCall.body

abbrev ReplayAction := Shared.Action ReplayCall ℕ

/-! ### What the calls do -/

def NoPut (log : List Sent) : Prop :=
  ∀ e ∈ log, ∀ key onlyIf metadata, e.1 ≠ .put key onlyIf metadata

/-- A write of the marker is the last thing that a call does; only what was listed is deleted. -/
def replayContract : Prog.Contract Op.Answer where
  rely _ _ _ := True
  guarantee log op := NoPut log ∧
    (∀ key onlyIf metadata, op = .put key onlyIf metadata → onlyIf = .etagDoesNotMatchAny) ∧
    ∀ keys, op = .delete keys → ∀ key ∈ keys, ∃ limit listed,
      (⟨.list limit, listed⟩ : Sent) ∈ log ∧ key ∈ listed

/-- An upload succeeds if it has written the marker. -/
def ReplayCall.Post : ReplayCall → List Sent → ReplayReturned → Prop
  | .consume claims, log, returned => ∀ key, (∃ e ∈ log, Marks key e) ↔
      returned = .consumed (.ok ()) ∧ signedUploadGrantMarkerKey claims = .ok key
  | .cleanup _ _, log, _ => NoPut log

theorem noPut_nil : NoPut [] :=
  forall_mem_nil _

theorem NoPut.append {log : List Sent} {e : Sent} (h : NoPut log)
    (he : ∀ key onlyIf metadata, e.1 ≠ .put key onlyIf metadata) : NoPut (log ++ [e]) := by
  intro e' he'
  rcases mem_append.1 he' with he' | he'
  · exact h e' he'
  · obtain rfl := mem_singleton.1 he'
    exact he

theorem NoPut.not_marks {log : List Sent} (h : NoPut log) {key : MarkerKey} :
    ¬∃ e ∈ log, Marks key e := by
  rintro ⟨e, he, onlyIf, metadata, etag, rfl⟩
  exact h _ he key onlyIf metadata rfl

theorem NoPut.marks_append {log : List Sent} (h : NoPut log) {key key' : MarkerKey}
    {onlyIf : OnlyIf} {metadata : GrantMetadata} {answer : Option ℕ} :
    (∃ e ∈ log ++ [⟨.put key onlyIf metadata, answer⟩], Marks key' e) ↔
      key' = key ∧ answer.isSome := by
  rw [← marks_put]
  constructor
  · rintro ⟨e, he, hmarks⟩
    rcases mem_append.1 he with he | he
    · exact absurd ⟨e, he, hmarks⟩ h.not_marks
    · rwa [← mem_singleton.1 he]
  · exact fun hmarks => ⟨_, mem_append_right _ (mem_singleton_self _), hmarks⟩

theorem meets_assertUsableGrant {claims : SignedUploadGrantClaims} {log : List Sent}
    {Q : List Sent → Except GrantError String → Prop} (hlog : NoPut log)
    (hQ : ∀ log' r, NoPut log' → Q log' r) :
    Prog.Meets replayContract Q (assertUsableGrant claims).run log := by
  unfold assertUsableGrant
  cases claims.grantId with
  | none => exact hQ log _ hlog
  | some grantId =>
    refine meets_run_ite.2 ⟨fun _ => hQ log _ hlog, fun _ => ?_⟩
    refine meets_run_bind.2 (meets_run_lift.2 ⟨⟨hlog, by simp, by simp⟩, fun now _ => ?_⟩)
    have hlog' : NoPut (log ++ [⟨.now, now⟩]) := hlog.append (by simp)
    simp only [meets_run_bind, meets_run_ite, meets_run_throw, meets_run_pure]
    exact ⟨fun _ => hQ _ _ hlog', fun _ => hQ _ _ hlog'⟩

theorem meets_consume (claims : SignedUploadGrantClaims) :
    (ReplayCall.body (.consume claims)).Meets replayContract (ReplayCall.Post (.consume claims))
      [] := by
  refine meets_map.2 (meets_run_bind.2
    (meets_assertUsableGrant noPut_nil fun log r hlog => ?_))
  have herror : ∀ log error, NoPut log →
      (ReplayCall.consume claims).Post log (.consumed (.error error)) := fun log error hlog key =>
    ⟨fun h => absurd h hlog.not_marks, fun h => by simp at h⟩
  cases r with
  | error error => exact herror log error hlog
  | ok _ =>
    refine meets_run_bind.2 (meets_run_mk.2 ?_)
    cases hkey : signedUploadGrantMarkerKey claims with
    | error error => exact herror log error hlog
    | ok key =>
      refine meets_run_bind.2 (meets_run_lift.2 ⟨⟨hlog, by simp, by simp⟩, ?_⟩)
      intro marker _
      refine meets_run_ite.2 ⟨fun hmarker => ?_, fun hmarker => ?_⟩
      · refine fun key' => ⟨fun h => ?_, fun h => by simp at h⟩
        have hsome := (hlog.marks_append.1 h).2
        simp [hmarker] at hsome
      · intro key'
        rw [hlog.marks_append, hkey]
        exact ⟨fun h => ⟨rfl, by rw [h.1]⟩,
          fun h => ⟨(Except.ok.inj h.2).symm, Option.isSome_iff_ne_none.2 hmarker⟩⟩

theorem meets_cleanupRounds {now : ℤ} {maxDeletes rounds deleted : ℕ} {log : List Sent}
    (hlog : NoPut log) : Prog.Meets replayContract (fun log' _ => NoPut log')
      (cleanupRounds now maxDeletes rounds deleted) log := by
  induction rounds generalizing deleted log with
  | zero => exact hlog
  | succ rounds ih =>
    rw [cleanupRounds]
    split
    · refine meets_bind.2 ⟨⟨hlog, by simp, by simp⟩, fun listed _ => ?_⟩
      have hlog' : NoPut (log ++ [⟨.list (min 1000 (maxDeletes - deleted)), listed⟩]) :=
        hlog.append (by simp)
      show Prog.Meets _ _ (ite _ _ _) _
      split
      · exact hlog'
      · refine meets_bind.2 ⟨⟨hlog', by simp, ?_⟩, fun _ _ => ?_⟩
        · rintro _ ⟨rfl⟩ key hkey
          exact ⟨_, listed, by simp, (mem_filter.1 hkey).1⟩
        · have hlog'' := hlog'.append (e := ⟨.delete (expiredKeys now listed), ()⟩) (by simp)
          show Prog.Meets _ _ (ite _ _ _) _
          split
          · exact hlog''
          · exact ih hlog''
    · exact hlog

theorem meets_replay (call : ReplayCall) : call.body.Meets replayContract call.Post [] := by
  cases call with
  | consume claims => exact meets_consume claims
  | cleanup now maxDeletes =>
    refine meets_map.2 ?_
    cases now with
    | some now => exact meets_cleanupRounds noPut_nil
    | none =>
      exact meets_bind.2 ⟨⟨noPut_nil, by simp, by simp⟩, fun now _ =>
        meets_cleanupRounds (noPut_nil.append (by simp))⟩

/-! ### Every run -/

def Consumed (key : MarkerKey) (w : Replays) (n : ℕ) : Prop :=
  ∃ claims, w.threads[n]? = some (.consume claims, .pure (.consumed (.ok ()))) ∧
    signedUploadGrantMarkerKey claims = .ok key

def ConsumedOnce (key : MarkerKey) (w : Replays) : Prop :=
  ∀ n m, Consumed key w n → Consumed key w m → n = m

def Deletes (key : MarkerKey) (e : Sent) : Prop := ∃ keys, e = ⟨.delete keys, ()⟩ ∧ key ∈ keys

def Tries (key : MarkerKey) (e : Sent) : Prop :=
  ∃ onlyIf metadata answer, e = ⟨.put key onlyIf metadata, answer⟩

/-- Some upload tries to write the marker after a cleanup has deleted it. -/
def TriesAfterDelete (key : MarkerKey) (history : List (ℕ × Sent)) : Prop :=
  ∃ d p, [d, p].Sublist history ∧ Deletes key d.2 ∧ Tries key p.2

instance (key : MarkerKey) (e : Sent) : Decidable (Marks key e) :=
  match e with
  | ⟨.put key' onlyIf metadata, some etag⟩ =>
    decidable_of_iff (key' = key) ⟨fun h => ⟨onlyIf, metadata, etag, h ▸ rfl⟩, by
      rintro ⟨_, _, _, h⟩
      cases h
      rfl⟩
  | ⟨.put _ _ _, none⟩ => isFalse (by rintro ⟨_, _, _, h⟩; cases h)
  | ⟨.now, _⟩ => isFalse (by rintro ⟨_, _, _, h⟩; cases h)
  | ⟨.head _, _⟩ => isFalse (by rintro ⟨_, _, _, h⟩; cases h)
  | ⟨.list _, _⟩ => isFalse (by rintro ⟨_, _, _, h⟩; cases h)
  | ⟨.delete _, _⟩ => isFalse (by rintro ⟨_, _, _, h⟩; cases h)

def markers (key : MarkerKey) (history : List (ℕ × Sent)) : List ℕ :=
  (history.filter fun e => Marks key e.2).map Prod.fst

theorem markers_append (key : MarkerKey) (history : List (ℕ × Sent)) (n : ℕ) (e : Sent) :
    markers key (history ++ [(n, e)]) = markers key history ++ if Marks key e then [n] else [] := by
  rw [markers, filter_append, map_append, markers]
  by_cases h : Marks key e <;> simp [h]

theorem mem_markers {key : MarkerKey} {history : List (ℕ × Sent)} {n : ℕ} :
    n ∈ markers key history ↔ ∃ e ∈ Shared.own n history, Marks key e := by
  simp only [markers, mem_map, mem_filter, decide_eq_true_eq]
  constructor
  · rintro ⟨⟨n, e⟩, ⟨hmem, hmarks⟩, rfl⟩
    exact ⟨e, mem_own.2 hmem, hmarks⟩
  · rintro ⟨e, hmem, hmarks⟩
    exact ⟨(n, e), ⟨mem_own.1 hmem, hmarks⟩, rfl⟩

theorem triesAfterDelete_append {key : MarkerKey} {history : List (ℕ × Sent)} {x : ℕ × Sent} :
    TriesAfterDelete key (history ++ [x]) ↔
      TriesAfterDelete key history ∨ (∃ d ∈ history, Deletes key d.2) ∧ Tries key x.2 := by
  constructor
  · rintro ⟨d, p, hsub, hd, hp⟩
    obtain ⟨l₁, l₂, heq, hl₁, hl₂⟩ := sublist_append_iff.1 hsub
    rcases sublist_singleton.1 hl₂ with rfl | rfl
    · rw [append_nil] at heq
      exact .inl ⟨d, p, heq ▸ hl₁, hd, hp⟩
    · obtain ⟨rfl, hx⟩ := append_inj' (show [d] ++ [p] = l₁ ++ [x] from heq) rfl
      obtain rfl := singleton_inj.1 hx
      exact .inr ⟨⟨d, singleton_sublist.1 hl₁, hd⟩, hp⟩
  · rintro (⟨d, p, hsub, hd, hp⟩ | ⟨⟨d, hmem, hd⟩, hx⟩)
    · exact ⟨d, p, hsub.trans (sublist_append_left ..), hd, hp⟩
    · exact ⟨d, x, (singleton_sublist.2 hmem).append (List.Sublist.refl [x]), hd, hx⟩

/-- How far a grant has come: who has written its marker, and whether it is there. -/
inductive ReplayPhase (key : MarkerKey) (marker : Option Marker) (history : List (ℕ × Sent)) :
    Prop where
  | unused (hdeletes : ∀ d ∈ history, ¬Deletes key d.2) (hmarker : marker = none)
    (hmarkers : markers key history = [])
  | used (hdeletes : ∀ d ∈ history, ¬Deletes key d.2) (hmarker : marker ≠ none)
    (hmarkers : (markers key history).length = 1)
  | deleted (hdeletes : ∃ d ∈ history, Deletes key d.2) (htries : ¬TriesAfterDelete key history)
    (hmarker : marker = none) (hmarkers : (markers key history).length = 1)
  | replayed (htries : TriesAfterDelete key history) (hmarkers : 2 ≤ (markers key history).length)

namespace ReplayPhase

variable {key : MarkerKey} {marker marker' : Option Marker} {history : List (ℕ × Sent)} {n : ℕ}
  {e : Sent}

theorem markers_ne_nil (h : ReplayPhase key marker history) (hmarker : marker ≠ none) :
    markers key history ≠ [] := by
  cases h with
  | unused _ hnone => exact absurd hnone hmarker
  | deleted _ _ hnone => exact absurd hnone hmarker
  | used _ _ h => exact ne_nil_of_length_pos (by omega)
  | replayed _ h => exact ne_nil_of_length_pos (by omega)

theorem other (h : ReplayPhase key marker history) (hmarks : ¬Marks key e)
    (htries : ¬Tries key e) (hdeletes : ¬Deletes key e) :
    ReplayPhase key marker (history ++ [(n, e)]) := by
  have hmarkers : markers key (history ++ [(n, e)]) = markers key history := by
    rw [markers_append, if_neg hmarks, append_nil]
  have hlate : TriesAfterDelete key (history ++ [(n, e)]) ↔ TriesAfterDelete key history := by
    rw [triesAfterDelete_append, or_iff_left fun h => htries h.2]
  have hnone : (∀ d ∈ history, ¬Deletes key d.2) → ∀ d ∈ history ++ [(n, e)], ¬Deletes key d.2 := by
    intro h d hd
    rcases mem_append.1 hd with hd | hd
    · exact h d hd
    · obtain rfl := mem_singleton.1 hd
      exact hdeletes
  cases h with
  | unused hdel hmarker h => exact .unused (hnone hdel) hmarker (hmarkers ▸ h)
  | used hdel hmarker h => exact .used (hnone hdel) hmarker (hmarkers ▸ h)
  | deleted hdel hlate' hmarker h =>
    obtain ⟨d, hmem, hd⟩ := hdel
    exact .deleted ⟨d, mem_append_left _ hmem, hd⟩ (fun h => hlate' (hlate.1 h)) hmarker
      (hmarkers ▸ h)
  | replayed hlate' h => exact .replayed (hlate.2 hlate') (hmarkers ▸ h)

theorem written (h : ReplayPhase key none history) (hmarks : Marks key e)
    (htries : Tries key e) (hdeletes : ¬Deletes key e) (hmarker' : marker' ≠ none) :
    ReplayPhase key marker' (history ++ [(n, e)]) := by
  have hmarkers : markers key (history ++ [(n, e)]) = markers key history ++ [n] := by
    rw [markers_append, if_pos hmarks]
  cases h with
  | unused hdel _ h =>
    refine .used (fun d hd => ?_) hmarker' (by rw [hmarkers, h]; rfl)
    rcases mem_append.1 hd with hd | hd
    · exact hdel d hd
    · obtain rfl := mem_singleton.1 hd
      exact hdeletes
  | used _ hmarker => exact absurd rfl hmarker
  | deleted hdel _ _ h =>
    -- the second write of the marker
    refine .replayed (triesAfterDelete_append.2 (.inr ⟨hdel, htries⟩)) ?_
    rw [hmarkers, length_append, h, length_singleton]
  | replayed hlate h =>
    refine .replayed (triesAfterDelete_append.2 (.inl hlate)) ?_
    rw [hmarkers, length_append]
    omega

theorem refused (h : ReplayPhase key marker history) (hmarker : marker ≠ none)
    (hmarks : ¬Marks key e) (hdeletes : ¬Deletes key e) :
    ReplayPhase key marker (history ++ [(n, e)]) := by
  have hmarkers : markers key (history ++ [(n, e)]) = markers key history := by
    rw [markers_append, if_neg hmarks, append_nil]
  cases h with
  | unused _ hnone => exact absurd hnone hmarker
  | deleted _ _ hnone => exact absurd hnone hmarker
  | used hdel _ h =>
    refine .used (fun d hd => ?_) hmarker (hmarkers ▸ h)
    rcases mem_append.1 hd with hd | hd
    · exact hdel d hd
    · obtain rfl := mem_singleton.1 hd
      exact hdeletes
  | replayed hlate h => exact .replayed (triesAfterDelete_append.2 (.inl hlate)) (hmarkers ▸ h)

theorem delete (h : ReplayPhase key marker history) (hne : markers key history ≠ [])
    (hmarks : ¬Marks key e) (htries : ¬Tries key e) (hdeletes : Deletes key e) :
    ReplayPhase key none (history ++ [(n, e)]) := by
  have hmarkers : markers key (history ++ [(n, e)]) = markers key history := by
    rw [markers_append, if_neg hmarks, append_nil]
  have hlate : TriesAfterDelete key (history ++ [(n, e)]) ↔ TriesAfterDelete key history := by
    rw [triesAfterDelete_append, or_iff_left fun h => htries h.2]
  have hdel : ∃ d ∈ history ++ [(n, e)], Deletes key d.2 :=
    ⟨(n, e), mem_append_right _ (mem_singleton_self _), hdeletes⟩
  cases h with
  | unused _ _ h => exact absurd h hne
  | used hnone _ h =>
    refine .deleted hdel (fun hlate' => ?_) rfl (hmarkers ▸ h)
    obtain ⟨d, p, hsub, hd, -⟩ := hlate.1 hlate'
    exact hnone d (hsub.subset (mem_cons_self ..)) hd
  | deleted _ hlate' _ h => exact .deleted hdel (fun h => hlate' (hlate.1 h)) rfl (hmarkers ▸ h)
  | replayed hlate' h => exact .replayed (hlate.2 hlate') (hmarkers ▸ h)

end ReplayPhase

structure ReplaySound (key : MarkerKey) (w : Replays) : Prop where
  nodup : (markers key w.history).Nodup
  listed : ∀ n limit keys, (n, (⟨.list limit, keys⟩ : Sent)) ∈ w.history → key ∈ keys →
    markers key w.history ≠ []
  phase : ReplayPhase key (w.store.find key) w.history

theorem ReplayPhase.step {key : MarkerKey} {marker marker' : Option Marker}
    {history : List (ℕ × Sent)} {n : ℕ} {e : Sent} (h : ReplayPhase key marker history)
    (htouches : Touches key marker e marker')
    (hput : ∀ onlyIf metadata, e.1 = .put key onlyIf metadata → onlyIf = .etagDoesNotMatchAny)
    (hdelete : ∀ keys, e.1 = .delete keys → key ∈ keys → markers key history ≠ []) :
    ReplayPhase key marker' (history ++ [(n, e)]) := by
  cases htouches with
  | other hput' hdelete' =>
    refine h.other ?_ ?_ ?_
    · rintro ⟨onlyIf, metadata, etag, rfl⟩
      exact hput' onlyIf metadata rfl
    · rintro ⟨onlyIf, metadata, answer, rfl⟩
      exact hput' onlyIf metadata rfl
    · rintro ⟨keys, rfl, hkey⟩
      exact hdelete' keys rfl hkey
  | @written onlyIf metadata etag hholds =>
    obtain rfl := hput onlyIf metadata rfl
    obtain rfl : marker = none := hholds
    refine h.written ⟨_, metadata, etag, rfl⟩ ⟨_, metadata, some etag, rfl⟩ ?_
      (Option.some_ne_none _)
    rintro ⟨keys, heq, -⟩
    cases heq
  | @refused onlyIf metadata hholds =>
    obtain rfl := hput onlyIf metadata rfl
    refine h.refused hholds ?_ ?_
    · rintro ⟨onlyIf, metadata, etag, heq⟩
      cases heq
    · rintro ⟨keys, heq, -⟩
      cases heq
  | @deleted keys hkey =>
    refine h.delete (hdelete keys rfl hkey) ?_ ?_ ⟨keys, rfl, hkey⟩
    · rintro ⟨onlyIf, metadata, etag, heq⟩
      cases heq
    · rintro ⟨onlyIf, metadata, answer, heq⟩
      cases heq

abbrev MeetingReplays (w : Replays) : Prop :=
  Shared.Meeting (fun _ : ReplayCall => replayContract) ReplayCall.Post w

theorem ReplaySound.step {key : MarkerKey} {w w' : Replays} {action : ReplayAction}
    (hmoves : Shared.Moves replays w action w') (hmeeting : MeetingReplays w)
    (h : ReplaySound key w) : ReplaySound key w' := by
  cases hmoves with
  | idle => exact h
  | begin | other => exact ⟨h.nodup, h.listed, h.phase⟩
  | @call n call op next hn =>
    obtain ⟨hnoput, hput, hdelete⟩ := hmeeting.guarantee hn
    have htouches := touches_exec w.store op key
    have hne : ∀ {x : ℕ × Sent}, markers key w.history ≠ [] →
        markers key (w.history ++ [x]) ≠ [] := by
      intro x h
      rw [markers_append]
      exact append_ne_nil_of_left_ne_nil h _
    refine ⟨?_, fun m limit keys hmem hkey => ?_, h.phase.step htouches (hput key) ?_⟩
    · rw [markers_append]
      split
      · -- a call writes only once
        refine nodup_append.2 ⟨h.nodup, by simp, fun m hm m' hm' => ?_⟩
        obtain rfl := mem_singleton.1 hm'
        rintro rfl
        exact hnoput.not_marks (mem_markers.1 hm)
      · rw [append_nil]
        exact h.nodup
    · rcases mem_append.1 hmem with hmem | hmem
      · exact hne (h.listed m limit keys hmem hkey)
      · -- what was listed just now was there
        obtain ⟨-, hlist⟩ := Prod.mk.inj (mem_singleton.1 hmem)
        exact hne (h.phase.markers_ne_nil (htouches.ne_none_of_list hlist.symm hkey))
    · intro keys hkeys hkey
      obtain ⟨limit, listed, hmem, hlisted⟩ := hdelete keys hkeys key hkey
      exact h.listed n limit listed (mem_own.1 hmem) hlisted

def emptyBucket (clock : ℤ) : Bucket := { clock }

theorem replaySound_run (key : MarkerKey) (clock : ℤ) (actions : List ReplayAction) :
    let w : Replays := Runs.last (Shared.step replays) (Shared.idle (emptyBucket clock)) actions
    MeetingReplays w ∧ ReplaySound key w := by
  have hany : Runs.Along (Shared.step replays) (fun _ _ => True)
      (Shared.idle (emptyBucket clock)) actions := Runs.Along.of_forall fun _ _ => trivial
  have hrun := meeting_run (S := replays) (c := fun _ : ReplayCall => replayContract)
    (Q := fun _ _ => True) (I := ReplaySound key) hany ?_ meets_replay
    (fun _ _ _ _ _ _ _ _ _ => trivial)
    (fun w w' action hmoves hmeeting _ h _ => h.step hmoves hmeeting) (fun _ _ _ _ _ => trivial)
  · exact hrun.2
  · exact ⟨.nil, fun _ _ _ h => absurd h not_mem_nil,
      .unused (forall_mem_nil _) rfl rfl⟩

theorem consumed_iff {key : MarkerKey} {w : Replays} (h : MeetingReplays w) {n : ℕ} :
    Consumed key w n ↔ n ∈ markers key w.history := by
  rw [mem_markers]
  constructor
  · rintro ⟨claims, hn, hkey⟩
    exact (h.returned hn key).2 ⟨rfl, hkey⟩
  · intro hmarks
    have hlt : n < w.threads.length := by
      by_contra hle
      rw [h.fresh n (by omega)] at hmarks
      obtain ⟨e, he, -⟩ := hmarks
      cases he
    obtain ⟨⟨call, q⟩, hn⟩ : ∃ t, w.threads[n]? = some t := ⟨_, List.getElem?_eq_getElem hlt⟩
    cases q with
    | call op next => exact absurd hmarks (h.guarantee hn).1.not_marks
    | pure returned =>
      have hpost := h.returned hn
      cases call with
      | consume claims =>
        obtain ⟨rfl, hkey⟩ := (hpost key).1 hmarks
        exact ⟨claims, hn, hkey⟩
      | cleanup => exact absurd hmarks (NoPut.not_marks hpost)

theorem consumedOnce_iff_length {key : MarkerKey} {w : Replays} (h : MeetingReplays w)
    (hnodup : (markers key w.history).Nodup) :
    ConsumedOnce key w ↔ (markers key w.history).length ≤ 1 := by
  have hmem : ConsumedOnce key w ↔
      ∀ n ∈ markers key w.history, ∀ m ∈ markers key w.history, n = m := by
    refine ⟨fun honce n hn m hm => honce n m ((consumed_iff h).2 hn) ((consumed_iff h).2 hm), ?_⟩
    exact fun hall n m hn hm => hall n ((consumed_iff h).1 hn) m ((consumed_iff h).1 hm)
  rw [hmem]
  match markers key w.history, hnodup with
  | [], _ => simp
  | [n], _ => simp
  | n :: m :: rest, hnodup =>
    have hne : n ≠ m := by
      rintro rfl
      simp at hnodup
    refine iff_of_false (fun hall => hne (hall n (by simp) m (by simp))) (by simp)

/-- A grant is used once if and only if nobody tries to write its marker after a cleanup has deleted
it. -/
theorem consumedOnce_iff (key : MarkerKey) (clock : ℤ) (actions : List ReplayAction) :
    let w : Replays := Runs.last (Shared.step replays) (Shared.idle (emptyBucket clock)) actions
    ConsumedOnce key w ↔ ¬TriesAfterDelete key w.history := by
  intro w
  obtain ⟨hmeeting, hsound⟩ : MeetingReplays w ∧ ReplaySound key w :=
    replaySound_run key clock actions
  rw [consumedOnce_iff_length hmeeting hsound.nodup]
  cases hsound.phase with
  | unused hdeletes _ hmarkers =>
    refine iff_of_true (by rw [hmarkers]; exact Nat.zero_le 1) ?_
    rintro ⟨d, p, hsub, hd, -⟩
    exact hdeletes d (hsub.subset (mem_cons_self ..)) hd
  | used hdeletes _ hmarkers =>
    refine iff_of_true hmarkers.le ?_
    rintro ⟨d, p, hsub, hd, -⟩
    exact hdeletes d (hsub.subset (mem_cons_self ..)) hd
  | deleted _ htries _ hmarkers => exact iff_of_true hmarkers.le htries
  | replayed htries hmarkers => exact iff_of_false (by omega) (not_not_intro htries)

/-- A grant that expires after ten milliseconds. -/
def replayGrant : SignedUploadGrantClaims where
  expiresAt := 10
  grantId := some "0123456789abcdef0123456789abcdef"

/-- Two uploads with one grant begin in time; the second waits before it writes, until the marker of
the first is deleted. -/
def lateReplay : List ReplayAction :=
  [.begin (.consume replayGrant), .begin (.consume replayGrant), .proceed 0, .proceed 0,
    .proceed 1, .other 10, .begin (.cleanup none 10000), .proceed 2, .proceed 2, .proceed 2,
    .proceed 1]

theorem lateReplay_not_consumedOnce :
    ¬ConsumedOnce { expiresAt := 10, grantId := "0123456789abcdef0123456789abcdef" }
      (Runs.last (Shared.step replays) (Shared.idle (emptyBucket 0)) lateReplay) := by
  intro honce
  have hkey : signedUploadGrantMarkerKey replayGrant =
      .ok { expiresAt := 10, grantId := "0123456789abcdef0123456789abcdef" } := by decide +kernel
  have hboth := honce 0 1 ⟨replayGrant, outcome_eq_some.1 (by decide +kernel), hkey⟩
    ⟨replayGrant, outcome_eq_some.1 (by decide +kernel), hkey⟩
  exact absurd hboth (by decide)

end EdgeBase.Storage
