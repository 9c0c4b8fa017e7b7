import EdgeBase.Schedule.Deliveries

/-!
# Attempts of a scheduled delivery

What the statements of any number of workers do to the row of one key.

* `Moves`, `moves_exec` : what a statement does to the row of a key, with what it answers.
* `Sound`, `Sound.step` : how the row of a key and what was sent so far are related.
-/

namespace EdgeBase.Schedule

open List Option

abbrev Sent := Answered fun _ : Statement => Option ScheduledDeliveryState

/-! ### One key -/

namespace Rows

variable {rows : Rows} {key : ScheduledDeliveryKey} {row : ScheduledDeliveryState}

theorem key_of_find (h : rows.find key = some row) : row.toScheduledDeliveryKey = key := by
  simpa using List.find?_some h

theorem find_map {f : ScheduledDeliveryState → ScheduledDeliveryState}
    (hf : ∀ row, (f row).toScheduledDeliveryKey = row.toScheduledDeliveryKey) :
    find (List.map f rows) key = (rows.find key).map f := by
  simp only [find, List.find?_map, Function.comp_def, hf]

theorem find_append (rows rows' : Rows) :
    find (rows ++ rows') key = (rows.find key).or (rows'.find key) :=
  List.find?_append

theorem find_updateOne {key' : ScheduledDeliveryKey} {p : ScheduledDeliveryState → Bool}
    {f : ScheduledDeliveryState → ScheduledDeliveryState}
    (hf : ∀ row, (f row).toScheduledDeliveryKey = row.toScheduledDeliveryKey) :
    (rows.updateOne key' p f).2.find key =
      (rows.find key).map fun row => if key = key' ∧ p row then f row else row := by
  have hkeys : ∀ row, (if row.toScheduledDeliveryKey = key' ∧ p row then f row
      else row).toScheduledDeliveryKey = row.toScheduledDeliveryKey := by
    intro row
    split
    · exact hf row
    · rfl
  show find (List.map _ rows) key = _
  rw [find_map hkeys]
  refine Option.map_congr fun row hrow => ?_
  rw [key_of_find hrow]

theorem due_of_mem {now : ℤ} (h : row ∈ rows.due now) : row.Due now := by
  have h := mem_of_mem_take h
  rw [mem_mergeSort, mem_filter] at h
  exact of_decide_eq_true h.2

end Rows

/-- What a statement does to the row of one key, with what it answers. -/
inductive Moves (key : ScheduledDeliveryKey) :
    Option ScheduledDeliveryState → Sent → Option ScheduledDeliveryState → Prop
  | other {row statement answer} (h : statement.key ≠ some key) (h' : statement.key ≠ none) :
    Moves key row ⟨statement, answer⟩ row
  | inserted {request} (h : request.toScheduledDeliveryKey = key) :
    Moves key none ⟨.insert request, some request.row⟩ (some request.row)
  | ignored {row request} (h : request.toScheduledDeliveryKey = key) :
    Moves key (some row) ⟨.insert request, none⟩ (some row)
  | selected {row} : Moves key row ⟨.select key, row⟩ row
  /-- An `UPDATE` whose condition the row does not satisfy. -/
  | missed {row statement} (h : statement.key = some key)
    (h' : ∀ request, statement ≠ .insert request) : Moves key row ⟨statement, none⟩ row
  | expired {row request attempt} (h : request.toScheduledDeliveryKey = key)
    (hrow : row.attempt = attempt ∧ row.Due request.now) :
    Moves key (some row) ⟨.expire request attempt, some (row.expired request.now)⟩
      (some (row.expired request.now))
  | retried {row request attempt} (h : request.toScheduledDeliveryKey = key)
    (hrow : row.attempt = attempt ∧
      (row.status = .failed ∨ row.status = .timedOut ∨ row.status = .uncertain)) :
    Moves key (some row) ⟨.retry request attempt, some (request.retried row)⟩
      (some (request.retried row))
  | settled {row settlement} (h : settlement.toScheduledDeliveryKey = key)
    (hrow : (row.status = .running ∨ row.status = .uncertain) ∧
      row.attempt = settlement.attempt) :
    Moves key (some row) ⟨.settle settlement, some (settlement.settled row)⟩
      (some (settlement.settled row))
  /-- `prune` expires the row. -/
  | pruned {row now} (hrow : row.Due now) :
    Moves key (some row) ⟨.expireDue now, none⟩ (some (row.expired now))
  | kept {row now} : Moves key row ⟨.expireDue now, none⟩ row

/-- An `UPDATE` of one key misses the row, or returns what it has made of it. -/
theorem moves_updateOne {rows : Rows} {statement : Statement} {key key' : ScheduledDeliveryKey}
    {p : ScheduledDeliveryState → Bool} {f : ScheduledDeliveryState → ScheduledDeliveryState}
    (hexec : statement.exec rows = rows.updateOne key' p f) (hstatement : statement.key = some key')
    (hinsert : ∀ request, statement ≠ .insert request)
    (hf : ∀ row, (f row).toScheduledDeliveryKey = row.toScheduledDeliveryKey)
    (hmoves : ∀ row, key' = key → p row = true →
      Moves key (some row) ⟨statement, some (f row)⟩ (some (f row))) :
    Moves key (rows.find key) ⟨statement, (statement.exec rows).1⟩
      ((statement.exec rows).2.find key) := by
  rw [hexec, Rows.find_updateOne hf]
  by_cases hkey : key = key'
  · subst hkey
    have hanswer : (rows.updateOne key p f).1 = ((rows.find key).filter p).map f := rfl
    rw [hanswer]
    cases hrow : rows.find key with
    | none => exact .missed hstatement hinsert
    | some row =>
      cases hp : p row with
      | false =>
        have hmissed : Moves key (some row) ⟨statement, none⟩ (some row) :=
          .missed hstatement hinsert
        simpa [Option.filter, hp] using hmissed
      | true => simpa [Option.filter, hp] using hmoves row rfl hp
  · simp only [hkey, false_and, if_false, Option.map_id']
    exact .other (by simpa [hstatement] using Ne.symm hkey) (by simp [hstatement])

theorem moves_exec (rows : Rows) (statement : Statement) (key : ScheduledDeliveryKey) :
    Moves key (rows.find key) ⟨statement, (statement.exec rows).1⟩
      ((statement.exec rows).2.find key) := by
  cases statement with
  | insert request =>
    by_cases hkey : request.toScheduledDeliveryKey = key
    · cases hrow : rows.find request.toScheduledDeliveryKey with
      | some row =>
        simp only [Statement.exec, hrow]
        rw [← hkey, hrow]
        exact .ignored rfl
      | none =>
        simp only [Statement.exec, hrow]
        have hnew : Rows.find [request.row] key = some request.row := by
          simp [Rows.find, ScheduledDeliveryClaimRequest.row, hkey]
        rw [Rows.find_append, ← hkey, hrow, hkey, hnew]
        exact .inserted hkey
    · have hother : (Statement.insert request).key ≠ some key := by simpa [Statement.key] using hkey
      cases hrow : rows.find request.toScheduledDeliveryKey with
      | some row =>
        simp only [Statement.exec, hrow]
        exact .other hother nofun
      | none =>
        simp only [Statement.exec, hrow]
        have hnew : Rows.find [request.row] key = none := by
          simp [Rows.find, ScheduledDeliveryClaimRequest.row, hkey]
        rw [Rows.find_append, hnew, or_none]
        exact .other hother nofun
  | select key' =>
    by_cases hkey : key' = key
    · subst hkey
      exact .selected
    · exact .other (by simpa [Statement.key] using hkey) nofun
  | expire request attempt =>
    exact moves_updateOne rfl rfl nofun (fun _ => rfl) fun row hkey hp =>
      .expired hkey (by simpa using hp)
  | retry request attempt =>
    exact moves_updateOne rfl rfl nofun (fun _ => rfl) fun row hkey hp =>
      .retried hkey (by simpa using hp)
  | settle settlement =>
    exact moves_updateOne rfl rfl nofun (fun _ => rfl) fun row hkey hp =>
      .settled hkey (by simpa using hp)
  | expireDue now =>
    have hkeys : ∀ row, (if row ∈ rows.due now then row.expired now
        else row).toScheduledDeliveryKey = row.toScheduledDeliveryKey := by
      intro row
      split <;> rfl
    simp only [Statement.exec]
    rw [Rows.find_map hkeys]
    cases hrow : rows.find key with
    | none => exact .kept
    | some row =>
      rw [map_some]
      split
      · next hdue => exact .pruned (Rows.due_of_mem hdue)
      · exact .kept

def Statement.Claiming : Statement → Prop
  | .insert _ => True
  | .retry _ _ => True
  | _ => False

/-- A statement that has claimed an attempt of a key. -/
def Won (key : ScheduledDeliveryKey) (attempt : ℤ) (e : Sent) : Prop :=
  e.1.Claiming ∧ e.1.key = some key ∧ ∃ row ∈ e.2, row.attempt = attempt

/-- An attempt of a key was settled `failed`. -/
def SettledFailed (key : ScheduledDeliveryKey) (attempt : ℤ) (history : List Sent) : Prop :=
  ∃ settlement row, (⟨.settle settlement, some row⟩ : Sent) ∈ history ∧
    settlement.toScheduledDeliveryKey = key ∧ settlement.attempt = attempt ∧
      settlement.status = .failed

def Inserted (key : ScheduledDeliveryKey) (history : List Sent) : Prop :=
  ∃ request answer, (⟨.insert request, answer⟩ : Sent) ∈ history ∧
    request.toScheduledDeliveryKey = key

def SeenFailed (key : ScheduledDeliveryKey) (attempt : ℤ) (history : List Sent) : Prop :=
  ∃ row, (⟨.select key, some row⟩ : Sent) ∈ history ∧ row.status = .failed ∧ row.attempt = attempt

theorem SettledFailed.mono {key : ScheduledDeliveryKey} {attempt : ℤ} {history history' : List Sent}
    (h : SettledFailed key attempt history) (hsubset : history ⊆ history') :
    SettledFailed key attempt history' := by
  obtain ⟨settlement, row, hmem, h⟩ := h
  exact ⟨settlement, row, hsubset hmem, h⟩

theorem Inserted.mono {key : ScheduledDeliveryKey} {history history' : List Sent}
    (h : Inserted key history) (hsubset : history ⊆ history') : Inserted key history' := by
  obtain ⟨request, answer, hmem, h⟩ := h
  exact ⟨request, answer, hsubset hmem, h⟩

theorem SeenFailed.mono {key : ScheduledDeliveryKey} {attempt : ℤ} {history history' : List Sent}
    (h : SeenFailed key attempt history) (hsubset : history ⊆ history') :
    SeenFailed key attempt history' := by
  obtain ⟨row, hmem, h⟩ := h
  exact ⟨row, hsubset hmem, h⟩

namespace Moves

variable {key : ScheduledDeliveryKey} {row row' : Option ScheduledDeliveryState} {e : Sent}
  {r : ScheduledDeliveryState}

theorem grows (h : Moves key row e row') (hr : r ∈ row) : ∃ r' ∈ row', r.attempt ≤ r'.attempt ∧
      (r.status = .failed → r'.attempt = r.attempt → r'.status = .failed) := by
  have stays : ∃ r' ∈ row, r.attempt ≤ r'.attempt ∧
      (r.status = .failed → r'.attempt = r.attempt → r'.status = .failed) :=
    ⟨r, hr, le_refl _, fun hfailed _ => hfailed⟩
  cases h with
  | other | ignored | selected | missed | kept => exact stays
  | inserted => cases hr
  | expired h hrow =>
    obtain rfl := some.inj hr
    exact ⟨_, rfl, le_refl _, fun hfailed => by simp [hrow.2.1] at hfailed⟩
  | retried h hrow =>
    obtain rfl := some.inj hr
    refine ⟨_, rfl, ?_, fun _ hattempt => ?_⟩ <;>
      simp only [ScheduledDeliveryClaimRequest.retried] at * <;> omega
  | settled h hrow =>
    obtain rfl := some.inj hr
    exact ⟨_, rfl, le_refl _, fun hfailed => by simp [hfailed] at hrow⟩
  | pruned hrow =>
    obtain rfl := some.inj hr
    exact ⟨_, rfl, le_refl _, fun hfailed => by simp [hrow.1] at hfailed⟩

theorem succeeded (h : Moves key (some r) e row') (hr : r.status = .succeeded) : row' = some r := by
  cases h with
  | other | ignored | selected | missed | kept => rfl
  | expired h hrow => simp [hrow.2.1] at hr
  | retried h hrow => simp [hr] at hrow
  | settled h hrow => simp [hr] at hrow
  | pruned hrow => simp [hrow.1] at hr

theorem settle_of_ne {settlement : ScheduledDeliverySettlement}
    {answer : Option ScheduledDeliveryState}
    (h : Moves key (some r) ⟨.settle settlement, answer⟩ row')
    (hr : r.attempt ≠ settlement.attempt) : row' = some r := by
  cases h with
  | other | missed => rfl
  | settled h hrow => exact absurd hrow.2 hr

theorem won (h : Moves key row e row') {attempt : ℤ} (hwon : Won key attempt e) :
    (∃ r' ∈ row', r'.attempt = attempt) ∧
      ((row = none ∧ attempt = 1) ∨ ∃ r request, row = some r ∧ attempt = r.attempt + 1 ∧
        e.1 = .retry request r.attempt ∧ request.toScheduledDeliveryKey = key) := by
  obtain ⟨hclaiming, hkey, r', hr', hattempt⟩ := hwon
  cases h with
  | other h => exact absurd hkey h
  | inserted h =>
    obtain rfl := some.inj hr'
    exact ⟨⟨_, rfl, hattempt⟩, .inl ⟨rfl, hattempt.symm⟩⟩
  | retried h hrow =>
    obtain rfl := some.inj hr'
    exact ⟨⟨_, rfl, hattempt⟩, .inr ⟨_, _, rfl, hattempt.symm, by rw [hrow.1], h⟩⟩
  | ignored | missed | kept | pruned => cases hr'
  | selected | expired | settled => cases hclaiming

end Moves

/-- How the row of a key and what was sent so far are related. -/
structure Sound (key : ScheduledDeliveryKey) (row : Option ScheduledDeliveryState)
    (history : List Sent) : Prop where
  present : Inserted key history → ∃ r, row = some r
  attempts : ∀ e ∈ history, ∀ attempt, Won key attempt e → ∃ r ∈ row, attempt ≤ r.attempt
  failed : ∀ r ∈ row, r.status = .failed → SettledFailed key r.attempt history
  seen : ∀ attempt, SeenFailed key attempt history → SettledFailed key attempt history ∧
    ∃ r ∈ row, attempt ≤ r.attempt ∧ (r.attempt = attempt → r.status = .failed)

theorem sound_empty (key : ScheduledDeliveryKey) : Sound key none [] where
  present := by
    rintro ⟨request, answer, hmem, -⟩
    cases hmem
  attempts := by
    intro e he
    cases he
  failed := by
    intro r hr
    cases hr
  seen := by
    rintro attempt ⟨row, hmem, -⟩
    cases hmem

namespace Sound

variable {key : ScheduledDeliveryKey} {row row' : Option ScheduledDeliveryState}
  {history : List Sent} {e : Sent}

variable (h : Sound key row history)
include h

theorem failed_of_retry {attempt : ℤ} {r : ScheduledDeliveryState}
    (hseen : SeenFailed key attempt history) (hr : row = some r) (hattempt : r.attempt = attempt) :
    r.status = .failed := by
  obtain ⟨-, r', hr', -, hfailed⟩ := h.seen attempt hseen
  obtain rfl := some.inj (hr.symm.trans hr')
  exact hfailed hattempt

variable (hmoves : Moves key row e row')
include hmoves

/-- Only the outcome `failed` makes a failed row. -/
theorem settledFailed_of_failed
    {r' : ScheduledDeliveryState} (hr' : r' ∈ row') (hfailed : r'.status = .failed) :
    SettledFailed key r'.attempt (history ++ [e]) := by
  have old : ∀ r ∈ row, r.status = .failed → SettledFailed key r.attempt (history ++ [e]) :=
    fun r hr hr' => (h.failed r hr hr').mono (subset_append_left ..)
  cases hmoves with
  | other | ignored | selected | missed | kept => exact old r' hr' hfailed
  | inserted | expired | retried | pruned =>
    obtain rfl := some.inj hr'
    simp [ScheduledDeliveryClaimRequest.row, ScheduledDeliveryState.expired,
      ScheduledDeliveryClaimRequest.retried] at hfailed
  | @settled row settlement hkey hrow =>
    obtain rfl := some.inj hr'
    have hstatus : settlement.status = .failed := by
      cases hs : settlement.status <;>
        simp [ScheduledDeliverySettlement.settled, hs, SettledStatus.toStatus] at hfailed ⊢
    exact ⟨settlement, _, mem_append_right _ (mem_singleton_self _), hkey,
      hrow.2.symm, hstatus⟩

theorem present_step (hinserted : Inserted key (history ++ [e])) : ∃ r, row' = some r := by
  obtain ⟨request, answer, hmem, hkey⟩ := hinserted
  rcases mem_append.1 hmem with hmem | hmem
  · obtain ⟨r, hr⟩ := h.present ⟨request, answer, hmem, hkey⟩
    obtain ⟨r', hr', -⟩ := hmoves.grows hr
    exact ⟨r', hr'⟩
  · obtain rfl := mem_singleton.1 hmem
    cases hmoves with
    | other hother => exact absurd (congrArg some hkey) hother
    | inserted | ignored => exact ⟨_, rfl⟩
    | missed _ hinsert => exact absurd rfl (hinsert request)

theorem seen_step {attempt : ℤ} (hseen : SeenFailed key attempt (history ++ [e])) :
    SettledFailed key attempt (history ++ [e]) ∧
      ∃ r ∈ row', attempt ≤ r.attempt ∧ (r.attempt = attempt → r.status = .failed) := by
  obtain ⟨seen, hmem, hstatus, rfl⟩ := hseen
  rcases mem_append.1 hmem with hmem | hmem
  · obtain ⟨hsettled, r, hr, hle, hfailed⟩ := h.seen seen.attempt ⟨seen, hmem, hstatus, rfl⟩
    refine ⟨hsettled.mono (subset_append_left ..), ?_⟩
    obtain ⟨r', hr', hle', hgrows⟩ := hmoves.grows hr
    refine ⟨r', hr', hle.trans hle', fun hattempt => ?_⟩
    have hr : r.attempt = seen.attempt := by omega
    exact hgrows (hfailed hr) (by omega)
  · obtain rfl := mem_singleton.1 hmem
    cases hmoves with
    | other hother => exact absurd rfl hother
    | selected =>
      exact ⟨(h.failed seen rfl hstatus).mono (subset_append_left ..), seen, rfl,
        le_refl _, fun _ => hstatus⟩

theorem step : Sound key row' (history ++ [e]) where
  present := h.present_step hmoves
  attempts := by
    intro e' he' attempt hwon
    rcases mem_append.1 he' with he' | he'
    · obtain ⟨r, hr, hle⟩ := h.attempts e' he' attempt hwon
      obtain ⟨r', hr', hle', -⟩ := hmoves.grows hr
      exact ⟨r', hr', hle.trans hle'⟩
    · obtain rfl := mem_singleton.1 he'
      obtain ⟨⟨r', hr', hattempt⟩, -⟩ := hmoves.won hwon
      exact ⟨r', hr', hattempt.ge⟩
  failed _ hr' hfailed := h.settledFailed_of_failed hmoves hr' hfailed
  seen _ hseen := h.seen_step hmoves hseen

end Sound

end EdgeBase.Schedule
