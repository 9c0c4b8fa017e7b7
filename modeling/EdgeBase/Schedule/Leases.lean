import EdgeBase.Lib.Workers
import EdgeBase.Schedule.Claims
import Mathlib.Algebra.Order.Ring.Defs
import Mathlib.Algebra.Order.Ring.Int

/-!
# Leases of scheduled items

The items of a chunk are claimed at one moment, and a few of them run at a time.  What a handler
waits for its turn counts against the lease.

* `executeScheduledDeliveries` : when the handlers of all chunks start and end, and when they are
  settled, if the store takes no time and does not fail.
-/

namespace EdgeBase.Schedule

open List

def SCHEDULED_DELIVERY_HANDLER_CONCURRENCY : ℕ := 8

/-- What the schedule depends on of an item: whether it is only looked up, and whether the store
lets it be claimed. -/
structure ScheduledItem where
  reconcile : Bool
  claimed : Bool
  deriving DecidableEq

def ScheduledItem.Runs (item : ScheduledItem) : Bool := !item.reconcile && item.claimed

def claimedIn (chunk : List ScheduledItem) : ℕ := chunk.countP ScheduledItem.Runs

section

variable {T : Type} [LinearOrder T]

theorem le_foldl_max (times : List T) (now : T) :
    now ≤ times.foldl max now ∧ ∀ t ∈ times, t ≤ times.foldl max now := by
  induction times generalizing now with
  | nil => exact ⟨le_rfl, forall_mem_nil _⟩
  | cons time times ih =>
    obtain ⟨hnow, htimes⟩ := ih (max now time)
    refine ⟨(le_max_left _ _).trans hnow, forall_mem_cons.2 ⟨?_, htimes⟩⟩
    exact (le_max_right _ _).trans hnow

variable [CommRing T]

structure HandlerRun (T : Type) where
  ordinal : ℕ
  leaseExpiresAt : T
  startedAt : T
  terminatedAt : T

/-- A chunk that was worked off: the handlers, and the item and the time of each settlement. -/
structure Executed (T : Type) where
  runs : List (HandlerRun T)
  settlements : List (ℕ × T)
  endsAt : T

/-- `mapWithConcurrency`: when each value is mapped that takes some time. -/
def mapWithConcurrency (durations : List T) (limit : ℕ) (now : T) : List T :=
  Workers.starts (List.replicate (min limit durations.length) now) durations

/-- The items of a chunk that were claimed.  A handler occupies its worker until it terminates or
times out; one that is over in time is settled with the others, a late one by itself. -/
def executeChunk (timeoutMs leaseMs : T) (duration : ℕ → T) (claimNow : T) (claimed : List ℕ) :
    Executed T :=
  let occupied := claimed.map fun n => min (duration n) timeoutMs
  let started := mapWithConcurrency occupied SCHEDULED_DELIVERY_HANDLER_CONCURRENCY claimNow
  let endsAt := (List.zipWith (· + ·) started occupied).foldl max claimNow
  let runs := List.zipWith (fun n startedAt =>
    { ordinal := n
      leaseExpiresAt := claimNow + leaseMs
      startedAt := startedAt
      terminatedAt := startedAt + duration n }) claimed started
  { runs := runs
    settlements := runs.map fun run => (run.ordinal,
      if duration run.ordinal < timeoutMs then endsAt else max endsAt run.terminatedAt)
    endsAt := endsAt }

def executeChunks (timeoutMs leaseMs : T) (duration : ℕ → T) :
    T → List (List (ScheduledItem × ℕ)) → List (Executed T)
  | _, [] => []
  | now, chunk :: rest =>
    let executed := executeChunk timeoutMs leaseMs duration now
      ((chunk.filter fun p => p.1.Runs).map Prod.snd)
    executed :: executeChunks timeoutMs leaseMs duration executed.endsAt rest

/-- `Math.max(60_000, options.timeoutMs * 2)`. -/
def defaultLeaseMs (timeoutMs : T) : T := max 60000 (timeoutMs * 2)

/-- `executeScheduledDeliveries`, with the default lease. -/
def executeScheduledDeliveries (timeoutMs : T) (duration : ℕ → T) (now : T)
    (items : List ScheduledItem) : List (Executed T) :=
  executeChunks timeoutMs (defaultLeaseMs timeoutMs) duration now (chunks items.zipIdx)

/-- Handlers that keep to the timeout start within their leases, and are settled when they are
over. -/
def LeasesCover (timeoutMs : T) (items : List ScheduledItem) : Prop :=
  ∀ (duration : ℕ → T) (now : T), (∀ n, 0 ≤ duration n ∧ duration n ≤ timeoutMs) →
    ∀ executed ∈ executeScheduledDeliveries timeoutMs duration now items,
      ∀ run ∈ executed.runs, run.startedAt < run.leaseExpiresAt ∧
        (run.terminatedAt < run.leaseExpiresAt →
          ∃ time, (run.ordinal, time) ∈ executed.settlements ∧ run.terminatedAt ≤ time)

/-! ### Chunks -/

theorem map_chunks {α β : Type} (f : α → β) (xs : List α) :
    (chunks xs).map (List.map f) = chunks (xs.map f) := by
  induction xs using chunks.induct with
  | case1 => simp [chunks]
  | case2 x xs ih =>
    rw [chunks, map_cons, ih, map_cons, chunks, ← map_cons, map_take,
      map_drop]

theorem length_runs (chunk : List (ScheduledItem × ℕ)) :
    ((chunk.filter fun p => p.1.Runs).map Prod.snd).length = claimedIn (chunk.map Prod.fst) := by
  rw [length_map, claimedIn, countP_map, countP_eq_length_filter]
  rfl

variable {timeoutMs leaseMs : T} {duration : ℕ → T}

theorem mem_executeChunks {now : T} {cs : List (List (ScheduledItem × ℕ))} {executed : Executed T}
    (h : executed ∈ executeChunks timeoutMs leaseMs duration now cs) :
    ∃ chunk ∈ cs, ∃ claimNow, executed = executeChunk timeoutMs leaseMs duration claimNow
      ((chunk.filter fun p => p.1.Runs).map Prod.snd) := by
  induction cs generalizing now with
  | nil => cases h
  | cons chunk rest ih =>
    rcases mem_cons.1 h with rfl | h
    · exact ⟨chunk, mem_cons_self, now, rfl⟩
    · obtain ⟨chunk', hchunk', he⟩ := ih h
      exact ⟨chunk', mem_cons_of_mem _ hchunk', he⟩

theorem exists_of_mem_chunks {now : T} {cs : List (List (ScheduledItem × ℕ))}
    {chunk : List (ScheduledItem × ℕ)} (h : chunk ∈ cs) :
    ∃ claimNow, executeChunk timeoutMs leaseMs duration claimNow
      ((chunk.filter fun p => p.1.Runs).map Prod.snd) ∈
        executeChunks timeoutMs leaseMs duration now cs := by
  induction cs generalizing now with
  | nil => cases h
  | cons chunk' rest ih =>
    rcases mem_cons.1 h with rfl | h
    · exact ⟨now, mem_cons_self⟩
    · obtain ⟨claimNow, hmem⟩ := ih h
      exact ⟨claimNow, mem_cons_of_mem _ hmem⟩

/-! ### One chunk -/

section Chunk

variable {claimNow : T} {claimed : List ℕ}

theorem mem_runs {run : HandlerRun T} :
    run ∈ (executeChunk timeoutMs leaseMs duration claimNow claimed).runs ↔
      ∃ (j : ℕ) (n : ℕ) (startedAt : T), claimed[j]? = some n ∧
        (mapWithConcurrency (claimed.map fun n => min (duration n) timeoutMs)
          SCHEDULED_DELIVERY_HANDLER_CONCURRENCY claimNow)[j]? = some startedAt ∧
        run = ⟨n, claimNow + leaseMs, startedAt, startedAt + duration n⟩ := by
  unfold executeChunk
  dsimp only
  rw [mem_iff_getElem?]
  simp only [List.getElem?_zipWith]
  refine exists_congr fun j => ?_
  constructor
  · intro h
    split at h
    · next n startedAt hn hstarted =>
      exact ⟨n, startedAt, hn, hstarted, (Option.some.inj h).symm⟩
    · cases h
  · rintro ⟨n, startedAt, hn, hstarted, rfl⟩
    rw [hn, hstarted]

theorem settled_of_run {run : HandlerRun T}
    (h : run ∈ (executeChunk timeoutMs leaseMs duration claimNow claimed).runs) :
    ∃ time, (run.ordinal, time) ∈
        (executeChunk timeoutMs leaseMs duration claimNow claimed).settlements ∧
      run.terminatedAt ≤ time := by
  refine ⟨_, mem_map_of_mem h, ?_⟩
  obtain ⟨j, n, startedAt, hn, hstarted, rfl⟩ := mem_runs.1 h
  split
  · next hshort =>
    refine (le_foldl_max _ _).2 _ (mem_iff_getElem?.2 ⟨j, ?_⟩)
    rw [List.getElem?_zipWith, hstarted, List.getElem?_map, hn]
    exact congrArg (fun d => some (startedAt + d)) (min_eq_left (le_of_lt hshort))
  · exact le_max_right _ _

variable [IsStrictOrderedRing T]

theorem div_min {j n : ℕ} (hj : j < n) : j / min 8 n = j / 8 := by
  rcases Nat.le_total 8 n with h | h
  · rw [Nat.min_eq_left h]
  · rw [Nat.min_eq_right h, Nat.div_eq_of_lt hj, Nat.div_eq_of_lt (by omega)]

theorem startedAt_le (h0 : 0 ≤ timeoutMs) {run : HandlerRun T}
    (h : run ∈ (executeChunk timeoutMs leaseMs duration claimNow claimed).runs) :
    run.startedAt ≤ claimNow + ((claimed.length - 1) / 8) • timeoutMs := by
  obtain ⟨j, n, startedAt, hn, hstarted, rfl⟩ := mem_runs.1 h
  have hj : j < claimed.length := (List.getElem?_eq_some_iff.1 hn).1
  have hshort : ∀ d ∈ claimed.map fun n => min (duration n) timeoutMs, d ≤ timeoutMs := by
    intro d hd
    obtain ⟨n, -, rfl⟩ := mem_map.1 hd
    exact min_le_right _ _
  have hle := Workers.starts_le hshort h0 hstarted
  rw [length_map, SCHEDULED_DELIVERY_HANDLER_CONCURRENCY, div_min hj] at hle
  refine hle.trans (add_le_add_right (nsmul_le_nsmul_left h0 ?_) _)
  exact Nat.div_le_div_right (by omega)

theorem exists_late_run (leaseMs claimNow : T) (h0 : 0 ≤ timeoutMs) (hne : claimed ≠ []) :
    ∃ run ∈ (executeChunk timeoutMs leaseMs (fun _ => timeoutMs) claimNow claimed).runs,
      run.leaseExpiresAt = claimNow + leaseMs ∧
        claimNow + ((claimed.length - 1) / 8) • timeoutMs ≤ run.startedAt := by
  have hpos := length_pos_iff.2 hne
  let occupied := claimed.map fun _ => min timeoutMs timeoutMs
  have hworkers : List.replicate
      (min SCHEDULED_DELIVERY_HANDLER_CONCURRENCY occupied.length) claimNow ≠ [] := by
    rw [← length_pos_iff, length_replicate, length_map]
    exact lt_min (by decide) hpos
  have hlength : (mapWithConcurrency occupied SCHEDULED_DELIVERY_HANDLER_CONCURRENCY
      claimNow).length = claimed.length := by
    rw [mapWithConcurrency, Workers.length_starts hworkers, length_map]
  obtain ⟨startedAt, hstarted⟩ : ∃ t, (mapWithConcurrency occupied
      SCHEDULED_DELIVERY_HANDLER_CONCURRENCY claimNow)[claimed.length - 1]? = some t :=
    ⟨_, List.getElem?_eq_getElem (by omega)⟩
  obtain ⟨n, hn⟩ : ∃ n, claimed[claimed.length - 1]? = some n :=
    ⟨_, List.getElem?_eq_getElem (by omega)⟩
  have hlong : ∀ d ∈ occupied, timeoutMs ≤ d := by
    intro d hd
    obtain ⟨n, -, rfl⟩ := mem_map.1 hd
    exact le_of_eq (min_self _).symm
  have hle := Workers.le_starts hlong h0 hstarted
  rw [length_map, SCHEDULED_DELIVERY_HANDLER_CONCURRENCY, div_min (by omega)] at hle
  exact ⟨_, mem_runs.2 ⟨_, n, startedAt, hn, hstarted, rfl⟩, rfl, hle⟩

end Chunk

/-! ### All chunks -/

variable [IsStrictOrderedRing T]

/-- The leases cover the handlers exactly when, in every chunk, all rounds before the last one take
less than the lease. -/
theorem leasesCover_iff (htimeout : 0 < timeoutMs) (items : List ScheduledItem) :
    LeasesCover timeoutMs items ↔ ∀ chunk ∈ chunks items,
        ((claimedIn chunk - 1) / 8) • timeoutMs < defaultLeaseMs timeoutMs := by
  have hchunks : (chunks items.zipIdx).map (List.map Prod.fst) = chunks items := by
    rw [map_chunks, zipIdx_map_fst]
  rw [← hchunks]
  constructor
  · intro h chunk hchunk
    obtain ⟨chunk, hmem, rfl⟩ := mem_map.1 hchunk
    rw [← length_runs]
    by_cases hne : (chunk.filter fun p => p.1.Runs).map Prod.snd = []
    · rw [hne, length_nil, Nat.zero_sub, Nat.zero_div, zero_nsmul]
      exact lt_max_of_lt_right (mul_pos htimeout two_pos)
    · obtain ⟨claimNow, hexecuted⟩ : ∃ claimNow, executeChunk timeoutMs
          (defaultLeaseMs timeoutMs) (fun _ => timeoutMs) claimNow _ ∈
            executeScheduledDeliveries timeoutMs (fun _ => timeoutMs) 0 items :=
        exists_of_mem_chunks hmem
      obtain ⟨run, hrun, hlease, hlate⟩ :=
        exists_late_run (defaultLeaseMs timeoutMs) claimNow htimeout.le hne
      have hcovered := (h (fun _ => timeoutMs) 0 (fun _ => ⟨htimeout.le, le_rfl⟩) _ hexecuted run
        hrun).1
      rw [hlease] at hcovered
      exact lt_of_add_lt_add_left (hlate.trans_lt hcovered)
  · intro h duration now hduration executed hexecuted run hrun
    obtain ⟨chunk, hchunk, claimNow, rfl⟩ := mem_executeChunks hexecuted
    have hshort := h _ (mem_map_of_mem hchunk)
    rw [← length_runs] at hshort
    refine ⟨?_, fun _ => settled_of_run hrun⟩
    have hle := startedAt_le htimeout.le hrun
    obtain ⟨j, n, startedAt, hn, hstarted, rfl⟩ := mem_runs.1 hrun
    exact hle.trans_lt (add_lt_add_right hshort claimNow)

end

/-! ### The third round -/

def newItems (n : ℕ) : List ScheduledItem := List.replicate n ⟨false, true⟩

/-- Of seventeen handlers that take half a minute, the last one starts when its lease is over. -/
theorem seventeen_not_leasesCover : ¬LeasesCover (30000 : ℤ) (newItems 17) := by
  intro h
  have hlate : ∃ executed ∈ executeScheduledDeliveries (30000 : ℤ) (fun _ => 30000) 0 (newItems 17),
      ∃ run ∈ executed.runs, ¬run.startedAt < run.leaseExpiresAt := by
    rw [executeScheduledDeliveries, chunks_of_length_le (by decide) (by decide)]
    refine ⟨_, mem_singleton_self _, ⟨16, 60000, 60000, 90000⟩, ?_, by decide⟩
    exact mem_runs.2 ⟨16, 16, 60000, by decide +kernel, by decide +kernel, rfl⟩
  obtain ⟨executed, hexecuted, run, hrun, hnot⟩ := hlate
  exact hnot (h (fun _ => 30000) 0 (fun _ => by decide) executed hexecuted run hrun).1

/-- Sixteen handlers have their leases, whatever the timeout. -/
theorem sixteen_leasesCover : LeasesCover (30000 : ℤ) (newItems 16) := by
  refine (leasesCover_iff (by decide) (newItems 16)).2 ?_
  rw [chunks_of_length_le (by decide) (by decide)]
  exact forall_mem_singleton.2 (by decide)

end EdgeBase.Schedule
