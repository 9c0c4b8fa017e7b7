import EdgeBase.Cursors.Store
import Mathlib.Data.List.Nodup

/-!
# Cursors until they expire

A call that extends the row of its record has found it some statements earlier.  Another isolate may
have deleted it since, and an update of no row goes unnoticed: the caller holds a token that stands
for nothing.

* `CursorState.Lives` : tokens stand for their records until they expire.
-/

namespace EdgeBase

open List CursorState

namespace CursorState

variable (s : CursorState)

/-- When a token expires that a call has returned, if it has not expired. -/
def awaited (token : String) : CursorReport → Option ℕ
  | .issued token' _ _ expiresAt =>
    if token' = token ∧ s.clock < expiresAt then some expiresAt else none
  | .resolved .. => none

def outstanding (token : String) : List ℕ := s.log.filterMap (s.awaited token)

/-- A row has been inserted for a record under a token. -/
def Created (token tableName recordId : String) : Prop :=
  ∃ row ∈ s.created, row.token = token ∧ row.tableName = tableName ∧ row.recordId = recordId

/-- The row of a token expires at some time or later. -/
def Stored (token : String) (expiresAt : ℕ) : Prop :=
  ∃ row ∈ s.store, row.token = token ∧ expiresAt ≤ row.expiresAt

structure Lives : Prop where
  /-- A call that resolves a token now would get its record. -/
  live : ∀ token tableName recordId expiresAt, .issued token tableName recordId expiresAt ∈ s.log →
    s.clock < expiresAt →
    isResponseCursor token = true ∧ s.store.lookUp tableName token s.clock = some recordId
  /-- A call that has resolved a token in time has got its record. -/
  answered : ∀ token tableName recordId expiresAt readAt answer,
    [.issued token tableName recordId expiresAt,
      .resolved tableName token readAt answer].Sublist s.log →
    readAt < expiresAt → answer = some recordId
  same : ∀ token tableName recordId expiresAt tableName' readAt recordId',
    .issued token tableName recordId expiresAt ∈ s.log →
    .resolved tableName' token readAt (some recordId') ∈ s.log →
    tableName' = tableName ∧ recordId' = recordId

variable {s}

theorem mem_outstanding {token : String} {expiresAt : ℕ} :
    expiresAt ∈ s.outstanding token ↔ s.clock < expiresAt ∧
      ∃ tableName recordId, .issued token tableName recordId expiresAt ∈ s.log := by
  unfold outstanding
  rw [mem_filterMap]
  constructor
  · rintro ⟨report, hlog, hawaited⟩
    cases report with
    | issued token' tableName recordId expiresAt' =>
      unfold awaited at hawaited
      dsimp only at hawaited
      split_ifs at hawaited with hif
      obtain rfl := Option.some.inj hawaited
      obtain ⟨rfl, hclock⟩ := hif
      exact ⟨hclock, tableName, recordId, hlog⟩
    | resolved => cases hawaited
  · rintro ⟨hclock, tableName, recordId, hlog⟩
    exact ⟨_, hlog, if_pos ⟨rfl, hclock⟩⟩

end CursorState

namespace Cursors

open Handlers

/-! ### The condition -/

/-- A statement that does not lose a row that is awaited, nor brings its expiry forward. -/
def MeetsStep (s : CursorState) : CursorStep → Prop
  | .extend r token =>
    (s.clock < r.expiresAt → (s.store.findByToken token).isSome) ∧
      ∀ expiresAt ∈ s.outstanding token, expiresAt ≤ r.expiresAt
  | .create r =>
    ∀ token ∈ r.draws.head?, (s.store.findByToken token.1).isSome ∨
      ∀ row ∈ s.created, row.token = token.1 →
        row.tableName = r.tableName ∧ row.recordId = r.recordId
  | .drop token => s.outstanding token = []
  | .prolong token expiry => ∀ expiresAt ∈ s.outstanding token, expiresAt ≤ expiry
  | _ => True

def Meets (s : System) : Step → Prop
  | .proceed => ∀ sec ∈ s.current, MeetsStep s.state sec
  | _ => True

/-! ### The invariant -/

/-- What a call that has come so far relies on. -/
def Fits (s : CursorState) : CursorStep → Prop
  | .ready next => Fits s next
  | .collect r => r.now ≤ s.clock
  | .extend r token =>
    isResponseCursor token = true ∧ s.Created token r.tableName r.recordId
  | .resolve _ _ now => now ≤ s.clock
  | _ => True

/-- The rows are those that have been inserted, under a token each, and what has been told is so. -/
structure Sound (s : CursorState) : Prop where
  nodup : (s.store.map (·.token)).Nodup
  known : ∀ row ∈ s.store, s.Created row.token row.tableName row.recordId
  agree : ∀ row ∈ s.created, ∀ row' ∈ s.created, row.token = row'.token →
    row.tableName = row'.tableName ∧ row.recordId = row'.recordId
  issued : ∀ token tableName recordId expiresAt,
    .issued token tableName recordId expiresAt ∈ s.log →
    isResponseCursor token = true ∧ s.Created token tableName recordId
  stored : ∀ token, ∀ expiresAt ∈ s.outstanding token, s.Stored token expiresAt
  resolved : ∀ token tableName readAt recordId,
    .resolved tableName token readAt (some recordId) ∈ s.log → s.Created token tableName recordId
  answered : ∀ token tableName recordId expiresAt readAt answer,
    [.issued token tableName recordId expiresAt,
      .resolved tableName token readAt answer].Sublist s.log →
    readAt < expiresAt → answer = some recordId

/-- The rows inserted and the clock of a later state. -/
structure Grows (s s' : CursorState) : Prop where
  clock : s.clock ≤ s'.clock
  created : ∀ row ∈ s.created, row ∈ s'.created

theorem Grows.rfl {s : CursorState} : Grows s s := ⟨Nat.le_refl _, fun _ h => h⟩

variable {s s' : CursorState}

theorem Grows.unchanged (store : CursorStore) (log : List CursorReport) :
    Grows s { s with store, log } := ⟨Nat.le_refl _, fun _ h => h⟩

theorem Grows.createdOf (h : Grows s s') {token tableName recordId : String}
    (hc : s.Created token tableName recordId) : s'.Created token tableName recordId := by
  obtain ⟨row, hrow, heq⟩ := hc
  exact ⟨row, h.created row hrow, heq⟩

theorem Grows.fits (h : Grows s s') {sec : CursorStep} (hsec : Fits s sec) : Fits s' sec := by
  induction sec with
  | ready next ih => exact ih hsec
  | collect r => exact Nat.le_trans hsec h.clock
  | extend r token => exact ⟨hsec.1, h.createdOf hsec.2⟩
  | resolve tableName token now => exact Nat.le_trans hsec h.clock
  | _ => trivial

/-! ### Rows -/

section Rows

variable {store : CursorStore} {token : String}

theorem findByToken_some {row : CursorRecord} (h : store.findByToken token = some row) :
    row ∈ store ∧ row.token = token := by
  refine ⟨List.mem_of_find?_eq_some h, ?_⟩
  have := List.find?_some h
  exact of_decide_eq_true this

theorem findByToken_isSome :
    (store.findByToken token).isSome ↔ ∃ row ∈ store, row.token = token := by
  unfold CursorStore.findByToken
  rw [List.find?_isSome]
  simp only [decide_eq_true_eq]

theorem eq_of_token (hkey : (store.map (·.token)).Nodup) {row row' : CursorRecord}
    (hrow : row ∈ store) (hrow' : row' ∈ store) (h : row.token = row'.token) : row = row' :=
  inj_on_of_nodup_map hkey hrow hrow' h

theorem findByToken_eq (hkey : (store.map (·.token)).Nodup) {row : CursorRecord}
    (hrow : row ∈ store) : store.findByToken row.token = some row := by
  obtain ⟨found, hfound⟩ := Option.isSome_iff_exists.1 (findByToken_isSome.2 ⟨row, hrow, rfl⟩)
  obtain ⟨hmem, htoken⟩ := findByToken_some hfound
  rw [hfound, eq_of_token hkey hmem hrow htoken]

end Rows

/-! ### Statements that change rows -/

/-- A table in place of another: rows keep what they stand for, no token comes twice, and none is
lost that is awaited. -/
structure Keeps (s : CursorState) (store : CursorStore) : Prop where
  rows : ∀ row ∈ store, ∃ row' ∈ s.store, row'.token = row.token ∧
    row'.tableName = row.tableName ∧ row'.recordId = row.recordId
  tokens : (store.map (·.token)).Sublist (s.store.map (·.token))
  stored : ∀ token, ∀ expiresAt ∈ s.outstanding token, s.Stored token expiresAt →
    ∃ row ∈ store, row.token = token ∧ expiresAt ≤ row.expiresAt

theorem Sound.keep (h : Sound s) {store : CursorStore} (hkeeps : Keeps s store) :
    Sound { s with store } where
  nodup := hkeeps.tokens.nodup h.nodup
  known row hrow := by
    obtain ⟨row', hrow', htoken, htable, hrecord⟩ := hkeeps.rows row hrow
    have := h.known row' hrow'
    rwa [htoken, htable, hrecord] at this
  agree := h.agree
  issued := h.issued
  stored token expiresAt hout := hkeeps.stored token expiresAt hout (h.stored token expiresAt hout)
  resolved := h.resolved
  answered := h.answered

theorem keeps_filter {p : CursorRecord → Bool}
    (hp : ∀ row ∈ s.store, ∀ expiresAt ∈ s.outstanding row.token,
      expiresAt ≤ row.expiresAt → p row = true) : Keeps s (s.store.filter p) where
  rows row hrow := ⟨row, mem_of_mem_filter hrow, rfl, rfl, rfl⟩
  tokens := filter_sublist.map _
  stored token expiresAt hout hstored := by
    obtain ⟨row, hrow, rfl, hexpires⟩ := hstored
    exact ⟨row, mem_filter.2 ⟨hrow, hp row hrow expiresAt hout hexpires⟩, rfl, hexpires⟩

theorem expired_of_mem {store : CursorStore} {now limit : ℕ} {token : String}
    (h : token ∈ store.expired now limit) :
    ∃ row ∈ store, row.token = token ∧ row.expiresAt ≤ now := by
  obtain ⟨row, hrow, htoken⟩ := mem_map.1 h
  have hsorted := mem_of_mem_take hrow
  obtain ⟨hmem, hexpired⟩ := mem_filter.1 ((mem_insertionSort _).1 hsorted)
  exact ⟨row, hmem, htoken, of_decide_eq_true hexpired⟩

theorem keeps_deleteExpired (hkey : (s.store.map (·.token)).Nodup) {now limit : ℕ}
    (hnow : now ≤ s.clock) : Keeps s (s.store.deleteExpired now limit) := by
  refine keeps_filter fun row hrow expiresAt hout hexpires => decide_eq_true fun hmem => ?_
  obtain ⟨row', hrow', htoken, hexpired⟩ := expired_of_mem hmem
  rw [eq_of_token hkey hrow' hrow htoken] at hexpired
  have := (mem_outstanding.1 hout).1
  omega

theorem keeps_deleteByToken {token : String} (h : s.outstanding token = []) :
    Keeps s (s.store.deleteByToken token) := by
  refine keeps_filter fun row _ expiresAt hout _ => decide_eq_true fun htoken => ?_
  rw [htoken, h] at hout
  cases hout

theorem mem_touch {store : CursorStore} {row : CursorRecord} (token : String) (expiry : ℕ)
    (h : row ∈ store) : ∃ row' ∈ store.touch token expiry, row'.token = row.token ∧
      row'.tableName = row.tableName ∧ row'.recordId = row.recordId ∧
      row'.expiresAt = if row.token = token then expiry else row.expiresAt := by
  refine ⟨_, mem_map_of_mem h, ?_⟩
  split_ifs <;> exact ⟨rfl, rfl, rfl, rfl⟩

theorem tokens_touch (store : CursorStore) (token : String) (expiry : ℕ) :
    (store.touch token expiry).map (·.token) = store.map (·.token) := by
  unfold CursorStore.touch
  rw [map_map]
  refine map_congr_left fun row _ => ?_
  dsimp only [Function.comp]
  split_ifs <;> rfl

theorem keeps_touch {token : String} {expiry : ℕ}
    (h : ∀ expiresAt ∈ s.outstanding token, expiresAt ≤ expiry) :
    Keeps s (s.store.touch token expiry) where
  rows row hrow := by
    obtain ⟨row', hrow', rfl⟩ := mem_map.1 hrow
    refine ⟨row', hrow', ?_⟩
    split_ifs <;> exact ⟨rfl, rfl, rfl⟩
  tokens := by rw [tokens_touch]
  stored token' expiresAt hout hstored := by
    obtain ⟨row, hrow, rfl, hexpires⟩ := hstored
    obtain ⟨row', hrow', htoken, -, -, hexpiry⟩ := mem_touch token expiry hrow
    refine ⟨row', hrow', htoken, ?_⟩
    rw [hexpiry]
    split_ifs with heq
    · rw [heq] at hout
      exact h expiresAt hout
    · exact hexpires

/-! ### Rows that are inserted -/

variable (h : Sound s)
include h

theorem Sound.insert (record : CursorRecord) (hfree : ¬(s.store.findByToken record.token).isSome)
    (hdrawn : ∀ row ∈ s.created, row.token = record.token →
      row.tableName = record.tableName ∧ row.recordId = record.recordId) :
    Sound { s with store := s.store ++ [record], created := s.created ++ [record] } where
  nodup := by
    rw [map_append, map_singleton]
    refine h.nodup.append (nodup_singleton _) fun token htoken hnew => ?_
    obtain ⟨row, hrow, rfl⟩ := mem_map.1 htoken
    exact hfree (findByToken_isSome.2 ⟨row, hrow, mem_singleton.1 hnew⟩)
  known row hrow := by
    rcases mem_append.1 hrow with hrow | hrow
    · obtain ⟨row', hrow', heq⟩ := h.known row hrow
      exact ⟨row', mem_append_left _ hrow', heq⟩
    · exact ⟨row, mem_append_right _ hrow, rfl, rfl, rfl⟩
  agree row hrow row' hrow' htoken := by
    rcases mem_append.1 hrow with hold | hnew <;>
      rcases mem_append.1 hrow' with hold' | hnew'
    · exact h.agree row hold row' hold' htoken
    · rw [mem_singleton.1 hnew'] at htoken ⊢
      exact hdrawn row hold htoken
    · rw [mem_singleton.1 hnew] at htoken ⊢
      have := hdrawn row' hold' htoken.symm
      exact ⟨this.1.symm, this.2.symm⟩
    · rw [mem_singleton.1 hnew, mem_singleton.1 hnew']
      exact ⟨rfl, rfl⟩
  issued token tableName recordId expiresAt hlog := by
    obtain ⟨hvalid, row, hrow, heq⟩ := h.issued token tableName recordId expiresAt hlog
    exact ⟨hvalid, row, mem_append_left _ hrow, heq⟩
  stored token expiresAt hout := by
    obtain ⟨row, hrow, heq⟩ := h.stored token expiresAt hout
    exact ⟨row, mem_append_left _ hrow, heq⟩
  resolved token tableName readAt recordId hlog := by
    obtain ⟨row, hrow, heq⟩ := h.resolved token tableName readAt recordId hlog
    exact ⟨row, mem_append_left _ hrow, heq⟩
  answered := h.answered

/-! ### What is told -/

theorem Sound.tell {r : CursorReport} (hissued : ∀ token tableName recordId expiresAt,
      r = .issued token tableName recordId expiresAt →
        isResponseCursor token = true ∧ s.Created token tableName recordId ∧
          (s.clock < expiresAt → s.Stored token expiresAt))
    (hresolved : ∀ token tableName readAt recordId,
      r = .resolved tableName token readAt (some recordId) → s.Created token tableName recordId)
    (hanswered : ∀ token tableName recordId expiresAt readAt answer,
      .issued token tableName recordId expiresAt ∈ s.log →
        r = .resolved tableName token readAt answer → readAt < expiresAt → answer = some recordId) :
    Sound { s with log := s.log ++ [r] } where
  nodup := h.nodup
  known := h.known
  agree := h.agree
  issued token tableName recordId expiresAt hlog := by
    rcases mem_append.1 hlog with hlog | hlog
    · exact h.issued token tableName recordId expiresAt hlog
    · obtain ⟨hvalid, hcreated, -⟩ := hissued _ _ _ _ (mem_singleton.1 hlog).symm
      exact ⟨hvalid, hcreated⟩
  stored token expiresAt hout := by
    obtain ⟨hclock, tableName, recordId, hlog⟩ := mem_outstanding.1 hout
    rcases mem_append.1 hlog with hlog | hlog
    · exact h.stored token expiresAt
        (mem_outstanding.2 ⟨hclock, tableName, recordId, hlog⟩)
    · exact (hissued _ _ _ _ (mem_singleton.1 hlog).symm).2.2 hclock
  resolved token tableName readAt recordId hlog := by
    rcases mem_append.1 hlog with hlog | hlog
    · exact h.resolved token tableName readAt recordId hlog
    · exact hresolved _ _ _ _ (mem_singleton.1 hlog).symm
  answered token tableName recordId expiresAt readAt answer hsub hread := by
    rcases Runs.pair_sublist_concat.1 hsub with hsub | ⟨hlog, heq⟩
    · exact h.answered token tableName recordId expiresAt readAt answer hsub hread
    · exact hanswered _ _ _ _ _ _ hlog heq.symm hread

theorem Sound.tellIssued {token tableName recordId : String} {expiresAt : ℕ}
    (hvalid : isResponseCursor token = true) (hcreated : s.Created token tableName recordId)
    (hstored : s.clock < expiresAt → s.Stored token expiresAt) :
    Sound { s with log := s.log ++ [.issued token tableName recordId expiresAt] } := by
  refine h.tell (fun _ _ _ _ heq => ?_) nofun nofun
  cases heq
  exact ⟨hvalid, hcreated, hstored⟩

theorem Sound.tellResolved {token tableName : String} {answer : Option String}
    (hcreated : ∀ recordId, answer = some recordId → s.Created token tableName recordId)
    (hanswer : ∀ recordId expiresAt, .issued token tableName recordId expiresAt ∈ s.log →
      s.clock < expiresAt → answer = some recordId) :
    Sound { s with log := s.log ++ [.resolved tableName token s.clock answer] } := by
  refine h.tell nofun (fun _ _ _ recordId heq => ?_) fun _ _ recordId expiresAt _ _ hlog heq => ?_
  · cases heq
    exact hcreated recordId rfl
  · cases heq
    exact hanswer recordId expiresAt hlog

theorem Sound.row {token tableName recordId : String} {expiresAt : ℕ}
    (hlog : .issued token tableName recordId expiresAt ∈ s.log) (hclock : s.clock < expiresAt) :
    ∃ row, s.store.findByToken token = some row ∧ row.tableName = tableName ∧
      row.recordId = recordId ∧ expiresAt ≤ row.expiresAt := by
  obtain ⟨row, hrow, rfl, hexpires⟩ :=
    h.stored token expiresAt (mem_outstanding.2 ⟨hclock, tableName, recordId, hlog⟩)
  obtain ⟨c, hc, htoken, rfl, rfl⟩ := (h.issued _ tableName recordId expiresAt hlog).2
  obtain ⟨c', hc', htoken', htable, hrecord⟩ := h.known row hrow
  have hagree := h.agree c hc c' hc' (htoken.trans htoken'.symm)
  exact ⟨row, findByToken_eq h.nodup hrow, htable.symm.trans hagree.1.symm,
    hrecord.symm.trans hagree.2.symm, hexpires⟩

theorem Sound.lives : s.Lives where
  live token tableName recordId expiresAt hlog hclock := by
    obtain ⟨row, hfind, htable, hrecord, hexpires⟩ := h.row hlog hclock
    refine ⟨(h.issued token tableName recordId expiresAt hlog).1, ?_⟩
    unfold CursorStore.lookUp
    rw [hfind]
    change (if row.tableName = tableName ∧ s.clock < row.expiresAt then _ else _) = _
    rw [if_pos ⟨htable, Nat.lt_of_lt_of_le hclock hexpires⟩, hrecord]
  answered := h.answered
  same token tableName recordId expiresAt tableName' readAt recordId' hissued hresolved := by
    obtain ⟨c, hc, htoken, rfl, rfl⟩ := (h.issued token tableName recordId expiresAt hissued).2
    obtain ⟨c', hc', htoken', rfl, rfl⟩ := h.resolved token tableName' readAt recordId' hresolved
    exact h.agree c' hc' c hc (htoken'.trans htoken.symm)

/-! ### Statements -/

theorem created_of_findByRecord {tableName recordId : String} {row : CursorRecord}
    (hfind : s.store.findByRecord tableName recordId = some row) :
    s.Created row.token tableName recordId := by
  have hkey := List.find?_some hfind
  rw [decide_eq_true_eq] at hkey
  have hknown := h.known row (List.mem_of_find?_eq_some hfind)
  rwa [hkey.1, hkey.2] at hknown

theorem Sound.resolve {tableName token : String} {now : ℕ} (hnow : now ≤ s.clock) :
    Sound (Cursors.exec s (.resolve tableName token now)).1 ∧
      Grows s (Cursors.exec s (.resolve tableName token now)).1 ∧
      ∀ next ∈ (Cursors.exec s (.resolve tableName token now)).2.sections,
        Fits (Cursors.exec s (.resolve tableName token now)).1 next := by
  unfold Cursors.exec
  dsimp only
  cases hfind : s.store.findByToken token with
  | none =>
    refine ⟨h.tellResolved (fun _ h => by cases h) fun recordId expiresAt hlog hclock => ?_,
      .unchanged _ _, forall_mem_nil _⟩
    obtain ⟨row, hrow, -⟩ := h.row hlog hclock
    rw [hfind] at hrow
    cases hrow
  | some record =>
    have hawaited : ∀ recordId expiresAt, .issued token tableName recordId expiresAt ∈ s.log →
        s.clock < expiresAt → record.tableName = tableName ∧ record.recordId = recordId ∧
          now < record.expiresAt := by
      intro recordId expiresAt hlog hclock
      obtain ⟨row, hrow, htable, hrecord, hexpires⟩ := h.row hlog hclock
      rw [hfind] at hrow
      obtain rfl := Option.some.inj hrow
      exact ⟨htable, hrecord, by omega⟩
    dsimp only
    split_ifs with htable hexpired
    · refine ⟨h.tellResolved (fun _ h => by cases h) fun recordId expiresAt hlog hclock => ?_,
        .unchanged _ _, forall_mem_nil _⟩
      exact absurd (hawaited recordId expiresAt hlog hclock).1 htable
    · refine ⟨h.tellResolved (fun _ h => by cases h) fun recordId expiresAt hlog hclock => ?_,
        .unchanged _ _, fun sec hsec => by
          rw [mem_singleton.1 hsec]; trivial⟩
      have := (hawaited recordId expiresAt hlog hclock).2.2
      omega
    · refine ⟨h.tellResolved (fun recordId heq => ?_) fun recordId expiresAt hlog hclock => ?_,
        .unchanged _ _, fun sec hsec => by
          rw [mem_singleton.1 hsec]; trivial⟩
      · obtain rfl := Option.some.inj heq
        obtain ⟨hmem, htoken⟩ := findByToken_some hfind
        have hknown := h.known record hmem
        rwa [htoken, not_not.1 htable] at hknown
      · rw [(hawaited recordId expiresAt hlog hclock).2.1]

/-- Every statement keeps the invariant, if it meets the condition, and leaves the call with what it
relies on. -/
theorem Sound.exec {sec : CursorStep} (hfits : Fits s sec) (hmeets : MeetsStep s sec) :
    Sound (Cursors.exec s sec).1 ∧ Grows s (Cursors.exec s sec).1 ∧
      ∀ next ∈ (Cursors.exec s sec).2.sections, Fits (Cursors.exec s sec).1 next := by
  cases sec with
  | ready next =>
    exact ⟨h, .rfl, fun sec hsec => by rw [mem_singleton.1 hsec]; exact hfits⟩
  | collect r =>
    exact ⟨h.keep (keeps_deleteExpired h.nodup hfits), .unchanged _ _,
      fun sec hsec => by rw [mem_singleton.1 hsec]; trivial⟩
  | find r =>
    unfold Cursors.exec
    dsimp only
    cases hfind : s.store.findByRecord r.tableName r.recordId with
    | none => exact ⟨h, .rfl, fun sec hsec => by rw [mem_singleton.1 hsec]; trivial⟩
    | some existing =>
      refine ⟨h, .rfl, fun sec hsec => ?_⟩
      dsimp only at hsec
      split_ifs at hsec with hvalid
      · rw [mem_singleton.1 hsec]
        exact ⟨hvalid, created_of_findByRecord h hfind⟩
      · exact absurd hsec not_mem_nil
  | extend r token =>
    obtain ⟨hfound, hlater⟩ := hmeets
    have hkept := h.keep (keeps_touch hlater)
    refine ⟨hkept.tellIssued hfits.1 hfits.2 fun hclock => ?_, .unchanged _ _,
      (forall_mem_nil _)⟩
    -- The row is still there, so the update has reached it.
    obtain ⟨row, hrow, rfl⟩ := findByToken_isSome.1 (hfound hclock)
    obtain ⟨row', hrow', htoken, -, -, hexpiry⟩ :=
      mem_touch row.token r.expiresAt hrow
    rw [if_pos rfl] at hexpiry
    exact ⟨row', hrow', htoken, hexpiry.ge⟩
  | create r =>
    unfold Cursors.exec
    dsimp only
    cases hdraws : r.draws with
    | nil => exact ⟨h, .rfl, forall_mem_nil _⟩
    | cons token draws =>
      dsimp only
      unfold CursorStore.insertOrIgnore
      split_ifs with htaken
      · exact ⟨h, .rfl, fun sec hsec => by rw [mem_singleton.1 hsec]; trivial⟩
      · have hfree : ¬(s.store.findByToken token.1).isSome := fun hsome => htaken (.inl hsome)
        have hdrawn := (hmeets token (by rw [hdraws]; rfl)).resolve_left hfree
        have hinserted := h.insert ⟨token.1, r.tableName, r.recordId, r.expiresAt⟩ hfree hdrawn
        have hmem : ∀ rows : List CursorRecord, (⟨token.1, r.tableName, r.recordId, r.expiresAt⟩ :
            CursorRecord) ∈ rows ++ [⟨token.1, r.tableName, r.recordId, r.expiresAt⟩] :=
          fun rows => mem_append_right rows (mem_singleton_self _)
        refine ⟨hinserted.tellIssued token.2 ⟨_, hmem _, rfl, rfl, rfl⟩ fun _ => ?_,
          ⟨Nat.le_refl _, fun _ hrow => mem_append_left _ hrow⟩, forall_mem_nil _⟩
        exact ⟨_, hmem _, rfl, Nat.le_refl _⟩
  | recheckToken r token =>
    refine ⟨h, .rfl, fun sec hsec => ?_⟩
    rw [mem_singleton.1 hsec]
    split_ifs <;> trivial
  | recheckRecord r =>
    refine ⟨h, .rfl, fun sec hsec => ?_⟩
    rw [mem_singleton.1 hsec]
    split_ifs <;> trivial
  | raced r =>
    unfold Cursors.exec
    dsimp only
    cases hfind : s.store.findByRecord r.tableName r.recordId with
    | none => exact ⟨h, .rfl, fun sec hsec => by rw [mem_singleton.1 hsec]; trivial⟩
    | some raced =>
      refine ⟨h, .rfl, fun sec hsec => ?_⟩
      rw [mem_singleton.1 hsec]
      split_ifs with hvalid
      · exact ⟨hvalid, created_of_findByRecord h hfind⟩
      · trivial
  | resolve tableName token now => exact h.resolve hfits
  | drop token =>
    exact ⟨h.keep (keeps_deleteByToken hmeets), .unchanged _ _, forall_mem_nil _⟩
  | prolong token expiry =>
    exact ⟨h.keep (keeps_touch hmeets), .unchanged _ _, forall_mem_nil _⟩

/-! ### Runs -/

theorem Sound.handle (e : CursorEvent) :
    Sound (Cursors.handle s e).1 ∧ Grows s (Cursors.handle s e).1 ∧
      ∀ sec ∈ started (Cursors.handle s e).2, Fits (Cursors.handle s e).1 sec := by
  cases e with
  | tick ms =>
    refine ⟨{ h with stored := fun token expiresAt hout => ?_ },
      ⟨Nat.le_add_right _ _, fun _ h => h⟩, forall_mem_nil _⟩
    obtain ⟨hclock, hlog⟩ := mem_outstanding.1 hout
    refine h.stored token expiresAt (mem_outstanding.2 ⟨?_, hlog⟩)
    exact Nat.lt_of_le_of_lt (Nat.le_add_right s.clock ms) hclock
  | issue isolate tableName recordId draws =>
    exact ⟨h, .rfl, fun sec hsec => by
      rw [mem_singleton.1 hsec]
      exact Nat.le_refl s.clock⟩
  | resolve tableName token =>
    refine ⟨h, .rfl, fun sec hsec => ?_⟩
    unfold Cursors.handle at hsec
    dsimp only at hsec
    split_ifs at hsec
    · rw [mem_singleton.1 hsec]
      exact Nat.le_refl s.clock
    · exact absurd hsec not_mem_nil

omit h

/-- The state is sound, and every call has what it relies on. -/
def Inv (s : CursorState) (pending : List CursorStep) : Prop :=
  Sound s ∧ ∀ sec ∈ pending, Fits s sec

theorem inv_step {s : System} {a : Step} (h : Inv s.state s.pending) (hmeets : Meets s a) :
    Inv (step s a).state (step s a).pending := by
  refine Handlers.step_induction (m := machine) (J := Inv)
    (fun hperm h => ⟨h.1, fun sec hsec => h.2 sec (hperm.symm.subset hsec)⟩) (fun e _ _ => ?_)
    (fun sec ha hsec => ?_) (fun _ => ⟨h.1, forall_mem_nil _⟩) h
  · obtain ⟨hsound, hgrows, hfits⟩ := h.1.handle e
    refine ⟨hsound, fun sec hsec => ?_⟩
    rcases mem_append.1 hsec with hsec | hsec
    · exact hfits sec hsec
    · exact hgrows.fits (h.2 sec hsec)
  · rw [ha] at hmeets
    obtain ⟨hsound, hgrows, hfits⟩ :=
      h.1.exec (h.2 sec (System.mem_pending hsec)) (hmeets sec hsec)
    refine ⟨hsound, fun next hnext => ?_⟩
    rcases mem_append.1 hnext with hnext | hnext
    · exact hfits next hnext
    · refine hgrows.fits (h.2 next ?_)
      rw [System.pending_eq hsec]
      exact mem_cons_of_mem _ hnext

theorem inv_init {store : CursorStore} (hkey : (store.map (·.token)).Nodup) (clock : ℕ) :
    Inv (init store clock).state (init store clock).pending where
  left :=
    { nodup := hkey
      known := fun row hrow => ⟨row, hrow, rfl, rfl, rfl⟩
      agree := fun row hrow row' hrow' htoken => by
        rw [eq_of_token hkey hrow hrow' htoken]
        exact ⟨rfl, rfl⟩
      issued := nofun
      stored := fun _ _ h => absurd h not_mem_nil
      resolved := nofun
      answered := nofun }
  right := forall_mem_nil _

/-- However the statements of the calls of any number of isolates are interleaved: if none loses a
row that is awaited or brings its expiry forward, cursors live until they expire. -/
theorem lives_of_meets (store : CursorStore) (hkey : (store.map (·.token)).Nodup) (clock : ℕ)
    {as : List Step} (h : Runs.Along step Meets (init store clock) as) :
    (Runs.last step (init store clock) as).state.Lives :=
  (Runs.Along.of_invariant (I := fun s => Inv s.state s.pending) (Q := fun _ _ => True) h
    (inv_init hkey clock) (fun _ _ h hmeets => inv_step h hmeets) fun _ _ _ _ => trivial).2.1.lives

/-! ### Two runs -/

instance (s : CursorState) (sec : CursorStep) : Decidable (MeetsStep s sec) := by
  unfold MeetsStep
  split <;> infer_instance

instance (s : System) (a : Step) : Decidable (Meets s a) := by
  unfold Meets
  split <;> infer_instance

def drawn : ResponseToken :=
  ⟨"~edgebase-response-cursor-v1.0123456789abcdefghijklmnopqrstuv", by decide +kernel⟩

def alone (e : CursorEvent) (statements : ℕ) : List Step :=
  .event e :: .proceed :: (List.replicate statements [.resume 0 (), .proceed]).flatten

/-- A cursor is issued, and issued again to another isolate after a day, and resolved. -/
def renewed : List Step :=
  alone (.issue 0 "posts" "p1" [drawn]) 3 ++
    (.event (.tick 86400000) :: alone (.issue 1 "posts" "p1" []) 3 : List Step) ++
    alone (.resolve "posts" drawn.1) 2

theorem renewed_lives : (Runs.last step (init [] 0) renewed).state.log =
      [.issued drawn.1 "posts" "p1" responseCursorTtlMs,
        .issued drawn.1 "posts" "p1" (86400000 + responseCursorTtlMs),
        .resolved "posts" drawn.1 86400000 (some "p1")] ∧
    (Runs.last step (init [] 0) renewed).state.Lives :=
  ⟨by decide +kernel, lives_of_meets [] nodup_nil 0 (by decide +kernel)⟩

/-! ### A row that is lost -/

/-- A cursor is issued a second time just before it expires.  Its row is found, a call for another
record collects it, and the update reaches nothing. -/
def overtaken : List Step :=
  alone (.issue 0 "posts" "p1" [drawn]) 3 ++
    (.event (.tick (responseCursorTtlMs - 1)) :: alone (.issue 0 "posts" "p1" []) 2 : List Step) ++
    (.event (.tick 1) :: .event (.issue 1 "posts" "p2" []) :: .proceed ::
      [.resume 1 (), .proceed, .resume 0 (), .proceed] : List Step) ++
    ([.event (.resolve "posts" drawn.1), .proceed, .resume 1 (), .proceed] : List Step)

theorem overtaken_log : (Runs.last step (init [] 0) overtaken).state.log =
    [.issued drawn.1 "posts" "p1" responseCursorTtlMs,
      .issued drawn.1 "posts" "p1" (2 * responseCursorTtlMs - 1),
      .resolved "posts" drawn.1 responseCursorTtlMs none] := by
  decide +kernel

theorem overtaken_not_lives : ¬(Runs.last step (init [] 0) overtaken).state.Lives := by
  intro h
  have hsublist : [.issued drawn.1 "posts" "p1" (2 * responseCursorTtlMs - 1),
      .resolved "posts" drawn.1 responseCursorTtlMs none].Sublist
      (Runs.last step (init [] 0) overtaken).state.log := by
    rw [overtaken_log]
    exact sublist_cons_self _ _
  exact absurd (h.answered _ _ _ _ _ _ hsublist (by decide)) (fun h => by cases h)

end Cursors

end EdgeBase
