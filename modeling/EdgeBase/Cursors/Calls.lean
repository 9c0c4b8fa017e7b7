import EdgeBase.Cursors.Expiry
import EdgeBase.Handler

/-!
# Calls that nobody disturbs

A call of `issueResponseCursorWithExpiry` or `resolveResponseCursor` whose statements are executed
one after the other, and what it returns.

* `Cursors.issued_spec`, `Cursors.resolved_spec` : a token that is issued is resolved to its record
  until it expires.
-/

namespace EdgeBase

open List

namespace Cursors

/-- The statements of a call, at most `n` of them. -/
def runCall : ℕ → CursorState → CursorStep → CursorState
  | 0, s, _ => s
  | n + 1, s, step =>
    match (exec s step).2.sections with
    | [] => (exec s step).1
    | next :: _ => runCall n (exec s step).1 next

def told (s s' : CursorState) : Option CursorReport := (s'.log.drop s.log.length).getLast?

variable (s : CursorState)

/-- After `issueResponseCursorWithExpiry`: at most three attempts of four statements each. -/
def issueAlone (draws : List ResponseToken) (tableName recordId : String) : CursorState :=
  runCall 16 s (.ready (.collect ⟨tableName, recordId, s.clock, draws.take 3⟩))

/-- What `issueResponseCursorWithExpiry` returns. -/
def issued (draws : List ResponseToken) (tableName recordId : String) :
    Except HttpError (String × ℕ) :=
  match told s (issueAlone s draws tableName recordId) with
  | some (.issued token _ _ expiresAt) => .ok (token, expiresAt)
  | _ =>
    if ((s.store.deleteExpired s.clock responseCursorGcLimit).findByRecord tableName
        recordId).isSome then .error ⟨500, "Stored response cursor has an invalid token."⟩
    else .error ⟨503, "Could not allocate a unique bounded response cursor after 3 attempts."⟩

/-- After `resolveResponseCursor`. -/
def resolveAlone (tableName token : String) : CursorState :=
  if isResponseCursor token then runCall 3 s (.ready (.resolve tableName token s.clock)) else s

/-- What `resolveResponseCursor` returns. -/
def resolved (tableName token : String) : Except HttpError String :=
  if isResponseCursor token then
    match told s (resolveAlone s tableName token) with
    | some (.resolved _ _ _ (some recordId)) => .ok recordId
    | _ =>
      if (s.store.findByToken token).any (·.tableName = tableName) then
        .error ⟨400, "Bounded response cursor has expired."⟩
      else .error ⟨400, "Bounded response cursor is unknown for this table."⟩
  else .error ⟨400, "Invalid bounded response cursor."⟩

/-! ### A table with keys -/

/-- The table: tokens are keys, and of the form that is drawn. -/
structure Keyed (store : CursorStore) : Prop where
  nodup : (store.map (·.token)).Nodup
  drawn : ∀ row ∈ store, isResponseCursor row.token = true

variable {s} {store : CursorStore}

theorem Keyed.filter (h : Keyed store) (p : CursorRecord → Bool) : Keyed (store.filter p) where
  nodup := (filter_sublist.map _).nodup h.nodup
  drawn row hrow := h.drawn row (mem_of_mem_filter hrow)

theorem Keyed.touch (h : Keyed store) (token : String) (expiresAt : ℕ) :
    Keyed (store.touch token expiresAt) where
  nodup := by
    rw [tokens_touch]
    exact h.nodup
  drawn row hrow := by
    obtain ⟨row', hrow', rfl⟩ := mem_map.1 hrow
    have hdrawn := h.drawn row' hrow'
    split_ifs <;> exact hdrawn

theorem mem_of_touch {row : CursorRecord} {token : String} {expiresAt : ℕ}
    (h : row ∈ store.touch token expiresAt) : ∃ row' ∈ store, row'.token = row.token := by
  obtain ⟨row', hrow', rfl⟩ := mem_map.1 h
  refine ⟨row', hrow', ?_⟩
  split_ifs <;> rfl

theorem Keyed.insert (h : Keyed store) {record : CursorRecord}
    (hfree : ¬(store.findByToken record.token).isSome)
    (hdrawn : isResponseCursor record.token = true) : Keyed (store ++ [record]) where
  nodup := by
    rw [map_append, map_singleton]
    refine h.nodup.append (nodup_singleton _) fun token htoken hnew => ?_
    obtain ⟨row, hrow, rfl⟩ := mem_map.1 htoken
    exact hfree (findByToken_isSome.2 ⟨row, hrow, mem_singleton.1 hnew⟩)
  drawn row hrow := by
    rcases mem_append.1 hrow with hrow | hrow
    · exact h.drawn row hrow
    · exact mem_singleton.1 hrow ▸ hdrawn

/-! ### Issuing -/

/-- A token has been issued: the table has its row, and the call has told of it. -/
structure Issues (s s' : CursorState) (draws : List ResponseToken)
    (tableName recordId token : String) (expiresAt : ℕ) : Prop where
  keyed : Keyed s'.store
  clock : s'.clock = s.clock
  tokens : ∀ row ∈ s'.store, (∃ row' ∈ s.store, row'.token = row.token) ∨
    ∃ token ∈ draws, token.1 = row.token
  row : ⟨token, tableName, recordId, expiresAt⟩ ∈ s'.store
  told : s'.log = s.log ++ [.issued token tableName recordId expiresAt]

theorem runCall_of_next {n : ℕ} {step next : CursorStep} {s' : CursorState}
    (h : exec s step = (s', .await [next])) : runCall (n + 1) s step = runCall n s' next := by
  rw [runCall, h]
  rfl

theorem runCall_of_done {n : ℕ} {step : CursorStep} {s' : CursorState}
    (h : exec s step = (s', done)) : runCall (n + 1) s step = s' := by
  rw [runCall, h]
  rfl

theorem issues_create (hkeyed : Keyed s.store) (draws : List ResponseToken)
    {tableName recordId : String} {now n : ℕ} (hn : 2 * draws.length ≤ n)
    (hnone : s.store.findByRecord tableName recordId = none)
    (hfresh : ∃ token ∈ draws, ∀ row ∈ s.store, row.token ≠ token.1) :
    ∃ token, Issues s (runCall n s (.create ⟨tableName, recordId, now, draws⟩)) draws tableName
      recordId token (now + responseCursorTtlMs) := by
  induction draws generalizing n with
  | nil =>
    obtain ⟨token, htoken, -⟩ := hfresh
    exact absurd htoken not_mem_nil
  | cons token draws ih =>
    rw [length_cons] at hn
    obtain ⟨n, rfl⟩ : ∃ m, n = m + 2 := ⟨n - 2, by omega⟩
    by_cases htaken : (s.store.findByToken token.1).isSome = true
    · have hcreate : exec s (.create ⟨tableName, recordId, now, token :: draws⟩) =
          (s, .await [.recheckToken ⟨tableName, recordId, now, draws⟩ token.1]) := by
        simp [exec, CursorStore.insertOrIgnore, htaken]
      have hrecheck : exec s (.recheckToken ⟨tableName, recordId, now, draws⟩ token.1) =
          (s, .await [.create ⟨tableName, recordId, now, draws⟩]) := by
        simp [exec, htaken]
      have hlater : ∃ token ∈ draws, ∀ row ∈ s.store, row.token ≠ token.1 := by
        obtain ⟨fresh, hmem, hfresh⟩ := hfresh
        rcases mem_cons.1 hmem with rfl | hmem
        · obtain ⟨row, hrow, heq⟩ := findByToken_isSome.1 htaken
          exact absurd heq (hfresh row hrow)
        · exact ⟨fresh, hmem, hfresh⟩
      rw [runCall_of_next hcreate, runCall_of_next hrecheck]
      obtain ⟨fresh, h⟩ := ih (n := n) (by omega) hlater
      refine ⟨fresh, { h with tokens := fun row hrow => (h.tokens row hrow).imp_right ?_ }⟩
      exact fun ⟨drawn, hmem, heq⟩ => ⟨drawn, mem_cons_of_mem _ hmem, heq⟩
    · have hcreate : exec s (.create ⟨tableName, recordId, now, token :: draws⟩) =
          ({ s with
            store := s.store ++ [⟨token.1, tableName, recordId, now + responseCursorTtlMs⟩]
            created := s.created ++ [⟨token.1, tableName, recordId, now + responseCursorTtlMs⟩]
            log := s.log ++ [.issued token.1 tableName recordId (now + responseCursorTtlMs)] },
          done) := by
        simp [exec, CursorStore.insertOrIgnore, htaken, hnone, CursorIssue.expiresAt]
      rw [runCall_of_done hcreate]
      refine ⟨token.1, hkeyed.insert htaken token.2, rfl, fun row hrow => ?_,
        mem_append_right _ (mem_singleton_self _), rfl⟩
      rcases mem_append.1 hrow with hrow | hrow
      · exact .inl ⟨row, hrow, rfl⟩
      · exact .inr ⟨token, mem_cons_self, by rw [mem_singleton.1 hrow]⟩

/-- A call gives the token of the record, or a new one, unless all tokens that it draws are
taken. -/
theorem issues_issueAlone (hkeyed : Keyed s.store) {draws : List ResponseToken}
    (tableName recordId : String)
    (hfresh : ∃ token ∈ draws.take 3, ∀ row ∈ s.store, row.token ≠ token.1) :
    ∃ token, Issues s (issueAlone s draws tableName recordId) draws tableName recordId token
      (s.clock + responseCursorTtlMs) := by
  set r : CursorIssue := ⟨tableName, recordId, s.clock, draws.take 3⟩ with hr
  set store := s.store.deleteExpired s.clock responseCursorGcLimit with hstore
  have hkeyed' : Keyed store := hkeyed.filter _
  have hready : exec s (.ready (.collect r)) = (s, .await [.collect r]) := rfl
  have hcollect : exec s (.collect r) = ({ s with store }, .await [.find r]) := rfl
  rw [issueAlone, runCall_of_next hready, runCall_of_next hcollect]
  cases hfind : store.findByRecord tableName recordId with
  | none =>
    have hexec : exec { s with store } (.find r) = ({ s with store }, .await [.create r]) := by
      simp only [exec, hr, hfind]
    rw [runCall_of_next hexec]
    have hlength : 2 * (draws.take 3).length ≤ 13 := by
      have := length_take_le 3 draws
      omega
    have hnew : ∃ token ∈ draws.take 3, ∀ row ∈ store, row.token ≠ token.1 := by
      obtain ⟨token, htoken, hnew⟩ := hfresh
      exact ⟨token, htoken, fun row hrow => hnew row (mem_of_mem_filter hrow)⟩
    obtain ⟨token, hissues⟩ :=
      @issues_create { s with store } hkeyed' (draws.take 3) tableName recordId s.clock 13 hlength
        hfind hnew
    refine ⟨token, hissues.keyed, hissues.clock, fun row hrow => ?_, hissues.row, hissues.told⟩
    rcases hissues.tokens row hrow with ⟨row', hrow', heq⟩ | ⟨drawn, hmem, heq⟩
    · exact .inl ⟨row', mem_of_mem_filter hrow', heq⟩
    · exact .inr ⟨drawn, mem_of_mem_take hmem, heq⟩
  | some existing =>
    have hmem : existing ∈ store := List.mem_of_find?_eq_some hfind
    have hnames := List.find?_some hfind
    obtain ⟨htable, hrecord⟩ := of_decide_eq_true hnames
    have hexec : exec { s with store } (.find r) =
        ({ s with store }, .await [.extend r existing.token]) := by
      simp only [exec, hr, hfind, hkeyed'.drawn existing hmem, if_true]
    rw [runCall_of_next hexec, runCall_of_done rfl]
    refine ⟨existing.token, hkeyed'.touch _ _, rfl, fun row hrow => ?_, ?_, rfl⟩
    · obtain ⟨row', hrow', heq⟩ := mem_of_touch hrow
      exact .inl ⟨row', mem_of_mem_filter hrow', heq⟩
    refine mem_map.2 ⟨existing, hmem, ?_⟩
    rw [if_pos rfl, ← htable, ← hrecord]
    rfl

theorem Issues.issued {draws : List ResponseToken} {tableName recordId token : String}
    {expiresAt : ℕ} (h : Issues s (issueAlone s draws tableName recordId) draws tableName recordId
      token expiresAt) : issued s draws tableName recordId = .ok (token, expiresAt) := by
  have htold : Cursors.told s (issueAlone s draws tableName recordId) =
      some (.issued token tableName recordId expiresAt) := by
    rw [Cursors.told, h.told, drop_left]
    rfl
  rw [Cursors.issued, htold]

/-! ### Resolving -/

theorem resolved_spec (hkeyed : Keyed s.store) {row : CursorRecord} (hrow : row ∈ s.store)
    (halive : s.clock < row.expiresAt) : resolved s row.tableName row.token = .ok row.recordId ∧
      Keyed (resolveAlone s row.tableName row.token).store ∧
      (resolveAlone s row.tableName row.token).clock = s.clock ∧
      ∀ row' ∈ (resolveAlone s row.tableName row.token).store,
        ∃ row'' ∈ s.store, row''.token = row'.token := by
  have hdrawn := hkeyed.drawn row hrow
  have hfind := findByToken_eq hkeyed.nodup hrow
  have hready : exec s (.ready (.resolve row.tableName row.token s.clock)) =
      (s, .await [.resolve row.tableName row.token s.clock]) := rfl
  have hresolve : exec s (.resolve row.tableName row.token s.clock) =
      ({ s with log := s.log ++ [.resolved row.tableName row.token s.clock (some row.recordId)] },
        .await [.prolong row.token (s.clock + responseCursorTtlMs)]) := by
    simp [exec, hfind, not_le.2 halive]
  have hcall : resolveAlone s row.tableName row.token =
      { s with
        store := s.store.touch row.token (s.clock + responseCursorTtlMs)
        log := s.log ++ [.resolved row.tableName row.token s.clock (some row.recordId)] } := by
    rw [resolveAlone, if_pos hdrawn, runCall_of_next hready, runCall_of_next hresolve,
      runCall_of_done rfl]
  have htold : told s (resolveAlone s row.tableName row.token) =
      some (.resolved row.tableName row.token s.clock (some row.recordId)) := by
    rw [told, hcall, drop_left]
    rfl
  refine ⟨?_, ?_, ?_, ?_⟩
  · rw [resolved, if_pos hdrawn, htold]
  · rw [hcall]
    exact hkeyed.touch _ _
  · rw [hcall]
  · rw [hcall]
    exact fun row' hrow' => mem_of_touch hrow'

end Cursors

end EdgeBase
