import EdgeBase.Rows

/-!
# Pages bounded by bytes

A list or search request may bound the bytes of its answer.  The handlers then check that the
request pages by a cursor (`prepareBoundedQuery`), and the answer is cut after the last item that
fits and carries a cursor to go on from (`buildBoundedPageResponse`).

* `buildBoundedPageResponse_items` : an answer of status 200 has a prefix of the items, and says so
  when it is not all of them.
-/

namespace EdgeBase

/-- The query string of a list or search request. -/
structure PageRequest where
  options : QueryOptions := {}
  maxResponseBytes : Option ℕ := none
  responseAfter : Option String := none
  responseBefore : Option String := none
  highlightPre : String := "<mark>"
  highlightPost : String := "</mark>"
  deriving DecidableEq

/-- `MIN_MAX_RESPONSE_BYTES`. -/
def minMaxResponseBytes : ℕ := 512

/-- The message of `parseMaxResponseBytes` for a bound that is too small. -/
def minMaxResponseBytesMessage : String :=
  s!"maxResponseBytes must be at least {minMaxResponseBytes} bytes so bounded continuation metadata always fits."

/-- The checks of `prepareBoundedQuery` on a request with a bound. -/
def checkBounded (q : PageRequest) (bound : ℕ) : Except HttpError Unit :=
  let p := q.options.pagination
  if bound < minMaxResponseBytes then .error ⟨400, minMaxResponseBytesMessage⟩
  else if p.offset.isSome ∨ p.page.isSome then
    .error ⟨400, "maxResponseBytes requires keyset pagination; offset and page are not supported."⟩
  else if q.options.fields ≠ [] ∧ "id" ∉ q.options.fields then
    .error ⟨400, "maxResponseBytes projections must include id so the provider can resume by keyset."⟩
  else if (q.responseAfter.isSome ∧ q.responseBefore.isSome) ∨
      (q.responseAfter.isSome ∧ p.after.isSome) ∨ (q.responseBefore.isSome ∧ p.before.isSome) then
    .error ⟨400, "Bounded requests must provide exactly one forward or backward cursor."⟩
  else .ok ()

def resolveCursor (env : Env) (tableName : String) (token given : Option String) :
    Except HttpError (Option String) :=
  match token with
  | none => .ok given
  | some token => (env.resolveCursor tableName token).map some

/-- `prepareBoundedQuery`: the bound, if the request has one, and the options to query with. -/
def prepareBoundedQuery (env : Env) (tableName : String) (q : PageRequest) (search : Bool) :
    Except HttpError (Option ℕ × QueryOptions) :=
  match q.maxResponseBytes with
  | none =>
    if q.responseAfter.isSome ∨ q.responseBefore.isSome then
      .error ⟨400, "responseAfter/responseBefore require maxResponseBytes on every bounded page request."⟩
    else .ok (none, q.options)
  | some bound => do
    checkBounded q bound
    let p := q.options.pagination
    let after ← resolveCursor env tableName q.responseAfter p.after
    let before ← resolveCursor env tableName q.responseBefore p.before
    let direction := if before.isSome then "desc" else "asc"
    let sort := q.options.sort
    if sort ≠ [] ∧ sort ≠ [⟨"id", some direction⟩] then
      .error ⟨400, s!"maxResponseBytes requires sort=id:{direction} for stable keyset continuation."⟩
    else
      .ok (some bound, { q.options with
        pagination := { p with after, before }
        sort := if search && sort.isEmpty then [⟨"id", some direction⟩] else sort })

/-! ### The answer -/

def jsonNat (n : ℕ) : Json := .num n

/-- A value in an answer that may be `null`. -/
def jsonOr {α : Type} (f : α → Json) (o : Option α) : Json := o.elim .null f

def pagePayload (items : List Row) (total : Option ℕ) (perPage : ℕ) (hasMore : Bool)
    (cursor : Option (String × String)) (oversizedItem : Bool) : Row :=
  [("items", .arr (items.map .obj)), ("total", jsonOr jsonNat total), ("hasMore", .bool hasMore),
    ("cursor", jsonOr (fun c => .str c.1) cursor)] ++
  cursor.elim [] (fun c => [("cursorExpiresAt", .str c.2)]) ++
  [("page", .null), ("perPage", jsonNat perPage)] ++
  if oversizedItem then [("oversizedItem", .bool true)] else []

/-- The loop of `serializeJsonWithReturnedBytes`, on the iterations left. -/
def measureBody (env : Env) (payload : Row) : ℕ → ℕ → Except HttpError (Row × ℕ)
  | 0, _ => .error ⟨500, "Could not stabilize the exact bounded JSON response length."⟩
  | n + 1, returnedBytes =>
    let body := payload ++ [("returnedBytes", jsonNat returnedBytes)]
    let measured := env.jsonBytes (.obj body)
    if measured = returnedBytes then .ok (body, returnedBytes)
    else measureBody env payload n measured

/-- `serializeJsonWithReturnedBytes`: the body and its length. -/
def serializeJsonWithReturnedBytes (env : Env) (payload : Row) : Except HttpError (Row × ℕ) :=
  measureBody env (Assoc.restrict (· ≠ "returnedBytes") payload) 8 0

def responseTooSmall (maxResponseBytes minimumBytes : ℕ) : Response :=
  { status := 413
    body := [("code", jsonNat 413), ("slug", .str "max-response-bytes-too-small"),
      ("message", .str "The requested maxResponseBytes cannot fit bounded response metadata."),
      ("details", .obj [("maxResponseBytes", jsonNat maxResponseBytes),
        ("minimumBytes", jsonNat minimumBytes)])] }

/-- `BoundedPageResponseOptions`; an entry is an item with the id to go on from. -/
structure BoundedPage where
  maxResponseBytes : ℕ
  tableName : String
  entries : List (Row × String)
  total : Option ℕ
  perPage : ℕ
  sourceHasMore : Bool
  sourceCursorRecordId : Option String

def BoundedPage.items (p : BoundedPage) : List Row := p.entries.map Prod.fst

/-- The answer of status 200 if the body fits, else the answer that it does not. -/
def fitBody (maxResponseBytes : ℕ) (serialized : Row × ℕ) : Response :=
  if serialized.2 ≤ maxResponseBytes then { body := serialized.1 }
  else responseTooSmall maxResponseBytes serialized.2

/-- The placeholder cursor that the candidate bodies are measured with. -/
def placeholderCursor : String :=
  "~edgebase-response-cursor-v1." ++ String.ofList (List.replicate 32 'A')

/-- The body of the first `count` items, with the placeholder cursor. -/
def BoundedPage.candidate (env : Env) (p : BoundedPage) (count : ℕ) : Except HttpError (Row × ℕ) :=
  serializeJsonWithReturnedBytes env
    (pagePayload (p.items.take count) p.total p.perPage
      (count < p.items.length || p.sourceHasMore) (some (placeholderCursor, env.cursorExpiry)) false)

/-- The selection loop: the last count before the first body that is too long, and its length. -/
def BoundedPage.select (env : Env) (p : BoundedPage) :
    ℕ → ℕ → Option (ℕ × ℕ) → Except HttpError (Option (ℕ × ℕ))
  | 0, _, selected => .ok selected
  | todo + 1, count, selected => do
    let serialized ← p.candidate env count
    if serialized.2 > p.maxResponseBytes then .ok selected
    else p.select env todo (count + 1) (some (count, serialized.2))

/-- The body of the selected items, with the cursor that was issued. -/
def BoundedPage.final (env : Env) (p : BoundedPage) (count : ℕ) (cursor : String × String) :
    Except HttpError (Row × ℕ) :=
  let more := if count = 0 then p.items.length > 1 else count < p.items.length
  serializeJsonWithReturnedBytes env
    (pagePayload (p.items.take count) p.total p.perPage (more || p.sourceHasMore) (some cursor)
      (count == 0))

def issueCursorFor (env : Env) (tableName : String) (id : Option String) :
    Except HttpError (Option (String × String)) :=
  match id with
  | none => .ok none
  | some id => (env.issueCursor tableName id).map some

/-- `buildBoundedPageResponse` of a page without items. -/
def emptyPageResponse (env : Env) (p : BoundedPage) : Except HttpError Response := do
  let cursor ← issueCursorFor env p.tableName p.sourceCursorRecordId
  let serialized ← serializeJsonWithReturnedBytes env
    (pagePayload [] p.total p.perPage p.sourceHasMore cursor false)
  .ok (fitBody p.maxResponseBytes serialized)

def buildBoundedPageResponse (env : Env) (p : BoundedPage) : Except HttpError Response := do
  if p.maxResponseBytes < minMaxResponseBytes then
    .error ⟨400, s!"maxResponseBytes must be a safe integer of at least {minMaxResponseBytes}."⟩
  else if p.entries.any fun e => e.2 = "" then
    .error ⟨500, "Bounded list/search responses require one stable record id per returned item."⟩
  else if p.entries.isEmpty then emptyPageResponse env p
  else
    let selected ← p.select env p.items.length 1 none
    let count := selected.elim 0 Prod.fst
    let nextId := ((p.entries.drop (count - 1)).head?).elim "" Prod.snd
    let recordId := if count = p.items.length then p.sourceCursorRecordId.getD nextId else nextId
    let cursor ← env.issueCursor p.tableName recordId
    let serialized ← p.final env count cursor
    if serialized.2 > p.maxResponseBytes then
      .ok (responseTooSmall p.maxResponseBytes serialized.2)
    else if selected.any fun s => s.2 ≠ serialized.2 then
      .error ⟨500, "Persisted response cursor changed the bounded response length."⟩
    else .ok { body := serialized.1 }

/-! ### What a bounded answer holds -/

namespace Response

def items (r : Response) : Option Json := r.body.lookup "items"

/-- Whether an answer says that it does not hold every item: there is more, or one is too large. -/
def IsCut (r : Response) : Prop :=
  r.body.lookup "hasMore" = some (.bool true) ∨ r.body.lookup "oversizedItem" = some (.bool true)

end Response

theorem lookup_append_of_some {l m : Row} {k : String} {v : Json} (h : l.lookup k = some v) :
    (l ++ m).lookup k = some v := by
  rw [List.lookup_append, h, Option.some_or]

theorem measureBody_ok {env : Env} {payload : Row} {n returnedBytes : ℕ} {serialized : Row × ℕ}
    (h : measureBody env payload n returnedBytes = .ok serialized) :
    ∃ length, serialized.1 = payload ++ [("returnedBytes", length)] := by
  induction n generalizing returnedBytes with
  | zero => simp [measureBody] at h
  | succ n ih =>
    simp only [measureBody] at h
    split at h
    · obtain rfl : _ = serialized := by simpa using h
      exact ⟨_, rfl⟩
    · exact ih h

theorem restrict_pagePayload (items : List Row) (total : Option ℕ) (perPage : ℕ) (hasMore : Bool)
    (cursor : Option (String × String)) (oversized : Bool) :
    Assoc.restrict (· ≠ "returnedBytes")
        (pagePayload items total perPage hasMore cursor oversized) =
      pagePayload items total perPage hasMore cursor oversized := by
  cases cursor <;> cases oversized <;> simp [pagePayload, Assoc.restrict]

theorem serialized_page {env : Env} {items : List Row} {total : Option ℕ} {perPage : ℕ}
    {hasMore : Bool} {cursor : Option (String × String)} {oversized : Bool} {serialized : Row × ℕ}
    (h : serializeJsonWithReturnedBytes env
      (pagePayload items total perPage hasMore cursor oversized) = .ok serialized) :
    serialized.1.lookup "items" = some (.arr (items.map .obj)) ∧
      serialized.1.lookup "hasMore" = some (.bool hasMore) ∧
      (oversized = true → serialized.1.lookup "oversizedItem" = some (.bool true)) := by
  obtain ⟨length, hbody⟩ := measureBody_ok h
  rw [restrict_pagePayload] at hbody
  rw [hbody]
  refine ⟨lookup_append_of_some ?_, lookup_append_of_some ?_, ?_⟩
  · simp [pagePayload]
  · simp [pagePayload, List.lookup_cons]
  · rintro rfl
    refine lookup_append_of_some ?_
    cases cursor <;> simp [pagePayload, List.lookup_cons]

theorem emptyPageResponse_items {env : Env} {p : BoundedPage} {r : Response}
    (h : emptyPageResponse env p = .ok r) (hstatus : r.status = 200) :
    r.items = some (.arr []) := by
  unfold emptyPageResponse at h
  obtain ⟨cursor, -, h⟩ := Except.bind_eq_ok.1 h
  obtain ⟨serialized, hs, h⟩ := Except.bind_eq_ok.1 h
  obtain rfl : fitBody p.maxResponseBytes serialized = r := by simpa using h
  unfold fitBody at hstatus ⊢
  split at hstatus
  · rw [if_pos ‹_›]
    exact (serialized_page hs).1
  · simp [responseTooSmall] at hstatus

/-- A bounded answer of status 200 has a prefix of the items, and says so when that is not all of
them. -/
theorem buildBoundedPageResponse_items {env : Env} {p : BoundedPage} {r : Response}
    (h : buildBoundedPageResponse env p = .ok r) (hstatus : r.status = 200) :
    ∃ k, r.items = some (.arr ((p.items.take k).map .obj)) ∧ (k = p.items.length ∨ r.IsCut) := by
  unfold buildBoundedPageResponse at h
  split_ifs at h with hmin hids hempty
  · have hitems : p.items = [] := by
      rw [BoundedPage.items, List.isEmpty_iff.1 hempty, List.map_nil]
    exact ⟨0, by simpa [hitems] using emptyPageResponse_items h hstatus, .inl (by simp [hitems])⟩
  · obtain ⟨selected, -, h⟩ := Except.bind_eq_ok.1 h
    obtain ⟨cursor, -, h⟩ := Except.bind_eq_ok.1 h
    obtain ⟨serialized, hs, h⟩ := Except.bind_eq_ok.1 h
    split_ifs at h with hlong
    · obtain rfl : responseTooSmall _ _ = r := by simpa using h
      simp [responseTooSmall] at hstatus
    · obtain rfl : { body := serialized.1 } = r := by simpa using h
      obtain ⟨hitems, hmore, hover⟩ := serialized_page hs
      generalize selected.elim 0 Prod.fst = count at hitems hmore hover
      refine ⟨min count p.items.length, ?_, ?_⟩
      · rw [Response.items, hitems, ← List.take_eq_take_min]
      · by_cases h0 : count = 0
        · exact .inr (.inr (hover (by simp [h0])))
        · rcases Nat.lt_or_ge count p.items.length with hlt | hge
          · exact .inr (.inl (by simpa [h0, hlt] using hmore))
          · exact .inl (Nat.min_eq_right hge)

end EdgeBase
