import EdgeBase.Keys.Cidr
import EdgeBase.Lib.Paging

/-!
# Listing the files of a bucket

R2 lists the objects under a prefix in pages of a size of its own choice.  `listStorageObjects`
hands these pages on or, when the client asks for an offset, collects a page from several of them
and gives a cursor of its own, a number behind `offset:`.

* `R2Bucket.collect_eq` : the loop ends with the objects behind the offset.
* `R2Bucket.listFiles_completes` : a client that follows the cursors receives each object once.
-/

namespace EdgeBase.Storage

open List Option

structure R2Objects (ο : Type) where
  objects : List ο
  truncated : Bool
  /-- Where the next page begins, if there is one. -/
  cursor : String

/-- The objects under a prefix, in the order of their keys.  A page begins behind its cursor and
has at most as many objects as are asked for; it is not empty where there may be more. -/
structure R2Bucket (ο : Type) where
  stored : List ο
  list : Option String → ℕ → R2Objects ο
  /-- How many objects stand before a cursor. -/
  place : Option String → ℕ
  start : place none = 0
  isPrefix : ∀ cursor limit, (list cursor limit).objects <+: stored.drop (place cursor)
  length_le : ∀ cursor limit, (list cursor limit).objects.length ≤ limit
  ne_nil : ∀ cursor limit, 0 < limit → (list cursor limit).truncated = true →
    (list cursor limit).objects ≠ []
  next : ∀ cursor limit, (list cursor limit).truncated = true →
    place (some (list cursor limit).cursor) = place cursor + (list cursor limit).objects.length
  last : ∀ cursor limit, (list cursor limit).truncated = false →
    (list cursor limit).objects = stored.drop (place cursor)

structure StoragePage (ο : Type) where
  objects : List ο
  truncated : Bool
  cursor : Option String

def storageOffsetCursorPrefix : String := "offset:"

def offsetCursor (offset : ℕ) : String := storageOffsetCursorPrefix ++ toString offset

def parseStorageListInteger (raw : Option String) (name : String) (fallback : ℕ) :
    Except HttpError ℕ :=
  match raw.filter (· ≠ "") with
  | none => .ok fallback
  | some raw =>
    match (Cidr.parseInt 10 raw.toList).filter (0 ≤ ·) with
    | some n => .ok n.toNat
    | none => .error ⟨400, s!"Invalid {name}: must be a non-negative integer."⟩

structure ListQuery where
  cursor : Option String
  limit : Option String
  offset : Option String

/-- The query of a client that asks for pages of `limit` files from `offset` on. -/
structure ListQuery.Asks (q : ListQuery) (limit offset : ℕ) : Prop where
  limit : parseStorageListInteger q.limit "storage limit" 100 = .ok limit
  offset : parseStorageListInteger q.offset "storage offset" 0 = .ok offset

namespace R2Bucket

variable {ο : Type} (b : R2Bucket ο)

/-- The loop, for at most `fuel` pages: what it has collected, and whether there is more. -/
def collect (limit : ℕ) : ℕ → Option String → ℕ → List ο → Option (List ο × Bool)
  | 0, _, _, _ => none
  | fuel + 1, cursor, remainingOffset, collected =>
    if limit + 1 ≤ collected.length then some (collected, true)
    else
      let listed := b.list cursor
        (min 1000 (max 1 (remainingOffset + (limit + 1 - collected.length))))
      let skips := listed.objects.length ≤ remainingOffset
      let collected :=
        if skips then collected else collected ++ listed.objects.drop remainingOffset
      if listed.truncated then
        collect limit fuel (some listed.cursor)
          (if skips then remainingOffset - listed.objects.length else 0) collected
      else some (collected, limit < collected.length)

def listStorageObjects (fuel limit : ℕ) (cursor : Option String) (offset : ℕ) :
    Except HttpError (Option (StoragePage ο)) :=
  let limit := min (max limit 1) 1000
  let own := cursor.filter (storageOffsetCursorPrefix.toList <+: ·.toList)
  if own = none ∧ offset = 0 then
    let listed := b.list cursor limit
    .ok (some ⟨listed.objects, listed.truncated,
      if listed.truncated then some listed.cursor else none⟩)
  else do
    let baseOffset ← match own with
      | some raw =>
        parseStorageListInteger
          (some (String.ofList (raw.toList.drop storageOffsetCursorPrefix.length)))
          "storage cursor offset" 0
      | none => .ok offset
    pure ((b.collect limit fuel none baseOffset []).map fun (collected, hasMore) =>
      ⟨collected.take limit, hasMore,
        if hasMore then some (offsetCursor (baseOffset + limit)) else none⟩)

def listFiles (fuel : ℕ) (q : ListQuery) : Except HttpError (Option (StoragePage ο)) := do
  let limit ← parseStorageListInteger q.limit "storage limit" 100
  let offset ← parseStorageListInteger q.offset "storage offset" 0
  let listed ← b.listStorageObjects fuel limit (q.cursor.filter (· ≠ "")) offset
  pure (listed.map fun listed =>
    { listed with cursor := if listed.truncated then listed.cursor else none })

/-- What a client sees that repeats a query with another cursor. -/
def fetch (fuel : ℕ) (q : ListQuery) (cursor : Option String) :
    Option (Paging.Page (Option String) ο) :=
  match b.listFiles fuel { q with cursor } with
  | .ok (some page) => some ⟨page.objects, page.cursor.map some⟩
  | _ => none

/-! ### The loop -/

theorem drop_place (cursor : Option String) (limit : ℕ) :
    b.stored.drop (b.place cursor) = (b.list cursor limit).objects ++
      b.stored.drop (b.place cursor + (b.list cursor limit).objects.length) := by
  obtain ⟨rest, hrest⟩ := b.isPrefix cursor limit
  rw [← drop_drop, ← hrest, drop_left]

/-- The page that is made of what the loop collects. -/
def Collects (limit : ℕ) (all : List ο) (found : List ο × Bool) : Prop :=
  found.1.take limit = all.take limit ∧ found.2 = decide (limit < all.length)

theorem collect_eq (limit : ℕ) (fuel : ℕ) (cursor : Option String) (remaining : ℕ)
    (collected : List ο) (hfuel : (b.stored.drop (b.place cursor)).length + 2 ≤ fuel) :
    ∃ found, b.collect limit fuel cursor remaining collected = some found ∧
      Collects limit (collected ++ (b.stored.drop (b.place cursor)).drop remaining) found := by
  induction fuel generalizing cursor remaining collected with
  | zero => omega
  | succ fuel ih =>
    rw [collect]
    split_ifs with hfull
    · have hle : limit ≤ collected.length := by omega
      refine ⟨_, rfl, (take_append_of_le_length hle).symm, ?_⟩
      rw [length_append]
      exact (decide_eq_true (by omega)).symm
    generalize hn : min 1000 (max 1 (remaining + (limit + 1 - collected.length))) = n
    dsimp only
    have hplace := b.drop_place cursor n
    have hlen := congrArg length hplace
    rw [length_append] at hlen
    cases htruncated : (b.list cursor n).truncated with
    | false =>
      have hlast := b.last cursor n htruncated
      simp only [Bool.false_eq_true, if_false]
      refine ⟨_, rfl, ?_⟩
      rw [← hlast]
      split_ifs with hskips
      · rw [drop_eq_nil_of_le hskips, append_nil]
        exact ⟨rfl, rfl⟩
      · exact ⟨rfl, rfl⟩
    | true =>
      have hnext := b.next cursor n htruncated
      have hpos := length_pos_iff.2 (b.ne_nil cursor n (by omega) htruncated)
      rw [if_pos rfl]
      obtain ⟨found, hfound, hcollects⟩ := ih (some (b.list cursor n).cursor)
        (if (b.list cursor n).objects.length ≤ remaining then
          remaining - (b.list cursor n).objects.length else 0)
        (if (b.list cursor n).objects.length ≤ remaining then collected
          else collected ++ (b.list cursor n).objects.drop remaining)
        (by rw [hnext]; omega)
      refine ⟨found, hfound, ?_⟩
      rw [hnext] at hcollects
      rw [hplace, drop_append]
      split_ifs at hcollects with hskips
      · rwa [drop_eq_nil_of_le hskips, nil_append]
      · rw [drop_zero, append_assoc] at hcollects
        rwa [Nat.sub_eq_zero_of_le (by omega), drop_zero]

/-! ### The walk -/

theorem parse_offsetCursor (n : ℕ) :
    parseStorageListInteger (some (String.ofList ((offsetCursor n).toList.drop
      storageOffsetCursorPrefix.length))) "storage cursor offset" 0 = .ok n := by
  have htext : (offsetCursor n).toList.drop storageOffsetCursorPrefix.length =
      (toString n).toList := by
    rw [offsetCursor, String.toList_append, ← String.length_toList, drop_left]
  have hne : toString n ≠ "" := fun h => (Cidr.digitsOf n).1 (congrArg String.toList h)
  have hkeep : (some (toString n)).filter (· ≠ "") = some (toString n) := by
    rw [filter_some, if_pos (decide_eq_true hne)]
  rw [htext, String.ofList_toList, parseStorageListInteger, hkeep]
  dsimp only
  rw [Cidr.parseInt_toString, filter_some, if_pos (decide_eq_true (Int.natCast_nonneg n))]
  rfl

theorem isPrefix_offsetCursor (n : ℕ) :
    storageOffsetCursorPrefix.toList <+: (offsetCursor n).toList := by
  rw [offsetCursor, String.toList_append]
  exact prefix_append _ _

theorem offsetCursor_ne (n : ℕ) : offsetCursor n ≠ "" := by
  intro h
  have hle := (isPrefix_offsetCursor n).length_le
  rw [h] at hle
  exact absurd hle (by decide)

variable {fuel limit offset : ℕ} {q : ListQuery}

def pageSize (limit : ℕ) : ℕ := min (max limit 1) 1000

def pageAt (limit n : ℕ) : StoragePage ο where
  objects := (b.stored.drop n).take (pageSize limit)
  truncated := decide (pageSize limit < (b.stored.drop n).length)
  cursor := if pageSize limit < (b.stored.drop n).length then
    some (offsetCursor (n + pageSize limit)) else none

theorem listStorageObjects_offset (hfuel : b.stored.length + 2 ≤ fuel) {cursor : Option String}
    {n : ℕ} (hn : cursor = some (offsetCursor n) ∨ cursor = none ∧ offset = n ∧ 0 < n) :
    b.listStorageObjects fuel limit cursor offset = .ok (some (b.pageAt limit n)) := by
  obtain ⟨⟨collected, hasMore⟩, hfound, hrows, hmore⟩ :=
    b.collect_eq (pageSize limit) fuel none n [] (by rw [b.start]; exact hfuel)
  rw [b.start, drop_zero, nil_append] at hrows hmore
  dsimp only at hrows hmore
  have hpage : (⟨collected.take (pageSize limit), hasMore,
      if hasMore = true then some (offsetCursor (n + pageSize limit)) else none⟩ : StoragePage ο) =
      b.pageAt limit n := by
    rw [pageAt, hrows, hmore]
    simp only [decide_eq_true_eq]
  rw [pageSize] at hfound
  have hanswer : ∀ found : Except HttpError ℕ, found = .ok n →
      (found >>= fun baseOffset => pure ((b.collect (min (max limit 1) 1000) fuel none baseOffset
        []).map fun (collected, hasMore) => (⟨collected.take (min (max limit 1) 1000), hasMore,
          if hasMore then some (offsetCursor (baseOffset + min (max limit 1) 1000)) else none⟩ :
            StoragePage ο))) = Except.ok (some (b.pageAt limit n)) := by
    rintro _ rfl
    change Except.ok ((b.collect _ fuel none n []).map _) = _
    rw [hfound, map_some]
    exact congrArg (fun page => Except.ok (some page)) hpage
  rcases hn with rfl | ⟨rfl, rfl, hpos⟩
  · have hown : (some (offsetCursor n)).filter (storageOffsetCursorPrefix.toList <+: ·.toList) =
        some (offsetCursor n) := by
      rw [filter_some, if_pos (decide_eq_true (isPrefix_offsetCursor n))]
    rw [listStorageObjects]
    dsimp only
    rw [hown, if_neg (by simp)]
    exact hanswer _ (parse_offsetCursor n)
  · rw [listStorageObjects]
    dsimp only
    rw [filter_none, if_neg (by omega)]
    exact hanswer _ rfl

theorem fetch_of_page (hq : q.Asks limit offset) {cursor : Option String}
    (hcursor : cursor ≠ some "") {page : StoragePage ο}
    (h : b.listStorageObjects fuel limit cursor offset = .ok (some page)) :
    b.fetch fuel q cursor =
      some ⟨page.objects, if page.truncated then page.cursor.map some else none⟩ := by
  have hkeep : cursor.filter (· ≠ "") = cursor := by
    cases cursor with
    | none => rfl
    | some text =>
      have hne : text ≠ "" := fun h => hcursor (congrArg some h)
      rw [filter_some, if_pos (decide_eq_true hne)]
  have hlist : b.listFiles fuel { q with cursor } =
      .ok (some { page with cursor := if page.truncated then page.cursor else none }) := by
    rw [listFiles]
    dsimp only
    rw [hq.limit, hq.offset, hkeep]
    change (b.listStorageObjects fuel limit cursor offset >>= _) = _
    rw [h]
    rfl
  rw [fetch, hlist]
  dsimp only
  split_ifs <;> rfl

theorem fetch_offset (hfuel : b.stored.length + 2 ≤ fuel) (hq : q.Asks limit offset)
    {cursor : Option String} {n : ℕ}
    (hn : cursor = some (offsetCursor n) ∨ cursor = none ∧ offset = n ∧ 0 < n) :
    b.fetch fuel q cursor = some ⟨(b.stored.drop n).take (pageSize limit),
      if pageSize limit < (b.stored.drop n).length then
        some (some (offsetCursor (n + pageSize limit))) else none⟩ := by
  have hcursor : cursor ≠ some "" := by
    rintro rfl
    rcases hn with h | ⟨h, -⟩
    · exact offsetCursor_ne n (some.inj h).symm
    · cases h
  rw [b.fetch_of_page hq hcursor (b.listStorageObjects_offset hfuel hn)]
  by_cases hmore : pageSize limit < (b.stored.drop n).length
  · simp only [pageAt, hmore, decide_true, if_true, map_some]
  · simp only [pageAt, hmore, decide_false, if_false, Bool.false_eq_true]

def Passed (cursor : Option String) : Prop :=
  ∀ text, cursor = some text → text ≠ "" ∧ ¬storageOffsetCursorPrefix.toList <+: text.toList

def Foreign : Prop :=
  ∀ cursor limit, (b.list cursor limit).truncated = true → Passed (b.list cursor limit).cursor

theorem fetch_start (fuel : ℕ) (hq : q.Asks limit 0) {cursor : Option String}
    (hcursor : Passed cursor) :
    b.fetch fuel q cursor = some ⟨(b.list cursor (pageSize limit)).objects,
      if (b.list cursor (pageSize limit)).truncated then
        some (some (b.list cursor (pageSize limit)).cursor) else none⟩ := by
  have hown : cursor.filter (storageOffsetCursorPrefix.toList <+: ·.toList) = none := by
    cases cursor with
    | none => rfl
    | some text => rw [filter_some, if_neg (by simpa using (hcursor text rfl).2)]
  have hlist : b.listStorageObjects fuel limit cursor 0 =
      .ok (some ⟨(b.list cursor (pageSize limit)).objects,
        (b.list cursor (pageSize limit)).truncated,
        if (b.list cursor (pageSize limit)).truncated then
          some (b.list cursor (pageSize limit)).cursor else none⟩) := by
    rw [listStorageObjects]
    dsimp only
    rw [hown, if_pos ⟨rfl, rfl⟩]
    rfl
  rw [b.fetch_of_page hq (fun h => (hcursor "" h).1 rfl) hlist]
  dsimp only
  split_ifs <;> rfl

/-- From a cursor of the server on, the client receives the files behind its offset. -/
theorem completes_offset (hfuel : b.stored.length + 2 ≤ fuel) (hq : q.Asks limit offset)
    {cursor : Option String} {n : ℕ}
    (hn : cursor = some (offsetCursor n) ∨ cursor = none ∧ offset = n ∧ 0 < n) :
    Paging.Completes (b.fetch fuel q) cursor (b.stored.drop n) := by
  have hsize : 0 < pageSize limit := by rw [pageSize]; omega
  -- by induction on the files that are left
  induction hleft : (b.stored.drop n).length using Nat.strong_induction_on generalizing cursor n with
  | _ left ih =>
    have hpage := b.fetch_offset hfuel hq hn
    split_ifs at hpage with hmore
    · have hshorter : (b.stored.drop (n + pageSize limit)).length < left := by
        rw [length_drop] at hleft hmore ⊢
        omega
      have hrest := ih _ hshorter (.inl rfl) rfl
      rw [← drop_drop] at hrest
      rw [← take_append_drop (pageSize limit) (b.stored.drop n)]
      exact Paging.Completes.of_more hpage hrest
    · rw [take_of_length_le (by omega)] at hpage
      exact (Paging.completes_of_stop hpage).2 rfl

/-- So it does from a cursor of R2 on. -/
theorem completes_start (hforeign : b.Foreign) (hq : q.Asks limit 0) {cursor : Option String}
    (hcursor : Passed cursor) :
    Paging.Completes (b.fetch fuel q) cursor (b.stored.drop (b.place cursor)) := by
  have hsize : 0 < pageSize limit := by rw [pageSize]; omega
  induction hleft : (b.stored.drop (b.place cursor)).length using Nat.strong_induction_on
    generalizing cursor with
  | _ left ih =>
    have hpage := b.fetch_start fuel hq hcursor
    cases htruncated : (b.list cursor (pageSize limit)).truncated with
    | true =>
      have hplace := b.drop_place cursor (pageSize limit)
      have hpos := length_pos_iff.2 (b.ne_nil cursor _ hsize htruncated)
      have hlen := congrArg length hplace
      rw [length_append] at hlen
      have hrest := ih _ (by rw [b.next cursor _ htruncated]; omega)
        (hforeign cursor _ htruncated) rfl
      rw [b.next cursor _ htruncated] at hrest
      rw [hplace]
      rw [htruncated, if_pos rfl] at hpage
      exact Paging.Completes.of_more hpage hrest
    | false =>
      rw [b.last cursor _ htruncated, htruncated, if_neg (by decide)] at hpage
      exact (Paging.completes_of_stop hpage).2 rfl

/-- **Every file once.**  A client that asks for a list and goes on with the cursors of the answers
receives the files from its offset on, each once and in the order of their keys. -/
theorem listFiles_completes (hforeign : b.Foreign) (hfuel : b.stored.length + 2 ≤ fuel)
    (hq : q.Asks limit offset) :
    Paging.Completes (b.fetch fuel q) none (b.stored.drop offset) := by
  rcases Nat.eq_zero_or_pos offset with rfl | hpos
  · have hall : Paging.Completes (b.fetch fuel q) none (b.stored.drop (b.place none)) :=
      b.completes_start hforeign hq (by rintro _ ⟨⟩)
    rwa [b.start] at hall
  · exact b.completes_offset hfuel hq (.inr ⟨rfl, rfl, hpos⟩)

end R2Bucket

/-- How far a cursor of `plainBucket` is. -/
def plainPlace (cursor : Option String) : ℕ := (cursor.map (·.length - 1)).getD 0

/-- A bucket whose pages are as long as they may be. -/
def plainBucket (stored : List ℕ) : R2Bucket ℕ where
  stored := stored
  list cursor limit :=
    let rest := stored.drop (plainPlace cursor)
    ⟨rest.take limit, decide (limit < rest.length),
      String.ofList (replicate (plainPlace cursor + (rest.take limit).length + 1) 'x')⟩
  place := plainPlace
  start := rfl
  isPrefix _ _ := take_prefix _ _
  length_le _ _ := length_take_le _ _
  ne_nil _ _ hlimit htruncated := by
    have hlt := of_decide_eq_true htruncated
    refine ne_nil_of_length_pos ?_
    rw [length_take]
    omega
  next _ _ _ := by
    rw [plainPlace, map_some, getD_some, String.length_ofList, length_replicate]
    rfl
  last _ _ htruncated := take_of_length_le (not_lt.1 (of_decide_eq_false htruncated))

theorem plainBucket_foreign (stored : List ℕ) : (plainBucket stored).Foreign := by
  rintro cursor limit - _ ⟨⟩
  constructor
  · intro h
    have hnil := congrArg String.toList h
    rw [plainBucket, String.toList_ofList, replicate_succ] at hnil
    exact cons_ne_nil _ _ hnil
  · rintro ⟨rest, hrest⟩
    rw [plainBucket, String.toList_ofList, replicate_succ] at hrest
    have hhead : (storageOffsetCursorPrefix.toList ++ rest).head? = some 'o' := rfl
    rw [hrest] at hhead
    exact absurd (some.inj hhead) (by decide)

theorem listFiles_completes_four :
    Paging.Completes ((plainBucket [1, 2, 3, 4]).fetch 6 ⟨none, some "2", some "1"⟩) none
      [2, 3, 4] := by
  have hq : ListQuery.Asks ⟨none, some "2", some "1"⟩ 2 1 := ⟨by decide +kernel, by decide +kernel⟩
  exact (plainBucket [1, 2, 3, 4]).listFiles_completes (plainBucket_foreign _) (by decide) hq

end EdgeBase.Storage
