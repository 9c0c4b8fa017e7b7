import EdgeBase.BodyLength
import Mathlib.Data.Nat.Find

/-!
# How much a bounded page holds

`buildBoundedPageResponse` measures the bodies of the first item, the first two, and so on, with a
placeholder for the cursor, until one is too long.  The cursor that is issued then is as long as the
placeholder, so the answer is as long as it was measured.

* `BoundedPage.body` : the body of the answer, whatever it holds.
* `buildBoundedPageResponse_eq` : this body is the answer, and it is not too long.
-/

namespace EdgeBase

open List BoundedPage Json SelfLength

/-- A cursor and its expiry have the lengths that the placeholders have. -/
def StandardSize (cursor : String × String) : Prop :=
  (quote cursor.1).utf8ByteSize = 63 ∧ (quote cursor.2).utf8ByteSize = 26

namespace BoundedPage

variable (numberText : ℚ → String) (p : BoundedPage)

/-- The payload of the first `count` items. -/
def payload (count : ℕ) (cursor : String × String) : Row :=
  pagePayload (p.items.take count) p.total p.perPage (count < p.items.length || p.sourceHasMore)
    (some cursor) false

/-- The length of its body, with cursors of standard size. -/
def measure (count : ℕ) : ℕ :=
  SelfLength.length (bareLength numberText
    (p.payload count (placeholderCursor, "YYYY-MM-DDTHH:mm:ss.sssZ")))

/-- Whether the body of the first `count` items is short enough. -/
def Fits (count : ℕ) : Prop := p.measure numberText count ≤ p.maxResponseBytes

instance : DecidablePred (p.Fits numberText) := fun count =>
  inferInstanceAs (Decidable (p.measure numberText count ≤ p.maxResponseBytes))

def cut : ℕ := Nat.findGreatest (p.Fits numberText) p.items.length

def recordId : Option String :=
  if p.entries.isEmpty then p.sourceCursorRecordId
  else
    let nextId := ((p.entries.drop (p.cut numberText - 1)).head?).elim "" Prod.snd
    some (if p.cut numberText = p.items.length then p.sourceCursorRecordId.getD nextId else nextId)

def answer (cursor : Option (String × String)) : Row :=
  pagePayload (p.items.take (p.cut numberText)) p.total p.perPage
    (max 1 (p.cut numberText) < p.items.length || p.sourceHasMore) cursor
    (p.cut numberText == 0 && !p.entries.isEmpty)

def body (cursor : Option (String × String)) : Row :=
  withReturnedBytes (p.answer numberText cursor)
    (SelfLength.length (bareLength numberText (p.answer numberText cursor)))

/-- What is asked of a page: a bound, ids to go on from, and a platform that measures its texts.
A number takes at most 25 bytes, and no text has more than 2⁵³ code units. -/
structure Measured (env : Env) : Prop where
  bound : minMaxResponseBytes ≤ p.maxResponseBytes
  ids : ∀ e ∈ p.entries, e.2 ≠ ""
  writes : env.WritesJson numberText
  short : ∀ q, (numberText q).utf8ByteSize ≤ 25
  expiry : (quote env.cursorExpiry).utf8ByteSize = 26
  texts : Json.bytes numberText (.arr (p.items.map .obj)) < 2 ^ 55

end BoundedPage

/-! ### The length of a payload -/

section Length

variable {numberText : ℚ → String}

theorem placeholder_standardSize {expiry : String} (h : (quote expiry).utf8ByteSize = 26) :
    StandardSize (placeholderCursor, expiry) := by
  have hcursor : (quote placeholderCursor).utf8ByteSize = 63 := by decide +kernel
  exact ⟨hcursor, h⟩

theorem bareLength_pagePayload (numberText : ℚ → String) (items : List Row) (total : Option ℕ)
    (perPage : ℕ) (more : Bool) {cursor : Option (String × String)}
    (h : ∀ c ∈ cursor, StandardSize c) (oversized : Bool) :
    bareLength numberText (pagePayload items total perPage more cursor oversized) =
      (cursor.elim 84 fun _ => 188) + Json.bytes numberText (.arr (items.map .obj)) +
        Json.bytes numberText (jsonOr jsonNat total) + (if more then 4 else 5) +
        Json.bytes numberText (jsonNat perPage) + (if oversized then 21 else 0) := by
  have hitems : (quote "items").utf8ByteSize = 7 := by decide +kernel
  have htotal : (quote "total").utf8ByteSize = 7 := by decide +kernel
  have hmore : (quote "hasMore").utf8ByteSize = 9 := by decide +kernel
  have hcursor : (quote "cursor").utf8ByteSize = 8 := by decide +kernel
  have hexpiry : (quote "cursorExpiresAt").utf8ByteSize = 17 := by decide +kernel
  have hpage : (quote "page").utf8ByteSize = 6 := by decide +kernel
  have hperPage : (quote "perPage").utf8ByteSize = 9 := by decide +kernel
  have hoversized : (quote "oversizedItem").utf8ByteSize = 15 := by decide +kernel
  have hbool (b : Bool) : Json.bytes numberText (.bool b) = if b then 4 else 5 := by
    cases b <;> rfl
  have hnull : Json.bytes numberText .null = 4 := rfl
  have hstr (s : String) : Json.bytes numberText (.str s) = (quote s).utf8ByteSize := rfl
  have hlast (b : Bool) :
      ((if b then [("oversizedItem", Json.bool true)] else []).map
        (fieldBytes numberText · + 1)).sum = if b then 21 else 0 := by
    cases b with
    | false => rfl
    | true => simp [fieldBytes, hoversized, hbool]
  have hfields : ((cursor.elim [] fun c => [("cursorExpiresAt", Json.str c.2)]).map
      (fieldBytes numberText · + 1)).sum +
        Json.bytes numberText (jsonOr (fun c => .str c.1) cursor) =
          cursor.elim 4 fun _ => 108 := by
    cases cursor with
    | none => simp [jsonOr, hnull]
    | some c =>
      obtain ⟨hfirst, hsecond⟩ := h c rfl
      simp [jsonOr, fieldBytes, hexpiry, hstr, hfirst, hsecond]
  have hfield (k : String) (v : Json) : fieldBytes numberText (k, v) =
      (quote k).utf8ByteSize + 1 + Json.bytes numberText v := rfl
  have helim : (cursor.elim 84 fun _ => 188) = 80 + cursor.elim 4 fun _ => 108 := by
    cases cursor <;> rfl
  simp only [bareLength, pagePayload, map_append, sum_append, hlast]
  -- the expiry of the cursor, if there is one
  generalize ((cursor.elim [] fun c => [("cursorExpiresAt", Json.str c.2)]).map
    (fieldBytes numberText · + 1)).sum = expiry at hfields ⊢
  simp only [map_cons, map_nil, sum_cons, sum_nil, hfield, hitems, htotal,
    hmore, hcursor, hpage, hperPage, hbool, hnull]
  omega

theorem bytes_arr_nil : Json.bytes numberText (.arr []) = 2 := by
  simp [bytes_arr]

theorem bytes_arr_le (numberText : ℚ → String) {items items' : List Row}
    (h : items.Sublist items') : Json.bytes numberText (.arr (items.map .obj)) ≤
      Json.bytes numberText (.arr (items'.map .obj)) := by
  have hsum := ((h.map Json.obj).map (Json.bytes numberText · + 1)).sum_le_sum
    fun _ _ => Nat.zero_le _
  rw [bytes_arr, bytes_arr]
  omega

theorem bareLength_noItems (hshort : ∀ q, (numberText q).utf8ByteSize ≤ 25) (total : Option ℕ)
    (perPage : ℕ) (more : Bool) {cursor : Option (String × String)}
    (h : ∀ c ∈ cursor, StandardSize c) (oversized : Bool) : SelfLength.length (bareLength numberText
      (pagePayload [] total perPage more cursor oversized)) ≤ minMaxResponseBytes := by
  have htotal : Json.bytes numberText (jsonOr jsonNat total) ≤ 25 := by
    cases total with
    | none => exact (by decide : 4 ≤ 25)
    | some n => exact hshort n
  have hperPage : Json.bytes numberText (jsonNat perPage) ≤ 25 := hshort perPage
  have hcursor : (cursor.elim 84 fun _ => 188) ≤ 188 := by
    cases cursor with
    | none => decide
    | some c => exact Nat.le_refl _
  have hbare := bareLength_pagePayload numberText [] total perPage more h oversized
  rw [map_nil, bytes_arr_nil] at hbare
  have hmore : (if more then 4 else 5) ≤ 5 := by split <;> omega
  have hover : (if oversized then 21 else 0) ≤ 21 := by split <;> omega
  have hlength := SelfLength.length_le (k := 3)
    (b := bareLength numberText (pagePayload [] total perPage more cursor oversized)) (by omega)
  rw [minMaxResponseBytes]
  omega

theorem serialize_pagePayload {env : Env} (h : env.WritesJson numberText) {items : List Row}
    {total : Option ℕ} {perPage : ℕ} {more : Bool} {cursor : Option (String × String)}
    {oversized : Bool} (hsize : bareLength numberText
      (pagePayload items total perPage more cursor oversized) < 10 ^ 20) :
    serializeJsonWithReturnedBytes env (pagePayload items total perPage more cursor oversized) =
      .ok (withReturnedBytes (pagePayload items total perPage more cursor oversized)
          (SelfLength.length (bareLength numberText
            (pagePayload items total perPage more cursor oversized))),
        SelfLength.length (bareLength numberText
          (pagePayload items total perPage more cursor oversized))) := by
  have hrestrict : withoutReturnedBytes (pagePayload items total perPage more cursor oversized) =
      pagePayload items total perPage more cursor oversized := restrict_pagePayload _ _ _ _ _ _
  have hserialize := serializeJsonWithReturnedBytes_eq h (hrestrict.symm ▸ hsize)
  rw [hrestrict] at hserialize
  exact hserialize

end Length

/-! ### The items that have room -/

namespace BoundedPage

variable {numberText : ℚ → String} {p : BoundedPage} {env : Env}

theorem bareLength_payload (numberText : ℚ → String) (p : BoundedPage) (k : ℕ)
    {cursor : String × String} (h : StandardSize cursor) :
    bareLength numberText (p.payload k cursor) =
      188 + Json.bytes numberText (.arr ((p.items.take k).map .obj)) +
        Json.bytes numberText (jsonOr jsonNat p.total) +
        (if k < p.items.length || p.sourceHasMore then 4 else 5) +
        Json.bytes numberText (jsonNat p.perPage) := by
  have hcursor : ∀ c ∈ some cursor, StandardSize c := fun c hc => Option.some.inj hc ▸ h
  rw [payload, bareLength_pagePayload _ _ _ _ _ hcursor]
  rfl

theorem placeholders : StandardSize (placeholderCursor, "YYYY-MM-DDTHH:mm:ss.sssZ") :=
  placeholder_standardSize (by decide +kernel)

theorem length_payload (p : BoundedPage) (k : ℕ) {cursor : String × String}
    (h : StandardSize cursor) :
    SelfLength.length (bareLength numberText (p.payload k cursor)) = p.measure numberText k := by
  rw [measure, bareLength_payload _ p k h, bareLength_payload _ p k placeholders]

theorem measure_mono (p : BoundedPage) {j k : ℕ} (h : j ≤ k) :
    p.measure numberText j ≤ p.measure numberText k := by
  refine length_mono ?_
  have hitems := bytes_arr_le numberText (take_sublist_take_left (l := p.items) h)
  have hmore : (if j < p.items.length || p.sourceHasMore then 4 else 5) ≤
      if k < p.items.length || p.sourceHasMore then 4 else 5 := by
    cases p.sourceHasMore with
    | true => simp
    | false =>
      simp only [Bool.or_false, decide_eq_true_eq]
      split_ifs <;> omega
  rw [bareLength_payload _ p j placeholders, bareLength_payload _ p k placeholders]
  omega

theorem not_fits_of_le {j k : ℕ} (h : ¬p.Fits numberText j) (hle : j ≤ k) : ¬p.Fits numberText k :=
  fun hk => h ((p.measure_mono hle).trans hk)

theorem cut_le (numberText : ℚ → String) (p : BoundedPage) :
    p.cut numberText ≤ p.items.length := Nat.findGreatest_le _

theorem fits_cut (h : p.cut numberText ≠ 0) : p.Fits numberText (p.cut numberText) :=
  Nat.findGreatest_of_ne_zero rfl h

theorem not_fits_of_cut_lt {k : ℕ} (h : p.cut numberText < k) (hk : k ≤ p.items.length) :
    ¬p.Fits numberText k := Nat.findGreatest_is_greatest h hk

theorem le_cut {k : ℕ} (hk : k ≤ p.items.length) (h : k ≠ 0 → p.Fits numberText k) :
    k ≤ p.cut numberText := by
  by_cases hzero : k = 0
  · exact hzero ▸ Nat.zero_le _
  · exact Nat.le_findGreatest hk (h hzero)

variable (h : p.Measured numberText env)
include h

theorem bareLength_payload_lt (k : ℕ) {cursor : String × String}
    (hcursor : StandardSize cursor) : bareLength numberText (p.payload k cursor) < 10 ^ 20 := by
  have htotal : Json.bytes numberText (jsonOr jsonNat p.total) ≤ 25 := by
    cases p.total with
    | none => exact (by decide : 4 ≤ 25)
    | some n => exact h.short n
  have hperPage : Json.bytes numberText (jsonNat p.perPage) ≤ 25 := h.short p.perPage
  have hitems := bytes_arr_le numberText (take_sublist k p.items)
  have htexts := h.texts
  rw [bareLength_payload _ p k hcursor]
  split <;> omega

theorem candidate_eq (k : ℕ) : ∃ body, p.candidate env k = .ok (body, p.measure numberText k) := by
  have hcursor := placeholder_standardSize h.expiry
  have hserialize := serialize_pagePayload h.writes (bareLength_payload_lt h k hcursor)
  rw [← length_payload p k hcursor]
  exact ⟨_, hserialize⟩

/-- What the loop has selected after `k` items. -/
def chosen (numberText : ℚ → String) (p : BoundedPage) (k : ℕ) : Option (ℕ × ℕ) :=
  if k = 0 then none else some (k, p.measure numberText k)

theorem select_eq (todo : ℕ) {count : ℕ} (hcount : count ≠ 0)
    (hlen : count + todo = p.items.length + 1)
    (hfits : ∀ j, j ≠ 0 → j < count → p.Fits numberText j) :
    p.select env todo count (chosen numberText p (count - 1)) =
      .ok (chosen numberText p (p.cut numberText)) := by
  have hge : count - 1 ≤ p.cut numberText :=
    le_cut (by omega) fun hne => hfits _ hne (by omega)
  induction todo generalizing count with
  | zero =>
    have hle := p.cut_le numberText
    have hcut : count - 1 = p.cut numberText := by omega
    rw [hcut]
    rfl
  | succ todo ih =>
    obtain ⟨body, hbody⟩ := candidate_eq h count
    have hstep : p.select env (todo + 1) count (chosen numberText p (count - 1)) =
        if p.measure numberText count > p.maxResponseBytes then
          .ok (chosen numberText p (count - 1))
        else p.select env todo (count + 1) (some (count, p.measure numberText count)) := by
      rw [select, hbody]
      rfl
    rw [hstep]
    by_cases hfit : p.Fits numberText count
    · rw [if_neg (not_lt.2 hfit)]
      have hchosen : some (count, p.measure numberText count) =
          chosen numberText p (count + 1 - 1) := (if_neg hcount).symm
      rw [hchosen]
      have hnext : ∀ j, j ≠ 0 → j < count + 1 → p.Fits numberText j := by
        intro j hj hlt
        by_cases hjc : j = count
        · exact hjc ▸ hfit
        · exact hfits j hj (by omega)
      exact ih (Nat.succ_ne_zero count) (by omega) hnext
        (le_cut (by omega) fun _ => hnext _ hcount (by omega))
    · rw [if_pos (not_le.1 hfit)]
      have hcut : count - 1 = p.cut numberText := by
        refine Nat.le_antisymm hge (Nat.le_sub_one_of_lt (Nat.lt_of_not_le fun hle => ?_))
        exact not_fits_of_le hfit hle (fits_cut (by omega))
      rw [hcut]

omit h

/-! ### The answer -/

theorem issueCursorFor_some {tableName id : String} {cursor : Option (String × String)} :
    issueCursorFor env tableName (some id) = .ok cursor ↔
      ∃ c, env.issueCursor tableName id = .ok c ∧ some c = cursor := by
  rw [issueCursorFor]
  cases env.issueCursor tableName id with
  | error e => exact ⟨nofun, nofun⟩
  | ok c => simp [Except.map]

theorem answer_of_cut_eq_zero (h : p.cut numberText = 0) (cursor : Option (String × String)) :
    p.answer numberText cursor = pagePayload [] p.total p.perPage
      (1 < p.items.length || p.sourceHasMore) cursor !p.entries.isEmpty := by
  rw [answer, h, take_zero]
  rfl

theorem answer_of_cut_ne_zero (h : p.cut numberText ≠ 0) (cursor : String × String) :
    p.answer numberText (some cursor) = p.payload (p.cut numberText) cursor := by
  have hmax : max 1 (p.cut numberText) = p.cut numberText := by omega
  have hnot : (p.cut numberText == 0) = false := beq_eq_false_iff_ne.2 h
  rw [answer, hmax, hnot]
  rfl

theorem length_answer_le (h : p.Measured numberText env) {cursor : Option (String × String)}
    (hissue : issueCursorFor env p.tableName (p.recordId numberText) = .ok cursor)
    (hcursor : ∀ c ∈ cursor, StandardSize c) :
    bareLength numberText (p.answer numberText cursor) < 10 ^ 20 ∧
      SelfLength.length (bareLength numberText (p.answer numberText cursor)) ≤
        p.maxResponseBytes := by
  by_cases hcut : p.cut numberText = 0
  · have hle := bareLength_noItems h.short p.total p.perPage
      (1 < p.items.length || p.sourceHasMore) hcursor !p.entries.isEmpty
    rw [← answer_of_cut_eq_zero hcut] at hle
    have hlt := lt_length (bareLength numberText (p.answer numberText cursor))
    have hmin : minMaxResponseBytes = 512 := rfl
    exact ⟨by omega, hle.trans h.bound⟩
  · have hne : p.entries.isEmpty = false := by
      have hlen := p.cut_le numberText
      rw [items, length_map] at hlen
      rw [isEmpty_eq_false_iff, ← length_pos_iff]
      omega
    rw [recordId, hne] at hissue
    obtain ⟨c, hc, rfl⟩ := issueCursorFor_some.1 hissue
    have hsize := hcursor c rfl
    rw [answer_of_cut_ne_zero hcut, length_payload p _ hsize]
    exact ⟨bareLength_payload_lt h _ hsize, fits_cut hcut⟩

theorem final_eq (h : env.WritesJson numberText) (hne : ¬p.entries.isEmpty = true)
    {cursor : String × String}
    (hsize : bareLength numberText (p.answer numberText (some cursor)) < 10 ^ 20) :
    p.final env (p.cut numberText) cursor = .ok (p.body numberText (some cursor),
      SelfLength.length (bareLength numberText (p.answer numberText (some cursor)))) := by
  have hanswer : p.answer numberText (some cursor) =
      pagePayload (p.items.take (p.cut numberText)) p.total p.perPage
        (decide (if p.cut numberText = 0 then p.items.length > 1
          else p.cut numberText < p.items.length) || p.sourceHasMore) (some cursor)
        (p.cut numberText == 0) := by
    by_cases hcut : p.cut numberText = 0
    · rw [answer_of_cut_eq_zero hcut, hcut, take_zero, Bool.eq_false_of_not_eq_true hne]
      simp
    · rw [answer_of_cut_ne_zero hcut, payload, beq_eq_false_iff_ne.2 hcut]
      simp only [if_neg hcut]
  rw [hanswer] at hsize
  rw [body, hanswer]
  exact serialize_pagePayload h hsize

end BoundedPage

/-- **A bounded page.**  The answer has as many items as there is room for, states its length, and
is not too long. -/
theorem buildBoundedPageResponse_eq {numberText : ℚ → String} {p : BoundedPage} {env : Env}
    (h : p.Measured numberText env) {cursor : Option (String × String)}
    (hissue : issueCursorFor env p.tableName (p.recordId numberText) = .ok cursor)
    (hcursor : ∀ c ∈ cursor, StandardSize c) :
    buildBoundedPageResponse env p = .ok { body := p.body numberText cursor } := by
  obtain ⟨hsize, hle⟩ := length_answer_le h hissue hcursor
  have hbound : ¬p.maxResponseBytes < minMaxResponseBytes := not_lt.2 h.bound
  have hids : ¬(p.entries.any fun e => e.2 = "") = true := by
    rw [any_eq_true]
    rintro ⟨e, he, hempty⟩
    exact h.ids e he (of_decide_eq_true hempty)
  unfold buildBoundedPageResponse
  rw [if_neg hbound, if_neg hids]
  by_cases hentries : p.entries.isEmpty = true
  · have hitems : p.items = [] := by
      rw [BoundedPage.items, List.isEmpty_iff.1 hentries, map_nil]
    have hcut : p.cut numberText = 0 := by
      have hlen := p.cut_le numberText
      rw [hitems] at hlen
      exact Nat.le_zero.1 hlen
    have hanswer : p.answer numberText cursor =
        pagePayload [] p.total p.perPage p.sourceHasMore cursor false := by
      rw [answer_of_cut_eq_zero hcut, hitems, hentries]
      rfl
    rw [BoundedPage.recordId, if_pos hentries] at hissue
    rw [hanswer] at hsize hle
    rw [if_pos hentries, emptyPageResponse, hissue, BoundedPage.body, hanswer]
    simp only [bind, Except.bind, serialize_pagePayload h.writes hsize, fitBody, if_pos hle]
  · rw [BoundedPage.recordId, if_neg hentries] at hissue
    obtain ⟨c, hc, rfl⟩ := issueCursorFor_some.1 hissue
    have hselect : p.select env p.items.length 1 none =
        .ok (BoundedPage.chosen numberText p (p.cut numberText)) :=
      BoundedPage.select_eq h p.items.length Nat.one_ne_zero (Nat.add_comm 1 _)
        fun j hj hlt => absurd hlt (by omega)
    have hcount : (BoundedPage.chosen numberText p (p.cut numberText)).elim 0 Prod.fst =
        p.cut numberText := by
      rw [BoundedPage.chosen]
      split_ifs with hcut
      · exact hcut.symm
      · rfl
    have hsame : (BoundedPage.chosen numberText p (p.cut numberText)).any (fun s => s.2 ≠
        SelfLength.length (bareLength numberText (p.answer numberText (some c)))) = false := by
      rw [BoundedPage.chosen]
      split_ifs with hcut
      · rfl
      · rw [answer_of_cut_ne_zero hcut, length_payload p _ (hcursor c rfl)]
        simp
    simp only [if_neg hentries, bind, Except.bind, hselect, hcount, hc,
      final_eq h.writes hentries hsize]
    rw [if_neg (not_lt.2 hle), hsame, if_neg Bool.false_ne_true]

theorem BoundedPage.bytes_body {numberText : ℚ → String} {p : BoundedPage} {env : Env}
    (h : p.Measured numberText env) {cursor : Option (String × String)}
    (hissue : issueCursorFor env p.tableName (p.recordId numberText) = .ok cursor)
    (hcursor : ∀ c ∈ cursor, StandardSize c) :
    env.jsonBytes (.obj (p.body numberText cursor)) ≤ p.maxResponseBytes ∧
      (p.body numberText cursor).lookup "returnedBytes" =
        some (jsonNat (env.jsonBytes (.obj (p.body numberText cursor)))) := by
  obtain ⟨hsize, hle⟩ := length_answer_le h hissue hcursor
  have hlength := SelfLength.length_le hsize
  have hbytes : env.jsonBytes (.obj (p.body numberText cursor)) =
      SelfLength.length (bareLength numberText (p.answer numberText cursor)) := by
    rw [BoundedPage.body, bytes_withReturnedBytes h.writes _ (by omega), measure_length]
  refine ⟨hbytes ▸ hle, ?_⟩
  have hnone : (p.answer numberText cursor).lookup "returnedBytes" = none := by
    rw [BoundedPage.answer, ← restrict_pagePayload, Assoc.lookup_restrict]
    exact if_neg (by decide)
  rw [hbytes, BoundedPage.body, withReturnedBytes, lookup_append, hnone]
  rfl

theorem BoundedPage.bound_lt {numberText : ℚ → String} {p : BoundedPage} {env : Env}
    (h : p.Measured numberText env) {k : ℕ} (hcut : p.cut numberText < k) (hk : k ≤ p.items.length)
    {cursor : String × String} (hcursor : StandardSize cursor) {length : ℕ}
    (hstates : env.jsonBytes (.obj (withReturnedBytes (p.payload k cursor) length)) = length) :
    p.maxResponseBytes < length := by
  have hlong : p.maxResponseBytes < p.measure numberText k :=
    not_le.1 (not_fits_of_cut_lt hcut hk)
  rw [← length_payload p k hcursor] at hlong
  have hbare := SelfLength.length_le (bareLength_payload_lt h k hcursor)
  have hlt := bareLength_payload_lt h k hcursor
  by_cases hsmall : length < 10 ^ 21
  · rw [bytes_withReturnedBytes h.writes _ hsmall] at hstates
    exact hlong.trans_le (length_least hstates.le)
  · omega

theorem lookup_withReturnedBytes (items : List Row) (total : Option ℕ) (perPage : ℕ) (more : Bool)
    (cursor : Option (String × String)) (oversized : Bool) (length : ℕ) :
    let body := withReturnedBytes (pagePayload items total perPage more cursor oversized) length
    body.lookup "items" = some (.arr (items.map .obj)) ∧
      body.lookup "hasMore" = some (.bool more) ∧
      body.lookup "cursor" = some (jsonOr (fun c => .str c.1) cursor) ∧
      body.lookup "oversizedItem" = if oversized then some (.bool true) else none := by
  cases cursor <;> cases oversized <;>
    simp [withReturnedBytes, pagePayload, jsonOr, lookup_cons]

theorem BoundedPage.lookup_body (numberText : ℚ → String) (p : BoundedPage)
    (cursor : Option (String × String)) :
    (p.body numberText cursor).lookup "items" =
        some (.arr ((p.items.take (p.cut numberText)).map .obj)) ∧
      (p.body numberText cursor).lookup "hasMore" =
        some (.bool (max 1 (p.cut numberText) < p.items.length || p.sourceHasMore)) ∧
      (p.body numberText cursor).lookup "cursor" = some (jsonOr (fun c => .str c.1) cursor) ∧
      (p.body numberText cursor).lookup "oversizedItem" =
        if p.cut numberText == 0 && !p.entries.isEmpty then some (.bool true) else none :=
  lookup_withReturnedBytes _ _ _ _ cursor _ _

end EdgeBase
