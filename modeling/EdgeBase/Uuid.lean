import Mathlib.Data.Char
import Mathlib.Data.Fintype.Basic
import Mathlib.Data.List.Lex
import Mathlib.Data.List.OfFn
import Mathlib.Tactic.IntervalCases
import Mathlib.Tactic.Positivity

/-!
# Generated ids

Ids are UUIDs of version 7: 48 bits of the clock, then random bits, which count up as long as the
clock stands still or goes backwards.

* `incrementMonotonicTail_spec` : counting up gives later bytes, unless the counter is exhausted.
* `idOf_lt` : later bytes have the later text.
* `generateId_increasing` : the ids of a run increase, as long as the timestamps fit into 48 bits.
-/

namespace EdgeBase.Uuid

open List Option

/-- A `Uint8Array` of 16 bytes. -/
abbrev Bytes := Fin 16 → BitVec 8

def HEX : List Char :=
  ['0', '1', '2', '3', '4', '5', '6', '7', '8', '9', 'a', 'b', 'c', 'd', 'e', 'f']

/-- `HEX[nibble]`. -/
def hexDigit (nibble : BitVec 4) : Char := HEX.get ⟨nibble.toNat, nibble.isLt⟩

def bytesToHex (bytes : Bytes) : List Char :=
  (List.ofFn bytes).flatMap fun byte : BitVec 8 =>
    [hexDigit ((byte >>> 4).setWidth 4), hexDigit (byte.setWidth 4)]

/-- `(timestamp / 2 ** shift) & 0xff`: the conversion to a 32-bit integer cuts off the fraction. -/
def byteOf (timestamp : ℤ) (shift : ℕ) : BitVec 8 := BitVec.ofInt 8 (timestamp.tdiv (2 ^ shift))

def writeTimestamp (bytes : Bytes) (timestamp : ℤ) : Bytes := fun i =>
  if i = 0 then byteOf timestamp 40
  else if i = 1 then byteOf timestamp 32
  else if i = 2 then byteOf timestamp 24
  else if i = 3 then byteOf timestamp 16
  else if i = 4 then byteOf timestamp 8
  else if i = 5 then byteOf timestamp 0
  else bytes i

def mask (i : Fin 16) : BitVec 8 := if i = 6 then 0x0f#8 else if i = 8 then 0x3f#8 else 0xff#8

/-- The bits of a byte that never change: the version and the variant. -/
def fixedBits (i : Fin 16) : BitVec 8 := if i = 6 then 0x70#8 else if i = 8 then 0x80#8 else 0x00#8

/-- `random` is what `crypto.getRandomValues` gives. -/
def createRandomUuidBytes (random : Bytes) (timestamp : ℤ) : Bytes :=
  let bytes := writeTimestamp random timestamp
  let bytes := Function.update bytes 6 ((bytes 6 &&& 0x0f#8) ||| 0x70#8)
  Function.update bytes 8 ((bytes 8 &&& 0x3f#8) ||| 0x80#8)

/-- The loop over the places of the tail, the last one first. -/
def incrementLoop : List (Fin 16) → Bytes → Bool × Bytes
  | [], bytes => (false, bytes)
  | i :: rest, bytes =>
    let value := bytes i &&& mask i
    if value < mask i then (true, Function.update bytes i (fixedBits i ||| (value + 1)))
    else incrementLoop rest (Function.update bytes i (fixedBits i))

def incrementMonotonicTail (bytes : Bytes) : Bool × Bytes :=
  incrementLoop [15, 14, 13, 12, 11, 10, 9, 8, 7, 6] bytes

structure State where
  lastTimestamp : ℤ
  lastBytes : Option Bytes

def State.init : State := ⟨-1, none⟩

def idOf (bytes : Bytes) : List Char :=
  let hex := bytesToHex bytes
  hex.take 8 ++ '-' :: (hex.drop 8).take 4 ++ '-' :: (hex.drop 12).take 4 ++
    '-' :: (hex.drop 16).take 4 ++ '-' :: hex.drop 20

/-- A reading of the clock and the random bytes that are drawn if they are needed. -/
def generateId (now : ℤ) (random : Bytes) (s : State) : List Char × State :=
  let timestamp := if now < s.lastTimestamp then s.lastTimestamp else now
  let (timestamp, bytes) :=
    match s.lastBytes with
    | none => (timestamp, createRandomUuidBytes random timestamp)
    | some lastBytes =>
      if timestamp = s.lastTimestamp then
        match incrementMonotonicTail lastBytes with
        | (true, bytes) => (timestamp, bytes)
        | (false, _) =>
          (s.lastTimestamp + 1, createRandomUuidBytes random (s.lastTimestamp + 1))
      else (timestamp, createRandomUuidBytes random timestamp)
  (idOf bytes, ⟨timestamp, some bytes⟩)

def ids : List (ℤ × Bytes) → State → List (List Char)
  | [], _ => []
  | (now, random) :: calls, s =>
    (generateId now random s).1 :: ids calls (generateId now random s).2

def after (calls : List (ℤ × Bytes)) (s : State) : State :=
  calls.foldl (fun s call => (generateId call.1 call.2 s).2) s

/-! ### The order of the texts -/

/-- Before the other bytes, in the order of the first byte that differs. -/
def Before (b b' : Bytes) : Prop := ∃ j, (∀ i < j, b i = b' i) ∧ b j < b' j

section Order

variable {α β : Type*}

theorem append_lt [LT α] {s s' : List α} (hlength : s.length = s'.length) (h : s < s')
    (t t' : List α) : s ++ t < s' ++ t' := by
  induction s generalizing s' with
  | nil =>
    rw [length_eq_zero_iff.1 hlength.symm] at h
    exact absurd h (not_lt_nil _)
  | cons a s ih =>
    obtain _ | ⟨a', s'⟩ := s'
    · exact nomatch hlength
    · rw [cons_append, cons_append, cons_lt_cons_iff] at *
      exact h.imp_right fun h => ⟨h.1, ih (Nat.succ.inj hlength) h.2⟩

theorem of_append_lt [LinearOrder α] (s : List α) {t t' : List α} (h : s ++ t < s ++ t') :
    t < t' := by
  by_contra hle
  obtain heq | hgt := (not_lt.1 hle).eq_or_lt
  · exact absurd (heq ▸ h) (lt_irrefl _)
  · exact absurd h (append_left_lt hgt).asymm

theorem flatMap_lt [LT α] [LT β] {f : α → List β}
    (hlength : ∀ a a', (f a).length = (f a').length) (hf : ∀ a a', a < a' → f a < f a')
    {s s' : List α} (hs : s.length = s'.length) (h : s < s') : s.flatMap f < s'.flatMap f := by
  induction s generalizing s' with
  | nil =>
    rw [length_eq_zero_iff.1 hs.symm] at h
    exact absurd h (not_lt_nil _)
  | cons a s ih =>
    obtain _ | ⟨a', s'⟩ := s'
    · exact nomatch hs
    · rw [flatMap_cons, flatMap_cons]
      obtain hlt | ⟨rfl, hlt⟩ := cons_lt_cons_iff.1 h
      · exact append_lt (hlength _ _) (hf _ _ hlt) _ _
      · exact append_left_lt (ih (Nat.succ.inj hs) hlt)

/-- A text with a mark behind each of its first parts. -/
def marked (mark : α) : List ℕ → List α → List α
  | [], s => s
  | n :: ns, s => s.take n ++ mark :: marked mark ns (s.drop n)

theorem marked_lt [LinearOrder α] (mark : α) (ns : List ℕ) {s s' : List α}
    (hlength : s.length = s'.length) (h : s < s') : marked mark ns s < marked mark ns s' := by
  induction ns generalizing s s' with
  | nil => exact h
  | cons n ns ih =>
    have htake : (s.take n).length = (s'.take n).length := by
      rw [length_take, length_take, hlength]
    rw [marked, marked]
    obtain hlt | heq | hgt := lt_trichotomy (s.take n) (s'.take n)
    · exact append_lt htake hlt _ _
    · rw [heq]
      refine append_left_lt (cons_lt_cons_iff.2 (.inr ⟨rfl, ih ?_ ?_⟩))
      · rw [length_drop, length_drop, hlength]
      · rw [← take_append_drop n s, ← take_append_drop n s', heq] at h
        exact of_append_lt _ h
    · have hlt := append_lt htake.symm hgt (s'.drop n) (s.drop n)
      rw [take_append_drop, take_append_drop] at hlt
      exact absurd h hlt.asymm

end Order

theorem idOf_eq (b : Bytes) : idOf b = marked '-' [8, 4, 4, 4] (bytesToHex b) := by
  simp [idOf, marked, drop_drop]

/-- **Later bytes have the later text.** -/
theorem idOf_lt {b b' : Bytes} (h : Before b b') : idOf b < idOf b' := by
  have hdigit : ∀ x y : BitVec 8, x < y →
      [hexDigit ((x >>> 4).setWidth 4), hexDigit (x.setWidth 4)] <
        [hexDigit ((y >>> 4).setWidth 4), hexDigit (y.setWidth 4)] := by
    intro x y hxy
    have hnibble : ∀ n m : BitVec 4, n < m → hexDigit n < hexDigit m := by decide +kernel
    have hsplit : (x >>> 4).setWidth 4 < (y >>> 4).setWidth 4 ∨
        (x >>> 4).setWidth 4 = (y >>> 4).setWidth 4 ∧ x.setWidth 4 < y.setWidth 4 := by
      simp only [BitVec.lt_def, ← BitVec.toNat_inj, BitVec.toNat_setWidth,
        BitVec.toNat_ushiftRight, Nat.shiftRight_eq_div_pow] at hxy ⊢
      omega
    rw [cons_lt_cons_iff, cons_lt_cons_iff]
    exact hsplit.imp (hnibble _ _) fun h => ⟨congrArg hexDigit h.1, .inl (hnibble _ _ h.2)⟩
  have hlength (c : Bytes) : (bytesToHex c).length = 32 := rfl
  obtain ⟨j, hsame, hlt⟩ := h
  have hbytes : List.ofFn b < List.ofFn b' := by
    rw [List.lt_iff_exists]
    refine .inr ⟨j, by simp, by simp, fun i hi => ?_, ?_⟩
    · rw [List.getElem_ofFn, List.getElem_ofFn]
      exact hsame _ hi
    · rw [List.getElem_ofFn, List.getElem_ofFn]
      exact hlt
  rw [idOf_eq, idOf_eq]
  refine marked_lt _ _ ((hlength b).trans (hlength b').symm) ?_
  exact flatMap_lt (fun _ _ => rfl) hdigit (by simp) hbytes

/-! ### Counting up -/

/-- Bytes that carry a timestamp, the version and the variant. -/
structure Stamped (b : Bytes) (timestamp : ℤ) : Prop where
  time : ∀ i < 6, b i = byteOf timestamp (8 * (5 - i))
  fixed : ∀ i, 6 ≤ i → b i &&& ~~~mask i = fixedBits i

theorem writeTimestamp_of_lt (b : Bytes) (timestamp : ℤ) {i : Fin 16} (hi : i < 6) :
    writeTimestamp b timestamp i = byteOf timestamp (8 * (5 - i)) := by
  obtain ⟨i, hlt⟩ := i
  have hi : i < 6 := hi
  interval_cases i <;> rfl

theorem stamped_createRandomUuidBytes (random : Bytes) (timestamp : ℤ) :
    Stamped (createRandomUuidBytes random timestamp) timestamp where
  time i hi := by
    have h8 : (6 : Fin 16) < 8 := by decide
    rw [← writeTimestamp_of_lt random timestamp hi, createRandomUuidBytes,
      Function.update_of_ne (hi.trans h8).ne, Function.update_of_ne hi.ne]
  fixed i hi := by
    have hversion : ∀ v : BitVec 8, (v &&& 0x0f#8 ||| 0x70#8) &&& ~~~0x0f#8 = 0x70#8 := by decide
    have hvariant : ∀ v : BitVec 8, (v &&& 0x3f#8 ||| 0x80#8) &&& ~~~0x3f#8 = 0x80#8 := by decide
    by_cases h8 : i = 8
    · subst h8
      exact hvariant _
    · by_cases h6 : i = 6
      · subst h6
        exact hversion _
      · simp [mask, fixedBits, h6, h8]

theorem Stamped.update {b : Bytes} {timestamp : ℤ} (h : Stamped b timestamp) {i : Fin 16}
    (hi : 6 ≤ i) {v : BitVec 8} (hv : v &&& ~~~mask i = fixedBits i) :
    Stamped (Function.update b i v) timestamp where
  time j hj := by rw [Function.update_of_ne (hj.trans_le hi).ne, h.time j hj]
  fixed j hj := by
    by_cases hji : j = i
    · rw [hji, Function.update_self, hv]
    · rw [Function.update_of_ne hji, h.fixed j hj]

theorem byte_succ (i : Fin 16) (v : BitVec 8) (hv : v &&& ~~~mask i = fixedBits i)
    (hlt : v &&& mask i < mask i) : v < fixedBits i ||| ((v &&& mask i) + 1) ∧
      (fixedBits i ||| ((v &&& mask i) + 1)) &&& ~~~mask i = fixedBits i := by
  have hkind : ∀ p ∈ [(0x0f#8, 0x70#8), (0x3f#8, 0x80#8), (0xff#8, 0x00#8)], ∀ v : BitVec 8,
      v &&& ~~~p.1 = p.2 → v &&& p.1 < p.1 → v < p.2 ||| ((v &&& p.1) + 1) ∧
        (p.2 ||| ((v &&& p.1) + 1)) &&& ~~~p.1 = p.2 := by
    intro p hp
    simp only [mem_cons, not_mem_nil, or_false] at hp
    rcases hp with rfl | rfl | rfl <;> decide +kernel
  have hmem : ∀ i, (mask i, fixedBits i) ∈
      [(0x0f#8, 0x70#8), (0x3f#8, 0x80#8), (0xff#8, 0x00#8)] := by decide
  exact hkind _ (hmem i) v hv hlt

theorem fixedBits_and (i : Fin 16) : fixedBits i &&& ~~~mask i = fixedBits i := by
  revert i
  decide

/-- **Counting up gives later bytes with the same stamps**, unless the counter is exhausted. -/
theorem incrementLoop_spec {timestamp : ℤ} {places : List (Fin 16)}
    (hplaces : places.Pairwise (· > ·)) (htail : ∀ i ∈ places, 6 ≤ i) {b b' : Bytes}
    (hb : Stamped b timestamp) (h : incrementLoop places b = (true, b')) :
    Stamped b' timestamp ∧ ∃ j ∈ places, (∀ i < j, b i = b' i) ∧ b j < b' j := by
  induction places generalizing b with
  | nil => exact nomatch h
  | cons i rest ih =>
    have hi := htail i mem_cons_self
    rw [incrementLoop] at h
    split_ifs at h with hvalue
    · obtain ⟨hlt, hfixed⟩ := byte_succ i _ (hb.fixed i hi) hvalue
      obtain rfl := (Prod.mk.inj h).2
      refine ⟨hb.update hi hfixed, i, mem_cons_self, fun j hj => ?_, ?_⟩
      · rw [Function.update_of_ne hj.ne]
      · rwa [Function.update_self]
    · rw [pairwise_cons] at hplaces
      obtain ⟨hstamped, j, hj, hsame, hlt⟩ := ih hplaces.2
        (fun j hj => htail j (mem_cons_of_mem _ hj)) (hb.update hi (fixedBits_and i)) h
      have hji : j < i := hplaces.1 j hj
      rw [Function.update_of_ne hji.ne] at hlt
      refine ⟨hstamped, j, mem_cons_of_mem _ hj, fun k hk => ?_, hlt⟩
      rw [← hsame k hk, Function.update_of_ne (hk.trans hji).ne]

theorem incrementMonotonicTail_spec {b b' : Bytes} {timestamp : ℤ} (hb : Stamped b timestamp)
    (h : incrementMonotonicTail b = (true, b')) : Stamped b' timestamp ∧ Before b b' := by
  obtain ⟨hstamped, j, -, hj⟩ := incrementLoop_spec (by decide) (by decide) hb h
  exact ⟨hstamped, j, hj⟩

/-! ### The timestamp -/

theorem exists_digit_lt {x y : ℤ} (h : x < y) {n : ℕ} (hn : x / 256 ^ n = y / 256 ^ n) :
    ∃ k < n, x / 256 ^ (k + 1) = y / 256 ^ (k + 1) ∧ x / 256 ^ k % 256 < y / 256 ^ k % 256 := by
  induction n with
  | zero => exact absurd (by simpa using hn) h.ne
  | succ n ih =>
    by_cases heq : x / 256 ^ n = y / 256 ^ n
    · obtain ⟨k, hk, hdigit⟩ := ih heq
      exact ⟨k, hk.trans (Nat.lt_succ_self n), hdigit⟩
    · have hlt : x / 256 ^ n < y / 256 ^ n :=
        lt_of_le_of_ne (Int.ediv_le_ediv (by positivity) h.le) heq
      have hquot := hn
      rw [pow_succ, ← Int.ediv_ediv_of_nonneg (by positivity),
        ← Int.ediv_ediv_of_nonneg (by positivity)] at hquot
      exact ⟨n, Nat.lt_succ_self n, hn, by omega⟩

theorem toNat_byteOf {t : ℤ} (h : 0 ≤ t) (k : ℕ) :
    (byteOf t (8 * k)).toNat = (t / 256 ^ k % 256).toNat := by
  rw [byteOf, BitVec.toNat_ofInt, Int.tdiv_eq_ediv_of_nonneg h, pow_mul]
  rfl

/-- **A later timestamp gives later bytes**, as long as both fit into 48 bits. -/
theorem before_of_lt {b b' : Bytes} {t t' : ℤ} (hb : Stamped b t) (hb' : Stamped b' t')
    (h0 : 0 ≤ t) (hlt : t < t') (hmax : t' < 2 ^ 48) : Before b b' := by
  have htop : t / 256 ^ 6 = t' / 256 ^ 6 := by omega
  obtain ⟨k, hk, hsame, hdigit⟩ := exists_digit_lt hlt htop
  have hj : (⟨5 - k, by omega⟩ : Fin 16) < 6 := Fin.lt_def.2 (by simp; omega)
  refine ⟨⟨5 - k, by omega⟩, fun i hi => ?_, ?_⟩
  · have hi' : i.val < 5 - k := hi
    rw [hb.time i (hi.trans hj), hb'.time i (hi.trans hj)]
    refine BitVec.eq_of_toNat_eq ?_
    rw [toNat_byteOf h0, toNat_byteOf (h0.trans hlt.le)]
    obtain ⟨m, hm⟩ := Nat.exists_eq_add_of_le (show k + 1 ≤ 5 - i.val by omega)
    rw [hm, pow_add, ← Int.ediv_ediv_of_nonneg (by positivity),
      ← Int.ediv_ediv_of_nonneg (by positivity), hsame]
  · rw [hb.time _ hj, hb'.time _ hj, BitVec.lt_def, toNat_byteOf h0,
      toNat_byteOf (h0.trans hlt.le)]
    have hplace : 5 - (5 - k) = k := by omega
    dsimp only
    rw [hplace]
    omega

/-! ### Runs -/

/-- The bytes of the last id carry the last timestamp. -/
def Holds (s : State) : Prop := ∀ b ∈ s.lastBytes, Stamped b s.lastTimestamp

/-- **One call**: its id is stamped, and after the last one while the timestamp fits. -/
theorem generateId_spec {s : State} (hs : Holds s) (now : ℤ) (random : Bytes) :
    ∃ b, (generateId now random s).1 = idOf b ∧
      (generateId now random s).2.lastBytes = some b ∧ Holds (generateId now random s).2 ∧
      max now s.lastTimestamp ≤ (generateId now random s).2.lastTimestamp ∧
      ∀ last ∈ s.lastBytes, 0 ≤ s.lastTimestamp →
        (generateId now random s).2.lastTimestamp < 2 ^ 48 → Before last b := by
  have hnow : (if now < s.lastTimestamp then s.lastTimestamp else now) =
      max now s.lastTimestamp := by
    split_ifs with h
    · exact (max_eq_right h.le).symm
    · exact (max_eq_left (not_lt.1 h)).symm
  have hfresh (timestamp : ℤ) := stamped_createRandomUuidBytes random timestamp
  unfold generateId
  dsimp only
  rw [hnow]
  cases hlast : s.lastBytes with
  | none =>
    exact ⟨_, rfl, rfl, fun b hb => mem_some.1 hb ▸ hfresh _, le_rfl,
      fun _ h => nomatch h⟩
  | some last =>
    have hstamped := hs last hlast
    dsimp only
    split_ifs with htime
    · rcases htail : incrementMonotonicTail last with ⟨_ | _, b⟩
      · -- the counter is exhausted: the next millisecond is used
        refine ⟨_, rfl, rfl, fun c hc => mem_some.1 hc ▸ hfresh _, ?_, ?_⟩
        · rw [htime]
          exact (Int.lt_succ _).le
        · intro _ h h0 hmax
          exact mem_some.1 h ▸ before_of_lt hstamped (hfresh _) h0 (Int.lt_succ _) hmax
      · obtain ⟨hb, hbefore⟩ := incrementMonotonicTail_spec hstamped htail
        rw [← htime] at hb
        refine ⟨b, rfl, rfl, fun c hc => mem_some.1 hc ▸ hb, le_rfl, ?_⟩
        intro _ h _ _
        exact mem_some.1 h ▸ hbefore
    · refine ⟨_, rfl, rfl, fun c hc => mem_some.1 hc ▸ hfresh _, le_rfl, ?_⟩
      intro _ h h0 hmax
      have hlt : s.lastTimestamp < max now s.lastTimestamp :=
        lt_of_le_of_ne (le_max_right _ _) (Ne.symm htime)
      exact mem_some.1 h ▸ before_of_lt hstamped (hfresh _) h0 hlt hmax

theorem le_after (calls : List (ℤ × Bytes)) {s : State} (hs : Holds s) :
    s.lastTimestamp ≤ (after calls s).lastTimestamp := by
  induction calls generalizing s with
  | nil => exact le_rfl
  | cons call calls ih =>
    obtain ⟨b, -, -, hs', hle, -⟩ := generateId_spec hs call.1 call.2
    exact ((le_max_right _ _).trans hle).trans (ih hs')

theorem ids_increasing (calls : List (ℤ × Bytes)) {s : State} (hs : Holds s)
    (h0 : s.lastBytes = none → ∀ call ∈ calls.head?, 0 ≤ call.1)
    (hpos : ∀ b ∈ s.lastBytes, 0 ≤ s.lastTimestamp)
    (hmax : (after calls s).lastTimestamp < 2 ^ 48) : (ids calls s).Pairwise (· < ·) ∧
      ∀ last ∈ s.lastBytes, ∀ id ∈ ids calls s, idOf last < id := by
  induction calls generalizing s with
  | nil => exact ⟨.nil, fun _ _ _ h => nomatch h⟩
  | cons call calls ih =>
    obtain ⟨b, hid, hbytes, hs', hle, hbefore⟩ := generateId_spec hs call.1 call.2
    have hmax' := (le_after calls hs').trans_lt hmax
    have hpos' : 0 ≤ (generateId call.1 call.2 s).2.lastTimestamp := by
      cases hlast : s.lastBytes with
      | none => exact ((h0 hlast call rfl).trans (le_max_left _ _)).trans hle
      | some last => exact ((hpos last hlast).trans (le_max_right _ _)).trans hle
    obtain ⟨hpairwise, hlater⟩ := ih hs' (fun h => nomatch hbytes.symm.trans h)
      (fun _ _ => hpos') hmax
    have hall : ∀ id ∈ ids calls (generateId call.1 call.2 s).2, idOf b < id := hlater b hbytes
    refine ⟨pairwise_cons.2 ⟨fun id h => hid ▸ hall id h, hpairwise⟩, ?_⟩
    intro last hlast id h
    have hlt := idOf_lt (hbefore last hlast (hpos last hlast) hmax')
    obtain rfl | h := mem_cons.1 h
    · exact hid ▸ hlt
    · exact hlt.trans (hall id h)

/-- A UUID in lower case, of version 7, with the variant of the RFC. -/
def IsUuidV7 (id : List Char) : Prop :=
  ∃ (a b c d e : List Char) (variant : Char),
    id = a ++ '-' :: b ++ '-' :: '7' :: c ++ '-' :: variant :: d ++ '-' :: e ∧
    a.length = 8 ∧ b.length = 4 ∧ c.length = 3 ∧ d.length = 3 ∧ e.length = 12 ∧
    variant ∈ ['8', '9', 'a', 'b'] ∧ ∀ digit ∈ a ++ b ++ c ++ d ++ e, digit ∈ HEX

theorem isUuidV7_idOf {b : Bytes} {timestamp : ℤ} (h : Stamped b timestamp) :
    IsUuidV7 (idOf b) := by
  have hversion : ∀ v : BitVec 8, v &&& ~~~mask 6 = fixedBits 6 →
      hexDigit ((v >>> 4).setWidth 4) = '7' := by decide +kernel
  have hvariant : ∀ v : BitVec 8, v &&& ~~~mask 8 = fixedBits 8 →
      hexDigit ((v >>> 4).setWidth 4) ∈ ['8', '9', 'a', 'b'] := by decide +kernel
  let hi (i : Fin 16) : Char := hexDigit ((b i >>> 4).setWidth 4)
  let lo (i : Fin 16) : Char := hexDigit ((b i).setWidth 4)
  have hmem (nibble : BitVec 4) : hexDigit nibble ∈ HEX := List.get_mem _ _
  refine ⟨[hi 0, lo 0, hi 1, lo 1, hi 2, lo 2, hi 3, lo 3], [hi 4, lo 4, hi 5, lo 5],
    [lo 6, hi 7, lo 7], [lo 8, hi 9, lo 9],
    [hi 10, lo 10, hi 11, lo 11, hi 12, lo 12, hi 13, lo 13, hi 14, lo 14, hi 15, lo 15], hi 8,
    ?_, rfl, rfl, rfl, rfl, rfl, hvariant _ (h.fixed 8 (by decide)), ?_⟩
  · rw [← hversion _ (h.fixed 6 (by decide))]
    rfl
  · simp [hi, lo, hmem]

theorem isUuidV7_of_mem {s : State} (hs : Holds s) (calls : List (ℤ × Bytes)) :
    ∀ id ∈ ids calls s, IsUuidV7 id := by
  induction calls generalizing s with
  | nil => exact fun _ h => nomatch h
  | cons call calls ih =>
    obtain ⟨b, hid, hbytes, hs', -⟩ := generateId_spec hs call.1 call.2
    refine forall_mem_cons.2 ⟨?_, ih hs'⟩
    rw [hid]
    exact isUuidV7_idOf (hs' b hbytes)

/-- **Each id is a UUID of version 7, and the ids of a run increase** as long as the timestamps
fit into 48 bits. -/
theorem generateId_increasing (calls : List (ℤ × Bytes)) :
    (∀ id ∈ ids calls State.init, IsUuidV7 id) ∧
      ((∀ call ∈ calls.head?, 0 ≤ call.1) → (after calls State.init).lastTimestamp < 2 ^ 48 →
        (ids calls State.init).Pairwise (· < ·) ∧ (ids calls State.init).Nodup) := by
  have hinit : Holds State.init := fun _ h => nomatch h
  refine ⟨isUuidV7_of_mem hinit calls, fun hfirst hmax => ?_⟩
  have hincreasing := (ids_increasing calls hinit (fun _ => hfirst) (fun _ h => nomatch h) hmax).1
  exact ⟨hincreasing, hincreasing.imp fun h => h.ne⟩

theorem generateId_increasing_twice :
    (ids [(5, fun _ => 0xff#8), (3, fun _ => 0)] State.init).Pairwise (· < ·) :=
  ((generateId_increasing [(5, fun _ => 0xff#8), (3, fun _ => 0)]).2 (by simp)
    (by decide +kernel)).1

/-- In the last millisecond of 48 bits, and in the next one. -/
theorem generateId_wraps :
    ¬(ids [(2 ^ 48 - 1, fun _ => 0), (2 ^ 48, fun _ => 0)] State.init).Pairwise (· < ·) := by
  decide +kernel

end EdgeBase.Uuid
