import EdgeBase.Lib.Bits
import Mathlib.Data.List.Basic

/-!
# Base32 of the TOTP secrets

Secrets are shown in Base32.  The encoder and the decoder shift a 32-bit signed buffer that is
never masked: only its last bits count.

* `base32Encode`, `base32Decode` : the two functions of the source.
* `encodeLoop_spec` : the symbols spell the bits of the bytes, followed by less than a symbol.
* `decodeLoop_spec` : the bytes spell the bits of the symbols, but for less than a byte.
* `base32_roundTrip` : decoding an encoded text gives the bytes back.
-/

namespace EdgeBase.Totp

open List

open Bits

def BASE32_CHARS : List Char :=
  ['A', 'B', 'C', 'D', 'E', 'F', 'G', 'H', 'I', 'J', 'K', 'L', 'M', 'N', 'O', 'P', 'Q', 'R', 'S',
    'T', 'U', 'V', 'W', 'X', 'Y', 'Z', '2', '3', '4', '5', '6', '7']

/-- `v & 0x1f`, as a place of the alphabet. -/
def index (v : BitVec 32) : Fin BASE32_CHARS.length :=
  ⟨(v &&& 0x1f#32).toNat, by
    rw [BitVec.toNat_and]
    exact Nat.lt_succ_of_le Nat.and_le_right⟩

/-- The inner loop of the encoder: the bits that are left, and the text. -/
def emit (buffer : BitVec 32) (bits : ℕ) (result : List Char) : ℕ × List Char :=
  if 5 ≤ bits then
    emit buffer (bits - 5) (result ++ [BASE32_CHARS.get (index (buffer.sshiftRight (bits - 5)))])
  else (bits, result)

/-- The loop over the bytes, and the last symbol. -/
def encodeLoop : List (BitVec 8) → BitVec 32 → ℕ → List Char → List Char
  | [], buffer, bits, result =>
    if 0 < bits then result ++ [BASE32_CHARS.get (index (buffer <<< (5 - bits)))] else result
  | byte :: rest, buffer, bits, result =>
    let buffer := buffer <<< 8 ||| byte.setWidth 32
    let (bits, result) := emit buffer (bits + 8) result
    encodeLoop rest buffer bits result

def base32Encode (data : List (BitVec 8)) : List Char := encodeLoop data 0 0 []

def decodeLoop : List Char → BitVec 32 → ℕ → List (BitVec 8) → List (BitVec 8)
  | [], _, _, bytes => bytes
  | char :: rest, buffer, bits, bytes =>
    match BASE32_CHARS.idxOf? char with
    | none => decodeLoop rest buffer bits bytes
    | some val =>
      let buffer := buffer <<< 5 ||| BitVec.ofNat 32 val
      let bits := bits + 5
      if 8 ≤ bits then
        let bits := bits - 8
        decodeLoop rest buffer bits (bytes ++ [(buffer.sshiftRight bits).setWidth 8])
      else decodeLoop rest buffer bits bytes

/-- The decoder keeps the letters from `A` to `Z` and the digits from `2` to `7`. -/
def base32Decode (toUpperCase : List Char → List Char) (encoded : List Char) : List (BitVec 8) :=
  let cleaned := (toUpperCase encoded).filter fun c =>
    ('A' ≤ c ∧ c ≤ 'Z') ∨ ('2' ≤ c ∧ c ≤ '7')
  decodeLoop cleaned 0 0 []

/-! ### The bits of the buffer -/

theorem msb_congr {w w' v : ℕ} {x : BitVec w} {y : BitVec w'}
    (h : ∀ i < v, x.getLsbD i = y.getLsbD i) : msb x.toNat v = msb y.toNat v := by
  rw [msb_eq_iff]
  intro i hi
  rw [BitVec.testBit_toNat, BitVec.testBit_toNat, h i hi]

variable {buffer : BitVec 32} {bits : ℕ}

theorem msb_div (n w : ℕ) : msb (buffer.toNat / 2 ^ n) w = msb (buffer >>> n).toNat w := by
  rw [BitVec.toNat_ushiftRight, Nat.shiftRight_eq_div_pow]

variable (buffer) in
theorem msb_push {w : ℕ} (v : BitVec w) (h : bits + w ≤ 32) :
    msb (buffer <<< w ||| v.setWidth 32).toNat (bits + w) =
      msb buffer.toNat bits ++ msb v.toNat w := by
  rw [msb_add, msb_div]
  congr 1
  · refine msb_congr fun i hi => ?_
    have hlast : v.getLsbD (w + i) = false := BitVec.getLsbD_of_ge _ _ (Nat.le_add_right _ _)
    rw [BitVec.getLsbD_ushiftRight, BitVec.getLsbD_or, BitVec.getLsbD_shiftLeft,
      BitVec.getLsbD_setWidth, hlast, Nat.add_sub_cancel_left]
    simp [show w + i < 32 by omega, show ¬w + i < w by omega]
  · refine msb_congr fun i hi => ?_
    simp [show i < 32 by omega, hi]

theorem msb_sshiftRight {w : ℕ} (h : bits + w ≤ 32) :
    msb (buffer.sshiftRight bits).toNat w = msb (buffer.toNat / 2 ^ bits) w := by
  rw [msb_div]
  refine msb_congr fun i hi => ?_
  rw [BitVec.getLsbD_sshiftRight, BitVec.getLsbD_ushiftRight]
  simp [show bits + i < 32 by omega, show i < 32 by omega]

theorem msb_index (v : BitVec 32) : msb (index v) 5 = msb v.toNat 5 := by
  refine msb_congr (x := v &&& 0x1f#32) fun i hi => ?_
  have hmask : ∀ i < 5, (0x1f#32).getLsbD i = true := by decide
  rw [BitVec.getLsbD_and, hmask i hi, Bool.and_true]

theorem msb_setWidth (v : BitVec 32) : msb (v.setWidth 8).toNat 8 = msb v.toNat 8 := by
  refine msb_congr fun i hi => ?_
  rw [BitVec.getLsbD_setWidth, decide_eq_true hi, Bool.true_and]

theorem msb_last (h : bits ≤ 5) : msb (buffer <<< (5 - bits)).toNat 5 =
    msb buffer.toNat bits ++ List.replicate (5 - bits) false := by
  have hzero : ∀ w, msb 0 w = List.replicate w false := by
    intro w
    induction w with
    | zero => rfl
    | succ w ih => rw [msb, ih, Nat.zero_testBit, replicate_succ]
  have hpush := msb_push buffer 0#(5 - bits) (show bits + (5 - bits) ≤ 32 by omega)
  simpa [hzero, show bits + (5 - bits) = 5 by omega] using hpush

/-! ### Encoding -/

def spell (values : List (Fin BASE32_CHARS.length)) : List Char := values.map BASE32_CHARS.get

variable (buffer) in
theorem emit_spec (result : List Char) (h : bits ≤ 32) : ∃ values bits',
    emit buffer bits result = (bits', result ++ spell values) ∧ bits' < 5 ∧
      msb buffer.toNat bits = ofWords 5 (values.map Fin.val) ++ msb buffer.toNat bits' := by
  fun_induction emit buffer bits result with
  | case1 bits result hbits ih =>
    obtain ⟨values, bits', heq, hlt, hbits'⟩ := ih (by omega)
    refine ⟨index (buffer.sshiftRight (bits - 5)) :: values, bits', ?_, hlt, ?_⟩
    · rw [heq, spell, append_assoc]
      rfl
    · obtain ⟨n, rfl⟩ := Nat.exists_eq_add_of_le hbits
      rw [Nat.add_sub_cancel_left] at hbits' ⊢
      rw [msb_add, map_cons, ofWords_cons, msb_index, append_assoc,
        msb_sshiftRight (by omega), hbits']
  | case2 bits result hbits => exact ⟨[], bits, by simp [spell], by omega, rfl⟩

variable (buffer) in
/-- **The symbols spell the bits of the bytes**, and less than a symbol of zeros. -/
theorem encodeLoop_spec (data : List (BitVec 8)) (result : List Char) (h : bits < 5) :
    ∃ values pad, encodeLoop data buffer bits result = result ++ spell values ∧ pad < 5 ∧
      ofWords 5 (values.map Fin.val) =
        msb buffer.toNat bits ++ ofWords 8 (data.map BitVec.toNat) ++ List.replicate pad false := by
  induction data generalizing buffer bits result with
  | nil =>
    unfold encodeLoop
    split_ifs with hbits
    · refine ⟨[index (buffer <<< (5 - bits))], 5 - bits, rfl, by omega, ?_⟩
      rw [map_singleton, ofWords_cons, msb_index, msb_last h.le]
      simp [ofWords]
    · obtain rfl := Nat.eq_zero_of_not_pos hbits
      exact ⟨[], 0, by simp [spell], by omega, rfl⟩
  | cons byte rest ih =>
    obtain ⟨values, bits', hemit, hlt, hbits⟩ :=
      emit_spec (buffer <<< 8 ||| byte.setWidth 32) result (show bits + 8 ≤ 32 by omega)
    obtain ⟨values', pad, heq, hpad, hvalues⟩ :=
      ih (buffer <<< 8 ||| byte.setWidth 32) (result ++ spell values) hlt
    refine ⟨values ++ values', pad, ?_, hpad, ?_⟩
    · rw [encodeLoop]
      dsimp only
      rw [hemit]
      dsimp only
      rw [heq, append_assoc]
      simp [spell]
    · rw [msb_push buffer byte (by omega)] at hbits
      rw [map_append, ofWords_append, hvalues, map_cons, ofWords_cons,
        ← append_assoc, ← append_assoc, ← hbits]
      simp [append_assoc]

/-! ### Decoding -/

theorem idxOf?_get (i : Fin BASE32_CHARS.length) :
    BASE32_CHARS.idxOf? (BASE32_CHARS.get i) = some i.val := by
  revert i
  decide

variable (buffer) in
/-- **The bytes spell the bits of the symbols**, but for less than a byte. -/
theorem decodeLoop_spec (values : List (Fin BASE32_CHARS.length)) (bytes : List (BitVec 8))
    (h : bits < 8) : ∃ data rest, decodeLoop (spell values) buffer bits bytes = bytes ++ data ∧
      rest.length < 8 ∧ msb buffer.toNat bits ++ ofWords 5 (values.map Fin.val) =
        ofWords 8 (data.map BitVec.toNat) ++ rest := by
  induction values generalizing buffer bits bytes with
  | nil =>
    exact ⟨[], msb buffer.toNat bits, by simp [decodeLoop, spell], by simpa, by simp [ofWords]⟩
  | cons i values ih =>
    have hpush : msb (buffer <<< 5 ||| BitVec.ofNat 32 i).toNat (bits + 5) =
        msb buffer.toNat bits ++ msb i 5 := by
      have hi : i.val < 2 ^ 5 := i.isLt
      have hpush := msb_push buffer (BitVec.ofNat 5 i) (show bits + 5 ≤ 32 by omega)
      have hval : (BitVec.ofNat 5 i.val).setWidth 32 = BitVec.ofNat 32 i := by
        refine BitVec.eq_of_toNat_eq ?_
        rw [BitVec.toNat_setWidth, BitVec.toNat_ofNat, BitVec.toNat_ofNat, Nat.mod_eq_of_lt hi]
      rwa [hval, BitVec.toNat_ofNat, Nat.mod_eq_of_lt hi] at hpush
    rw [spell, map_cons, decodeLoop, idxOf?_get]
    dsimp only
    rw [map_cons, ofWords_cons, ← append_assoc, ← hpush]
    split_ifs with hbits
    · obtain ⟨n, hn⟩ := Nat.exists_eq_add_of_le hbits
      rw [hn, Nat.add_sub_cancel_left]
      generalize buffer <<< 5 ||| BitVec.ofNat 32 i = buffer' at hpush ⊢
      obtain ⟨data, rest, heq, hrest, hbits'⟩ := ih buffer'
        (bytes ++ [(buffer'.sshiftRight n).setWidth 8]) (show n < 8 by omega)
      refine ⟨(buffer'.sshiftRight n).setWidth 8 :: data, rest, ?_, hrest, ?_⟩
      · rw [← spell, heq, append_assoc]
        rfl
      · rw [msb_add, map_cons, ofWords_cons, msb_setWidth, msb_sshiftRight (by omega),
          append_assoc, hbits', append_assoc]
    · exact ih _ bytes (by omega)

/-- **Decoding an encoded text gives the bytes back**, and the text is in the alphabet. -/
theorem base32_roundTrip (toUpperCase : List Char → List Char)
    (hupper : ∀ s : List Char, (∀ c ∈ s, c ∈ BASE32_CHARS) → toUpperCase s = s)
    (data : List (BitVec 8)) : base32Decode toUpperCase (base32Encode data) = data ∧
      ∀ c ∈ base32Encode data, c ∈ BASE32_CHARS := by
  obtain ⟨values, pad, hencode, hpad, hvalues⟩ := encodeLoop_spec 0 data []
    (show 0 < 5 by decide)
  rw [nil_append] at hencode
  have halphabet : ∀ c ∈ spell values, c ∈ BASE32_CHARS := fun c hc => by
    obtain ⟨i, -, rfl⟩ := mem_map.1 hc
    exact get_mem _ _
  have hkept := all_eq_true.1 (show BASE32_CHARS.all (fun c =>
    decide (('A' ≤ c ∧ c ≤ 'Z') ∨ ('2' ≤ c ∧ c ≤ '7'))) = true by decide)
  have hcleaned : base32Decode toUpperCase (spell values) = decodeLoop (spell values) 0 0 [] := by
    rw [base32Decode, hupper _ halphabet,
      filter_eq_self.2 fun c hc => hkept c (halphabet c hc)]
  obtain ⟨data', rest, hdecode, hrest, hbits⟩ := decodeLoop_spec 0 values []
    (show 0 < 8 by decide)
  rw [base32Encode, hencode]
  refine ⟨?_, halphabet⟩
  rw [hcleaned, hdecode, nil_append]
  -- both texts of bits have the same length, up to less than a byte
  have hwords : ofWords 8 (data'.map BitVec.toNat) ++ rest =
      ofWords 8 (data.map BitVec.toNat) ++ List.replicate pad false := hbits.symm.trans hvalues
  have hlength := congrArg List.length hwords
  simp only [length_append, length_ofWords, length_map, length_replicate] at hlength
  have hsame : (data'.map BitVec.toNat).length = (data.map BitVec.toNat).length := by
    rw [length_map, length_map]
    omega
  have hlt (bytes : List (BitVec 8)) : ∀ n ∈ bytes.map BitVec.toNat, n < 2 ^ 8 := fun n hn => by
    obtain ⟨byte, -, rfl⟩ := mem_map.1 hn
    exact byte.isLt
  have hbytes := (append_inj hwords (by rw [length_ofWords, length_ofWords, hsame])).1
  exact map_injective_iff.2 (fun _ _ => BitVec.eq_of_toNat_eq)
    (ofWords_inj hbytes hsame (hlt _) (hlt _))

theorem base32_roundTrip_ascii : base32Encode [0xff#8, 0x80#8] = ['7', '6', 'A', 'A'] ∧
      base32Decode (List.map Char.toUpper) (base32Encode [0xff#8, 0x80#8]) = [0xff#8, 0x80#8] := by
  have hupper := all_eq_true.1
    (show BASE32_CHARS.all (fun c => decide (c.toUpper = c)) = true by decide)
  have hid (s : List Char) (hs : ∀ c ∈ s, c ∈ BASE32_CHARS) : s.map Char.toUpper = s := by
    conv_rhs => rw [← map_id s]
    exact map_congr_left fun c hc => of_decide_eq_true (hupper c (hs c hc))
  exact ⟨by decide +kernel, (base32_roundTrip _ hid _).1⟩

end EdgeBase.Totp
