import Mathlib.Tactic.Common

/-!
# Percent encoding

`Percent.decode` reads a text in which some characters are written as `%XX` escapes of their
UTF-8 bytes, as the `decodeURIComponent` of a JavaScript engine does: every other character
stands for itself, and a malformed escape or an ill-formed byte sequence makes the whole text
undecodable (`none`, where the engine throws a `URIError`).

* `Percent.decode_append` : a text without escapes is decoded character by character, so it only
  ever contributes itself.
* `Percent.decode_eq_self_iff` : a text decodes to itself if and only if it has no `%`.

`Percent.encode` writes a text so, as `encodeURIComponent` does.

* `Percent.encode_injective`, `Percent.space_notMem_encode` : what is written tells the text, and
  has no blank.
-/

namespace Percent

open List Option

def hexVal (c : Char) : Option ℕ :=
  if '0' ≤ c ∧ c ≤ '9' then some (c.toNat - 48)
  else if 'A' ≤ c ∧ c ≤ 'F' then some (c.toNat - 55)
  else if 'a' ≤ c ∧ c ≤ 'f' then some (c.toNat - 87)
  else none

/-- The byte of the escape `%XX` at the head of a text, with the text behind it. -/
def escape : List Char → Option (ℕ × List Char)
  | '%' :: h :: l :: rest => do
    let hi ← hexVal h
    let lo ← hexVal l
    some (hi * 16 + lo, rest)
  | _ => none

/-- `n` escaped UTF-8 continuation bytes at the head of a text, shifted into `acc`. -/
def continuation : ℕ → ℕ → List Char → Option (ℕ × List Char)
  | 0, acc, cs => some (acc, cs)
  | n + 1, acc, cs =>
    match escape cs with
    | some (b, rest) =>
      if 0x80 ≤ b ∧ b < 0xC0 then continuation n (acc * 64 + (b - 0x80)) rest else none
    | none => none

/-- What the first byte of a UTF-8 sequence says: the number of bytes that follow, its own bits,
and the least code point that needs a sequence of that length. -/
def lead (b : ℕ) : Option (ℕ × ℕ × ℕ) :=
  if b < 0x80 then some (0, b, 0)
  else if 0xC0 ≤ b ∧ b < 0xE0 then some (1, b - 0xC0, 0x80)
  else if 0xE0 ≤ b ∧ b < 0xF0 then some (2, b - 0xE0, 0x800)
  else if 0xF0 ≤ b ∧ b < 0xF8 then some (3, b - 0xF0, 0x10000)
  else none

/-- The escaped character at the head of a text, with the text behind it. -/
def escapedChar (cs : List Char) : Option (Char × List Char) := do
  let (b, rest) ← escape cs
  let (n, bits, least) ← lead b
  let (cp, rest') ← continuation n bits rest
  if least ≤ cp ∧ cp.isValidChar then some (Char.ofNat cp, rest') else none

/-- The decoder, with a bound on the number of characters it reads. -/
def decodeAux : ℕ → List Char → Option (List Char)
  | _, [] => some []
  | 0, _ :: _ => none
  | fuel + 1, c :: cs =>
    if c = '%' then
      match escapedChar (c :: cs) with
      | some (d, rest) => (decodeAux fuel rest).map (d :: ·)
      | none => none
    else (decodeAux fuel cs).map (c :: ·)

/-- The decoded text, if every escape in it is well formed. -/
def decode (cs : List Char) : Option (List Char) := decodeAux cs.length cs

theorem decode_append {l : List Char} (hl : '%' ∉ l) (rest : List Char) :
    decode (l ++ rest) = (decode rest).map (l ++ ·) := by
  induction l with
  | nil => simp
  | cons c l ih =>
    have hc : c ≠ '%' := fun h => hl (by simp [h])
    have hl' : '%' ∉ l := fun h => hl (mem_cons_of_mem _ h)
    have hstep : decode (c :: (l ++ rest)) = (decode (l ++ rest)).map (c :: ·) := by
      simp [decode, decodeAux, hc]
    rw [cons_append, hstep, ih hl', Option.map_map]
    rfl

/-- A text without `%` decodes to itself. -/
theorem decode_self {l : List Char} (hl : '%' ∉ l) : decode l = some l := by
  have h := decode_append hl []
  rw [append_nil] at h
  rw [h]
  simp [decode, decodeAux]

theorem length_of_escape {cs rest : List Char} {b : ℕ} (h : escape cs = some (b, rest)) :
    rest.length + 3 = cs.length := by
  unfold escape at h
  split at h
  · obtain ⟨hi, -, h⟩ := bind_eq_some_iff.1 h
    obtain ⟨lo, -, h⟩ := bind_eq_some_iff.1 h
    cases h
    rfl
  · cases h

theorem length_of_continuation {n acc cp : ℕ} {cs rest : List Char}
    (h : continuation n acc cs = some (cp, rest)) : rest.length ≤ cs.length := by
  induction n generalizing acc cs with
  | zero =>
    cases h
    exact Nat.le_refl _
  | succ n ih =>
    rw [continuation] at h
    split at h
    · rename_i b tail hescape
      have hlength := length_of_escape hescape
      split_ifs at h
      have hrest := ih h
      omega
    · cases h

theorem length_of_escapedChar {cs rest : List Char} {d : Char}
    (h : escapedChar cs = some (d, rest)) : rest.length + 3 ≤ cs.length := by
  obtain ⟨⟨b, tail⟩, hescape, h⟩ := bind_eq_some_iff.1 h
  obtain ⟨⟨n, bits, least⟩, -, h⟩ := bind_eq_some_iff.1 h
  obtain ⟨⟨cp, rest'⟩, hcont, h⟩ := bind_eq_some_iff.1 h
  have hlength := length_of_escape hescape
  have hle := length_of_continuation hcont
  dsimp only at h hcont hle
  split_ifs at h
  cases h
  omega

theorem length_of_decodeAux {fuel : ℕ} {cs out : List Char} (h : decodeAux fuel cs = some out) :
    out.length ≤ cs.length ∧ ('%' ∈ cs → out.length < cs.length) := by
  induction fuel generalizing cs out with
  | zero =>
    cases cs with
    | nil => cases h; simp
    | cons c cs => cases h
  | succ fuel ih =>
    cases cs with
    | nil => cases h; simp
    | cons c cs =>
      rw [decodeAux] at h
      split_ifs at h with hc
      · cases hchar : escapedChar (c :: cs) with
        | none => rw [hchar] at h; cases h
        | some found =>
          obtain ⟨d, rest⟩ := found
          rw [hchar] at h
          obtain ⟨tail, htail, rfl⟩ := map_eq_some_iff.1 h
          have hlength := length_of_escapedChar hchar
          have hle := (ih htail).1
          simp only [length_cons] at hlength ⊢
          omega
      · obtain ⟨tail, htail, rfl⟩ := map_eq_some_iff.1 h
        obtain ⟨hle, hlt⟩ := ih htail
        refine ⟨Nat.succ_le_succ hle, fun hmem => ?_⟩
        rcases mem_cons.1 hmem with hmem | hmem
        · exact absurd hmem.symm hc
        · exact Nat.succ_lt_succ (hlt hmem)

/-- Only a text without `%` decodes to itself. -/
theorem decode_eq_self_iff {l : List Char} : decode l = some l ↔ '%' ∉ l := by
  constructor
  · intro h hmem
    exact absurd ((length_of_decodeAux h).2 hmem) (by simp)
  · exact decode_self

theorem decode_eq_nil_iff {l : List Char} : decode l = some [] ↔ l = [] := by
  constructor
  · intro h
    cases l with
    | nil => rfl
    | cons c l =>
      rw [decode, length_cons, decodeAux] at h
      split_ifs at h
      · cases hchar : escapedChar (c :: l) with
        | none => rw [hchar] at h; cases h
        | some found =>
          rw [hchar] at h
          obtain ⟨tail, -, htail⟩ := map_eq_some_iff.1 h
          cases htail
      · obtain ⟨tail, -, htail⟩ := map_eq_some_iff.1 h
        cases htail
  · rintro rfl
    rfl

example : decode "caf%C3%A9%2Fx".toList = some "café/x".toList := by decide

example : decode "50%".toList = none := by decide

/-! ### Encoding -/

def unreserved (c : Char) : Bool :=
  c.isAlphanum || ['-', '_', '.', '!', '~', '*', '\'', '(', ')'].contains c

def hexDigit (n : ℕ) : Char := if n < 10 then Char.ofNat (48 + n) else Char.ofNat (55 + n)

def escapeByte (b : UInt8) : List Char :=
  if unreserved (Char.ofNat b.toNat) then [Char.ofNat b.toNat]
  else ['%', hexDigit (b.toNat / 16), hexDigit (b.toNat % 16)]

/-- The text with its bytes written so. -/
def encode (text : String) : List Char := text.toByteArray.data.toList.flatMap escapeByte

theorem hexDigit_injective : ∀ m < 16, ∀ n < 16, hexDigit m = hexDigit n → m = n := by decide

theorem toNat_ofNat_byte {n : ℕ} (hn : n < 256) : (Char.ofNat n).toNat = n := by
  have hvalid : n.isValidChar := .inl (by omega)
  rw [Char.ofNat, dif_pos hvalid]
  rfl

theorem ofNat_byte_injective {a b : UInt8} (h : Char.ofNat a.toNat = Char.ofNat b.toNat) :
    a = b := by
  have hnat := congrArg Char.toNat h
  rw [toNat_ofNat_byte a.toNat_lt, toNat_ofNat_byte b.toNat_lt] at hnat
  exact UInt8.toNat_inj.1 hnat

theorem escapeByte_append {a b : UInt8} {l m : List Char}
    (h : escapeByte a ++ l = escapeByte b ++ m) : a = b ∧ l = m := by
  unfold escapeByte at h
  split_ifs at h with ha hb hb
  · obtain ⟨hchar, hrest⟩ := List.cons.inj h
    exact ⟨ofNat_byte_injective hchar, hrest⟩
  · obtain ⟨hchar, -⟩ := List.cons.inj h
    rw [hchar] at ha
    exact absurd ha (by decide)
  · obtain ⟨hchar, -⟩ := List.cons.inj h
    rw [← hchar] at hb
    exact absurd hb (by decide)
  · obtain ⟨-, h⟩ := List.cons.inj h
    obtain ⟨hhigh, h⟩ := List.cons.inj h
    obtain ⟨hlow, h⟩ := List.cons.inj h
    have ha' := a.toNat_lt
    have hb' := b.toNat_lt
    have hdiv := hexDigit_injective _ (by omega) _ (by omega) hhigh
    have hmod := hexDigit_injective _ (by omega) _ (by omega) hlow
    exact ⟨UInt8.toNat_inj.1 (by omega), h⟩

theorem escapeBytes_injective : ∀ {l m : List UInt8},
    l.flatMap escapeByte = m.flatMap escapeByte → l = m
  | [], [], _ => rfl
  | [], b :: m, h => by
    rw [flatMap_cons, escapeByte] at h
    split_ifs at h <;> cases h
  | a :: l, [], h => by
    rw [flatMap_cons, escapeByte] at h
    split_ifs at h <;> cases h
  | a :: l, b :: m, h => by
    rw [flatMap_cons, flatMap_cons] at h
    obtain ⟨rfl, hrest⟩ := escapeByte_append h
    rw [escapeBytes_injective hrest]

theorem encode_injective : Function.Injective encode := fun _ _ h =>
  String.toByteArray_inj.1 (ByteArray.ext (Array.ext' (escapeBytes_injective h)))

theorem space_notMem_encode (text : String) : ' ' ∉ encode text := by
  intro h
  obtain ⟨b, -, hb⟩ := mem_flatMap.1 h
  unfold escapeByte at hb
  split_ifs at hb with hun
  · rw [← mem_singleton.1 hb] at hun
    exact absurd hun (by decide)
  · have hdigits : ∀ n < 16, hexDigit n ≠ ' ' := by decide
    have hlt := b.toNat_lt
    rcases mem_cons.1 hb with hb | hb
    · cases hb
    rcases mem_cons.1 hb with hb | hb
    · exact hdigits _ (by omega) hb.symm
    · exact hdigits _ (by omega) (mem_singleton.1 hb).symm

example : encode "a b/é" = "a%20b%2F%C3%A9".toList := by decide

end Percent
