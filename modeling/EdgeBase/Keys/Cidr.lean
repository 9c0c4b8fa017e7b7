import EdgeBase.Config
import EdgeBase.Lib.Bits
import Mathlib.Data.List.Forall2
import Mathlib.Tactic.Ring

/-!
# Ranges of addresses

The range of a service key is an address with the number of bits that count.

* `isIpInCidr` : the check, with its parsers.
* `InRange` : an address is in a range.
* `isIpInCidr_eq_true_iff` : what the check accepts.
* `isIpInCidr_exact_iff` : when it is right.
-/

namespace EdgeBase

open List Option Bits

namespace Cidr

/-! ### Numerals -/

/-- The value of a digit, in either case; 36 if the character is none. -/
def digitValue (c : Char) : ℕ :=
  if c.isDigit then c.toNat - 48
  else if 'a' ≤ c ∧ c ≤ 'z' then c.toNat - 87
  else if 'A' ≤ c ∧ c ≤ 'Z' then c.toNat - 55
  else 36

def numeral (radix : ℕ) (digits : List Char) : ℕ :=
  digits.foldl (fun n c => n * radix + digitValue c) 0

/-- `parseInt`, or `none` for `NaN`. -/
def parseInt (radix : ℕ) (text : List Char) : Option ℤ :=
  match text.dropWhile isTrimmed with
  | '-' :: rest => (parseDigits rest).map fun n => -(n : ℤ)
  | '+' :: rest => (parseDigits rest).map fun n => (n : ℤ)
  | rest => (parseDigits rest).map fun n => (n : ℤ)
where
  parseDigits (text : List Char) : Option ℕ :=
    let digits := (withoutMark text).takeWhile (digitValue · < radix)
    if digits = [] then none else some (numeral radix digits)
  /-- `0x` before hexadecimal digits is skipped. -/
  withoutMark (text : List Char) : List Char :=
    match text with
    | '0' :: x :: rest => if radix = 16 ∧ (x = 'x' ∨ x = 'X') then rest else text
    | _ => text

/-! ### The code -/

def parseOctet (part : List Char) : Option ℕ :=
  match parseInt 10 part with
  | none => none
  | some n => if n < 0 ∨ 255 < n ∨ part ≠ (toString n).toList then none else some n.toNat

def parseIPv4 (ip : List Char) : Option (List ℕ) :=
  if (ip.splitOn '.').length ≠ 4 then none else (ip.splitOn '.').mapM parseOctet

/-- The texts before and after the first `::`. -/
def splitPair : List Char → Option (List Char × List Char)
  | [] => none
  | c :: rest =>
    match c, rest with
    | ':', ':' :: right => some ([], right)
    | _, _ => (splitPair rest).map fun halves => (c :: halves.1, halves.2)

/-- `left ? left.split(':') : []`. -/
def groupsOf (half : List Char) : List (List Char) := if half = [] then [] else half.splitOn ':'

/-- The groups of an IPv6 address, with zeros for `::`. -/
def expand (ip : List Char) : Option (List (List Char)) :=
  match splitPair ip with
  | none => some (ip.splitOn ':')
  | some (left, right) =>
    if (splitPair right).isSome then none
    else
      let leftGroups := groupsOf left
      let rightGroups := groupsOf right
      if 8 < leftGroups.length + rightGroups.length then none
      else some (leftGroups ++
        List.replicate (8 - leftGroups.length - rightGroups.length) ['0'] ++ rightGroups)

/-- `/^[0-9a-fA-F]{1,4}$/`. -/
def isHexGroup (half : List Char) : Bool :=
  half ≠ [] && half.length ≤ 4 && half.all (digitValue · < 16)

def parseGroup (half : List Char) : Option ℕ :=
  match parseInt 16 half with
  | none => none
  | some val =>
    if val < 0 ∨ 0xffff < val then none
    else if !isHexGroup half && half ≠ ['0'] then none
    else some val.toNat

def parseIPv6 (ip : List Char) : Option (List ℕ) :=
  match expand ip with
  | none => none
  | some halves =>
    if halves.length ≠ 8 then none
    else (halves.mapM parseGroup).map fun groups =>
      groups.flatMap fun val => [(val >>> 8) &&& 0xff, val &&& 0xff]

def matchesPrefixBits (a b : List ℕ) (prefixLen : ℕ) : Bool :=
  let fullBytes := prefixLen / 8
  let remainBits := prefixLen % 8
  if !(List.range fullBytes).all fun i => a[i]? == b[i]? then false
  else if 0 < remainBits ∧ fullBytes < a.length then
    let mask := 0xff <<< (8 - remainBits)
    a.getD fullBytes 0 &&& mask == b.getD fullBytes 0 &&& mask
  else true

def isIpInCidr (ip cidr : String) : Bool :=
  match cidr.toList.dropWhile (· ≠ '/') with
  | [] => false
  | _ :: suffix =>
    let cidrIp := cidr.toList.takeWhile (· ≠ '/')
    match parseInt 10 suffix with
    | none => false
    | some prefixLen =>
      if prefixLen < 0 then false
      else
        let isIPv6Input := ip.toList.contains ':'
        let isIPv6Cidr := cidrIp.contains ':'
        if isIPv6Input ≠ isIPv6Cidr then false
        else if isIPv6Input then
          if 128 < prefixLen then false
          else
            match parseIPv6 ip.toList, parseIPv6 cidrIp with
            | some ipBytes, some cidrBytes => matchesPrefixBits ipBytes cidrBytes prefixLen.toNat
            | _, _ => false
        else if 32 < prefixLen then false
        else
          match parseIPv4 ip.toList, parseIPv4 cidrIp with
          | some ipBytes, some cidrBytes => matchesPrefixBits ipBytes cidrBytes prefixLen.toNat
          | _, _ => false

/-! ### Addresses and ranges -/

/-- A text is the dotted quad of four bytes. -/
def IsIPv4 (text : List Char) (bytes : List ℕ) : Prop :=
  bytes.length = 4 ∧ (∀ n ∈ bytes, n < 256) ∧
    text = ['.'].intercalate (bytes.map fun n => (toString n).toList)

def IsGroup (group : List Char) : Prop :=
  group ≠ [] ∧ group.length ≤ 4 ∧ ∀ c ∈ group, digitValue c < 16

/-- A text is eight groups, or fewer with one `::` for the others, of which there are at least
some. -/
inductive IsIPv6 (least : ℕ) : List Char → List ℕ → Prop
  | full {groups : List (List Char)} (length : groups.length = 8)
      (groups_hex : ∀ group ∈ groups, IsGroup group) :
      IsIPv6 least ([':'].intercalate groups) (groups.map (numeral 16))
  | short {left right : List (List Char)} (length : left.length + right.length + least ≤ 8)
      (left_hex : ∀ group ∈ left, IsGroup group) (right_hex : ∀ group ∈ right, IsGroup group) :
      IsIPv6 least ([':'].intercalate left ++ ':' :: ':' :: [':'].intercalate right)
        (left.map (numeral 16) ++ List.replicate (8 - left.length - right.length) 0 ++
          right.map (numeral 16))

/-- An address is in a range, when the number behind the slash is read in some way and `::` stands
for at least some groups. -/
inductive InRangeBy (number : List Char → ℕ → Prop) (least : ℕ) (ip : List Char) :
    List Char → Prop
  | ipv4 {net suffix : List Char} {a b : List ℕ} {n : ℕ} (len : number suffix n) (le : n ≤ 32)
      (ip_text : IsIPv4 ip a) (net_text : IsIPv4 net b)
      (same : (ofWords 8 a).take n = (ofWords 8 b).take n) :
      InRangeBy number least ip (net ++ '/' :: suffix)
  | ipv6 {net suffix : List Char} {a b : List ℕ} {n : ℕ} (len : number suffix n) (le : n ≤ 128)
      (ip_text : IsIPv6 least ip a) (net_text : IsIPv6 least net b)
      (same : (ofWords 16 a).take n = (ofWords 16 b).take n) :
      InRangeBy number least ip (net ++ '/' :: suffix)

def IsNumber (text : List Char) (n : ℕ) : Prop :=
  text ≠ [] ∧ (∀ c ∈ text, c.isDigit = true) ∧ n = numeral 10 text

/-- What `parseInt` takes for a number that is not negative. -/
def Parses (text : List Char) (n : ℕ) : Prop := parseInt 10 text = some (n : ℤ)

def InRange (ip cidr : String) : Prop := InRangeBy IsNumber 1 ip.toList cidr.toList

/-- A text has eight groups beside `::`. -/
def Redundant (text : List Char) : Prop :=
  ∃ left right : List (List Char), left.length + right.length = 8 ∧
    (∀ group ∈ left ++ right, IsGroup group) ∧
    text = [':'].intercalate left ++ ':' :: ':' :: [':'].intercalate right

/-- The number behind the slash is all digits, and `::` stands for a group wherever it stands;
unless the address is not in the range even when the number is read by `parseInt` and `::` may
stand for nothing. -/
def HoldsWhen (ip cidr : String) : Prop :=
  InRangeBy Parses 0 ip.toList cidr.toList →
    (∃ net suffix, cidr.toList = net ++ '/' :: suffix ∧ '/' ∉ net ∧
      (suffix ≠ [] ∧ ∀ c ∈ suffix, c.isDigit = true) ∧ ¬Redundant net) ∧
    ¬Redundant ip.toList

/-! ### Numerals -/

theorem digitValue_lt_ten {c : Char} : digitValue c < 10 ↔ c.isDigit = true := by
  have hdigit : c.isDigit = true ↔ 48 ≤ c.toNat ∧ c.toNat ≤ 57 := by
    simp only [Char.isDigit, Bool.and_eq_true, decide_eq_true_eq, ge_iff_le,
      UInt32.le_iff_toNat_le]
    exact Iff.rfl
  have hlower : ('a' ≤ c ∧ c ≤ 'z') ↔ 97 ≤ c.toNat ∧ c.toNat ≤ 122 := by
    simp only [Char.le_def, UInt32.le_iff_toNat_le]
    exact Iff.rfl
  have hupper : ('A' ≤ c ∧ c ≤ 'Z') ↔ 65 ≤ c.toNat ∧ c.toNat ≤ 90 := by
    simp only [Char.le_def, UInt32.le_iff_toNat_le]
    exact Iff.rfl
  unfold digitValue
  split_ifs with h1 h2 h3
  · rw [hdigit] at h1
    simp only [hdigit]
    omega
  · rw [hlower] at h2
    rw [hdigit] at h1 ⊢
    omega
  · rw [hupper] at h3
    rw [hdigit] at h1 ⊢
    omega
  · simp [h1]

theorem ne_of_digitValue_lt {c : Char} (h : digitValue c < 16) :
    isTrimmed c = false ∧ c ≠ '-' ∧ c ≠ '+' ∧ c ≠ 'x' ∧ c ≠ 'X' ∧ c ≠ ':' ∧ c ≠ '/' ∧ c ≠ '.' := by
  refine ⟨?_, ?_, ?_, ?_, ?_, ?_, ?_, ?_⟩
  · by_contra htrim
    have hmem : c ∈ ['\t', '\n', '\x0b', '\x0c', '\r', ' ', '\u00a0', '\u1680', '\u2028', '\u2029',
        '\u202f', '\u205f', '\u3000', '\ufeff'] ∨ 8192 ≤ c.toNat := by
      simp only [isTrimmed, Bool.not_eq_false, Bool.or_eq_true, decide_eq_true_eq,
        Bool.and_eq_true] at htrim
      refine htrim.imp id fun hrange => ?_
      have hle := hrange.1
      rw [Char.le_def, UInt32.le_iff_toNat_le] at hle
      exact hle
    rcases hmem with hmem | hlarge
    · have hall : (['\t', '\n', '\x0b', '\x0c', '\r', ' ', '\u00a0', '\u1680', '\u2028',
          '\u2029', '\u202f', '\u205f', '\u3000', '\ufeff'].all fun d => digitValue d = 36) =
          true := by decide
      rw [of_decide_eq_true (List.all_eq_true.1 hall c hmem)] at h
      omega
    · have h36 : digitValue c = 36 := by
        unfold digitValue
        have hdigit : c.isDigit = false := by
          simp only [Char.isDigit, Bool.and_eq_false_iff, decide_eq_false_iff_not, ge_iff_le,
            UInt32.le_iff_toNat_le]
          right
          have hval : c.val.toNat = c.toNat := rfl
          have h9 : ('9' : Char).val.toNat = 57 := rfl
          omega
        have hz : ¬c ≤ 'z' := by
          rw [Char.le_def, UInt32.le_iff_toNat_le]
          have hval : c.val.toNat = c.toNat := rfl
          have h122 : ('z' : Char).val.toNat = 122 := rfl
          omega
        have hZ : ¬c ≤ 'Z' := by
          rw [Char.le_def, UInt32.le_iff_toNat_le]
          have hval : c.val.toNat = c.toNat := rfl
          have h90 : ('Z' : Char).val.toNat = 90 := rfl
          omega
        rw [hdigit, if_neg Bool.false_ne_true, if_neg fun h => hz h.2, if_neg fun h => hZ h.2]
      omega
  all_goals
    rintro rfl
    revert h
    decide

theorem parseInt_of_digits {radix : ℕ} {text : List Char} (hradix : radix ≤ 16) (hne : text ≠ [])
    (h : ∀ c ∈ text, digitValue c < radix) :
    parseInt radix text = some (numeral radix text : ℤ) := by
  obtain ⟨c, rest, rfl⟩ := exists_cons_of_ne_nil hne
  have hdigit : ∀ d ∈ c :: rest, digitValue d < 16 := fun d hd => (h d hd).trans_le hradix
  obtain ⟨htrim, hminus, hplus, -⟩ := ne_of_digitValue_lt (hdigit c mem_cons_self)
  have hmark : parseInt.withoutMark radix (c :: rest) = c :: rest := by
    unfold parseInt.withoutMark
    split
    · next x rest heq =>
      obtain ⟨rfl, rfl⟩ := List.cons.inj heq
      obtain ⟨-, -, -, hx, hX, -⟩ := ne_of_digitValue_lt
        (hdigit x (mem_cons_of_mem _ mem_cons_self))
      rw [if_neg]
      rintro ⟨-, rfl | rfl⟩
      · exact hx rfl
      · exact hX rfl
    · rfl
  have htake : (c :: rest).takeWhile (digitValue · < radix) = c :: rest :=
    takeWhile_eq_self_iff.2 fun d hd => by simpa using h d hd
  have hdigits : parseInt.parseDigits radix (c :: rest) = some (numeral radix (c :: rest)) := by
    unfold parseInt.parseDigits
    rw [hmark, htake, if_neg hne]
  unfold parseInt
  rw [dropWhile_cons_of_neg (by simp [htrim])]
  split
  · next heq => exact absurd (List.cons.inj heq).1 hminus
  · next heq => exact absurd (List.cons.inj heq).1 hplus
  · rw [hdigits]
    rfl

theorem numeral_concat (radix : ℕ) (digits : List Char) (c : Char) :
    numeral radix (digits ++ [c]) = numeral radix digits * radix + digitValue c := by
  rw [numeral, foldl_append]
  rfl

theorem numeral_lt {radix : ℕ} {digits : List Char} (h : ∀ c ∈ digits, digitValue c < radix) :
    numeral radix digits < radix ^ digits.length := by
  induction digits using List.reverseRecOn with
  | nil => simp [numeral]
  | append_singleton digits c ih =>
    have hrest := ih fun d hd => h d (mem_append_left _ hd)
    have hlast := h c (mem_append_right _ mem_cons_self)
    rw [numeral_concat, length_append, length_singleton, pow_succ]
    calc numeral radix digits * radix + digitValue c
        < numeral radix digits * radix + radix := by omega
      _ = (numeral radix digits + 1) * radix := by ring
      _ ≤ radix ^ digits.length * radix := Nat.mul_le_mul_right _ hrest

/-! ### IPv4 -/

theorem digitsOf (n : ℕ) : (toString n).toList ≠ [] ∧
    ∀ c ∈ (toString n).toList, c.isDigit = true := by
  have hlist : (toString n).toList = Nat.toDigits 10 n := Nat.toList_repr
  rw [hlist]
  exact ⟨Nat.toDigits_ne_nil, fun c hc => Nat.isDigit_of_mem_toDigits (by decide) (by decide) hc⟩

theorem numeral_ten {digits : List Char} (h : ∀ c ∈ digits, c.isDigit = true) :
    numeral 10 digits = Nat.ofDigitChars 10 digits 0 := by
  have hfold : ∀ n, digits.foldl (fun n c => n * 10 + digitValue c) n =
      Nat.ofDigitChars 10 digits n := by
    induction digits with
    | nil => exact fun n => Nat.ofDigitChars_nil.symm
    | cons c digits ih =>
      obtain ⟨hc, hrest⟩ := forall_mem_cons.1 h
      intro n
      rw [foldl_cons, ih hrest, Nat.ofDigitChars_cons, digitValue, if_pos hc, mul_comm]
      rfl
  exact hfold 0

theorem parseInt_toString (n : ℕ) : parseInt 10 (toString n).toList = some (n : ℤ) := by
  obtain ⟨hne, hdigits⟩ := digitsOf n
  rw [parseInt_of_digits (by decide) hne fun c hc => digitValue_lt_ten.2 (hdigits c hc),
    numeral_ten hdigits]
  have hlist : (toString n).toList = Nat.toDigits 10 n := Nat.toList_repr
  rw [hlist, Nat.ofDigitChars_ten_toDigits]

theorem parseOctet_eq_some_iff {part : List Char} {n : ℕ} :
    parseOctet part = some n ↔ n < 256 ∧ part = (toString n).toList := by
  unfold parseOctet
  constructor
  · intro h
    split at h
    · cases h
    · next m hm =>
      split_ifs at h with hrange
      cases h
      push Not at hrange
      obtain ⟨hlow, hhigh, htext⟩ := hrange
      obtain ⟨k, rfl⟩ := Int.eq_ofNat_of_zero_le hlow
      exact ⟨by omega, htext⟩
  · rintro ⟨hn, rfl⟩
    rw [parseInt_toString]
    dsimp only
    rw [if_neg]
    · rfl
    · rintro (hlow | hhigh | htext)
      · omega
      · omega
      · exact htext rfl

theorem mapM_eq_some_iff {α β : Type*} {f : α → Option β} : ∀ {xs : List α} {ys : List β},
    xs.mapM f = some ys ↔ List.Forall₂ (fun x y => f x = some y) xs ys
  | [], [] => by simp
  | [], _ :: _ => by simp
  | x :: xs, ys => by
    rw [mapM_cons]
    constructor
    · intro h
      obtain ⟨y, hy, h⟩ := bind_eq_some_iff.1 h
      obtain ⟨ys, hys, h⟩ := bind_eq_some_iff.1 h
      cases h
      exact .cons hy (mapM_eq_some_iff.1 hys)
    · rintro (_ | ⟨hy, hys⟩)
      rw [hy, mapM_eq_some_iff.2 hys]
      rfl

theorem forall_mem_of_forall₂ {α β : Type*} {p : β → Prop} {xs : List α} {ys : List β}
    (h : List.Forall₂ (fun _ y => p y) xs ys) : ∀ y ∈ ys, p y := by
  induction h with
  | nil => simp
  | cons hy _ ih => exact forall_mem_cons.2 ⟨hy, ih⟩

theorem parseIPv4_eq_some_iff {ip : List Char} {bytes : List ℕ} :
    parseIPv4 ip = some bytes ↔ IsIPv4 ip bytes := by
  unfold parseIPv4
  constructor
  · intro h
    split_ifs at h with hlength
    have hparts := mapM_eq_some_iff.1 h
    have htext : (ip.splitOn '.') = bytes.map fun n => (toString n).toList := by
      rw [← forall₂_eq_eq_eq, forall₂_map_right_iff]
      exact hparts.imp fun _ _ h => (parseOctet_eq_some_iff.1 h).2
    refine ⟨?_, ?_, ?_⟩
    · have hsame := hparts.length_eq
      omega
    · exact forall_mem_of_forall₂ (hparts.imp fun _ _ h => (parseOctet_eq_some_iff.1 h).1)
    · rw [← htext, intercalate_splitOn]
  · rintro ⟨hlength, hbytes, rfl⟩
    have hdot : ∀ part ∈ bytes.map fun n => (toString n).toList, '.' ∉ part := by
      intro part hpart hmem
      obtain ⟨n, hn, rfl⟩ := List.mem_map.1 hpart
      obtain ⟨-, hdigits⟩ := digitsOf n
      exact absurd (hdigits '.' hmem) (by decide)
    have hne : bytes.map (fun n => (toString n).toList) ≠ [] := by
      intro hnil
      rw [map_eq_nil_iff] at hnil
      rw [hnil] at hlength
      cases hlength
    rw [splitOn_intercalate '.' hdot hne, if_neg (by simp [hlength])]
    refine mapM_eq_some_iff.2 (forall₂_map_left_iff.2 (forall₂_same.2 fun n hn => ?_))
    exact parseOctet_eq_some_iff.2 ⟨hbytes n hn, rfl⟩

/-! ### IPv6 -/

theorem isHexGroup_iff {half : List Char} : isHexGroup half = true ↔ IsGroup half := by
  simp [isHexGroup, IsGroup, and_assoc]

theorem parseGroup_eq_some_iff {half : List Char} {n : ℕ} :
    parseGroup half = some n ↔ IsGroup half ∧ n = numeral 16 half := by
  have hparse : IsGroup half → parseInt 16 half = some (numeral 16 half : ℤ) :=
    fun h => parseInt_of_digits (Nat.le_refl 16) h.1 h.2.2
  unfold parseGroup
  constructor
  · intro h
    split at h
    · cases h
    · next val hval =>
      split_ifs at h with hrange hhex
      cases h
      have hgroup : IsGroup half := by
        by_cases hzero : half = ['0']
        · rw [hzero]
          exact isHexGroup_iff.1 (by decide)
        · exact isHexGroup_iff.1 (by simpa [hzero] using hhex)
      rw [hparse hgroup] at hval
      cases hval
      exact ⟨hgroup, rfl⟩
  · rintro ⟨hgroup, rfl⟩
    have hlt : numeral 16 half < 16 ^ 4 :=
      (numeral_lt hgroup.2.2).trans_le (Nat.pow_le_pow_right (by omega) hgroup.2.1)
    rw [hparse hgroup]
    dsimp only
    rw [if_neg (by omega), isHexGroup_iff.2 hgroup]
    rfl

theorem IsGroup.colon_notMem {group : List Char} (h : IsGroup group) : ':' ∉ group := by
  intro hmem
  obtain ⟨-, -, -, -, -, hcolon, -⟩ := ne_of_digitValue_lt (h.2.2 ':' hmem)
  exact hcolon rfl

theorem splitPair_cons_of_ne {c : Char} (hc : c ≠ ':') (rest : List Char) :
    splitPair (c :: rest) = (splitPair rest).map fun halves => (c :: halves.1, halves.2) := by
  rw [splitPair]
  rintro right rfl
  exact absurd rfl hc

theorem splitPair_colon_cons {d : Char} (hd : d ≠ ':') (rest : List Char) :
    splitPair (':' :: d :: rest) =
      (splitPair (d :: rest)).map fun halves => (':' :: halves.1, halves.2) := by
  rw [splitPair]
  rintro right - heq
  exact hd (List.cons.inj heq).1

/-- The first `::` is behind a text without a colon. -/
theorem splitPair_append {text : List Char} (h : ':' ∉ text) (rest : List Char) :
    splitPair (text ++ rest) = (splitPair rest).map fun halves => (text ++ halves.1, halves.2) := by
  induction text with
  | nil => simp
  | cons c text ih =>
    obtain ⟨hc, htext⟩ := not_or.1 (mt mem_cons.2 h)
    rw [cons_append, splitPair_cons_of_ne (Ne.symm hc), ih htext, Option.map_map]
    rfl

/-- What is in front of the first `::` and behind it. -/
theorem eq_of_splitPair {text left right : List Char} (h : splitPair text = some (left, right)) :
    text = left ++ ':' :: ':' :: right := by
  induction text generalizing left right with
  | nil => cases h
  | cons c text ih =>
    unfold splitPair at h
    split at h
    · cases h
      rfl
    · obtain ⟨⟨left', right'⟩, hrest, heq⟩ := map_eq_some_iff.1 h
      cases heq
      rw [ih hrest, cons_append]

section Groups

variable {groups : List (List Char)}

theorem splitPair_nil : splitPair [] = none := rfl

/-- Between groups there is no `::`. -/
theorem splitPair_intercalate : ∀ {groups : List (List Char)}, (∀ group ∈ groups, IsGroup group) →
    ∀ {rest : List Char}, splitPair rest = none →
      splitPair ([':'].intercalate groups ++ rest) = none
  | [], _, _, hrest => by simpa using hrest
  | [group], h, rest, hrest => by
    rw [intercalate_singleton, splitPair_append (h group mem_cons_self).colon_notMem,
      hrest]
    rfl
  | group :: next :: groups, h, rest, hrest => by
    have ih := splitPair_intercalate (forall_mem_cons.1 h).2 hrest
    have hnext := h next (mem_cons_of_mem _ mem_cons_self)
    obtain ⟨d, tail, rfl⟩ := exists_cons_of_ne_nil hnext.1
    have hd : d ≠ ':' := fun hd => hnext.colon_notMem (hd ▸ mem_cons_self)
    obtain ⟨tail', htail⟩ : ∃ tail', [':'].intercalate ((d :: tail) :: groups) ++ rest =
        d :: tail' := by
      cases groups <;> simp
    rw [intercalate_cons_cons, append_assoc, append_assoc,
      splitPair_append (h group mem_cons_self).colon_notMem, singleton_append, htail,
      splitPair_colon_cons hd, ← htail, ih]
    rfl

/-- The first `::` is the one between the groups on both sides. -/
theorem splitPair_short (h : ∀ group ∈ groups, IsGroup group) (right : List Char) :
    splitPair ([':'].intercalate groups ++ ':' :: ':' :: right) =
      some ([':'].intercalate groups, right) := by
  have hclean : splitPair ([':'].intercalate groups ++ [':']) = none :=
    splitPair_intercalate h (by decide)
  generalize [':'].intercalate groups = text at hclean ⊢
  induction text with
  | nil => rfl
  | cons c text ih =>
    rw [cons_append] at hclean ⊢
    unfold splitPair at hclean ⊢
    split at hclean
    · cases hclean
    · next hne =>
      have hrest := ih (map_eq_none_iff.1 hclean)
      split
      · next heq =>
        -- the text would start with two colons
        cases text with
        | nil => exact absurd rfl (hne [] rfl)
        | cons d text =>
          obtain ⟨rfl, -⟩ := List.cons.inj heq
          exact absurd rfl (hne _ rfl)
      · rw [hrest]
        rfl

theorem intercalate_groupsOf (half : List Char) : [':'].intercalate (groupsOf half) = half := by
  unfold groupsOf
  split_ifs with h
  · rw [h]
    rfl
  · exact intercalate_splitOn ':'

theorem groupsOf_intercalate (h : ∀ group ∈ groups, IsGroup group) :
    groupsOf ([':'].intercalate groups) = groups := by
  cases groups with
  | nil => rfl
  | cons group groups =>
    have hne : [':'].intercalate (group :: groups) ≠ [] := by
      have hgroup := (h group mem_cons_self).1
      cases groups <;> simp [hgroup]
    rw [groupsOf, if_neg hne]
    exact splitOn_intercalate ':' (fun group hgroup => (h group hgroup).colon_notMem)
      (cons_ne_nil _ _)

end Groups

theorem mapM_parseGroup {halves : List (List Char)} {groups : List ℕ} :
    halves.mapM parseGroup = some groups ↔
      (∀ half ∈ halves, IsGroup half) ∧ groups = halves.map (numeral 16) := by
  rw [mapM_eq_some_iff]
  constructor
  · intro h
    refine ⟨?_, ?_⟩
    · exact forall_mem_of_forall₂ (h.flip.imp fun _ _ h => (parseGroup_eq_some_iff.1 h).1)
    · rw [← forall₂_eq_eq_eq, forall₂_map_right_iff]
      exact h.flip.imp fun _ _ h => (parseGroup_eq_some_iff.1 h).2
  · rintro ⟨hhalves, rfl⟩
    refine forall₂_map_right_iff.2 (forall₂_same.2 fun half hhalf => ?_)
    exact parseGroup_eq_some_iff.2 ⟨hhalves half hhalf, rfl⟩

theorem isIPv6_iff {ip : List Char} {groups : List ℕ} :
    IsIPv6 0 ip groups ↔ ∃ halves, expand ip = some halves ∧ halves.length = 8 ∧
      (∀ half ∈ halves, IsGroup half) ∧ groups = halves.map (numeral 16) := by
  have hzero : IsGroup ['0'] := isHexGroup_iff.1 (by decide)
  constructor
  · rintro (⟨hlength, hhex⟩ | ⟨hlength, hleft, hright⟩)
    · next groups =>
      have hpair := splitPair_intercalate hhex splitPair_nil
      rw [append_nil] at hpair
      have hne : groups ≠ [] := fun hnil => by simp [hnil] at hlength
      refine ⟨groups, ?_, hlength, hhex, rfl⟩
      unfold expand
      rw [hpair]
      exact congrArg some (splitOn_intercalate ':' (fun g hg => (hhex g hg).colon_notMem) hne)
    · next left right =>
      have hpair := splitPair_intercalate hright splitPair_nil
      rw [append_nil] at hpair
      refine ⟨left ++ List.replicate (8 - left.length - right.length) ['0'] ++ right, ?_, ?_, ?_,
        ?_⟩
      · unfold expand
        rw [splitPair_short hleft]
        dsimp only
        rw [hpair, groupsOf_intercalate hleft, groupsOf_intercalate hright, if_neg (by simp),
          if_neg (by omega)]
      · simp only [length_append, length_replicate]
        omega
      · intro half hhalf
        rcases mem_append.1 hhalf with hhalf | hhalf
        · rcases mem_append.1 hhalf with hhalf | hhalf
          · exact hleft half hhalf
          · rw [eq_of_mem_replicate hhalf]
            exact hzero
        · exact hright half hhalf
      · rw [map_append, map_append, map_replicate]
        rfl
  · rintro ⟨halves, hexpand, hlength, hhex, rfl⟩
    unfold expand at hexpand
    split at hexpand
    · cases hexpand
      have hfull : IsIPv6 0 ([':'].intercalate (ip.splitOn ':')) _ := .full hlength hhex
      rwa [intercalate_splitOn] at hfull
    · next left right hpair =>
      dsimp only at hexpand
      split_ifs at hexpand with htwice hmany
      cases hexpand
      rw [eq_of_splitPair hpair]
      have hshort : IsIPv6 0 ([':'].intercalate (groupsOf left) ++
          ':' :: ':' :: [':'].intercalate (groupsOf right)) _ :=
        .short (by omega)
          (fun g hg => hhex g (mem_append_left _ (mem_append_left _ hg)))
          (fun g hg => hhex g (mem_append_right _ hg))
      rw [intercalate_groupsOf, intercalate_groupsOf] at hshort
      rw [map_append, map_append, map_replicate]
      exact hshort

def bytesOf (val : ℕ) : List ℕ := [(val >>> 8) &&& 0xff, val &&& 0xff]

theorem parseIPv6_eq_some_iff {ip : List Char} {bytes : List ℕ} :
    parseIPv6 ip = some bytes ↔ ∃ groups, IsIPv6 0 ip groups ∧ bytes = groups.flatMap bytesOf := by
  unfold parseIPv6
  constructor
  · intro h
    split at h
    · cases h
    · next halves hexpand =>
      split_ifs at h with hlength
      obtain ⟨groups, hgroups, rfl⟩ := map_eq_some_iff.1 h
      obtain ⟨hhex, rfl⟩ := mapM_parseGroup.1 hgroups
      exact ⟨_, isIPv6_iff.2 ⟨halves, hexpand, not_not.1 hlength, hhex, rfl⟩, rfl⟩
  · rintro ⟨groups, haddress, rfl⟩
    obtain ⟨halves, hexpand, hlength, hhex, rfl⟩ := isIPv6_iff.1 haddress
    rw [hexpand]
    dsimp only
    rw [if_neg (not_not.2 hlength), mapM_parseGroup.2 ⟨hhex, rfl⟩]
    rfl

theorem IsIPv6.groups_lt {ip : List Char} {groups : List ℕ} (h : IsIPv6 0 ip groups) :
    groups.length = 8 ∧ ∀ n ∈ groups, n < 2 ^ 16 := by
  obtain ⟨halves, -, hlength, hhex, rfl⟩ := isIPv6_iff.1 h
  refine ⟨by simpa using hlength, fun n hn => ?_⟩
  obtain ⟨half, hhalf, rfl⟩ := List.mem_map.1 hn
  obtain ⟨-, hle, hdigits⟩ := hhex half hhalf
  exact (numeral_lt hdigits).trans_le (Nat.pow_le_pow_right (by omega) hle : 16 ^ _ ≤ 16 ^ 4)

theorem ofWords_bytesOf {groups : List ℕ} (h : ∀ n ∈ groups, n < 2 ^ 16) :
    ofWords 8 (groups.flatMap bytesOf) = ofWords 16 groups := by
  rw [← ofWords_halves 8]
  congr 1
  refine flatMap_congr fun n hn => ?_
  have hlt := h n hn
  have hhigh : (n >>> 8) &&& 0xff = n / 2 ^ 8 := by
    rw [show 0xff = 2 ^ 8 - 1 from rfl, Nat.and_two_pow_sub_one_eq_mod, Nat.shiftRight_eq_div_pow]
    omega
  have hlow : n &&& 0xff = n % 2 ^ 8 := Nat.and_two_pow_sub_one_eq_mod n 8
  rw [bytesOf, hhigh, hlow]

/-! ### The comparison -/

theorem matchesPrefixBits_iff {a b : List ℕ} (hlength : a.length = b.length)
    (ha : ∀ n ∈ a, n < 2 ^ 8) (hb : ∀ n ∈ b, n < 2 ^ 8) (prefixLen : ℕ) :
    matchesPrefixBits a b prefixLen = true ↔
      (ofWords 8 a).take prefixLen = (ofWords 8 b).take prefixLen := by
  have hr : prefixLen % 8 < 8 := Nat.mod_lt _ (by omega)
  have hbits := take_ofWords_eq_iff hr (prefixLen / 8) hlength ha hb
  rw [Nat.div_add_mod] at hbits
  have hfull : ((List.range (prefixLen / 8)).all fun i => a[i]? == b[i]?) = true ↔
      ∀ i < prefixLen / 8, a[i]? = b[i]? := by simp
  rw [hbits, ← hfull]
  unfold matchesPrefixBits
  dsimp only
  cases (List.range (prefixLen / 8)).all fun i => a[i]? == b[i]? with
  | false => simp
  | true =>
    simp only [Bool.not_true, Bool.false_eq_true, ite_false, true_and]
    split_ifs with hrest
    · obtain ⟨hpos, hlt⟩ := hrest
      obtain ⟨x, hx⟩ : ∃ x, a[prefixLen / 8]? = some x := ⟨_, List.getElem?_eq_getElem hlt⟩
      obtain ⟨y, hy⟩ : ∃ y, b[prefixLen / 8]? = some y :=
        ⟨_, List.getElem?_eq_getElem (hlength ▸ hlt)⟩
      have hmask := and_mask_eq_iff (ha x (mem_of_getElem? hx))
        (hb y (mem_of_getElem? hy)) (show 8 - prefixLen % 8 ≤ 8 by omega)
      rw [show 8 - (8 - prefixLen % 8) = prefixLen % 8 by omega] at hmask
      rw [getD_eq_getElem?_getD, getD_eq_getElem?_getD, hx, hy]
      simpa using hmask
    · -- no bits are left, or no bytes
      simp only [true_iff]
      intro x hx y hy
      by_cases hpos : 0 < prefixLen % 8
      · rw [List.getElem?_eq_none (not_lt.1 fun hlt => hrest ⟨hpos, hlt⟩)] at hx
        cases hx
      · rw [Nat.eq_zero_of_not_pos hpos]
        rfl

/-! ### The check -/

theorem parses_iff {suffix : List Char} {len : ℤ} (h : parseInt 10 suffix = some len)
    (hlen : 0 ≤ len) (n : ℕ) : Parses suffix n ↔ len.toNat = n := by
  rw [Parses, h, some_inj]
  omega

theorem colon_notMem_of_isIPv4 {text : List Char} {bytes : List ℕ} (h : IsIPv4 text bytes) :
    ':' ∉ text ∧ '/' ∉ text := by
  obtain ⟨-, hbytes, rfl⟩ := h
  have hmem : ∀ c ∈ ['.'].intercalate (bytes.map fun n => (toString n).toList),
      c = '.' ∨ c.isDigit = true := by
    induction bytes with
    | nil => simp
    | cons n bytes ih =>
      have hn : ∀ c ∈ (toString n).toList, c.isDigit = true :=
        (digitsOf n).2
      have hrest := ih fun n hn => hbytes n (mem_cons_of_mem _ hn)
      intro c hc
      rw [map_cons] at hc
      cases bytes with
      | nil =>
        rw [map_nil, intercalate_singleton] at hc
        exact .inr (hn c hc)
      | cons m bytes =>
        rw [map_cons, intercalate_cons_cons, mem_append, mem_append] at hc
        rcases hc with (hc | hc) | hc
        · exact .inr (hn c hc)
        · exact .inl (mem_singleton.1 hc)
        · exact hrest c hc
  constructor
  · exact fun h => absurd (hmem _ h) (by decide)
  · exact fun h => absurd (hmem _ h) (by decide)

theorem slash_notMem_intercalate {groups : List (List Char)} (h : ∀ g ∈ groups, IsGroup g) :
    '/' ∉ [':'].intercalate groups := by
  induction groups with
  | nil => simp
  | cons group groups ih =>
    have hgroup : '/' ∉ group := by
      intro hmem
      obtain ⟨-, -, -, -, -, -, hslash, -⟩ :=
        ne_of_digitValue_lt ((h group mem_cons_self).2.2 '/' hmem)
      exact hslash rfl
    have hrest := ih (forall_mem_cons.1 h).2
    cases groups with
    | nil => rwa [intercalate_singleton]
    | cons next groups =>
      rw [intercalate_cons_cons]
      simp only [mem_append, not_or]
      exact ⟨⟨hgroup, by decide⟩, hrest⟩

theorem colon_mem_of_isIPv6 {least : ℕ} {text : List Char} {groups : List ℕ}
    (h : IsIPv6 least text groups) : ':' ∈ text ∧ '/' ∉ text := by
  cases h with
  | @full groups hlength hhex =>
    refine ⟨?_, slash_notMem_intercalate hhex⟩
    match groups, hlength with
    | a :: b :: rest, _ =>
      rw [intercalate_cons_cons]
      simp
  | @short left right _ hleft hright =>
    refine ⟨by simp, ?_⟩
    have hl := slash_notMem_intercalate hleft
    have hr := slash_notMem_intercalate hright
    simp only [mem_append, mem_cons, not_or]
    exact ⟨hl, by decide, by decide, hr⟩

theorem takeWhile_slash {net : List Char} (h : '/' ∉ net) (suffix : List Char) :
    (net ++ '/' :: suffix).takeWhile (· ≠ '/') = net ∧
      (net ++ '/' :: suffix).dropWhile (· ≠ '/') = '/' :: suffix := by
  have hne : ∀ c ∈ net, (decide (c ≠ '/')) = true := fun c hc =>
    decide_eq_true fun heq => h (heq ▸ hc)
  constructor
  · rw [takeWhile_append_of_pos hne]
    simp
  · rw [dropWhile_append_of_pos hne]
    simp

theorem isIpInCidr_eq_true_iff (ip cidr : String) :
    isIpInCidr ip cidr = true ↔ InRangeBy Parses 0 ip.toList cidr.toList := by
  have hsplit : cidr.toList.takeWhile (· ≠ '/') ++ cidr.toList.dropWhile (· ≠ '/') =
      cidr.toList := takeWhile_append_dropWhile
  have hfour : ∀ {a b : List ℕ} {x y : List Char} (n : ℕ), IsIPv4 x a → IsIPv4 y b →
      (matchesPrefixBits a b n = true ↔
        (ofWords 8 a).take n = (ofWords 8 b).take n) := fun n ha hb =>
    matchesPrefixBits_iff (ha.1.trans hb.1.symm) ha.2.1 hb.2.1 n
  have hsix : ∀ {a b : List ℕ} {x y : List Char} (n : ℕ), IsIPv6 0 x a → IsIPv6 0 y b →
      (matchesPrefixBits (a.flatMap bytesOf) (b.flatMap bytesOf) n = true ↔
        (ofWords 16 a).take n = (ofWords 16 b).take n) := by
    intro a b x y n ha hb
    have hlen : ∀ c : List ℕ, (c.flatMap bytesOf).length = 2 * c.length := by
      intro c
      induction c with
      | nil => rfl
      | cons m c ih =>
        rw [flatMap_cons, length_append, ih, length_cons]
        simp [bytesOf]
        omega
    have hbyte : ∀ c : List ℕ, ∀ m ∈ c.flatMap bytesOf, m < 2 ^ 8 := by
      intro c m hm
      obtain ⟨val, -, hval⟩ := mem_flatMap.1 hm
      have hle : m ≤ 0xff := by
        simp only [bytesOf, mem_cons, not_mem_nil, or_false] at hval
        rcases hval with rfl | rfl <;> exact Nat.and_le_right
      omega
    rw [matchesPrefixBits_iff (by rw [hlen, hlen, ha.groups_lt.1, hb.groups_lt.1]) (hbyte a)
      (hbyte b) n, ofWords_bytesOf ha.groups_lt.2, ofWords_bytesOf hb.groups_lt.2]
  constructor
  · intro h
    unfold isIpInCidr at h
    split at h
    · cases h
    · next c suffix hdrop =>
      have hc : c = '/' := by
        have hhead := List.head?_dropWhile_not (· ≠ '/') cidr.toList
        rw [hdrop] at hhead
        simpa using hhead
      subst hc
      rw [hdrop] at hsplit
      dsimp only at h
      split at h
      · cases h
      · next len hlen =>
        split_ifs at h with hneg hversion hipv6 hlarge hlarge
        · split at h
          · next hip hnet =>
            obtain ⟨a, ha, rfl⟩ := parseIPv6_eq_some_iff.1 hip
            obtain ⟨b, hb, rfl⟩ := parseIPv6_eq_some_iff.1 hnet
            rw [← hsplit]
            exact .ipv6 ((parses_iff hlen (by omega) _).2 rfl) (by omega) ha hb
              ((hsix _ ha hb).1 h)
          · cases h
        · split at h
          · next a b ha hb =>
            rw [← hsplit]
            exact .ipv4 ((parses_iff hlen (by omega) _).2 rfl) (by omega)
              (parseIPv4_eq_some_iff.1 ha) (parseIPv4_eq_some_iff.1 hb)
              ((hfour _ (parseIPv4_eq_some_iff.1 ha) (parseIPv4_eq_some_iff.1 hb)).1 h)
          · cases h
  · intro h
    unfold isIpInCidr
    generalize hcidr : cidr.toList = text at h
    cases h with
    | @ipv4 net suffix a b n hlen hle ha hb hsame =>
      obtain ⟨hcolon, -⟩ := colon_notMem_of_isIPv4 ha
      obtain ⟨hcolon', hslash⟩ := colon_notMem_of_isIPv4 hb
      obtain ⟨htake, hdrop⟩ := takeWhile_slash hslash suffix
      rw [hdrop]
      dsimp only
      rw [htake, hlen]
      dsimp only
      rw [if_neg (by omega), if_neg (by simp [hcolon, hcolon']), if_neg (by simp [hcolon]),
        if_neg (by omega), parseIPv4_eq_some_iff.2 ha, parseIPv4_eq_some_iff.2 hb]
      exact (hfour _ ha hb).2 (by simpa using hsame)
    | @ipv6 net suffix a b n hlen hle ha hb hsame =>
      obtain ⟨hcolon, -⟩ := colon_mem_of_isIPv6 ha
      obtain ⟨hcolon', hslash⟩ := colon_mem_of_isIPv6 hb
      obtain ⟨htake, hdrop⟩ := takeWhile_slash hslash suffix
      rw [hdrop]
      dsimp only
      rw [htake, hlen]
      dsimp only
      rw [if_neg (by omega), if_neg (by simp [hcolon, hcolon']), if_pos (by simp [hcolon]),
        if_neg (by omega), parseIPv6_eq_some_iff.2 ⟨a, ha, rfl⟩,
        parseIPv6_eq_some_iff.2 ⟨b, hb, rfl⟩]
      exact (hsix _ ha hb).2 (by simpa using hsame)

/-! ### Exactness -/

variable {text : List Char}

theorem IsNumber.parses {n : ℕ} (h : IsNumber text n) : Parses text n := by
  obtain ⟨hne, hdigits, rfl⟩ := h
  exact parseInt_of_digits (by omega) hne fun c hc => digitValue_lt_ten.2 (hdigits c hc)

theorem IsIPv6.weaken {groups : List ℕ} (h : IsIPv6 1 text groups) : IsIPv6 0 text groups := by
  cases h with
  | full hlength hhex => exact .full hlength hhex
  | short hlength hleft hright => exact .short (by omega) hleft hright

/-- An address in which `::` stands for a group is not redundant. -/
theorem IsIPv6.not_redundant {groups : List ℕ} (h : IsIPv6 1 text groups) : ¬Redundant text := by
  rintro ⟨left', right', hsum, hhex, htext⟩
  have hleft' : ∀ g ∈ left', IsGroup g := fun g hg => hhex g (mem_append_left _ hg)
  have hright' : ∀ g ∈ right', IsGroup g := fun g hg => hhex g (mem_append_right _ hg)
  have hpair' := splitPair_short hleft' ([':'].intercalate right')
  rw [← htext] at hpair'
  cases h with
  | full hlength hhex =>
    have hpair := splitPair_intercalate hhex splitPair_nil
    rw [append_nil, hpair'] at hpair
    cases hpair
  | @short left right hlength hleft hright =>
    rw [splitPair_short hleft] at hpair'
    obtain ⟨hl, hr⟩ := Prod.mk.inj (some.inj hpair')
    have hleftEq : left = left' := by
      rw [← groupsOf_intercalate hleft, hl, groupsOf_intercalate hleft']
    have hrightEq : right = right' := by
      rw [← groupsOf_intercalate hright, hr, groupsOf_intercalate hright']
    subst hleftEq
    subst hrightEq
    omega

theorem IsIPv6.strict {groups : List ℕ} (h : IsIPv6 0 text groups)
    (hredundant : ¬Redundant text) : IsIPv6 1 text groups := by
  cases h with
  | full hlength hhex => exact .full hlength hhex
  | @short left right hlength hleft hright =>
    refine .short ?_ hleft hright
    by_contra hmany
    refine hredundant ⟨left, right, by omega, fun g hg => ?_, rfl⟩
    exact (mem_append.1 hg).elim (hleft g) (hright g)

theorem not_redundant_of_isIPv4 {bytes : List ℕ} (h : IsIPv4 text bytes) : ¬Redundant text := by
  rintro ⟨left, right, -, -, rfl⟩
  exact (colon_notMem_of_isIPv4 h).1 (by simp)

variable {ip cidr : String}

theorem InRange.loosely (h : InRange ip cidr) : InRangeBy Parses 0 ip.toList cidr.toList := by
  unfold InRange at h
  generalize cidr.toList = text at h ⊢
  cases h with
  | ipv4 hlen hle ha hb hsame => exact .ipv4 hlen.parses hle ha hb hsame
  | ipv6 hlen hle ha hb hsame => exact .ipv6 hlen.parses hle ha.weaken hb.weaken hsame

theorem InRange.wellFormed (h : InRange ip cidr) :
    (∃ net suffix, cidr.toList = net ++ '/' :: suffix ∧ '/' ∉ net ∧
      (suffix ≠ [] ∧ ∀ c ∈ suffix, c.isDigit = true) ∧ ¬Redundant net) ∧ ¬Redundant ip.toList := by
  unfold InRange at h
  generalize cidr.toList = text at h ⊢
  cases h with
  | ipv4 hlen hle ha hb hsame =>
    exact ⟨⟨_, _, rfl, (colon_notMem_of_isIPv4 hb).2, ⟨hlen.1, hlen.2.1⟩,
      not_redundant_of_isIPv4 hb⟩, not_redundant_of_isIPv4 ha⟩
  | ipv6 hlen hle ha hb hsame =>
    exact ⟨⟨_, _, rfl, (colon_mem_of_isIPv6 hb).2, ⟨hlen.1, hlen.2.1⟩, hb.not_redundant⟩,
      ha.not_redundant⟩

theorem split_unique {net net' suffix suffix' : List Char} (h : '/' ∉ net) (h' : '/' ∉ net')
    (heq : net ++ '/' :: suffix = net' ++ '/' :: suffix') : net = net' ∧ suffix = suffix' := by
  have hnet := (takeWhile_slash h suffix).1
  rw [heq, (takeWhile_slash h' suffix').1] at hnet
  subst hnet
  exact ⟨rfl, (List.cons.inj (append_cancel_left heq)).2⟩

theorem inRange_of_loosely (h : InRangeBy Parses 0 ip.toList cidr.toList)
    {net suffix : List Char} (hcidr : cidr.toList = net ++ '/' :: suffix) (hnet : '/' ∉ net)
    (hne : suffix ≠ []) (hdigits : ∀ c ∈ suffix, c.isDigit = true) (hplain : ¬Redundant net)
    (hip : ¬Redundant ip.toList) : InRange ip cidr := by
  have hnumber : ∀ n, Parses suffix n → IsNumber suffix n := by
    intro n hn
    have hlt : ∀ c ∈ suffix, digitValue c < 10 := fun c hc =>
      digitValue_lt_ten.2 (hdigits c hc)
    have hparse := parseInt_of_digits (by omega) hne hlt
    rw [Parses, hparse, some_inj] at hn
    exact ⟨hne, hdigits, by omega⟩
  unfold InRange
  rw [hcidr] at h ⊢
  generalize htext : net ++ '/' :: suffix = text at h
  cases h with
  | ipv4 hlen hle ha hb hsame =>
    obtain ⟨rfl, rfl⟩ := split_unique hnet (colon_notMem_of_isIPv4 hb).2 htext
    exact .ipv4 (hnumber _ hlen) hle ha hb hsame
  | ipv6 hlen hle ha hb hsame =>
    obtain ⟨rfl, rfl⟩ := split_unique hnet (colon_mem_of_isIPv6 hb).2 htext
    exact .ipv6 (hnumber _ hlen) hle (ha.strict hip) (hb.strict hplain) hsame

/-- The check is right for a text of a range if and only if the number behind the slash is all
digits and `::` stands for a group, or the address is not in the range even when neither is asked
for. -/
theorem isIpInCidr_exact_iff (ip cidr : String) :
    (isIpInCidr ip cidr = true ↔ InRange ip cidr) ↔ HoldsWhen ip cidr := by
  rw [isIpInCidr_eq_true_iff]
  constructor
  · intro h hloose
    exact (h.1 hloose).wellFormed
  · intro h
    refine ⟨fun hloose => ?_, InRange.loosely⟩
    obtain ⟨⟨net, suffix, hcidr, hnet, ⟨hne, hdigits⟩, hplain⟩, hip⟩ := h hloose
    exact inRange_of_loosely hloose hcidr hnet hne hdigits hplain hip

theorem cidr_letters_not_exact :
    isIpInCidr "10.1.2.3" "10.0.0.0/8abc" = true ∧ ¬InRange "10.1.2.3" "10.0.0.0/8abc" := by
  refine ⟨by decide +kernel, fun h => ?_⟩
  obtain ⟨⟨net, suffix, hcidr, hnet, ⟨-, hdigits⟩, -⟩, -⟩ := h.wellFormed
  have hsplit : ("10.0.0.0/8abc" : String).toList =
      ['1', '0', '.', '0', '.', '0', '.', '0'] ++ '/' :: ['8', 'a', 'b', 'c'] := by decide +kernel
  rw [hsplit] at hcidr
  obtain ⟨-, rfl⟩ := split_unique (by decide) hnet hcidr
  exact absurd (hdigits 'a' (by decide)) (by decide)

end Cidr

end EdgeBase
