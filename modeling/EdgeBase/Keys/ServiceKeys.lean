import EdgeBase.Keys.Cidr
import EdgeBase.Lib.Assoc
import EdgeBase.Validation

/-!
# Service keys

A caller with a service key passes the access rules.  The keys are entries of the configuration,
their secrets are texts of the configuration or of the environment.

* `validateServiceKeysConfig` : the entries that a configuration may have.
* `buildKeymap`, `validateScopedKey`, `validateConfiguredKey`, `validateKey` : the code.
* `validateKey_exact` : the texts that pass are those that an entry lets pass.
-/

namespace EdgeBase.ServiceKeys

open List Option

inductive Tier where
  | root
  | scoped
  deriving DecidableEq

inductive SecretSource where
  | dashboard
  | inline
  deriving DecidableEq

structure ServiceKeyConstraints where
  expiresAt : Option String := none
  env : Option (List String) := none
  ipCidr : Option (List String) := none
  tenant : Option String := none
  deriving DecidableEq

structure ServiceKeyEntry where
  kid : String
  tier : Tier
  scopes : List String := []
  constraints : Option ServiceKeyConstraints := none
  secretSource : SecretSource := .inline
  secretRef : Option String := none
  inlineSecret : Option String := none
  enabled : Option Bool := none
  deriving DecidableEq

structure ServiceKeysConfig where
  keys : List ServiceKeyEntry

structure ConstraintContext where
  env : Option String := none
  ip : Option String := none
  tenantId : Option String := none

abbrev Env := String → Option String

/-- The time of a request, and the times that texts stand for. -/
structure Clock where
  now : ℤ
  dateOf : String → Option ℤ

inductive KeyResult where
  | valid
  | invalid
  | missing
  deriving DecidableEq

/-! ### The configuration -/

/-- `SERVICE_KEY_KID_PATTERN`. -/
def isKidCharacter (c : Char) : Bool := c.isAlphanum || c = '-'

/-- A text of a configuration that must not be empty. -/
def isMissing (text : Option String) : Bool := text = none ∨ text = some ""

/-- The error of the entry at an index, if it has one; `seenKids` are those before it. -/
def entryError (seenKids : List String) (index : ℕ) (entry : ServiceKeyEntry) : Option String :=
  if entry.kid = "" then
    some ("serviceKeys.keys[" ++ toString index ++ "].kid is required and must be a string.")
  else if ¬entry.kid.toList.all isKidCharacter then
    some ("serviceKeys.keys[" ++ toString index ++ "].kid '" ++ entry.kid ++ "' is invalid. " ++
      "Use letters, numbers, and hyphens only. " ++
      "Underscore is reserved by the structured key format 'jb_\x7bkid\x7d_\x7bsecret\x7d'.")
  else if entry.kid ∈ seenKids then
    some ("Duplicate Service Key kid '" ++ entry.kid ++
      "'. Each serviceKeys.keys entry must be unique.")
  else if entry.secretSource = .dashboard ∧ isMissing entry.secretRef then
    some ("serviceKeys.keys[" ++ toString index ++ "] (" ++ entry.kid ++
      "): secretSource 'dashboard' requires a non-empty secretRef.")
  else if entry.secretSource = .inline ∧ isMissing entry.inlineSecret then
    some ("serviceKeys.keys[" ++ toString index ++ "] (" ++ entry.kid ++
      "): secretSource 'inline' requires a non-empty inlineSecret.")
  else none

def validateEntries (seenKids : List String) (index : ℕ) : List ServiceKeyEntry → Except String Unit
  | [] => .ok ()
  | entry :: entries =>
    match entryError seenKids index entry with
    | some error => .error error
    | none => validateEntries (entry.kid :: seenKids) (index + 1) entries

def validateServiceKeysConfig (serviceKeys : ServiceKeysConfig) : Except String Unit :=
  validateEntries [] 0 serviceKeys.keys

/-- The part of `defineConfig` that looks at the keys; there is nothing to see without a list. -/
def defineConfig (serviceKeys : Option ServiceKeysConfig) : Except String Unit :=
  match serviceKeys with
  | none => .ok ()
  | some serviceKeys => validateServiceKeysConfig serviceKeys

/-! ### Secrets -/

def encode (text : String) : List UInt8 := text.toList.flatMap String.utf8EncodeChar

/-- The loop over the bytes of the first text; the second one may end before it. -/
def differences : List UInt8 → List UInt8 → UInt8
  | [], _ => 0
  | a :: as, bs => (a ^^^ bs.headD 0) ||| differences as bs.tail

def timingSafeEqual (a b : String) : Bool :=
  if utf16Length a ≠ utf16Length b then false
  else differences (encode a) (encode b) = 0

def resolveSecret (env : Env) (entry : ServiceKeyEntry) : Option String :=
  if entry.enabled = some false then none
  else
    Option.filter (· ≠ "") <|
      match entry.secretSource with
      | .inline => entry.inlineSecret
      | .dashboard => (entry.secretRef.filter (· ≠ "")).bind env

structure ResolvedKeyEntry where
  entry : ServiceKeyEntry
  secret : String

/-- A `Map` by the ids of the keys, in the order of insertion. -/
abbrev Keymap := List (String × ResolvedKeyEntry)

def addEntry (env : Env) (keymap : Keymap) (entry : ServiceKeyEntry) : Keymap :=
  match resolveSecret env entry with
  | none => keymap
  | some secret => Assoc.set keymap entry.kid ⟨entry, secret⟩

def buildKeymap (serviceKeys : Option ServiceKeysConfig) (env : Env) : Option Keymap :=
  match serviceKeys with
  | none => none
  | some serviceKeys =>
    let keymap := serviceKeys.keys.foldl (addEntry env) []
    if keymap = [] then none else some keymap

/-! ### The checks -/

/-- `split(':')`. -/
def segments (scope : String) : List (List Char) := scope.toList.splitOn ':'

/-- The loop over the segments of two scopes of one length. -/
def matchesSegments : List (List Char) → List (List Char) → Bool
  | s :: scope, r :: required =>
    if s ≠ ['*'] ∧ s ≠ r then false else matchesSegments scope required
  | _, _ => true

def matchesScope (required : String) (entry : ServiceKeyEntry) : Bool :=
  entry.tier = .root || entry.scopes.any fun scope =>
    scope = "*" ||
      (segments scope).length = (segments required).length &&
        matchesSegments (segments scope) (segments required)

section Check

variable (clock : Clock)

/-- `if (text)`. -/
def truthy (text : Option String) : Option String := text.filter (· ≠ "")

def isExpired (c : ServiceKeyConstraints) : Bool :=
  match (truthy c.expiresAt).bind clock.dateOf with
  | none => false
  | some expiresAt => expiresAt ≤ clock.now

/-- A list that is not empty must have a member for the value of the context. -/
def fails (allowed : Option (List String)) (value : Option String)
    (accepts : String → String → Bool) : Bool :=
  match allowed with
  | none | some [] => false
  | some allowed =>
    match truthy value with
    | none => true
    | some value => !allowed.any (accepts value)

def checkConstraints (entry : ServiceKeyEntry) (ctx : ConstraintContext) : Bool :=
  match entry.constraints with
  | none => true
  | some c =>
    if isExpired clock c then false
    else if fails c.env ctx.env fun value allowed => allowed = value then false
    else if fails c.ipCidr ctx.ip Cidr.isIpInCidr then false
    else
      match truthy c.tenant with
      | none => true
      | some tenant => truthy ctx.tenantId = some tenant

/-- The id in `jb_…_…`. -/
def structuredKid (provided : String) : Option String :=
  match provided.toList with
  | 'j' :: 'b' :: '_' :: rest =>
    match rest.idxOf? '_' with
    | some (n + 1) => some (String.ofList (rest.take (n + 1)))
    | _ => none
  | _ => none

def validateRootKey (provided : String) (ctx : ConstraintContext) : Bool → Keymap → KeyResult
  | foundRootEntry, [] => if foundRootEntry then .invalid else .missing
  | foundRootEntry, (_, resolved) :: keymap =>
    if resolved.entry.tier ≠ .root then validateRootKey provided ctx foundRootEntry keymap
    else if timingSafeEqual provided resolved.secret then
      if ¬checkConstraints clock resolved.entry ctx then .invalid else .valid
    else validateRootKey provided ctx true keymap

def validateScopedKey (provided : Option String) (requiredScope : String) (keymap : Keymap)
    (ctx : ConstraintContext) : KeyResult :=
  match provided with
  | none => .missing
  | some provided =>
    if provided = "" then .invalid
    else if keymap = [] then .missing
    else
      match structuredKid provided with
      | some kid =>
        match keymap.lookup kid with
        | none => .invalid
        | some resolved =>
          if ¬timingSafeEqual provided resolved.secret then .invalid
          else if ¬checkConstraints clock resolved.entry ctx then .invalid
          else if ¬matchesScope requiredScope resolved.entry then .invalid
          else .valid
      | none => validateRootKey clock provided ctx false keymap

def validateAnyKey (provided : String) (ctx : ConstraintContext) : Keymap → KeyResult
  | [] => .invalid
  | (_, resolved) :: keymap =>
    if ¬timingSafeEqual provided resolved.secret then validateAnyKey provided ctx keymap
    else if ¬checkConstraints clock resolved.entry ctx then .invalid
    else .valid

def validateConfiguredKey (provided : Option String) (keymap : Option Keymap)
    (ctx : ConstraintContext) : KeyResult :=
  match provided with
  | none => .missing
  | some provided =>
    if provided = "" then .invalid
    else
      match keymap with
      | none | some [] => .missing
      | some keymap => validateAnyKey clock provided ctx keymap

/-- `keymapCache` is `none` where the code has `undefined`. -/
def validateKey (provided : Option String) (requiredScope : String)
    (serviceKeys : Option ServiceKeysConfig) (env : Env)
    (keymapCache : Option (Option Keymap) := none) (ctx : ConstraintContext := {}) :
    KeyResult × Option Keymap :=
  match keymapCache.getD (buildKeymap serviceKeys env) with
  | some keymap => (validateScopedKey clock provided requiredScope keymap ctx, some keymap)
  | none => (.missing, none)

end Check

/-! ## What is to hold -/

def HasSecret (env : Env) (entry : ServiceKeyEntry) (secret : String) : Prop :=
  entry.enabled ≠ some false ∧ secret ≠ "" ∧
    match entry.secretSource with
    | .inline => entry.inlineSecret = some secret
    | .dashboard => ∃ name ∈ entry.secretRef, name ≠ "" ∧ env name = some secret

/-- The constraints of the entry hold; one that is not set, or empty, always does. -/
def Holds (clock : Clock) (entry : ServiceKeyEntry) (ctx : ConstraintContext) : Prop :=
  ∀ c ∈ entry.constraints,
    (∀ text ∈ c.expiresAt, text ≠ "" → ∀ time ∈ clock.dateOf text, clock.now < time) ∧
    (∀ allowed ∈ c.env, allowed ≠ [] → ∃ value ∈ ctx.env, value ≠ "" ∧ value ∈ allowed) ∧
    (∀ ranges ∈ c.ipCidr, ranges ≠ [] →
      ∃ ip ∈ ctx.ip, ip ≠ "" ∧ ∃ range ∈ ranges, Cidr.isIpInCidr ip range = true) ∧
    (∀ tenant ∈ c.tenant, tenant ≠ "" → ctx.tenantId = some tenant)

/-- The entry covers the scope; a star stands for any segment. -/
def Covers (required : String) (entry : ServiceKeyEntry) : Prop :=
  entry.tier = .root ∨ ∃ scope ∈ entry.scopes, scope = "*" ∨
    List.Forall₂ (fun s r => s = ['*'] ∨ s = r) (segments scope) (segments required)

/-- The entry lets the text pass. -/
def Grants (clock : Clock) (env : Env) (text required : String) (ctx : ConstraintContext)
    (entry : ServiceKeyEntry) : Prop :=
  HasSecret env entry text ∧ Holds clock entry ctx ∧ Covers required entry

/-- The text is `jb_{kid}_{secret}`. -/
def Structured (text kid : String) : Prop :=
  kid ≠ "" ∧ '_' ∉ kid.toList ∧ ∃ secret, text = "jb_" ++ kid ++ "_" ++ secret

/-- A structured text is looked up by its id, any other one among the root entries. -/
def Reaches (text : String) (entry : ServiceKeyEntry) : Prop :=
  Structured text entry.kid ∨ entry.tier = .root ∧ ∀ kid, ¬Structured text kid

def entriesOf : Option ServiceKeysConfig → List ServiceKeyEntry
  | none => []
  | some serviceKeys => serviceKeys.keys

/-- Some entry lets the text pass, and the text reaches it. -/
def Accepted (clock : Clock) (env : Env) (entries : List ServiceKeyEntry)
    (provided : Option String) (required : String) (ctx : ConstraintContext) : Prop :=
  ∃ text ∈ provided, ∃ entry ∈ entries,
    Grants clock env text required ctx entry ∧ Reaches text entry

/-- The constraints of the entries with one secret hold together. -/
def Agree (clock : Clock) (env : Env) (entries : List ServiceKeyEntry) (text : String)
    (ctx : ConstraintContext) : Prop :=
  ∀ entry ∈ entries, HasSecret env entry text → ∀ entry' ∈ entries, HasSecret env entry' text →
    Holds clock entry ctx → Holds clock entry' ctx

/-! ## Secrets -/

theorem utf8EncodeChar_cancel {c d : Char} {cs ds : List UInt8}
    (h : String.utf8EncodeChar c ++ cs = String.utf8EncodeChar d ++ ds) : c = d := by
  have hbytes := congrArg List.toByteArray h
  rw [toByteArray_append, toByteArray_append] at hbytes
  have hdecode := congrArg (ByteArray.utf8DecodeChar? · 0) hbytes
  rw [ByteArray.utf8DecodeChar?_utf8EncodeChar_append,
    ByteArray.utf8DecodeChar?_utf8EncodeChar_append] at hdecode
  exact some.inj hdecode

theorem take_of_differences {as bs : List UInt8} (h : differences as bs = 0) {n : ℕ}
    (has : n ≤ as.length) (hbs : n ≤ bs.length) : as.take n = bs.take n := by
  induction as generalizing bs n with
  | nil =>
    obtain rfl := Nat.le_zero.1 has
    rfl
  | cons a as ih =>
    obtain ⟨hhead, htail⟩ := UInt8.or_eq_zero_iff.1 h
    cases n with
    | zero => rfl
    | succ n =>
      obtain ⟨b, bs, rfl⟩ := exists_cons_of_length_pos (Nat.zero_lt_of_lt hbs)
      rw [take_succ_cons, take_succ_cons, UInt8.xor_eq_zero_iff.1 hhead]
      exact congrArg (b :: ·) (ih htail (Nat.le_of_succ_le_succ has) (Nat.le_of_succ_le_succ hbs))

theorem differences_append {cs as bs : List UInt8} :
    differences (cs ++ as) (cs ++ bs) = differences as bs := by
  induction cs with
  | nil => rfl
  | cons c cs ih =>
    rw [cons_append, cons_append, differences, headD_cons, tail_cons, ih,
      UInt8.xor_self, UInt8.zero_or]

theorem eq_of_utf8EncodeChar_le {c d : Char}
    (h : String.utf8EncodeChar c <+: String.utf8EncodeChar d) : c = d := by
  obtain ⟨rest, hrest⟩ := h
  exact utf8EncodeChar_cancel (hrest.trans (append_nil _).symm)

theorem eq_of_differences_cons {c d : Char} {cs ds : List UInt8}
    (h : differences (String.utf8EncodeChar c ++ cs) (String.utf8EncodeChar d ++ ds) = 0) :
    c = d := by
  rcases Nat.le_total (String.utf8EncodeChar c).length (String.utf8EncodeChar d).length with
    hle | hle
  · have htake := take_of_differences h (n := (String.utf8EncodeChar c).length)
      (by rw [length_append]; omega) (by rw [length_append]; omega)
    rw [take_left, take_append_of_le_length hle] at htake
    exact eq_of_utf8EncodeChar_le (prefix_iff_eq_take.2 htake)
  · have htake := take_of_differences h (n := (String.utf8EncodeChar d).length)
      (by rw [length_append]; omega) (by rw [length_append]; omega)
    rw [take_left, take_append_of_le_length hle] at htake
    exact (eq_of_utf8EncodeChar_le (prefix_iff_eq_take.2 htake.symm)).symm

theorem eq_of_differences {cs ds : List Char}
    (hlength : (cs.map fun c => if c.toNat < 0x10000 then 1 else 2).sum =
      (ds.map fun c => if c.toNat < 0x10000 then 1 else 2).sum)
    (h : differences (cs.flatMap String.utf8EncodeChar) (ds.flatMap String.utf8EncodeChar) = 0) :
    cs = ds := by
  have hunit : ∀ c : Char, 0 < if c.toNat < 0x10000 then 1 else 2 := by
    intro c
    split_ifs <;> decide
  induction cs generalizing ds with
  | nil =>
    cases ds with
    | nil => rfl
    | cons d ds =>
      rw [map_cons, sum_cons] at hlength
      have := hunit d
      simp only [map_nil, sum_nil] at hlength
      omega
  | cons c cs ih =>
    cases ds with
    | nil =>
      rw [map_cons, sum_cons] at hlength
      have := hunit c
      simp only [map_nil, sum_nil] at hlength
      omega
    | cons d ds =>
      rw [flatMap_cons, flatMap_cons] at h
      obtain rfl := eq_of_differences_cons h
      rw [differences_append] at h
      rw [map_cons, map_cons, sum_cons, sum_cons] at hlength
      rw [ih (Nat.add_left_cancel hlength) h]

theorem timingSafeEqual_iff {a b : String} : timingSafeEqual a b = true ↔ a = b := by
  unfold timingSafeEqual
  constructor
  · intro h
    split_ifs at h with hlength
    exact String.toList_inj.1 (eq_of_differences (not_not.1 hlength) (of_decide_eq_true h))
  · rintro rfl
    rw [if_neg (not_not.2 rfl)]
    refine decide_eq_true ?_
    have hsame := @differences_append (encode a) [] []
    rw [append_nil] at hsame
    exact hsame

theorem resolveSecret_eq_some_iff {env : Env} {entry : ServiceKeyEntry} {secret : String} :
    resolveSecret env entry = some secret ↔ HasSecret env entry secret := by
  unfold resolveSecret HasSecret
  by_cases henabled : entry.enabled = some false
  · rw [if_pos henabled]
    exact iff_of_false (by simp) fun h => h.1 henabled
  · rw [if_neg henabled]
    cases entry.secretSource with
    | inline => simp [henabled, filter_eq_some_iff, and_comm]
    | dashboard =>
      simp only [filter_eq_some_iff, bind_eq_some_iff, decide_eq_true_eq, ne_eq,
        henabled, not_false_eq_true, true_and, mem_def]
      rw [and_comm]
      refine and_congr_right fun _ => exists_congr fun name => ?_
      rw [and_assoc, and_left_comm, and_comm (a := name ≠ ""), and_comm]

/-! ## The checks -/

theorem matchesSegments_iff {scope required : List (List Char)}
    (hlength : scope.length = required.length) : matchesSegments scope required = true ↔
      List.Forall₂ (fun s r => s = ['*'] ∨ s = r) scope required := by
  induction scope generalizing required with
  | nil =>
    obtain rfl := eq_nil_of_length_eq_zero hlength.symm
    exact iff_of_true rfl .nil
  | cons s scope ih =>
    obtain ⟨r, required, rfl⟩ := exists_cons_of_length_eq_add_one hlength.symm
    rw [matchesSegments, forall₂_cons]
    by_cases hs : s ≠ ['*'] ∧ s ≠ r
    · rw [if_pos hs]
      refine iff_of_false Bool.false_ne_true fun h => ?_
      exact h.1.elim hs.1 hs.2
    · rw [if_neg hs, ih (Nat.succ.inj hlength)]
      refine (and_iff_right ?_).symm
      exact or_iff_not_imp_left.2 fun hstar => not_not.1 fun hne => hs ⟨hstar, hne⟩

theorem matchesScope_iff {required : String} {entry : ServiceKeyEntry} :
    matchesScope required entry = true ↔ Covers required entry := by
  unfold matchesScope Covers
  rw [Bool.or_eq_true, decide_eq_true_eq, List.any_eq_true]
  refine or_congr_right (exists_congr fun scope => and_congr_right fun _ => ?_)
  rw [Bool.or_eq_true, decide_eq_true_eq, Bool.and_eq_true, decide_eq_true_eq]
  refine or_congr_right ⟨fun h => (matchesSegments_iff h.1).1 h.2, fun h => ?_⟩
  exact ⟨h.length_eq, (matchesSegments_iff h.length_eq).2 h⟩

section Check

variable {clock : Clock} {env : Env} {ctx : ConstraintContext}

theorem truthy_eq_some_iff {text : Option String} {s : String} :
    truthy text = some s ↔ text = some s ∧ s ≠ "" := by
  rw [truthy, filter_eq_some_iff, decide_eq_true_eq]

theorem isExpired_eq_false_iff {c : ServiceKeyConstraints} :
    isExpired clock c = false ↔
      ∀ text ∈ c.expiresAt, text ≠ "" → ∀ time ∈ clock.dateOf text, clock.now < time := by
  unfold isExpired
  cases htime : (truthy c.expiresAt).bind clock.dateOf with
  | none =>
    refine iff_of_true rfl fun text htext hne time hdate => ?_
    rw [truthy_eq_some_iff.2 ⟨htext, hne⟩, bind_some] at htime
    exact absurd (htime.symm.trans hdate) (by simp)
  | some expiresAt =>
    obtain ⟨text, htext, hdate⟩ := bind_eq_some_iff.1 htime
    obtain ⟨htext, hne⟩ := truthy_eq_some_iff.1 htext
    rw [decide_eq_false_iff_not, not_le]
    refine ⟨fun hlt text' htext' _ time' hdate' => ?_, fun h => h text htext hne _ hdate⟩
    obtain rfl := some.inj (htext.symm.trans htext')
    obtain rfl := some.inj (hdate.symm.trans hdate')
    exact hlt

theorem fails_eq_false_iff {allowed : Option (List String)} {value : Option String}
    {accepts : String → String → Bool} :
    fails allowed value accepts = false ↔
      ∀ members ∈ allowed, members ≠ [] →
        ∃ v ∈ value, v ≠ "" ∧ ∃ member ∈ members, accepts v member = true := by
  match allowed with
  | none => exact iff_of_true rfl fun members h => by cases h
  | some [] =>
    refine iff_of_true rfl fun members h hne => absurd ?_ hne
    exact (some.inj h).symm
  | some (member :: members) =>
    unfold fails
    cases hvalue : truthy value with
    | none =>
      refine iff_of_false (by simp) fun h => ?_
      obtain ⟨v, hv, hne, -⟩ := h _ rfl (cons_ne_nil _ _)
      exact absurd (hvalue.symm.trans (truthy_eq_some_iff.2 ⟨hv, hne⟩)) (by simp)
    | some v =>
      obtain ⟨hv, hne⟩ := truthy_eq_some_iff.1 hvalue
      dsimp only
      rw [Bool.not_eq_false', List.any_eq_true]
      constructor
      · intro h members' hmembers _
        obtain rfl := some.inj hmembers
        exact ⟨v, hv, hne, h⟩
      · intro h
        obtain ⟨v', hv', -, hmember⟩ := h _ rfl (cons_ne_nil _ _)
        obtain rfl := some.inj (hv.symm.trans hv')
        exact hmember

theorem checkConstraints_iff {entry : ServiceKeyEntry} :
    checkConstraints clock entry ctx = true ↔ Holds clock entry ctx := by
  unfold checkConstraints Holds
  cases entry.constraints with
  | none => exact iff_of_true rfl fun c h => by cases h
  | some c =>
    have htenant : (match truthy c.tenant with
        | none => true
        | some tenant => decide (truthy ctx.tenantId = some tenant)) = true ↔
        ∀ tenant ∈ c.tenant, tenant ≠ "" → ctx.tenantId = some tenant := by
      cases hset : truthy c.tenant with
      | none =>
        refine iff_of_true rfl fun tenant h hne => ?_
        exact absurd (hset.symm.trans (truthy_eq_some_iff.2 ⟨h, hne⟩)) (by simp)
      | some tenant =>
        obtain ⟨hset, hne⟩ := truthy_eq_some_iff.1 hset
        rw [decide_eq_true_eq, truthy_eq_some_iff]
        refine ⟨fun h tenant' htenant' _ => ?_, fun h => ⟨h tenant hset hne, hne⟩⟩
        rw [h.1, ← hset, htenant']
    dsimp only
    simp only [mem_some_iff, forall_eq']
    rw [← htenant, ← isExpired_eq_false_iff, ← fails_eq_false_iff]
    have henv : fails c.env ctx.env (fun value allowed => decide (allowed = value)) = false ↔
        ∀ allowed ∈ c.env, allowed ≠ [] → ∃ value ∈ ctx.env, value ≠ "" ∧ value ∈ allowed := by
      rw [fails_eq_false_iff]
      simp
    rw [← henv]
    split_ifs <;> simp_all

/-! ## Ids -/

theorem structuredKid_eq_some_iff {text kid : String} :
    structuredKid text = some kid ↔ Structured text kid := by
  have happend : ∀ secret : String, ("jb_" ++ kid ++ "_" ++ secret).toList =
      'j' :: 'b' :: '_' :: (kid.toList ++ '_' :: secret.toList) := by
    intro secret
    simp
  unfold structuredKid
  constructor
  · intro h
    split at h
    · next rest htext =>
      split at h
      · next n hidx =>
        obtain ⟨hlt, hat, hbefore⟩ := List.idxOf?_eq_some_iff.1 hidx
        cases h
        have htake : rest = rest.take (n + 1) ++ '_' :: rest.drop (n + 2) := by
          rw [← hat, getElem_cons_drop, take_append_drop]
        refine ⟨?_, ?_, String.ofList (rest.drop (n + 2)), ?_⟩
        · intro hempty
          have hnil := congrArg String.toList hempty
          rw [String.toList_ofList] at hnil
          obtain ⟨c, rest, rfl⟩ := exists_cons_of_length_pos (Nat.zero_lt_of_lt hlt)
          cases hnil
        · rw [String.toList_ofList]
          intro hmem
          obtain ⟨j, hj, hget⟩ := mem_iff_getElem.1 hmem
          rw [getElem_take] at hget
          exact hbefore j (lt_of_lt_of_le hj (length_take_le _ _)) hget
        · rw [← String.toList_inj, happend, htext, String.toList_ofList, String.toList_ofList]
          exact congrArg (fun cs => 'j' :: 'b' :: '_' :: cs) htake
      · cases h
    · cases h
  · rintro ⟨hne, hnotMem, secret, rfl⟩
    rw [happend]
    obtain ⟨n, hlength⟩ : ∃ n, kid.toList.length = n + 1 := by
      refine Nat.exists_eq_add_one.2 (length_pos_iff.2 fun hnil => hne ?_)
      exact String.toList_inj.1 hnil
    have hidx : (kid.toList ++ '_' :: secret.toList).idxOf? '_' = some (n + 1) := by
      refine List.idxOf?_eq_some_iff.2 ⟨?_, ?_, ?_⟩
      · rw [length_append, length_cons]
        omega
      · rw [getElem_append_right hlength.le]
        simp [hlength]
      · intro j hj heq
        rw [getElem_append_left (hlength.symm ▸ hj)] at heq
        exact hnotMem (heq ▸ getElem_mem _)
    change (match (kid.toList ++ '_' :: secret.toList).idxOf? '_' with
      | some (n + 1) => some (String.ofList ((kid.toList ++ '_' :: secret.toList).take (n + 1)))
      | _ => none) = some kid
    rw [hidx]
    dsimp only
    rw [← hlength, take_left, String.ofList_toList]

theorem structuredKid_eq_none_iff {text : String} :
    structuredKid text = none ↔ ∀ kid, ¬Structured text kid := by
  rw [eq_none_iff_forall_ne_some]
  exact forall_congr' fun kid => not_congr structuredKid_eq_some_iff

theorem of_validateEntries {seenKids : List String} {index : ℕ} {entries : List ServiceKeyEntry}
    (h : validateEntries seenKids index entries = .ok ()) :
    (∀ entry ∈ entries, entry.kid ≠ "" ∧ '_' ∉ entry.kid.toList ∧ entry.kid ∉ seenKids) ∧
      (entries.map (·.kid)).Nodup := by
  induction entries generalizing seenKids index with
  | nil => exact ⟨forall_mem_nil _, nodup_nil⟩
  | cons entry entries ih =>
    unfold validateEntries at h
    cases herror : entryError seenKids index entry with
    | some error => rw [herror] at h; cases h
    | none =>
      rw [herror] at h
      obtain ⟨hentries, hnodup⟩ := ih h
      unfold entryError at herror
      split_ifs at herror with hkid hcharacters hseen
      refine ⟨forall_mem_cons.2 ⟨⟨hkid, ?_, hseen⟩, fun other hother => ?_⟩,
        nodup_cons.2 ⟨?_, hnodup⟩⟩
      · intro hmem
        have hcharacter := List.all_eq_true.1 hcharacters _ hmem
        revert hcharacter
        decide
      · obtain ⟨hne, hcharacter, hnew⟩ := hentries other hother
        exact ⟨hne, hcharacter, fun hmem => hnew (mem_cons_of_mem _ hmem)⟩
      · intro hmem
        obtain ⟨other, hother, hsame⟩ := List.mem_map.1 hmem
        exact (hentries other hother).2.2 (hsame ▸ mem_cons_self)

/-! ## Keymaps -/

def resolvedOf (env : Env) (entry : ServiceKeyEntry) : Option (String × ResolvedKeyEntry) :=
  (resolveSecret env entry).map fun secret => (entry.kid, ⟨entry, secret⟩)

theorem foldl_addEntry {entries : List ServiceKeyEntry} {keymap : Keymap}
    (hnodup : (entries.map (·.kid)).Nodup)
    (hnew : ∀ entry ∈ entries, keymap.lookup entry.kid = none) :
    entries.foldl (addEntry env) keymap = keymap ++ entries.filterMap (resolvedOf env) := by
  induction entries generalizing keymap with
  | nil => exact (append_nil _).symm
  | cons entry entries ih =>
    obtain ⟨hkid, hnodup⟩ := nodup_cons.1 hnodup
    have hlater := fun other hother => hnew other (mem_cons_of_mem _ hother)
    rw [foldl_cons, addEntry]
    cases hsecret : resolveSecret env entry with
    | none =>
      have hnone : resolvedOf env entry = none := by rw [resolvedOf, hsecret, map_none]
      rw [filterMap_cons_none hnone]
      exact ih hnodup hlater
    | some secret =>
      have hsome : resolvedOf env entry = some (entry.kid, ⟨entry, secret⟩) := by
        rw [resolvedOf, hsecret, map_some]
      rw [filterMap_cons_some hsome]
      dsimp only
      rw [Assoc.set_of_lookup_eq_none (hnew entry mem_cons_self), ih hnodup,
        append_assoc, singleton_append]
      intro other hother
      have hne : (other.kid == entry.kid) = false :=
        beq_eq_false_iff_ne.2 fun heq => hkid (List.mem_map.2 ⟨other, hother, heq⟩)
      rw [lookup_append, hlater other hother, none_or, lookup_cons, hne]
      rfl

theorem nodup_foldl_addEntry {entries : List ServiceKeyEntry} {keymap : Keymap}
    (h : (keymap.map Prod.fst).Nodup) :
    ((entries.foldl (addEntry env) keymap).map Prod.fst).Nodup := by
  induction entries generalizing keymap with
  | nil => exact h
  | cons entry entries ih =>
    refine ih ?_
    unfold addEntry
    cases resolveSecret env entry with
    | none => exact h
    | some secret => exact Assoc.nodup_keys_set h _ _

def keymapOf (env : Env) (entries : List ServiceKeyEntry) : Keymap :=
  entries.foldl (addEntry env) []

theorem mem_keymapOf {entries : List ServiceKeyEntry} (hnodup : (entries.map (·.kid)).Nodup)
    {kid : String} {resolved : ResolvedKeyEntry} : (kid, resolved) ∈ keymapOf env entries ↔
      resolved.entry ∈ entries ∧ HasSecret env resolved.entry resolved.secret ∧
        kid = resolved.entry.kid := by
  rw [keymapOf, foldl_addEntry hnodup fun _ _ => rfl, nil_append, mem_filterMap]
  constructor
  · rintro ⟨entry, hentry, hresolved⟩
    obtain ⟨secret, hsecret, heq⟩ := map_eq_some_iff.1 hresolved
    cases heq
    exact ⟨hentry, resolveSecret_eq_some_iff.1 hsecret, rfl⟩
  · rintro ⟨hentry, hsecret, rfl⟩
    refine ⟨resolved.entry, hentry, ?_⟩
    rw [resolvedOf, resolveSecret_eq_some_iff.2 hsecret, map_some]

theorem lookup_keymapOf {entries : List ServiceKeyEntry} (hnodup : (entries.map (·.kid)).Nodup)
    {kid : String} {resolved : ResolvedKeyEntry} :
    (keymapOf env entries).lookup kid = some resolved ↔
      resolved.entry ∈ entries ∧ HasSecret env resolved.entry resolved.secret ∧
        kid = resolved.entry.kid := by
  rw [← mem_keymapOf hnodup]
  have hkeys : ((keymapOf env entries).map Prod.fst).Nodup :=
    @nodup_foldl_addEntry env entries [] nodup_nil
  exact ⟨Assoc.mem_of_lookup, Assoc.lookup_of_mem hkeys⟩

/-! ## The loops -/

section Loops

variable {text required : String} {keymap : Keymap}

theorem of_validateRootKey {found : Bool}
    (h : validateRootKey clock text ctx found keymap = .valid) :
    ∃ kid resolved, (kid, resolved) ∈ keymap ∧ resolved.entry.tier = .root ∧
      text = resolved.secret ∧ Holds clock resolved.entry ctx := by
  induction keymap generalizing found with
  | nil =>
    unfold validateRootKey at h
    split_ifs at h
  | cons b keymap ih =>
    obtain ⟨kid, resolved⟩ := b
    unfold validateRootKey at h
    split_ifs at h with htier hequal hholds
    · obtain ⟨kid', resolved', hmem, hrest⟩ := ih h
      exact ⟨kid', resolved', mem_cons_of_mem _ hmem, hrest⟩
    · exact ⟨kid, resolved, mem_cons_self, not_not.1 htier, timingSafeEqual_iff.1 hequal,
        checkConstraints_iff.1 hholds⟩
    · obtain ⟨kid', resolved', hmem, hrest⟩ := ih h
      exact ⟨kid', resolved', mem_cons_of_mem _ hmem, hrest⟩

theorem validateRootKey_eq_valid {found : Bool} {kid : String} {resolved : ResolvedKeyEntry}
    (hmem : (kid, resolved) ∈ keymap) (htier : resolved.entry.tier = .root)
    (hsecret : text = resolved.secret)
    (hholds : ∀ b ∈ keymap, text = b.2.secret → Holds clock b.2.entry ctx) :
    validateRootKey clock text ctx found keymap = .valid := by
  induction keymap generalizing found with
  | nil => cases hmem
  | cons b keymap ih =>
    obtain ⟨kid', resolved'⟩ := b
    have hlater := fun b hb => hholds b (mem_cons_of_mem _ hb)
    unfold validateRootKey
    split_ifs with htier' hequal hpasses
    · rcases mem_cons.1 hmem with heq | hmem
      · cases heq
        exact absurd htier htier'
      · exact ih hmem hlater
    · rfl
    · exact absurd (checkConstraints_iff.2
        (hholds _ mem_cons_self (timingSafeEqual_iff.1 hequal))) hpasses
    · rcases mem_cons.1 hmem with heq | hmem
      · cases heq
        exact absurd (timingSafeEqual_iff.2 hsecret) hequal
      · exact ih hmem hlater

theorem validateRootKey_eq_missing_iff {found : Bool} :
    validateRootKey clock text ctx found keymap = .missing ↔
      found = false ∧ ∀ b ∈ keymap, b.2.entry.tier ≠ .root := by
  induction keymap generalizing found with
  | nil =>
    unfold validateRootKey
    cases found <;> simp
  | cons b keymap ih =>
    obtain ⟨kid, resolved⟩ := b
    unfold validateRootKey
    rw [forall_mem_cons]
    split_ifs with htier hequal hpasses
    · rw [ih, and_iff_right htier]
    · exact iff_of_false (by simp) fun h => htier h.2.1
    · exact iff_of_false (by simp) fun h => htier h.2.1
    · rw [ih]
      exact iff_of_false (fun h => Bool.false_ne_true h.1.symm) fun h => htier h.2.1

theorem validateAnyKey_eq_valid {kid : String} {resolved : ResolvedKeyEntry}
    (hmem : (kid, resolved) ∈ keymap) (hsecret : text = resolved.secret)
    (hholds : ∀ b ∈ keymap, text = b.2.secret → Holds clock b.2.entry ctx) :
    validateAnyKey clock text ctx keymap = .valid := by
  induction keymap with
  | nil => cases hmem
  | cons b keymap ih =>
    obtain ⟨kid', resolved'⟩ := b
    unfold validateAnyKey
    split_ifs with hequal hpasses
    · rfl
    · exact absurd (checkConstraints_iff.2
        (hholds _ mem_cons_self (timingSafeEqual_iff.1 hequal))) hpasses
    · rcases mem_cons.1 hmem with heq | hmem
      · cases heq
        exact absurd (timingSafeEqual_iff.2 hsecret) hequal
      · exact ih hmem fun b hb => hholds b (mem_cons_of_mem _ hb)

end Loops

/-! ## The answers -/

section Answers

variable {provided : Option String} {required : String} {entries : List ServiceKeyEntry}

theorem accepted_of_valid (hnodup : (entries.map (·.kid)).Nodup)
    (h : validateScopedKey clock provided required (keymapOf env entries) ctx = .valid) :
    Accepted clock env entries provided required ctx := by
  unfold validateScopedKey at h
  cases provided with
  | none => cases h
  | some text =>
    refine ⟨text, rfl, ?_⟩
    dsimp only at h
    split_ifs at h
    split at h
    · next kid hkid =>
      split at h
      · cases h
      · next resolved hlookup =>
        split_ifs at h with hequal hholds hscope
        obtain ⟨hentry, hsecret, rfl⟩ := (lookup_keymapOf hnodup).1 hlookup
        rw [← timingSafeEqual_iff.1 hequal] at hsecret
        exact ⟨resolved.entry, hentry,
          ⟨hsecret, checkConstraints_iff.1 hholds, matchesScope_iff.1 hscope⟩,
          .inl (structuredKid_eq_some_iff.1 hkid)⟩
    · next hkid =>
      obtain ⟨kid, resolved, hmem, htier, hequal, hholds⟩ := of_validateRootKey h
      obtain ⟨hentry, hsecret, rfl⟩ := (mem_keymapOf hnodup).1 hmem
      rw [← hequal] at hsecret
      exact ⟨resolved.entry, hentry, ⟨hsecret, hholds, .inl htier⟩,
        .inr ⟨htier, structuredKid_eq_none_iff.1 hkid⟩⟩

theorem holds_of_agree (hnodup : (entries.map (·.kid)).Nodup) {text : String}
    (hagree : Agree clock env entries text ctx) {entry : ServiceKeyEntry} (hentry : entry ∈ entries)
    (hsecret : HasSecret env entry text) (hholds : Holds clock entry ctx) :
    ∀ b ∈ keymapOf env entries, text = b.2.secret → Holds clock b.2.entry ctx := by
  rintro ⟨kid, resolved⟩ hmem hequal
  obtain ⟨hentry', hsecret', -⟩ := (mem_keymapOf hnodup).1 hmem
  rw [← hequal] at hsecret'
  exact hagree entry hentry hsecret _ hentry' hsecret' hholds

theorem valid_of_accepted (hnodup : (entries.map (·.kid)).Nodup)
    (hagree : ∀ text ∈ provided, Agree clock env entries text ctx)
    (h : Accepted clock env entries provided required ctx) : keymapOf env entries ≠ [] ∧
      validateScopedKey clock provided required (keymapOf env entries) ctx = .valid := by
  obtain ⟨text, rfl, entry, hentry, ⟨hsecret, hholds, hcovers⟩, hreaches⟩ := h
  have hmem : (entry.kid, ⟨entry, text⟩) ∈ keymapOf env entries :=
    (mem_keymapOf hnodup).2 ⟨hentry, hsecret, rfl⟩
  have hne : keymapOf env entries ≠ [] := ne_nil_of_mem hmem
  refine ⟨hne, ?_⟩
  unfold validateScopedKey
  dsimp only
  rw [if_neg hsecret.2.1, if_neg hne]
  rcases hreaches with hstructured | ⟨htier, hplain⟩
  · have hlookup : (keymapOf env entries).lookup entry.kid = some ⟨entry, text⟩ :=
      (lookup_keymapOf hnodup).2 ⟨hentry, hsecret, rfl⟩
    rw [structuredKid_eq_some_iff.2 hstructured]
    dsimp only
    rw [hlookup]
    dsimp only
    rw [if_neg (not_not.2 (timingSafeEqual_iff.2 rfl)),
      if_neg (not_not.2 (checkConstraints_iff.2 hholds)),
      if_neg (not_not.2 (matchesScope_iff.2 hcovers))]
  · rw [structuredKid_eq_none_iff.2 hplain]
    exact validateRootKey_eq_valid hmem htier rfl
      (holds_of_agree hnodup (hagree text rfl) hentry hsecret hholds)

/-- The answer `missing` depends on the text and on what entries there are. -/
theorem validateScopedKey_eq_missing_iff {keymap : Keymap} (hne : keymap ≠ []) :
    validateScopedKey clock provided required keymap ctx = .missing ↔
      ∀ text ∈ provided, text ≠ "" ∧ structuredKid text = none ∧
        ∀ b ∈ keymap, b.2.entry.tier ≠ .root := by
  unfold validateScopedKey
  cases provided with
  | none => exact iff_of_true rfl fun text h => by cases h
  | some text =>
    simp only [mem_some_iff, forall_eq']
    rw [if_neg hne]
    by_cases hempty : text = ""
    · rw [if_pos hempty]
      exact iff_of_false (by simp) fun h => h.1 hempty
    · rw [if_neg hempty, and_iff_right hempty]
      cases hkid : structuredKid text with
      | none =>
        dsimp only
        rw [validateRootKey_eq_missing_iff, and_iff_right rfl, and_iff_right rfl]
      | some kid =>
        refine iff_of_false ?_ fun h => by cases h.1
        dsimp only
        cases keymap.lookup kid with
        | none => simp
        | some resolved =>
          dsimp only
          split_ifs <;> simp

end Answers

theorem buildKeymap_eq (serviceKeys : Option ServiceKeysConfig) : buildKeymap serviceKeys env =
      if keymapOf env (entriesOf serviceKeys) = [] then none
      else some (keymapOf env (entriesOf serviceKeys)) := by
  cases serviceKeys with
  | none => rfl
  | some serviceKeys => rfl

theorem validateKey_fst {provided : Option String} {required : String}
    {serviceKeys : Option ServiceKeysConfig} {keymapCache : Option (Option Keymap)}
    (hcache : ∀ keymap ∈ keymapCache, keymap = buildKeymap serviceKeys env) :
    (validateKey clock provided required serviceKeys env keymapCache ctx).1 =
      if keymapOf env (entriesOf serviceKeys) = [] then .missing
      else
        validateScopedKey clock provided required (keymapOf env (entriesOf serviceKeys)) ctx := by
  have hkeymap : keymapCache.getD (buildKeymap serviceKeys env) = buildKeymap serviceKeys env := by
    cases keymapCache with
    | none => rfl
    | some keymap => exact hcache keymap rfl
  unfold validateKey
  rw [hkeymap, buildKeymap_eq]
  split_ifs <;> rfl

end Check

/-! ## Every text -/

theorem nodup_of_defineConfig {serviceKeys : Option ServiceKeysConfig}
    (h : defineConfig serviceKeys = .ok ()) :
    (∀ entry ∈ entriesOf serviceKeys, entry.kid ≠ "" ∧ '_' ∉ entry.kid.toList) ∧
      ((entriesOf serviceKeys).map (·.kid)).Nodup := by
  cases serviceKeys with
  | none => exact ⟨forall_mem_nil _, nodup_nil⟩
  | some serviceKeys =>
    obtain ⟨hentries, hnodup⟩ := of_validateEntries h
    exact ⟨fun entry hentry => ⟨(hentries entry hentry).1, (hentries entry hentry).2.1⟩, hnodup⟩

section

variable {clock : Clock} {env : Env} {ctx : ConstraintContext} {provided : Option String}
  {required : String}

theorem eq_of_valid_missing {r r' : KeyResult} (hvalid : r = .valid ↔ r' = .valid)
    (hmissing : r = .missing ↔ r' = .missing) : r = r' := by
  cases r <;> cases r' <;> simp_all

theorem validateScopedKey_of_perm {entries entries' : List ServiceKeyEntry}
    (hnodup : (entries.map (·.kid)).Nodup) (hperm : entries'.Perm entries)
    (hagree : ∀ text ∈ provided, Agree clock env entries text ctx) :
    (if keymapOf env entries' = [] then .missing
      else validateScopedKey clock provided required (keymapOf env entries') ctx) =
    if keymapOf env entries = [] then .missing
      else validateScopedKey clock provided required (keymapOf env entries) ctx := by
  have hnodup' : (entries'.map (·.kid)).Nodup := ((hperm.map _).nodup_iff).2 hnodup
  have hmem : ∀ b, b ∈ keymapOf env entries' ↔ b ∈ keymapOf env entries := by
    rintro ⟨kid, resolved⟩
    rw [mem_keymapOf hnodup', mem_keymapOf hnodup, hperm.mem_iff]
  have hagree' : ∀ text ∈ provided, Agree clock env entries' text ctx :=
    fun text htext entry hentry hsecret entry' hentry' hsecret' =>
      hagree text htext entry (hperm.mem_iff.1 hentry) hsecret entry' (hperm.mem_iff.1 hentry')
        hsecret'
  have haccepted : Accepted clock env entries' provided required ctx ↔
      Accepted clock env entries provided required ctx :=
    exists_congr fun text => and_congr_right fun _ => exists_congr fun entry =>
      and_congr_left fun _ => hperm.mem_iff
  have hempty : keymapOf env entries' = [] ↔ keymapOf env entries = [] := by
    rw [eq_nil_iff_forall_not_mem, eq_nil_iff_forall_not_mem]
    exact forall_congr' fun b => not_congr (hmem b)
  by_cases hnil : keymapOf env entries = []
  · rw [if_pos hnil, if_pos (hempty.2 hnil)]
  · have hnil' := fun h => hnil (hempty.1 h)
    rw [if_neg hnil, if_neg hnil']
    refine eq_of_valid_missing ⟨fun h => ?_, fun h => ?_⟩ ?_
    · exact (valid_of_accepted hnodup hagree (haccepted.1 (accepted_of_valid hnodup' h))).2
    · exact (valid_of_accepted hnodup' hagree' (haccepted.2 (accepted_of_valid hnodup h))).2
    · rw [validateScopedKey_eq_missing_iff hnil', validateScopedKey_eq_missing_iff hnil]
      refine forall₂_congr fun text _ => and_congr_right fun _ => and_congr_right fun _ => ?_
      exact forall_congr' fun b => imp_congr_left (hmem b)

theorem validateConfiguredKey_of_accepted {serviceKeys : Option ServiceKeysConfig}
    (hnodup : ((entriesOf serviceKeys).map (·.kid)).Nodup)
    (hagree : ∀ text ∈ provided, Agree clock env (entriesOf serviceKeys) text ctx)
    (h : Accepted clock env (entriesOf serviceKeys) provided required ctx) :
    validateConfiguredKey clock provided (buildKeymap serviceKeys env) ctx = .valid := by
  obtain ⟨text, rfl, entry, hentry, ⟨hsecret, hholds, -⟩, -⟩ := h
  have hmem : (entry.kid, ⟨entry, text⟩) ∈ keymapOf env (entriesOf serviceKeys) :=
    (mem_keymapOf hnodup).2 ⟨hentry, hsecret, rfl⟩
  rw [buildKeymap_eq, if_neg (ne_nil_of_mem hmem)]
  unfold validateConfiguredKey
  dsimp only
  rw [if_neg hsecret.2.1]
  split
  · next h => cases h
  · next h => rw [some.inj h] at hmem; cases hmem
  · next keymap _ h =>
    cases h
    exact validateAnyKey_eq_valid hmem rfl
      (holds_of_agree hnodup (hagree text rfl) hentry hsecret hholds)

/-- What the keys of an accepted configuration let pass.  The texts that start with the id of an
entry reach it; a text that passes is let pass by an entry it reaches; and where the entries with
one secret agree, all such texts pass, whatever the order of the entries. -/
theorem validateKey_exact (clock : Clock) (env : Env) (provided : Option String)
    (requiredScope : String) (ctx : ConstraintContext) {serviceKeys : Option ServiceKeysConfig}
    {keymapCache : Option (Option Keymap)} (hconfig : defineConfig serviceKeys = .ok ())
    (hcache : ∀ keymap ∈ keymapCache, keymap = buildKeymap serviceKeys env) :
    (∀ entry ∈ entriesOf serviceKeys, ∀ secret,
      Reaches ("jb_" ++ entry.kid ++ "_" ++ secret) entry) ∧
    ((validateKey clock provided requiredScope serviceKeys env keymapCache ctx).1 = .valid →
      Accepted clock env (entriesOf serviceKeys) provided requiredScope ctx) ∧
    ((∀ text ∈ provided, Agree clock env (entriesOf serviceKeys) text ctx) →
      (Accepted clock env (entriesOf serviceKeys) provided requiredScope ctx →
        (validateKey clock provided requiredScope serviceKeys env keymapCache ctx).1 = .valid) ∧
      ((validateKey clock provided requiredScope serviceKeys env keymapCache ctx).1 = .valid →
        validateConfiguredKey clock provided (buildKeymap serviceKeys env) ctx = .valid) ∧
      ∀ serviceKeys', (entriesOf serviceKeys').Perm (entriesOf serviceKeys) →
        (validateKey clock provided requiredScope serviceKeys' env none ctx).1 =
          (validateKey clock provided requiredScope serviceKeys env keymapCache ctx).1) := by
  obtain ⟨hkids, hnodup⟩ := nodup_of_defineConfig hconfig
  have hsound : (validateKey clock provided requiredScope serviceKeys env keymapCache ctx).1 =
      .valid → Accepted clock env (entriesOf serviceKeys) provided requiredScope ctx := by
    intro h
    rw [validateKey_fst hcache] at h
    split_ifs at h
    exact accepted_of_valid hnodup h
  refine ⟨fun entry hentry secret => ?_, hsound, fun hagree => ⟨fun h => ?_, fun h => ?_, ?_⟩⟩
  · exact .inl ⟨(hkids entry hentry).1, (hkids entry hentry).2, secret, rfl⟩
  · obtain ⟨hne, hvalid⟩ := valid_of_accepted hnodup hagree h
    rw [validateKey_fst hcache, if_neg hne, hvalid]
  · exact validateConfiguredKey_of_accepted hnodup hagree (hsound h)
  · intro serviceKeys' hperm
    have hnone : ∀ keymap ∈ (none : Option (Option Keymap)),
        keymap = buildKeymap serviceKeys' env := fun _ h => by cases h
    rw [validateKey_fst hnone, validateKey_fst hcache]
    exact validateScopedKey_of_perm hnodup hperm hagree

end

/-! ### A plain secret of a scoped key -/

def testClock : Clock := ⟨0, fun _ => none⟩

def reporting : ServiceKeyEntry where
  kid := "reporting"
  tier := .scoped
  scopes := ["db:table:*:read"]
  inlineSecret := some "jb_reporting_4f2a"

def backend : ServiceKeyEntry where
  kid := "backend"
  tier := .root
  constraints := some { env := some ["prod"] }
  inlineSecret := some "plain"

theorem reporting_exact :
    (validateKey testClock (some "jb_reporting_4f2a") "db:table:posts:read"
      (some ⟨[backend, reporting]⟩) (fun _ => none)).1 = .valid := by
  have hagree : ∀ text ∈ some "jb_reporting_4f2a",
      Agree testClock (fun _ => none) [backend, reporting] text {} := by
    intro text htext entry hentry hsecret entry' hentry' hsecret' hholds
    obtain rfl := some.inj htext
    have hreporting : ∀ e ∈ [backend, reporting],
        HasSecret (fun _ => none) e "jb_reporting_4f2a" → e = reporting := by
      refine forall_mem_cons.2 ⟨fun h => ?_, forall_mem_singleton.2 fun _ => rfl⟩
      exact absurd (some.inj h.2.2) (by decide)
    rw [hreporting entry' hentry' hsecret', ← hreporting entry hentry hsecret]
    exact hholds
  have hconfig : defineConfig (some ⟨[backend, reporting]⟩) = .ok () := by decide
  have hcache : ∀ keymap ∈ (none : Option (Option Keymap)),
      keymap = buildKeymap (some ⟨[backend, reporting]⟩) fun _ => none := fun _ h => by cases h
  have hexact := validateKey_exact testClock (fun _ => none) (some "jb_reporting_4f2a")
    "db:table:posts:read" {} hconfig hcache
  have hgrants : Grants testClock (fun _ => none) "jb_reporting_4f2a" "db:table:posts:read" {}
      reporting := by
    have hholds : Holds testClock reporting {} := fun c h => by cases h
    refine ⟨⟨by decide, by decide, rfl⟩, hholds, .inr ?_⟩
    refine ⟨_, mem_singleton_self _, .inr ?_⟩
    exact (matchesSegments_iff (by decide)).1 (by decide)
  refine (hexact.2.2 hagree).1 ⟨_, rfl, reporting, ?_, hgrants, ?_⟩
  · exact mem_cons_of_mem _ (mem_singleton_self _)
  · exact .inl ⟨by decide, by decide, "4f2a", by decide⟩

def plainScoped : ServiceKeyEntry where
  kid := "reporting"
  tier := .scoped
  scopes := ["*"]
  inlineSecret := some "plain"

/-- Its constraints and scopes would let the secret pass, but it is not looked up. -/
theorem plainScoped_not_valid :
    ¬((validateKey testClock (some "plain") "db:table:posts:read" (some ⟨[plainScoped]⟩)
        (fun _ => none)).1 = .valid ↔
      ∃ entry ∈ [plainScoped],
        Grants testClock (fun _ => none) "plain" "db:table:posts:read" {} entry) := by
  intro h
  have hmissing : (validateKey testClock (some "plain") "db:table:posts:read"
      (some ⟨[plainScoped]⟩) (fun _ => none)).1 = .missing := by decide
  have hgrants : Grants testClock (fun _ => none) "plain" "db:table:posts:read" {}
      plainScoped := by
    have hholds : Holds testClock plainScoped {} := fun c h => by cases h
    refine ⟨⟨by decide, by decide, rfl⟩, hholds, .inr ?_⟩
    exact ⟨"*", mem_singleton_self _, .inl rfl⟩
  have hvalid := h.2 ⟨plainScoped, mem_singleton_self _, hgrants⟩
  rw [hmissing] at hvalid
  cases hvalid

end EdgeBase.ServiceKeys
