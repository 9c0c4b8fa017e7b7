import EdgeBase.Lib.Assoc
import EdgeBase.Lib.Programs
import Mathlib.Data.Rat.Defs

/-!
# Signed upload grants

A signed upload URL may be used once.  What was used leaves a marker in the bucket, under a key that
begins with the expiry of the grant; a bucket writes on condition, and every write has an ETag of
its own.

* `SignedUploadGrantClaims`, `signedUploadGrantMarkerKey` : a grant and the key of its marker.
* `consumeSignedUploadGrant`, `cleanupExpiredSignedUploadGrants` : an upload, and the cron job that
  deletes expired markers.
* `claimSignedMultipartUploadGrant`, `bindSignedMultipartUploadGrant`,
  `reserveSignedMultipartUploadBytes`, `terminateSignedMultipartUploadGrant` : an upload in parts.
-/

namespace EdgeBase.Storage

def SIGNED_MULTIPART_RESERVATION_ATTEMPTS : ℕ := 64

def SIGNED_UPLOAD_GRANT_PREFIX : String := "__edgebase_internal__/signed-upload-grants/"

structure SignedUploadGrantClaims where
  expiresAt : ℚ
  grantId : Option String
  maxBytes : Option ℤ := none
  deriving DecidableEq

/-- `grantError` with its message. -/
inductive GrantError where
  /-- Signed upload token does not contain a single-use grant. -/
  | noGrant
  /-- Signed upload token is invalid or expired. -/
  | expired
  /-- Signed upload token contains an invalid single-use grant. -/
  | invalidGrant
  /-- Signed upload token has already been used or revoked. -/
  | used
  /-- Signed multipart upload is missing its grant claim or upload ID. -/
  | missingClaim
  /-- Signed multipart upload contains an invalid maximum file size. -/
  | invalidMaximum
  /-- Signed upload token grant changed or was revoked before multipart binding completed. -/
  | changed
  /-- Signed multipart upload contains invalid byte reservation metadata. -/
  | invalidReservation
  /-- Signed upload token does not authorize this multipart upload. -/
  | notAuthorized
  /-- Signed multipart upload byte reservation state is invalid. -/
  | invalidState
  /-- Signed multipart upload byte reservation could not be established safely. -/
  | notEstablished
  deriving DecidableEq

structure MarkerKey where
  expiresAt : ℤ
  grantId : String
  deriving DecidableEq

/-- `padStart` with zeros. -/
def padStart (n : ℕ) (text : String) : String :=
  String.ofList (List.replicate (n - text.length) '0') ++ text

def MarkerKey.text (key : MarkerKey) : String :=
  SIGNED_UPLOAD_GRANT_PREFIX ++ padStart 13 (toString key.expiresAt) ++ "/" ++ key.grantId

/-- The expiry that is read from a key; padded, a negative number is none. -/
def MarkerKey.encodedExpiry (key : MarkerKey) : Option ℤ :=
  if 0 ≤ key.expiresAt then some key.expiresAt else none

/-- `Math.trunc` -/
def trunc (q : ℚ) : ℤ := q.num.tdiv q.den

/-- `/^[a-f0-9]{32}$/` -/
def isGrantId (id : String) : Bool :=
  id.toList.length = 32 ∧ id.toList.all fun c => ('a' ≤ c ∧ c ≤ 'f') ∨ ('0' ≤ c ∧ c ≤ '9')

def signedUploadGrantMarkerKey (claims : SignedUploadGrantClaims) : Except GrantError MarkerKey :=
  match claims.grantId with
  | none => .error .invalidGrant
  | some grantId =>
    if isGrantId grantId then .ok { expiresAt := trunc claims.expiresAt, grantId }
    else .error .invalidGrant

/-! ### The bucket -/

inductive GrantState where
  | creating
  | multipart
  | failed
  deriving DecidableEq

structure GrantMetadata where
  state : Option GrantState := none
  uploadId : Option String := none
  maxBytes : Option ℤ := none
  reservedBytes : Option ℤ := none
  deriving DecidableEq

structure Marker where
  etag : ℕ
  customMetadata : GrantMetadata
  deriving DecidableEq

inductive OnlyIf where
  | etagDoesNotMatchAny
  /-- The object is still the one that was written with the ETag. -/
  | etagMatches (etag : ℕ)
  deriving DecidableEq

/-- What a request does that others can see, or that they can change. -/
inductive Op where
  /-- `Date.now()` -/
  | now
  | head (key : MarkerKey)
  | put (key : MarkerKey) (onlyIf : OnlyIf) (customMetadata : GrantMetadata)
  | list (limit : ℕ)
  | delete (keys : List MarkerKey)
  deriving DecidableEq

abbrev Op.Answer : Op → Type
  | .now => ℤ
  | .head _ => Option Marker
  | .put _ _ _ => Option ℕ
  | .list _ => List MarkerKey
  | .delete _ => Unit

/-- The markers, with the clock of the machine.  No ETag is `0`, which stands for an empty one. -/
structure Bucket where
  clock : ℤ
  objects : List (MarkerKey × Marker) := []
  nextEtag : ℕ := 1
  deriving DecidableEq

def Bucket.find (bucket : Bucket) (key : MarkerKey) : Option Marker := bucket.objects.lookup key

/-- Whether a write may happen. -/
def OnlyIf.Holds : OnlyIf → Option Marker → Prop
  | .etagDoesNotMatchAny, marker => marker = none
  | .etagMatches etag, marker => ∃ m ∈ marker, m.etag = etag

instance (onlyIf : OnlyIf) (marker : Option Marker) : Decidable (onlyIf.Holds marker) :=
  match onlyIf with
  | .etagDoesNotMatchAny => inferInstanceAs (Decidable (marker = none))
  | .etagMatches etag => inferInstanceAs (Decidable (∃ m ∈ marker, m.etag = etag))

def Op.exec (bucket : Bucket) : (op : Op) → op.Answer × Bucket
  | .now => (bucket.clock, bucket)
  | .head key => (bucket.find key, bucket)
  | .put key onlyIf customMetadata =>
    if onlyIf.Holds (bucket.find key) then
      (some bucket.nextEtag,
        { bucket with
          objects := Assoc.set bucket.objects key { etag := bucket.nextEtag, customMetadata }
          nextEtag := bucket.nextEtag + 1 })
    else (none, bucket)
  | .list limit =>
    -- the first keys in the order of their text
    (((bucket.objects.map Prod.fst).mergeSort fun key key' => key.text ≤ key'.text).take limit,
      bucket)
  | .delete keys =>
    ((), { bucket with objects := Assoc.restrict (fun key => key ∉ keys) bucket.objects })

def Bucket.tick (ms : ℕ) (bucket : Bucket) : Bucket := { bucket with clock := bucket.clock + ms }

/-! ### The functions -/

abbrev GrantM := Prog Op Op.Answer

abbrev GrantT := ExceptT GrantError GrantM

def dateNow : GrantM ℤ := @Prog.perform Op Op.Answer .now

def head (key : MarkerKey) : GrantM (Option Marker) := @Prog.perform Op Op.Answer (.head key)

def put (key : MarkerKey) (onlyIf : OnlyIf) (customMetadata : GrantMetadata) : GrantM (Option ℕ) :=
  @Prog.perform Op Op.Answer (.put key onlyIf customMetadata)

def list (limit : ℕ) : GrantM (List MarkerKey) := @Prog.perform Op Op.Answer (.list limit)

def delete (keys : List MarkerKey) : GrantM Unit := @Prog.perform Op Op.Answer (.delete keys)

def assertUsableGrant (claims : SignedUploadGrantClaims) : GrantT String :=
  match claims.grantId with
  | none => throw .noGrant
  | some grantId =>
    if grantId = "" then throw .noGrant
    else do
      let now ← (dateNow : GrantM _)
      if claims.expiresAt ≤ now then throw .expired
      pure grantId

def markerKey (claims : SignedUploadGrantClaims) : GrantT MarkerKey :=
  ExceptT.mk (pure (signedUploadGrantMarkerKey claims))

def consumeSignedUploadGrant (claims : SignedUploadGrantClaims) : GrantT Unit := do
  let _ ← assertUsableGrant claims
  let key ← markerKey claims
  let marker ← (put key .etagDoesNotMatchAny {} : GrantM _)
  if marker = none then throw .used

def expiredKeys (now : ℤ) (keys : List MarkerKey) : List MarkerKey :=
  keys.filter fun key => ∃ expiresAt ∈ key.encodedExpiry, expiresAt ≤ now

/-- Every round deletes at least one marker, so no more rounds are needed than markers may be
deleted. -/
def cleanupRounds (now : ℤ) (maxDeletes : ℕ) : ℕ → ℕ → GrantM ℕ
  | 0, deleted => pure deleted
  | rounds + 1, deleted =>
    if deleted < maxDeletes then do
      let limit := min 1000 (maxDeletes - deleted)
      let listed ← list limit
      let keys := expiredKeys now listed
      if keys = [] then pure deleted
      else do
        delete keys
        if listed.length < limit then pure (deleted + keys.length)
        else cleanupRounds now maxDeletes rounds (deleted + keys.length)
    else pure deleted

def cleanupExpiredSignedUploadGrants (now : Option ℤ) (maxDeletes : ℕ) : GrantM ℕ :=
  match now with
  | some now => cleanupRounds now maxDeletes maxDeletes 0
  | none => do
    let now ← dateNow
    cleanupRounds now maxDeletes maxDeletes 0

/-- `Number.isSafeInteger` -/
def isSafeInteger (n : ℤ) : Bool := -9007199254740991 ≤ n ∧ n ≤ 9007199254740991

def claimSignedMultipartUploadGrant (claims : SignedUploadGrantClaims) : GrantT ℕ := do
  let _ ← assertUsableGrant claims
  let key ← markerKey claims
  let marker ← (put key .etagDoesNotMatchAny { state := some .creating } : GrantM _)
  match marker with
  | none => throw .used
  | some etag => pure etag

def boundMetadata (claims : SignedUploadGrantClaims) (uploadId : String) : GrantMetadata where
  state := some .multipart
  uploadId := some uploadId
  maxBytes := claims.maxBytes
  reservedBytes := claims.maxBytes.map fun _ => 0

def bindSignedMultipartUploadGrant (claims : SignedUploadGrantClaims) (claim : ℕ)
    (uploadId : String) : GrantT Unit := do
  let _ ← assertUsableGrant claims
  if claim = 0 ∨ uploadId = "" then throw .missingClaim
  if ∃ maxBytes ∈ claims.maxBytes, !isSafeInteger maxBytes ∨ maxBytes < 0 then
    throw .invalidMaximum
  let key ← markerKey claims
  let marker ← (put key (.etagMatches claim) (boundMetadata claims uploadId) : GrantM _)
  if marker = none then throw .changed

/-- The budget of a marker and what is reserved of it, if they are as they should be. -/
def reservedBytesOf (maxBytes : ℤ) (metadata : GrantMetadata) : Option ℤ :=
  match metadata.maxBytes, metadata.reservedBytes with
  | some markerMaxBytes, some reservedBytes =>
    if isSafeInteger markerMaxBytes ∧ 0 ≤ markerMaxBytes ∧ markerMaxBytes = maxBytes ∧
        isSafeInteger reservedBytes ∧ 0 ≤ reservedBytes ∧ reservedBytes ≤ maxBytes then
      some reservedBytes
    else none
  | _, _ => none

/-- One try after the other, until a write is of the marker that was read. -/
def reserveAttempts (key : MarkerKey) (maxBytes : ℤ) (uploadId : String) (bytes : ℤ) :
    ℕ → GrantT Bool
  | 0 => throw .notEstablished
  | attempts + 1 => do
    let marker ← (head key : GrantM _)
    match marker with
    | none => throw .notAuthorized
    | some marker =>
      if marker.customMetadata.state ≠ some .multipart ∨
          marker.customMetadata.uploadId ≠ some uploadId then
        throw .notAuthorized
      else
        match reservedBytesOf maxBytes marker.customMetadata with
        | none => throw .invalidState
        | some reservedBytes =>
          let commonMetadata : GrantMetadata :=
            { uploadId := some uploadId, maxBytes := some maxBytes
              reservedBytes := some reservedBytes }
          if bytes > maxBytes - reservedBytes then do
            let terminal ← (put key (.etagMatches marker.etag)
              { commonMetadata with state := some .failed } : GrantM _)
            if terminal.isSome then pure false
            else reserveAttempts key maxBytes uploadId bytes attempts
          else do
            let reserved ← (put key (.etagMatches marker.etag)
              { commonMetadata with
                state := some .multipart
                reservedBytes := some (reservedBytes + bytes) } : GrantM _)
            if reserved.isSome then pure true
            else reserveAttempts key maxBytes uploadId bytes attempts

def reserveSignedMultipartUploadBytes (claims : SignedUploadGrantClaims) (uploadId : String)
    (bytes : ℤ) : GrantT Bool := do
  let _ ← assertUsableGrant claims
  match claims.maxBytes with
  | none => throw .invalidReservation
  | some maxBytes =>
    if !isSafeInteger maxBytes ∨ maxBytes < 0 ∨ !isSafeInteger bytes ∨ bytes ≤ 0 then
      throw .invalidReservation
    let key ← markerKey claims
    reserveAttempts key maxBytes uploadId bytes SIGNED_MULTIPART_RESERVATION_ATTEMPTS

def terminateSignedMultipartUploadGrant (claims : SignedUploadGrantClaims) (claim : ℕ) :
    GrantT Bool :=
  if claim = 0 then pure false
  else do
    let key ← markerKey claims
    let marker ← (put key (.etagMatches claim) { state := some .failed } : GrantM _)
    pure marker.isSome

/-! ### The bucket, key by key -/

section

variable {bucket : Bucket} {key : MarkerKey} {onlyIf : OnlyIf} {customMetadata : GrantMetadata}

theorem exec_put (h : onlyIf.Holds (bucket.find key)) :
    (Op.put key onlyIf customMetadata).exec bucket =
      (some bucket.nextEtag,
        { bucket with
          objects := Assoc.set bucket.objects key { etag := bucket.nextEtag, customMetadata }
          nextEtag := bucket.nextEtag + 1 }) :=
  if_pos h

theorem exec_put_of_not (h : ¬onlyIf.Holds (bucket.find key)) :
    (Op.put key onlyIf customMetadata).exec bucket = (none, bucket) :=
  if_neg h

theorem fresh_exec {bucket : Bucket} {op : Op} {etag : ℕ}
    (h : (⟨op, (op.exec bucket).1⟩ : Answered Op.Answer) =
      ⟨.put key onlyIf customMetadata, some etag⟩) :
    etag = bucket.nextEtag ∧ (op.exec bucket).2.nextEtag = bucket.nextEtag + 1 := by
  obtain ⟨rfl, hanswer⟩ := Sigma.mk.inj h
  have hanswer := eq_of_heq hanswer
  by_cases hholds : onlyIf.Holds (bucket.find key)
  · rw [exec_put hholds] at hanswer ⊢
    exact ⟨(Option.some.inj hanswer).symm, rfl⟩
  · rw [exec_put_of_not hholds] at hanswer
    cases hanswer

theorem nextEtag_le_exec (bucket : Bucket) (op : Op) :
    bucket.nextEtag ≤ (op.exec bucket).2.nextEtag := by
  cases op with
  | now | head | list | delete => exact le_refl _
  | put key onlyIf metadata =>
    by_cases hholds : onlyIf.Holds (bucket.find key)
    · rw [exec_put hholds]
      exact Nat.le_succ _
    · rw [exec_put_of_not hholds]

theorem find_put (h : onlyIf.Holds (bucket.find key)) (key' : MarkerKey) :
    ((Op.put key onlyIf customMetadata).exec bucket).2.find key' =
      if key' = key then some { etag := bucket.nextEtag, customMetadata }
      else bucket.find key' := by
  rw [exec_put h, Bucket.find]
  split
  · next hkey => rw [hkey, Assoc.lookup_set_self]
  · next hkey => rw [Assoc.lookup_set_of_ne _ hkey, Bucket.find]

end

theorem find_delete {bucket : Bucket} {keys : List MarkerKey} (key : MarkerKey) :
    ((Op.delete keys).exec bucket).2.find key =
      if key ∈ keys then none else bucket.find key := by
  simp only [Op.exec, Bucket.find, Assoc.lookup_restrict]
  split <;> simp_all

abbrev Sent := Answered Op.Answer

def Marks (key : MarkerKey) (e : Sent) : Prop :=
  ∃ onlyIf metadata etag, e = ⟨.put key onlyIf metadata, some etag⟩

theorem marks_put {key key' : MarkerKey} {onlyIf : OnlyIf} {metadata : GrantMetadata}
    {answer : Option ℕ} : Marks key' ⟨.put key onlyIf metadata, answer⟩ ↔
      key' = key ∧ answer.isSome := by
  constructor
  · rintro ⟨onlyIf', metadata', etag, heq⟩
    cases heq
    exact ⟨rfl, rfl⟩
  · rintro ⟨rfl, hanswer⟩
    obtain ⟨etag, rfl⟩ := Option.isSome_iff_exists.1 hanswer
    exact ⟨onlyIf, metadata, etag, rfl⟩

/-- What an operation does to the marker of one key, with what it answers. -/
inductive Touches (key : MarkerKey) : Option Marker → Sent → Option Marker → Prop
  /-- It is about other keys, or only reads. -/
  | other {marker : Option Marker} {e : Sent}
    (hput : ∀ onlyIf metadata, e.1 ≠ .put key onlyIf metadata)
    (hdelete : ∀ keys, e.1 = .delete keys → key ∉ keys)
    (hhead : ∀ answer, e = ⟨.head key, answer⟩ → answer = marker)
    (hlist : ∀ limit keys, e = ⟨.list limit, keys⟩ → key ∈ keys → marker ≠ none) :
    Touches key marker e marker
  | written {marker : Option Marker} {onlyIf : OnlyIf} {metadata : GrantMetadata} (etag : ℕ)
    (h : onlyIf.Holds marker) :
    Touches key marker ⟨.put key onlyIf metadata, some etag⟩ (some ⟨etag, metadata⟩)
  | refused {marker : Option Marker} {onlyIf : OnlyIf} {metadata : GrantMetadata}
    (h : ¬onlyIf.Holds marker) : Touches key marker ⟨.put key onlyIf metadata, none⟩ marker
  | deleted {marker : Option Marker} {keys : List MarkerKey} (h : key ∈ keys) :
    Touches key marker ⟨.delete keys, ()⟩ none

theorem touches_exec (bucket : Bucket) (op : Op) (key : MarkerKey) :
    Touches key (bucket.find key) ⟨op, (op.exec bucket).1⟩ ((op.exec bucket).2.find key) := by
  cases op with
  | now => exact .other (by simp) (by simp) (by simp) (by simp)
  | head key' =>
    refine .other (by simp) (by simp) (fun answer h => ?_) (by simp)
    cases h
    rfl
  | put key' onlyIf metadata =>
    by_cases hholds : onlyIf.Holds (bucket.find key')
    · rw [find_put hholds, exec_put hholds]
      split
      · next hkey =>
        subst hkey
        exact .written _ hholds
      · next hkey =>
        refine .other (fun _ _ h => ?_) (by simp) (by simp) (by simp)
        cases h
        exact hkey rfl
    · rw [exec_put_of_not hholds]
      by_cases hkey : key' = key
      · subst hkey
        exact .refused hholds
      · refine .other (fun _ _ h => ?_) (by simp) (by simp) (by simp)
        cases h
        exact hkey rfl
  | list limit =>
    refine .other (by simp) (by simp) (by simp) (fun limit' keys h hkey => ?_)
    cases h
    -- what is listed is there
    have hmem := List.mem_of_mem_take hkey
    rw [List.mem_mergeSort, List.mem_map] at hmem
    obtain ⟨⟨key, marker⟩, hmem, rfl⟩ := hmem
    intro hnone
    have hne := List.lookup_eq_none_iff.1 hnone _ hmem
    simp at hne
  | delete keys =>
    rw [find_delete]
    split
    · next hkey => exact .deleted hkey
    · next hkey =>
      refine .other (by simp) (fun keys' h => ?_) (by simp) (by simp)
      cases h
      exact hkey

namespace Touches

variable {key : MarkerKey} {marker marker' : Option Marker} {e : Sent}

theorem ne_none_of_list (h : Touches key marker e marker') {limit : ℕ} {keys : List MarkerKey}
    (he : e = ⟨.list limit, keys⟩) (hkey : key ∈ keys) : marker ≠ none := by
  cases h with
  | other _ _ _ hlist => exact hlist limit keys he hkey
  | written | refused | deleted => cases he

theorem eq_of_head (h : Touches key marker e marker') {answer : Option Marker}
    (he : e = ⟨.head key, answer⟩) : answer = marker := by
  cases h with
  | other _ _ hhead => exact hhead answer he
  | written | refused | deleted => cases he

end Touches

end EdgeBase.Storage
