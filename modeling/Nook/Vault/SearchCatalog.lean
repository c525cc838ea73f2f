import Nook.Auth.MemberRoster
import Nook.Lib.Utf8
import Nook.Secrets.SecretListItem
import Nook.Vault.VaultYaml

set_option autoImplicit false

namespace Nook.Vault

open Nook.Lib Nook.EventLog Nook.Auth Nook.Recovery Nook.Secrets

def SEARCH_CATALOG_VERSION : UInt8 := 2
def SEARCH_CATALOG_BUCKET_VERSION : UInt8 := 1
def PAYLOAD_DIGEST_BYTES : Nat := 16
def SEARCH_CATALOG_INTEGRITY_DOMAIN : Bytes :=
  utf8Encode "nook/secret-search-catalog/v1".toList ++ [0]
def SECRET_SEARCH_CATALOG_BUCKET_COUNT : UInt8 := 64

/-- The third-party hashes and hexadecimal text. -/
class CatalogHashes where
  sha256 : Bytes → Bytes
  hmacSha256 : (key message : Bytes) → Bytes
  hexEncode : Bytes → Str
  hexDecode : Str → Option Bytes

/-- A payload read as a secret of the declared kind: the third-party YAML reader
and the checks of the kind. -/
class SecretPayloadText where
  fromYamlStr : (secretType : SecretType) → Str →
    Option { value : SecretValue // value.secretType = secretType }

abbrev SecretSearchCatalogPayloadDigest := Vector UInt8 PAYLOAD_DIGEST_BYTES

structure SecretSearchCatalogEntry where
  payloadDigest : SecretSearchCatalogPayloadDigest
  item : SecretListItem
  integrityTag : Str
  normalizedSearchText : Str

/-- An entry as it is written: its search text is left out. -/
structure WrittenCatalogEntry where
  payloadDigest : SecretSearchCatalogPayloadDigest
  item : SecretListItem
  integrityTag : Str

/-- One bucket as it is written, its entries in the order of their ids. -/
structure SecretSearchCatalogBucket where
  version : UInt8
  bucket : UInt8
  entries : List (SecretId × WrittenCatalogEntry)

/-- The third-party JSON codec of an item and of a bucket, whose ids have a reader of their
own. -/
class CatalogText where
  printItem : SecretListItem → Str
  printBucket : SecretSearchCatalogBucket → Str
  parseBucket : Str → Except String SecretSearchCatalogBucket

/-- The codec is exact: items are told apart, and a bucket is read from its text. -/
structure CatalogText.Exact [CatalogText] : Prop where
  apart : Function.Injective CatalogText.printItem
  reads : ∀ bucket : SecretSearchCatalogBucket,
    CatalogText.parseBucket (CatalogText.printBucket bucket) = .ok bucket

inductive SessionError where
  | secretNotFound (id : SecretId)
  | searchCatalogInvalid (reason : String)
  | vaultCrypto (cause : MultiDeviceError)
  | secretPayload
  deriving DecidableEq

/-- The encrypted secrets of a vault, in the order the map is walked. A stored record has no
blank label. -/
structure VaultSecrets where
  listed : List (SecretId × SecretType × StoredRecordPayload)
  distinct : (listed.map Prod.fst).Nodup
  labelled : ∀ secret ∈ listed, (SecretId.tryFrom secret.1.asStr).isOk = true

namespace VaultSecrets

def ids (secrets : VaultSecrets) : List SecretId := secrets.listed.map Prod.fst

def containsKey (secrets : VaultSecrets) (id : SecretId) : Bool := decide (id ∈ secrets.ids)

def get (secrets : VaultSecrets) (id : SecretId) : Option (SecretType × StoredRecordPayload) :=
  secrets.listed.lookup id

end VaultSecrets

/-! ### Reading one secret -/

namespace VaultSecretSession

variable [VaultCrypto] [SecretPayloadText]

def decryptRecord (id : SecretId) (secretType : SecretType) (payload : StoredRecordPayload)
    (crypto : Auth.SymmetricKey) : Except SessionError SecretRecord := do
  let ciphertext ← (AgeArmoredCiphertext.parse payload.asStr).mapError .vaultCrypto
  let plaintext ← (VaultCrypto.decryptValue crypto ciphertext).mapError .vaultCrypto
  match SecretPayloadText.fromYamlStr secretType plaintext with
  | some value => return ⟨id, secretType, value.1⟩
  | none => .error .secretPayload

def decrypt (secrets : VaultSecrets) (crypto : Auth.SymmetricKey) (id : SecretId) :
    Except SessionError SecretRecord :=
  match secrets.get id with
  | some (secretType, payload) => decryptRecord id secretType payload crypto
  | none => .error (.secretNotFound id)

end VaultSecretSession

/-! ### One entry -/

namespace SecretSearchCatalogEntry

variable [CatalogHashes] [CatalogText]

/-- What the integrity tag of an entry authenticates. -/
def integrityMessage (payloadDigest : SecretSearchCatalogPayloadDigest) (item : SecretListItem) :
    Bytes :=
  SEARCH_CATALOG_INTEGRITY_DOMAIN ++ payloadDigest.toList ++
    utf8Encode (CatalogText.printItem item)

def tag (payloadDigest : SecretSearchCatalogPayloadDigest) (item : SecretListItem)
    (integrityKey : Auth.SymmetricKey) : Str :=
  CatalogHashes.hexEncode (CatalogHashes.hmacSha256 (utf8Encode integrityKey.asStr)
    (integrityMessage payloadDigest item))

def new [UrlParser] [Casing] (payloadDigest : SecretSearchCatalogPayloadDigest)
    (item : SecretListItem) (integrityKey : Auth.SymmetricKey) : SecretSearchCatalogEntry where
  payloadDigest := payloadDigest
  item := item
  integrityTag := tag payloadDigest item integrityKey
  normalizedSearchText := item.normalizedSearchText

def hasValidIntegrity (entry : SecretSearchCatalogEntry) (integrityKey : Auth.SymmetricKey) :
    Bool :=
  match CatalogHashes.hexDecode entry.integrityTag with
  | none => false
  | some tag => tag == CatalogHashes.hmacSha256 (utf8Encode integrityKey.asStr)
      (integrityMessage entry.payloadDigest entry.item)

/-- The first bytes of the payload's hash. -/
def digestOf (payload : StoredRecordPayload) : SecretSearchCatalogPayloadDigest :=
  Vector.ofFn fun index => (CatalogHashes.sha256 (utf8Encode payload.asStr)).getD index 0

/-- `#[serde(skip)]`: the search text is not written. -/
def written (entry : SecretSearchCatalogEntry) : WrittenCatalogEntry :=
  ⟨entry.payloadDigest, entry.item, entry.integrityTag⟩

end SecretSearchCatalogEntry

/-- An entry read back, with its search text built again. -/
def WrittenCatalogEntry.restoreSearchText [UrlParser] [Casing] (entry : WrittenCatalogEntry) :
    SecretSearchCatalogEntry :=
  ⟨entry.payloadDigest, entry.item, entry.integrityTag, entry.item.normalizedSearchText⟩

/-! ### Buckets -/

abbrev SecretSearchCatalogBucketMask := UInt64

namespace SecretSearchCatalogBucketMask

def forBucket (bucket : UInt8) : SecretSearchCatalogBucketMask := 1 <<< bucket.toUInt64

def contains (mask : SecretSearchCatalogBucketMask) (bucket : UInt8) : Bool :=
  mask &&& forBucket bucket != 0

theorem contains_eq (mask : SecretSearchCatalogBucketMask) {bucket : UInt8}
    (small : bucket < SECRET_SEARCH_CATALOG_BUCKET_COUNT) :
    contains mask bucket = mask.toNat.testBit bucket.toNat := by
  have small : bucket.toNat < 64 := small
  have lead : (forBucket bucket).toNat = 2 ^ bucket.toNat := by
    unfold forBucket
    rw [UInt64.toNat_shiftLeft, UInt8.toNat_toUInt64, Nat.mod_eq_of_lt small]
    have bound : 2 ^ bucket.toNat < 2 ^ 64 := Nat.pow_lt_pow_right (by omega) small
    rw [UInt64.toNat_one, Nat.one_shiftLeft, Nat.mod_eq_of_lt bound]
  have masked : (mask &&& forBucket bucket).toNat =
      (mask.toNat.testBit bucket.toNat).toNat * 2 ^ bucket.toNat := by
    rw [UInt64.toNat_and, lead, Nat.and_two_pow]
  unfold contains
  cases bit : mask.toNat.testBit bucket.toNat with
  | false =>
    rw [bit, Bool.toNat_false, Nat.zero_mul] at masked
    simp only [bne_eq_false_iff_eq]
    exact UInt64.toNat_inj.mp masked
  | true =>
    rw [bit, Bool.toNat_true, Nat.one_mul] at masked
    simp only [bne_iff_ne, ne_eq]
    intro zero
    rw [zero, UInt64.toNat_zero] at masked
    have positive := Nat.two_pow_pos bucket.toNat
    omega

@[simp] theorem contains_zero (bucket : UInt8) : contains 0 bucket = false := by
  unfold contains
  rw [UInt64.zero_and]
  rfl

theorem contains_or (left right : SecretSearchCatalogBucketMask) {bucket : UInt8}
    (small : bucket < SECRET_SEARCH_CATALOG_BUCKET_COUNT) :
    contains (left ||| right) bucket = (contains left bucket || contains right bucket) := by
  rw [contains_eq _ small, contains_eq _ small, contains_eq _ small, UInt64.toNat_or,
    Nat.testBit_or]

theorem contains_forBucket (bucket : UInt8)
    (small : bucket < SECRET_SEARCH_CATALOG_BUCKET_COUNT) :
    contains (forBucket bucket) bucket = true := by
  have small' : bucket.toNat < 64 := small
  have bound : 2 ^ bucket.toNat < 2 ^ 64 := Nat.pow_lt_pow_right (by omega) small'
  rw [contains_eq _ small]
  unfold forBucket
  rw [UInt64.toNat_shiftLeft, UInt8.toNat_toUInt64, Nat.mod_eq_of_lt small', UInt64.toNat_one,
    Nat.one_shiftLeft, Nat.mod_eq_of_lt bound, Nat.testBit_two_pow_self]

end SecretSearchCatalogBucketMask

structure SecretSearchCatalogReconcile where
  added : Nat := 0
  updated : Nat := 0
  removed : Nat := 0
  changedBucketMask : SecretSearchCatalogBucketMask := 0
  deriving DecidableEq

def allBuckets : List UInt8 :=
  (List.range SECRET_SEARCH_CATALOG_BUCKET_COUNT.toNat).map UInt8.ofNat

theorem mem_allBuckets {bucket : UInt8} :
    bucket ∈ allBuckets ↔ bucket < SECRET_SEARCH_CATALOG_BUCKET_COUNT := by
  unfold allBuckets
  rw [List.mem_map]
  constructor
  · rintro ⟨index, listed, rfl⟩
    have small : index < 64 := List.mem_range.mp listed
    show (UInt8.ofNat index).toNat < 64
    rw [UInt8.toNat_ofNat']
    omega
  · intro small
    exact ⟨bucket.toNat, List.mem_range.mpr small, UInt8.ofNat_toNat⟩

theorem nodup_allBuckets : allBuckets.Nodup := by decide

namespace SecretSearchCatalogReconcile

def changed (outcome : SecretSearchCatalogReconcile) : Bool :=
  decide (0 < outcome.added ∨ 0 < outcome.updated ∨ 0 < outcome.removed)

def changedBuckets (outcome : SecretSearchCatalogReconcile) : List UInt8 :=
  allBuckets.filter (SecretSearchCatalogBucketMask.contains outcome.changedBucketMask)

end SecretSearchCatalogReconcile

inductive SearchCatalogBucketPayload where
  | empty
  | json (text : Str)
  deriving DecidableEq

/-! ### The catalog -/

structure SecretSearchCatalog where
  version : UInt8
  entries : BTreeMap SecretId SecretSearchCatalogEntry

namespace SecretSearchCatalog

def default : SecretSearchCatalog := ⟨SEARCH_CATALOG_VERSION, ∅⟩

section Buckets

variable [CatalogHashes]

def bucketFor (id : SecretId) : UInt8 :=
  (CatalogHashes.sha256 (utf8Encode id.asStr)).headD 0 % SECRET_SEARCH_CATALOG_BUCKET_COUNT

def bucketMaskFor (id : SecretId) : SecretSearchCatalogBucketMask :=
  SecretSearchCatalogBucketMask.forBucket (bucketFor id)

/-- The mask with the buckets of some ids added. -/
def bucketMaskOf (ids : List SecretId) (mask : SecretSearchCatalogBucketMask) :
    SecretSearchCatalogBucketMask :=
  ids.foldl (fun mask id => mask ||| bucketMaskFor id) mask

theorem bucketFor_lt (id : SecretId) : bucketFor id < SECRET_SEARCH_CATALOG_BUCKET_COUNT := by
  unfold bucketFor
  apply UInt8.mod_lt
  decide

variable [CatalogText]

/-- `serde_json::from_str`. -/
def readBucket (json : Str) : Except String SecretSearchCatalogBucket := do
  let bucket ← CatalogText.parseBucket json
  if bucket.entries.all fun row =>
      (SecretId.tryFrom row.1.asStr).isOk && (SecretId.tryFrom row.2.item.id.asStr).isOk then
    return bucket
  else .error "secret id is required"

def restoreEntry [UrlParser] [Casing] (catalog : SecretSearchCatalog) (expectedBucket : UInt8)
    (row : SecretId × WrittenCatalogEntry) :
    Except SessionError (SecretId × SecretSearchCatalogEntry) :=
  if row.2.item.id ≠ row.1 ∨ bucketFor row.1 ≠ expectedBucket then
    .error (.searchCatalogInvalid "catalog entry does not belong to its encrypted bucket")
  else if row.1 ∈ catalog.entries then
    .error (.searchCatalogInvalid "catalog contains a duplicate secret id")
  else .ok (row.1, row.2.restoreSearchText)

/-- Restore one authenticated plaintext bucket after the adapter decrypts it. -/
def restoreBucketJson [UrlParser] [Casing] (catalog : SecretSearchCatalog)
    (expectedBucket : UInt8) (json : Str) : Except SessionError SecretSearchCatalog :=
  if SECRET_SEARCH_CATALOG_BUCKET_COUNT ≤ expectedBucket then
    .error (.searchCatalogInvalid s!"bucket {expectedBucket} is out of range")
  else do
    let bucket ← (readBucket json).mapError .searchCatalogInvalid
    if bucket.version ≠ SEARCH_CATALOG_BUCKET_VERSION ∨ bucket.bucket ≠ expectedBucket then
      .error (.searchCatalogInvalid "catalog bucket header does not match its storage key")
    else do
      let entries := (∅ : BTreeMap SecretId WrittenCatalogEntry).insertMany bucket.entries
      let rows ← entries.toList.mapM (catalog.restoreEntry expectedBucket)
      return { catalog with entries := catalog.entries.insertMany rows }

def bucketEntries (catalog : SecretSearchCatalog) (bucket : UInt8) :
    BTreeMap SecretId WrittenCatalogEntry :=
  (catalog.entries.filter fun id _ => bucketFor id == bucket).map fun _ entry => entry.written

/-- Serialize one bucket for immediate encryption by the persistence adapter. -/
def bucketJson (catalog : SecretSearchCatalog) (bucket : UInt8) :
    Except SessionError SearchCatalogBucketPayload :=
  if SECRET_SEARCH_CATALOG_BUCKET_COUNT ≤ bucket then
    .error (.searchCatalogInvalid s!"bucket {bucket} is out of range")
  else if (catalog.bucketEntries bucket).isEmpty then .ok .empty
  else .ok (.json (CatalogText.printBucket
    ⟨SEARCH_CATALOG_BUCKET_VERSION, bucket, (catalog.bucketEntries bucket).toList⟩))

end Buckets

section Reconcile

variable [VaultCrypto] [SecretPayloadText] [CatalogHashes] [CatalogText]
  [UrlParser] [Casing]

/-- The row of a secret that is still as it was catalogued. -/
def reusableRow (catalog : SecretSearchCatalog) (integrityKey : Auth.SymmetricKey)
    (secret : SecretId × SecretType × StoredRecordPayload) : Option SecretSearchCatalogEntry :=
  (catalog.entries[secret.1]?).filter fun existing =>
    decide (existing.payloadDigest = SecretSearchCatalogEntry.digestOf secret.2.2) &&
      decide (existing.item.secretType = secret.2.1) && existing.hasValidIntegrity integrityKey

/-- The outcome with one more row that is catalogued anew. -/
def countDecrypted (catalog : SecretSearchCatalog) (outcome : SecretSearchCatalogReconcile)
    (id : SecretId) : SecretSearchCatalogReconcile where
  added := if id ∈ catalog.entries then outcome.added else outcome.added + 1
  updated := if id ∈ catalog.entries then outcome.updated + 1 else outcome.updated
  removed := outcome.removed
  changedBucketMask := outcome.changedBucketMask ||| bucketMaskFor id

/-- One secret of the map: its row is kept, or it is decrypted and catalogued anew. -/
def reconcileSecret (catalog : SecretSearchCatalog) (secrets : VaultSecrets)
    (crypto integrityKey : Auth.SymmetricKey)
    (state : SecretSearchCatalogReconcile × BTreeMap SecretId SecretSearchCatalogEntry)
    (secret : SecretId × SecretType × StoredRecordPayload) :
    Except SessionError
      (SecretSearchCatalogReconcile × BTreeMap SecretId SecretSearchCatalogEntry) :=
  match catalog.reusableRow integrityKey secret with
  | some existing => .ok (state.1, state.2.insert secret.1 existing)
  | none => do
    let outcome := catalog.countDecrypted state.1 secret.1
    let record ← VaultSecretSession.decrypt secrets crypto secret.1
    return (outcome, state.2.insert secret.1 (SecretSearchCatalogEntry.new
      (SecretSearchCatalogEntry.digestOf secret.2.2) record.listItem integrityKey))

def removedIds (catalog : SecretSearchCatalog) (secrets : VaultSecrets) : List SecretId :=
  catalog.entries.keys.filter fun id => !secrets.containsKey id

def removedOutcome (catalog : SecretSearchCatalog) (secrets : VaultSecrets) :
    SecretSearchCatalogReconcile where
  removed := (catalog.removedIds secrets).length
  changedBucketMask := bucketMaskOf (catalog.removedIds secrets) 0

/-- Reuse unchanged public rows and decrypt only new or changed ciphertexts. The catalog is
written last. -/
def reconcile (catalog : SecretSearchCatalog) (secrets : VaultSecrets)
    (crypto integrityKey : Auth.SymmetricKey) :
    SecretSearchCatalog × Except SessionError SecretSearchCatalogReconcile :=
  match secrets.listed.foldlM (catalog.reconcileSecret secrets crypto integrityKey)
      (catalog.removedOutcome secrets, ∅) with
  | .error error => (catalog, .error error)
  | .ok (outcome, next) => ({ catalog with entries := next }, .ok outcome)

end Reconcile

end SecretSearchCatalog

end Nook.Vault
