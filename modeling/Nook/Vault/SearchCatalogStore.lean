import Nook.EventLog.TestSupport
import Nook.Vault.SearchCatalogRebuild
import Nook.Vault.VaultFormatRoundTrip

set_option autoImplicit false

namespace Nook.Vault

open Nook.Lib Nook.EventLog Nook.Auth Nook.Recovery Nook.Secrets

/-! ### Restoring what was written -/

namespace SecretSearchCatalog

variable [CatalogHashes] [CatalogText] [UrlParser] [Casing]

/-- Restore the stored bucket of one key, if there is one. -/
def restorePayload (catalog : SecretSearchCatalog) (bucket : UInt8) :
    SearchCatalogBucketPayload → Except SessionError SecretSearchCatalog
  | .empty => .ok catalog
  | .json text => catalog.restoreBucketJson bucket text

/-- Restore every stored bucket into an empty catalog. -/
def restoreStored (stored : UInt8 → SearchCatalogBucketPayload) :
    Except SessionError SecretSearchCatalog :=
  allBuckets.foldlM (fun catalog bucket => catalog.restorePayload bucket (stored bucket)) default

/-- A catalog that holds some buckets of another. -/
structure HoldsBuckets (buckets : List UInt8) (part whole : SecretSearchCatalog) : Prop where
  version : part.version = whole.version
  entries : ∀ id : SecretId, part.entries[id]? =
    if bucketFor id ∈ buckets then whole.entries[id]? else none

variable {part whole : SecretSearchCatalog} {buckets : List UInt8} {bucket : UInt8}

omit [CatalogText] [UrlParser] [Casing] in
theorem HoldsBuckets.all (held : HoldsBuckets allBuckets part whole) : part = whole := by
  obtain ⟨version, entries⟩ := part
  obtain ⟨version', entries'⟩ := whole
  have same : entries = entries' := by
    apply BTreeMap.ext
    intro id
    have listed : bucketFor id ∈ allBuckets := mem_allBuckets.mpr (bucketFor_lt id)
    have found := held.entries id
    rwa [if_pos listed] at found
  have versions : version = version' := held.version
  rw [same, versions]

omit [CatalogText] [UrlParser] [Casing] in
theorem mem_bucketEntries {id : SecretId} {entry : WrittenCatalogEntry} :
    (whole.bucketEntries bucket)[id]? = some entry ↔
      bucketFor id = bucket ∧ ∃ row, whole.entries[id]? = some row ∧ row.written = entry := by
  rw [getElem?_bucketEntries]
  by_cases own : bucketFor id = bucket
  · rw [if_pos own, Option.map_eq_some_iff]
    exact ⟨fun found => ⟨own, found⟩, fun found => found.2⟩
  · rw [if_neg own]
    constructor
    · intro found
      cases found
    · intro found
      exact absurd found.1 own

/-- The text of a bucket is read as that bucket. -/
theorem readBucket_written (codec : CatalogText.Exact) (filed : whole.Filed) :
    readBucket (CatalogText.printBucket ⟨SEARCH_CATALOG_BUCKET_VERSION, bucket,
      (whole.bucketEntries bucket).toList⟩) =
      .ok ⟨SEARCH_CATALOG_BUCKET_VERSION, bucket, (whole.bucketEntries bucket).toList⟩ := by
  have labels : (whole.bucketEntries bucket).toList.all (fun row =>
      (SecretId.tryFrom row.1.asStr).isOk && (SecretId.tryFrom row.2.item.id.asStr).isOk) =
        true := by
    rw [List.all_eq_true]
    intro row listed
    have found := (BTreeMap.mem_toList_iff _ row.1 row.2).mp listed
    obtain ⟨_, entry, held, same⟩ := mem_bucketEntries.mp found
    have item : row.2.item = entry.item := by rw [← same]; rfl
    rw [item, filed.own _ _ held, filed.labelled _ _ held]
    rfl
  unfold readBucket
  rw [codec.reads]
  show (if _ then _ else _) = _
  rw [if_pos labels]
  rfl

/-- The rows of a bucket as they are restored. -/
def restoredRows (whole : SecretSearchCatalog) (bucket : UInt8) :
    List (SecretId × SecretSearchCatalogEntry) :=
  (whole.bucketEntries bucket).toList.map fun row => (row.1, row.2.restoreSearchText)

omit [CatalogText] in
theorem nodup_restoredRows : ((whole.restoredRows bucket).map Prod.fst).Nodup := by
  unfold restoredRows
  rw [List.map_map]
  exact BTreeMap.nodup_fst_toList _

omit [CatalogText] in
/-- The rows of a bucket are restored as they were. -/
theorem find?_restoredRows (filed : whole.Filed) (id : SecretId) :
    ((whole.restoredRows bucket).find? (·.1 = id)).map Prod.snd =
      if bucketFor id = bucket then whole.entries[id]? else none := by
  have found : ((whole.restoredRows bucket).find? (·.1 = id)).map Prod.snd =
      ((whole.bucketEntries bucket)[id]?).map WrittenCatalogEntry.restoreSearchText := by
    unfold restoredRows
    rw [List.find?_map, ← BTreeMap.find?_toList, Option.map_map, Option.map_map]
    rfl
  rw [found, getElem?_bucketEntries]
  by_cases own : bucketFor id = bucket
  · rw [if_pos own, if_pos own]
    cases held : whole.entries[id]? with
    | none => rfl
    | some entry =>
      have text := filed.searchable id entry held
      obtain ⟨digest, item, tag, searchText⟩ := entry
      exact congrArg (fun text => some (SecretSearchCatalogEntry.mk digest item tag text)) text.symm
  · rw [if_neg own, if_neg own]
    rfl

/-- Restoring one more bucket adds the rows of that bucket. -/
theorem restoreBucketJson_written (codec : CatalogText.Exact) (filed : whole.Filed)
    (held : HoldsBuckets buckets part whole) (fresh : bucket ∉ buckets)
    (small : bucket < SECRET_SEARCH_CATALOG_BUCKET_COUNT) :
    ∃ next, part.restoreBucketJson bucket (CatalogText.printBucket
        ⟨SEARCH_CATALOG_BUCKET_VERSION, bucket, (whole.bucketEntries bucket).toList⟩) = .ok next ∧
      HoldsBuckets (buckets ++ [bucket]) next whole := by
  have entries : (∅ : BTreeMap SecretId WrittenCatalogEntry).insertMany
      (whole.bucketEntries bucket).toList = whole.bucketEntries bucket := by
    apply BTreeMap.ext
    intro id
    apply Option.ext
    intro entry
    rw [BTreeMap.getElem?_insertMany_empty (BTreeMap.nodup_fst_toList _),
      BTreeMap.mem_toList_iff]
  have rows : (whole.bucketEntries bucket).toList.mapM (part.restoreEntry bucket) =
      .ok (whole.restoredRows bucket) := by
    apply mapM_eq_ok_map
    intro row listed
    have found := (BTreeMap.mem_toList_iff _ row.1 row.2).mp listed
    obtain ⟨own, entry, kept, same⟩ := mem_bucketEntries.mp found
    have item : row.2.item.id = row.1 := by
      rw [← same]
      exact filed.own _ _ kept
    have absent : row.1 ∉ part.entries := by
      rw [BTreeMap.not_mem_iff_getElem?, held.entries, own, if_neg fresh]
    unfold restoreEntry
    rw [if_neg (by simp [item, own]), if_neg absent]
  refine ⟨⟨part.version, part.entries.insertMany (whole.restoredRows bucket)⟩, ?_, held.version, ?_⟩
  · unfold restoreBucketJson
    rw [if_neg (by simpa using small), readBucket_written codec filed]
    show (if _ then _ else _) = _
    rw [if_neg (by simp)]
    show (List.mapM _ _ >>= _) = _
    rw [entries, rows]
    rfl
  · intro id
    show (part.entries.insertMany (whole.restoredRows bucket))[id]? = _
    rw [BTreeMap.getElem?_insertMany nodup_restoredRows, find?_restoredRows filed, held.entries]
    by_cases own : bucketFor id = bucket
    · rw [if_pos own, own, if_neg fresh, Option.or_none, if_pos (by simp)]
    · rw [if_neg own, Option.none_or]
      simp [own]

omit [UrlParser] [Casing] in
theorem bucketJson_ok (catalog : SecretSearchCatalog)
    (small : bucket < SECRET_SEARCH_CATALOG_BUCKET_COUNT) :
    ∃ payload, catalog.bucketJson bucket = .ok payload := by
  unfold bucketJson
  rw [if_neg (by simpa using small)]
  by_cases blank : (catalog.bucketEntries bucket).isEmpty = true
  · exact ⟨.empty, if_pos blank⟩
  · exact ⟨_, if_neg blank⟩

/-- Restoring one more bucket as it was written. -/
theorem restorePayload_written (codec : CatalogText.Exact) (filed : whole.Filed)
    (held : HoldsBuckets buckets part whole) (fresh : bucket ∉ buckets)
    (small : bucket < SECRET_SEARCH_CATALOG_BUCKET_COUNT) {payload : SearchCatalogBucketPayload}
    (written : whole.bucketJson bucket = .ok payload) :
    ∃ next, part.restorePayload bucket payload = .ok next ∧
      HoldsBuckets (buckets ++ [bucket]) next whole := by
  unfold bucketJson at written
  rw [if_neg (by simpa using small)] at written
  by_cases blank : (whole.bucketEntries bucket).isEmpty = true
  · rw [if_pos blank] at written
    cases written
    refine ⟨part, rfl, held.version, ?_⟩
    intro id
    rw [held.entries]
    by_cases own : bucketFor id = bucket
    · have none : (whole.bucketEntries bucket)[id]? = none := by
        rw [Std.ExtTreeMap.isEmpty_iff.mp blank, Std.ExtTreeMap.getElem?_empty]
      rw [getElem?_bucketEntries, if_pos own, Option.map_eq_none_iff] at none
      rw [none, own, if_neg fresh, if_pos (by simp)]
    · simp [own]
  · rw [if_neg blank] at written
    cases written
    exact restoreBucketJson_written codec filed held fresh small

/-- Restoring what was written of every bucket gives the catalog. -/
theorem restoreStored_written (codec : CatalogText.Exact) (filed : whole.Filed)
    {stored : UInt8 → SearchCatalogBucketPayload}
    (written : ∀ bucket < SECRET_SEARCH_CATALOG_BUCKET_COUNT,
      whole.bucketJson bucket = .ok (stored bucket)) :
    restoreStored stored = .ok whole := by
  have general : ∀ (rest before : List UInt8) (part : SecretSearchCatalog),
      (before ++ rest).Nodup → (∀ bucket ∈ rest, bucket < SECRET_SEARCH_CATALOG_BUCKET_COUNT) →
      HoldsBuckets before part whole →
      ∃ result, rest.foldlM (fun catalog bucket => catalog.restorePayload bucket (stored bucket))
        part = .ok result ∧ HoldsBuckets (before ++ rest) result whole := by
    intro rest
    induction rest with
    | nil =>
      intro before part _ _ held
      exact ⟨part, rfl, by rwa [List.append_nil]⟩
    | cons bucket rest ih =>
      intro before part distinct small held
      have fresh : bucket ∉ before := fun member =>
        (List.nodup_append.mp distinct).2.2 bucket member bucket List.mem_cons_self rfl
      have bound := small bucket List.mem_cons_self
      obtain ⟨next, restored, held'⟩ :=
        restorePayload_written codec filed held fresh bound (written bucket bound)
      obtain ⟨result, folded, whole'⟩ := ih (before ++ [bucket]) next
        (by rwa [List.append_assoc]) (fun other member => small other (List.mem_cons_of_mem _ member))
        held'
      refine ⟨result, ?_, ?_⟩
      · rw [List.foldlM_cons, restored]
        exact folded
      · rwa [List.append_assoc] at whole'
  have start : HoldsBuckets [] default whole := by
    refine ⟨filed.version.symm, ?_⟩
    intro id
    rw [if_neg (List.not_mem_nil)]
    exact Std.ExtTreeMap.getElem?_empty
  obtain ⟨result, folded, held⟩ := general allBuckets [] default nodup_allBuckets
    (fun bucket member => mem_allBuckets.mp member) start
  unfold restoreStored
  rw [folded, HoldsBuckets.all held]

end SecretSearchCatalog

/-! ### The catalog and its stored buckets -/

/-- A catalog in memory and what is stored of its buckets. -/
structure CatalogStore where
  catalog : SecretSearchCatalog
  stored : UInt8 → SearchCatalogBucketPayload

namespace CatalogStore

variable [CatalogHashes] [CatalogText]

/-- What is stored is what would be written of each bucket. -/
def InStep (store : CatalogStore) : Prop :=
  ∀ bucket < SECRET_SEARCH_CATALOG_BUCKET_COUNT,
    store.catalog.bucketJson bucket = .ok (store.stored bucket)

/-- Write some buckets of a catalog; an empty one is deleted. -/
def persist (catalog : SecretSearchCatalog) (buckets : List UInt8)
    (stored : UInt8 → SearchCatalogBucketPayload) :
    Except SessionError (UInt8 → SearchCatalogBucketPayload) :=
  buckets.foldlM (fun stored bucket => do
    return Function.update stored bucket (← catalog.bucketJson bucket)) stored

theorem persist_ok {catalog : SecretSearchCatalog} {buckets : List UInt8}
    (small : ∀ bucket ∈ buckets, bucket < SECRET_SEARCH_CATALOG_BUCKET_COUNT)
    (stored : UInt8 → SearchCatalogBucketPayload) :
    ∃ written, persist catalog buckets stored = .ok written ∧
      (∀ bucket ∈ buckets, catalog.bucketJson bucket = .ok (written bucket)) ∧
      ∀ bucket, bucket ∉ buckets → written bucket = stored bucket := by
  unfold persist
  induction buckets generalizing stored with
  | nil => exact ⟨stored, rfl, fun _ member => (List.not_mem_nil member).elim, fun _ _ => rfl⟩
  | cons head tail ih =>
    obtain ⟨payload, json⟩ :=
      SecretSearchCatalog.bucketJson_ok catalog (small head List.mem_cons_self)
    obtain ⟨written, done, each, others⟩ :=
      ih (fun bucket member => small bucket (List.mem_cons_of_mem _ member))
        (Function.update stored head payload)
    refine ⟨written, ?_, ?_, ?_⟩
    · rw [List.foldlM_cons, json]
      exact done
    · intro bucket member
      by_cases later : bucket ∈ tail
      · exact each bucket later
      · have same : bucket = head := (List.mem_cons.mp member).resolve_right later
        rw [others bucket later, same, Function.update_self, json]
    · intro bucket absent
      rw [List.mem_cons, not_or] at absent
      rw [others bucket absent.2, Function.update_of_ne absent.1]

variable [VaultCrypto] [SecretPayloadText] [UrlParser] [Casing]

/-- Reconcile the catalog and write the buckets it reports as changed. -/
def reconcile (crypto integrityKey : Auth.SymmetricKey) (store : CatalogStore)
    (secrets : VaultSecrets) : CatalogStore :=
  match store.catalog.reconcile secrets crypto integrityKey with
  | (catalog, .error _) => ⟨catalog, store.stored⟩
  | (catalog, .ok outcome) =>
    match persist catalog outcome.changedBuckets store.stored with
    | .ok stored => ⟨catalog, stored⟩
    | .error _ => ⟨catalog, store.stored⟩

/-- The store after the vault's secrets were reconciled again and again. -/
def run (crypto integrityKey : Auth.SymmetricKey) (store : CatalogStore)
    (turns : List VaultSecrets) : CatalogStore :=
  turns.foldl (reconcile crypto integrityKey) store

variable {store : CatalogStore} {crypto integrityKey : Auth.SymmetricKey}

/-- Writing the changed buckets keeps the store in step with the catalog. -/
theorem InStep.reconcile (inStep : store.InStep) (filed : store.catalog.Filed)
    (secrets : VaultSecrets) :
    (store.reconcile crypto integrityKey secrets).InStep ∧
      (store.reconcile crypto integrityKey secrets).catalog.Filed := by
  unfold CatalogStore.reconcile
  cases result : store.catalog.reconcile secrets crypto integrityKey with
  | mk catalog outcome =>
    cases outcome with
    | error cause =>
      have same := SecretSearchCatalog.unchanged_of_error result
      exact ⟨by rw [same]; exact inStep, by rw [same]; exact filed⟩
    | ok outcome =>
      have done := SecretSearchCatalog.reconciled_of_ok result
      have small : ∀ bucket ∈ outcome.changedBuckets,
          bucket < SECRET_SEARCH_CATALOG_BUCKET_COUNT := by
        intro bucket member
        exact mem_allBuckets.mp (List.mem_filter.mp member).1
      have persisted : ∃ written, persist catalog outcome.changedBuckets store.stored =
            .ok written ∧
          (∀ bucket ∈ outcome.changedBuckets, catalog.bucketJson bucket = .ok (written bucket)) ∧
          ∀ bucket, bucket ∉ outcome.changedBuckets → written bucket = store.stored bucket :=
        persist_ok small store.stored
      obtain ⟨written, wrote, each, others⟩ := persisted
      dsimp only
      rw [wrote]
      refine ⟨?_, filed.reconciled done⟩
      intro bucket bound
      by_cases reported : bucket ∈ outcome.changedBuckets
      · exact each bucket reported
      · have same : store.catalog.bucketJson bucket = catalog.bucketJson bucket := by
          by_contra differs
          exact reported (done.mem_changedBuckets bound differs)
        show catalog.bucketJson bucket = .ok (written bucket)
        rw [others bucket reported, ← same]
        exact inStep bucket bound

theorem InStep.run (inStep : store.InStep) (filed : store.catalog.Filed)
    (turns : List VaultSecrets) :
    (store.run crypto integrityKey turns).InStep ∧
      (store.run crypto integrityKey turns).catalog.Filed := by
  induction turns generalizing store with
  | nil => exact ⟨inStep, filed⟩
  | cons secrets turns ih =>
    obtain ⟨inStep', filed'⟩ := inStep.reconcile filed secrets
    exact ih inStep' filed'

end CatalogStore

namespace SecretSearchCatalog

variable [VaultCrypto] [SecretPayloadText] [CatalogHashes] [CatalogText] [UrlParser] [Casing]

/-- The search catalog always equals a rebuild. A reconcile that succeeds leaves the rows that
reconciling an empty catalog gives, and reports every bucket whose text it changes; one that
fails changes nothing. What is stored of a catalog restores that catalog, and storing only the
reported buckets keeps it so over any run of reconciles. -/
theorem search_catalog_is_rebuild (codec : CatalogText.Exact) (catalog : SecretSearchCatalog)
    (filed : catalog.Filed) (crypto integrityKey : Auth.SymmetricKey) :
    (∀ (secrets : VaultSecrets) (after : SecretSearchCatalog)
        (outcome : SecretSearchCatalogReconcile),
      catalog.reconcile secrets crypto integrityKey = (after, .ok outcome) →
      (∀ seen : Set StoredRecordPayload, Set.InjOn SecretSearchCatalogEntry.digestOf seen →
        (∀ secret ∈ secrets.listed, secret.2.2 ∈ seen) →
        catalog.Genuine crypto integrityKey seen →
        ∀ walked : VaultSecrets, walked.listed.Perm secrets.listed →
          ∃ rebuilt counted,
            default.reconcile walked crypto integrityKey = (rebuilt, .ok counted) ∧
              after.SameRows rebuilt) ∧
      ∀ bucket < SECRET_SEARCH_CATALOG_BUCKET_COUNT,
        catalog.bucketJson bucket ≠ after.bucketJson bucket → bucket ∈ outcome.changedBuckets) ∧
    (∀ (secrets : VaultSecrets) (after : SecretSearchCatalog) (cause : SessionError),
      catalog.reconcile secrets crypto integrityKey = (after, .error cause) → after = catalog) ∧
    ∀ stored : UInt8 → SearchCatalogBucketPayload,
      (∀ bucket < SECRET_SEARCH_CATALOG_BUCKET_COUNT,
        catalog.bucketJson bucket = .ok (stored bucket)) →
      restoreStored stored = .ok catalog ∧
      ∀ turns : List VaultSecrets,
        let store := (CatalogStore.mk catalog stored).run crypto integrityKey turns
        store.InStep ∧ restoreStored store.stored = .ok store.catalog := by
  refine ⟨?_, ?_, ?_⟩
  · intro secrets after outcome success
    have done := reconciled_of_ok success
    refine ⟨?_, ?_⟩
    · intro seen apart met genuine walked same
      exact done.rebuilt codec filed apart met genuine same
    · intro bucket small differs
      exact done.mem_changedBuckets small differs
  · intro secrets after cause failed
    exact unchanged_of_error failed
  · intro stored written
    refine ⟨restoreStored_written codec filed written, ?_⟩
    intro turns
    have inStep : (CatalogStore.mk catalog stored).InStep := written
    have kept : ((CatalogStore.mk catalog stored).run crypto integrityKey turns).InStep ∧
        ((CatalogStore.mk catalog stored).run crypto integrityKey turns).catalog.Filed :=
      inStep.run filed turns
    exact ⟨kept.1, restoreStored_written codec kept.2 kept.1⟩

end SecretSearchCatalog

namespace TestSupport

open SecretSearchCatalog Nook.EventLog.TestSupport

def catalogId : SecretId := ⟨"secret_abcdefghijk".toList⟩

def catalogPayload : StoredRecordPayload :=
  ⟨("-----BEGIN AGE ENCRYPTED FILE-----\nYQ==\n" ++ "-----END AGE ENCRYPTED FILE-----").toList⟩

def catalogKey : Auth.SymmetricKey := ⟨List.replicate 64 'a'⟩

def catalogItem : SecretListItem :=
  ⟨catalogId, .login "https://example.com".toList "alice".toList⟩

def catalogItemJson : Str :=
  ("\x7b\"id\":\"secret_abcdefghijk\",\"data\":\x7b\"type\":\"login\"," ++
    "\"website_url\":\"https://example.com\",\"username\":\"alice\"\x7d\x7d").toList

def payloadHash : Bytes :=
  [96, 254, 98, 33, 30, 55, 252, 34, 223, 225, 37, 17, 14, 78, 235, 220, 122, 248, 253, 204, 35,
    33, 168, 103, 16, 245, 7, 50, 136, 240, 51, 100]

def idHash : Bytes :=
  [180, 50, 46, 105, 55, 27, 1, 145, 177, 224, 172, 137, 35, 132, 252, 28, 52, 120, 210, 225, 156,
    178, 27, 50, 138, 239, 224, 20, 121, 190, 3, 137]

def catalogMac : Bytes :=
  [255, 227, 170, 221, 5, 171, 52, 203, 136, 161, 42, 129, 122, 59, 161, 26, 15, 241, 254, 229, 70,
    121, 60, 214, 109, 191, 173, 183, 96, 130, 131, 101]

@[reducible] def catalogHashes : CatalogHashes where
  sha256 bytes :=
    if bytes = utf8Encode catalogPayload.asStr then payloadHash
    else if bytes = utf8Encode catalogId.asStr then idHash
    else List.replicate 32 0
  hmacSha256 key message :=
    if key = utf8Encode catalogKey.asStr ∧ message = SEARCH_CATALOG_INTEGRITY_DOMAIN ++
        payloadHash.take 16 ++ utf8Encode catalogItemJson then catalogMac
    else List.replicate 32 0
  hexEncode := hexEncode
  hexDecode := hexBytes

def catalogYaml : Str :=
  "website_url: https://example.com\nusername: alice\npassword: hunter2\nnotes: ''\n".toList

@[reducible] def catalogCrypto : VaultCrypto where
  encryptValue _ _ _ := .ok ⟨catalogPayload.asStr⟩
  decryptValue key ciphertext :=
    if key = catalogKey ∧ ciphertext.asStr = catalogPayload.asStr then
      .ok catalogYaml
    else .error (.invalidDeviceIdentity "no match")

@[reducible] def catalogPayloads : SecretPayloadText where
  fromYamlStr
    | .login, _ => some ⟨.login ⟨"https://example.com".toList, "alice".toList,
        "hunter2".toList, []⟩, rfl⟩
    | _, _ => none

@[reducible] def catalogHosts : UrlParser where
  hostStr text :=
    if text = "https://example.com".toList then some (some "example.com".toList) else none

@[reducible] def catalogCasing : Casing where
  toLowercase := List.map Char.toLower

deriving instance Countable for IdentityDocumentKind
deriving instance Countable for PersonListItem
deriving instance Countable for AddressListItem
deriving instance Countable for IdentityDocumentListItem
deriving instance Countable for InternationalAccountListItem
deriving instance Countable for DomesticAccountListItem
deriving instance Countable for SecretListItemData
deriving instance Countable for SecretListItem

instance countableDigest : Countable SecretSearchCatalogPayloadDigest :=
  Function.Injective.countable fun _ _ => Vector.toList_inj.mp

deriving instance Countable for WrittenCatalogEntry
deriving instance Countable for SecretSearchCatalogBucket

theorem exists_itemIndex : ∃ index : SecretListItem → Nat, Function.Injective index :=
  Countable.exists_injective_nat _

theorem exists_bucketIndex : ∃ index : SecretSearchCatalogBucket → Nat, Function.Injective index :=
  Countable.exists_injective_nat _

/-- A text of its own for each item, for one of them what the JSON writer gives. -/
noncomputable def printCatalogItem (item : SecretListItem) : Str :=
  if item = catalogItem then catalogItemJson
  else List.replicate (exists_itemIndex.choose item) '1'

theorem printCatalogItem_inj : Function.Injective printCatalogItem := by
  have braced : ∀ count, catalogItemJson ≠ List.replicate count '1' := by
    intro count same
    have lead : '\x7b' ∈ catalogItemJson := by decide +kernel
    rw [same] at lead
    exact absurd (List.eq_of_mem_replicate lead) (by decide)
  intro item other same
  unfold printCatalogItem at same
  split at same <;> split at same
  · rename_i first second
    rw [first, second]
  · exact absurd same (braced _)
  · exact absurd same.symm (braced _)
  · have long := congrArg List.length same
    rw [List.length_replicate, List.length_replicate] at long
    exact exists_itemIndex.choose_spec long

open Classical in
@[reducible] noncomputable def catalogText : CatalogText where
  printItem := printCatalogItem
  printBucket bucket := List.replicate (exists_bucketIndex.choose bucket) '1'
  parseBucket text :=
    if found : ∃ bucket, List.replicate (exists_bucketIndex.choose bucket) '1' = text then
      .ok found.choose
    else .error "expected value"

attribute [local instance] catalogHashes catalogCrypto catalogPayloads catalogHosts catalogCasing
  catalogText

theorem catalogText_exact : CatalogText.Exact where
  apart := printCatalogItem_inj
  reads bucket := by
    have found : ∃ other, List.replicate (exists_bucketIndex.choose other) '1' =
        List.replicate (exists_bucketIndex.choose bucket) '1' := ⟨bucket, rfl⟩
    have long := congrArg List.length found.choose_spec
    rw [List.length_replicate, List.length_replicate] at long
    exact (dif_pos found).trans (congrArg Except.ok (exists_bucketIndex.choose_spec long))

def catalogRow : SecretSearchCatalogEntry where
  payloadDigest := ⟨(payloadHash.take 16).toArray, rfl⟩
  item := catalogItem
  integrityTag := hexEncode catalogMac
  normalizedSearchText :=
    ("example.com\nalice\nsecret_abcdefghijk\n" ++ "https://example.com\nalice").toList

def loginCatalog : SecretSearchCatalog :=
  ⟨SEARCH_CATALOG_VERSION, (∅ : BTreeMap SecretId SecretSearchCatalogEntry).insert catalogId
    catalogRow⟩

def loginSecrets : VaultSecrets where
  listed := [(catalogId, .login, catalogPayload)]
  distinct := by decide
  labelled := by decide +kernel

theorem found_loginCatalog {id : SecretId} {entry : SecretSearchCatalogEntry}
    (found : loginCatalog.entries[id]? = some entry) : id = catalogId ∧ entry = catalogRow := by
  unfold loginCatalog at found
  rw [BTreeMap.getElem?_insert_eq, Std.ExtTreeMap.getElem?_empty] at found
  split at found
  · rename_i same
    exact ⟨same.symm, (Option.some.inj found).symm⟩
  · cases found

theorem filed_loginCatalog : loginCatalog.Filed where
  version := rfl
  own id entry found := by
    obtain ⟨rfl, rfl⟩ := found_loginCatalog found
    rfl
  searchable id entry found := by
    obtain ⟨rfl, rfl⟩ := found_loginCatalog found
    decide +kernel
  labelled id entry found := by
    obtain ⟨rfl, rfl⟩ := found_loginCatalog found
    decide +kernel

theorem digestOf_catalogPayload :
    SecretSearchCatalogEntry.digestOf catalogPayload = catalogRow.payloadDigest := by
  decide +kernel

/-- The login as its payload opens. -/
def loginRecord : SecretRecord :=
  ⟨catalogId, .login, .login ⟨"https://example.com".toList, "alice".toList, "hunter2".toList, []⟩⟩

theorem opens_login : VaultSecretSession.decryptRecord catalogId .login catalogPayload catalogKey =
    .ok loginRecord := by
  apply VaultSecretSession.decryptRecord_eq_ok.mpr
  refine ⟨⟨catalogPayload.asStr⟩, catalogYaml, _, ?_, ?_, rfl, rfl⟩
  · exact if_pos (by decide +kernel)
  · exact if_pos ⟨rfl, rfl⟩

theorem genuine_loginCatalog : loginCatalog.Genuine catalogKey catalogKey {catalogPayload} := by
  intro id entry found _
  obtain ⟨rfl, rfl⟩ := found_loginCatalog found
  refine ⟨(catalogId, .login, catalogPayload), loginRecord, rfl, opens_login, ?_⟩
  rw [digestOf_catalogPayload]
  rfl

theorem rows_loginCatalog : ∀ secret ∈ loginSecrets.listed, ∃ row,
    loginCatalog.rowFor catalogKey catalogKey secret = .ok row := by
  intro secret listed
  rw [List.mem_singleton.mp listed]
  cases reusable : loginCatalog.reusableRow catalogKey (catalogId, .login, catalogPayload) with
  | some row => exact ⟨row, rowFor_eq_ok.mpr (.inl reusable)⟩
  | none =>
    exact ⟨_, rowFor_eq_ok.mpr (.inr ⟨reusable, freshRow_eq_ok.mpr ⟨_, opens_login, rfl⟩⟩)⟩

/-- A login in a catalog of its own is reconciled as in a catalog made anew. -/
theorem search_catalog_is_rebuild_login :
    ∃ after outcome, loginCatalog.reconcile loginSecrets catalogKey catalogKey =
        (after, .ok outcome) ∧
      ∃ rebuilt counted, default.reconcile loginSecrets catalogKey catalogKey =
          (rebuilt, .ok counted) ∧ after.SameRows rebuilt := by
  obtain ⟨after, outcome, done⟩ := reconcile_ok rows_loginCatalog
  have settled := search_catalog_is_rebuild catalogText_exact loginCatalog filed_loginCatalog
    catalogKey catalogKey
  refine ⟨after, outcome, done, ?_⟩
  apply (settled.1 loginSecrets after outcome done).1 {catalogPayload}
  · exact Set.injOn_singleton _ _
  · intro secret listed
    rw [List.mem_singleton.mp listed]
    rfl
  · exact genuine_loginCatalog
  · exact List.Perm.refl _

end TestSupport

end Nook.Vault
