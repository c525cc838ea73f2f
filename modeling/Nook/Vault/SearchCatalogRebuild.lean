import Nook.Lib.Steps
import Nook.Vault.SearchCatalog

set_option autoImplicit false

namespace Nook.Vault

open Nook.Lib Nook.EventLog Nook.Auth Nook.Recovery Nook.Secrets

namespace VaultSecrets

variable {secrets : VaultSecrets}

theorem get_of_listed {secret : SecretId × SecretType × StoredRecordPayload}
    (listed : secret ∈ secrets.listed) : secrets.get secret.1 = some secret.2 := by
  unfold get
  have distinct := secrets.distinct
  revert listed distinct
  induction secrets.listed with
  | nil => exact fun listed => by cases listed
  | cons head tail ih =>
    intro listed distinct
    rw [List.map_cons, List.nodup_cons] at distinct
    rcases List.mem_cons.mp listed with same | later
    · rw [same, List.lookup_cons, beq_self_eq_true]
    · have other : (secret.1 == head.1) = false := by
        rw [beq_eq_false_iff_ne]
        intro same
        exact distinct.1 (List.mem_map.mpr ⟨secret, later, same⟩)
      rw [List.lookup_cons, other]
      exact ih later distinct.2

theorem containsKey_iff {id : SecretId} :
    secrets.containsKey id = true ↔ ∃ secret ∈ secrets.listed, secret.1 = id := by
  unfold containsKey ids
  rw [decide_eq_true_iff, List.mem_map]

end VaultSecrets

namespace SecretSearchCatalog

/-! ### Buckets -/

section Buckets

variable [CatalogHashes]

theorem contains_bucketMaskOf (ids : List SecretId) (mask : SecretSearchCatalogBucketMask)
    {bucket : UInt8} (small : bucket < SECRET_SEARCH_CATALOG_BUCKET_COUNT) :
    SecretSearchCatalogBucketMask.contains (bucketMaskOf ids mask) bucket = true ↔
      SecretSearchCatalogBucketMask.contains mask bucket = true ∨
        ∃ id ∈ ids, SecretSearchCatalogBucketMask.contains (bucketMaskFor id) bucket = true := by
  unfold bucketMaskOf
  induction ids generalizing mask with
  | nil => simp
  | cons id ids ih =>
    rw [List.foldl_cons, ih, SecretSearchCatalogBucketMask.contains_or _ _ small, Bool.or_eq_true,
      or_assoc]
    simp

theorem bucketMaskOf_append (ids more : List SecretId) (mask : SecretSearchCatalogBucketMask) :
    bucketMaskOf (ids ++ more) mask = bucketMaskOf more (bucketMaskOf ids mask) := by
  unfold bucketMaskOf
  rw [List.foldl_append]

theorem contains_of_mem {ids : List SecretId} {id : SecretId} (member : id ∈ ids)
    (mask : SecretSearchCatalogBucketMask) :
    SecretSearchCatalogBucketMask.contains (bucketMaskOf ids mask) (bucketFor id) = true := by
  rw [contains_bucketMaskOf ids mask (bucketFor_lt id)]
  exact .inr ⟨id, member, SecretSearchCatalogBucketMask.contains_forBucket _ (bucketFor_lt id)⟩

theorem getElem?_bucketEntries (catalog : SecretSearchCatalog) (bucket : UInt8) (id : SecretId) :
    (catalog.bucketEntries bucket)[id]? =
      if bucketFor id = bucket then (catalog.entries[id]?).map SecretSearchCatalogEntry.written
      else none := by
  unfold bucketEntries
  rw [BTreeMap.getElem?_map_eq, Std.ExtTreeMap.getElem?_filter']
  by_cases own : bucketFor id = bucket
  · simp only [own, beq_self_eq_true, if_true]
    cases catalog.entries[id]? <;> rfl
  · simp [own, Option.filter_eq_none_iff]

theorem bucketEntries_congr {catalog other : SecretSearchCatalog} {bucket : UInt8}
    (same : ∀ id, bucketFor id = bucket → catalog.entries[id]? = other.entries[id]?) :
    catalog.bucketEntries bucket = other.bucketEntries bucket := by
  apply BTreeMap.ext
  intro id
  rw [getElem?_bucketEntries, getElem?_bucketEntries]
  by_cases own : bucketFor id = bucket
  · rw [if_pos own, if_pos own, same id own]
  · rw [if_neg own, if_neg own]

variable [CatalogText]

theorem bucketJson_congr {catalog other : SecretSearchCatalog} {bucket : UInt8}
    (same : ∀ id, bucketFor id = bucket → catalog.entries[id]? = other.entries[id]?) :
    catalog.bucketJson bucket = other.bucketJson bucket := by
  unfold bucketJson
  rw [bucketEntries_congr same]

end Buckets

/-! ### What a reconcile leaves -/

section Rows

variable [VaultCrypto] [SecretPayloadText] [CatalogHashes] [CatalogText]
  [UrlParser] [Casing]

/-- The row that is catalogued for a secret whose ciphertext is read. -/
def freshRow (crypto integrityKey : Auth.SymmetricKey)
    (secret : SecretId × SecretType × StoredRecordPayload) :
    Except SessionError SecretSearchCatalogEntry :=
  (VaultSecretSession.decryptRecord secret.1 secret.2.1 secret.2.2 crypto).map fun record =>
    .new (SecretSearchCatalogEntry.digestOf secret.2.2) record.listItem integrityKey

/-- The row a reconcile leaves for a secret. -/
def rowFor (catalog : SecretSearchCatalog) (crypto integrityKey : Auth.SymmetricKey)
    (secret : SecretId × SecretType × StoredRecordPayload) :
    Except SessionError SecretSearchCatalogEntry :=
  match catalog.reusableRow integrityKey secret with
  | some existing => .ok existing
  | none => freshRow crypto integrityKey secret

variable {catalog : SecretSearchCatalog} {secrets : VaultSecrets}
  {crypto integrityKey : Auth.SymmetricKey}

omit [VaultCrypto] [SecretPayloadText] [UrlParser] [Casing] in
theorem reusableRow_eq_some {secret : SecretId × SecretType × StoredRecordPayload}
    {existing : SecretSearchCatalogEntry} :
    catalog.reusableRow integrityKey secret = some existing ↔
      catalog.entries[secret.1]? = some existing ∧
        existing.payloadDigest = SecretSearchCatalogEntry.digestOf secret.2.2 ∧
        existing.item.secretType = secret.2.1 ∧
        existing.hasValidIntegrity integrityKey = true := by
  unfold reusableRow
  rw [Option.filter_eq_some_iff, Bool.and_eq_true, Bool.and_eq_true, decide_eq_true_iff,
    decide_eq_true_iff, and_assoc]

theorem reconcileSecret_eq {secret : SecretId × SecretType × StoredRecordPayload}
    (listed : secret ∈ secrets.listed)
    (state : SecretSearchCatalogReconcile × BTreeMap SecretId SecretSearchCatalogEntry) :
    catalog.reconcileSecret secrets crypto integrityKey state secret =
      (catalog.rowFor crypto integrityKey secret).map fun row =>
        (if (catalog.reusableRow integrityKey secret).isSome then state.1
          else catalog.countDecrypted state.1 secret.1, state.2.insert secret.1 row) := by
  unfold reconcileSecret rowFor
  cases catalog.reusableRow integrityKey secret with
  | some existing => rfl
  | none =>
    have opened : VaultSecretSession.decrypt secrets crypto secret.1 =
        VaultSecretSession.decryptRecord secret.1 secret.2.1 secret.2.2 crypto := by
      unfold VaultSecretSession.decrypt
      rw [VaultSecrets.get_of_listed listed]
    dsimp only
    rw [opened]
    unfold freshRow
    cases VaultSecretSession.decryptRecord secret.1 secret.2.1 secret.2.2 crypto with
    | error cause => rfl
    | ok record => rfl

/-- The ids of the secrets that are decrypted. -/
def decryptedIds (catalog : SecretSearchCatalog) (secrets : VaultSecrets)
    (integrityKey : Auth.SymmetricKey) : List SecretId :=
  (secrets.listed.filter fun secret => (catalog.reusableRow integrityKey secret).isNone).map
    Prod.fst

theorem rows_of_folded {list : List (SecretId × SecretType × StoredRecordPayload)}
    (distinct : (list.map Prod.fst).Nodup) (inside : ∀ secret ∈ list, secret ∈ secrets.listed)
    {start result : SecretSearchCatalogReconcile × BTreeMap SecretId SecretSearchCatalogEntry}
    (folded : list.foldlM (catalog.reconcileSecret secrets crypto integrityKey) start =
      .ok result) :
    (∀ secret ∈ list, ∃ row, catalog.rowFor crypto integrityKey secret = .ok row ∧
      result.2[secret.1]? = some row) ∧
    ∀ id, id ∉ list.map Prod.fst → result.2[id]? = start.2[id]? := by
  induction list generalizing start with
  | nil =>
    cases folded
    exact ⟨fun secret member => (List.not_mem_nil member).elim, fun id _ => rfl⟩
  | cons head tail ih =>
    rw [List.map_cons, List.nodup_cons] at distinct
    rw [List.foldlM_cons, reconcileSecret_eq (inside head List.mem_cons_self)] at folded
    obtain ⟨middle, first, rest⟩ := bind_eq_ok.mp folded
    obtain ⟨row, made, same⟩ := map_eq_ok.mp first
    have left := ih distinct.2 (fun secret member => inside secret (List.mem_cons_of_mem _ member))
      rest
    have filed : middle.2 = start.2.insert head.1 row := by rw [← same]
    constructor
    · intro secret member
      rcases List.mem_cons.mp member with equal | later
      · refine ⟨row, equal ▸ made, ?_⟩
        rw [equal, left.2 head.1 distinct.1, filed, BTreeMap.getElem?_insert_eq, if_pos rfl]
      · exact left.1 secret later
    · intro id absent
      rw [List.map_cons, List.mem_cons, not_or] at absent
      rw [left.2 id absent.2, filed, BTreeMap.getElem?_insert_eq, if_neg (Ne.symm absent.1)]

theorem mask_of_folded {list : List (SecretId × SecretType × StoredRecordPayload)}
    (inside : ∀ secret ∈ list, secret ∈ secrets.listed)
    {start result : SecretSearchCatalogReconcile × BTreeMap SecretId SecretSearchCatalogEntry}
    (folded : list.foldlM (catalog.reconcileSecret secrets crypto integrityKey) start =
      .ok result) :
    result.1.changedBucketMask = bucketMaskOf
      ((list.filter fun secret => (catalog.reusableRow integrityKey secret).isNone).map Prod.fst)
      start.1.changedBucketMask := by
  induction list generalizing start with
  | nil =>
    cases folded
    rfl
  | cons head tail ih =>
    rw [List.foldlM_cons, reconcileSecret_eq (inside head List.mem_cons_self)] at folded
    obtain ⟨middle, first, rest⟩ := bind_eq_ok.mp folded
    obtain ⟨row, _, same⟩ := map_eq_ok.mp first
    rw [ih (fun secret member => inside secret (List.mem_cons_of_mem _ member)) rest, ← same]
    cases reusable : catalog.reusableRow integrityKey head with
    | some existing =>
      rw [List.filter_cons, reusable]
      rfl
    | none =>
      rw [List.filter_cons, reusable]
      rfl

/-- What a reconcile that succeeds leaves: the row of each secret and no other, and the buckets
of the removed and of the decrypted ids. -/
structure Reconciled (catalog : SecretSearchCatalog) (secrets : VaultSecrets)
    (crypto integrityKey : Auth.SymmetricKey) (after : SecretSearchCatalog)
    (outcome : SecretSearchCatalogReconcile) : Prop where
  version : after.version = catalog.version
  rows : ∀ secret ∈ secrets.listed, ∃ row, catalog.rowFor crypto integrityKey secret = .ok row ∧
    after.entries[secret.1]? = some row
  others : ∀ id, id ∉ secrets.ids → after.entries[id]? = none
  mask : outcome.changedBucketMask = bucketMaskOf
    (catalog.removedIds secrets ++ catalog.decryptedIds secrets integrityKey) 0

theorem reconciled_of_ok {after : SecretSearchCatalog} {outcome : SecretSearchCatalogReconcile}
    (done : catalog.reconcile secrets crypto integrityKey = (after, .ok outcome)) :
    catalog.Reconciled secrets crypto integrityKey after outcome := by
  unfold reconcile at done
  cases folded : secrets.listed.foldlM (catalog.reconcileSecret secrets crypto integrityKey)
      (catalog.removedOutcome secrets, ∅) with
  | error cause =>
    rw [folded] at done
    cases done
  | ok result =>
    rw [folded] at done
    cases done
    have rows := rows_of_folded secrets.distinct (fun _ member => member) folded
    have mask := mask_of_folded (fun _ member => member) folded
    refine ⟨rfl, rows.1, ?_, ?_⟩
    · intro id absent
      rw [rows.2 id absent, Std.ExtTreeMap.getElem?_empty]
    · rw [mask, bucketMaskOf_append]
      rfl

theorem unchanged_of_error {after : SecretSearchCatalog} {cause : SessionError}
    (failed : catalog.reconcile secrets crypto integrityKey = (after, .error cause)) :
    after = catalog := by
  unfold reconcile at failed
  cases folded : secrets.listed.foldlM (catalog.reconcileSecret secrets crypto integrityKey)
      (catalog.removedOutcome secrets, ∅) with
  | error other =>
    rw [folded] at failed
    cases failed
    rfl
  | ok result =>
    rw [folded] at failed
    cases failed

/-- A reconcile succeeds when each secret has a row. -/
theorem reconcile_ok
    (rows : ∀ secret ∈ secrets.listed, ∃ row, catalog.rowFor crypto integrityKey secret = .ok row) :
    ∃ after outcome, catalog.reconcile secrets crypto integrityKey = (after, .ok outcome) := by
  have steps : ∀ (before : List (SecretId × SecretType × StoredRecordPayload))
      (secret : SecretId × SecretType × StoredRecordPayload)
      (state : SecretSearchCatalogReconcile × BTreeMap SecretId SecretSearchCatalogEntry),
      secret ∈ secrets.listed → True →
      ∃ next, catalog.reconcileSecret secrets crypto integrityKey state secret = .ok next ∧
        True := by
    intro before secret state listed _
    obtain ⟨row, made⟩ := rows secret listed
    rw [reconcileSecret_eq listed, made]
    exact ⟨_, rfl, trivial⟩
  obtain ⟨result, folded, _⟩ := foldlM_rule (fun _ _ => True) secrets.listed
    (catalog.removedOutcome secrets, ∅) trivial steps
  refine ⟨{ catalog with entries := result.2 }, result.1, ?_⟩
  unfold reconcile
  rw [folded]

namespace Reconciled

variable {after : SecretSearchCatalog} {outcome : SecretSearchCatalogReconcile}

theorem entry_iff (done : catalog.Reconciled secrets crypto integrityKey after outcome)
    {id : SecretId} {entry : SecretSearchCatalogEntry} :
    after.entries[id]? = some entry ↔
      ∃ secret ∈ secrets.listed, secret.1 = id ∧
        catalog.rowFor crypto integrityKey secret = .ok entry := by
  constructor
  · intro found
    by_cases known : id ∈ secrets.ids
    · obtain ⟨secret, listed, rfl⟩ := List.mem_map.mp known
      obtain ⟨row, made, filed⟩ := done.rows secret listed
      exact ⟨secret, listed, rfl, by rw [made, ← Option.some.inj (filed.symm.trans found)]⟩
    · rw [done.others id known] at found
      cases found
  · rintro ⟨secret, listed, rfl, made⟩
    obtain ⟨row, made', filed⟩ := done.rows secret listed
    rw [filed, Except.ok.inj (made'.symm.trans made)]

/-- An entry that changes is in a bucket that is reported. -/
theorem changed (done : catalog.Reconciled secrets crypto integrityKey after outcome)
    {id : SecretId} (differs : catalog.entries[id]? ≠ after.entries[id]?) :
    SecretSearchCatalogBucketMask.contains outcome.changedBucketMask (bucketFor id) = true := by
  rw [done.mask]
  apply contains_of_mem
  rw [List.mem_append]
  by_cases known : id ∈ secrets.ids
  · right
    obtain ⟨secret, listed, rfl⟩ := List.mem_map.mp known
    apply List.mem_map.mpr
    refine ⟨secret, List.mem_filter.mpr ⟨listed, ?_⟩, rfl⟩
    cases reusable : catalog.reusableRow integrityKey secret with
    | none => rfl
    | some existing =>
      obtain ⟨row, made, filed⟩ := done.rows secret listed
      have kept : catalog.rowFor crypto integrityKey secret = .ok existing := by
        unfold rowFor
        rw [reusable]
      rw [filed, ← Except.ok.inj (kept.symm.trans made)] at differs
      exact absurd (reusableRow_eq_some.mp reusable).1 differs
  · left
    rw [done.others id known] at differs
    unfold removedIds
    rw [List.mem_filter, Std.ExtTreeMap.mem_keys, BTreeMap.mem_iff_getElem?]
    refine ⟨Option.ne_none_iff_exists'.mp differs, ?_⟩
    simpa [VaultSecrets.containsKey] using known

theorem mem_changedBuckets (done : catalog.Reconciled secrets crypto integrityKey after outcome)
    {bucket : UInt8} (small : bucket < SECRET_SEARCH_CATALOG_BUCKET_COUNT)
    (differs : catalog.bucketJson bucket ≠ after.bucketJson bucket) :
    bucket ∈ outcome.changedBuckets := by
  unfold SecretSearchCatalogReconcile.changedBuckets
  rw [List.mem_filter]
  refine ⟨mem_allBuckets.mpr small, ?_⟩
  by_contra unreported
  apply differs
  apply bucketJson_congr
  intro id own
  by_contra changed
  apply unreported
  rw [← own]
  exact done.changed changed

end Reconciled

/-! ### Rows that are kept -/

/-- What a catalog made by this code has: rows under their own ids, which stored records have,
with the search text of their items. -/
structure Filed (catalog : SecretSearchCatalog) : Prop where
  version : catalog.version = SEARCH_CATALOG_VERSION
  own : ∀ (id : SecretId) (entry : SecretSearchCatalogEntry),
    catalog.entries[id]? = some entry → entry.item.id = id
  searchable : ∀ (id : SecretId) (entry : SecretSearchCatalogEntry),
    catalog.entries[id]? = some entry → entry.normalizedSearchText = entry.item.normalizedSearchText
  labelled : ∀ (id : SecretId) (entry : SecretSearchCatalogEntry),
    catalog.entries[id]? = some entry → (SecretId.tryFrom id.asStr).isOk = true

/-- Every row whose tag verifies was signed for a payload that the vault's crypto opens, one of
those seen so far. -/
def Genuine (catalog : SecretSearchCatalog) (crypto integrityKey : Auth.SymmetricKey)
    (seen : Set StoredRecordPayload) : Prop :=
  ∀ (id : SecretId) (entry : SecretSearchCatalogEntry), catalog.entries[id]? = some entry →
    entry.hasValidIntegrity integrityKey = true →
    ∃ (signed : SecretId × SecretType × StoredRecordPayload) (record : SecretRecord),
      signed.2.2 ∈ seen ∧
      VaultSecretSession.decryptRecord signed.1 signed.2.1 signed.2.2 crypto = .ok record ∧
      SecretSearchCatalogEntry.integrityMessage entry.payloadDigest entry.item =
        SecretSearchCatalogEntry.integrityMessage
          (SecretSearchCatalogEntry.digestOf signed.2.2) record.listItem

omit [VaultCrypto] [SecretPayloadText] [CatalogHashes] [CatalogText] [UrlParser] [Casing] in
theorem not_found_default {id : SecretId} {entry : SecretSearchCatalogEntry} :
    default.entries[id]? ≠ some entry := by
  unfold default
  rw [Std.ExtTreeMap.getElem?_empty]
  simp

omit [VaultCrypto] [SecretPayloadText] [CatalogHashes] [CatalogText] in
theorem filed_default : default.Filed where
  version := rfl
  own _ _ found := absurd found not_found_default
  searchable _ _ found := absurd found not_found_default
  labelled _ _ found := absurd found not_found_default

omit [UrlParser] [Casing] in
theorem genuine_default (seen : Set StoredRecordPayload) :
    default.Genuine crypto integrityKey seen := by
  intro id entry found
  exact absurd found not_found_default

theorem freshRow_eq_ok {secret : SecretId × SecretType × StoredRecordPayload}
    {row : SecretSearchCatalogEntry} :
    freshRow crypto integrityKey secret = .ok row ↔
      ∃ record, VaultSecretSession.decryptRecord secret.1 secret.2.1 secret.2.2 crypto =
          .ok record ∧
        SecretSearchCatalogEntry.new (SecretSearchCatalogEntry.digestOf secret.2.2)
          record.listItem integrityKey = row := by
  unfold freshRow
  exact map_eq_ok

theorem rowFor_eq_ok {secret : SecretId × SecretType × StoredRecordPayload}
    {row : SecretSearchCatalogEntry} :
    catalog.rowFor crypto integrityKey secret = .ok row ↔
      catalog.reusableRow integrityKey secret = some row ∨
        catalog.reusableRow integrityKey secret = none ∧
          freshRow crypto integrityKey secret = .ok row := by
  unfold rowFor
  cases catalog.reusableRow integrityKey secret with
  | some existing => simp
  | none => simp

theorem rowFor_default (secret : SecretId × SecretType × StoredRecordPayload) :
    default.rowFor crypto integrityKey secret = freshRow crypto integrityKey secret := by
  have none : default.reusableRow integrityKey secret = none := by
    unfold reusableRow default
    rw [Std.ExtTreeMap.getElem?_empty]
    rfl
  unfold rowFor
  rw [none]

end Rows

end SecretSearchCatalog

namespace VaultSecretSession

variable [VaultCrypto] [SecretPayloadText] {crypto : Auth.SymmetricKey} {id : SecretId}
  {secretType : SecretType} {payload : StoredRecordPayload} {record : SecretRecord}

theorem decryptRecord_eq_ok :
    decryptRecord id secretType payload crypto = .ok record ↔
      ∃ ciphertext plaintext value, AgeArmoredCiphertext.parse payload.asStr = .ok ciphertext ∧
        VaultCrypto.decryptValue crypto ciphertext = .ok plaintext ∧
        SecretPayloadText.fromYamlStr secretType plaintext = some value ∧
        record = ⟨id, secretType, value.1⟩ := by
  unfold decryptRecord
  simp only [bind_eq_ok, mapError_eq_ok]
  constructor
  · rintro ⟨ciphertext, parsed, plaintext, opened, read⟩
    cases value : SecretPayloadText.fromYamlStr secretType plaintext with
    | none =>
      rw [value] at read
      cases read
    | some value' =>
      rw [value] at read
      cases read
      exact ⟨ciphertext, plaintext, value', parsed, opened, value, rfl⟩
  · rintro ⟨ciphertext, plaintext, value, parsed, opened, read, rfl⟩
    refine ⟨ciphertext, parsed, plaintext, opened, ?_⟩
    rw [read]
    rfl

/-- An opened record is of the kind asked for, and what it holds does not depend on its id. -/
theorem opened (read : decryptRecord id secretType payload crypto = .ok record) :
    record.id = id ∧ record.data.secretType = secretType ∧
      ∀ other, decryptRecord other secretType payload crypto = .ok { record with id := other } := by
  obtain ⟨ciphertext, plaintext, value, parsed, opened, held, rfl⟩ := decryptRecord_eq_ok.mp read
  refine ⟨rfl, value.2, ?_⟩
  intro other
  exact decryptRecord_eq_ok.mpr ⟨ciphertext, plaintext, value, parsed, opened, held, rfl⟩

end VaultSecretSession

namespace SecretSearchCatalogEntry

theorem integrityMessage_inj [CatalogText] (codec : CatalogText.Exact)
    {digest other : SecretSearchCatalogPayloadDigest} {item item' : SecretListItem}
    (same : integrityMessage digest item = integrityMessage other item') :
    digest = other ∧ item = item' := by
  unfold integrityMessage at same
  rw [List.append_assoc, List.append_assoc] at same
  have rest := List.append_cancel_left same
  have widths : digest.toList.length = other.toList.length := by simp
  obtain ⟨digests, texts⟩ := List.append_inj rest widths
  exact ⟨Vector.toList_inj.mp digests, codec.apart (utf8Encode_injective texts)⟩

/-- What a search sees of a row. -/
def view (entry : SecretSearchCatalogEntry) :
    SecretSearchCatalogPayloadDigest × SecretListItem × Str :=
  (entry.payloadDigest, entry.item, entry.normalizedSearchText)

end SecretSearchCatalogEntry

namespace SecretSearchCatalog

/-- Two catalogs with the same rows: ids, items, digests and search texts. -/
def SameRows (catalog other : SecretSearchCatalog) : Prop :=
  ∀ id : SecretId, (catalog.entries[id]?).map SecretSearchCatalogEntry.view =
    (other.entries[id]?).map SecretSearchCatalogEntry.view

variable [VaultCrypto] [SecretPayloadText] [CatalogHashes] [CatalogText] [UrlParser] [Casing]
  {catalog after : SecretSearchCatalog} {secrets : VaultSecrets}
  {crypto integrityKey : Auth.SymmetricKey} {seen : Set StoredRecordPayload}
  {outcome : SecretSearchCatalogReconcile}

/-- A row that is kept is the row that reading its ciphertext would give. -/
theorem fresh_of_reused (codec : CatalogText.Exact) (filed : catalog.Filed)
    (apart : Set.InjOn SecretSearchCatalogEntry.digestOf seen)
    (genuine : catalog.Genuine crypto integrityKey seen)
    {secret : SecretId × SecretType × StoredRecordPayload} (known : secret.2.2 ∈ seen)
    {existing : SecretSearchCatalogEntry}
    (reusable : catalog.reusableRow integrityKey secret = some existing) :
    ∃ fresh, freshRow crypto integrityKey secret = .ok fresh ∧ fresh.view = existing.view := by
  obtain ⟨found, digest, kind, valid⟩ := reusableRow_eq_some.mp reusable
  obtain ⟨signed, record, known', read, same⟩ := genuine secret.1 existing found valid
  obtain ⟨digest', item⟩ := SecretSearchCatalogEntry.integrityMessage_inj codec same
  have payload : signed.2.2 = secret.2.2 := apart known' known (digest'.symm.trans digest)
  obtain ⟨own, type, again⟩ := VaultSecretSession.opened read
  have kind' : signed.2.1 = secret.2.1 := by
    rw [← type, ← kind, item, SecretRecord.listItem_secretType]
  have id : record.id = secret.1 := by
    rw [← filed.own secret.1 existing found, item]
    rfl
  have read' := again secret.1
  rw [kind', payload, ← id] at read'
  rw [id] at read'
  refine ⟨_, freshRow_eq_ok.mpr ⟨record, ?_, rfl⟩, ?_⟩
  · rw [read', ← id]
  · have text := filed.searchable secret.1 existing found
    unfold SecretSearchCatalogEntry.view SecretSearchCatalogEntry.new
    rw [digest, text, item]

/-- The row of a secret, kept or not, is the row that reading its ciphertext would give. -/
theorem fresh_of_row (codec : CatalogText.Exact) (filed : catalog.Filed)
    (apart : Set.InjOn SecretSearchCatalogEntry.digestOf seen)
    (genuine : catalog.Genuine crypto integrityKey seen)
    {secret : SecretId × SecretType × StoredRecordPayload} (known : secret.2.2 ∈ seen)
    {row : SecretSearchCatalogEntry} (made : catalog.rowFor crypto integrityKey secret = .ok row) :
    ∃ fresh, freshRow crypto integrityKey secret = .ok fresh ∧ fresh.view = row.view := by
  rcases rowFor_eq_ok.mp made with reusable | ⟨_, fresh⟩
  · exact fresh_of_reused codec filed apart genuine known reusable
  · exact ⟨row, fresh, rfl⟩

theorem Filed.reconciled (filed : catalog.Filed)
    (done : catalog.Reconciled secrets crypto integrityKey after outcome) : after.Filed := by
  have each : ∀ (id : SecretId) (entry : SecretSearchCatalogEntry),
      after.entries[id]? = some entry → entry.item.id = id ∧
        entry.normalizedSearchText = entry.item.normalizedSearchText ∧
        (SecretId.tryFrom id.asStr).isOk = true := by
    intro id entry found
    obtain ⟨secret, listed, rfl, made⟩ := done.entry_iff.mp found
    rcases rowFor_eq_ok.mp made with reusable | ⟨_, fresh⟩
    · have held := (reusableRow_eq_some.mp reusable).1
      exact ⟨filed.own _ _ held, filed.searchable _ _ held, filed.labelled _ _ held⟩
    · obtain ⟨record, read, rfl⟩ := freshRow_eq_ok.mp fresh
      exact ⟨(VaultSecretSession.opened read).1, rfl, secrets.labelled secret listed⟩
  exact ⟨done.version.trans filed.version, fun id entry found => (each id entry found).1,
    fun id entry found => (each id entry found).2.1,
    fun id entry found => (each id entry found).2.2⟩

theorem Genuine.reconciled (genuine : catalog.Genuine crypto integrityKey seen)
    (known : ∀ secret ∈ secrets.listed, secret.2.2 ∈ seen)
    (done : catalog.Reconciled secrets crypto integrityKey after outcome) :
    after.Genuine crypto integrityKey seen := by
  intro id entry found valid
  obtain ⟨secret, listed, rfl, made⟩ := done.entry_iff.mp found
  rcases rowFor_eq_ok.mp made with reusable | ⟨_, fresh⟩
  · exact genuine _ entry (reusableRow_eq_some.mp reusable).1 valid
  · obtain ⟨record, read, rfl⟩ := freshRow_eq_ok.mp fresh
    exact ⟨secret, record, known secret listed, read, rfl⟩

/-- A catalog that a reconcile leaves has the rows of a catalog made anew, whichever way the
map is walked. -/
theorem Reconciled.rebuilt (codec : CatalogText.Exact) (filed : catalog.Filed)
    (apart : Set.InjOn SecretSearchCatalogEntry.digestOf seen)
    (met : ∀ secret ∈ secrets.listed, secret.2.2 ∈ seen)
    (genuine : catalog.Genuine crypto integrityKey seen)
    (done : catalog.Reconciled secrets crypto integrityKey after outcome)
    {walked : VaultSecrets} (same : walked.listed.Perm secrets.listed) :
    ∃ rebuilt counted, default.reconcile walked crypto integrityKey = (rebuilt, .ok counted) ∧
      after.SameRows rebuilt := by
  have fresh : ∀ secret ∈ secrets.listed, ∀ row,
      catalog.rowFor crypto integrityKey secret = .ok row →
      ∃ fresh, freshRow crypto integrityKey secret = .ok fresh ∧ fresh.view = row.view :=
    fun secret listed row made => fresh_of_row codec filed apart genuine (met secret listed) made
  have readable : ∀ secret ∈ walked.listed, ∃ row,
      default.rowFor crypto integrityKey secret = .ok row := by
    intro secret listed
    obtain ⟨row, made, _⟩ := done.rows secret (same.mem_iff.mp listed)
    obtain ⟨anew, read, _⟩ := fresh secret (same.mem_iff.mp listed) row made
    exact ⟨anew, (rowFor_default secret).trans read⟩
  obtain ⟨rebuilt, counted, again⟩ := reconcile_ok readable
  have done' := reconciled_of_ok again
  refine ⟨rebuilt, counted, again, ?_⟩
  intro id
  by_cases known : id ∈ secrets.ids
  · obtain ⟨secret, listed, rfl⟩ := List.mem_map.mp known
    obtain ⟨row, made, filed⟩ := done.rows secret listed
    obtain ⟨row', made', filed'⟩ := done'.rows secret (same.mem_iff.mpr listed)
    obtain ⟨anew, read, view⟩ := fresh secret listed row made
    rw [rowFor_default, read] at made'
    rw [filed, filed', Option.map_some, Option.map_some, ← view, Except.ok.inj made']
  · have unknown : id ∉ walked.ids := by
      unfold VaultSecrets.ids
      rw [(same.map Prod.fst).mem_iff]
      exact known
    rw [done.others id known, done'.others id unknown]

end SecretSearchCatalog

end Nook.Vault
