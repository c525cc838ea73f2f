import Nook.Vault.SearchCatalogRebuild

set_option autoImplicit false

namespace Nook.Vault

open Nook.Lib Nook.EventLog Nook.Auth Nook.Recovery Nook.Secrets

def MAX_SECRET_PAGE_SIZE : Nat := 100

inductive SecretCategory where
  | secrets
  | personalData
  deriving DecidableEq

/-- Vault section that lists and creates a secret type. -/
def category : SecretType → SecretCategory
  | .login | .apiKey | .seedPhrase | .secureNote | .passkey | .authenticator
  | .fileAttachment => .secrets
  | .person | .address | .identityDocument | .internationalAccount | .domesticAccount
  | .creditCard => .personalData

inductive SecretTypeFilter where
  | all
  | category (category : SecretCategory)
  | only (secretType : SecretType)
  deriving DecidableEq

def SecretTypeFilter.matches (filter : SecretTypeFilter) (candidate : SecretType) : Bool :=
  match filter with
  | all => true
  | category expected => decide (Vault.category candidate = expected)
  | only expected => decide (expected = candidate)

structure SecretPage where
  records : List SecretListItem
  total : Nat
  offset : Nat
  limit : Nat
  deriving DecidableEq

/-- A page size within its bounds. -/
def clampLimit (limit : Nat) : Nat := max 1 (min limit MAX_SECRET_PAGE_SIZE)

/-- The rows of a page. -/
def pageOf {α : Type} (rows : List α) (offset limit : Nat) : List α := (rows.drop offset).take limit

/-- One more match is on the page when the matches before it reach the page and leave room. -/
theorem pageOf_concat {α : Type} (rows : List α) (row : α) (offset limit : Nat) :
    pageOf (rows ++ [row]) offset limit =
      if offset ≤ rows.length ∧ (pageOf rows offset limit).length < limit then
        pageOf rows offset limit ++ [row]
      else pageOf rows offset limit := by
  unfold pageOf
  by_cases reached : offset ≤ rows.length
  · rw [List.drop_append_of_le_length reached]
    by_cases room : (rows.drop offset).length < limit
    · have whole : (rows.drop offset).take limit = rows.drop offset :=
        List.take_of_length_le (by omega)
      rw [whole, if_pos ⟨reached, room⟩]
      exact List.take_of_length_le (by rw [List.length_append, List.length_singleton]; omega)
    · have full : ((rows.drop offset).take limit).length = limit := by
        rw [List.length_take]
        omega
      rw [List.take_append_of_le_length (by omega), if_neg (by omega)]
  · have before : (rows ++ [row]).drop offset = [] := by
      apply List.drop_eq_nil_of_le
      rw [List.length_append, List.length_singleton]
      omega
    have before' : rows.drop offset = [] := List.drop_eq_nil_of_le (by omega)
    rw [before, before', if_neg (by omega)]

namespace SecretSearchCatalog

variable [Casing]

/-- Whether a row passes a filter and a search. -/
def shows (needle : Str) (filter : SecretTypeFilter) (entry : SecretSearchCatalogEntry) : Bool :=
  filter.matches entry.item.secretType &&
    (needle.isEmpty || Secrets.containsText entry.normalizedSearchText needle)

def query (catalog : SecretSearchCatalog) (query : Str) (filter : SecretTypeFilter)
    (offset limit : Nat) : SecretPage :=
  let needle := Casing.toLowercase (trim query)
  let limit := clampLimit limit
  let found := catalog.entries.intoValues.filter (shows needle filter)
  ⟨(pageOf found offset limit).map SecretSearchCatalogEntry.item, found.length, offset, limit⟩

end SecretSearchCatalog

namespace VaultSecrets

/-- The ids in their order. -/
def sortedIds (secrets : VaultSecrets) : List SecretId := secrets.ids.insertionSort (· ≤ ·)

/-- Whether a secret passes a filter, by its declared kind. -/
def passes (secrets : VaultSecrets) (filter : SecretTypeFilter) (id : SecretId) : Bool :=
  match secrets.get id with
  | some secret => filter.matches secret.1
  | none => false

theorem mem_sortedIds {secrets : VaultSecrets} {id : SecretId} :
    id ∈ secrets.sortedIds ↔ id ∈ secrets.ids :=
  (List.perm_insertionSort _ _).mem_iff

end VaultSecrets

namespace VaultSecretSession

variable [VaultCrypto] [SecretPayloadText] [UrlParser] [Casing]

/-- The list item of one secret, which is decrypted for it. -/
def listItem (secrets : VaultSecrets) (crypto : Auth.SymmetricKey) (id : SecretId) :
    Except SessionError SecretListItem := do
  let record ← decrypt secrets crypto id
  return record.listItem

/-- One id of a search: its secret is decrypted and matched. -/
def searchId (secrets : VaultSecrets) (crypto : Auth.SymmetricKey) (needle : Str)
    (filter : SecretTypeFilter) (offset limit : Nat) (state : Nat × List SecretListItem)
    (id : SecretId) : Except SessionError (Nat × List SecretListItem) :=
  match secrets.get id with
  | none => .error (.secretNotFound id)
  | some (secretType, payload) =>
    if !filter.matches secretType then .ok state
    else do
      let record ← decryptRecord id secretType payload crypto
      if record.matchesSearch needle then
        return (state.1 + 1,
          if offset ≤ state.1 ∧ state.2.length < limit then state.2 ++ [record.listItem]
          else state.2)
      else return state

/-- Decrypt only the requested page from a ciphertext-backed vault session, or, for a search,
every candidate. -/
def query (secrets : VaultSecrets) (crypto : Auth.SymmetricKey) (query : Str)
    (filter : SecretTypeFilter) (offset limit : Nat) : Except SessionError SecretPage :=
  let limit := clampLimit limit
  let needle := trim query
  if needle.isEmpty then do
    let ids := secrets.sortedIds.filter (secrets.passes filter)
    let records ← (pageOf ids offset limit).mapM (listItem secrets crypto)
    return ⟨records, ids.length, offset, limit⟩
  else do
    let (total, records) ←
      secrets.sortedIds.foldlM (searchId secrets crypto needle filter offset limit) (0, [])
    return ⟨records, total, offset, limit⟩

end VaultSecretSession

/-! ### Both paths show the same page -/

namespace SecretSearchCatalog

variable [VaultCrypto] [SecretPayloadText] [UrlParser] [Casing]

/-- A catalog with one row for each secret, the row of its opened record. -/
structure Mirrors (catalog : SecretSearchCatalog) (secrets : VaultSecrets)
    (crypto : Auth.SymmetricKey) : Prop where
  rows : ∀ secret ∈ secrets.listed, ∃ (record : SecretRecord) (entry : SecretSearchCatalogEntry),
    VaultSecretSession.decryptRecord secret.1 secret.2.1 secret.2.2 crypto = .ok record ∧
    catalog.entries[secret.1]? = some entry ∧ entry.item = record.listItem ∧
    entry.normalizedSearchText = record.listItem.normalizedSearchText
  others : ∀ id : SecretId, id ∉ secrets.ids → catalog.entries[id]? = none

variable {catalog : SecretSearchCatalog} {secrets : VaultSecrets} {crypto : Auth.SymmetricKey}

namespace Mirrors

/-- The ids of the catalog are the ids of the map in their order. -/
theorem keys (mirrors : catalog.Mirrors secrets crypto) :
    catalog.entries.keys = secrets.sortedIds := by
  have members : ∀ id, id ∈ catalog.entries.keys ↔ id ∈ secrets.sortedIds := by
    intro id
    rw [VaultSecrets.mem_sortedIds, Std.ExtTreeMap.mem_keys, BTreeMap.mem_iff_getElem?]
    constructor
    · rintro ⟨entry, found⟩
      by_contra unknown
      rw [mirrors.others id unknown] at found
      cases found
    · intro known
      obtain ⟨secret, listed, rfl⟩ := List.mem_map.mp known
      obtain ⟨_, entry, _, found, _⟩ := mirrors.rows secret listed
      exact ⟨entry, found⟩
  have distinct : secrets.sortedIds.Nodup :=
    (List.perm_insertionSort _ _).nodup_iff.mpr secrets.distinct
  have permuted : catalog.entries.keys.Perm secrets.sortedIds :=
    (List.perm_ext_iff_of_nodup Std.ExtTreeMap.nodup_keys distinct).mpr members
  have ordered : catalog.entries.keys.Pairwise (· ≤ ·) := by
    apply Std.ExtTreeMap.ordered_keys.imp
    intro left right less
    exact le_of_lt (compare_lt_iff_lt.mp less)
  exact permuted.eq_of_pairwise' ordered (List.pairwise_insertionSort (· ≤ ·) secrets.ids)

/-- The rows of the catalog in the order of the ids. -/
theorem values (mirrors : catalog.Mirrors secrets crypto) :
    ∃ rowAt : SecretId → SecretSearchCatalogEntry,
      catalog.entries.intoValues = secrets.sortedIds.map rowAt ∧
      ∀ secret ∈ secrets.listed, ∃ record : SecretRecord,
        VaultSecretSession.decryptRecord secret.1 secret.2.1 secret.2.2 crypto = .ok record ∧
        (rowAt secret.1).item = record.listItem ∧
        (rowAt secret.1).normalizedSearchText = record.listItem.normalizedSearchText := by
  let blank : SecretSearchCatalogEntry :=
    ⟨Vector.replicate _ 0, ⟨⟨[]⟩, .secureNote []⟩, [], []⟩
  refine ⟨fun id => (catalog.entries[id]?).getD blank, ?_, ?_⟩
  · rw [← mirrors.keys, ← Std.ExtTreeMap.map_fst_toList_eq_keys, List.map_map]
    unfold BTreeMap.intoValues
    apply List.map_congr_left
    intro row listed
    show row.2 = (catalog.entries[row.1]?).getD blank
    rw [(BTreeMap.mem_toList_iff _ row.1 row.2).mp listed]
    rfl
  · intro secret listed
    obtain ⟨record, entry, read, found, item, text⟩ := mirrors.rows secret listed
    refine ⟨record, read, ?_, ?_⟩
    · show ((catalog.entries[secret.1]?).getD blank).item = _
      rw [found]
      exact item
    · show ((catalog.entries[secret.1]?).getD blank).normalizedSearchText = _
      rw [found]
      exact text

end Mirrors

/-- What a search shows of a row is what it matches of the opened record. -/
theorem shows_eq {secret : SecretId × SecretType × StoredRecordPayload} {record : SecretRecord}
    {entry : SecretSearchCatalogEntry} (read :
      VaultSecretSession.decryptRecord secret.1 secret.2.1 secret.2.2 crypto = .ok record)
    (item : entry.item = record.listItem)
    (text : entry.normalizedSearchText = record.listItem.normalizedSearchText) (query : Str)
    (filter : SecretTypeFilter) :
    shows (Casing.toLowercase (trim query)) filter entry =
      (filter.matches secret.2.1 && record.matchesSearch (trim query)) := by
  have kind : entry.item.secretType = secret.2.1 := by
    rw [item, SecretRecord.listItem_secretType, (VaultSecretSession.opened read).2.1]
  unfold shows SecretRecord.matchesSearch
  rw [kind, text, trim_trim]

/-- A search of the session finds what the catalog shows. -/
theorem Mirrors.searched (mirrors : catalog.Mirrors secrets crypto) (query : Str)
    (filter : SecretTypeFilter) (offset limit : Nat) :
    secrets.sortedIds.foldlM
        (VaultSecretSession.searchId secrets crypto (trim query) filter offset limit) (0, []) =
      .ok ((catalog.entries.intoValues.filter
          (shows (Casing.toLowercase (trim query)) filter)).length,
        (pageOf (catalog.entries.intoValues.filter
          (shows (Casing.toLowercase (trim query)) filter)) offset limit).map
            SecretSearchCatalogEntry.item) := by
  obtain ⟨rowAt, values, rows⟩ := mirrors.values
  let found : List SecretId → List SecretSearchCatalogEntry := fun ids =>
    (ids.map rowAt).filter (shows (Casing.toLowercase (trim query)) filter)
  have steps : ∀ (before : List SecretId) (id : SecretId) (state : Nat × List SecretListItem),
      id ∈ secrets.sortedIds →
      state = ((found before).length, (pageOf (found before) offset limit).map
        SecretSearchCatalogEntry.item) →
      ∃ next, VaultSecretSession.searchId secrets crypto (trim query) filter offset limit state
          id = .ok next ∧
        next = ((found (before ++ [id])).length, (pageOf (found (before ++ [id])) offset limit).map
          SecretSearchCatalogEntry.item) := by
    intro before id state known same
    rw [VaultSecrets.mem_sortedIds] at known
    obtain ⟨secret, listed, rfl⟩ := List.mem_map.mp known
    obtain ⟨record, read, item, text⟩ := rows secret listed
    have shown := shows_eq read item text query filter
    have more : found (before ++ [secret.1]) = found before ++
        bif filter.matches secret.2.1 && record.matchesSearch (trim query) then [rowAt secret.1]
        else [] := by
      show List.filter _ (List.map _ _) = _
      rw [List.map_append, List.filter_append, List.map_singleton, List.filter_singleton, shown]
    unfold VaultSecretSession.searchId
    rw [VaultSecrets.get_of_listed listed, more, same]
    dsimp only
    cases matched : filter.matches secret.2.1 with
    | false =>
      rw [Bool.false_and, cond_false, List.append_nil]
      exact ⟨_, rfl, rfl⟩
    | true =>
      rw [Bool.not_true, if_neg Bool.false_ne_true, read, Bool.true_and]
      cases hit : record.matchesSearch (trim query) with
      | false =>
        rw [cond_false, List.append_nil]
        refine ⟨((found before).length, _), ?_, rfl⟩
        show (if record.matchesSearch (trim query) = true then _ else _) = _
        rw [hit]
        rfl
      | true =>
        rw [cond_true, pageOf_concat, List.length_append, List.length_singleton]
        refine ⟨_, ?_, rfl⟩
        show (if record.matchesSearch (trim query) = true then _ else _) = _
        rw [hit, if_pos rfl, List.length_map]
        split
        · rw [List.map_append, List.map_singleton, item]
          rfl
        · rfl
  obtain ⟨result, folded, same⟩ := foldlM_rule
    (fun before state => state = ((found before).length, (pageOf (found before) offset limit).map
      SecretSearchCatalogEntry.item)) secrets.sortedIds (0, []) (by simp [found, pageOf]) steps
  rw [folded, same, values]

/-- A page of the session without a search holds what the catalog shows. -/
theorem Mirrors.paged (mirrors : catalog.Mirrors secrets crypto) (filter : SecretTypeFilter)
    (offset limit : Nat) :
    (pageOf (secrets.sortedIds.filter (secrets.passes filter)) offset limit).mapM
        (VaultSecretSession.listItem secrets crypto) =
      .ok ((pageOf (catalog.entries.intoValues.filter
        (shows [] filter)) offset limit).map SecretSearchCatalogEntry.item) ∧
    (secrets.sortedIds.filter (secrets.passes filter)).length =
      (catalog.entries.intoValues.filter (shows [] filter)).length := by
  obtain ⟨rowAt, values, rows⟩ := mirrors.values
  have same : secrets.sortedIds.filter (secrets.passes filter) =
      secrets.sortedIds.filter (shows [] filter ∘ rowAt) := by
    apply List.filter_congr
    intro id known
    rw [VaultSecrets.mem_sortedIds] at known
    obtain ⟨secret, listed, rfl⟩ := List.mem_map.mp known
    obtain ⟨record, read, item, text⟩ := rows secret listed
    have kind : (rowAt secret.1).item.secretType = secret.2.1 := by
      rw [item, SecretRecord.listItem_secretType, (VaultSecretSession.opened read).2.1]
    unfold VaultSecrets.passes
    rw [VaultSecrets.get_of_listed listed]
    show _ = (filter.matches (rowAt secret.1).item.secretType && true)
    rw [kind, Bool.and_true]
  have found : catalog.entries.intoValues.filter (shows [] filter) =
      (secrets.sortedIds.filter (secrets.passes filter)).map rowAt := by
    rw [values, List.filter_map, same]
  refine ⟨?_, by rw [found, List.length_map]⟩
  have each : ∀ id ∈ pageOf (secrets.sortedIds.filter (secrets.passes filter)) offset limit,
      VaultSecretSession.listItem secrets crypto id = .ok (rowAt id).item := by
    intro id member
    have known : id ∈ secrets.sortedIds :=
      List.mem_of_mem_filter (List.mem_of_mem_drop (List.mem_of_mem_take member))
    rw [VaultSecrets.mem_sortedIds] at known
    obtain ⟨secret, listed, rfl⟩ := List.mem_map.mp known
    obtain ⟨record, read, item, _⟩ := rows secret listed
    unfold VaultSecretSession.listItem VaultSecretSession.decrypt
    rw [VaultSecrets.get_of_listed listed]
    dsimp only
    rw [read, item]
    rfl
  rw [mapM_eq_ok_map each, found]
  unfold pageOf
  rw [← List.map_drop, ← List.map_take, List.map_map]
  rfl

/-- The page the catalog shows is the page that decrypting the secrets gives. -/
theorem Mirrors.same_page (casing : AsciiCasing) (mirrors : catalog.Mirrors secrets crypto)
    (query : Str) (filter : SecretTypeFilter) (offset limit : Nat) :
    VaultSecretSession.query secrets crypto query filter offset limit =
      .ok (catalog.query query filter offset limit) := by
  unfold VaultSecretSession.query SecretSearchCatalog.query
  by_cases blank : (trim query).isEmpty = true
  · have none : trim query = [] := List.isEmpty_iff.mp blank
    have lower : Casing.toLowercase [] = [] := casing [] (by simp)
    obtain ⟨records, total⟩ := mirrors.paged filter offset (clampLimit limit)
    dsimp only
    rw [if_pos blank, none, lower, records, total]
    rfl
  · dsimp only
    rw [if_neg blank, mirrors.searched]
    rfl

variable [CatalogHashes] [CatalogText] {integrityKey : Auth.SymmetricKey}
  {seen : Set StoredRecordPayload} {after : SecretSearchCatalog}
  {outcome : SecretSearchCatalogReconcile}

theorem Reconciled.mirrors (codec : CatalogText.Exact) (filed : catalog.Filed)
    (apart : Set.InjOn SecretSearchCatalogEntry.digestOf seen)
    (met : ∀ secret ∈ secrets.listed, secret.2.2 ∈ seen)
    (genuine : catalog.Genuine crypto integrityKey seen)
    (done : catalog.Reconciled secrets crypto integrityKey after outcome) :
    after.Mirrors secrets crypto := by
  refine ⟨?_, done.others⟩
  intro secret listed
  obtain ⟨row, made, found⟩ := done.rows secret listed
  obtain ⟨fresh, anew, view⟩ := fresh_of_row codec filed apart genuine (met secret listed) made
  obtain ⟨record, read, rfl⟩ := freshRow_eq_ok.mp anew
  unfold SecretSearchCatalogEntry.view at view
  exact ⟨record, row, read, found, (congrArg (·.2.1) view).symm, (congrArg (·.2.2) view).symm⟩

/-- The page a reconciled catalog shows is the page that decrypting the vault's secrets gives, for
every search, filter and page: no secret is missed, shown twice, or shown as it was before. -/
theorem catalog_page_is_decrypted_page (codec : CatalogText.Exact) (casing : AsciiCasing)
    (filed : catalog.Filed) (apart : Set.InjOn SecretSearchCatalogEntry.digestOf seen)
    (met : ∀ secret ∈ secrets.listed, secret.2.2 ∈ seen)
    (genuine : catalog.Genuine crypto integrityKey seen)
    (success : catalog.reconcile secrets crypto integrityKey = (after, .ok outcome))
    (query : Str) (filter : SecretTypeFilter) (offset limit : Nat) :
    VaultSecretSession.query secrets crypto query filter offset limit =
      .ok (after.query query filter offset limit) :=
  ((reconciled_of_ok success).mirrors codec filed apart met genuine).same_page casing query filter
    offset limit

end SecretSearchCatalog

end Nook.Vault
