import Nook.Vault.VaultSections

set_option autoImplicit false

namespace Nook.Vault

open Nook.Lib Nook.EventLog Nook.Auth

/-! ### Exact secret ids -/

theorem SecretId.parse_eq_ok {raw : Str} {id : SecretId} (parsed : SecretId.parse raw = .ok id) :
    ∃ token, CompactToken.isValid token = true ∧ id.asStr = "secret_".toList ++ token ∧
      (AppId.parse token).isOk = false ∧ AuthKeyId.isValid id.asStr = false := by
  unfold SecretId.parse at parsed
  dsimp only at parsed
  split at parsed
  · cases parsed
  · split at parsed
    · cases parsed
    · rename_i token stripped
      split at parsed
      · cases parsed
      · rename_i valid
        split at parsed
        · cases parsed
        · rename_i free
          cases parsed
          have whole := stripPrefix_eq_some.mp stripped
          rw [Bool.or_eq_true, not_or, Bool.not_eq_true, Bool.not_eq_true, whole] at free
          exact ⟨token, not_not.mp valid, rfl, free.1, free.2⟩

theorem SecretId.isUrlSafe_lead : ∀ char ∈ "secret_".toList, isUrlSafe char = true :=
  List.all_eq_true.mp (by decide)

/-- An exact id is parsed as itself. -/
theorem SecretId.parse_asStr {raw : Str} {id : SecretId} (parsed : SecretId.parse raw = .ok id) :
    SecretId.parse id.asStr = .ok id := by
  obtain ⟨token, valid, same, unreserved, unkeyed⟩ := SecretId.parse_eq_ok parsed
  have kept : trim id.asStr = id.asStr := by
    rw [same]
    exact trim_of_isUrlSafe
      (isUrlSafe_append SecretId.isUrlSafe_lead (CompactToken.isUrlSafe_of_isValid valid))
  have stripped : stripPrefix id.asStr "secret_".toList = some token := stripPrefix_eq_some.mpr same
  have some : id.asStr.isEmpty = false := by rw [same]; rfl
  unfold SecretId.parse
  simp only [kept, some, stripped, valid, unreserved, unkeyed, Bool.false_eq_true, if_false,
    not_true_eq_false, Bool.or_self, Except.ok.injEq]
  exact Text.asStr_injective same.symm

namespace StoredVaultYaml

theorem normalizedKey_idem (key : SecretId) :
    normalizedKey (normalizedKey key) = normalizedKey key := by
  unfold normalizedKey
  cases parsed : SecretId.parse key.asStr with
  | ok id => simp only [SecretId.parse_asStr parsed]
  | error cause => simp only [parsed]

theorem tryFrom_normalizedKey {key : SecretId} (labelled : (SecretId.tryFrom key.asStr).isOk = true) :
    (SecretId.tryFrom (normalizedKey key).asStr).isOk = true := by
  unfold normalizedKey
  cases parsed : SecretId.parse key.asStr with
  | error cause => exact labelled
  | ok id =>
    obtain ⟨token, valid, same, _⟩ := SecretId.parse_eq_ok parsed
    have kept : trim id.asStr = id.asStr := by
      rw [same]
      exact trim_of_isUrlSafe
        (isUrlSafe_append SecretId.isUrlSafe_lead (CompactToken.isUrlSafe_of_isValid valid))
    unfold SecretId.tryFrom
    dsimp only
    rw [kept, same]
    rfl

end StoredVaultYaml

/-! ### A kept record keeps its section -/

variable [AgeRecipients] [JsonText] {record : StoredSecretRecord} {row : VaultMetaRecord}

/-- The envelopes of every auth record are read from the JSON written of them. -/
def EnvelopesReadBack (records : List StoredSecretRecord) : Prop :=
  ∀ record ∈ records, ∀ authId envelopes,
    classify record = .ok (.auth authId envelopes) → envelopes.toJson.ReadsBack

/-- A secret under an exact id is a secret of the same type and value. -/
theorem classify_normalized {id : SecretId} {secretType : SecretType}
    {payload : StoredRecordPayload}
    (classified : classify record = .ok (.secret id secretType payload)) :
    classify { record with key := StoredVaultYaml.normalizedKey record.key } =
      .ok (.secret (StoredVaultYaml.normalizedKey record.key) secretType payload) := by
  rcases classify_cases classified with ⟨_, _, _, _, _, _, other⟩ |
    ⟨unshared, ⟨_, _, other⟩ | ⟨unread, ⟨_, _, other⟩ | ⟨unnamed, ⟨_, _, _, other⟩ |
      ⟨missing, own, same⟩⟩⟩⟩
  · cases other
  · cases other
  · cases other
  · cases other
  · cases same
    unfold StoredVaultYaml.normalizedKey
    cases parsed : SecretId.parse record.key.asStr with
    | error cause => exact classified
    | ok id =>
      obtain ⟨token, _, written, _, unkeyed⟩ := SecretId.parse_eq_ok parsed
      have unshared' : stripPrefix id.asStr sentinelShareRecordPrefix = none := by
        rw [written]
        rfl
      have unnamed' : memberRowId { record with key := id } = none := by
        have other : stripPrefix id.asStr memberRecordPrefix = none := by
          rw [written]
          rfl
        unfold memberRowId
        rw [other]
        rfl
      have missing' : authRow { record with key := id } = none := by
        unfold authRow
        rw [if_neg (by simp [unkeyed])]
      unfold classify at classified ⊢
      cases refused : JoinRequest.parseJson record.value.asStr with
      | ok request => exact absurd refused (unread request)
      | error cause =>
        simp only [unshared, unnamed, missing, refused, Except.ok.injEq] at classified
        simp only [unshared', unnamed', missing']
        rw [← (VaultMetaRecord.secret.inj classified).2.1]

theorem asRead_of_auth {authId : AuthKeyId} {envelopes : AuthEnvelopes}
    (classified : classify record = .ok (.auth authId envelopes)) :
    asRead record = (VaultMetaRecord.auth authId envelopes).toStored := by
  have key : record.key = ⟨authId.asStr⟩ :=
    Text.asStr_injective (auth_of_classify classified).1
  simp only [asRead, classified, key, VaultMetaRecord.toStored]

theorem asRead_of_member {authId : AuthKeyId} {payload : StoredRecordPayload}
    (classified : classify record = .ok (.member authId payload)) :
    asRead record = (VaultMetaRecord.member authId payload).toStored := by
  simp only [asRead, classified, (member_of_classify classified).1, VaultMetaRecord.toStored]

omit [AgeRecipients] in
theorem isLocalDeviceWrapper_envelopes {envelopes : AuthEnvelopes}
    (readsBack : envelopes.toJson.ReadsBack) :
    StoredVaultYaml.isLocalDeviceWrapper (JsonText.print envelopes.toJson) = false := by
  unfold StoredVaultYaml.isLocalDeviceWrapper
  rw [readsBack.parse_print]
  rfl

/-- What is read of a kept record is kept in the same section, as the same row, and is read as
itself. -/
theorem asRead_spec (kept : isKept record = true) (classified : classify record = .ok row)
    (readsBack : ∀ authId envelopes, row = .auth authId envelopes → envelopes.toJson.ReadsBack) :
    isKept (asRead record) = true ∧
      vaultSection (asRead record) = some (VaultSection.ofRow row) ∧
      asRead (asRead record) = asRead record ∧ authYaml (asRead record) = authYaml record ∧
      memberYaml (asRead record) = memberYaml record := by
  cases row with
  | secret id secretType payload =>
    have again := classify_normalized classified
    have read : asRead record =
        { record with key := StoredVaultYaml.normalizedKey record.key } := by
      simp only [asRead, classified]
    have filed := vaultSection_of_classify again
    rw [read]
    refine ⟨kept, filed, ?_, ?_, ?_⟩
    · simp only [asRead, again, StoredVaultYaml.normalizedKey_idem]
    · simp only [authYaml, again, classified]
    · simp only [memberYaml, again, classified]
  | auth authId envelopes =>
    have own := readsBack authId envelopes rfl
    have again : classify (VaultMetaRecord.auth authId envelopes).toStored = _ :=
      classify_toStored own classified
    have read := asRead_of_auth classified
    have free : isKept (VaultMetaRecord.auth authId envelopes).toStored = true := by
      unfold isKept
      rw [Bool.not_eq_true']
      exact isLocalDeviceWrapper_envelopes own
    rw [read]
    refine ⟨free, vaultSection_of_classify again, asRead_of_auth again, ?_, ?_⟩
    · simp only [authYaml, again, classified]
    · simp only [memberYaml, again, classified]
  | member authId payload =>
    have again : classify (VaultMetaRecord.member authId payload).toStored = _ :=
      classify_toStored (by exact trivial) classified
    have read := asRead_of_member classified
    have free : isKept (VaultMetaRecord.member authId payload).toStored = true := by
      rw [(member_of_classify classified).1]
      exact kept
    rw [read]
    refine ⟨free, vaultSection_of_classify again, asRead_of_member again, ?_, ?_⟩
    · simp only [authYaml, again, classified]
    · simp only [memberYaml, again, classified]
  | join | sentinelShare =>
    have read : asRead record = record := by simp only [asRead, classified]
    rw [read]
    exact ⟨kept, vaultSection_of_classify classified, read, rfl, rfl⟩

theorem intoStoredRecord_authYaml {authId : AuthKeyId} {envelopes : AuthEnvelopes}
    (classified : classify record = .ok (.auth authId envelopes)) :
    (authYaml record).intoStoredRecord = .ok (asRead record) := by
  have again := AuthKeyId.parse_asStr (auth_of_classify classified).2.1
  rw [asRead_of_auth classified]
  simp only [AuthYamlRecord.intoStoredRecord, authYaml, classified, again,
    VaultMetaRecord.toStored]

theorem intoStoredRecord_memberYaml {authId : AuthKeyId} {payload : StoredRecordPayload}
    (classified : classify record = .ok (.member authId payload)) :
    (memberYaml record).intoStoredRecord = .ok (asRead record) := by
  obtain ⟨_, raw, parsed⟩ := member_of_classify classified
  have again := AuthKeyId.parse_asStr parsed
  rw [asRead_of_member classified]
  simp only [MembersYamlRecord.intoStoredRecord, memberYaml, classified, again,
    VaultMetaRecord.toStored]
  rfl

variable {records : List StoredSecretRecord} {own : VaultSection}

theorem asRead_of_mem (readsBack : EnvelopesReadBack records)
    (member : record ∈ inSection own records) :
    isKept (asRead record) = true ∧ vaultSection (asRead record) = some own ∧
      asRead (asRead record) = asRead record ∧ authYaml (asRead record) = authYaml record ∧
      memberYaml (asRead record) = memberYaml record := by
  obtain ⟨row, classified, rfl⟩ := exists_row_of_mem member
  obtain ⟨listed, kept, _⟩ := mem_inSection.mp member
  apply asRead_spec kept classified
  rintro authId envelopes rfl
  exact readsBack record listed authId envelopes classified

/-! ### The read records -/

theorem inSection_asRead (readsBack : EnvelopesReadBack records) (other : VaultSection) :
    inSection own ((inSection other records).map asRead) =
      if other = own then (inSection other records).map asRead else [] := by
  unfold inSection
  split
  · rename_i same
    rw [List.filter_eq_self]
    intro read member
    obtain ⟨record, listed, rfl⟩ := List.mem_map.mp member
    have ⟨kept, filed, _⟩ := asRead_of_mem readsBack listed
    simp [kept, filed, same]
  · rename_i differs
    rw [List.filter_eq_nil_iff]
    intro read member
    obtain ⟨record, listed, rfl⟩ := List.mem_map.mp member
    have ⟨kept, filed, _⟩ := asRead_of_mem readsBack listed
    simp [kept, filed, differs]

/-- A section of the read records is that section, read. -/
theorem inSection_readBack (readsBack : EnvelopesReadBack records) (own : VaultSection) :
    inSection own (readBack records) = (inSection own records).map asRead := by
  have append : ∀ left right : List StoredSecretRecord,
      inSection own (left ++ right) = inSection own left ++ inSection own right :=
    fun left right => List.filter_append left right
  have none : inSection own [] = [] := rfl
  unfold readBack VaultSection.all
  simp only [List.flatMap_cons, List.flatMap_nil, append, none, inSection_asRead readsBack]
  cases own <;> simp

/-- Joins and shares come back as they are. -/
theorem map_asRead_of_cloned (cloned : own = .joins ∨ own = .sentinelShares) :
    (inSection own records).map asRead = inSection own records := by
  apply Eq.trans (List.map_congr_left _) (List.map_id _)
  intro record member
  obtain ⟨row, classified, same⟩ := exists_row_of_mem member
  cases row with
  | join | sentinelShare => simp only [asRead, classified, id_eq]
  | secret | auth | member => rcases cloned with rfl | rfl <;> cases same

/-- The read records are filed as the records were. -/
theorem filed_readBack (readsBack : EnvelopesReadBack records) :
    StoredVaultYaml.filed (readBack records) = StoredVaultYaml.filed records := by
  have secrets : ((inSection .secrets records).map asRead).map asRead =
      (inSection .secrets records).map asRead := by
    rw [List.map_map]
    apply List.map_congr_left
    intro record member
    exact (asRead_of_mem readsBack member).2.2.1
  have auth : ((inSection .auth records).map asRead).map authYaml =
      (inSection .auth records).map authYaml := by
    rw [List.map_map]
    apply List.map_congr_left
    intro record member
    exact (asRead_of_mem readsBack member).2.2.2.1
  have members : ((inSection .members records).map asRead).map memberYaml =
      (inSection .members records).map memberYaml := by
    rw [List.map_map]
    apply List.map_congr_left
    intro record member
    exact (asRead_of_mem readsBack member).2.2.2.2
  unfold StoredVaultYaml.filed StoredVaultYaml.withRecords
  simp only [inSection_readBack readsBack, map_asRead_of_cloned (.inl rfl),
    map_asRead_of_cloned (.inr rfl), secrets, auth, members]

theorem mem_readBack {read : StoredSecretRecord} : read ∈ readBack records ↔
    ∃ own, ∃ record ∈ inSection own records, asRead record = read := by
  unfold readBack
  rw [List.mem_flatMap]
  constructor
  · rintro ⟨own, _, member⟩
    exact ⟨own, List.mem_map.mp member⟩
  · rintro ⟨own, found⟩
    refine ⟨own, ?_, List.mem_map.mpr found⟩
    cases own <;> simp [VaultSection.all]

theorem filable_readBack (readsBack : EnvelopesReadBack records) :
    ∀ record ∈ readBack records, Filable record := by
  intro read member
  obtain ⟨own, record, listed, rfl⟩ := mem_readBack.mp member
  obtain ⟨kept, filed, _⟩ := asRead_of_mem readsBack listed
  obtain ⟨row, classified, _⟩ := Option.map_eq_some_iff.mp filed
  exact ⟨fun passed => by simp [kept] at passed, fun _ => ⟨row, toOption_eq_some.mp classified⟩⟩

/-- The document gives the records back, section by section. -/
theorem intoStoredRecords_filed (records : List StoredSecretRecord) (vault : StoredVaultYaml)
    (secrets : vault.secrets = (StoredVaultYaml.filed records).secrets)
    (auth : vault.auth = (StoredVaultYaml.filed records).auth)
    (joins : vault.joins = (StoredVaultYaml.filed records).joins)
    (members : vault.members = (StoredVaultYaml.filed records).members)
    (shares : vault.sentinelShares = (StoredVaultYaml.filed records).sentinelShares) :
    vault.intoStoredRecords = .ok (readBack records) := by
  have readAuth : ((inSection .auth records).map authYaml).mapM AuthYamlRecord.intoStoredRecord =
      .ok ((inSection .auth records).map asRead) := by
    rw [List.mapM_map]
    apply mapM_eq_ok_map
    intro record member
    obtain ⟨row, classified, same⟩ := exists_row_of_mem member
    cases row with
    | auth authId envelopes => exact intoStoredRecord_authYaml classified
    | secret | join | member | sentinelShare => cases same
  have readMembers : ((inSection .members records).map memberYaml).mapM
      MembersYamlRecord.intoStoredRecord = .ok ((inSection .members records).map asRead) := by
    rw [List.mapM_map]
    apply mapM_eq_ok_map
    intro record member
    obtain ⟨row, classified, same⟩ := exists_row_of_mem member
    cases row with
    | member authId payload => exact intoStoredRecord_memberYaml classified
    | secret | auth | join | sentinelShare => cases same
  have ownAuth : vault.auth = (inSection .auth records).map authYaml := auth
  have ownMembers : vault.members = (inSection .members records).map memberYaml := members
  have ownJoins : vault.joins = (inSection .joins records).map asRead :=
    joins.trans (map_asRead_of_cloned (.inl rfl)).symm
  have ownShares : vault.sentinelShares = (inSection .sentinelShares records).map asRead :=
    shares.trans (map_asRead_of_cloned (.inr rfl)).symm
  unfold StoredVaultYaml.intoStoredRecords
  rw [ownAuth, ownMembers, readAuth, readMembers, secrets, ownJoins, ownShares]
  unfold readBack VaultSection.all
  simp only [List.flatMap_cons, List.flatMap_nil, List.append_nil, List.append_assoc]
  rfl

/-! ### The architecture accepts the read records -/

def shareRow (record : StoredSecretRecord) : Option (DeviceId × SentinelShareEnvelope) :=
  match classify record with
  | .ok (.sentinelShare deviceId share) => some (deviceId, share)
  | _ => none

def isAuthRow (record : StoredSecretRecord) : Bool :=
  match classify record with
  | .ok (.auth ..) => true
  | _ => false

/-- Shares of distinct devices with distinct indexes, also apart from those already seen. -/
def FreshShares (devices : Finset DeviceId) (indexes : Finset UInt8) :
    List (DeviceId × SentinelShareEnvelope) → Prop
  | [] => True
  | (deviceId, share) :: rest => deviceId ∉ devices ∧ share.shareIndex ∉ indexes ∧
      FreshShares (insert deviceId devices) (insert share.shareIndex indexes) rest

namespace VaultArchitecture

theorem scan_sound {scan next : RecordScan} (scanned : records.foldlM scanRecord scan = .ok next) :
    (∀ record ∈ records, ∃ row, classify record = .ok row) ∧
      FreshShares scan.shareDevices scan.shareIndexes (records.filterMap shareRow) ∧
      next.shares = scan.shares ++ (records.filterMap shareRow).map Prod.snd ∧
      next.hasAuth = (scan.hasAuth || records.any isAuthRow) := by
  induction records generalizing scan with
  | nil =>
    cases scanned
    exact ⟨List.forall_mem_nil _, trivial, by simp, by simp⟩
  | cons head tail ih =>
    rw [List.foldlM_cons] at scanned
    obtain ⟨middle, first, rest⟩ := bind_eq_ok.mp scanned
    obtain ⟨kinds, fresh, shares, auth⟩ := ih rest
    unfold scanRecord at first
    split at first
    · cases first
    · rename_i authId envelopes classified
      cases first
      have share : shareRow head = none := by simp only [shareRow, classified]
      have own : isAuthRow head = true := by simp only [isAuthRow, classified]
      rw [List.filterMap_cons_none share]
      exact ⟨List.forall_mem_cons.mpr ⟨⟨_, classified⟩, kinds⟩, fresh, shares, by simp [auth, own]⟩
    · rename_i deviceId envelope classified
      split at first
      · cases first
      · rename_i free
        cases first
        have share : shareRow head = some (deviceId, envelope) := by
          simp only [shareRow, classified]
        have own : isAuthRow head = false := by simp only [isAuthRow, classified]
        rw [List.filterMap_cons_some share]
        rw [not_or] at free
        refine ⟨List.forall_mem_cons.mpr ⟨⟨_, classified⟩, kinds⟩, ⟨free.1, free.2, fresh⟩, ?_, ?_⟩
        · rw [shares, List.append_assoc]
          rfl
        · simp [auth, own]
    · rename_i row unauth unshared classified
      cases first
      have share : shareRow head = none := by
        unfold shareRow
        split
        · rename_i deviceId envelope shared
          rw [classified] at shared
          exact absurd (Except.ok.inj shared) (unshared deviceId envelope)
        · rfl
      have own : isAuthRow head = false := by
        unfold isAuthRow
        split
        · rename_i authId envelopes keyed
          rw [classified] at keyed
          exact absurd (Except.ok.inj keyed) (unauth authId envelopes)
        · rfl
      rw [List.filterMap_cons_none share]
      exact ⟨List.forall_mem_cons.mpr ⟨⟨_, classified⟩, kinds⟩, fresh, shares, by simp [auth, own]⟩

theorem scan_complete {scan : RecordScan}
    (kinds : ∀ record ∈ records, ∃ row, classify record = .ok row)
    (fresh : FreshShares scan.shareDevices scan.shareIndexes (records.filterMap shareRow)) :
    ∃ next, records.foldlM scanRecord scan = .ok next := by
  induction records generalizing scan with
  | nil => exact ⟨scan, rfl⟩
  | cons head tail ih =>
    obtain ⟨⟨row, classified⟩, others⟩ := List.forall_mem_cons.mp kinds
    have step : ∃ middle, scanRecord scan head = .ok middle ∧
        FreshShares middle.shareDevices middle.shareIndexes (tail.filterMap shareRow) := by
      cases row with
      | sentinelShare deviceId envelope =>
        have share : shareRow head = some (deviceId, envelope) := by
          simp only [shareRow, classified]
        rw [List.filterMap_cons_some share] at fresh
        have free : ¬ (deviceId ∈ scan.shareDevices ∨ envelope.shareIndex ∈ scan.shareIndexes) :=
          not_or.mpr ⟨fresh.1, fresh.2.1⟩
        have taken : scanRecord scan head = .ok { scan with
            shareDevices := insert deviceId scan.shareDevices
            shareIndexes := insert envelope.shareIndex scan.shareIndexes
            shares := scan.shares ++ [envelope] } := by
          unfold scanRecord
          rw [classified]
          exact if_neg free
        exact ⟨_, taken, fresh.2.2⟩
      | auth =>
        have share : shareRow head = none := by simp only [shareRow, classified]
        rw [List.filterMap_cons_none share] at fresh
        have taken : scanRecord scan head = .ok { scan with hasAuth := true } := by
          simp only [scanRecord, classified]
        exact ⟨_, taken, fresh⟩
      | secret | join | member =>
        have share : shareRow head = none := by simp only [shareRow, classified]
        rw [List.filterMap_cons_none share] at fresh
        have taken : scanRecord scan head = .ok scan := by simp only [scanRecord, classified]
        exact ⟨_, taken, fresh⟩
    obtain ⟨middle, first, further⟩ := step
    obtain ⟨next, rest⟩ := ih others further
    exact ⟨next, by rw [List.foldlM_cons, first]; exact rest⟩

end VaultArchitecture

theorem classified_readBack (readsBack : EnvelopesReadBack records) :
    ∀ record ∈ readBack records, ∃ row, classify record = .ok row := by
  intro read member
  obtain ⟨own, record, listed, rfl⟩ := mem_readBack.mp member
  obtain ⟨row, classified, _⟩ :=
    Option.map_eq_some_iff.mp (asRead_of_mem readsBack listed).2.1
  exact ⟨row, toOption_eq_some.mp classified⟩

theorem vaultSection_of_shareRow {share : DeviceId × SentinelShareEnvelope}
    (shared : shareRow record = some share) : vaultSection record = some .sentinelShares := by
  unfold shareRow at shared
  split at shared
  · rename_i classified
    exact vaultSection_of_classify classified
  · cases shared

/-- The read records hold the same shares, if no share was passed over as browser-local. -/
theorem shares_readBack (readsBack : EnvelopesReadBack records)
    (apart : ∀ record ∈ records, isKept record = false → shareRow record = none) :
    (readBack records).filterMap shareRow = records.filterMap shareRow := by
  have others : ∀ own, own ≠ .sentinelShares →
      ((inSection own records).map asRead).filterMap shareRow = [] := by
    intro own differs
    rw [List.filterMap_eq_nil_iff]
    intro read member
    obtain ⟨record, listed, rfl⟩ := List.mem_map.mp member
    cases shared : shareRow (asRead record) with
    | none => rfl
    | some share =>
      have filed := vaultSection_of_shareRow shared
      rw [(asRead_of_mem readsBack listed).2.1] at filed
      exact absurd (Option.some.inj filed) differs
  have own : ((inSection .sentinelShares records).map asRead).filterMap shareRow =
      records.filterMap shareRow := by
    rw [map_asRead_of_cloned (.inr rfl)]
    unfold inSection
    rw [List.filterMap_filter]
    apply List.filterMap_congr
    intro record member
    cases shared : shareRow record with
    | none => simp
    | some share =>
      have kept : isKept record = true := by
        by_contra passed
        rw [apart record member (by simpa using passed)] at shared
        cases shared
      simp [kept, vaultSection_of_shareRow shared]
  unfold readBack VaultSection.all
  simp only [List.flatMap_cons, List.flatMap_nil, List.filterMap_append, own,
    others .secrets (by decide), others .auth (by decide), others .joins (by decide),
    others .members (by decide), List.nil_append, List.append_nil]

theorem isAuthRow_readBack (readsBack : EnvelopesReadBack records)
    (auth : (readBack records).any isAuthRow = true) : records.any isAuthRow = true := by
  obtain ⟨read, member, keyed⟩ := List.any_eq_true.mp auth
  obtain ⟨own, record, listed, rfl⟩ := mem_readBack.mp member
  have filed : vaultSection (asRead record) = some .auth := by
    unfold isAuthRow at keyed
    split at keyed
    · rename_i classified
      exact vaultSection_of_classify classified
    · cases keyed
  rw [(asRead_of_mem readsBack listed).2.1] at filed
  obtain ⟨row, classified, same⟩ := exists_row_of_mem listed
  rw [← same] at filed
  apply List.any_eq_true.mpr
  refine ⟨record, (mem_inSection.mp listed).1, ?_⟩
  cases row with
  | auth authId envelopes => simp only [isAuthRow, classified]
  | secret | join | member | sentinelShare => cases filed

theorem validateRecords_readBack {architecture : VaultArchitecture}
    (readsBack : EnvelopesReadBack records)
    (apart : ∀ record ∈ records, isKept record = false → shareRow record = none)
    (valid : architecture.validateRecords records = .ok ()) :
    architecture.validateRecords (readBack records) = .ok () := by
  unfold VaultArchitecture.validateRecords at valid ⊢
  obtain ⟨⟨⟩, sound, valid⟩ := bind_eq_ok.mp valid
  obtain ⟨scan, scanned, verdict⟩ := bind_eq_ok.mp valid
  obtain ⟨_, fresh, shares, auth⟩ := VaultArchitecture.scan_sound scanned
  have same := shares_readBack readsBack apart
  obtain ⟨again, rescanned⟩ := @VaultArchitecture.scan_complete _ _ _ ⟨∅, ∅, [], false⟩
    (classified_readBack readsBack) (by rw [same]; exact fresh)
  obtain ⟨_, _, shares', auth'⟩ := VaultArchitecture.scan_sound rescanned
  rw [same] at shares'
  have kept : again.shares = scan.shares := shares'.trans shares.symm
  refine bind_eq_ok.mpr ⟨(), sound, bind_eq_ok.mpr ⟨again, rescanned, ?_⟩⟩
  cases kind : architecture.vaultType with
  | simple =>
    simp only [kind] at verdict ⊢
    rw [kept]
    exact verdict
  | sentinel =>
    simp only [kind] at verdict ⊢
    have unkeyed : scan.hasAuth = false := by
      by_contra keyed
      rw [if_pos (by simpa using keyed)] at verdict
      cases verdict
    have unkeyed' : again.hasAuth = false := by
      rw [auth', Bool.false_or]
      by_contra keyed
      have found := isAuthRow_readBack readsBack (by simpa using keyed)
      rw [auth, found] at unkeyed
      cases unkeyed
    rw [unkeyed, if_neg (by simp)] at verdict
    rw [unkeyed', if_neg (by simp), kept]
    exact verdict

end Nook.Vault
