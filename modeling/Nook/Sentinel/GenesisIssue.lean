import Nook.Sentinel.GenesisSession
import Nook.Sentinel.RootRecovery

set_option autoImplicit false

namespace Nook.Sentinel

open Nook.Auth Nook.EventLog Nook.Lib

/-! ### The records of a root -/

/-- HKDF-SHA256 of a root, as the hexadecimal text of 32 bytes. -/
class VaultKeyExpansion where
  expand : Root → (info : Str) → MultiDeviceResult Str

def SentinelVaultKeyDerivation.derive [VaultKeyExpansion] (root : Root) :
    MultiDeviceResult VaultKeys := do
  let secrets ← VaultKeyExpansion.expand root "nook/sentinel-genesis/v1/secrets-key".toList
  let members ← VaultKeyExpansion.expand root "nook/sentinel-genesis/v1/members-key".toList
  return ⟨← SymmetricKey.parse secrets, ← SymmetricKey.parse members⟩

/-- `SentinelShareVersion::CURRENT`. -/
def SHARE_VERSION : UInt32 := 2

structure SentinelSharePlaintext where
  version : UInt32
  threshold : UInt8
  requiredParticipants : UInt8
  shareIndex : UInt8
  share : Str
  deriving DecidableEq

def SentinelSharePlaintext.toJson (plaintext : SentinelSharePlaintext) : Json :=
  .struct [("version", some (.natural plaintext.version.toNat)),
    ("threshold", some (.natural plaintext.threshold.toNat)),
    ("required_participants", some (.natural plaintext.requiredParticipants.toNat)),
    ("share_index", some (.natural plaintext.shareIndex.toNat)),
    ("share", some (.text plaintext.share))]

/-- Which devices a root is shared among. -/
abbrev ShareRecipient := DeviceId × DevicePublicKey

/-- What the generation of a root draws: the root, the shares and the seals. -/
structure RootDraws where
  root : MultiDeviceResult Root
  shares : Sentinel.Entropy
  seals : Nat → Str

namespace SentinelShareEnvelope

variable [Age] [JsonText]

/-- The record of one recipient. -/
def shareRecord (threshold requiredParticipants : UInt8) (seals : Nat → Str)
    (entry : (ShareRecipient × Str) × Nat) : MultiDeviceResult StoredSecretRecord :=
  if entry.2 + 1 ≥ 256 then .error .invalidSentinelThreshold
  else do
    let shareIndex := UInt8.ofNat (entry.2 + 1)
    let plaintext : SentinelSharePlaintext :=
      ⟨SHARE_VERSION, threshold, requiredParticipants, shareIndex, entry.1.2⟩
    let ciphertext ← Age.sealBytes entry.1.1.2 (JsonText.print plaintext.toJson) (seals entry.2)
    return (VaultMetaRecord.sentinelShare entry.1.1.1
      ⟨SHARE_VERSION, threshold, requiredParticipants, shareIndex, ciphertext⟩).toStored

def createSentinelRootShareRecordsForRecipients [Hashes] [VaultKeyExpansion]
    (recipients : List ShareRecipient) (threshold : UInt8) (draws : RootDraws) :
    MultiDeviceResult (VaultKeys × List StoredSecretRecord) :=
  if recipients.length ≥ 256 then .error .invalidSentinelThreshold
  else do
    let requiredParticipants := UInt8.ofNat recipients.length
    IndexedShare.validateSentinelThreshold threshold.toNat requiredParticipants.toNat
    let root ← draws.root
    let keys ← SentinelVaultKeyDerivation.derive root
    let shares ← SentinelSecretSplitRequest.issue
      ⟨root, threshold.toNat, requiredParticipants.toNat⟩ draws.shares
    let records ← (recipients.zip shares).zipIdx.mapM
      (shareRecord threshold requiredParticipants draws.seals)
    return (keys, records)

end SentinelShareEnvelope

/-! ### Deliveries -/

structure SentinelGenesisShareDelivery where
  version : UInt32
  sessionId : Str
  storeId : StoreId
  policy : SentinelGenesisPolicy
  deviceId : DeviceId
  encryptionPublicKey : DevicePublicKey
  share : SentinelShareEnvelope
  initiatorSigningPublicKey : DeviceSigningPublicKey
  signature : Str

/-- The request and the device that a delivery is expected for. -/
structure SentinelGenesisDeliveryRecipient where
  expectedRequest : SentinelGenesisRequest
  identity : AppKey

namespace SentinelGenesisShareDelivery

def validateSession (delivery : SentinelGenesisShareDelivery) (expected : SentinelGenesisRequest) :
    MultiDeviceResult Unit :=
  refuse (delivery.version ≠ GENESIS_VERSION ∨ delivery.sessionId ≠ expected.sessionId ∨
    delivery.policy ≠ expected.policy ∨
    delivery.initiatorSigningPublicKey ≠ expected.initiatorSigningPublicKey)
    .invalidSentinelGenesisSession

def validateRecipient [Age] (delivery : SentinelGenesisShareDelivery) (identity : AppKey) :
    MultiDeviceResult Unit :=
  refuse (delivery.deviceId ≠ identity.appId ∨ delivery.encryptionPublicKey ≠ identity.publicKey)
    .sentinelGenesisDeliveryRecipientMismatch

/-- `SentinelShareIndex::belongs_to`. -/
def belongsTo (index participants : UInt8) : Bool := 0 < index ∧ index ≤ participants

def validateSharePolicy (delivery : SentinelGenesisShareDelivery) : MultiDeviceResult Unit :=
  refuse (delivery.share.threshold ≠ delivery.policy.threshold ∨
    delivery.share.requiredParticipants ≠ delivery.policy.participantCount ∨
    !belongsTo delivery.share.shareIndex delivery.policy.participantCount)
    .invalidSentinelGenesisPayload

variable [JsonText]

def signingBytes (delivery : SentinelGenesisShareDelivery) : Str :=
  JsonText.print (.array [.natural delivery.version.toNat, .text delivery.sessionId,
    .text delivery.storeId.asStr, delivery.policy.toJson, .text delivery.deviceId.asStr,
    .text delivery.encryptionPublicKey.asStr, delivery.share.toJson,
    .text delivery.initiatorSigningPublicKey.asStr])

def check [Signing] [Age] (delivery : SentinelGenesisShareDelivery)
    (recipient : SentinelGenesisDeliveryRecipient) : MultiDeviceResult Unit := do
  delivery.policy.validate
  delivery.validateSession recipient.expectedRequest
  delivery.validateRecipient recipient.identity
  delivery.validateSharePolicy
  GenesisSignature.verify delivery.initiatorSigningPublicKey delivery.signature
    delivery.signingBytes

end SentinelGenesisShareDelivery

structure SentinelGenesisIssued where
  records : List StoredSecretRecord
  participants : List SentinelGenesisParticipant
  deliveries : List SentinelGenesisShareDelivery

def DevicePublicKey.tryAuthId [AgeRecipients] [Age] (key : DevicePublicKey) :
    MultiDeviceResult AuthKeyId :=
  if AgeRecipients.isRecipient key.asStr then .ok (Age.authId key)
  else .error (.invalidRecipientPublicKey "invalid recipient")

namespace ReadySentinelGenesis

variable [Signing] [JsonText] [AgeRecipients] [Age]

omit [Age] in
/-- The signed delivery of one participant's record. -/
def delivery (ready : ReadySentinelGenesis) (storeId : StoreId)
    (entry : SentinelGenesisParticipant × StoredSecretRecord) :
    MultiDeviceResult SentinelGenesisShareDelivery := do
  match ← classify entry.2 with
  | .sentinelShare deviceId share =>
    if deviceId ≠ entry.1.deviceId then .error .invalidSentinelGenesisPayload
    else
      let unsigned : SentinelGenesisShareDelivery := {
        version := GENESIS_VERSION
        sessionId := ready.session.request.sessionId
        storeId
        policy := ready.session.request.policy
        deviceId
        encryptionPublicKey := entry.1.encryptionPublicKey
        share
        initiatorSigningPublicKey := ready.session.request.initiatorSigningPublicKey
        signature := [] }
      return { unsigned with signature := Signing.sign ready.signingKey unsigned.signingBytes }
  | _ => .error .invalidSentinelGenesisPayload

omit [Signing] [JsonText] in
def rosterMember (participant : SentinelGenesisParticipant) : MultiDeviceResult VaultMember := do
  return {
    authId := ← DevicePublicKey.tryAuthId participant.encryptionPublicKey
    deviceId := participant.deviceId
    publicKey := participant.encryptionPublicKey
    enrolledAt := []
    label := if participant.label.isEmpty then .unnamed else .named participant.label }

def issue [Hashes] [VaultKeyExpansion] [VaultCrypto] (ready : ReadySentinelGenesis)
    (storeId : StoreId) (draws : RootDraws) (memberEntropy : Nat → Str) :
    MultiDeviceResult SentinelGenesisIssued := do
  let recipients := ready.session.participants.map fun participant =>
    (participant.deviceId, participant.encryptionPublicKey)
  let (keys, shareRecords) ←
    SentinelShareEnvelope.createSentinelRootShareRecordsForRecipients recipients
      ready.session.request.policy.threshold draws
  let deliveries ← (ready.session.participants.zip shareRecords).mapM (ready.delivery storeId)
  let roster ← ready.session.participants.mapM rosterMember
  let records ← buildMembersRecords roster keys.membersKey memberEntropy
  return ⟨records ++ shareRecords, ready.session.participants, deliveries⟩

end ReadySentinelGenesis

/-! ### What is issued -/

/-- A traversal keeps the places of its list. -/
theorem step_of_mapM {α β : Type} {step : α → MultiDeviceResult β} {list : List α}
    {results : List β} (collected : list.mapM step = .ok results) {place : Nat} {a : α} {b : β}
    (listed : list[place]? = some a) (made : results[place]? = some b) : step a = .ok b := by
  have pairs := mapM_eq_ok_iff.mp collected
  obtain ⟨inside, rfl⟩ := List.getElem?_eq_some_iff.mp listed
  obtain ⟨within, rfl⟩ := List.getElem?_eq_some_iff.mp made
  exact pairs.get inside within

theorem length_of_mapM {α β : Type} {step : α → MultiDeviceResult β} {list : List α}
    {results : List β} (collected : list.mapM step = .ok results) :
    results.length = list.length :=
  (mapM_eq_ok_iff.mp collected).length_eq.symm

section

variable [Hashes]

theorem SecretPolynomial.length_of_split {threshold shareCount : Nat} {secret : List Byte}
    {entropy : Sentinel.Entropy} {shares : List RawShare}
    (split : SecretPolynomial.split threshold shareCount secret entropy = .ok shares) :
    shares.length = shareCount := by
  unfold SecretPolynomial.split at split
  split at split
  · cases split
  · rename_i allowed
    split at split
    · cases split
      simp
    · obtain ⟨drawn, first, split⟩ := bind_eq_ok.mp split
      obtain ⟨_, _, split⟩ := bind_eq_ok.mp split
      obtain ⟨derived, second, split⟩ := bind_eq_ok.mp split
      cases split
      have drawnLength := length_of_mapM first
      have derivedLength := length_of_mapM second
      rw [List.length_range] at drawnLength
      rw [List.length_range'] at derivedLength
      rw [List.length_append]
      omega

theorem SentinelSecretSplitRequest.length_of_issue {request : SentinelSecretSplitRequest}
    {entropy : Sentinel.Entropy} {mnemonics : List Str}
    (issued : request.issue entropy = .ok mnemonics) :
    mnemonics.length = request.shareCount := by
  unfold SentinelSecretSplitRequest.issue at issued
  obtain ⟨_, _, issued⟩ := bind_eq_ok.mp issued
  obtain ⟨_, _, issued⟩ := bind_eq_ok.mp issued
  obtain ⟨raw, split, issued⟩ := bind_eq_ok.mp issued
  rw [length_of_mapM issued, SecretPolynomial.length_of_split split]

end

/-- An envelope is read from its own JSON as itself or not at all. -/
theorem eq_of_ofJson_toJson {envelope share : SentinelShareEnvelope}
    (read : SentinelShareEnvelope.ofJson envelope.toJson = some share) : share = envelope := by
  have found : envelope.toJson.fieldValues SentinelShareEnvelope.fields =
      some [some (.natural envelope.version.toNat), some (.natural envelope.threshold.toNat),
        some (.natural envelope.requiredParticipants.toNat),
        some (.natural envelope.shareIndex.toNat), some (.text envelope.ciphertext.asStr)] := by
    unfold SentinelShareEnvelope.toJson
    rw [Json.fieldValues_struct (by simp)]
    simp [SentinelShareEnvelope.fields, List.lookup]
  unfold SentinelShareEnvelope.ofJson at read
  rw [found] at read
  dsimp only at read
  obtain ⟨version, readVersion, read⟩ := Option.bind_eq_some_iff.mp read
  obtain ⟨threshold, readThreshold, read⟩ := Option.bind_eq_some_iff.mp read
  obtain ⟨required, readRequired, read⟩ := Option.bind_eq_some_iff.mp read
  obtain ⟨index, readIndex, read⟩ := Option.bind_eq_some_iff.mp read
  obtain ⟨ciphertext, readCiphertext, read⟩ := Option.bind_eq_some_iff.mp read
  rw [SentinelShareEnvelope.byteField_toNat] at readThreshold readRequired readIndex
  have sameVersion : version = envelope.version := by
    obtain ⟨value, natural, known⟩ := Option.bind_eq_some_iff.mp readVersion
    rw [naturalField_toNat envelope.version.toNat_lt] at natural
    cases natural
    split at known
    · cases known
      exact UInt32.ofNat_toNat
    · cases known
  have sameCiphertext : ciphertext = envelope.ciphertext := by
    unfold armoredField at readCiphertext
    obtain ⟨text, own, parsed⟩ := Option.bind_eq_some_iff.mp readCiphertext
    cases own
    have written := (AgeArmoredCiphertext.parse_eq_ok.mp (toOption_eq_some.mp parsed)).1
    exact Text.asStr_injective written
  cases readThreshold
  cases readRequired
  cases readIndex
  cases read
  rw [sameVersion, sameCiphertext]

section

variable [JsonText] [AgeRecipients]

/-- The row of a share is classified as that share or not at all. -/
theorem share_of_classify {deviceId : DeviceId} {envelope : SentinelShareEnvelope}
    {row : VaultMetaRecord} (readsBack : envelope.toJson.ReadsBack)
    (classified : classify (VaultMetaRecord.sentinelShare deviceId envelope).toStored = .ok row) :
    ∃ own, row = .sentinelShare own envelope := by
  have stripped : stripPrefix (sentinelShareRecordKey deviceId) sentinelShareRecordPrefix =
      some deviceId.asStr := stripPrefix_eq_some.mpr rfl
  rcases classify_cases classified with shared | plain
  · obtain ⟨_, own, share, _, _, read, same⟩ := shared
    have parsed := SentinelShareEnvelope.parse_eq_ok.mp read
    have text : JsonText.parse (JsonText.print envelope.toJson) = some envelope.toJson :=
      readsBack.parse_print
    obtain ⟨json, printed, made⟩ := Option.bind_eq_some_iff.mp parsed
    have whole : some json = some envelope.toJson := printed.symm.trans text
    cases whole
    rw [eq_of_ofJson_toJson made] at same
    exact ⟨own, same⟩
  · have unshared : stripPrefix (sentinelShareRecordKey deviceId) sentinelShareRecordPrefix =
        none := plain.1
    rw [stripped] at unshared
    cases unshared

end

namespace ReadySentinelGenesis

variable [Signing] [JsonText] [AgeRecipients] {ready : ReadySentinelGenesis} {storeId : StoreId}

/-- The delivery of a participant before it is signed. -/
def unsignedDelivery (ready : ReadySentinelGenesis) (storeId : StoreId)
    (participant : SentinelGenesisParticipant) (share : SentinelShareEnvelope) :
    SentinelGenesisShareDelivery where
  version := GENESIS_VERSION
  sessionId := ready.session.request.sessionId
  storeId
  policy := ready.session.request.policy
  deviceId := participant.deviceId
  encryptionPublicKey := participant.encryptionPublicKey
  share
  initiatorSigningPublicKey := ready.session.request.initiatorSigningPublicKey
  signature := []

def signedDelivery (ready : ReadySentinelGenesis) (storeId : StoreId)
    (participant : SentinelGenesisParticipant) (share : SentinelShareEnvelope) :
    SentinelGenesisShareDelivery :=
  { ready.unsignedDelivery storeId participant share with
    signature := Signing.sign ready.signingKey
      (ready.unsignedDelivery storeId participant share).signingBytes }

theorem delivery_eq_ok {participant : SentinelGenesisParticipant} {record : StoredSecretRecord}
    {delivery : SentinelGenesisShareDelivery}
    (made : ready.delivery storeId (participant, record) = .ok delivery) :
    ∃ share, classify record = .ok (.sentinelShare participant.deviceId share) ∧
      delivery = ready.signedDelivery storeId participant share := by
  unfold ReadySentinelGenesis.delivery at made
  obtain ⟨row, classified, made⟩ := bind_eq_ok.mp made
  split at made
  · rename_i deviceId share
    split at made
    · cases made
    · rename_i own
      have same : deviceId = participant.deviceId := not_not.mp own
      cases made
      exact ⟨share, by rw [classified, same], by rw [same]; rfl⟩
  · cases made

omit [AgeRecipients] in
/-- A signed delivery is accepted by its participant and by nobody else. -/
theorem check_signedDelivery [Age] (correct : Signing.Correct)
    (issuer : Signing.fromSigningKey ready.signingKey =
      ready.session.request.initiatorSigningPublicKey)
    (valid : ready.session.request.policy.validate = .ok ())
    {participant : SentinelGenesisParticipant} {share : SentinelShareEnvelope}
    (threshold : share.threshold = ready.session.request.policy.threshold)
    (required : share.requiredParticipants = ready.session.request.policy.participantCount)
    (index : SentinelGenesisShareDelivery.belongsTo share.shareIndex
      ready.session.request.policy.participantCount = true) (identity : AppKey) :
    (ready.signedDelivery storeId participant share).check ⟨ready.session.request, identity⟩ =
        .ok () ↔
      identity.appId = participant.deviceId ∧
        identity.publicKey = participant.encryptionPublicKey := by
  have session : (ready.signedDelivery storeId participant share).validateSession
      ready.session.request = .ok () := by
    simp [SentinelGenesisShareDelivery.validateSession, signedDelivery, unsignedDelivery]
  have policy : (ready.signedDelivery storeId participant share).validateSharePolicy = .ok () := by
    simp [SentinelGenesisShareDelivery.validateSharePolicy, signedDelivery, unsignedDelivery,
      threshold, required, index]
  have signed : GenesisSignature.verify
      (ready.signedDelivery storeId participant share).initiatorSigningPublicKey
      (ready.signedDelivery storeId participant share).signature
      (ready.signedDelivery storeId participant share).signingBytes = .ok () := by
    unfold GenesisSignature.verify
    rw [refuse_eq_ok, Bool.not_eq_false']
    have own : (ready.signedDelivery storeId participant share).initiatorSigningPublicKey =
        Signing.fromSigningKey ready.signingKey := issuer.symm
    rw [own]
    exact correct.verifies ready.signingKey _
  have recipient : (ready.signedDelivery storeId participant share).validateRecipient identity =
      .ok () ↔ identity.appId = participant.deviceId ∧
        identity.publicKey = participant.encryptionPublicKey := by
    simp only [SentinelGenesisShareDelivery.validateRecipient, signedDelivery, unsignedDelivery,
      refuse_eq_ok]
    constructor
    · intro own
      have same := of_decide_eq_false own
      simp only [not_or, not_not, ne_eq] at same
      exact ⟨same.1.symm, same.2.symm⟩
    · intro own
      rw [own.1, own.2]
      simp
  unfold SentinelGenesisShareDelivery.check
  have first : (ready.signedDelivery storeId participant share).policy.validate = .ok () := valid
  rw [first, session, policy, signed, ← recipient]
  cases (ready.signedDelivery storeId participant share).validateRecipient identity with
  | ok own => rfl
  | error cause => simp [bind, Except.bind]

end ReadySentinelGenesis

namespace SentinelShareEnvelope

variable [Age] [JsonText] [Hashes] [VaultKeyExpansion]

/-- Each recipient gets the record of its own number. -/
theorem createRecords_eq_ok {recipients : List ShareRecipient} {threshold : UInt8}
    {draws : RootDraws} {keys : VaultKeys} {records : List StoredSecretRecord}
    (created : createSentinelRootShareRecordsForRecipients recipients threshold draws =
      .ok (keys, records)) :
    recipients.length < 256 ∧ ∃ root shares, draws.root = .ok root ∧
      SentinelVaultKeyDerivation.derive root = .ok keys ∧
      SentinelSecretSplitRequest.issue ⟨root, threshold.toNat, recipients.length⟩ draws.shares =
        .ok shares ∧
      shares.length = recipients.length ∧
      records.length = recipients.length ∧
      ∀ (place : Nat) (recipient : ShareRecipient) (share : Str) (record : StoredSecretRecord),
        recipients[place]? = some recipient → shares[place]? = some share →
          records[place]? = some record → ∃ ciphertext,
            Age.sealBytes recipient.2 (JsonText.print (SentinelSharePlaintext.toJson
              ⟨SHARE_VERSION, threshold, UInt8.ofNat recipients.length, UInt8.ofNat (place + 1),
                share⟩)) (draws.seals place) = .ok ciphertext ∧
            record = (VaultMetaRecord.sentinelShare recipient.1
              ⟨SHARE_VERSION, threshold, UInt8.ofNat recipients.length, UInt8.ofNat (place + 1),
                ciphertext⟩).toStored := by
  unfold createSentinelRootShareRecordsForRecipients at created
  split at created
  · cases created
  · rename_i few
    have small : recipients.length < 256 := by omega
    have required : (UInt8.ofNat recipients.length).toNat = recipients.length :=
      UInt8.toNat_ofNat_of_lt' small
    obtain ⟨_, _, created⟩ := bind_eq_ok.mp created
    obtain ⟨root, drawn, created⟩ := bind_eq_ok.mp created
    obtain ⟨own, derived, created⟩ := bind_eq_ok.mp created
    obtain ⟨shares, issued, created⟩ := bind_eq_ok.mp created
    obtain ⟨made, sealedAll, created⟩ := bind_eq_ok.mp created
    cases created
    rw [required] at issued
    have sharesLength : shares.length = recipients.length :=
      SentinelSecretSplitRequest.length_of_issue issued
    have recordsLength : records.length = recipients.length := by
      rw [length_of_mapM sealedAll, List.length_zipIdx, List.length_zip, sharesLength, Nat.min_self]
    refine ⟨small, root, shares, drawn, derived, issued, sharesLength, recordsLength, ?_⟩
    intro place recipient share record listed shared recorded
    have entry : (recipients.zip shares).zipIdx[place]? = some ((recipient, share), place) := by
      have paired : (recipients.zip shares)[place]? = some (recipient, share) :=
        List.getElem?_zip_eq_some.mpr ⟨listed, shared⟩
      rw [List.getElem?_zipIdx, paired]
      simp
    have step := step_of_mapM sealedAll entry recorded
    unfold shareRecord at step
    split at step
    · cases step
    · obtain ⟨ciphertext, sealing, step⟩ := bind_eq_ok.mp step
      cases step
      exact ⟨ciphertext, sealing, rfl⟩

end SentinelShareEnvelope

namespace ReadySentinelGenesis

variable [Signing] [JsonText] [AgeRecipients] [Age] [Hashes] [VaultKeyExpansion] [VaultCrypto]
  {ready : ReadySentinelGenesis} {storeId : StoreId}

/-- What an issuance is made of: the root records, and one delivery for each participant. -/
theorem issue_eq_ok {draws : RootDraws} {memberEntropy : Nat → Str}
    {issued : SentinelGenesisIssued}
    (made : ready.issue storeId draws memberEntropy = .ok issued) :
    issued.participants = ready.session.participants ∧ ∃ keys records roster,
      SentinelShareEnvelope.createSentinelRootShareRecordsForRecipients
        (ready.session.participants.map fun participant =>
          (participant.deviceId, participant.encryptionPublicKey))
        ready.session.request.policy.threshold draws = .ok (keys, records) ∧
      issued.records = roster ++ records ∧
      issued.deliveries.length = ready.session.participants.length ∧
      ∀ (place : Nat) (participant : SentinelGenesisParticipant) (record : StoredSecretRecord)
        (delivery : SentinelGenesisShareDelivery),
        ready.session.participants[place]? = some participant → records[place]? = some record →
          issued.deliveries[place]? = some delivery →
            ready.delivery storeId (participant, record) = .ok delivery := by
  unfold ReadySentinelGenesis.issue at made
  obtain ⟨⟨keys, records⟩, created, made⟩ := bind_eq_ok.mp made
  obtain ⟨deliveries, delivered, made⟩ := bind_eq_ok.mp made
  obtain ⟨_, _, made⟩ := bind_eq_ok.mp made
  obtain ⟨roster, _, made⟩ := bind_eq_ok.mp made
  cases made
  have length := (SentinelShareEnvelope.createRecords_eq_ok created).2
  obtain ⟨_, _, _, _, _, _, recordsLength, _⟩ := length
  rw [List.length_map] at recordsLength
  refine ⟨rfl, keys, records, roster, created, rfl, ?_, ?_⟩
  · rw [length_of_mapM delivered, List.length_zip, recordsLength, Nat.min_self]
  · intro place participant record delivery listed recorded own
    exact step_of_mapM delivered (List.getElem?_zip_eq_some.mpr ⟨listed, recorded⟩) own

/-- The delivery of a participant is accepted by that participant, and by nobody else. -/
theorem check_issued (correct : Signing.Correct)
    (readsBack : ∀ envelope : SentinelShareEnvelope, envelope.toJson.ReadsBack)
    {signingKey : SigningKey} {session : SentinelGenesisSession}
    (prepared : session.prepare signingKey = .ok ready) {draws : RootDraws}
    {memberEntropy : Nat → Str} {issued : SentinelGenesisIssued}
    (made : ready.issue storeId draws memberEntropy = .ok issued) {place : Nat}
    {participant : SentinelGenesisParticipant} {delivery : SentinelGenesisShareDelivery}
    (listed : session.participants[place]? = some participant)
    (own : issued.deliveries[place]? = some delivery) (identity : AppKey) :
    delivery.check ⟨session.request, identity⟩ = .ok () ↔
      identity.appId = participant.deviceId ∧
        identity.publicKey = participant.encryptionPublicKey := by
  obtain ⟨rfl, complete, issuer, validated⟩ := SentinelGenesisSession.prepare_eq_ok prepared
  obtain ⟨_, keys, records, roster, created, _, _, steps⟩ := issue_eq_ok made
  obtain ⟨_, _, shares, _, _, _, sharesLength, recordsLength, each⟩ :=
    SentinelShareEnvelope.createRecords_eq_ok created
  rw [List.length_map] at sharesLength recordsLength
  dsimp only at complete issuer steps sharesLength recordsLength each
  have inside : place < session.participants.length :=
    (List.getElem?_eq_some_iff.mp listed).1
  obtain ⟨record, recorded⟩ : ∃ record, records[place]? = some record :=
    ⟨_, List.getElem?_eq_getElem (by omega)⟩
  obtain ⟨share, shared⟩ : ∃ share, shares[place]? = some share :=
    ⟨_, List.getElem?_eq_getElem (by omega)⟩
  have recipient : (session.participants.map fun participant =>
      (participant.deviceId, participant.encryptionPublicKey))[place]? =
        some (participant.deviceId, participant.encryptionPublicKey) := by
    rw [List.getElem?_map, listed, Option.map_some]
  obtain ⟨ciphertext, _, written⟩ := each place _ share record recipient shared recorded
  obtain ⟨envelope, classified, same⟩ := delivery_eq_ok (steps place participant record delivery
    listed recorded own)
  rw [written] at classified
  obtain ⟨_, row⟩ := share_of_classify (readsBack _) classified
  cases row
  rw [same]
  have count : UInt8.ofNat session.participants.length =
      session.request.policy.participantCount := by
    rw [complete, UInt8.ofNat_toNat]
  have policy : session.request.policy.validate = .ok () := by
    unfold SentinelGenesisRequest.validate at validated
    exact (bind_eq_ok.mp validated).choose_spec.1
  refine check_signedDelivery correct issuer policy rfl ?_ ?_ identity
  · rw [List.length_map]
    exact count
  · unfold SentinelGenesisShareDelivery.belongsTo
    have bound := session.request.policy.participantCount.toNat_lt
    have small : place + 1 < 256 := by omega
    have number : (UInt8.ofNat (place + 1)).toNat = place + 1 := UInt8.toNat_ofNat_of_lt' small
    simp only [decide_eq_true_eq, UInt8.lt_iff_toNat_lt, UInt8.le_iff_toNat_le, number]
    exact ⟨Nat.succ_pos _, by omega⟩

end ReadySentinelGenesis

/-! ### The ceremony -/

section

variable [Signing] [JsonText] [AgeRecipients] [Age] [Hashes] [VaultKeyExpansion] [VaultCrypto]

/-- In every run of a ceremony its participants are apart in device, encryption key and signing
key, as the values they are written as; each answered this challenge, the initiator is the
first, and there are never more than configured. A refused call changes nothing. Only a full
roster is issued to, with one delivery for each participant, which that participant alone
accepts. -/
theorem genesis_admits_once (correct : Signing.Correct)
    (readsBack : ∀ envelope : SentinelShareEnvelope, envelope.toJson.ReadsBack)
    {initiator : AppKey} {signingKey : SigningKey} {participantCount threshold : UInt8}
    {label : Str} {generated : MultiDeviceResult Str} {session : SentinelGenesisSession}
    (started : SentinelGenesisSession.start initiator signingKey participantCount threshold label
      generated = .ok session) (calls : List SentinelGenesisCall) :
    (session.run calls).request = session.request ∧
    session.request.policy.participantCount = participantCount ∧
    (session.run calls).Admitted ∧ (session.run calls).LedByInitiator ∧
    (∀ call rejected, (session.run calls).answer call = .error rejected →
      rejected.session = session.run calls) ∧
    (∀ issuer rejected, (session.run calls).prepare issuer = .error rejected →
      rejected.session = session.run calls) ∧
    ∀ issuer ready storeId draws memberEntropy issued,
      (session.run calls).prepare issuer = .ok ready →
        ready.issue storeId draws memberEntropy = .ok issued →
          (session.run calls).participants.length = participantCount.toNat ∧
          issued.participants = (session.run calls).participants ∧
          issued.deliveries.length = participantCount.toNat ∧
          ∀ (place : Nat) (participant : SentinelGenesisParticipant)
            (delivery : SentinelGenesisShareDelivery),
            (session.run calls).participants[place]? = some participant →
              issued.deliveries[place]? = some delivery →
                (∀ identity : AppKey,
                  delivery.check ⟨session.request, identity⟩ = .ok () ↔
                    identity.appId = participant.deviceId ∧
                      identity.publicKey = participant.encryptionPublicKey) ∧
                ∀ (other : Nat) (stranger : SentinelGenesisParticipant) (identity : AppKey),
                  (session.run calls).participants[other]? = some stranger → other ≠ place →
                    identity.appId = stranger.deviceId →
                      delivery.check ⟨session.request, identity⟩ ≠ .ok () := by
  obtain ⟨sound, policy⟩ := SentinelGenesisSession.sound_of_start started
  have reached := sound.run calls
  have count : session.request.policy.participantCount = participantCount := by rw [policy]
  refine ⟨reached.request, count, reached.admitted, reached.led, ?_, ?_, ?_⟩
  · intro call rejected refused
    exact SentinelGenesisSession.answer_eq_error refused
  · intro issuer rejected refused
    exact SentinelGenesisSession.prepare_eq_error refused
  · intro issuer ready storeId draws memberEntropy issued prepared made
    have full := (SentinelGenesisSession.prepare_eq_ok prepared).2.1
    have own := (SentinelGenesisSession.prepare_eq_ok prepared).1
    obtain ⟨same, _, _, _, _, _, length, _⟩ := ReadySentinelGenesis.issue_eq_ok made
    rw [reached.request, count] at full
    rw [own] at same length
    refine ⟨full, same, by rw [length, full], ?_⟩
    intro place participant delivery listed issuedFor
    have accepts := fun identity => ReadySentinelGenesis.check_issued correct readsBack prepared
      made listed issuedFor identity
    rw [reached.request] at accepts
    refine ⟨accepts, ?_⟩
    intro other stranger identity strange apart device accepted
    have known := ((accepts identity).mp accepted).1
    have ids := reached.admitted.deviceIds
    have first : ((session.run calls).participants.map
        SentinelGenesisParticipant.deviceId)[other]? = some identity.appId := by
      rw [List.getElem?_map, strange, Option.map_some, device]
    have second : ((session.run calls).participants.map
        SentinelGenesisParticipant.deviceId)[place]? = some identity.appId := by
      rw [List.getElem?_map, listed, Option.map_some, known]
    have inside := (List.getElem?_eq_some_iff.mp first).1
    exact apart ((List.getElem?_inj inside ids).mp (first.trans second.symm))

end

namespace TestSupport

/-! Texts that need no escapes, printed as JSON, and keys that sign by repeating the text. -/

def quotedText (text : Str) : Str := '"' :: (text ++ ['"'])

def leafText : Json → Str
  | .natural value => Nat.toDigits 10 value
  | .text value => quotedText value
  | _ => "null".toList

def fieldText (field : String × Json) : Str :=
  quotedText field.1.toList ++ ':' :: leafText field.2

def valueText : Json → Str
  | .object fields => '\x7b' :: ([','].intercalate (fields.map fieldText) ++ ['\x7d'])
  | value => leafText value

/-- The number behind a lead, and what follows it. -/
def readNumber (lead text : Str) : Option (Nat × Str) :=
  (stripPrefix text lead).map fun rest =>
    (Nat.ofDigitChars 10 (rest.takeWhile Char.isDigit) 0, rest.dropWhile Char.isDigit)

def numberLead (start : Char) (name : String) : Str :=
  start :: (quotedText name.toList ++ [':'])

@[reducible] def envelopeJson : JsonText where
  print
    | .array items => '[' :: ([','].intercalate (items.map valueText) ++ [']'])
    | value => valueText value
  parse text :=
    (readNumber (numberLead '\x7b' "version") text).bind fun (version, rest) =>
    (readNumber (numberLead ',' "threshold") rest).bind fun (threshold, rest) =>
    (readNumber (numberLead ',' "required_participants") rest).bind fun (required, rest) =>
    (readNumber (numberLead ',' "share_index") rest).bind fun (index, rest) =>
    (stripPrefix rest (numberLead ',' "ciphertext" ++ ['"'])).map fun rest =>
      .object [("version", .natural version), ("threshold", .natural threshold),
        ("required_participants", .natural required), ("share_index", .natural index),
        ("ciphertext", .text (rest.take (rest.length - 2)))]

attribute [local instance] envelopeJson

theorem readNumber_append (lead : Str) (value : Nat) {rest : Str}
    (stop : ∀ next ∈ rest.head?, next.isDigit = false) :
    readNumber lead (lead ++ (Nat.toDigits 10 value ++ rest)) = some (value, rest) := by
  have digits : ∀ char ∈ Nat.toDigits 10 value, char.isDigit = true :=
    fun char member => Nat.isDigit_of_mem_toDigits (by decide) (by decide) member
  have stripped : stripPrefix (lead ++ (Nat.toDigits 10 value ++ rest)) lead =
      some (Nat.toDigits 10 value ++ rest) := stripPrefix_eq_some.mpr rfl
  have ends : rest.takeWhile Char.isDigit = [] ∧ rest.dropWhile Char.isDigit = rest := by
    cases rest with
    | nil => exact ⟨rfl, rfl⟩
    | cons next tail =>
      have other : next.isDigit = false := stop next rfl
      exact ⟨by rw [List.takeWhile_cons, other]; rfl, by rw [List.dropWhile_cons, other]; rfl⟩
  unfold readNumber
  rw [stripped, Option.map_some, List.takeWhile_append_of_pos digits,
    List.dropWhile_append_of_pos digits, ends.1, ends.2, List.append_nil,
    Nat.ofDigitChars_ten_toDigits]

theorem stop_numberLead (name : String) (rest : Str) :
    ∀ next ∈ (numberLead ',' name ++ rest).head?, next.isDigit = false := by
  intro next first
  have comma : ',' = next := by simpa [numberLead] using first
  rw [← comma]
  rfl

/-- Every envelope is read back from its text. -/
theorem readsBack_envelopeJson (envelope : SentinelShareEnvelope) :
    envelope.toJson.ReadsBack := by
  have printed : JsonText.print envelope.toJson = numberLead '\x7b' "version" ++
      (Nat.toDigits 10 envelope.version.toNat ++ (numberLead ',' "threshold" ++
        (Nat.toDigits 10 envelope.threshold.toNat ++ (numberLead ',' "required_participants" ++
          (Nat.toDigits 10 envelope.requiredParticipants.toNat ++ (numberLead ',' "share_index" ++
            (Nat.toDigits 10 envelope.shareIndex.toNat ++ (numberLead ',' "ciphertext" ++
              ('"' :: (envelope.ciphertext.asStr ++ ['"', '\x7d'])))))))))) := by
    have shape : JsonText.print envelope.toJson = valueText (.object
        [("version", .natural envelope.version.toNat),
          ("threshold", .natural envelope.threshold.toNat),
          ("required_participants", .natural envelope.requiredParticipants.toNat),
          ("share_index", .natural envelope.shareIndex.toNat),
          ("ciphertext", .text envelope.ciphertext.asStr)]) := rfl
    rw [shape]
    simp [valueText, fieldText, leafText, numberLead, quotedText, List.intercalate,
      List.intersperse]
  have stripped : stripPrefix (numberLead ',' "ciphertext" ++
      ('"' :: (envelope.ciphertext.asStr ++ ['"', '\x7d']))) (numberLead ',' "ciphertext" ++ ['"']) =
        some (envelope.ciphertext.asStr ++ ['"', '\x7d']) :=
    stripPrefix_eq_some.mpr (by simp)
  have cut : (envelope.ciphertext.asStr ++ ['"', '\x7d']).take
      ((envelope.ciphertext.asStr ++ ['"', '\x7d']).length - 2) = envelope.ciphertext.asStr := by
    simp
  unfold Json.ReadsBack
  rw [printed]
  show (readNumber _ _).bind _ = _
  rw [readNumber_append _ _ (stop_numberLead _ _), Option.bind_some]
  dsimp only
  rw [readNumber_append _ _ (stop_numberLead _ _), Option.bind_some]
  dsimp only
  rw [readNumber_append _ _ (stop_numberLead _ _), Option.bind_some]
  dsimp only
  rw [readNumber_append _ _ (stop_numberLead _ _), Option.bind_some]
  dsimp only
  rw [stripped, Option.map_some, cut]
  rfl

/-- A signature is the key and the text. -/
@[reducible] def repeatingKeys : Signing where
  fromSigningKey key := .ed25519Hex key.seed
  sign key bytes := key.seed ++ bytes
  verifySignature key signature bytes := signature = key.asStr ++ bytes
  sha256Hex text := text

@[reducible] def plainAge : Age where
  toPublic identity := ⟨"age1".toList ++ identity⟩
  appId key := ⟨key.asStr⟩
  authId key := ⟨key.asStr⟩
  sealBytes key plaintext _ := .ok ⟨key.asStr ++ plaintext⟩
  openIdentityBytes envelope _ := .ok envelope.asStr

@[reducible] def plainRecipients : AgeRecipients where
  isRecipient text := startsWith text "age1".toList

@[reducible] def plainCrypto : VaultCrypto where
  encryptValue key plaintext _ := .ok ⟨key.asStr ++ plaintext⟩
  decryptValue _ ciphertext := .ok ciphertext.asStr

@[reducible] def rootExpansion : VaultKeyExpansion where
  expand _ info := .ok info

attribute [local instance] repeatingKeys plainAge plainRecipients plainCrypto rootExpansion

theorem correct_repeatingKeys : Signing.Correct where
  present _ := rfl
  verifies key bytes := by simp [Signing.verifySignature, Signing.sign, Signing.fromSigningKey,
    DeviceSigningPublicKey.asStr]

def ownerKey : SigningKey := ⟨['1']⟩

def ownerStart : MultiDeviceResult SentinelGenesisSession :=
  SentinelGenesisSession.start ⟨"owner".toList⟩ ownerKey 2 2 "Owner".toList
    (.ok "AAAAAAAAAAA".toList)

/-- The answer of a second device, given twice. -/
def peerCalls (request : SentinelGenesisRequest) : List SentinelGenesisCall :=
  match request.respond ⟨⟨"peer".toList⟩, ⟨['2']⟩, "Peer".toList⟩ with
  | .ok response => [.collect response, .collect response]
  | .error _ => []

theorem genesis_admits_once_two : ∃ session, ownerStart = .ok session ∧
    (session.run (peerCalls session.request)).participants.length = 2 ∧
      (session.run (peerCalls session.request)).Admitted := by
  obtain ⟨session, started, full⟩ := exists_of_passes ownerStart
    (fun session => (session.run (peerCalls session.request)).participants.length == 2)
    (by decide +kernel)
  have admits := @genesis_admits_once repeatingKeys envelopeJson plainRecipients plainAge zeroHashes
    rootExpansion plainCrypto correct_repeatingKeys readsBack_envelopeJson _ _ _ _ _ _ _ started
    (peerCalls session.request)
  exact ⟨session, started, by simpa using full, admits.2.2.1⟩

end TestSupport

end Nook.Sentinel
