import Nook.Auth.VaultMeta
import Nook.Lib.Steps

set_option autoImplicit false

namespace Nook.Auth

open Nook.Lib Nook.EventLog

/-! ### What is read is read again from what is written of it -/

theorem AgeArmoredCiphertext.parse_eq_ok {raw : Str} {armored : AgeArmoredCiphertext} :
    AgeArmoredCiphertext.parse raw = .ok armored ↔
      armored.asStr = raw ∧ containsText raw ageArmorMarker = true := by
  unfold AgeArmoredCiphertext.parse
  by_cases marked : containsText raw ageArmorMarker = true
  · simp only [marked, if_true, Except.ok.injEq, and_true]
    constructor
    · rintro rfl
      rfl
    · exact fun same => Text.asStr_injective same.symm
  · simp [marked]

theorem textField_eq_some {json : Option Json} {value : Str} :
    textField json = some value ↔ json = some (.text value) := by
  unfold textField
  split <;> simp_all

theorem armoredField_text {json : Option Json} {armored : AgeArmoredCiphertext}
    (read : armoredField json = some armored) :
    armoredField (some (.text armored.asStr)) = some armored := by
  obtain ⟨raw, _, parsed⟩ := Option.bind_eq_some_iff.mp read
  have same : AgeArmoredCiphertext.parse raw = .ok armored := toOption_eq_some.mp parsed
  have again : AgeArmoredCiphertext.parse armored.asStr = .ok armored := by
    rw [(AgeArmoredCiphertext.parse_eq_ok.mp same).1, same]
  unfold armoredField
  simp [textField, again, Except.toOption]

theorem AuthEnvelopes.ofJson_toJson {json : Json} {envelopes : AuthEnvelopes}
    (read : ofJson json = some envelopes) : ofJson envelopes.toJson = some envelopes := by
  unfold ofJson at read
  split at read
  · rename_i secretsKey membersKey _
    obtain ⟨first, readFirst, read⟩ := Option.bind_eq_some_iff.mp read
    obtain ⟨second, readSecond, read⟩ := Option.bind_eq_some_iff.mp read
    cases read
    unfold ofJson toJson
    rw [Json.fieldValues_struct (by simp)]
    simp [fields, List.lookup, armoredField_text readFirst, armoredField_text readSecond]
  · cases read

/-- Envelopes are not read as a join request: they name no device. -/
theorem JoinRequest.ofJson_envelopes [AgeRecipients] (envelopes : AuthEnvelopes) :
    JoinRequest.ofJson envelopes.toJson = none := by
  unfold JoinRequest.ofJson AuthEnvelopes.toJson
  rw [Json.fieldValues_struct (by simp)]
  simp [fields, List.lookup, textField]

theorem DevicePublicKey.parse?_asStr [AgeRecipients] {raw : Str} {key : DevicePublicKey}
    (parsed : DevicePublicKey.parse? raw = some key) :
    DevicePublicKey.parse? key.asStr = some key := by
  unfold DevicePublicKey.parse? at parsed ⊢
  simp only at parsed ⊢
  split at parsed
  · rename_i valid
    cases parsed
    simp only [trim_trim, valid, if_true]
  · cases parsed

theorem DeviceSigningPublicKey.parse?_asStr {raw : Str} {key : DeviceSigningPublicKey}
    (parsed : DeviceSigningPublicKey.parse? raw = some key) :
    key = .unavailable ∨ DeviceSigningPublicKey.parse? key.asStr = some key ∧ ¬ key.isEmpty := by
  unfold DeviceSigningPublicKey.parse? at parsed ⊢
  simp only at parsed ⊢
  split at parsed
  · cases parsed
    exact .inl rfl
  · rename_i filled
    split at parsed
    · rename_i valid
      cases parsed
      refine .inr ⟨?_, by simp [DeviceSigningPublicKey.isEmpty]⟩
      simp only [DeviceSigningPublicKey.asStr, trim_trim, filled, valid, and_self, if_true]
      simp
    · cases parsed

theorem JoinRequest.signingField_toJson {json : Option Json} {key : DeviceSigningPublicKey}
    (read : signingField json = some key) :
    signingField (if key.isEmpty then none else some (.text key.asStr)) = some key := by
  unfold signingField at read
  split at read
  · cases read
    rfl
  · rcases DeviceSigningPublicKey.parse?_asStr read with rfl | ⟨again, filled⟩
    · rfl
    · rw [if_neg filled]
      exact again
  · cases read

theorem JoinRequest.ofJson_toJson [AgeRecipients] {json : Json} {join : JoinRequest}
    (read : ofJson json = some join) : ofJson join.toJson = some join := by
  unfold ofJson at read
  split at read
  · rename_i deviceId publicKey signingPublicKey requestedAt _
    obtain ⟨rawDevice, _, read⟩ := Option.bind_eq_some_iff.mp read
    obtain ⟨device, readDevice, read⟩ := Option.bind_eq_some_iff.mp read
    obtain ⟨rawKey, _, read⟩ := Option.bind_eq_some_iff.mp read
    obtain ⟨key, readKey, read⟩ := Option.bind_eq_some_iff.mp read
    obtain ⟨signing, readSigning, read⟩ := Option.bind_eq_some_iff.mp read
    obtain ⟨requested, readRequested, read⟩ := Option.bind_eq_some_iff.mp read
    cases read
    have deviceAgain : AppId.parse device.asStr = .ok device :=
      AppId.parse_asStr (toOption_eq_some.mp readDevice)
    have keyAgain := DevicePublicKey.parse?_asStr readKey
    have signingAgain : signingField (if signing.isEmpty then none
        else some (.text signing.asStr)) = some signing := signingField_toJson readSigning
    unfold ofJson toJson
    rw [Json.fieldValues_struct (by simp)]
    simp [fields, List.lookup, textField, deviceAgain, keyAgain, signingAgain, Except.toOption]
  · cases read

theorem naturalField_toNat {bound value : Nat} (small : value < bound) :
    naturalField bound (some (.natural value)) = some value := by
  simp [naturalField, small]

theorem SentinelShareEnvelope.byteField_toNat (byte : UInt8) :
    byteField (some (.natural byte.toNat)) = some byte := by
  unfold byteField
  rw [naturalField_toNat byte.toNat_lt]
  simp

theorem SentinelShareEnvelope.versionField_toNat {json : Option Json} {version : UInt32}
    (read : versionField json = some version) :
    versionField (some (.natural version.toNat)) = some version := by
  obtain ⟨value, _, read⟩ := Option.bind_eq_some_iff.mp read
  split at read
  · rename_i known
    cases read
    rcases known with rfl | rfl <;> rfl
  · cases read

theorem SentinelShareEnvelope.ofJson_toJson {json : Json} {share : SentinelShareEnvelope}
    (read : ofJson json = some share) : ofJson share.toJson = some share := by
  unfold ofJson at read
  split at read
  · obtain ⟨version, readVersion, read⟩ := Option.bind_eq_some_iff.mp read
    obtain ⟨threshold, _, read⟩ := Option.bind_eq_some_iff.mp read
    obtain ⟨required, _, read⟩ := Option.bind_eq_some_iff.mp read
    obtain ⟨index, _, read⟩ := Option.bind_eq_some_iff.mp read
    obtain ⟨ciphertext, readCiphertext, read⟩ := Option.bind_eq_some_iff.mp read
    cases read
    unfold ofJson toJson
    rw [Json.fieldValues_struct (by simp)]
    simp [fields, List.lookup, versionField_toNat readVersion, byteField_toNat,
      armoredField_text readCiphertext]
  · cases read

theorem JoinRequest.deviceId_ofJson [AgeRecipients] {json : Json} {join : JoinRequest}
    (read : ofJson json = some join) : AppId.parse join.deviceId.asStr = .ok join.deviceId := by
  unfold ofJson at read
  split at read
  · obtain ⟨rawDevice, _, read⟩ := Option.bind_eq_some_iff.mp read
    obtain ⟨device, readDevice, read⟩ := Option.bind_eq_some_iff.mp read
    obtain ⟨_, _, read⟩ := Option.bind_eq_some_iff.mp read
    obtain ⟨_, _, read⟩ := Option.bind_eq_some_iff.mp read
    obtain ⟨_, _, read⟩ := Option.bind_eq_some_iff.mp read
    obtain ⟨_, _, read⟩ := Option.bind_eq_some_iff.mp read
    cases read
    exact AppId.parse_asStr (toOption_eq_some.mp readDevice)
  · cases read

/-! ### A classified row keeps its kind -/

section

variable [AgeRecipients] [JsonText] {record : StoredSecretRecord} {row : VaultMetaRecord}

theorem JoinRequest.parseJson_eq_ok {value : Str} {join : JoinRequest} :
    JoinRequest.parseJson value = .ok join ↔
      (JsonText.parse value).bind JoinRequest.ofJson = some join := by
  unfold parseJson
  cases (JsonText.parse value).bind JoinRequest.ofJson <;> simp

omit [AgeRecipients] in
theorem AuthEnvelopes.parse_eq_ok {value : Str} {envelopes : AuthEnvelopes} :
    AuthEnvelopes.parse value = .ok envelopes ↔
      (JsonText.parse value).bind AuthEnvelopes.ofJson = some envelopes := by
  unfold parse
  cases (JsonText.parse value).bind AuthEnvelopes.ofJson <;> simp

omit [AgeRecipients] in
theorem SentinelShareEnvelope.parse_eq_ok {value : Str} {share : SentinelShareEnvelope} :
    SentinelShareEnvelope.parseSentinelShareEnvelope value = .ok share ↔
      (JsonText.parse value).bind SentinelShareEnvelope.ofJson = some share := by
  unfold parseSentinelShareEnvelope
  cases (JsonText.parse value).bind SentinelShareEnvelope.ofJson <;> simp

/-- What the row of each kind is read from. -/
theorem classify_cases (classified : classify record = .ok row) :
    (∃ raw deviceId share, record.key.asStr = sentinelShareRecordPrefix ++ raw ∧
      AppId.parse raw = .ok deviceId ∧
      SentinelShareEnvelope.parseSentinelShareEnvelope record.value.asStr = .ok share ∧
      row = .sentinelShare deviceId share) ∨
    stripPrefix record.key.asStr sentinelShareRecordPrefix = none ∧
      ((∃ request, JoinRequest.parseJson record.value.asStr = .ok request ∧
        row = .join request.deviceId request) ∨
      (∀ request, JoinRequest.parseJson record.value.asStr ≠ .ok request) ∧
        ((∃ authId, memberRowId record = some authId ∧ row = .member authId record.value) ∨
        memberRowId record = none ∧
          ((∃ authId envelopes, authRow record = some (authId, envelopes) ∧
            row = .auth authId envelopes) ∨
          authRow record = none ∧
            ∃ secretType, row = .secret record.key secretType record.value))) := by
  unfold classify at classified
  split at classified
  · rename_i raw stripped
    obtain ⟨deviceId, parsed, classified⟩ := bind_eq_ok.mp classified
    obtain ⟨share, read, classified⟩ := bind_eq_ok.mp classified
    cases classified
    exact .inl ⟨raw, deviceId, share, stripPrefix_eq_some.mp stripped, mapError_eq_ok.mp parsed,
      read, rfl⟩
  · rename_i unshared
    refine .inr ⟨unshared, ?_⟩
    split at classified
    · rename_i request read
      cases classified
      exact .inl ⟨request, read, rfl⟩
    · rename_i cause refused
      refine .inr ⟨fun request read => by simp [read] at refused, ?_⟩
      split at classified
      · rename_i authId named
        cases classified
        exact .inl ⟨authId, named, rfl⟩
      · rename_i unnamed
        refine .inr ⟨unnamed, ?_⟩
        split at classified
        · rename_i authId envelopes found
          cases classified
          exact .inl ⟨authId, envelopes, found, rfl⟩
        · rename_i missing
          cases classified
          exact .inr ⟨missing, _, rfl⟩

/-! The row written of each kind. -/

theorem classify_share {deviceId : DeviceId} {share : SentinelShareEnvelope}
    {raw value : Str} {kind : RecordTypeDeclaration}
    (parsed : AppId.parse raw = .ok deviceId)
    (read : SentinelShareEnvelope.parseSentinelShareEnvelope value = .ok share) :
    classify ⟨⟨sentinelShareRecordPrefix ++ raw⟩, kind, ⟨value⟩⟩ =
      .ok (.sentinelShare deviceId share) := by
  unfold classify
  simp only [stripPrefix_eq_some.mpr rfl, parsed, read]
  rfl

theorem classify_join {request : JoinRequest}
    (unshared : stripPrefix record.key.asStr sentinelShareRecordPrefix = none)
    (read : JoinRequest.parseJson record.value.asStr = .ok request) :
    classify record = .ok (.join request.deviceId request) := by
  unfold classify
  simp only [unshared, read]

theorem classify_member {authId : AuthKeyId}
    (unshared : stripPrefix record.key.asStr sentinelShareRecordPrefix = none)
    (unread : ∀ request, JoinRequest.parseJson record.value.asStr ≠ .ok request)
    (named : memberRowId record = some authId) :
    classify record = .ok (.member authId record.value) := by
  unfold classify
  cases refused : JoinRequest.parseJson record.value.asStr with
  | ok request => exact absurd refused (unread request)
  | error cause => simp only [unshared, named]

theorem classify_auth {authId : AuthKeyId} {envelopes : AuthEnvelopes}
    (unshared : stripPrefix record.key.asStr sentinelShareRecordPrefix = none)
    (unread : ∀ request, JoinRequest.parseJson record.value.asStr ≠ .ok request)
    (unnamed : memberRowId record = none) (found : authRow record = some (authId, envelopes)) :
    classify record = .ok (.auth authId envelopes) := by
  unfold classify
  cases refused : JoinRequest.parseJson record.value.asStr with
  | ok request => exact absurd refused (unread request)
  | error cause => simp only [unshared, unnamed, found]

theorem classify_secret {secretType : SecretType}
    (unshared : stripPrefix record.key.asStr sentinelShareRecordPrefix = none)
    (unread : ∀ request, JoinRequest.parseJson record.value.asStr ≠ .ok request)
    (unnamed : memberRowId record = none) (missing : authRow record = none)
    (declared : record.secretType = .secret secretType) :
    classify record = .ok (.secret record.key secretType record.value) := by
  unfold classify
  cases refused : JoinRequest.parseJson record.value.asStr with
  | ok request => exact absurd refused (unread request)
  | error cause => simp only [unshared, unnamed, missing, declared]

omit [AgeRecipients] [JsonText] in
theorem memberRowId_eq_some {authId : AuthKeyId} : memberRowId record = some authId ↔
    ∃ raw, record.key.asStr = memberRecordPrefix ++ raw ∧
      containsText record.value.asStr ageArmorMarker = true ∧
      AuthKeyId.parse raw = .ok authId := by
  unfold memberRowId
  constructor
  · intro named
    obtain ⟨raw, stripped, named⟩ := Option.bind_eq_some_iff.mp named
    split at named
    · rename_i armored
      exact ⟨raw, stripPrefix_eq_some.mp stripped, armored, toOption_eq_some.mp named⟩
    · cases named
  · rintro ⟨raw, written, armored, parsed⟩
    simp [stripPrefix_eq_some.mpr written, armored, parsed, Except.toOption]

omit [AgeRecipients] in
theorem authRow_eq_some {authId : AuthKeyId} {envelopes : AuthEnvelopes} :
    authRow record = some (authId, envelopes) ↔
      AuthKeyId.isValid record.key.asStr = true ∧ AuthKeyId.parse record.key.asStr = .ok authId ∧
        AuthEnvelopes.parse record.value.asStr = .ok envelopes := by
  unfold authRow
  constructor
  · intro found
    split at found
    · rename_i valid
      obtain ⟨own, read, found⟩ := Option.bind_eq_some_iff.mp found
      obtain ⟨id, parsed, found⟩ := Option.bind_eq_some_iff.mp found
      cases found
      exact ⟨valid, toOption_eq_some.mp parsed, toOption_eq_some.mp read⟩
    · cases found
  · rintro ⟨valid, parsed, read⟩
    simp [valid, parsed, read, Except.toOption]

omit [AgeRecipients] in
/-- The JSON of a row, if its kind has one, is read back. -/
def VaultMetaRecord.ReadsBack : VaultMetaRecord → Prop
  | .auth _ envelopes => envelopes.toJson.ReadsBack
  | .join _ request => request.toJson.ReadsBack
  | .sentinelShare _ share => share.toJson.ReadsBack
  | .secret .. | .member .. => True

/-- The row written of a classified row is classified as that row again. -/
theorem classify_toStored (readsBack : row.ReadsBack)
    (classified : classify record = .ok row) : classify row.toStored = .ok row := by
  rcases classify_cases classified with ⟨raw, deviceId, share, _, parsed, read, rfl⟩ |
    ⟨unshared, ⟨request, read, rfl⟩ | ⟨unread, ⟨authId, named, rfl⟩ |
      ⟨unnamed, ⟨authId, envelopes, found, rfl⟩ | ⟨missing, secretType, rfl⟩⟩⟩⟩
  · obtain ⟨json, _, ofJson⟩ := Option.bind_eq_some_iff.mp
      (SentinelShareEnvelope.parse_eq_ok.mp read)
    refine classify_share (AppId.parse_asStr parsed) (SentinelShareEnvelope.parse_eq_ok.mpr ?_)
    rw [Json.ReadsBack.parse_print readsBack]
    exact SentinelShareEnvelope.ofJson_toJson ofJson
  · obtain ⟨json, _, ofJson⟩ := Option.bind_eq_some_iff.mp (JoinRequest.parseJson_eq_ok.mp read)
    refine classify_join ?_ (JoinRequest.parseJson_eq_ok.mpr ?_)
    · have digit : isAsciiHexdigit 's' = false := by decide
      exact stripPrefix_eq_none (AppId.head?_ne (JoinRequest.deviceId_ofJson ofJson) digit)
        (by decide)
    · show (JsonText.parse (JsonText.print request.toJson)).bind _ = _
      rw [Json.ReadsBack.parse_print readsBack]
      exact JoinRequest.ofJson_toJson ofJson
  · obtain ⟨raw, _, armored, parsed⟩ := memberRowId_eq_some.mp named
    refine classify_member ?_ unread ?_
    · have letters : some 'm' ≠ some 's' := by decide
      exact stripPrefix_eq_none letters (by decide)
    · exact memberRowId_eq_some.mpr ⟨authId.asStr, rfl, armored, AuthKeyId.parse_asStr parsed⟩
  · obtain ⟨valid, parsed, read⟩ := authRow_eq_some.mp found
    obtain ⟨json, _, ofJson⟩ := Option.bind_eq_some_iff.mp (AuthEnvelopes.parse_eq_ok.mp read)
    have again := AuthKeyId.parse_asStr parsed
    have first := AuthKeyId.head?_of_parse parsed
    refine classify_auth ?_ ?_ ?_ (authRow_eq_some.mpr ⟨?_, again, ?_⟩)
    · exact stripPrefix_eq_none (first ▸ by decide) (by decide)
    · intro request joined
      have written := JoinRequest.parseJson_eq_ok.mp joined
      change (JsonText.parse (JsonText.print envelopes.toJson)).bind _ = _ at written
      rw [Json.ReadsBack.parse_print readsBack, Option.bind_some, JoinRequest.ofJson_envelopes] at written
      cases written
    · cases member : memberRowId (VaultMetaRecord.auth authId envelopes).toStored with
      | none => rfl
      | some other =>
        obtain ⟨rest, written, _⟩ := memberRowId_eq_some.mp member
        change authId.asStr = memberRecordPrefix ++ rest at written
        rw [written] at first
        exact absurd first (by simp [memberRecordPrefix])
    · exact (AuthKeyId.parse_eq_ok.mp again).2
    · refine AuthEnvelopes.parse_eq_ok.mpr ?_
      show (JsonText.parse (JsonText.print envelopes.toJson)).bind _ = _
      rw [Json.ReadsBack.parse_print readsBack]
      exact AuthEnvelopes.ofJson_toJson ofJson
  · exact classify_secret unshared unread unnamed missing rfl

end

end Nook.Auth
