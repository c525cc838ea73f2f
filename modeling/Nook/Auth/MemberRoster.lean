import Nook.Auth.Member
import Nook.Auth.VaultMetaRows

set_option autoImplicit false

namespace Nook.Auth

open Nook.Lib Nook.EventLog

/-- Age encryption of a text under a vault key. Encrypting draws randomness. -/
class VaultCrypto where
  encryptValue : SymmetricKey → (plaintext entropy : Str) → MultiDeviceResult AgeArmoredCiphertext
  decryptValue : SymmetricKey → AgeArmoredCiphertext → MultiDeviceResult Str

/-! ### Roster entries -/

structure MemberEntry where
  pkId : AuthKeyId
  pk : DevicePublicKey
  label : MemberLabelState
  enrolledAt : Str
  deriving DecidableEq

def MemberEntry.ofMember (member : VaultMember) : MemberEntry :=
  ⟨member.authId, member.publicKey, member.label, member.enrolledAt⟩

variable [AgeRecipients]

def DevicePublicKey.tryAppId [Age] (key : DevicePublicKey) : MultiDeviceResult AppId :=
  if AgeRecipients.isRecipient key.asStr then .ok (Age.appId key)
  else .error (.invalidRecipientPublicKey "invalid recipient")

def VaultMember.ofEntry [Age] (entry : MemberEntry) : MultiDeviceResult VaultMember := do
  return {
    deviceId := ← DevicePublicKey.tryAppId entry.pk
    authId := entry.pkId
    publicKey := entry.pk
    enrolledAt := entry.enrolledAt
    label := entry.label }

namespace MemberEntry

def fields : List String := ["pk_id", "pk", "label", "enrolled_at"]

/-- A label is text or null; one that is left out is none. -/
def labelField : Option Json → Option MemberLabelState
  | none | some .null => some .unnamed
  | some (.text label) => some (.named label)
  | some _ => none

def enrolledField : Option Json → Option Str
  | none => some []
  | some (.text value) => some value
  | some _ => none

def ofJson (json : Json) : Option MemberEntry :=
  match json.fieldValues fields with
  | some [pkId, pk, label, enrolledAt] => do
    let pkId ← (AuthKeyId.parse (← textField pkId)).toOption
    let pk ← DevicePublicKey.parse? (← textField pk)
    return ⟨pkId, pk, ← labelField label, ← enrolledField enrolledAt⟩
  | _ => none

omit [AgeRecipients] in
def labelJson : MemberLabelState → Option Json
  | .unnamed => none
  | .named label => some (.text label)

omit [AgeRecipients] in
def enrolledJson (enrolledAt : Str) : Option Json :=
  if enrolledAt.isEmpty then none else some (.text enrolledAt)

omit [AgeRecipients] in
def toJson (entry : MemberEntry) : Json :=
  .struct [("pk_id", some (.text entry.pkId.asStr)),
    ("pk", some (.text entry.pk.asStr)),
    ("label", labelJson entry.label),
    ("enrolled_at", enrolledJson entry.enrolledAt)]

section

variable [JsonText] [VaultCrypto]

omit [AgeRecipients] in
def encryptMemberEntry (entry : MemberEntry) (membersKey : SymmetricKey) (entropy : Str) :
    MultiDeviceResult AgeArmoredCiphertext :=
  VaultCrypto.encryptValue membersKey (JsonText.print entry.toJson) entropy

def decryptMemberEntry (ciphertext : AgeArmoredCiphertext) (membersKey : SymmetricKey) :
    MultiDeviceResult MemberEntry := do
  let json ← VaultCrypto.decryptValue membersKey ciphertext
  match (JsonText.parse json).bind ofJson with
  | some entry => .ok entry
  | none => .error .memberEntryJson

end

end MemberEntry

/-- Whether the key of a row matches the id inside its entry. -/
def memberRecordKeyMatches (authId : AuthKeyId) (storedKey : Str) : Bool :=
  storedKey == memberRecordKey authId ||
    match AuthKeyId.parse authId.asStr with
    | .ok normalized => storedKey == memberRecordKey normalized
    | .error _ => false

/-! ### The roster in the rows -/

section

variable [Age] [JsonText] [VaultCrypto]

omit [AgeRecipients] [Age] in
/-- The roster row of one member. -/
def buildMemberRecord (membersKey : SymmetricKey) (entropy : Nat → Str)
    (member : VaultMember × Nat) : MultiDeviceResult StoredSecretRecord := do
  let entry := MemberEntry.ofMember member.1
  let ciphertext ← entry.encryptMemberEntry membersKey (entropy member.2)
  return ⟨⟨memberRecordKey entry.pkId⟩, .undeclared, ⟨ciphertext.asStr⟩⟩

omit [AgeRecipients] [Age] in
def buildMembersRecords (roster : List VaultMember) (membersKey : SymmetricKey)
    (entropy : Nat → Str) : MultiDeviceResult (List StoredSecretRecord) :=
  roster.zipIdx.mapM (buildMemberRecord membersKey entropy)

/-- The member that a roster row holds. -/
def resolveMember (membersKey : SymmetricKey) (record : StoredSecretRecord) :
    MultiDeviceResult (Option VaultMember) := do
  match ← classify record with
  | .member .. => do
    let ciphertext ← AgeArmoredCiphertext.parse record.value.asStr
    let entry ← MemberEntry.decryptMemberEntry ciphertext membersKey
    if !memberRecordKeyMatches entry.pkId record.key.asStr then
      let pkId := match AuthKeyId.parse entry.pkId.asStr with
        | .ok id => id.asStr
        | .error _ => entry.pkId.asStr
      let expected := match AuthKeyId.parse pkId with
        | .ok id => id
        | .error _ => entry.pkId
      .error (.memberRecordKeyMismatch (memberRecordKey expected) record.key.asStr)
    else return some (← VaultMember.ofEntry entry)
  | _ => return none

def resolveMemberRoster (records : List StoredSecretRecord) (membersKey : SymmetricKey) :
    MultiDeviceResult (List VaultMember) := do
  let found ← records.mapM (resolveMember membersKey)
  return found.reduceOption.mergeSort fun a b => a.authId ≤ b.authId

omit [Age] [VaultCrypto] in
/-- A row that is no roster row. -/
def keepOther (record : StoredSecretRecord) : MultiDeviceResult (Option StoredSecretRecord) := do
  match ← classify record with
  | .member .. => return none
  | _ => return some record

omit [Age] [VaultCrypto] in
def replaceMemberRecords (records memberRecords : List StoredSecretRecord) :
    MultiDeviceResult (List StoredSecretRecord) := do
  let kept ← records.mapM keepOther
  return kept.reduceOption ++ memberRecords

/-- The rows whose key is none of those of the revoked member. -/
def withoutKeys (records : List StoredSecretRecord) (authId : AuthKeyId) (deviceId : DeviceId) :
    List StoredSecretRecord :=
  records.filter fun record => record.key.asStr ≠ authId.asStr ∧
    record.key.asStr ≠ memberRecordKey authId ∧
    record.key.asStr ≠ sentinelShareRecordKey deviceId

def revokeVaultMember (records : List StoredSecretRecord) (membersKey : SymmetricKey)
    (authId : AuthKeyId) (entropy : Nat → Str) : MultiDeviceResult (List StoredSecretRecord) :=
  if !AuthKeyId.isValid authId.asStr then .error .invalidMemberId
  else do
    let roster ← resolveMemberRoster records membersKey
    if roster.length ≤ 1 then .error .cannotRemoveLastAccess
    else
      match roster.find? (·.authId = authId) with
      | none => .error .deviceNotFound
      | some revoked => do
        let updated := withoutKeys records authId revoked.deviceId
        let remaining := roster.filter (·.authId ≠ authId)
        let memberRecords ← buildMembersRecords remaining membersKey entropy
        replaceMemberRecords updated memberRecords

end

end Nook.Auth
