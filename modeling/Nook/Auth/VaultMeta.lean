import Nook.Auth.AppKey
import Nook.EventLog.Canonical
import Nook.Lib.Json
import Nook.Lib.OrderedMap

set_option autoImplicit false

namespace Nook.Auth

open Nook.Lib Nook.EventLog

/-! ### Validated text -/

/-- Which texts are the public key of an age recipient. -/
class AgeRecipients where
  isRecipient : Str → Bool

def ageArmorMarker : Str := "BEGIN AGE ENCRYPTED FILE".toList

def containsText (raw part : Str) : Bool := decide (part <:+: raw)

def AgeArmoredCiphertext.parse (raw : Str) : MultiDeviceResult AgeArmoredCiphertext :=
  if containsText raw ageArmorMarker then .ok ⟨raw⟩ else .error .ageArmoredInvalid

/-- A public key as it is deserialised. -/
def DevicePublicKey.parse? [AgeRecipients] (raw : Str) : Option DevicePublicKey :=
  let key := trim raw
  if AgeRecipients.isRecipient key then some ⟨key⟩ else none

/-- A signing key as it is deserialised. -/
def DeviceSigningPublicKey.parse? (raw : Str) : Option DeviceSigningPublicKey :=
  let hex := trim raw
  if hex.isEmpty then some .unavailable
  else if utf8Len hex = 64 ∧ hex.all isAsciiHexdigit then some (.ed25519Hex hex) else none

/-! ### The JSON of the rows -/

/-- A string field. -/
def textField : Option Json → Option Str
  | some (.text value) => some value
  | _ => none

/-- An unsigned number field of the given width. -/
def naturalField (bound : Nat) : Option Json → Option Nat
  | some (.natural value) => if value < bound then some value else none
  | _ => none

structure AuthEnvelopes where
  secretsKey : AgeArmoredCiphertext
  membersKey : AgeArmoredCiphertext
  deriving DecidableEq

structure JoinRequest where
  deviceId : DeviceId
  publicKey : DevicePublicKey
  signingPublicKey : DeviceSigningPublicKey
  requestedAt : Str
  deriving DecidableEq

structure SentinelShareEnvelope where
  version : UInt32
  threshold : UInt8
  requiredParticipants : UInt8
  shareIndex : UInt8
  ciphertext : AgeArmoredCiphertext
  deriving DecidableEq

def armoredField (json : Option Json) : Option AgeArmoredCiphertext := do
  (AgeArmoredCiphertext.parse (← textField json)).toOption

namespace AuthEnvelopes

def fields : List String := ["secrets_key", "members_key"]

def ofJson (json : Json) : Option AuthEnvelopes :=
  match json.fieldValues fields with
  | some [secretsKey, membersKey] => do
    return ⟨← armoredField secretsKey, ← armoredField membersKey⟩
  | _ => none

def toJson (envelopes : AuthEnvelopes) : Json :=
  .struct [("secrets_key", some (.text envelopes.secretsKey.asStr)),
    ("members_key", some (.text envelopes.membersKey.asStr))]

def parse [JsonText] (value : Str) : MultiDeviceResult AuthEnvelopes :=
  match (JsonText.parse value).bind ofJson with
  | some envelopes => .ok envelopes
  | none => .error .authEnvelopeJson

end AuthEnvelopes

namespace JoinRequest

variable [AgeRecipients]

def fields : List String := ["device_id", "public_key", "signing_public_key", "requested_at"]

def signingField : Option Json → Option DeviceSigningPublicKey
  | none => some .unavailable
  | some (.text value) => DeviceSigningPublicKey.parse? value
  | some _ => none

def ofJson (json : Json) : Option JoinRequest :=
  match json.fieldValues fields with
  | some [deviceId, publicKey, signingPublicKey, requestedAt] => do
    let deviceId ← (AppId.parse (← textField deviceId)).toOption
    let publicKey ← DevicePublicKey.parse? (← textField publicKey)
    return ⟨deviceId, publicKey, ← signingField signingPublicKey, ← textField requestedAt⟩
  | _ => none

omit [AgeRecipients] in
def toJson (join : JoinRequest) : Json :=
  .struct [("device_id", some (.text join.deviceId.asStr)),
    ("public_key", some (.text join.publicKey.asStr)),
    ("signing_public_key", if join.signingPublicKey.isEmpty then none
      else some (.text join.signingPublicKey.asStr)),
    ("requested_at", some (.text join.requestedAt))]

def parseJson [JsonText] (value : Str) : MultiDeviceResult JoinRequest :=
  match (JsonText.parse value).bind ofJson with
  | some join => .ok join
  | none => .error .joinRequestJson

end JoinRequest

namespace SentinelShareEnvelope

def fields : List String :=
  ["version", "threshold", "required_participants", "share_index", "ciphertext"]

/-- The legacy version and the current one. -/
def versionField (json : Option Json) : Option UInt32 := do
  let value ← naturalField (2 ^ 32) json
  if value = 1 ∨ value = 2 then some (UInt32.ofNat value) else none

def byteField (json : Option Json) : Option UInt8 := (naturalField (2 ^ 8) json).map UInt8.ofNat

def ofJson (json : Json) : Option SentinelShareEnvelope :=
  match json.fieldValues fields with
  | some [version, threshold, requiredParticipants, shareIndex, ciphertext] => do
    return ⟨← versionField version, ← byteField threshold, ← byteField requiredParticipants,
      ← byteField shareIndex, ← armoredField ciphertext⟩
  | _ => none

def toJson (share : SentinelShareEnvelope) : Json :=
  .struct [("version", some (.natural share.version.toNat)),
    ("threshold", some (.natural share.threshold.toNat)),
    ("required_participants", some (.natural share.requiredParticipants.toNat)),
    ("share_index", some (.natural share.shareIndex.toNat)),
    ("ciphertext", some (.text share.ciphertext.asStr))]

def parseSentinelShareEnvelope [JsonText] (value : Str) : MultiDeviceResult SentinelShareEnvelope :=
  match (JsonText.parse value).bind ofJson with
  | some share => .ok share
  | none => .error .sentinelShareJson

end SentinelShareEnvelope

/-! ### Kinds of rows -/

def sentinelShareRecordPrefix : Str := "sentinel_share:".toList
def memberRecordPrefix : Str := "member:".toList

def sentinelShareRecordKey (deviceId : DeviceId) : Str :=
  sentinelShareRecordPrefix ++ deviceId.asStr

def memberRecordKey (authId : AuthKeyId) : Str := memberRecordPrefix ++ authId.asStr

/-- The kinds of rows that share the shape of a stored record. -/
inductive VaultMetaRecord where
  | secret (id : SecretId) (secretType : SecretType) (payload : StoredRecordPayload)
  | auth (authId : AuthKeyId) (envelopes : AuthEnvelopes)
  | join (deviceId : DeviceId) (request : JoinRequest)
  /-- A roster entry, still encrypted with `members_key`. -/
  | member (authId : AuthKeyId) (payload : StoredRecordPayload)
  /-- A threshold share of the vault key bundle, encrypted to one device. -/
  | sentinelShare (deviceId : DeviceId) (share : SentinelShareEnvelope)
  deriving DecidableEq

section

variable [AgeRecipients] [JsonText]

/-- The id of a roster row. -/
def memberRowId (record : StoredSecretRecord) : Option AuthKeyId := do
  let pkId ← stripPrefix record.key.asStr memberRecordPrefix
  if containsText record.value.asStr ageArmorMarker then (AuthKeyId.parse pkId).toOption else none

omit [AgeRecipients] in
/-- The id and the envelopes of an auth row. -/
def authRow (record : StoredSecretRecord) : Option (AuthKeyId × AuthEnvelopes) :=
  if AuthKeyId.isValid record.key.asStr then do
    let envelopes ← (AuthEnvelopes.parse record.value.asStr).toOption
    return (← (AuthKeyId.parse record.key.asStr).toOption, envelopes)
  else none

/-- The single classification of a stored record. -/
def classify (record : StoredSecretRecord) : MultiDeviceResult VaultMetaRecord :=
  match stripPrefix record.key.asStr sentinelShareRecordPrefix with
  | some deviceIdStr => do
    let deviceId ← (AppId.parse deviceIdStr).mapError .validation
    return .sentinelShare deviceId
      (← SentinelShareEnvelope.parseSentinelShareEnvelope record.value.asStr)
  | none =>
    match JoinRequest.parseJson record.value.asStr with
    | .ok join => .ok (.join join.deviceId join)
    | .error _ =>
      match memberRowId record with
      | some authId => .ok (.member authId record.value)
      | none =>
        match authRow record with
        | some (authId, envelopes) => .ok (.auth authId envelopes)
        | none =>
          .ok (.secret record.key (match record.secretType with
            | .secret kind => kind
            | .undeclared => .secureNote) record.value)

omit [AgeRecipients] in
/-- Encoding back to the shared shape; writing JSON does not fail. -/
def VaultMetaRecord.toStored : VaultMetaRecord → StoredSecretRecord
  | .secret id secretType payload => ⟨id, .secret secretType, payload⟩
  | .auth authId envelopes => ⟨⟨authId.asStr⟩, .undeclared, ⟨JsonText.print envelopes.toJson⟩⟩
  | .join _ request => ⟨⟨request.deviceId.asStr⟩, .undeclared, ⟨JsonText.print request.toJson⟩⟩
  | .member authId payload => ⟨⟨memberRecordKey authId⟩, .undeclared, payload⟩
  | .sentinelShare deviceId share =>
    ⟨⟨sentinelShareRecordKey deviceId⟩, .undeclared, ⟨JsonText.print share.toJson⟩⟩

end

/-! ### The typed state -/

/-- Public Sentinel roster entry retained while materialising event-only vaults. -/
structure SentinelParticipantEntry where
  deviceId : DeviceId
  encryptionPublicKey : DevicePublicKey
  signingPublicKey : DeviceSigningPublicKey
  label : Str
  enrolledAt : Str
  deriving DecidableEq

/-- One bucket per kind of row. -/
@[ext] structure VaultMetaState where
  secrets : BTreeMap SecretId (SecretType × StoredRecordPayload)
  auth : BTreeMap AuthKeyId AuthEnvelopes
  joins : BTreeMap DeviceId JoinRequest
  members : BTreeMap AuthKeyId StoredRecordPayload
  /-- Live enrolled devices reconstructed from events, not from rows. -/
  enrolledDevices : BTreeMap DeviceId JoinRequest
  sentinelShares : BTreeMap DeviceId SentinelShareEnvelope
  sentinelParticipants : BTreeMap DeviceId SentinelParticipantEntry

namespace VaultMetaState

def empty : VaultMetaState := ⟨∅, ∅, ∅, ∅, ∅, ∅, ∅⟩

/-- Insert or overwrite the bucket of a classified row. -/
def insertMeta (state : VaultMetaState) : VaultMetaRecord → VaultMetaState
  | .secret id secretType payload =>
    { state with secrets := state.secrets.insert id (secretType, payload) }
  | .auth authId envelopes => { state with auth := state.auth.insert authId envelopes }
  | .join deviceId join => { state with joins := state.joins.insert deviceId join }
  | .member authId payload => { state with members := state.members.insert authId payload }
  | .sentinelShare deviceId share =>
    { state with sentinelShares := state.sentinelShares.insert deviceId share }

section

variable [AgeRecipients] [JsonText]

def applyRecord (state : VaultMetaState) (record : StoredSecretRecord) :
    MultiDeviceResult VaultMetaState := do
  return state.insertMeta (← classify record)

def fromStoredRecords (records : List StoredSecretRecord) : MultiDeviceResult VaultMetaState :=
  records.foldlM applyRecord empty

omit [AgeRecipients] in
/-- The rows of the buckets, ordered by key. The maps of the source are unordered;
rows of one key are of different buckets. -/
def toStoredRecords (state : VaultMetaState) : List StoredSecretRecord :=
  let records :=
    (state.secrets.toList.map fun entry =>
      (VaultMetaRecord.secret entry.1 entry.2.1 entry.2.2).toStored) ++
    (state.auth.toList.map fun entry => (VaultMetaRecord.auth entry.1 entry.2).toStored) ++
    (state.joins.toList.map fun entry =>
      (VaultMetaRecord.join entry.2.deviceId entry.2).toStored) ++
    (state.members.toList.map fun entry => (VaultMetaRecord.member entry.1 entry.2).toStored) ++
    (state.sentinelShares.toList.map fun entry =>
      (VaultMetaRecord.sentinelShare entry.1 entry.2).toStored)
  records.mergeSort fun a b => a.key ≤ b.key

end

/-- Remove whichever bucket a raw on-disk key refers to. -/
def removeKey (state : VaultMetaState) (key : Str) : VaultMetaState :=
  let joins := match AppId.parse key with
    | .ok deviceId => state.joins.erase deviceId
    | .error _ => state.joins
  let members := match (stripPrefix key memberRecordPrefix).map AuthKeyId.parse with
    | some (.ok authId) => state.members.erase authId
    | _ => state.members
  let auth := match AuthKeyId.parse key with
    | .ok authId => state.auth.erase authId
    | .error _ => state.auth
  let sentinelShares := match (stripPrefix key sentinelShareRecordPrefix).map AppId.parse with
    | some (.ok deviceId) => state.sentinelShares.erase deviceId
    | _ => state.sentinelShares
  { state with joins, members, auth, sentinelShares, secrets := state.secrets.erase ⟨key⟩ }

end VaultMetaState

end Nook.Auth
