import Nook.Sync.VaultSync
import Nook.Vault.VaultArchitecture

set_option autoImplicit false

namespace Nook.Vault

open Nook.Lib Nook.EventLog Nook.Auth

/-! ### Secret ids -/

inductive SecretIdError where
  | required
  | invalid
  | reserved
  deriving DecidableEq

/-- The strict reader of public secret ids. -/
def SecretId.parse (raw : Str) : Except SecretIdError SecretId :=
  let trimmed := trim raw
  if trimmed.isEmpty then .error .required
  else
    match stripPrefix trimmed "secret_".toList with
    | none => .error .invalid
    | some token =>
      if ¬ CompactToken.isValid token then .error .invalid
      else if (AppId.parse token).isOk || AuthKeyId.isValid trimmed then .error .reserved
      else .ok ⟨"secret_".toList ++ token⟩

/-- The reader of persisted row labels. -/
def SecretId.tryFrom (value : Str) : Except SecretIdError SecretId :=
  if (trim value).isEmpty then .error .required else .ok ⟨value⟩

/-! ### The document -/

inductive VaultName where
  | unnamed
  | named (name : Str)
  deriving DecidableEq

structure AuthYamlRecord where
  pkId : Str
  secretsKey : Str
  membersKey : Str
  deriving DecidableEq

structure MembersYamlRecord where
  pkId : Str
  ciphertext : Str
  deriving DecidableEq

structure StoredVaultYaml where
  schemaVersion : UInt32
  vaultVersion : UInt64
  storeId : Sync.VaultStoreIdentity
  name : VaultName
  architecture : VaultArchitecture
  secrets : List StoredSecretRecord
  auth : List AuthYamlRecord
  joins : List StoredSecretRecord
  members : List MembersYamlRecord
  sentinelShares : List StoredSecretRecord
  deriving DecidableEq

/-- Why a record is refused at the serialization boundary. -/
inductive InvalidAuthRecord where
  | classification (cause : MultiDeviceError)
  /-- "browser-local device wrapper cannot be a typed vault secret". -/
  | typedDeviceWrapper

inductive VaultFormatError where
  /-- Detection, the schema version, the revision and the store id, and invalid ids. -/
  | revision (cause : Sync.VaultFormatError)
  | yamlParseName
  | yamlParseArchitecture
  | yamlMissingSections
  | invalidAuthRecord (cause : InvalidAuthRecord)
  | architecture (cause : ArchitectureError)

variable [JsonText]

namespace AuthYamlRecord

def fromStoredRecord (record : StoredSecretRecord) : Except VaultFormatError AuthYamlRecord := do
  let envelopes ← (AuthEnvelopes.parse record.value.asStr).mapError
    fun cause => .invalidAuthRecord (.classification cause)
  return { pkId := match AuthKeyId.parse record.key.asStr with
             | .ok id => id.asStr
             | .error _ => record.key.asStr
           secretsKey := envelopes.secretsKey.asStr
           membersKey := envelopes.membersKey.asStr }

/-- Writing the two envelopes as JSON does not fail. -/
def intoStoredRecord (row : AuthYamlRecord) : Except VaultFormatError StoredSecretRecord :=
  let pkId := match AuthKeyId.parse row.pkId with
    | .ok id => id.asStr
    | .error _ => row.pkId
  .ok ⟨⟨pkId⟩, .undeclared, ⟨JsonText.print (AuthEnvelopes.toJson ⟨⟨row.secretsKey⟩, ⟨row.membersKey⟩⟩)⟩⟩

end AuthYamlRecord

omit [JsonText] in
def MembersYamlRecord.intoStoredRecord (row : MembersYamlRecord) :
    Except VaultFormatError StoredSecretRecord := do
  let pkId := match AuthKeyId.parse row.pkId with
    | .ok id => id.asStr
    | .error _ => row.pkId
  let id ← (AuthKeyId.parse pkId).mapError fun cause => .revision (.validation cause)
  return ⟨⟨memberRecordKey id⟩, .undeclared, ⟨row.ciphertext⟩⟩

namespace StoredVaultYaml

omit [JsonText] in
def default : StoredVaultYaml :=
  ⟨0, 0, .unassigned, .unnamed, .default, [], [], [], [], []⟩

/-- Browser-local material, by the structural fields of its JSON. -/
def isLocalDeviceWrapper (value : Str) : Bool :=
  match JsonText.parse value with
  | some (.object fields) =>
    let hasFields (required : List String) : Bool :=
      required.all fun name => fields.any fun field => field.1 = name
    hasFields ["credentialId", "userHandle", "prfInput", "kdf"] ||
      hasFields ["kdf", "iterations", "salt", "cipher", "nonce", "ciphertext"]
  | _ => false

omit [JsonText] in
/-- A public secret id in its exact form; any other label as it is. -/
def normalizedKey (key : SecretId) : SecretId :=
  match SecretId.parse key.asStr with
  | .ok id => id
  | .error _ => key

variable [AgeRecipients]

/-- File one record in the section of its kind. -/
def addRecord (vault : StoredVaultYaml) (record : StoredSecretRecord) :
    Except VaultFormatError StoredVaultYaml :=
  if isLocalDeviceWrapper record.value.asStr then
    if record.secretType ≠ .undeclared then .error (.invalidAuthRecord .typedDeviceWrapper)
    else .ok vault
  else
    match classify record with
    | .error cause => .error (.invalidAuthRecord (.classification cause))
    | .ok (.join ..) => .ok { vault with joins := vault.joins ++ [record] }
    | .ok (.member authId _) =>
      .ok { vault with members := vault.members ++ [⟨authId.asStr, record.value.asStr⟩] }
    | .ok (.auth ..) => do
      return { vault with auth := vault.auth ++ [← AuthYamlRecord.fromStoredRecord record] }
    | .ok (.sentinelShare ..) =>
      .ok { vault with sentinelShares := vault.sentinelShares ++ [record] }
    | .ok (.secret ..) => .ok { vault with secrets := vault.secrets ++ [record] }

def fromRecords (records : List StoredSecretRecord) : Except VaultFormatError StoredVaultYaml := do
  let vault ← records.foldlM addRecord default
  return { vault with
    secrets := vault.secrets.map fun secret => { secret with key := normalizedKey secret.key } }

omit [AgeRecipients] in
def intoStoredRecords (vault : StoredVaultYaml) :
    Except VaultFormatError (List StoredSecretRecord) := do
  let auth ← vault.auth.mapM AuthYamlRecord.intoStoredRecord
  let members ← vault.members.mapM MembersYamlRecord.intoStoredRecord
  return vault.secrets ++ auth ++ vault.joins ++ members ++ vault.sentinelShares

end StoredVaultYaml

end Nook.Vault
