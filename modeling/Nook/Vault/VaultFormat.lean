import Nook.Vault.VaultYaml

set_option autoImplicit false

namespace Nook.Vault

open Nook.Lib Nook.EventLog Nook.Auth

/-- The third-party YAML codec of the document, whose readers of single fields are not its own. -/
class VaultYamlText where
  print : StoredVaultYaml → Str
  parse : Str → Option StoredVaultYaml

/-- The codec is exact: the document is read from its text, which starts with the document's
first field. -/
structure VaultYamlText.Exact [VaultYamlText] : Prop where
  reads : ∀ vault : StoredVaultYaml,
    VaultYamlText.parse (trim (VaultYamlText.print vault)) = some vault
  starts : ∀ vault : StoredVaultYaml,
    startsWith (VaultYamlText.print vault) "schema_version:".toList = true

inductive VaultFormat where
  | yaml
  deriving DecidableEq

inductive VaultStoreIdentityRef where
  | unassigned
  | assigned (id : Str)

inductive VaultNameRef where
  | unnamed
  | named (value : Str)

inductive VaultVersionWrite where
  | initial
  | version (version : UInt64)

namespace VaultName

def fromNamed (value : Str) : VaultName :=
  let value := trim value
  if value.isEmpty then .unnamed else .named value

def fromRef : VaultNameRef → VaultName
  | .named value => fromNamed value
  | .unnamed => .unnamed

end VaultName

namespace StoredVaultYaml

/-- The readers that single fields of the document have: of row labels and of the
architecture. -/
def checked (vault : StoredVaultYaml) : Option StoredVaultYaml :=
  if ((vault.secrets ++ vault.joins ++ vault.sentinelShares).all fun record =>
      (SecretId.tryFrom record.key.asStr).isOk) && vault.architecture.validate.isOk then
    some vault
  else none

end StoredVaultYaml

section

variable [VaultYamlText]

/-- `serde_yaml::from_str`. -/
def fromYaml (text : Str) : Option StoredVaultYaml :=
  (VaultYamlText.parse text).bind StoredVaultYaml.checked

def ensureSupported (version : UInt32) : Except VaultFormatError Unit :=
  (Sync.VaultSchemaVersion.ensureSupported version).mapError .revision

namespace VaultFormatDocument

/-- Detect the persisted representation. -/
def detect (stored : Str) : Except VaultFormatError VaultFormat := do
  (Sync.VaultFormatDocument.detect stored).mapError .revision
  return .yaml

/-- Cheap parse of top-level `schema_version`. -/
def schemaVersion (stored : Str) : Except VaultFormatError UInt32 :=
  let trimmed := trim stored
  if trimmed.isEmpty then .ok 1
  else do
    let _ ← detect stored
    match fromYaml trimmed with
    | none => .error (.revision .yamlParseVersion)
    | some vault => .ok vault.schemaVersion

/-- Read the human-readable vault label from on-disk YAML. -/
def name (stored : Str) : Except VaultFormatError VaultName :=
  let trimmed := trim stored
  if trimmed.isEmpty then .ok .unnamed
  else do
    let _ ← detect stored
    match fromYaml trimmed with
    | none => .error .yamlParseName
    | some vault => do
      ensureSupported vault.schemaVersion
      match vault.name with
      | .named name => return VaultName.fromNamed name
      | .unnamed => return .unnamed

/-- Replace the human-readable vault label without decrypting records. -/
def rename (stored name : Str) : Except VaultFormatError Str :=
  let trimmed := trim stored
  if trimmed.isEmpty then .error .yamlMissingSections
  else do
    let _ ← detect stored
    match fromYaml trimmed with
    | none => .error .yamlParseName
    | some vault => do
      ensureSupported vault.schemaVersion
      return VaultYamlText.print { vault with name := VaultName.fromNamed name }

/-- Read the monotonic revision counter from on-disk YAML. -/
def version (stored : Str) : Except VaultFormatError UInt64 :=
  let trimmed := trim stored
  if trimmed.isEmpty then .ok 0
  else do
    let _ ← detect stored
    match fromYaml trimmed with
    | none => .error (.revision .yamlParseVersion)
    | some vault => do
      ensureSupported vault.schemaVersion
      return vault.vaultVersion

/-- Read the logical secret-store id from on-disk YAML. -/
def storeId (stored : Str) : Except VaultFormatError Sync.VaultStoreIdentity :=
  let trimmed := trim stored
  if trimmed.isEmpty then .ok .unassigned
  else do
    let _ ← detect stored
    match fromYaml trimmed with
    | none => .error (.revision .yamlParseStoreId)
    | some vault => do
      ensureSupported vault.schemaVersion
      match vault.storeId with
      | .assigned id =>
        let id ← (StoreId.parse id).mapError fun cause => .revision (.validation cause)
        return .assigned id.asStr
      | .unassigned => return .unassigned

/-- Read grouped architecture metadata from on-disk YAML. -/
def architecture (stored : Str) : Except VaultFormatError VaultArchitecture :=
  let trimmed := trim stored
  if trimmed.isEmpty then .ok .default
  else do
    let _ ← detect stored
    match fromYaml trimmed with
    | none => .error .yamlParseArchitecture
    | some vault => do
      ensureSupported vault.schemaVersion
      vault.architecture.validate.mapError .architecture
      return vault.architecture

/-- Deserialize records from YAML. -/
def deserializeYaml [JsonText] (stored : Str) :
    Except VaultFormatError (List StoredSecretRecord) :=
  let trimmed := trim stored
  if trimmed.isEmpty then .ok []
  else
    match fromYaml trimmed with
    | none => .error .yamlMissingSections
    | some vault => do
      ensureSupported vault.schemaVersion
      vault.intoStoredRecords

end VaultFormatDocument

namespace VaultRecordSet

omit [VaultYamlText] in
def resolveStoreId : VaultStoreIdentityRef → Except VaultFormatError Sync.VaultStoreIdentity
  | .assigned id =>
    if (trim id).isEmpty then .ok .unassigned
    else do
      let id ← (StoreId.parse (trim id)).mapError fun cause => .revision (.validation cause)
      return .assigned id.asStr
  | .unassigned => .ok .unassigned

def writeYamlWithNameArchitecture [AgeRecipients] [JsonText] (records : List StoredSecretRecord)
    (storeId : VaultStoreIdentityRef) (vaultName : VaultNameRef) (vaultVersion : VaultVersionWrite)
    (architecture : VaultArchitecture) : Except VaultFormatError Str := do
  (architecture.validateRecords records).mapError .architecture
  let vault ← StoredVaultYaml.fromRecords records
  let storeId ← resolveStoreId storeId
  return VaultYamlText.print { vault with
    schemaVersion := Sync.VaultSchemaVersion.current
    vaultVersion := match vaultVersion with
      | .initial => 0
      | .version version => version
    storeId
    name := VaultName.fromRef vaultName
    architecture }

end VaultRecordSet

end

end Nook.Vault
