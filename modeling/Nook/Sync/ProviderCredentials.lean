import Nook.Auth.EpochOrder
import Nook.Auth.VaultMetaRows
import Nook.Sync.ProviderRows

set_option autoImplicit false

namespace Nook.Sync

open Nook.Lib Nook.EventLog Nook.Auth

/-! ### The secrets of a provider -/

inductive CredentialError where
  | multiDevice (cause : MultiDeviceError)
  /-- `MultiDeviceError::UnsealedProviderCredential`. -/
  | unsealedProviderCredential
  /-- `ValidationError::ProviderSecretRequired`. -/
  | providerSecretRequired

abbrev CredentialResult (α : Type) := Except CredentialError α

/-- A blank text names no credential. -/
def ProviderSecretText.tryFrom (text : Str) : CredentialResult ProviderSecretText :=
  if exact : trim text ≠ [] then .ok ⟨text, exact⟩ else .error .providerSecretRequired

theorem ProviderSecretText.expose_of_tryFrom {text : Str} {secret : ProviderSecretText}
    (accepted : tryFrom text = .ok secret) : secret.expose = text := by
  unfold tryFrom at accepted
  split at accepted
  · cases accepted
    rfl
  · cases accepted

theorem ProviderSecretText.tryFrom_expose (secret : ProviderSecretText) :
    tryFrom secret.expose = .ok secret := dif_pos secret.exact

/-- What makes another secret of the one in a place of the list. -/
abbrev SecretTransition := Nat → ProviderSecretText → CredentialResult ProviderSecretText

namespace S3StoredConnection

/-- The row's own key's secret, then each spare's. -/
def secrets (connection : S3StoredConnection) : List ProviderSecretText :=
  connection.secretAccessKey :: connection.spareKeys.map S3AccessKey.secretAccessKey

def transitionSpare (transition : SecretTransition) (spare : S3AccessKey × Nat) :
    CredentialResult S3AccessKey := do
  return ⟨spare.1.accessKeyId, ← transition (spare.2 + 1) spare.1.secretAccessKey⟩

def transitionSecrets (connection : S3StoredConnection) (transition : SecretTransition) :
    CredentialResult S3StoredConnection := do
  let secretAccessKey ← transition 0 connection.secretAccessKey
  let spareKeys ← connection.spareKeys.zipIdx.mapM (transitionSpare transition)
  return { connection with secretAccessKey, spareKeys }

end S3StoredConnection

def GithubProvider.transitionSecrets (github : GithubProvider) (transition : SecretTransition) :
    CredentialResult GithubProvider := do
  return { github with token := ← transition 0 github.token }

variable [ICloudTargetText]

def OAuthFileProvider.transitionSecrets (oauth : OAuthFileProvider)
    (transition : SecretTransition) : CredentialResult OAuthFileProvider :=
  match oauth with
  | .googleDrive drive => do
    let accessToken ← transition 0 drive.authorization.accessToken
    return .googleDrive { drive with authorization := { drive.authorization with accessToken } }
  | .iCloud share => do
    let webAuthToken ← transition 0 share.webAuthToken
    return .iCloud { share with webAuthToken }

namespace StoredProvider

/-- Every credential this provider holds. -/
def secrets : StoredProvider → List ProviderSecretText
  | localStore | localFolder _ => []
  | github saved => [saved.token]
  | oauthFile oauth => [oauth.token]
  | s3 connection => connection.secrets

/-- The provider with each credential replaced, in the order of `secrets`. -/
def transitionSecrets (provider : StoredProvider) (transition : SecretTransition) :
    CredentialResult StoredProvider :=
  match provider with
  | localStore => .ok .localStore
  | localFolder folder => .ok (.localFolder folder)
  | github saved => (saved.transitionSecrets transition).map .github
  | oauthFile oauth => (oauth.transitionSecrets transition).map .oauthFile
  | s3 connection => (connection.transitionSecrets transition).map .s3

end StoredProvider

def StorageProvider.transitionSecrets (row : StorageProvider) (transition : SecretTransition) :
    CredentialResult StorageProvider := do
  return { row with provider := ← row.provider.transitionSecrets transition }

/-! ### Sealing and opening -/

/-- A lexical observation of a credential. -/
inductive ProviderCredentialEncoding where
  | armorMarked
  | plaintext
  deriving DecidableEq

omit [ICloudTargetText] in
def ProviderCredentialEncoding.observe (secret : ProviderSecretText) :
    ProviderCredentialEncoding :=
  if containsText secret.expose ageArmorMarker then .armorMarked else .plaintext

/-- A device identity is the installation's app key. -/
inductive CredentialTransition where
  | sealTo (key : DevicePublicKey)
  | openBy (identity : AppKey)

/-- Rejected transitions retain the original snapshot. -/
structure ProviderCredentialRejection where
  snapshot : AuthProvidersSnapshot
  cause : CredentialError

variable [Age]

omit [ICloudTargetText] in
/-- Sealing armors plaintext and keeps armor, which is ciphertext already. Opening opens armor
and refuses plaintext. -/
def CredentialTransition.apply (transition : CredentialTransition) (draw : Str)
    (secret : ProviderSecretText) : CredentialResult ProviderSecretText :=
  match transition, ProviderCredentialEncoding.observe secret with
  | .sealTo key, .plaintext => do
    let sealed ← (Age.sealBytes key secret.expose draw).mapError .multiDevice
    ProviderSecretText.tryFrom sealed.asStr
  | .sealTo _, .armorMarked => .ok secret
  | .openBy identity, .armorMarked => do
    let armored ← (AgeArmoredCiphertext.parse secret.expose).mapError .multiDevice
    let opened ← (Age.openIdentityBytes armored identity.identity).mapError .multiDevice
    ProviderSecretText.tryFrom opened
  | .openBy _, .plaintext => .error .unsealedProviderCredential

namespace AuthProvidersSnapshot

/-- The randomness of the seals of one snapshot: of each row, of each secret in it. -/
abbrev SealDraws := Nat → Entropy

/-- Every row's credentials transition, or none do. -/
def transitionCredentials (snapshot : AuthProvidersSnapshot) (transition : CredentialTransition)
    (draws : SealDraws) : Except ProviderCredentialRejection AuthProvidersSnapshot :=
  match snapshot.providers.zipIdx.mapM fun row =>
      row.1.transitionSecrets fun place => transition.apply (draws row.2 place) with
  | .ok providers => .ok { snapshot with providers }
  | .error cause => .error ⟨snapshot, cause⟩

def sealCredentialsFor (snapshot : AuthProvidersSnapshot) (key : DevicePublicKey)
    (draws : SealDraws) : Except ProviderCredentialRejection AuthProvidersSnapshot :=
  snapshot.transitionCredentials (.sealTo key) draws

/-- Opening draws no randomness. -/
def openCredentials (snapshot : AuthProvidersSnapshot) (identity : AppKey) :
    Except ProviderCredentialRejection AuthProvidersSnapshot :=
  snapshot.transitionCredentials (.openBy identity) fun _ _ => []

end AuthProvidersSnapshot

/-! ### What a transition changes -/

omit [Age]

/-- The same provider with each secret replaced by a related one. -/
inductive SecretsRelated (related : ProviderSecretText → ProviderSecretText → Prop) :
    StoredProvider → StoredProvider → Prop where
  | localStore : SecretsRelated related .localStore .localStore
  | localFolder (folder : LocalFolderProvider) :
      SecretsRelated related (.localFolder folder) (.localFolder folder)
  | github (saved : GithubProvider) {token : ProviderSecretText}
      (replaced : related saved.token token) :
      SecretsRelated related (.github saved) (.github { saved with token })
  | googleDrive (drive : GoogleDriveProvider) {accessToken : ProviderSecretText}
      (replaced : related drive.authorization.accessToken accessToken) :
      SecretsRelated related (.oauthFile (.googleDrive drive)) (.oauthFile (.googleDrive
        { drive with authorization := { drive.authorization with accessToken } }))
  | iCloud (share : ICloudProvider) {webAuthToken : ProviderSecretText}
      (replaced : related share.webAuthToken webAuthToken) :
      SecretsRelated related (.oauthFile (.iCloud share))
        (.oauthFile (.iCloud { share with webAuthToken }))
  | s3 (connection : S3StoredConnection) {secretAccessKey : ProviderSecretText}
      {spareKeys : List S3AccessKey} (replaced : related connection.secretAccessKey secretAccessKey)
      (spares : List.Forall₂ (fun before after : S3AccessKey =>
        before.accessKeyId = after.accessKeyId ∧
          related before.secretAccessKey after.secretAccessKey) connection.spareKeys spareKeys) :
      SecretsRelated related (.s3 connection)
        (.s3 { connection with secretAccessKey, spareKeys })

variable {related : ProviderSecretText → ProviderSecretText → Prop}

/-- Each secret is replaced by a related one, and there are no others. -/
theorem SecretsRelated.secrets {before after : StoredProvider}
    (same : SecretsRelated related before after) :
    List.Forall₂ related before.secrets after.secrets := by
  cases same with
  | localStore => exact .nil
  | localFolder => exact .nil
  | github saved replaced => exact .cons replaced .nil
  | googleDrive drive replaced => exact .cons replaced .nil
  | iCloud share replaced => exact .cons replaced .nil
  | s3 connection replaced spares =>
    refine .cons replaced ?_
    rw [List.forall₂_map_left_iff, List.forall₂_map_right_iff]
    exact spares.imp fun _ _ pair => pair.2

namespace StoredProvider

theorem transitionSecrets_related {before after : StoredProvider} {transition : SecretTransition}
    (steps : ∀ secret ∈ before.secrets, ∀ place replaced,
      transition place secret = .ok replaced → related secret replaced)
    (accepted : before.transitionSecrets transition = .ok after) :
    SecretsRelated related before after := by
  cases before with
  | localStore =>
    cases accepted
    exact .localStore
  | localFolder folder =>
    cases accepted
    exact .localFolder folder
  | github saved =>
    obtain ⟨github, moved, named⟩ := map_eq_ok.mp accepted
    obtain ⟨token, replaced, same⟩ := bind_eq_ok.mp moved
    rw [← named, ← Except.ok.inj same]
    exact .github saved (steps _ (List.mem_singleton_self _) 0 token replaced)
  | oauthFile oauth =>
    obtain ⟨oauth', moved, named⟩ := map_eq_ok.mp accepted
    cases oauth with
    | googleDrive drive =>
      obtain ⟨accessToken, replaced, same⟩ := bind_eq_ok.mp moved
      rw [← named, ← Except.ok.inj same]
      exact .googleDrive drive (steps _ (List.mem_singleton_self _) 0 accessToken replaced)
    | iCloud share =>
      obtain ⟨webAuthToken, replaced, same⟩ := bind_eq_ok.mp moved
      rw [← named, ← Except.ok.inj same]
      exact .iCloud share (steps _ (List.mem_singleton_self _) 0 webAuthToken replaced)
  | s3 connection =>
    obtain ⟨connection', moved, named⟩ := map_eq_ok.mp accepted
    obtain ⟨secretAccessKey, replaced, moved⟩ := bind_eq_ok.mp moved
    obtain ⟨spareKeys, collected, same⟩ := bind_eq_ok.mp moved
    have listed : ∀ spare ∈ connection.spareKeys,
        spare.secretAccessKey ∈ (StoredProvider.s3 connection).secrets := by
      intro spare member
      exact List.mem_cons_of_mem _ (List.mem_map_of_mem member)
    rw [← named, ← Except.ok.inj same]
    apply SecretsRelated.s3 connection (steps _ List.mem_cons_self 0 secretAccessKey replaced)
    apply forall₂_of_zipIdx _ 0 collected
    intro spare member place spare' stepped
    obtain ⟨secret, stepped, same⟩ := bind_eq_ok.mp stepped
    rw [← Except.ok.inj same]
    exact ⟨rfl, steps _ (listed spare member) (place + 1) secret stepped⟩

/-- A transition that turns every secret back turns the provider back. -/
theorem transitionSecrets_back {before after : StoredProvider} (transition : SecretTransition)
    (same : SecretsRelated related before after)
    (steps : ∀ secret replaced place, related secret replaced →
      transition place replaced = .ok secret) :
    after.transitionSecrets transition = .ok before := by
  cases same with
  | localStore => rfl
  | localFolder => rfl
  | github saved replaced =>
    exact map_eq_ok.mpr ⟨saved, bind_eq_ok.mpr ⟨saved.token, steps _ _ 0 replaced, rfl⟩, rfl⟩
  | googleDrive drive replaced =>
    exact map_eq_ok.mpr ⟨.googleDrive drive, bind_eq_ok.mpr ⟨_, steps _ _ 0 replaced, rfl⟩, rfl⟩
  | iCloud share replaced =>
    exact map_eq_ok.mpr ⟨.iCloud share, bind_eq_ok.mpr ⟨_, steps _ _ 0 replaced, rfl⟩, rfl⟩
  | s3 connection replaced spares =>
    refine map_eq_ok.mpr ⟨connection, bind_eq_ok.mpr ⟨_, steps _ _ 0 replaced, ?_⟩, rfl⟩
    refine bind_eq_ok.mpr ⟨connection.spareKeys, ?_, rfl⟩
    refine zipIdx_of_forall₂ spares ?_ 0
    rintro spare spare' place ⟨named, moved⟩
    refine bind_eq_ok.mpr ⟨spare.secretAccessKey, steps _ _ (place + 1) moved, ?_⟩
    rw [← named]
    rfl

end StoredProvider

/-- The same row with each secret replaced by a related one. -/
structure RowsRelated (related : ProviderSecretText → ProviderSecretText → Prop)
    (before after : StorageProvider) : Prop where
  rest : after = { before with provider := after.provider }
  provider : SecretsRelated related before.provider after.provider

theorem RowsRelated.isLocal {before after : StorageProvider}
    (same : RowsRelated related before after) : after.isLocal = before.isLocal := by
  unfold StorageProvider.isLocal
  have providers := same.provider
  generalize before.provider = provider, after.provider = provider' at providers
  cases providers <;> rfl

end Nook.Sync
