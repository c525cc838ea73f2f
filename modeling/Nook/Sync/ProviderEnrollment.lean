import Nook.Sync.ProviderListKept
import Nook.Sync.ProviderValues

set_option autoImplicit false

namespace Nook.Sync

open Nook.Lib Nook.EventLog Nook.Vault

section

/-! ### What an invite carries -/

inductive GithubEnrollmentToken where
  | included (pat : ProviderSecretText)
  | joinerProvides

/-- The companion handoff of an OAuth provider: this browser's sign-in and the shared target. -/
inductive OAuthFileEnrollment where
  | googleDrive (accessToken : ProviderSecretText) (expiresAt : Str)
      (account : OAuthAccountIdentity) (folderId : Str)
  | iCloud (webAuthToken : ProviderSecretText) (account : OAuthAccountIdentity) (shareTarget : Str)

/-- The key an S3 invite gives the joiner: one the inviter chose, or none. -/
inductive S3EnrollmentKey where
  | included (key : S3AccessKey)
  | joinerProvides

structure S3EnrollmentConnection where
  location : S3Location
  key : S3EnrollmentKey

inductive PersonalEnrollmentProvider where
  | localStore
  | github (token : GithubEnrollmentToken) (repo : Str)
  | oauthFile (enrollment : OAuthFileEnrollment)
  | s3 (connection : S3EnrollmentConnection)

/-- A credential-free invite: the target and the account the joiner signs in with. -/
inductive SharedEnrollmentProvider where
  | googleDrive (syncProviderType oauthPreset joinerIdentityKind joinerIdentity
      storageTargetId : Str)
  | iCloud (joinerIdentity storageTargetId : Str)

inductive EnrollmentProvider where
  | personal (provider : PersonalEnrollmentProvider)
  | shared (provider : SharedEnrollmentProvider)

/-- Whose key or token a credential-bearing device invite hands the new device. -/
inductive EnrollmentCredentialChoice where
  | inviter
  | savedKey (accessKeyId : Str)
  | joinerProvides

inductive EnrollmentAudience where
  | personal (choice : EnrollmentCredentialChoice)
  | shared (joinerIdentity : Str)

inductive OnboardingType where
  | personalCredentialTransfer
  | sharedProviderGrant

/-! ### Building an invite -/

namespace EnrollmentCredentialChoice

/-- The token a GitHub invite carries for this choice. -/
def githubToken (row : GithubProvider) :
    EnrollmentCredentialChoice → ProviderValueResult GithubEnrollmentToken
  | inviter => do
    let pat ← GithubPat.parse row.token.expose
    return .included (← ProviderSecretText.entered pat)
  | savedKey _ => .error .enrollmentCredentialMismatch
  | joinerProvides => .ok .joinerProvides

/-- The key an S3 invite carries for this choice. -/
def s3Key (row : S3StoredConnection) :
    EnrollmentCredentialChoice → ProviderValueResult S3EnrollmentKey
  | inviter => .ok (.included ⟨row.accessKeyId, row.secretAccessKey⟩)
  | savedKey accessKeyId =>
    match row.spareKeys.find? fun spare => spare.accessKeyId = trim accessKeyId with
    | some spare => .ok (.included spare)
    | none => .error .s3AccessKeyNotSaved
  | joinerProvides => .ok .joinerProvides

/-- Whether the invite reads a secret the row saves. -/
def readsRowSecret : EnrollmentCredentialChoice → Bool
  | inviter | savedKey _ => true
  | joinerProvides => false

end EnrollmentCredentialChoice

def OAuthFilePreset.asStr : OAuthFilePreset → String
  | googleDrive => "google-drive"
  | iCloud => "icloud"

/-- The name logs and the replication error use. -/
def ProviderKind.name : ProviderKind → String
  | localStore => "local"
  | localFolder => "local-folder"
  | github => "github"
  | oauthFile preset => preset.asStr
  | s3 => "s3"

/-- Every provider replicates personal vaults, and only an OAuth one shared vaults. -/
def ProviderKind.validateReplication (kind : ProviderKind) :
    ReplicationType → ProviderValueResult Unit
  | .personal => .ok ()
  | .shared =>
    match kind with
    | oauthFile _ => .ok ()
    | _ => .error (.unsupportedProviderReplication kind.name "shared")

variable [ICloudTargetText]

def StoredProvider.kind : StoredProvider → ProviderKind
  | localStore => .localStore
  | localFolder _ => .localFolder
  | github _ => .github
  | oauthFile oauth => .oauthFile oauth.preset
  | s3 _ => .s3

omit [ICloudTargetText] in
def checkArchitecture (architecture : VaultArchitecture) : ProviderValueResult Unit :=
  architecture.validate.mapError .architecture

/-- Resolve the device-invite handoff from vault policy and the provider kind. -/
def StorageProvider.onboardingType (row : StorageProvider) (architecture : VaultArchitecture) :
    ProviderValueResult OnboardingType := do
  checkArchitecture architecture
  let effective : ReplicationType :=
    match row.provider.kind with
    | .oauthFile _ => .shared
    | _ => architecture.replicationType
  row.provider.kind.validateReplication effective
  return match effective with
    | .personal => .personalCredentialTransfer
    | .shared => .sharedProviderGrant

structure ProviderEnrollmentRequest where
  provider : StorageProvider
  architecture : VaultArchitecture
  audience : EnrollmentAudience

namespace ProviderEnrollmentRequest

/-- Only the same-browser companion handoff of a personal-replication vault may transfer this
browser's OAuth session. -/
def admission (request : ProviderEnrollmentRequest) : ProviderValueResult OnboardingType :=
  match request.audience, request.provider.provider.kind, request.architecture.replicationType with
  | .personal _, .oauthFile _, .personal => do
    checkArchitecture request.architecture
    return .personalCredentialTransfer
  | _, _, _ => request.provider.onboardingType request.architecture

/-- A credential of the row is ciphertext. -/
def isSealed (provider : StoredProvider) : Bool :=
  provider.secrets.any fun secret => ProviderCredentialEncoding.observe secret = .armorMarked

/-- Build only the credential-bearing enrollment. A row whose credential is still sealed at rest
fails closed. -/
def personal (request : ProviderEnrollmentRequest) :
    ProviderValueResult PersonalEnrollmentProvider := do
  request.provider.provider.kind.validateReplication .personal
  match request.audience with
  | .shared _ => .error .enrollmentCredentialMismatch
  | .personal choice =>
    if choice.readsRowSecret && isSealed request.provider.provider then
      .error .providerCredentialSealed
    else
      match request.provider.provider, choice with
      | .localStore, .inviter | .localFolder _, .inviter => .ok .localStore
      | .github saved, choice => do
        let token ← choice.githubToken saved
        return .github token (← GithubRepoName.parse saved.repository.name)
      | .s3 connection, choice => do
        return .s3 ⟨connection.location, ← choice.s3Key connection⟩
      | .oauthFile (.googleDrive drive), .inviter =>
        .ok (.oauthFile (.googleDrive drive.authorization.accessToken
          drive.authorization.expiresAt drive.account drive.folderId.asStr))
      | .oauthFile (.iCloud share), .inviter =>
        .ok (.oauthFile (.iCloud share.webAuthToken share.account share.shareTarget.asStr))
      | .localStore, _ | .localFolder _, _ | .oauthFile _, _ =>
        .error .enrollmentCredentialMismatch

/-- Build only the credential-free shared-provider enrollment. -/
def shared (request : ProviderEnrollmentRequest) :
    ProviderValueResult SharedEnrollmentProvider := do
  request.provider.provider.kind.validateReplication .shared
  match request.provider.provider, request.audience with
  | .oauthFile oauth, .shared joinerIdentity =>
    if trim joinerIdentity = [] then .error .sharedJoinerIdentityRequired
    else
      match oauth with
      | .googleDrive drive =>
        return .googleDrive "oauth-file".toList "google-drive".toList "email".toList
          (trim joinerIdentity) drive.folderId.asStr
      | .iCloud share => return .iCloud (trim joinerIdentity) share.shareTarget.asStr
  | .oauthFile _, .personal _ => .error .sharedJoinerIdentityRequired
  | _, _ => .error .sharedStorageTargetRequired

def build (request : ProviderEnrollmentRequest) : ProviderValueResult EnrollmentProvider := do
  match ← request.admission with
  | .personalCredentialTransfer => return .personal (← request.personal)
  | .sharedProviderGrant => return .shared (← request.shared)

end ProviderEnrollmentRequest

/-! ### The joiner's side -/

variable [UrlText]

namespace ProviderDraft

/-- The draft a decrypted code gives the joiner. A personal code carries the provider complete,
validated again here, or its location with the key left to the joiner; a shared grant names the
target and leaves the sign-in to the joiner's own account. -/
def ofEnrollment : EnrollmentProvider → ProviderValueResult ProviderDraft
  | .personal .localStore => .ok .localStore
  | .personal (.github token repo) =>
    .ok (.github
      ⟨if trim repo = [] then .defaultRepository else .repository (trim repo),
        match token with
        | .included pat => .entered pat
        | .joinerProvides => .awaitingToken⟩)
  | .personal (.oauthFile (.googleDrive accessToken expiresAt account folderId)) => do
    let folderId ← GoogleDriveFolderId.parse folderId
    return .oauthFile (.googleDrive
      ⟨.signedIn ⟨⟨accessToken, expiresAt⟩, account⟩, .connected folderId⟩)
  | .personal (.oauthFile (.iCloud webAuthToken account shareTarget)) => do
    let target ← ICloudShareTargetId.tryFrom shareTarget
    return .oauthFile (.iCloud ⟨.signedIn ⟨webAuthToken, account⟩, .shared target⟩)
  | .personal (.s3 ⟨location, .included key⟩) => do
    return .s3 (.ready (← location.connect key))
  | .personal (.s3 ⟨location, .joinerProvides⟩) => do
    return .s3 (.awaitingKey (← location.tryFrom))
  | .shared (.googleDrive _ _ _ _ storageTargetId) => do
    let folderId ← GoogleDriveFolderId.parse storageTargetId
    return .oauthFile (.googleDrive ⟨.awaitingSignIn, .connected folderId⟩)
  | .shared (.iCloud _ storageTargetId) => do
    let target ← ICloudShareTargetId.tryFrom storageTargetId
    return .oauthFile (.iCloud ⟨.awaitingSignIn, .shared target⟩)

end ProviderDraft

/-! ### Where a provider is and what opens it -/

/-- Where a provider's files are. -/
inductive StorageLocation where
  | thisDevice
  | folder (handleId : LocalFolderHandleId)
  | repository (name : Str)
  | driveFolder (folderId : GoogleDriveFolderId)
  | iCloudShare (target : ICloudShareTargetId)
  | bucket (location : S3Location)

omit [ICloudTargetText] [UrlText] in
/-- What a provider signs in with. -/
inductive ProviderCredential where
  | none
  | githubToken (token : Str)
  | googleDrive (authorization : GoogleDriveAuthorization) (account : OAuthAccountIdentity)
  | iCloud (webAuthToken : ProviderSecretText) (account : OAuthAccountIdentity)
  | s3Key (key : S3AccessKey)

namespace StoredProvider

omit [UrlText] in
def location : StoredProvider → StorageLocation
  | localStore => .thisDevice
  | localFolder folder => .folder folder.handleId
  | github saved => .repository saved.repository.name
  | oauthFile (.googleDrive drive) => .driveFolder drive.folderId
  | oauthFile (.iCloud share) => .iCloudShare share.shareTarget
  | s3 connection => .bucket connection.location

omit [UrlText] in
/-- The provider's own credential, without the spare keys. -/
def credential : StoredProvider → ProviderCredential
  | localStore | localFolder _ => .none
  | github saved => .githubToken saved.token.expose
  | oauthFile (.googleDrive drive) => .googleDrive drive.authorization drive.account
  | oauthFile (.iCloud share) => .iCloud share.webAuthToken share.account
  | s3 connection => .s3Key ⟨connection.accessKeyId, connection.secretAccessKey⟩

/-- The values of a connection are the parsers'. -/
def Validated : StoredProvider → Prop
  | s3 connection => connection.Validated
  | _ => True

end StoredProvider

omit [UrlText] in
/-- The credential a choice names. -/
def EnrollmentCredentialChoice.named :
    EnrollmentCredentialChoice → StoredProvider → Option ProviderCredential
  | inviter, provider => some provider.credential
  | savedKey accessKeyId, .s3 connection =>
    (connection.spareKeys.find? fun spare => spare.accessKeyId = trim accessKeyId).map .s3Key
  | savedKey _, _ | joinerProvides, _ => none

omit [ICloudTargetText] [UrlText] in
/-- A GitHub token is sent without surrounding white space. -/
def ProviderCredential.asSent : ProviderCredential → ProviderCredential
  | githubToken token => githubToken (trim token)
  | other => other

/-! ### What the joiner's provider keeps of the row -/

namespace ProviderEnrollmentRequest

omit [UrlText] in
/-- A credential goes out only in a personal invite. -/
theorem personal_of_build {row : StorageProvider} {architecture : VaultArchitecture}
    {choice : EnrollmentCredentialChoice} {payload : EnrollmentProvider}
    (built : build ⟨row, architecture, .personal choice⟩ = .ok payload) :
    ∃ provider, personal ⟨row, architecture, .personal choice⟩ = .ok provider ∧
      payload = .personal provider := by
  obtain ⟨onboarding, admitted, built⟩ := bind_eq_ok.mp built
  cases onboarding with
  | personalCredentialTransfer =>
    obtain ⟨provider, made, same⟩ := bind_eq_ok.mp built
    exact ⟨provider, made, (Except.ok.inj same).symm⟩
  | sharedProviderGrant =>
    obtain ⟨provider, made, same⟩ := bind_eq_ok.mp built
    obtain ⟨_, _, made⟩ := bind_eq_ok.mp made
    split at made
    · rename_i audience
      cases audience
    · cases made
    · cases made

/-- A provider at the same place, with the credential that was chosen and no other. -/
structure Restores (row : StoredProvider) (choice : EnrollmentCredentialChoice)
    (payload : EnrollmentProvider) : Prop where
  restored : ∃ draft provider credential, ProviderDraft.ofEnrollment payload = .ok draft ∧
    draft.complete = .ok provider ∧ provider.location = row.location ∧
      choice.named row = some credential ∧ provider.credential = credential.asSent ∧
        provider.secrets.length ≤ 1

theorem restores_github {saved : GithubProvider} {choice : EnrollmentCredentialChoice}
    (reads : choice.readsRowSecret = true) {token : GithubEnrollmentToken} {repo : Str}
    (chosen : choice.githubToken saved = .ok token)
    (named : GithubRepoName.parse saved.repository.name = .ok repo) :
    Restores (.github saved) choice (.personal (.github token repo)) := by
  obtain ⟨same, trimmed, nonempty⟩ := GithubRepoName.parse_name named
  cases choice with
  | savedKey => cases chosen
  | joinerProvides => cases reads
  | inviter =>
    obtain ⟨text, parsed, chosen⟩ := bind_eq_ok.mp chosen
    obtain ⟨pat, accepted, chosen⟩ := bind_eq_ok.mp chosen
    cases chosen
    have text : pat.expose = trim saved.token.expose := by
      unfold GithubPat.parse at parsed
      split at parsed
      · cases parsed
      · rw [ProviderSecretText.expose_of_tryFrom (mapError_eq_ok.mp accepted)]
        exact (Except.ok.inj parsed).symm
    refine ⟨_, .github ⟨.repository repo, pat⟩, .githubToken saved.token.expose, rfl, ?_, ?_, rfl,
      ?_, ?_⟩
    · rw [trimmed, if_neg nonempty]
      rfl
    · apply congrArg StorageLocation.repository
      rw [← same]
      show (if trim repo ≠ [] then trim repo else defaultGithubRepoName) = repo
      rw [trimmed, if_pos nonempty]
    · exact congrArg ProviderCredential.githubToken text
    · exact Nat.le_refl 1

theorem restores_s3 (reads : UrlText.ReadsOrigin) {connection : S3StoredConnection}
    (valid : connection.Validated) {choice : EnrollmentCredentialChoice} {key : S3AccessKey}
    (validKey : ∃ raw, S3StoredConnection.parseAccessKeyId raw = .ok key.accessKeyId)
    (named : choice.named (.s3 connection) = some (.s3Key key)) :
    Restores (.s3 connection) choice (.personal (.s3 ⟨connection.location, .included key⟩)) := by
  have connected := S3Location.connect_location reads valid validKey
  refine ⟨.s3 (.ready (connection.withKey key)), .s3 (connection.withKey key), .s3Key key, ?_, rfl,
    rfl, named, rfl, Nat.le_refl 1⟩
  exact bind_eq_ok.mpr ⟨_, connected, rfl⟩

theorem restores_of_personal (reads : UrlText.ReadsOrigin) {row : StorageProvider}
    (valid : row.provider.Validated) {architecture : VaultArchitecture}
    (notFolder : ∀ folder, row.provider ≠ .localFolder folder)
    {choice : EnrollmentCredentialChoice} (chosen : choice.readsRowSecret = true)
    {provider : PersonalEnrollmentProvider}
    (made : personal ⟨row, architecture, .personal choice⟩ = .ok provider) :
    Restores row.provider choice (.personal provider) := by
  obtain ⟨_, _, made⟩ := bind_eq_ok.mp made
  simp only at made
  split at made
  · cases made
  · generalize row.provider = stored at made valid notFolder ⊢
    cases stored with
    | localStore =>
      cases choice with
      | inviter =>
        cases made
        exact ⟨_, _, _, rfl, rfl, rfl, rfl, rfl, Nat.zero_le 1⟩
      | savedKey => cases made
      | joinerProvides => cases made
    | localFolder folder => exact absurd rfl (notFolder folder)
    | github saved =>
      obtain ⟨token, first, made⟩ := bind_eq_ok.mp made
      obtain ⟨repo, second, same⟩ := bind_eq_ok.mp made
      rw [← Except.ok.inj same]
      exact restores_github chosen first second
    | s3 connection =>
      obtain ⟨key, named, same⟩ := bind_eq_ok.mp made
      rw [← Except.ok.inj same]
      cases choice with
      | joinerProvides => cases chosen
      | inviter =>
        rw [← Except.ok.inj named]
        exact restores_s3 reads valid valid.accessKeyId rfl
      | savedKey accessKeyId =>
        unfold EnrollmentCredentialChoice.s3Key at named
        simp only at named
        split at named
        · rename_i spare found
          rw [← Except.ok.inj named]
          apply restores_s3 reads valid (valid.spareKeys spare (List.mem_of_find?_eq_some found))
          exact congrArg (Option.map ProviderCredential.s3Key) found
        · cases named
    | oauthFile oauth =>
      cases choice with
      | savedKey => cases oauth <;> cases made
      | joinerProvides => cases oauth <;> cases made
      | inviter =>
        cases oauth with
        | googleDrive drive =>
          cases made
          refine ⟨.ofProvider (.oauthFile (.googleDrive drive)), _, _, ?_, rfl, rfl, rfl, rfl,
            Nat.le_refl 1⟩
          exact bind_eq_ok.mpr ⟨_, GoogleDriveFolderId.parse_asStr drive.folderId, rfl⟩
        | iCloud share =>
          cases made
          refine ⟨.ofProvider (.oauthFile (.iCloud share)), _, _, ?_, rfl, rfl, rfl, rfl,
            Nat.le_refl 1⟩
          exact bind_eq_ok.mpr ⟨_, ICloudShareTargetId.tryFrom_asStr share.shareTarget, rfl⟩

/-! ### What other secrets cannot change -/

omit [UrlText]

/-- A row with the credentials of another in its places. -/
abbrev OtherSecrets : StorageProvider → StorageProvider → Prop := RowsRelated fun _ _ => True

/-- The credential an invite for this audience names. -/
def namedFor : EnrollmentAudience → StoredProvider → Option ProviderCredential
  | .personal choice, provider => choice.named provider
  | .shared _, _ => none

theorem kind_of_otherSecrets {row other : StorageProvider} (same : OtherSecrets row other) :
    other.provider.kind = row.provider.kind := by
  have providers := same.provider
  generalize row.provider = stored, other.provider = stored' at providers
  cases providers <;> rfl

theorem shared_congr {row other : StorageProvider} (same : OtherSecrets row other)
    (architecture : VaultArchitecture) (audience : EnrollmentAudience) :
    shared ⟨other, architecture, audience⟩ = shared ⟨row, architecture, audience⟩ := by
  unfold shared
  simp only [kind_of_otherSecrets same]
  have providers := same.provider
  generalize row.provider = stored, other.provider = stored' at providers ⊢
  cases providers <;> cases audience <;> rfl

theorem isSealed_eq_false {row : StorageProvider}
    (unsealed : ∀ secret ∈ row.provider.secrets,
      ProviderCredentialEncoding.observe secret = .plaintext) :
    isSealed row.provider = false := by
  unfold isSealed
  rw [List.any_eq_false]
  intro secret held
  simp [unsealed secret held]

theorem personal_congr {row other : StorageProvider} (same : OtherSecrets row other)
    (unsealed : isSealed row.provider = false) (otherUnsealed : isSealed other.provider = false)
    (architecture : VaultArchitecture) {audience : EnrollmentAudience}
    (notOwn : audience ≠ .personal .inviter)
    (named : namedFor audience row.provider = namedFor audience other.provider) :
    personal ⟨other, architecture, audience⟩ = personal ⟨row, architecture, audience⟩ := by
  unfold personal
  simp only [kind_of_otherSecrets same, unsealed, otherUnsealed, Bool.and_false]
  have providers := same.provider
  generalize row.provider = stored, other.provider = stored' at providers named ⊢
  cases audience with
  | shared => rfl
  | personal choice =>
    cases choice with
    | inviter => exact absurd rfl notOwn
    | joinerProvides => cases providers <;> rfl
    | savedKey accessKeyId =>
      cases providers with
      | localStore => rfl
      | localFolder => rfl
      | github => rfl
      | googleDrive => rfl
      | iCloud => rfl
      | s3 connection replaced spares =>
        have found := Option.map_injective (fun _ _ same => ProviderCredential.s3Key.inj same) named
        simp only [EnrollmentCredentialChoice.s3Key, ← found]
        rfl

/-- Secrets that an invite does not name change nothing about it. -/
theorem build_congr {row other : StorageProvider} (same : OtherSecrets row other)
    (unsealed : isSealed row.provider = false) (otherUnsealed : isSealed other.provider = false)
    (architecture : VaultArchitecture) {audience : EnrollmentAudience}
    (notOwn : audience ≠ .personal .inviter)
    (named : namedFor audience row.provider = namedFor audience other.provider) :
    build ⟨other, architecture, audience⟩ = build ⟨row, architecture, audience⟩ := by
  have admitted : admission ⟨other, architecture, audience⟩ =
      admission ⟨row, architecture, audience⟩ := by
    unfold admission StorageProvider.onboardingType
    simp only [kind_of_otherSecrets same]
  unfold build
  rw [admitted, shared_congr same, personal_congr same unsealed otherUnsealed _ notOwn named]

/-- An invite with the inviter's own or a saved key restores the provider at its place with this
key, of which a GitHub token is sent trimmed. Of the secrets it does not name nothing shows in an
invite without the inviter's own key. -/
theorem enrollment_restores_provider [UrlText] (reads : UrlText.ReadsOrigin) (row : StorageProvider)
    (unsealed : ∀ secret ∈ row.provider.secrets,
      ProviderCredentialEncoding.observe secret = .plaintext)
    (valid : row.provider.Validated) (notFolder : ∀ folder, row.provider ≠ .localFolder folder)
    (architecture : VaultArchitecture) :
    (∀ choice payload, choice.readsRowSecret = true →
      build ⟨row, architecture, .personal choice⟩ = .ok payload →
        Restores row.provider choice payload) ∧
    ∀ audience, audience ≠ .personal .inviter → ∀ other, OtherSecrets row other →
      (∀ secret ∈ other.provider.secrets,
        ProviderCredentialEncoding.observe secret = .plaintext) →
      namedFor audience row.provider = namedFor audience other.provider →
        build ⟨other, architecture, audience⟩ = build ⟨row, architecture, audience⟩ := by
  constructor
  · intro choice payload chosen built
    obtain ⟨provider, made, personal⟩ := personal_of_build built
    rw [personal]
    exact restores_of_personal reads valid notFolder chosen made
  · intro audience notOwn other same otherUnsealed named
    exact build_congr same (isSealed_eq_false unsealed) (isSealed_eq_false otherUnsealed)
      architecture notOwn named

end ProviderEnrollmentRequest

end

namespace TestSupport

open ProviderEnrollmentRequest

/-- Every text is the URL of a host of this name, without a port. -/
@[reducible] def hostUrls : UrlText where
  parse raw :=
    match stripPrefix raw "https://".toList with
    | some host =>
      if trim raw = raw ∧ '/' ∉ host then some ⟨raw ++ ['/'], raw, "https".toList, .domain host⟩
      else none
    | none => none

attribute [local instance] noTargets hostUrls

theorem hostUrls_readsOrigin : UrlText.ReadsOrigin := by
  intro raw url parsed bare
  unfold UrlText.parse hostUrls at parsed ⊢
  simp only at parsed ⊢
  split at parsed
  · rename_i host stripped
    split at parsed
    · rename_i plain
      cases parsed
      simp only [stripped, plain, and_self, not_false_eq_true, ↓reduceIte, and_true]
      intro empty
      rw [empty] at stripped
      cases stripped
    · cases parsed
  · cases parsed

/-- A saved bucket with a spare key. -/
def savedBucket : StorageProvider :=
  .neverSynced "s3".toList .unscoped "2026-06-24T00:00:00.000Z".toList
    (.s3 {
      keyPrefix := .bucketRoot
      endpoint := "https://s3.example.com".toList
      region := "us-east-1".toList
      bucket := "nook-dev".toList
      accessKeyId := "device-a".toList
      secretAccessKey := ⟨"secret-a".toList, by decide +kernel⟩
      spareKeys := [⟨"device-b".toList, ⟨"secret-b".toList, by decide +kernel⟩⟩] })

theorem validated_savedBucket : savedBucket.provider.Validated where
  endpoint := ⟨"https://s3.example.com".toList, by decide +kernel⟩
  region := ⟨"us-east-1".toList, by decide +kernel⟩
  bucket := ⟨"nook-dev".toList, by decide +kernel⟩
  accessKeyId := ⟨"device-a".toList, by decide +kernel⟩
  spareKeys := by
    intro spare listed
    rw [List.mem_singleton.mp listed]
    exact ⟨"device-b".toList, by decide +kernel⟩

theorem enrollment_restores_provider_bucket :
    ∃ payload, build ⟨savedBucket, .default, .personal (.savedKey "device-b".toList)⟩ =
        .ok payload ∧
      Restores savedBucket.provider (.savedKey "device-b".toList) payload := by
  have unsealed : ∀ secret ∈ savedBucket.provider.secrets,
      ProviderCredentialEncoding.observe secret = .plaintext := by
    intro secret held
    have all : savedBucket.provider.secrets.all (fun secret =>
        ProviderCredentialEncoding.observe secret = .plaintext) = true := by
      decide +kernel
    exact of_decide_eq_true (List.all_eq_true.mp all secret held)
  refine ⟨_, rfl, ?_⟩
  apply (enrollment_restores_provider hostUrls_readsOrigin savedBucket unsealed
    validated_savedBucket (fun folder same => nomatch same) .default).1
  · rfl
  · rfl

def spacedToken : StorageProvider :=
  .neverSynced "github".toList .unscoped "2026-06-24T00:00:00.000Z".toList
    (.github ⟨.defaultRepository, ⟨" pat".toList, by decide +kernel⟩⟩)

/-- A GitHub token with white space around it is not the one the joiner gets. -/
theorem spaced_token_not_restored : ¬ ∀ (row : StorageProvider) (architecture : VaultArchitecture)
    (payload : EnrollmentProvider) (draft : ProviderDraft) (provider : StoredProvider),
      (∀ secret ∈ row.provider.secrets,
        ProviderCredentialEncoding.observe secret = .plaintext) → row.provider.Validated →
      build ⟨row, architecture, .personal .inviter⟩ = .ok payload →
        ProviderDraft.ofEnrollment payload = .ok draft → draft.complete = .ok provider →
          provider.credential = row.provider.credential := by
  intro exactly
  have unsealed : ∀ secret ∈ spacedToken.provider.secrets,
      ProviderCredentialEncoding.observe secret = .plaintext := by
    intro secret held
    rw [List.mem_singleton.mp held]
    decide +kernel
  have same := exactly spacedToken .default _ _ _ unsealed trivial rfl rfl rfl
  cases same

end TestSupport

end Nook.Sync
