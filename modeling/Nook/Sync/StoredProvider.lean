import Nook.Sync.ObjectKeys
import Nook.Lib.Framing
import Nook.Recovery.Words

set_option autoImplicit false

namespace Nook.Sync

open Nook.Lib Nook.EventLog Nook.Recovery

/-! ### The settings of each provider -/

/-- One credential's text, kept as written and never blank. -/
structure ProviderSecretText where
  expose : Str
  exact : trim expose ≠ []

/-- The repository a GitHub provider uses: its own name, or the default one. -/
inductive StoredGithubRepository where
  | defaultRepository
  | repository (name : Str)

def defaultGithubRepoName : Str := "nook".toList

/-- The repository a row or a draft connects to: its name, or `nook`. -/
def StoredGithubRepository.name : StoredGithubRepository → Str
  | repository name => if trim name ≠ [] then trim name else defaultGithubRepoName
  | defaultRepository => defaultGithubRepoName

def StoredGithubRepository.label (repository : StoredGithubRepository) : Str :=
  if repository.name = defaultGithubRepoName then "GitHub".toList
  else "GitHub · ".toList ++ repository.name

structure GithubProvider where
  repository : StoredGithubRepository
  token : ProviderSecretText

/-- The folder's name as the browser's folder picker reported it. -/
structure LocalFolderName where
  asStr : Str

/-- `Local backup · name`, or `Local backup` for a blank name. -/
def LocalFolderName.label (name : LocalFolderName) : Str :=
  if trim name.asStr = [] then "Local backup".toList
  else "Local backup · ".toList ++ trim name.asStr

/-- The id this browser keeps the folder's handle under: trimmed, and not blank. -/
structure LocalFolderHandleId where
  asStr : Str
  exact : asStr ≠ [] ∧ trim asStr = asStr

structure LocalFolderProvider where
  directoryName : LocalFolderName
  handleId : LocalFolderHandleId

/-- A character of a Drive folder id. -/
def isFolderChar (char : Char) : Bool := char.isAlphanum || char == '-' || char == '_'

/-- A Drive folder id: at most 256 ASCII letters, digits, `-`, and `_`. -/
structure GoogleDriveFolderId where
  asStr : Str
  exact : asStr ≠ [] ∧ asStr.length ≤ 256 ∧ asStr.all isFolderChar = true

inductive ICloudShareRole where
  | owner
  | participant

structure ICloudSharedTarget where
  role : ICloudShareRole
  zoneName : Str
  ownerRecordName : Str
  rootRecordName : Str
  shortGuid : Str

/-- `serde_json` reading a share target. -/
class ICloudTargetText where
  fromStr : Str → Option ICloudSharedTarget

/-- A text that is a target is none with more text after it. -/
def ICloudTargetText.RefusesTrailing [ICloudTargetText] : Prop :=
  ∀ text rest : Str, (fromStr text).isSome = true → fromStr (text ++ ':' :: rest) = none

/-- Whether each field of a target is there. -/
def ICloudSharedTarget.isComplete (target : ICloudSharedTarget) : Bool :=
  [target.zoneName, target.ownerRecordName, target.rootRecordName, target.shortGuid].all
    fun value => trim value ≠ []

def iCloudShareLead : Str := "icloud-share-v1:".toList

/-- Whether a storage id names a complete target. -/
def ICloudSharedTarget.isStorageId [ICloudTargetText] (value : Str) : Bool :=
  iCloudShareLead.isPrefixOf (trim value) &&
    match ICloudTargetText.fromStr ((trim value).drop iCloudShareLead.length) with
    | some target => target.isComplete
    | none => false

/-- The storage id of one `CloudKit` share, kept trimmed. -/
structure ICloudShareTargetId [ICloudTargetText] where
  asStr : Str
  exact : trim asStr = asStr ∧ ICloudSharedTarget.isStorageId asStr = true

/-- The account an OAuth sign-in names. -/
inductive OAuthAccountIdentity where
  | unknown
  | email (address : Str)

structure GoogleDriveAuthorization where
  accessToken : ProviderSecretText
  expiresAt : Str

structure GoogleDriveProvider where
  authorization : GoogleDriveAuthorization
  account : OAuthAccountIdentity
  folderId : GoogleDriveFolderId

structure ICloudProvider [ICloudTargetText] where
  webAuthToken : ProviderSecretText
  account : OAuthAccountIdentity
  shareTarget : ICloudShareTargetId

inductive OAuthFilePreset where
  | googleDrive
  | iCloud

def OAuthFilePreset.providerLabel : OAuthFilePreset → Str
  | googleDrive => "Google Drive".toList
  | iCloud => "iCloud".toList

inductive OAuthFileProvider [ICloudTargetText] where
  | googleDrive (drive : GoogleDriveProvider)
  | iCloud (share : ICloudProvider)

structure S3AccessKey where
  accessKeyId : Str
  secretAccessKey : ProviderSecretText

/-- The connection of an S3 row: its location, the key it signs with and its spare keys. -/
structure S3StoredConnection extends S3Connection where
  endpoint : Str
  region : Str
  bucket : Str
  accessKeyId : Str
  secretAccessKey : ProviderSecretText
  spareKeys : List S3AccessKey

/-- `base` with the prefix below it: `base` or `base/prefix`. -/
def S3KeyPrefix.below : S3KeyPrefix → Str → Str
  | bucketRoot, base => base
  | keyPrefix lead, base => base ++ '/' :: lead.asStr

def S3StoredConnection.label (connection : S3StoredConnection) : Str :=
  "S3 · ".toList ++ connection.keyPrefix.below connection.bucket

/-- The location's identity, `endpoint/bucket[/prefix]`. -/
def S3StoredConnection.locationIdentity (connection : S3StoredConnection) : Str :=
  connection.endpoint ++ '/' :: connection.keyPrefix.below connection.bucket

inductive ProviderKind where
  | localStore
  | localFolder
  | github
  | oauthFile (preset : OAuthFilePreset)
  | s3

abbrev ProviderTargetKey := Str

namespace OAuthFileProvider

variable [ICloudTargetText]

def preset : OAuthFileProvider → OAuthFilePreset
  | googleDrive _ => .googleDrive
  | iCloud _ => .iCloud

def account : OAuthFileProvider → OAuthAccountIdentity
  | googleDrive drive => drive.account
  | iCloud share => share.account

/-- The token this browser's sign-in holds. -/
def token : OAuthFileProvider → ProviderSecretText
  | googleDrive drive => drive.authorization.accessToken
  | iCloud share => share.webAuthToken

/-- The account's email, trimmed, or `fallback` when the sign-in named none. -/
def accountOr (fallback : Str) : OAuthAccountIdentity → Str
  | .email address => if trim address ≠ [] then trim address else fallback
  | .unknown => fallback

/-- One shared target of one account is one provider; a sign-in that named no account is told
apart by its token. -/
def targetKey (provider : OAuthFileProvider) : ProviderTargetKey :=
  let account := accountOr (trim provider.token.expose) provider.account
  match provider with
  | googleDrive drive =>
    "oauth-file:google-drive:shared:".toList ++ drive.folderId.asStr ++ ':' :: account
  | iCloud share => "oauth-file:icloud:".toList ++ share.shareTarget.asStr ++ ':' :: account

/-- The provider with another account. -/
def withAccount (account : OAuthAccountIdentity) : OAuthFileProvider → OAuthFileProvider
  | googleDrive drive => googleDrive { drive with account }
  | iCloud share => iCloud { share with account }

/-- A fresh sign-in merged into a saved one of the same target: the fresh authorization, the
saved account when it is known, and the target the sign-in reached. -/
def mergedInto (fresh saved : OAuthFileProvider) : OAuthFileProvider :=
  fresh.withAccount <|
    match saved.account with
    | .email _ => saved.account
    | .unknown => fresh.account

end OAuthFileProvider

/-- The provider of one stored row. `localStore` is this browser's own store. -/
inductive StoredProvider [ICloudTargetText] where
  | localStore
  | localFolder (folder : LocalFolderProvider)
  | github (saved : GithubProvider)
  | oauthFile (oauth : OAuthFileProvider)
  | s3 (connection : S3StoredConnection)

namespace StoredProvider

variable [ICloudTargetText]

def isLocal : StoredProvider → Bool
  | localStore => true
  | _ => false

/-- The label a new row of this provider takes. -/
def label : StoredProvider → Str
  | localStore => "This device".toList
  | localFolder folder => folder.directoryName.label
  | github saved => saved.repository.label
  | oauthFile oauth => oauth.preset.providerLabel
  | s3 connection => connection.label

/-- The duplicate-detection key: rows with the same key reach the same storage with the same
credential. Repository names compare without case. -/
def targetKey [Casing] : StoredProvider → ProviderTargetKey
  | localStore => "local".toList
  | localFolder folder => "local-folder:".toList ++ folder.handleId.asStr
  | github saved =>
    "github:".toList ++ Casing.toLowercase saved.repository.name ++ ':' ::
      trim saved.token.expose
  | oauthFile oauth => oauth.targetKey
  | s3 connection => "s3:".toList ++ connection.locationIdentity

end StoredProvider

/-! ### The provider being set up -/

inductive LocalFolderDraft where
  | awaitingFolder
  | selected (folder : LocalFolderProvider)

inductive GithubDraftToken where
  | awaitingToken
  | entered (token : ProviderSecretText)

structure GithubDraft where
  repository : StoredGithubRepository
  token : GithubDraftToken

/-- What a Google sign-in gives the setup. -/
structure GoogleDriveAccess where
  authorization : GoogleDriveAuthorization
  account : OAuthAccountIdentity

inductive GoogleDriveSignIn where
  | awaitingSignIn
  | signedIn (access : GoogleDriveAccess)

inductive GoogleDriveFolder where
  | notConnected
  | connected (folderId : GoogleDriveFolderId)

structure GoogleDriveDraft where
  signIn : GoogleDriveSignIn
  folder : GoogleDriveFolder

/-- What a `CloudKit` sign-in gives the setup. -/
structure ICloudAccess where
  webAuthToken : ProviderSecretText
  account : OAuthAccountIdentity

inductive ICloudSignIn where
  | awaitingSignIn
  | signedIn (access : ICloudAccess)

inductive ICloudShare [ICloudTargetText] where
  | unbound
  | shared (target : ICloudShareTargetId)

structure ICloudDraft [ICloudTargetText] where
  signIn : ICloudSignIn
  share : ICloudShare

inductive OAuthFileDraft [ICloudTargetText] where
  | googleDrive (drive : GoogleDriveDraft)
  | iCloud (share : ICloudDraft)

/-- An S3 location without the key that reaches it. -/
structure S3Location extends S3Connection where
  endpoint : Str
  region : Str
  bucket : Str

inductive S3Draft where
  | awaitingConnection
  | awaitingKey (location : S3Location)
  | ready (connection : S3StoredConnection)

inductive ProviderDraft [ICloudTargetText] where
  | localStore
  | localFolder (folder : LocalFolderDraft)
  | github (draft : GithubDraft)
  | oauthFile (oauth : OAuthFileDraft)
  | s3 (connection : S3Draft)

/-- Why a draft cannot become a provider row yet. -/
inductive ProviderDraftGap where
  | localFolder
  | githubToken
  | oauthSignIn
  | sharedTarget
  | s3Connection
  | s3Key

namespace OAuthFileDraft

variable [ICloudTargetText]

def preset : OAuthFileDraft → OAuthFilePreset
  | googleDrive _ => .googleDrive
  | iCloud _ => .iCloud

/-- The provider a signed-in, bound setup becomes. The sign-in is asked for first. -/
def complete : OAuthFileDraft → Except ProviderDraftGap OAuthFileProvider
  | googleDrive ⟨.signedIn access, .connected folderId⟩ =>
    .ok (.googleDrive ⟨access.authorization, access.account, folderId⟩)
  | iCloud ⟨.signedIn access, .shared target⟩ =>
    .ok (.iCloud ⟨access.webAuthToken, access.account, target⟩)
  | googleDrive ⟨.awaitingSignIn, _⟩ => .error .oauthSignIn
  | iCloud ⟨.awaitingSignIn, _⟩ => .error .oauthSignIn
  | googleDrive ⟨.signedIn _, .notConnected⟩ => .error .sharedTarget
  | iCloud ⟨.signedIn _, .unbound⟩ => .error .sharedTarget

/-- A saved OAuth provider as the draft of its complete setup. -/
def ofProvider : OAuthFileProvider → OAuthFileDraft
  | .googleDrive drive =>
    googleDrive ⟨.signedIn ⟨drive.authorization, drive.account⟩, .connected drive.folderId⟩
  | .iCloud share => iCloud ⟨.signedIn ⟨share.webAuthToken, share.account⟩, .shared share.shareTarget⟩

end OAuthFileDraft

namespace ProviderDraft

variable [ICloudTargetText]

def kind : ProviderDraft → ProviderKind
  | localStore => .localStore
  | localFolder _ => .localFolder
  | github _ => .github
  | oauthFile oauth => .oauthFile oauth.preset
  | s3 _ => .s3

/-- The stored provider a complete draft becomes, or what it still lacks. -/
def complete : ProviderDraft → Except ProviderDraftGap StoredProvider
  | localStore => .ok .localStore
  | localFolder (.selected folder) => .ok (.localFolder folder)
  | localFolder .awaitingFolder => .error .localFolder
  | github ⟨repository, .entered token⟩ => .ok (.github ⟨repository, token⟩)
  | github ⟨_, .awaitingToken⟩ => .error .githubToken
  | oauthFile oauth => oauth.complete.map .oauthFile
  | s3 (.ready connection) => .ok (.s3 connection)
  | s3 .awaitingConnection => .error .s3Connection
  | s3 (.awaitingKey _) => .error .s3Key

/-- A saved provider as the draft of its complete setup. -/
def ofProvider : StoredProvider → ProviderDraft
  | .localStore => localStore
  | .localFolder folder => localFolder (.selected folder)
  | .github saved => github ⟨saved.repository, .entered saved.token⟩
  | .oauthFile oauth => oauthFile (.ofProvider oauth)
  | .s3 connection => s3 (.ready connection)

end ProviderDraft
end Nook.Sync
