import Nook.EventLog.Canonical
import Nook.Sync.ProviderCredentials
import Nook.Vault.VaultArchitecture

set_option autoImplicit false

namespace Nook.Sync

open Nook.Lib Nook.EventLog Nook.Vault

/-! ### Values of providers -/

/-- What the values of a provider and its invites are refused for. -/
inductive ProviderValueError where
  | githubPatEmpty
  | githubRepoLength
  | githubRepoInvalid
  | githubRepoChars
  | providerSecretRequired
  | sharedStorageTargetRequired
  | sharedStorageTargetInvalid
  | s3EndpointRequired
  | s3EndpointInvalid
  | s3EndpointInsecure
  | s3RegionRequired
  | s3RegionInvalid
  | s3BucketRequired
  | s3BucketInvalid
  | s3AccessKeyIdRequired
  | s3AccessKeyIdInvalid
  | s3AccessKeyNotSaved
  | providerCredentialSealed
  | enrollmentCredentialMismatch
  | sharedJoinerIdentityRequired
  | unsupportedProviderReplication (provider replicationType : String)
  | architecture (cause : ArchitectureError)
  deriving DecidableEq

abbrev ProviderValueResult (α : Type) := Except ProviderValueError α

def ProviderSecretText.entered (text : Str) : ProviderValueResult ProviderSecretText :=
  (tryFrom text).mapError fun _ => .providerSecretRequired

def GithubPat.parse (raw : Str) : ProviderValueResult Str :=
  if trim raw = [] then .error .githubPatEmpty else .ok (trim raw)

def isRepoChar (char : Char) : Bool :=
  char.isAlphanum || char == '.' || char == '-' || char == '_'

def GithubRepoName.parse (raw : Str) : ProviderValueResult Str :=
  let repo := if trim raw = [] then defaultGithubRepoName else trim raw
  if 100 < utf8Len repo then .error .githubRepoLength
  else if repo = ['.'] ∨ repo = ['.', '.'] then .error .githubRepoInvalid
  else if ¬ repo.all isRepoChar then .error .githubRepoChars
  else .ok repo

def GoogleDriveFolderId.parse (raw : Str) : ProviderValueResult GoogleDriveFolderId :=
  if nonempty : trim raw = [] then .error .sharedStorageTargetRequired
  else if valid : (trim raw).length ≤ 256 ∧ (trim raw).all isFolderChar = true then
    .ok ⟨trim raw, nonempty, valid⟩
  else .error .sharedStorageTargetInvalid

def ICloudShareTargetId.tryFrom [ICloudTargetText] (id : Str) :
    ProviderValueResult ICloudShareTargetId :=
  if valid : ICloudSharedTarget.isStorageId (trim id) = true then .ok ⟨trim id, trim_trim id, valid⟩
  else .error .sharedStorageTargetRequired

/-- Parsing what a provider holds gives it back. -/
theorem ICloudShareTargetId.tryFrom_asStr [ICloudTargetText] (target : ICloudShareTargetId) :
    tryFrom target.asStr = .ok target := by
  obtain ⟨text, trimmed, valid⟩ := target
  unfold tryFrom
  simp only [trimmed, valid, ↓reduceDIte]

theorem isWhitespace_of_isFolderChar {char : Char} (plain : isFolderChar char = true) :
    isWhitespace char = false := by
  by_contra blank
  rw [Bool.not_eq_false] at blank
  unfold isFolderChar Char.isAlphanum Char.isAlpha Char.isUpper Char.isLower Char.isDigit at plain
  unfold isWhitespace at blank
  simp only [Bool.or_eq_true, Bool.and_eq_true, decide_eq_true_eq, beq_iff_eq] at plain blank
  have code : char.val.toNat = char.toNat := rfl
  rcases plain with (((⟨low, high⟩ | ⟨low, high⟩) | ⟨low, high⟩) | same) | same
  · have low : 65 ≤ char.toNat := UInt32.le_iff_toNat_le.mp low
    have high : char.toNat ≤ 90 := UInt32.le_iff_toNat_le.mp high
    omega
  · have low : 97 ≤ char.toNat := UInt32.le_iff_toNat_le.mp low
    have high : char.toNat ≤ 122 := UInt32.le_iff_toNat_le.mp high
    omega
  · have low : 48 ≤ char.toNat := UInt32.le_iff_toNat_le.mp low
    have high : char.toNat ≤ 57 := UInt32.le_iff_toNat_le.mp high
    omega
  · rw [same] at blank
    have code : '-'.toNat = 45 := rfl
    omega
  · rw [same] at blank
    have code : '_'.toNat = 95 := rfl
    omega

theorem trim_of_solid {text : Str} (solid : ∀ char ∈ text, isWhitespace char = false) :
    trim text = text := by
  apply (trim_eq_self_iff fun char first => solid char (List.mem_of_mem_head? first)).mpr
  exact fun char last => solid char (List.mem_of_mem_getLast? last)

theorem GoogleDriveFolderId.parse_asStr (folderId : GoogleDriveFolderId) :
    parse folderId.asStr = .ok folderId := by
  obtain ⟨text, nonempty, short, plain⟩ := folderId
  have trimmed : trim text = text := by
    apply trim_of_solid
    exact fun char member =>
      isWhitespace_of_isFolderChar (List.all_eq_true.mp plain char member)
  unfold parse
  simp only [trimmed, nonempty, short, plain, and_self, ↓reduceDIte]

/-- A repository's name that is accepted is kept. -/
theorem GithubRepoName.parse_name {repository : StoredGithubRepository} {name : Str}
    (accepted : parse repository.name = .ok name) :
    name = repository.name ∧ trim name = name ∧ name ≠ [] := by
  have kept : trim repository.name = repository.name ∧ repository.name ≠ [] := by
    have default : trim defaultGithubRepoName = defaultGithubRepoName ∧
        defaultGithubRepoName ≠ [] := by
      decide
    unfold StoredGithubRepository.name
    split
    · split
      · rename_i nonempty
        exact ⟨trim_trim _, nonempty⟩
      · exact default
    · exact default
  unfold parse at accepted
  simp only [kept.1, kept.2, ↓reduceIte] at accepted
  split_ifs at accepted
  cases accepted
  exact ⟨rfl, kept⟩

/-! ### S3 connections -/

inductive UrlHost where
  | domain (name : Str)
  | ipv4 (octets : List Nat)
  | ipv6 (segments : List Nat)
  | absent

/-- What the endpoint's check reads of a URL. -/
structure ParsedUrl where
  asStr : Str
  origin : Str
  scheme : Str
  host : UrlHost

/-- The `url` crate reading a text. -/
class UrlText where
  parse : Str → Option ParsedUrl

/-- An origin is a text that reads as the URL of this origin alone. -/
def UrlText.ReadsOrigin [UrlText] : Prop := ∀ raw url, parse raw = some url →
  url.asStr = url.origin ++ ['/'] →
    url.origin ≠ [] ∧ trim url.origin = url.origin ∧ parse url.origin = some url

def UrlHost.isLoopback : UrlHost → Bool
  | domain name => name == "localhost".toList
  | ipv4 octets => octets == [127, 0, 0, 1]
  | ipv6 segments => segments == [0, 0, 0, 0, 0, 0, 0, 1]
  | absent => false

namespace S3StoredConnection

/-- A required name with no whitespace or control character inside. -/
def parseName (raw : Str) (required invalid : ProviderValueError) : ProviderValueResult Str :=
  if trim raw = [] then .error required
  else if (trim raw).any fun char => isWhitespace char || isControl char then .error invalid
  else .ok (trim raw)

def parseRegion (raw : Str) : ProviderValueResult Str :=
  parseName raw .s3RegionRequired .s3RegionInvalid

/-- A bucket name never holds `/`, which would make it part of a key. -/
def parseBucket (raw : Str) : ProviderValueResult Str := do
  let bucket ← parseName raw .s3BucketRequired .s3BucketInvalid
  if '/' ∈ bucket then .error .s3BucketInvalid else .ok bucket

def parseAccessKeyId (raw : Str) : ProviderValueResult Str :=
  parseName raw .s3AccessKeyIdRequired .s3AccessKeyIdInvalid

/-- `https://` to any host, or plain `http://` only to this device, with nothing beyond the
origin. -/
def parseEndpoint [UrlText] (raw : Str) : ProviderValueResult Str :=
  if trim raw = [] then .error .s3EndpointRequired
  else
    match UrlText.parse (trim raw) with
    | none => .error .s3EndpointInvalid
    | some url =>
      if url.asStr ≠ url.origin ++ ['/'] then .error .s3EndpointInvalid
      else if url.scheme = "https".toList then .ok url.origin
      else if url.scheme = "http".toList then
        if url.host.isLoopback then .ok url.origin else .error .s3EndpointInsecure
      else .error .s3EndpointInvalid

theorem parseName_of_parseName {raw name : Str} {required invalid : ProviderValueError}
    (accepted : parseName raw required invalid = .ok name) :
    parseName name required invalid = .ok name := by
  unfold parseName at accepted ⊢
  split_ifs at accepted with nonempty solid
  cases accepted
  rw [trim_trim, if_neg nonempty, if_neg solid]

theorem parseBucket_of_parseBucket {raw bucket : Str} (accepted : parseBucket raw = .ok bucket) :
    parseBucket bucket = .ok bucket := by
  obtain ⟨name, named, accepted⟩ := bind_eq_ok.mp accepted
  split at accepted
  · cases accepted
  · rename_i whole
    cases accepted
    exact bind_eq_ok.mpr ⟨bucket, parseName_of_parseName named, if_neg whole⟩

theorem parseEndpoint_of_parseEndpoint [UrlText] (reads : UrlText.ReadsOrigin) {raw endpoint : Str}
    (accepted : parseEndpoint raw = .ok endpoint) : parseEndpoint endpoint = .ok endpoint := by
  unfold parseEndpoint at accepted
  split at accepted
  · cases accepted
  · split at accepted
    · cases accepted
    · rename_i url parsed
      split at accepted
      · cases accepted
      · rename_i bare
        have bare := not_not.mp bare
        obtain ⟨nonempty, trimmed, again⟩ := reads _ url parsed bare
        have same : url.origin = endpoint := by
          split_ifs at accepted <;> exact Except.ok.inj accepted
        rw [← same] at accepted ⊢
        unfold parseEndpoint
        simp only [trimmed, nonempty, ↓reduceIte, again, bare, ne_eq, not_true_eq_false]
        exact accepted

/-- A connection is only built of validated values. -/
structure Validated [UrlText] (connection : S3StoredConnection) : Prop where
  endpoint : ∃ raw, parseEndpoint raw = .ok connection.endpoint
  region : ∃ raw, parseRegion raw = .ok connection.region
  bucket : ∃ raw, parseBucket raw = .ok connection.bucket
  accessKeyId : ∃ raw, parseAccessKeyId raw = .ok connection.accessKeyId
  spareKeys : ∀ spare ∈ connection.spareKeys, ∃ raw, parseAccessKeyId raw = .ok spare.accessKeyId

/-- Where the row's objects live, without its key. -/
def location (connection : S3StoredConnection) : S3Location where
  keyPrefix := connection.keyPrefix
  endpoint := connection.endpoint
  region := connection.region
  bucket := connection.bucket

end S3StoredConnection

open S3StoredConnection

/-- A location's values, validated again as a stored one's are. -/
def S3Location.tryFrom [UrlText] (location : S3Location) : ProviderValueResult S3Location := do
  return {
    keyPrefix := location.keyPrefix
    endpoint := ← parseEndpoint location.endpoint
    region := ← parseRegion location.region
    bucket := ← parseBucket location.bucket }

/-- The connection of a location and the key that reaches it, validated again. -/
def S3Location.connect [UrlText] (location : S3Location) (key : S3AccessKey) :
    ProviderValueResult S3StoredConnection := do
  let valid ← location.tryFrom
  return {
    keyPrefix := valid.keyPrefix
    endpoint := valid.endpoint
    region := valid.region
    bucket := valid.bucket
    accessKeyId := ← parseAccessKeyId key.accessKeyId
    secretAccessKey := key.secretAccessKey
    spareKeys := [] }

/-- The same location with one key and no spare. -/
def S3StoredConnection.withKey (connection : S3StoredConnection) (key : S3AccessKey) :
    S3StoredConnection :=
  { connection with
    accessKeyId := key.accessKeyId
    secretAccessKey := key.secretAccessKey
    spareKeys := [] }

theorem S3Location.connect_location [UrlText] (reads : UrlText.ReadsOrigin)
    {connection : S3StoredConnection} (valid : connection.Validated) {key : S3AccessKey}
    (named : ∃ raw, parseAccessKeyId raw = .ok key.accessKeyId) :
    connection.location.connect key = .ok (connection.withKey key) := by
  obtain ⟨raw, endpoint⟩ := valid.endpoint
  obtain ⟨raw, region⟩ := valid.region
  obtain ⟨raw, bucket⟩ := valid.bucket
  obtain ⟨raw, accessKeyId⟩ := named
  have endpoint := parseEndpoint_of_parseEndpoint reads endpoint
  have region : parseRegion connection.region = .ok connection.region :=
    parseName_of_parseName region
  have bucket := parseBucket_of_parseBucket bucket
  have accessKeyId : parseAccessKeyId key.accessKeyId = .ok key.accessKeyId :=
    parseName_of_parseName accessKeyId
  unfold S3Location.connect S3Location.tryFrom
  simp only [S3StoredConnection.location, endpoint, region, bucket, accessKeyId]
  rfl

end Nook.Sync
