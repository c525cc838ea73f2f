import Nook.Secrets.IssuerHosts
import Nook.Secrets.SetupKeyBytes

set_option autoImplicit false

namespace Nook.Secrets

open Nook.EventLog Nook.Lib

inductive TotpAlgorithm where
  | sha1
  | sha256
  | sha512
  deriving DecidableEq

namespace TotpAlgorithm

def parse (value : Str) : Option TotpAlgorithm :=
  let name := (trim value).map Char.toUpper
  if name = [] ∨ name = "SHA1".toList then some sha1
  else if name = "SHA256".toList then some sha256
  else if name = "SHA512".toList then some sha512
  else none

def asStr : TotpAlgorithm → Str
  | sha1 => "SHA1".toList
  | sha256 => "SHA256".toList
  | sha512 => "SHA512".toList

end TotpAlgorithm

inductive TotpDigits where
  | six
  | seven
  | eight
  deriving DecidableEq

namespace TotpDigits

def tryFrom (value : Nat) : Option TotpDigits :=
  if value = 6 then some six else if value = 7 then some seven
  else if value = 8 then some eight else none

def display : TotpDigits → Str
  | six => ['6']
  | seven => ['7']
  | eight => ['8']

end TotpDigits

/-- A period in seconds. -/
structure TotpPeriod where
  seconds : Nat
  bounds : 15 ≤ seconds ∧ seconds ≤ 300
  deriving DecidableEq

namespace TotpPeriod

def tryFrom (value : Nat) : Option TotpPeriod :=
  if bounds : 15 ≤ value ∧ value ≤ 300 then some ⟨value, bounds⟩ else none

def display (period : TotpPeriod) : Str := Nat.toDigits 10 period.seconds

end TotpPeriod

structure AuthenticatorSecret where
  issuer : Str
  account : Str
  websiteUrl : Str
  secret : TotpSecret
  algorithm : TotpAlgorithm
  digits : TotpDigits
  period : TotpPeriod
  backupCodes : List Str
  deriving DecidableEq

/-- Trim, drop empties, and dedupe without enforcing enrollment bounds. -/
def BackupCodeInput.softNormalized (codes : List Str) : List Str :=
  codes.foldl (fun normalized code =>
    let trimmed := trim code
    if !trimmed.isEmpty && !normalized.contains trimmed then normalized ++ [trimmed]
    else normalized) []

namespace AuthenticatorSecret

/-- Every authenticator needs a service name; blank text does not count. -/
def requireIssuer (issuer : Str) : Except ValidationError Unit :=
  if (trim issuer).isEmpty then .error .authenticatorIssuerRequired else .ok ()

def validate (item : AuthenticatorSecret) : Except ValidationError Unit := do
  requireIssuer item.issuer
  discard (TotpSecret.parse item.secret.asStr)

def normalize (item : AuthenticatorSecret) : Except ValidationError AuthenticatorSecret := do
  let item := { item with
    issuer := trim item.issuer
    account := trim item.account
    websiteUrl := trim item.websiteUrl
    secret := ← TotpSecret.parse item.secret.asStr
    backupCodes := BackupCodeInput.softNormalized item.backupCodes }
  item.validate
  return item

/-- The host of the issuer, from its own text or from the bundled map. -/
def inferredHost [UrlParser] (request : AuthenticatorWebsiteHostRequest) :
    Except AuthenticatorIssuerHostsError AuthenticatorHostResolution :=
  match request.explicitOrDomainHost with
  | .resolved host => .ok (.resolved host)
  | .unmappedIssuer => do
    let hosts ← AuthenticatorIssuerHosts.requireBundled
    return hosts.resolveWebsiteHost request

/-- Fill the website from issuer host text or the popular-issuer map. -/
def applyInferredWebsiteUrlIfEmpty [UrlParser] (item : AuthenticatorSecret) :
    Except AuthenticatorIssuerHostsError AuthenticatorSecret := do
  if !(trim item.websiteUrl).isEmpty then return item
  match ← inferredHost ⟨[], item.issuer⟩ with
  | .resolved host => return { item with websiteUrl := "https://".toList ++ host.asStr }
  | .unmappedIssuer => return item

/-- Inference only ever fills the website. -/
theorem applyInferredWebsiteUrlIfEmpty_ok [UrlParser] (item : AuthenticatorSecret) :
    ∃ websiteUrl, item.applyInferredWebsiteUrlIfEmpty = .ok { item with websiteUrl } := by
  unfold applyInferredWebsiteUrlIfEmpty
  by_cases filled : (!(trim item.websiteUrl).isEmpty) = true
  · exact ⟨item.websiteUrl, by rw [if_pos filled]; rfl⟩
  · rw [if_neg filled]
    have inferred : ∃ host, inferredHost ⟨[], item.issuer⟩ = .ok host := by
      unfold inferredHost
      split
      · exact ⟨_, rfl⟩
      · obtain ⟨hosts, bundled⟩ := AuthenticatorIssuerHosts.requireBundled_ok
        exact ⟨_, by rw [bundled]; rfl⟩
    obtain ⟨host, found⟩ := inferred
    rw [found]
    cases host with
    | resolved host => exact ⟨"https://".toList ++ host.asStr, rfl⟩
    | unmappedIssuer => exact ⟨item.websiteUrl, rfl⟩

theorem normalize_eq_ok {item normalized : AuthenticatorSecret} :
    item.normalize = .ok normalized ↔
      ∃ secret, TotpSecret.parse item.secret.asStr = .ok secret ∧ trim item.issuer ≠ [] ∧
        normalized = { item with
          issuer := trim item.issuer
          account := trim item.account
          websiteUrl := trim item.websiteUrl
          secret := secret
          backupCodes := BackupCodeInput.softNormalized item.backupCodes } := by
  unfold normalize
  rw [bind_eq_ok]
  constructor
  · rintro ⟨secret, parsed, rest⟩
    obtain ⟨_, valid, same⟩ := bind_eq_ok.mp rest
    cases same
    obtain ⟨_, named, _⟩ := bind_eq_ok.mp valid
    refine ⟨secret, parsed, ?_, rfl⟩
    intro blank
    have again := trim_trim item.issuer
    rw [blank] at again
    simp [requireIssuer, blank, again] at named
  · rintro ⟨secret, parsed, named, rfl⟩
    refine ⟨secret, parsed, ?_⟩
    rw [bind_eq_ok]
    refine ⟨(), ?_, rfl⟩
    unfold validate
    rw [bind_eq_ok]
    refine ⟨(), ?_, ?_⟩
    · simp [requireIssuer, trim_trim, named]
    · rw [TotpSecret.parse_asStr parsed]
      rfl

end AuthenticatorSecret

end Nook.Secrets
