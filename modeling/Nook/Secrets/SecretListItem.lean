import Nook.Recovery.Words
import Nook.Secrets.IssuerHosts
import Nook.Secrets.SecretFingerprint

set_option autoImplicit false

namespace Nook.Secrets

open Nook.EventLog Nook.Recovery

/-! ### Personal data rows -/

structure PersonListItem where
  fullName : Str
  email : Str
  deriving DecidableEq

structure AddressListItem where
  label : Str
  line1 : Str
  city : Str
  country : Str
  deriving DecidableEq

structure IdentityDocumentListItem where
  kind : IdentityDocumentKind
  nameAsPrinted : Str
  issuer : Str
  last4 : Str
  expiryDate : Str
  deriving DecidableEq

structure InternationalAccountListItem where
  bankName : Str
  accountHolder : Str
  last4 : Str
  swiftBic : Str
  deriving DecidableEq

structure DomesticAccountListItem where
  bankName : Str
  accountHolder : Str
  last4 : Str
  routingNumber : Str
  deriving DecidableEq

namespace SensitiveNumber

def MASK : Str := "••••".toList

def maskedTail (last4 : Str) : Str :=
  if last4.isEmpty then MASK else MASK ++ " ".toList ++ last4

end SensitiveNumber

/-- Trimmed, non-blank text parts joined by one separator. -/
def presentParts (parts : List Str) (separator : Str) : Str :=
  separator.intercalate ((parts.map trim).filter fun part => !part.isEmpty)

/-- First non-blank candidate, trimmed; empty when every candidate is blank. -/
def firstPresent (candidates : List Str) : Str :=
  ((candidates.map trim).find? fun candidate => !candidate.isEmpty).getD []

/-- The group key of a titled secret. -/
def SecretTitle.groupKey (title unnamed : Str) : Str :=
  if (trim title).isEmpty then unnamed else trim title

def PersonSecret.listItem (person : PersonSecret) : PersonListItem :=
  ⟨presentParts [person.givenName, person.middleName, person.familyName] " ".toList,
    person.email⟩

def AddressSecret.listItem (address : AddressSecret) : AddressListItem :=
  ⟨address.label, address.addressLine1, address.city, address.country⟩

def IdentityDocumentSecret.listItem (document : IdentityDocumentSecret) :
    IdentityDocumentListItem :=
  ⟨document.kind, document.nameAsPrinted, document.issuer,
    SensitiveNumber.last4 document.number, document.expiryDate⟩

def InternationalAccountSecret.listItem (account : InternationalAccountSecret) :
    InternationalAccountListItem :=
  ⟨account.bankName, account.accountHolder, SensitiveNumber.last4 account.iban,
    account.swiftBic⟩

def DomesticAccountSecret.listItem (account : DomesticAccountSecret) : DomesticAccountListItem :=
  ⟨account.bankName, account.accountHolder, SensitiveNumber.last4 account.accountNumber,
    account.routingNumber⟩

namespace PersonListItem

def summary (item : PersonListItem) : Str := firstPresent [item.email, item.fullName]

def groupKey (item : PersonListItem) : Str :=
  SecretTitle.groupKey item.fullName "Unnamed Person".toList

def searchFields (item : PersonListItem) : List Str := [item.fullName, item.email]

end PersonListItem

namespace AddressListItem

def displayTitle (item : AddressListItem) : Str := firstPresent [item.label, item.line1]

def summary (item : AddressListItem) : Str :=
  firstPresent [presentParts [item.city, item.country] ", ".toList, item.line1]

def groupKey (item : AddressListItem) : Str :=
  SecretTitle.groupKey item.displayTitle "Unnamed Address".toList

def searchFields (item : AddressListItem) : List Str :=
  [item.label, item.line1, item.city, item.country]

end AddressListItem

namespace IdentityDocumentListItem

/-- A membership is known by its organization; other documents by the holder's printed name. -/
def titleCandidates (item : IdentityDocumentListItem) : List Str :=
  match item.kind with
  | .membership => [item.issuer, item.nameAsPrinted]
  | .passport | .nationalId | .driversLicense | .socialSecurity | .taxId =>
    [item.nameAsPrinted, item.issuer]

def summary (item : IdentityDocumentListItem) : Str := SensitiveNumber.maskedTail item.last4

def groupKey (item : IdentityDocumentListItem) : Str :=
  SecretTitle.groupKey (firstPresent item.titleCandidates) "Unnamed Document".toList

def searchFields (item : IdentityDocumentListItem) : List Str :=
  [item.kind.asStr, item.nameAsPrinted, item.issuer, item.last4, item.expiryDate]

end IdentityDocumentListItem

/-- Shared row text for both bank account kinds. -/
structure BankAccountRow where
  bankName : Str
  accountHolder : Str
  last4 : Str
  bankCode : Str

namespace BankAccountRow

def summary (row : BankAccountRow) : Str :=
  let masked := SensitiveNumber.maskedTail row.last4
  let code := trim row.bankCode
  if code.isEmpty then masked else masked ++ " · ".toList ++ code

def groupKey (row : BankAccountRow) : Str :=
  SecretTitle.groupKey row.bankName "Unnamed Bank Account".toList

end BankAccountRow

namespace InternationalAccountListItem

def row (item : InternationalAccountListItem) : BankAccountRow :=
  ⟨item.bankName, item.accountHolder, item.last4, item.swiftBic⟩

def searchFields (item : InternationalAccountListItem) : List Str :=
  [item.bankName, item.accountHolder, item.last4, item.swiftBic]

end InternationalAccountListItem

namespace DomesticAccountListItem

def row (item : DomesticAccountListItem) : BankAccountRow :=
  ⟨item.bankName, item.accountHolder, item.last4, item.routingNumber⟩

def searchFields (item : DomesticAccountListItem) : List Str :=
  [item.bankName, item.accountHolder, item.last4, item.routingNumber]

end DomesticAccountListItem

/-! ### List items -/

inductive SecretListItemData where
  | login (websiteUrl username : Str)
  | apiKey (websiteUrl expiresAt : Str)
  | seedPhrase (name : Str) (wordCount : Nat)
  | secureNote (title : Str)
  | passkey (rpId rpName userName userDisplayName : Str)
  | authenticator (issuer account websiteUrl : Str) (backupCodeCount : Nat)
  | creditCard (title cardholderName last4 expirationMonth expirationYear : Str)
  | fileAttachment (title fileName mimeType : Str) (sizeBytes : UInt64)
  | person (item : PersonListItem)
  | address (item : AddressListItem)
  | identityDocument (item : IdentityDocumentListItem)
  | internationalAccount (item : InternationalAccountListItem)
  | domesticAccount (item : DomesticAccountListItem)
  deriving DecidableEq

/-- The secret-free list representation of a record. -/
structure SecretListItem where
  id : SecretId
  data : SecretListItemData
  deriving DecidableEq

/-- One decrypted secret. -/
structure SecretRecord where
  id : SecretId
  secretType : SecretType
  data : SecretValue

/-- Build the secret-free list representation that may cross into UI state. -/
def SecretRecord.listItem (record : SecretRecord) : SecretListItem :=
  ⟨record.id,
    match record.data with
    | .login value => .login value.websiteUrl value.username
    | .apiKey value => .apiKey value.websiteUrl value.expiresAt
    | .seedPhrase value => .seedPhrase value.name (splitWhitespace value.seed).length
    | .secureNote value => .secureNote value.title
    | .passkey value => .passkey value.rpId value.rpName value.userName value.userDisplayName
    | .authenticator value =>
      .authenticator value.issuer value.account value.websiteUrl value.backupCodes.length
    | .creditCard value =>
      .creditCard value.title value.cardholderName (SensitiveNumber.last4 value.number)
        value.expirationMonth value.expirationYear
    | .fileAttachment value =>
      .fileAttachment value.title value.fileName value.mimeType value.sizeBytes
    | .person value => .person value.listItem
    | .address value => .address value.listItem
    | .identityDocument value => .identityDocument value.listItem
    | .internationalAccount value => .internationalAccount value.listItem
    | .domesticAccount value => .domesticAccount value.listItem⟩

namespace SecretListItem

def secretType (item : SecretListItem) : SecretType :=
  match item.data with
  | .login .. => .login
  | .apiKey .. => .apiKey
  | .seedPhrase .. => .seedPhrase
  | .secureNote .. => .secureNote
  | .passkey .. => .passkey
  | .authenticator .. => .authenticator
  | .creditCard .. => .creditCard
  | .fileAttachment .. => .fileAttachment
  | .person _ => .person
  | .address _ => .address
  | .identityDocument _ => .identityDocument
  | .internationalAccount _ => .internationalAccount
  | .domesticAccount _ => .domesticAccount

/-- The key an authenticator groups under: its website's host or its issuer. -/
def authenticatorGroupKey [UrlParser] (websiteUrl issuer : Str) : Str :=
  let request : AuthenticatorWebsiteHostRequest := ⟨websiteUrl, issuer⟩
  match request.explicitOrDomainHost with
  | .resolved host => host.asStr
  | .unmappedIssuer =>
    match AuthenticatorIssuerHosts.requireBundled with
    | .error _ => trim issuer
    | .ok hosts =>
      match hosts.resolveWebsiteHost request with
      | .resolved host => host.asStr
      | .unmappedIssuer => trim issuer

def groupKey [UrlParser] (item : SecretListItem) : Str :=
  match item.data with
  | .login websiteUrl _ | .apiKey websiteUrl _ =>
    ((WebsiteHost.normalize websiteUrl).map WebsiteHost.asStr).getD "No Website".toList
  | .seedPhrase name _ => SecretTitle.groupKey name "Unnamed Seed Phrase".toList
  | .secureNote title => SecretTitle.groupKey title "Unnamed Note".toList
  | .passkey rpId _ _ _ => rpId
  | .authenticator issuer _ websiteUrl _ => authenticatorGroupKey websiteUrl issuer
  | .creditCard title _ _ _ _ => SecretTitle.groupKey title "Unnamed Card".toList
  | .fileAttachment title fileName _ _ =>
    SecretTitle.groupKey title (SecretTitle.groupKey fileName "Unnamed File".toList)
  | .person item => item.groupKey
  | .address item => item.groupKey
  | .identityDocument item => item.groupKey
  | .internationalAccount item => item.row.groupKey
  | .domesticAccount item => item.row.groupKey

def summary (item : SecretListItem) : Str :=
  match item.data with
  | .login websiteUrl username =>
    if !(trim username).isEmpty then trim username
    else if !(trim websiteUrl).isEmpty then trim websiteUrl
    else "login".toList
  | .apiKey websiteUrl _ =>
    if (trim websiteUrl).isEmpty then "api-key".toList else trim websiteUrl
  | .seedPhrase name _ => trim name
  | .secureNote title => trim title
  | .passkey _ _ userName userDisplayName =>
    if (trim userDisplayName).isEmpty then trim userName else trim userDisplayName
  | .authenticator issuer account _ _ =>
    if (trim account).isEmpty then trim issuer else trim account
  | .creditCard _ _ last4 _ _ =>
    if last4.isEmpty then "credit-card".toList else "•••• ".toList ++ last4
  | .fileAttachment _ fileName _ _ => trim fileName
  | .person item => item.summary
  | .address item => item.summary
  | .identityDocument item => item.summary
  | .internationalAccount item => item.row.summary
  | .domesticAccount item => item.row.summary

/-- The fields of the kind itself that a search looks at. -/
def kindFields (item : SecretListItem) : List Str :=
  match item.data with
  | .login websiteUrl username => [websiteUrl, username]
  | .apiKey websiteUrl expiresAt =>
    websiteUrl :: if expiresAt.isEmpty then [] else [expiresAt]
  | .seedPhrase name _ => [name]
  | .secureNote title => [title]
  | .passkey rpId rpName userName userDisplayName =>
    [rpId, rpName, userName, userDisplayName]
  | .authenticator issuer account websiteUrl _ => [issuer, account, websiteUrl]
  | .creditCard title cardholderName last4 expirationMonth expirationYear =>
    [title, cardholderName, last4, expirationMonth ++ "/".toList ++ expirationYear]
  | .fileAttachment title fileName mimeType _ => [title, fileName, mimeType]
  | .person item => item.searchFields
  | .address item => item.searchFields
  | .identityDocument item => item.searchFields
  | .internationalAccount item => item.searchFields
  | .domesticAccount item => item.searchFields

/-- Lowercase search projection of the fields the search catalog includes. -/
def normalizedSearchText [UrlParser] [Casing] (item : SecretListItem) : Str :=
  ['\n'].intercalate
    (([item.groupKey, item.summary, item.id.asStr] ++ item.kindFields).map Casing.toLowercase)

end SecretListItem

/-- Case-insensitive search over non-secret metadata fields. -/
def SecretRecord.matchesSearch [UrlParser] [Casing] (record : SecretRecord) (query : Str) : Bool :=
  let needle := Casing.toLowercase (trim query)
  needle.isEmpty || containsText record.listItem.normalizedSearchText needle

@[simp] theorem SecretRecord.listItem_id (record : SecretRecord) :
    record.listItem.id = record.id := rfl

/-- A list item is of its record's kind. -/
@[simp] theorem SecretRecord.listItem_secretType (record : SecretRecord) :
    record.listItem.secretType = record.data.secretType := by
  obtain ⟨id, secretType, data⟩ := record
  cases data <;> rfl

end Nook.Secrets
