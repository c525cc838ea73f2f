import Nook.Secrets.Authenticator

set_option autoImplicit false

namespace Nook.Secrets

open Nook.EventLog

structure LoginSecret where
  websiteUrl : Str
  username : Str
  password : Str
  notes : Str
  deriving DecidableEq

structure ApiKeySecret where
  websiteUrl : Str
  key : Str
  expiresAt : Str
  deriving DecidableEq

structure SeedPhraseSecret where
  name : Str
  seed : Str
  deriving DecidableEq

structure SecureNoteSecret where
  title : Str
  note : Str
  deriving DecidableEq

inductive PasskeyCredentialKey where
  | es256 (privateKeyPkcs8 publicKeyCose : Str)
  deriving DecidableEq

/-- A passkey payload of the current version, the only one there is. -/
structure PasskeySecret where
  rpId : Str
  rpName : Str
  credentialId : Str
  userHandle : Str
  userName : Str
  userDisplayName : Str
  key : PasskeyCredentialKey
  signatureCount : UInt32
  discoverable : Bool
  backupEligible : Bool
  backupState : Bool
  deriving DecidableEq

structure CreditCardSecret where
  title : Str
  cardholderName : Str
  number : Str
  expirationMonth : Str
  expirationYear : Str
  cvv : Str
  notes : Str
  deriving DecidableEq

structure FileAttachmentSecret where
  title : Str
  fileName : Str
  mimeType : Str
  sizeBytes : UInt64
  contentBase64 : Str
  deriving DecidableEq

structure PersonSecret where
  givenName : Str
  middleName : Str
  familyName : Str
  birthDate : Str
  email : Str
  mobilePhone : Str
  homePhone : Str
  workPhone : Str
  deriving DecidableEq

structure AddressSecret where
  label : Str
  addressLine1 : Str
  addressLine2 : Str
  city : Str
  region : Str
  postalCode : Str
  country : Str
  deriving DecidableEq

inductive IdentityDocumentKind where
  | passport
  | nationalId
  | driversLicense
  | socialSecurity
  | taxId
  | membership
  deriving DecidableEq

def IdentityDocumentKind.asStr : IdentityDocumentKind → Str
  | passport => "passport".toList
  | nationalId => "national-id".toList
  | driversLicense => "drivers-license".toList
  | socialSecurity => "social-security".toList
  | taxId => "tax-id".toList
  | membership => "membership".toList

structure IdentityDocumentSecret where
  kind : IdentityDocumentKind
  number : Str
  issuer : Str
  issuingCountry : Str
  issueDate : Str
  expiryDate : Str
  nameAsPrinted : Str
  deriving DecidableEq

structure InternationalAccountSecret where
  accountHolder : Str
  bankName : Str
  iban : Str
  swiftBic : Str
  deriving DecidableEq

structure DomesticAccountSecret where
  accountHolder : Str
  bankName : Str
  accountNumber : Str
  routingNumber : Str
  deriving DecidableEq

inductive SecretValue where
  | login (login : LoginSecret)
  | apiKey (apiKey : ApiKeySecret)
  | seedPhrase (seedPhrase : SeedPhraseSecret)
  | secureNote (note : SecureNoteSecret)
  | passkey (passkey : PasskeySecret)
  | authenticator (authenticator : AuthenticatorSecret)
  | creditCard (card : CreditCardSecret)
  | fileAttachment (file : FileAttachmentSecret)
  | person (person : PersonSecret)
  | address (address : AddressSecret)
  | identityDocument (document : IdentityDocumentSecret)
  | internationalAccount (account : InternationalAccountSecret)
  | domesticAccount (account : DomesticAccountSecret)
  deriving DecidableEq

def SecretValue.secretType : SecretValue → SecretType
  | login _ => .login
  | apiKey _ => .apiKey
  | seedPhrase _ => .seedPhrase
  | secureNote _ => .secureNote
  | passkey _ => .passkey
  | authenticator _ => .authenticator
  | creditCard _ => .creditCard
  | fileAttachment _ => .fileAttachment
  | person _ => .person
  | address _ => .address
  | identityDocument _ => .identityDocument
  | internationalAccount _ => .internationalAccount
  | domesticAccount _ => .domesticAccount

end Nook.Secrets
