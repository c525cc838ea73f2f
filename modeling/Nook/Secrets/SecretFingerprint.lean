import Nook.Lib.Framing
import Nook.Secrets.ProviderNotes
import Nook.Secrets.SecretValue

set_option autoImplicit false

namespace Nook.Secrets

open Nook.EventLog Nook.Lib FingerprintText

namespace SensitiveNumber

def MAX_VISIBLE_TAIL : Nat := 4

/-- The last characters for display, never more than half of the number. -/
def last4 (number : Str) : Str :=
  let characters := number.length
  let visible := min MAX_VISIBLE_TAIL (characters / 2)
  number.drop (characters - visible)

end SensitiveNumber

/-- A number as decimal text. -/
def decimal (value : Nat) : Str := Nat.toDigits 10 value

/-- The texts between white space. -/
def splitWhitespace (text : Str) : List Str :=
  (text.splitOnP isWhitespace).filter fun word => !word.isEmpty

def flag (value : Bool) : Str := if value then ['1'] else ['0']

namespace CanonicalSecretBytes

def append (bytes : Bytes) (value : Str) : Bytes :=
  bytes ++ decimalBytes (utf8Len value) ++ [0x3a] ++ utf8Encode value ++ [0]

/-- What the identity of a value is made of, in the order it is written. -/
def identityTexts : SecretValue → List Str
  | .login login => ["login".toList, normalized login.websiteUrl, normalized login.username]
  | .apiKey apiKey => ["api-key".toList, normalized apiKey.websiteUrl]
  | .seedPhrase seedPhrase => ["seed-phrase".toList, normalized seedPhrase.name]
  | .secureNote note => ["secure-note".toList, normalized note.title]
  | .passkey passkey => ["passkey".toList, passkey.rpId, passkey.credentialId]
  | .authenticator authenticator =>
    ["authenticator".toList, normalized authenticator.issuer, normalized authenticator.account]
  | .creditCard card =>
    ["credit-card".toList, normalized card.title, normalized card.cardholderName,
      SensitiveNumber.last4 card.number]
  | .fileAttachment file =>
    ["file-attachment".toList, normalized file.title, normalized file.fileName,
      normalized file.mimeType, decimal file.sizeBytes.toNat]
  | .person person =>
    ["person".toList, normalized person.givenName, normalized person.familyName, person.birthDate]
  | .address address =>
    ["address".toList, normalized address.label, normalized address.addressLine1,
      normalized address.postalCode, normalized address.country]
  | .identityDocument document =>
    ["identity-document".toList, document.kind.asStr, normalized document.nameAsPrinted,
      normalized document.issuingCountry, normalized document.issuer,
      SensitiveNumber.last4 document.number]
  | .internationalAccount account =>
    ["international-account".toList, normalized account.bankName, normalized account.accountHolder,
      SensitiveNumber.last4 account.iban]
  | .domesticAccount account =>
    ["domestic-account".toList, normalized account.bankName, normalized account.accountHolder,
      account.routingNumber, SensitiveNumber.last4 account.accountNumber]

def identity (value : SecretValue) : Bytes := (identityTexts value).foldl append []

/-- What a version adds to the identity. -/
def versionTexts : SecretValue → List Str
  | .login login => [login.password]
  | .apiKey apiKey => [apiKey.key]
  | .seedPhrase seedPhrase => [[' '].intercalate (splitWhitespace seedPhrase.seed)]
  | .secureNote note => [ProviderNotes.neutral ⟨note.note, .general⟩]
  | .passkey passkey =>
    let .es256 _ publicKeyCose := passkey.key
    [passkey.userHandle, publicKeyCose, decimal passkey.signatureCount.toNat,
      flag passkey.discoverable, flag passkey.backupEligible, flag passkey.backupState]
  | .authenticator authenticator =>
    [authenticator.secret.asStr, authenticator.algorithm.asStr, authenticator.digits.display,
      authenticator.period.display] ++
        (authenticator.backupCodes.map normalized).insertionSort (· ≤ ·)
  | .creditCard card =>
    [card.number, card.expirationMonth, card.expirationYear, card.cvv,
      ProviderNotes.neutral ⟨card.notes, .general⟩]
  | .fileAttachment file => [file.contentBase64]
  | .person person =>
    [normalized person.middleName, person.email, person.mobilePhone, person.homePhone,
      person.workPhone]
  | .address address =>
    [normalized address.addressLine2, normalized address.city, normalized address.region]
  | .identityDocument document => [document.number, document.issueDate, document.expiryDate]
  | .internationalAccount account => [account.iban, account.swiftBic]
  | .domesticAccount account => [account.accountNumber]

def version (value : SecretValue) : Bytes := (versionTexts value).foldl append (identity value)

end CanonicalSecretBytes

/-- Enrich an existing matching version with another provider's fields. -/
def SecretValue.enrichedWith : SecretValue → SecretValue → SecretValue
  | .login existing, .login incoming =>
    .login { existing with notes := ProviderNotes.merge ⟨existing.notes, .login⟩ incoming.notes }
  | .secureNote existing, .secureNote incoming =>
    .secureNote { existing with
      note := ProviderNotes.merge ⟨existing.note, .general⟩ incoming.note }
  | existing, _ => existing

example : CanonicalSecretBytes.version
    (.seedPhrase ⟨" Recovery\r\n ".toList, " alpha\t beta\n gamma ".toList⟩) =
      utf8Encode "11:seed-phrase\x008:Recovery\x0016:alpha beta gamma\x00".toList := by
  decide +kernel

end Nook.Secrets
