import Mathlib

set_option autoImplicit false

namespace Nook.EventLog

/-- Text as its Unicode scalar values, whose order is the byte order of their UTF-8. -/
abbrev Str := List Char

/-- The string newtypes of the event log. -/
inductive TextKind where
  | eventId
  | ed25519Signature
  | appId
  | storeId
  | secretId
  | authKeyId
  | isoTimestamp
  | sha256Hex
  | opaqueCiphertext
  | ageArmoredCiphertext
  | devicePublicKey
  | memberLabel
  | secretFingerprint
  | storedRecordPayload
  | identityId
  | identityInviteId
  | providerMountId
  | recoverySealedSecret

/-- A string newtype, compared as its text. -/
structure Text (kind : TextKind) where
  asStr : Str

namespace Text

variable {kind : TextKind}

theorem asStr_injective : Function.Injective (Text.asStr : Text kind → Str) := by
  intro left right same
  cases left
  cases right
  simp_all

instance : LinearOrder (Text kind) := LinearOrder.lift' Text.asStr asStr_injective

instance (priority := high) : Std.TransCmp (compare : Text kind → Text kind → Ordering) :=
  inferInstance

instance (priority := high) : LawfulBEq (Text kind) := inferInstance

end Text

abbrev EventId := Text .eventId
abbrev Ed25519Signature := Text .ed25519Signature
abbrev AppId := Text .appId
/-- Migration alias for `AppId`. -/
abbrev DeviceId := AppId
abbrev StoreId := Text .storeId
abbrev SecretId := Text .secretId
abbrev AuthKeyId := Text .authKeyId
abbrev IsoTimestamp := Text .isoTimestamp
abbrev Sha256Hex := Text .sha256Hex
abbrev OpaqueCiphertext := Text .opaqueCiphertext
abbrev AgeArmoredCiphertext := Text .ageArmoredCiphertext
abbrev DevicePublicKey := Text .devicePublicKey
abbrev MemberLabel := Text .memberLabel
abbrev SecretFingerprint := Text .secretFingerprint
abbrev StoredRecordPayload := Text .storedRecordPayload
abbrev IdentityId := Text .identityId
abbrev IdentityInviteId := Text .identityInviteId
abbrev ProviderMountId := Text .providerMountId
abbrev RecoverySealedSecret := Text .recoverySealedSecret

/-- Unicode `White_Space`. -/
def isWhitespace (char : Char) : Bool :=
  let code := char.toNat
  (0x9 ≤ code && code ≤ 0xd) || code == 0x20 || code == 0x85 || code == 0xa0 || code == 0x1680 ||
    (0x2000 ≤ code && code ≤ 0x200a) || code == 0x2028 || code == 0x2029 || code == 0x202f ||
    code == 0x205f || code == 0x3000

def trim (raw : Str) : Str :=
  ((raw.dropWhile isWhitespace).reverse.dropWhile isWhitespace).reverse

def startsWith (raw lead : Str) : Bool := lead.isPrefixOf raw

def stripPrefix (raw lead : Str) : Option Str :=
  if startsWith raw lead then some (raw.drop lead.length) else none

/-- The length in bytes. -/
def utf8Len (text : Str) : Nat := (text.map Char.utf8Size).sum

def isAsciiHexdigit (char : Char) : Bool :=
  char.isDigit || ('a' ≤ char && char ≤ 'f') || ('A' ≤ char && char ≤ 'F')

inductive ValidationError where
  | storeIdInvalid
  | storeIdReserved
  | deviceIdInvalid
  | authKeyIdInvalid
  deriving DecidableEq

def AppId.isValid (id : Str) : Bool := utf8Len id == 16 && id.all isAsciiHexdigit

def AppId.parse (raw : Str) : Except ValidationError AppId :=
  let id := trim raw
  if AppId.isValid id then .ok ⟨id⟩ else .error .deviceIdInvalid

def CompactToken.isValid (token : Str) : Bool :=
  utf8Len token == 11 && token.all fun char => char.isAlphanum || char == '-' || char == '_'

def CompactToken.parse (raw : Str) : Except ValidationError Str :=
  let token := trim raw
  if CompactToken.isValid token then .ok token else .error .storeIdInvalid

namespace StoreId

def beforeGenesisPlaceholder : StoreId := ⟨"store_abcdefghijk".toList⟩

def fromRawToken (raw : Str) : Except ValidationError StoreId := do
  let token ← CompactToken.parse raw
  match AppId.parse token with
  | .ok _ => .error .storeIdReserved
  | .error _ => .ok ⟨"store_".toList ++ token⟩

def parse (raw : Str) : Except ValidationError StoreId :=
  let trimmed := trim raw
  match stripPrefix trimmed "store_".toList with
  | some token => fromRawToken token
  | none => fromRawToken trimmed

end StoreId

namespace AuthKeyId

def isDigest (digest : Str) : Bool := utf8Len digest == 64 && digest.all isAsciiHexdigit

def fromDigestHex (digest : Str) : Except ValidationError AuthKeyId :=
  if isDigest digest then .ok ⟨"key_".toList ++ digest⟩ else .error .authKeyIdInvalid

end AuthKeyId

/-- Ed25519 verifying-key state used by persisted membership and event records. -/
inductive DeviceSigningPublicKey where
  | unavailable
  | ed25519Hex (value : Str)
  deriving DecidableEq

namespace DeviceSigningPublicKey

def asStr : DeviceSigningPublicKey → Str
  | unavailable => []
  | ed25519Hex value => value

def isEmpty : DeviceSigningPublicKey → Bool
  | unavailable => true
  | ed25519Hex _ => false

end DeviceSigningPublicKey

/-- Whether a member carries a display label. -/
inductive MemberLabelState where
  | unnamed
  | named (label : Str)
  deriving DecidableEq

example : StoreId.parse " store_testtoken11\n".toList = .ok ⟨"store_testtoken11".toList⟩ := by
  decide +kernel

end Nook.EventLog
