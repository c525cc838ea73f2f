import Nook.Secrets.SecretFingerprint

set_option autoImplicit false

namespace Nook.Secrets

open Nook.EventLog Nook.Lib FingerprintText CanonicalSecretBytes

/-! ### Agreement of values -/

/-- Values of one kind whose identity fields agree, each after its own normalization. -/
def AgreesIdentity : SecretValue → SecretValue → Prop
  | .login left, .login right =>
    normalized left.websiteUrl = normalized right.websiteUrl ∧
      normalized left.username = normalized right.username
  | .apiKey left, .apiKey right => normalized left.websiteUrl = normalized right.websiteUrl
  | .seedPhrase left, .seedPhrase right => normalized left.name = normalized right.name
  | .secureNote left, .secureNote right => normalized left.title = normalized right.title
  | .passkey left, .passkey right =>
    left.rpId = right.rpId ∧ left.credentialId = right.credentialId
  | .authenticator left, .authenticator right =>
    normalized left.issuer = normalized right.issuer ∧
      normalized left.account = normalized right.account
  | .creditCard left, .creditCard right =>
    normalized left.title = normalized right.title ∧
      normalized left.cardholderName = normalized right.cardholderName ∧
      SensitiveNumber.last4 left.number = SensitiveNumber.last4 right.number
  | .fileAttachment left, .fileAttachment right =>
    normalized left.title = normalized right.title ∧
      normalized left.fileName = normalized right.fileName ∧
      normalized left.mimeType = normalized right.mimeType ∧ left.sizeBytes = right.sizeBytes
  | .person left, .person right =>
    normalized left.givenName = normalized right.givenName ∧
      normalized left.familyName = normalized right.familyName ∧ left.birthDate = right.birthDate
  | .address left, .address right =>
    normalized left.label = normalized right.label ∧
      normalized left.addressLine1 = normalized right.addressLine1 ∧
      normalized left.postalCode = normalized right.postalCode ∧
      normalized left.country = normalized right.country
  | .identityDocument left, .identityDocument right =>
    left.kind = right.kind ∧ normalized left.nameAsPrinted = normalized right.nameAsPrinted ∧
      normalized left.issuingCountry = normalized right.issuingCountry ∧
      normalized left.issuer = normalized right.issuer ∧
      SensitiveNumber.last4 left.number = SensitiveNumber.last4 right.number
  | .internationalAccount left, .internationalAccount right =>
    normalized left.bankName = normalized right.bankName ∧
      normalized left.accountHolder = normalized right.accountHolder ∧
      SensitiveNumber.last4 left.iban = SensitiveNumber.last4 right.iban
  | .domesticAccount left, .domesticAccount right =>
    normalized left.bankName = normalized right.bankName ∧
      normalized left.accountHolder = normalized right.accountHolder ∧
      left.routingNumber = right.routingNumber ∧
      SensitiveNumber.last4 left.accountNumber = SensitiveNumber.last4 right.accountNumber
  | _, _ => False

/-- Values of one kind whose other fingerprinted fields agree, each after its own
normalization; backup codes agree as a list in any order. -/
def AgreesVersion : SecretValue → SecretValue → Prop
  | .login left, .login right => left.password = right.password
  | .apiKey left, .apiKey right => left.key = right.key
  | .seedPhrase left, .seedPhrase right =>
    [' '].intercalate (splitWhitespace left.seed) = [' '].intercalate (splitWhitespace right.seed)
  | .secureNote left, .secureNote right =>
    ProviderNotes.neutral ⟨left.note, .general⟩ = ProviderNotes.neutral ⟨right.note, .general⟩
  | .passkey left, .passkey right =>
    left.userHandle = right.userHandle ∧
      (let .es256 _ publicKey := left.key; publicKey) =
        (let .es256 _ publicKey := right.key; publicKey) ∧
      left.signatureCount = right.signatureCount ∧ left.discoverable = right.discoverable ∧
      left.backupEligible = right.backupEligible ∧ left.backupState = right.backupState
  | .authenticator left, .authenticator right =>
    left.secret = right.secret ∧ left.algorithm = right.algorithm ∧ left.digits = right.digits ∧
      left.period = right.period ∧
      (left.backupCodes.map normalized).Perm (right.backupCodes.map normalized)
  | .creditCard left, .creditCard right =>
    left.number = right.number ∧ left.expirationMonth = right.expirationMonth ∧
      left.expirationYear = right.expirationYear ∧ left.cvv = right.cvv ∧
      ProviderNotes.neutral ⟨left.notes, .general⟩ = ProviderNotes.neutral ⟨right.notes, .general⟩
  | .fileAttachment left, .fileAttachment right => left.contentBase64 = right.contentBase64
  | .person left, .person right =>
    normalized left.middleName = normalized right.middleName ∧ left.email = right.email ∧
      left.mobilePhone = right.mobilePhone ∧ left.homePhone = right.homePhone ∧
      left.workPhone = right.workPhone
  | .address left, .address right =>
    normalized left.addressLine2 = normalized right.addressLine2 ∧
      normalized left.city = normalized right.city ∧ normalized left.region = normalized right.region
  | .identityDocument left, .identityDocument right =>
    left.number = right.number ∧ left.issueDate = right.issueDate ∧
      left.expiryDate = right.expiryDate
  | .internationalAccount left, .internationalAccount right =>
    left.iban = right.iban ∧ left.swiftBic = right.swiftBic
  | .domesticAccount left, .domesticAccount right => left.accountNumber = right.accountNumber
  | _, _ => False

/-! ### The bytes are read in one way only -/

theorem append_eq (bytes : Bytes) (value : Str) :
    append bytes value = bytes ++ frame (utf8Encode value) := by
  simp [append, frame, utf8Len, length_utf8Encode]

theorem foldl_append (texts : List Str) (start : Bytes) :
    texts.foldl append start = start ++ (texts.map utf8Encode).flatMap frame := by
  induction texts generalizing start with
  | nil => simp
  | cons text texts ih =>
    rw [List.foldl_cons, ih, append_eq, List.append_assoc]
    rfl

theorem foldl_append_inj {left right : List Str} :
    left.foldl append [] = right.foldl append [] ↔ left = right := by
  constructor
  · intro same
    rw [foldl_append, foldl_append, List.nil_append, List.nil_append] at same
    exact List.map_injective_iff.mpr utf8Encode_injective (flatMap_frame_injective same)
  · rintro rfl
    rfl

theorem identity_eq_iff {left right : SecretValue} :
    identity left = identity right ↔ identityTexts left = identityTexts right :=
  foldl_append_inj

theorem version_eq_iff {left right : SecretValue} :
    version left = version right ↔
      identityTexts left ++ versionTexts left = identityTexts right ++ versionTexts right := by
  unfold version identity
  rw [← List.foldl_append, ← List.foldl_append, foldl_append_inj]

/-- The text that names a kind. -/
def kindTag : SecretType → Str
  | .login => "login".toList
  | .apiKey => "api-key".toList
  | .seedPhrase => "seed-phrase".toList
  | .secureNote => "secure-note".toList
  | .passkey => "passkey".toList
  | .authenticator => "authenticator".toList
  | .creditCard => "credit-card".toList
  | .fileAttachment => "file-attachment".toList
  | .person => "person".toList
  | .address => "address".toList
  | .identityDocument => "identity-document".toList
  | .internationalAccount => "international-account".toList
  | .domesticAccount => "domestic-account".toList

theorem kindTag_injective : Function.Injective kindTag := by
  obtain ⟨kinds, distinct, every⟩ : ∃ kinds : List SecretType, (kinds.map kindTag).Nodup ∧
      ∀ kind, kind ∈ kinds := by
    refine ⟨[.login, .apiKey, .seedPhrase, .secureNote, .passkey, .authenticator, .creditCard,
      .fileAttachment, .person, .address, .identityDocument, .internationalAccount,
      .domesticAccount], by decide +kernel, ?_⟩
    intro kind
    cases kind <;> decide
  intro left right same
  exact List.inj_on_of_nodup_map distinct (every left) (every right) same

theorem head?_identityTexts (value : SecretValue) :
    (identityTexts value).head? = some (kindTag value.secretType) := by
  cases value <;> rfl

theorem length_identityTexts {left right : SecretValue}
    (kind : left.secretType = right.secretType) :
    (identityTexts left).length = (identityTexts right).length := by
  cases left <;> cases right <;> first | (cases kind; done) | rfl

/-- What starts with the identity of a value says of which kind it is. -/
theorem secretType_eq {left right : SecretValue} {rest rest' : List Str}
    (same : identityTexts left ++ rest = identityTexts right ++ rest') :
    left.secretType = right.secretType := by
  have first := congrArg List.head? same
  rw [List.head?_append, List.head?_append, head?_identityTexts, head?_identityTexts] at first
  exact kindTag_injective (Option.some.inj first)

theorem texts_eq_iff {left right : SecretValue} {rest rest' : List Str} :
    identityTexts left ++ rest = identityTexts right ++ rest' ↔
      identityTexts left = identityTexts right ∧ rest = rest' := by
  constructor
  · intro same
    exact List.append_inj same (length_identityTexts (secretType_eq same))
  · rintro ⟨first, second⟩
    rw [first, second]

/-! ### Fields -/

theorem decimal_inj {left right : Nat} : decimal left = decimal right ↔ left = right :=
  toDigits_ten_injective.eq_iff

theorem flag_inj {left right : Bool} : flag left = flag right ↔ left = right := by
  cases left <;> cases right <;> decide

theorem TotpAlgorithm.asStr_inj {left right : TotpAlgorithm} :
    left.asStr = right.asStr ↔ left = right := by
  cases left <;> cases right <;> decide +kernel

theorem TotpDigits.display_inj {left right : TotpDigits} :
    left.display = right.display ↔ left = right := by
  cases left <;> cases right <;> decide

theorem TotpPeriod.display_inj {left right : TotpPeriod} :
    left.display = right.display ↔ left = right := by
  unfold TotpPeriod.display
  rw [toDigits_ten_injective.eq_iff]
  cases left
  cases right
  simp

theorem TotpSecret.asStr_inj {left right : TotpSecret} : left.asStr = right.asStr ↔ left = right := by
  cases left
  cases right
  simp

theorem IdentityDocumentKind.asStr_inj {left right : IdentityDocumentKind} :
    left.asStr = right.asStr ↔ left = right := by
  cases left <;> cases right <;> decide +kernel

/-- Sorted lists are equal when the lists hold the same texts. -/
theorem insertionSort_eq_iff {left right : List Str} :
    left.insertionSort (· ≤ ·) = right.insertionSort (· ≤ ·) ↔ left.Perm right := by
  constructor
  · intro same
    have reordered := List.perm_insertionSort (· ≤ ·) left
    rw [same] at reordered
    exact reordered.symm.trans (List.perm_insertionSort (· ≤ ·) right)
  · intro reordered
    have permuted := (List.perm_insertionSort (· ≤ ·) left).trans
      (reordered.trans (List.perm_insertionSort (· ≤ ·) right).symm)
    exact permuted.eq_of_pairwise' (List.pairwise_insertionSort (· ≤ ·) left)
      (List.pairwise_insertionSort (· ≤ ·) right)

theorem identityTexts_eq_iff {left right : SecretValue} :
    identityTexts left = identityTexts right ↔ AgreesIdentity left right := by
  by_cases kind : left.secretType = right.secretType
  · cases left <;> cases right <;> first
      | (cases kind; done)
      | simp only [identityTexts, AgreesIdentity, List.cons.injEq, true_and, and_true, decimal_inj,
          UInt64.toNat_inj, IdentityDocumentKind.asStr_inj]
  · constructor
    · intro same
      exact absurd (secretType_eq (congrArg (· ++ ([] : List Str)) same)) kind
    · intro agrees
      cases left <;> cases right <;> first
        | exact absurd rfl kind
        | exact absurd agrees id

/-- Versions of values of one kind. -/
theorem versionTexts_eq_iff {left right : SecretValue} (kind : left.secretType = right.secretType) :
    versionTexts left = versionTexts right ↔ AgreesVersion left right := by
  cases left <;> cases right <;> first
    | (cases kind; done)
    | simp only [versionTexts, AgreesVersion, List.cons.injEq, List.cons_append, List.nil_append,
        and_true, decimal_inj, UInt32.toNat_inj, flag_inj, TotpSecret.asStr_inj,
        TotpAlgorithm.asStr_inj, TotpDigits.display_inj, TotpPeriod.display_inj,
        insertionSort_eq_iff]

theorem AgreesIdentity.secretType {left right : SecretValue} (agrees : AgreesIdentity left right) :
    left.secretType = right.secretType := by
  have same := identityTexts_eq_iff.mpr agrees
  exact secretType_eq (congrArg (· ++ ([] : List Str)) same)

/-- Fingerprints are of equal bytes exactly when the values are of one kind and agree in
the fields that are fingerprinted. -/
theorem fingerprints_separate (left right : SecretValue) :
    (identity left = identity right ↔ AgreesIdentity left right) ∧
    (version left = version right ↔ AgreesIdentity left right ∧ AgreesVersion left right) := by
  have identities : identity left = identity right ↔ AgreesIdentity left right :=
    identity_eq_iff.trans identityTexts_eq_iff
  refine ⟨identities, ?_⟩
  rw [version_eq_iff, texts_eq_iff, identityTexts_eq_iff]
  constructor
  · rintro ⟨agrees, same⟩
    exact ⟨agrees, (versionTexts_eq_iff agrees.secretType).mp same⟩
  · rintro ⟨agrees, agreesVersion⟩
    exact ⟨agrees, (versionTexts_eq_iff agrees.secretType).mpr agreesVersion⟩

namespace TestSupport

/-- Logins of one version may differ in what the user wrote in their notes. -/
theorem versions_leave_notes_out : ¬∀ left right : LoginSecret,
    version (.login left) = version (.login right) →
      ProviderNotes.neutral ⟨left.notes, .login⟩ = ProviderNotes.neutral ⟨right.notes, .login⟩ := by
  intro separates
  have same := separates
    ⟨"https://example.com".toList, "alice".toList, "secret".toList, "first".toList⟩
    ⟨"https://example.com".toList, "alice".toList, "secret".toList, "second".toList⟩ rfl
  revert same
  decide +kernel

end TestSupport

end Nook.Secrets
