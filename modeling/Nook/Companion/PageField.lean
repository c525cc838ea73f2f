import Nook.EventLog.Text

set_option autoImplicit false

namespace Nook.Companion

open Nook.EventLog

/-! ### The text of controls and fields -/

/-- Text a page shows on a control or names a field with. -/
abbrev AuthenticationControlText := Str

namespace AuthenticationControlText

/-- A new word starts where the case rises and between letters and digits. -/
def needsBreak (previous current : Char) : Bool :=
  (previous.isLower && current.isUpper) || (previous.isAlpha && current.isDigit) ||
    (previous.isDigit && current.isAlpha)

def isSeparator (current : Char) : Bool :=
  current == '_' || current == '-' || current == '.' || current == '/' || current == '#'

def withBreaks : Option Char → Str → Str
  | _, [] => []
  | previous, current :: rest =>
    let shown := if isSeparator current then ' ' else current
    if previous.any (needsBreak · current) then ' ' :: shown :: withBreaks (some current) rest
    else shown :: withBreaks (some current) rest

/-- The words of a text in lower case, one space apart. -/
def expandIdentityText (text : AuthenticationControlText) : Str :=
  let words := ((withBreaks none text).splitOnP isWhitespace).filter fun word => !word.isEmpty
  ([' '].intercalate words).map Char.toLower

/-- Only the bytes of such a character belong to a word. -/
def isWordChar (char : Char) : Bool := char.isAlphanum || char == '_'

/-- A word of the phrase does not go on in `neighbour`. -/
def endsWord (neighbour : Option Char) : Bool := !neighbour.any isWordChar

/-- The matches of the phrase follow one another and do not overlap: the characters of the
last one, `skip` of which are left, begin none. -/
def scanPhrase (phrase : Str) : Nat → Option Char → Str → Bool
  | skip + 1, _, char :: rest => scanPhrase phrase skip (some char) rest
  | 0, previous, char :: rest =>
    if phrase.isPrefixOf (char :: rest) then
      (endsWord previous && endsWord ((char :: rest).drop phrase.length).head?) ||
        scanPhrase phrase (phrase.length - 1) (some char) rest
    else scanPhrase phrase 0 (some char) rest
  | _, previous, [] => phrase.isEmpty && endsWord previous

def containsWordPhrase (haystack : AuthenticationControlText) (phrase : Str) : Bool :=
  scanPhrase phrase 0 none haystack

def containsAnyWord (haystack : AuthenticationControlText) (needles : List String) : Bool :=
  needles.any fun needle => containsWordPhrase haystack needle.toList

example : expandIdentityText "loginEmail-address2".toList = "login email address 2".toList := by
  decide +kernel

example : containsAnyWord "my passcode".toList ["code", "pass"] = false := by decide +kernel

end AuthenticationControlText

open AuthenticationControlText

/-! ### One-time codes -/

/-- Portable HTML input type bucket for auth classification. -/
inductive PageInputType where
  | text
  | email
  | tel
  | number
  | password
  | other
  deriving DecidableEq

/-- Whether the surroundings of a field are a login's. -/
inductive PageLoginContext where
  | unrelated
  | authentication
  deriving DecidableEq

/-- Whether the login-context pathname names a second-factor challenge route. -/
inductive PageSecondFactorRoute where
  | unrelated
  | secondFactor

/-- Raw `inputmode` attribute; `other` includes an absent attribute. -/
inductive PageInputMode where
  | numeric
  | other

/-- DOM `HTMLInputElement.maxLength`. -/
inductive PageInputMaxLength where
  | absent
  | limited (limit : Nat)

/-- A code fits an absent limit or one of four to ten characters. -/
def PageInputMaxLength.isCodeLength : PageInputMaxLength → Bool
  | absent => true
  | limited limit => decide (4 ≤ limit) && decide (limit ≤ 10)

/-- Raw `pattern` attribute; `digits` is a digit class with only a repetition quantifier. -/
inductive PageInputPattern where
  | digits
  | other

/-- Entry signals a field-observation producer collected for one input. -/
structure OneTimeCodeEntrySignals where
  secondFactorRoute : PageSecondFactorRoute
  inputMode : PageInputMode
  maxLength : PageInputMaxLength
  inputPattern : PageInputPattern

namespace OneTimeCodeEntrySignals

def codeEntryShape (signals : OneTimeCodeEntrySignals) (inputType : PageInputType) : Bool :=
  let digitEntry :=
    match inputType, signals.inputMode, signals.inputPattern with
    | .tel, _, _ | .number, _, _ => true
    | _, .numeric, _ => true
    | _, _, .digits => true
    | _, .other, .other => false
  digitEntry && signals.maxLength.isCodeLength

/-- Whether the identity names a code, excluding codes that are not one-time codes. -/
def codeIdentity (identity : Str) : Bool :=
  !containsAnyWord identity
      ["country code", "area code", "post code", "postcode", "sort code", "captcha"] &&
    containsAnyWord identity ["code", "passcode"]

end OneTimeCodeEntrySignals

/-- Whether the observation's producer collected one-time-code entry signals. -/
inductive OneTimeCodeEntryEvidence where
  | observed (signals : OneTimeCodeEntrySignals)
  | unobserved

/-! ### The role of a field -/

/-- Browser-collected attributes for one input, without DOM handles. -/
structure PageInputFieldObservation where
  inputType : PageInputType
  disabled : Bool
  readOnly : Bool
  autocompleteTokens : List Str
  identityText : Str
  loginContext : PageLoginContext
  oneTimeCodeEntry : OneTimeCodeEntryEvidence

inductive AuthenticationInputRole where
  | username
  | oneTimeCode
  | nonAuthentication
  | unrelated
  deriving DecidableEq

namespace PageInputFieldObservation

def eqIgnoreAsciiCase (left right : Str) : Bool := left.map Char.toLower == right.map Char.toLower

def hasAutocompleteToken (tokens : List Str) (expected : String) : Bool :=
  tokens.any fun token => eqIgnoreAsciiCase token expected.toList

def usernamePositive (identity : Str) : Bool :=
  containsAnyWord identity
    ["user", "user name", "username", "email", "e mail", "e-mail", "login", "login fmt",
      "loginfmt", "log in", "sign-in", "sign in", "account", "identifier", "phone",
      "phone number", "skype"]

def usernameNegative (identity : Str) : Bool :=
  containsAnyWord identity
    ["newsletter", "subscribe", "marketing", "promo", "search", "filter", "recipient",
      "contact us", "feedback", "support email"]

def oneTimeCodePositive (identity : Str) : Bool :=
  containsAnyWord identity
    ["otp", "totp", "2 fa", "2fa", "mfa", "two fa", "two factor", "one time", "one time code",
      "auth code", "authentication code", "verification code", "authenticator",
      "authenticator code", "twofa", "two step", "2 step", "2 sv"]

def oneTimeCodeNegative (identity : Str) : Bool :=
  containsAnyWord identity
    ["card", "credit", "debit", "cvv", "cvc", "csc", "security code", "pin code", "postal", "zip",
      "search", "coupon", "gift", "referral", "invite", "discount", "voucher"]

/-- Whether autocomplete declares the field an account password. -/
def credentialAutocomplete (field : PageInputFieldObservation) : Bool :=
  hasAutocompleteToken field.autocompleteTokens "current-password" ||
    hasAutocompleteToken field.autocompleteTokens "new-password"

/-- Classify a field without one-time-code words from route and entry-shape evidence. -/
def oneTimeCodeEntryRole (field : PageInputFieldObservation) (identity : Str) :
    AuthenticationInputRole :=
  match field.oneTimeCodeEntry with
  | .unobserved => .unrelated
  | .observed signals =>
    if (field.inputType = .text ∨ field.inputType = .tel ∨ field.inputType = .number) ∧
        !field.credentialAutocomplete then
      let shape :=
        match signals.secondFactorRoute with
        | .secondFactor => signals.maxLength.isCodeLength
        | .unrelated =>
          signals.codeEntryShape field.inputType && OneTimeCodeEntrySignals.codeIdentity identity
      if shape then .oneTimeCode else .unrelated
    else .unrelated

def classifyAuthenticationInputRole (field : PageInputFieldObservation) :
    AuthenticationInputRole :=
  let identity := expandIdentityText field.identityText
  let isText := field.inputType = .text ∨ field.inputType = .email ∨ field.inputType = .tel
  if hasAutocompleteToken field.autocompleteTokens "one-time-code" then .oneTimeCode
  else if hasAutocompleteToken field.autocompleteTokens "cc-csc" ||
      oneTimeCodeNegative identity || usernameNegative identity then .nonAuthentication
  else if isText ∧ (hasAutocompleteToken field.autocompleteTokens "username" ||
      hasAutocompleteToken field.autocompleteTokens "email") then .username
  else if (field.inputType = .text ∨ field.inputType = .tel ∨ field.inputType = .number ∨
      field.inputType = .password) ∧ identity ≠ [] ∧ !field.credentialAutocomplete ∧
      oneTimeCodePositive identity then .oneTimeCode
  else if isText ∧ identity ≠ [] ∧ (usernamePositive identity ||
      decide (field.inputType = .email ∧ field.loginContext = .authentication)) then .username
  else field.oneTimeCodeEntryRole identity

/-- A field the user can write into, of the role of a username. -/
def looksLikeUsernameField (field : PageInputFieldObservation) : Bool :=
  !field.disabled && !field.readOnly &&
    decide (field.classifyAuthenticationInputRole = .username)

end PageInputFieldObservation

/-! ### The evidence of a username -/

inductive AuthenticationUsernameEvidence where
  | absent
  | generic
  | standardsBasedEmail
  | mixedPhoneOrEmail
  | webAuthnEmail
  | strong
  | explicit
  deriving DecidableEq

def MAX_AUTHENTICATION_CONTROL_TEXT_BYTES : Nat := 512

open PageInputFieldObservation in
def PageInputFieldObservation.authenticationUsernameEvidence (field : PageInputFieldObservation) :
    AuthenticationUsernameEvidence :=
  let identity := expandIdentityText field.identityText
  if !field.looksLikeUsernameField then .absent
  else if hasAutocompleteToken field.autocompleteTokens "username" then .explicit
  else if field.inputType = .text ∧ field.loginContext = .authentication ∧
      utf8Len field.identityText ≤ MAX_AUTHENTICATION_CONTROL_TEXT_BYTES ∧
      field.autocompleteTokens.length = 1 ∧
      hasAutocompleteToken field.autocompleteTokens "tel-national" ∧
      identity = "tel national phone number or email".toList then .mixedPhoneOrEmail
  else if hasAutocompleteToken field.autocompleteTokens "email" then
    if usernameNegative identity then .generic
    else if hasAutocompleteToken field.autocompleteTokens "webauthn" then .webAuthnEmail
    else if field.loginContext = .authentication then .strong
    else .standardsBasedEmail
  else if containsAnyWord identity
      ["loginfmt", "login fmt", "login email", "login e mail", "login e-mail"] then .strong
  else .generic

namespace AuthenticationUsernameEvidence

/-- Every kind of evidence, strongest first. -/
def BY_STRENGTH : List AuthenticationUsernameEvidence :=
  [.explicit, .webAuthnEmail, .mixedPhoneOrEmail, .strong, .standardsBasedEmail, .generic, .absent]

def strongestAuthenticationUsernameEvidence (evidence : List AuthenticationUsernameEvidence) :
    AuthenticationUsernameEvidence :=
  (BY_STRENGTH.find? evidence.contains).getD .absent

end AuthenticationUsernameEvidence

end Nook.Companion
