import Nook.Secrets.OtpauthUri

set_option autoImplicit false

namespace Nook.Secrets

open Nook.EventLog Nook.Lib

/-! ### Encoded components -/

/-- A character of an encoded component: none that has a role in the URI. -/
def IsEncoded (char : Char) : Prop :=
  char.toNat < 128 ∧ isWhitespace char = false ∧ char ≠ '?' ∧ char ≠ '&' ∧ char ≠ '=' ∧ char ≠ '+' ∧
    char ≠ ':'

instance (char : Char) : Decidable (IsEncoded char) := inferInstanceAs (Decidable (_ ∧ _))

/-- Whether every character of a text stays literal in a component. -/
def isLiteral (text : Str) : Bool :=
  text.all fun char => decide (char.toNat < 128) && otpauthComponent (UInt8.ofNat char.toNat)

/-- What is evaluated of the bytes, the values and the fixed texts of a URI. -/
structure CheckedParts : Prop where
  component : ∀ byte : UInt8, otpauthComponent byte = true → byte.toNat < 128 ∧ byte ≠ 0x25
  encoded : ∀ byte : UInt8, otpauthComponent byte = true ∨ byte = 0x25 →
    IsEncoded (Char.ofNat byte.toNat)
  algorithm : ∀ algorithm : TotpAlgorithm, isLiteral algorithm.asStr = true ∧
    TotpAlgorithm.parse algorithm.asStr = some algorithm ∧ utf8Len algorithm.asStr ≤ 6
  digits : ∀ digits : TotpDigits, isLiteral digits.display = true ∧
    ((parseUnsigned (2 ^ 32) digits.display).bind fun value => TotpDigits.tryFrom value) =
      some digits ∧ utf8Len digits.display = 1
  seconds : ∀ seconds < 301, isLiteral (Nat.toDigits 10 seconds) = true ∧
    parseUnsigned (2 ^ 64) (Nat.toDigits 10 seconds) = some seconds ∧
      (Nat.toDigits 10 seconds).length ≤ 3
  names : ["secret", "issuer", "algorithm", "digits", "period"].all
    (fun name => isLiteral name.toList) = true
  distinct : (["secret".toList, "issuer".toList, "algorithm".toList, "digits".toList,
    "period".toList] : List Str).Nodup
  solid : (["otpauth://totp/:".toList, "?secret=".toList, "&issuer=".toList,
    "&algorithm=".toList, "&digits=".toList, "&period=".toList]).all
      (fun text => text.all fun char => !isWhitespace char) = true
  lengths : utf8Len "otpauth://totp/:".toList = 16 ∧ utf8Len "?secret=".toList = 8 ∧
    utf8Len "&issuer=".toList = 8 ∧ utf8Len "&algorithm=".toList = 11 ∧
      utf8Len "&digits=".toList = 8 ∧ utf8Len "&period=".toList = 8

theorem checkedParts : CheckedParts where
  component := by decide +kernel
  encoded := by decide +kernel
  algorithm algorithm := by cases algorithm <;> decide +kernel
  digits digits := by cases digits <;> decide +kernel
  seconds := by decide +kernel
  names := by decide +kernel
  distinct := by decide +kernel
  solid := by decide +kernel
  lengths := by decide +kernel

theorem otpauthComponent_safe : SafeLiteral otpauthComponent := CheckedParts.component checkedParts

theorem otpauthComponent_hexDigit : ∀ digit < 16, otpauthComponent (hexDigitByte digit) = true := by
  decide

theorem isEncoded_percentEncode {text : Str} :
    ∀ char ∈ percentEncode otpauthComponent text, IsEncoded char := by
  intro char member
  obtain ⟨byte, rfl, allowed⟩ := mem_percentEncode otpauthComponent_hexDigit member
  exact CheckedParts.encoded checkedParts byte allowed

theorem decode_query (text : Str) :
    (UriComponent.query (percentEncode otpauthComponent text)).decode = .ok text := by
  have same : (percentEncode otpauthComponent text).map (fun char => if char = '+' then ' ' else char) =
      percentEncode otpauthComponent text := by
    have kept : ∀ char ∈ percentEncode otpauthComponent text,
        (if char = '+' then ' ' else char) = id char := by
      intro char member
      rw [if_neg (isEncoded_percentEncode char member).2.2.2.2.2.1]
      rfl
    rw [List.map_congr_left kept, List.map_id]
  rw [UriComponent.decode, show (UriComponent.query (percentEncode otpauthComponent text)).encoded =
    percentEncode otpauthComponent text from same, percentDecode_percentEncode otpauthComponent_safe, utf8Decode_utf8Encode]
  rfl

/-- A part of the query is read as its name and its decoded value. -/
theorem parameter_encoded (parameters : List (Str × Str)) {key : Str} (value : Str)
    (plain : percentEncode otpauthComponent key = key) :
    OtpauthInput.parameter parameters (key ++ '=' :: percentEncode otpauthComponent value) =
      .ok (DecodedOtpauthInput.put key value parameters) := by
  have absent : '=' ∉ key := by
    intro member
    rw [← plain] at member
    exact (isEncoded_percentEncode _ member).2.2.2.2.1 rfl
  have cut : splitOnce (key ++ '=' :: percentEncode otpauthComponent value) '=' =
      some (key, percentEncode otpauthComponent value) := splitOnce_eq_some.mpr ⟨rfl, absent⟩
  have name := decode_query key
  rw [plain] at name
  unfold OtpauthInput.parameter
  rw [cut]
  simp only [required, bind, Except.bind, name, decode_query]
  rfl

/-! ### The written URI -/

/-- The query of a written URI, as names and values. -/
def AuthenticatorSecret.uriParameters (item : AuthenticatorSecret) : List (Str × Str) :=
  [("secret".toList, item.secret.asStr), ("issuer".toList, item.issuer),
    ("algorithm".toList, item.algorithm.asStr), ("digits".toList, item.digits.display),
    ("period".toList, item.period.display)]

/-- A parameter as it stands in the query. -/
def uriPart (parameter : Str × Str) : Str :=
  parameter.1 ++ '=' :: percentEncode otpauthComponent parameter.2

theorem percentEncode_isLiteral {text : Str} (plain : isLiteral text = true) :
    percentEncode otpauthComponent text = text := by
  apply percentEncode_literal otpauthComponent_safe
  intro char member
  have own := List.all_eq_true.mp plain char member
  simpa using own

/-- The text of a period: at most three digits, which are read back. -/
theorem display_period (period : TotpPeriod) :
    isLiteral period.display = true ∧
      parseUnsigned (2 ^ 64) period.display = some period.seconds ∧ period.display.length ≤ 3 :=
  CheckedParts.seconds checkedParts period.seconds (Nat.lt_succ_of_le period.bounds.2)

theorem otpauthUri_eq (item : AuthenticatorSecret) :
    item.otpauthUri = "otpauth://totp/".toList ++
      ((':' :: percentEncode otpauthComponent item.account) ++
        '?' :: ['&'].intercalate (item.uriParameters.map uriPart)) := by
  have algorithm := percentEncode_isLiteral (CheckedParts.algorithm checkedParts item.algorithm).1
  have digits := percentEncode_isLiteral (CheckedParts.digits checkedParts item.digits).1
  have period := percentEncode_isLiteral (display_period item.period).1
  have label : "otpauth://totp/:".toList = "otpauth://totp/".toList ++ [':'] := rfl
  have secretName : "?secret=".toList = '?' :: ("secret".toList ++ ['=']) := rfl
  have issuerName : "&issuer=".toList = '&' :: ("issuer".toList ++ ['=']) := rfl
  have algorithmName : "&algorithm=".toList = '&' :: ("algorithm".toList ++ ['=']) := rfl
  have digitsName : "&digits=".toList = '&' :: ("digits".toList ++ ['=']) := rfl
  have periodName : "&period=".toList = '&' :: ("period".toList ++ ['=']) := rfl
  unfold AuthenticatorSecret.otpauthUri AuthenticatorSecret.uriParameters
  rw [label, secretName, issuerName, algorithmName, digitsName, periodName]
  simp only [uriPart, List.intercalate, List.intersperse, List.map_cons, List.map_nil,
    List.flatten_cons, List.flatten_nil, algorithm, digits, period, List.append_assoc,
    List.cons_append, List.nil_append, List.append_nil]

theorem isEncoded_of_isLiteral {text : Str} (plain : isLiteral text = true) :
    ∀ char ∈ text, IsEncoded char := by
  rw [← percentEncode_isLiteral plain]
  exact isEncoded_percentEncode

theorem isLiteral_names (item : AuthenticatorSecret) :
    ∀ parameter ∈ item.uriParameters, isLiteral parameter.1 = true := by
  have names := CheckedParts.names checkedParts
  simp only [List.all_cons, List.all_nil, Bool.and_true, Bool.and_eq_true] at names
  intro parameter member
  simp only [AuthenticatorSecret.uriParameters, List.mem_cons, List.not_mem_nil, or_false] at member
  rcases member with rfl | rfl | rfl | rfl | rfl
  · exact names.1
  · exact names.2.1
  · exact names.2.2.1
  · exact names.2.2.2.1
  · exact names.2.2.2.2

theorem nodup_names (item : AuthenticatorSecret) : (item.uriParameters.map Prod.fst).Nodup :=
  CheckedParts.distinct checkedParts

theorem not_mem_uriPart {parameter : Str × Str} (plain : isLiteral parameter.1 = true) :
    '&' ∉ uriPart parameter ∧ ∀ char ∈ uriPart parameter, isWhitespace char = false := by
  have each : ∀ char ∈ uriPart parameter, IsEncoded char ∨ char = '=' := by
    intro char member
    rcases List.mem_append.mp member with name | rest
    · exact Or.inl (isEncoded_of_isLiteral plain char name)
    · rcases List.mem_cons.mp rest with rfl | value
      · exact Or.inr rfl
      · exact Or.inl (isEncoded_percentEncode char value)
  constructor
  · intro member
    rcases each '&' member with encoded | impossible
    · exact encoded.2.2.2.1 rfl
    · exact absurd impossible (by decide)
  · intro char member
    rcases each char member with encoded | rfl
    · exact encoded.2.1
    · decide

theorem put_new {key : Str} (value : Str) {parameters : List (Str × Str)}
    (fresh : key ∉ parameters.map Prod.fst) :
    DecodedOtpauthInput.put key value parameters = parameters ++ [(key, value)] := by
  induction parameters with
  | nil => rfl
  | cons head tail ih =>
    rw [List.map_cons, List.mem_cons, not_or] at fresh
    rw [DecodedOtpauthInput.put, if_neg (Ne.symm fresh.1), ih fresh.2, List.cons_append]

/-- Distinct parameters are read in their order. -/
theorem foldlM_uriPart (parameters before : List (Str × Str))
    (plain : ∀ parameter ∈ parameters, isLiteral parameter.1 = true)
    (distinct : ((before ++ parameters).map Prod.fst).Nodup) :
    (parameters.map uriPart).foldlM OtpauthInput.parameter before = .ok (before ++ parameters) := by
  induction parameters generalizing before with
  | nil => simp [pure, Except.pure]
  | cons head tail ih =>
    have fresh : head.1 ∉ before.map Prod.fst := by
      rw [List.map_append, List.map_cons] at distinct
      exact fun member => (List.nodup_append.mp distinct).2.2 _ member _ (List.mem_cons_self ..) rfl
    have first := parameter_encoded before head.2
      (percentEncode_isLiteral (plain head (List.mem_cons_self ..)))
    rw [List.map_cons, List.foldlM_cons, uriPart, first, put_new head.2 fresh]
    have rest := ih (before ++ [head]) (fun other member => plain other (List.mem_cons_of_mem _ member))
      (by simpa using distinct)
    rw [List.append_assoc] at rest
    exact rest

theorem decode_label (account : Str) :
    (UriComponent.path (':' :: percentEncode otpauthComponent account)).decode =
      .ok (':' :: account) := by
  have colon : String.utf8EncodeChar ':' = [0x3a] := by decide
  have bytes : percentDecode (':' :: percentEncode otpauthComponent account) =
      utf8Encode (':' :: account) := by
    show percentDecodeBytes (String.utf8EncodeChar ':' ++
      utf8Encode (percentEncode otpauthComponent account)) = String.utf8EncodeChar ':' ++ _
    rw [colon]
    show percentDecodeBytes (0x3a :: utf8Encode (percentEncode otpauthComponent account)) = _
    rw [percentDecodeBytes_cons (by decide)]
    exact congrArg (0x3a :: ·) (percentDecode_percentEncode otpauthComponent_safe account)
  unfold UriComponent.decode
  rw [show (UriComponent.path (':' :: percentEncode otpauthComponent account)).encoded =
    ':' :: percentEncode otpauthComponent account from rfl, bytes, utf8Decode_utf8Encode]
  rfl

/-- No letter of the fixed parts of a URI is white space. -/
theorem isWhitespace_literals {text : Str}
    (fixed : text ∈ ["otpauth://totp/:".toList, "?secret=".toList, "&issuer=".toList,
      "&algorithm=".toList, "&digits=".toList, "&period=".toList]) :
    ∀ char ∈ text, isWhitespace char = false := by
  intro char member
  have solid := List.all_eq_true.mp (CheckedParts.solid checkedParts) text fixed
  have own := List.all_eq_true.mp solid char member
  simpa using own

theorem trim_otpauthUri (item : AuthenticatorSecret) : trim item.otpauthUri = item.otpauthUri := by
  have encoded : ∀ text, ∀ char ∈ percentEncode otpauthComponent text, isWhitespace char = false :=
    fun text char member => (isEncoded_percentEncode char member).2.1
  have literal : ∀ text, isLiteral text = true → ∀ char ∈ text, isWhitespace char = false :=
    fun text plain char member => (isEncoded_of_isLiteral plain char member).2.1
  have join : ∀ left right : Str, (∀ char ∈ left, isWhitespace char = false) →
      (∀ char ∈ right, isWhitespace char = false) →
      ∀ char ∈ left ++ right, isWhitespace char = false := by
    intro left right first second char member
    exact (List.mem_append.mp member).elim (first char) (second char)
  apply trim_of_no_whitespace
  unfold AuthenticatorSecret.otpauthUri
  apply join _ _ _ (literal _ (display_period item.period).1)
  apply join _ _ _ (isWhitespace_literals (by simp only [List.mem_cons, true_or, or_true]))
  apply join _ _ _ (literal _ (CheckedParts.digits checkedParts item.digits).1)
  apply join _ _ _ (isWhitespace_literals (by simp only [List.mem_cons, true_or, or_true]))
  apply join _ _ _ (literal _ (CheckedParts.algorithm checkedParts item.algorithm).1)
  apply join _ _ _ (isWhitespace_literals (by simp only [List.mem_cons, true_or, or_true]))
  apply join _ _ _ (encoded item.issuer)
  apply join _ _ _ (isWhitespace_literals (by simp only [List.mem_cons, true_or, or_true]))
  apply join _ _ _ (encoded item.secret.asStr)
  apply join _ _ _ (isWhitespace_literals (by simp only [List.mem_cons, true_or, or_true]))
  apply join _ _ _ (encoded item.account)
  exact isWhitespace_literals (by simp only [List.mem_cons, true_or])

/-- A written URI is decoded to its account behind an empty label issuer, and its parameters. -/
theorem decode_otpauthUri (item : AuthenticatorSecret) :
    OtpauthInput.decode item.otpauthUri = .ok ⟨':' :: item.account, item.uriParameters⟩ := by
  have stripped : stripPrefix (trim item.otpauthUri) "otpauth://totp/".toList =
      some ((':' :: percentEncode otpauthComponent item.account) ++
        '?' :: ['&'].intercalate (item.uriParameters.map uriPart)) := by
    rw [trim_otpauthUri, otpauthUri_eq]
    exact stripPrefix_eq_some.mpr rfl
  have cut : splitOnce ((':' :: percentEncode otpauthComponent item.account) ++
      '?' :: ['&'].intercalate (item.uriParameters.map uriPart)) '?' =
        some (':' :: percentEncode otpauthComponent item.account,
          ['&'].intercalate (item.uriParameters.map uriPart)) := by
    apply splitOnce_eq_some.mpr
    refine ⟨rfl, ?_⟩
    intro member
    rcases List.mem_cons.mp member with impossible | inside
    · exact absurd impossible (by decide)
    · exact (isEncoded_percentEncode _ inside).2.2.1 rfl
  have parts : ((['&'].intercalate (item.uriParameters.map uriPart)).splitOn '&').filter
      (fun part => !part.isEmpty) = item.uriParameters.map uriPart := by
    rw [List.splitOn_intercalate '&']
    · apply List.filter_eq_self.mpr
      intro part member
      obtain ⟨parameter, _, rfl⟩ := List.mem_map.mp member
      simp [uriPart]
    · intro part member
      obtain ⟨parameter, listed, rfl⟩ := List.mem_map.mp member
      exact (not_mem_uriPart (isLiteral_names item parameter listed)).1
    · simp [AuthenticatorSecret.uriParameters]
  have folded := foldlM_uriPart item.uriParameters [] (isLiteral_names item) (nodup_names item)
  unfold OtpauthInput.decode
  rw [stripped]
  simp only [required, bind, Except.bind, cut, decode_label, parts]
  rw [folded]
  rfl

/-! ### Reading it back -/

theorem parameterNamed_uri (item : AuthenticatorSecret) (label : Str) :
    let input : DecodedOtpauthInput := ⟨label, item.uriParameters⟩
    input.parameterNamed "secret".toList = some item.secret.asStr ∧
    input.parameterNamed "issuer".toList = some item.issuer ∧
    input.parameterNamed "algorithm".toList = some item.algorithm.asStr ∧
    input.parameterNamed "digits".toList = some item.digits.display ∧
    input.parameterNamed "period".toList = some item.period.display :=
  ⟨rfl, rfl, rfl, rfl, rfl⟩

theorem protocol_fromUri (item : AuthenticatorSecret) (label : Str) :
    ProtocolParameters.fromUri ⟨label, item.uriParameters⟩ =
      .ok ⟨item.algorithm, item.digits, item.period⟩ := by
  obtain ⟨_, _, algorithm, digits, period⟩ := parameterNamed_uri item label
  have algorithmRead := (CheckedParts.algorithm checkedParts item.algorithm).2.1
  obtain ⟨value, digitsText, digitsRead⟩ :=
    Option.bind_eq_some_iff.mp (CheckedParts.digits checkedParts item.digits).2.1
  have periodText := (display_period item.period).2.1
  have periodRead : TotpPeriod.tryFrom item.period.seconds = some item.period := by
    rw [TotpPeriod.tryFrom, dif_pos item.period.bounds]
  unfold ProtocolParameters.fromUri
  simp only [algorithm, digits, period, Option.getD_some, algorithmRead, digitsText, digitsRead,
    periodText, periodRead, required, bind, Except.bind]
  rfl

/-- A written URI is read as the item, without its website and its backup codes. -/
theorem fromOtpauthUri_otpauthUri [UrlParser] {source item : AuthenticatorSecret}
    (normalized : source.normalize = .ok item) :
    ∃ websiteUrl, AuthenticatorSecret.fromOtpauthUri item.otpauthUri =
      .ok { item with websiteUrl := websiteUrl, backupCodes := [] } := by
  obtain ⟨secret, parsed, named, same⟩ := AuthenticatorSecret.normalize_eq_ok.mp normalized
  have secretSame : item.secret = secret := by rw [same]
  have issuerSame : trim item.issuer = item.issuer := by
    rw [same]
    exact trim_trim source.issuer
  have accountSame : trim item.account = item.account := by
    rw [same]
    exact trim_trim source.account
  have issuerFilled : trim item.issuer ≠ [] := by
    rw [issuerSame, same]
    exact named
  have reparsed : TotpSecret.parse item.secret.asStr = .ok item.secret := by
    rw [secretSame]
    exact TotpSecret.parse_asStr parsed
  obtain ⟨secretNamed, issuerNamed, _⟩ := parameterNamed_uri item (':' :: item.account)
  have checked : OtpauthInput.check ⟨':' :: item.account, item.uriParameters⟩ =
      .ok ⟨⟨':' :: item.account, item.uriParameters⟩,
        ⟨item.algorithm, item.digits, item.period⟩, item.secret⟩ := by
    unfold OtpauthInput.check
    simp only [secretNamed, protocol_fromUri, reparsed, required, bind, Except.bind]
    rfl
  have label : splitOnce (':' :: item.account) ':' = some ([], item.account) :=
    splitOnce_eq_some.mpr ⟨rfl, by simp⟩
  obtain ⟨websiteUrl, inferred⟩ := AuthenticatorSecret.applyInferredWebsiteUrlIfEmpty_ok
    { item with websiteUrl := [], backupCodes := [] }
  refine ⟨trim websiteUrl, ?_⟩
  have finished : ({ item with websiteUrl, backupCodes := [] } : AuthenticatorSecret).normalize =
      .ok { item with websiteUrl := trim websiteUrl, backupCodes := [] } := by
    rw [AuthenticatorSecret.normalize_eq_ok]
    refine ⟨item.secret, reparsed, issuerFilled, ?_⟩
    rw [issuerSame, accountSame]
    rfl
  unfold AuthenticatorSecret.fromOtpauthUri OtpauthInput.finish
  rw [decode_otpauthUri]
  simp only [checked, bind, Except.bind, label, issuerNamed, Option.getD_some, inferred,
    Except.mapError, finished]

theorem utf8Len_eq (text : Str) : utf8Len text = (utf8Encode text).length :=
  (length_utf8Encode text).symm

theorem utf8Len_append (left right : Str) : utf8Len (left ++ right) = utf8Len left + utf8Len right := by
  simp [utf8Len_eq]

theorem utf8Len_isLiteral {text : Str} (plain : isLiteral text = true) :
    utf8Len text = text.length := by
  rw [utf8Len_eq, utf8Encode_ascii, List.length_map]
  intro char member
  exact (isEncoded_of_isLiteral plain char member).1

/-- A written URI fits the buffer that is sized for it. -/
theorem utf8Len_otpauthUri_le (item : AuthenticatorSecret) :
    utf8Len item.otpauthUri ≤ item.otpauthUriCapacity := by
  have encoded : ∀ text, utf8Len (percentEncode otpauthComponent text) ≤ 3 * utf8Len text := by
    intro text
    rw [utf8Len_eq, utf8Len_eq]
    exact length_utf8Encode_percentEncode_le otpauthComponent_safe text
  have algorithm := (CheckedParts.algorithm checkedParts item.algorithm).2.2
  have digits := (CheckedParts.digits checkedParts item.digits).2.2
  have period : utf8Len item.period.display ≤ 3 := by
    rw [utf8Len_isLiteral (display_period item.period).1]
    exact (display_period item.period).2.2
  have account := encoded item.account
  have secret := encoded item.secret.asStr
  have issuer := encoded item.issuer
  obtain ⟨lead, secretName, issuerName, algorithmName, digitsName, periodName⟩ :=
    CheckedParts.lengths checkedParts
  unfold AuthenticatorSecret.otpauthUri AuthenticatorSecret.otpauthUriCapacity
  simp only [utf8Len_append, lead, secretName, issuerName, algorithmName, digitsName, periodName,
    digits, URI_LITERAL_BYTES, URI_PARAMETER_BYTES, PERCENT_ENCODED_BYTES_PER_BYTE]
  omega

namespace TestSupport

/-- A parser that finds no host in any text. -/
scoped instance hostless : UrlParser where
  hostStr _ := none

def labelled : AuthenticatorSecret where
  issuer := "a:b&c=d%e 服".toList
  account := "x:y?z#w+%3A".toList
  websiteUrl := []
  secret := ⟨"JBSWY3DPEHPK3PXP".toList⟩
  algorithm := .sha256
  digits := .eight
  period := ⟨45, by decide⟩
  backupCodes := []

end TestSupport

end Nook.Secrets
