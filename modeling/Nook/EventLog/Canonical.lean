import Nook.EventLog.Event
import Nook.Lib.Except

set_option autoImplicit false

namespace Nook.EventLog

open Nook.Lib

/-! ### Text that is cut and put together -/

/-- The text before `trail`, if it ends so. -/
def stripSuffix (raw trail : Str) : Option Str :=
  if trail.isSuffixOf raw then some (raw.take (raw.length - trail.length)) else none

/-- The texts before and after the first `separator`. -/
def splitOnce (raw : Str) (separator : Char) : Option (Str × Str) :=
  match raw.dropWhile (· != separator) with
  | [] => none
  | _ :: after => some (raw.takeWhile (· != separator), after)

theorem stripPrefix_eq_some {raw lead rest : Str} :
    stripPrefix raw lead = some rest ↔ raw = lead ++ rest := by
  unfold stripPrefix startsWith
  constructor
  · intro stripped
    split at stripped
    · rename_i starts
      have cut := List.prefix_iff_eq_append.mp (List.isPrefixOf_iff_prefix.mp starts)
      rw [← Option.some.inj stripped, cut]
    · cases stripped
  · intro same
    subst same
    rw [if_pos (List.isPrefixOf_iff_prefix.mpr (List.prefix_append lead rest)), List.drop_left]

/-- A text starts with no prefix of another first letter. -/
theorem stripPrefix_eq_none {raw lead : Str} (differs : raw.head? ≠ lead.head?)
    (filled : lead ≠ []) : stripPrefix raw lead = none := by
  cases stripped : stripPrefix raw lead with
  | none => rfl
  | some rest =>
    rw [stripPrefix_eq_some.mp stripped, List.head?_append_of_ne_nil _ filled] at differs
    exact absurd rfl differs

theorem stripSuffix_eq_some {raw trail rest : Str} :
    stripSuffix raw trail = some rest ↔ raw = rest ++ trail := by
  unfold stripSuffix
  constructor
  · intro stripped
    split at stripped
    · rename_i ends
      have cut := List.suffix_iff_eq_append.mp (List.isSuffixOf_iff_suffix.mp ends)
      rw [← Option.some.inj stripped, cut]
    · cases stripped
  · intro same
    subst same
    rw [if_pos (List.isSuffixOf_iff_suffix.mpr (List.suffix_append rest trail))]
    simp

theorem splitOnce_eq_some {raw before after : Str} {separator : Char} :
    splitOnce raw separator = some (before, after) ↔
      raw = before ++ separator :: after ∧ separator ∉ before := by
  have free : ∀ char ∈ raw.takeWhile (· != separator), (char != separator) = true :=
    fun char member => List.mem_takeWhile_imp (p := (· != separator)) member
  constructor
  · intro split
    unfold splitOnce at split
    have whole := List.takeWhile_append_dropWhile (p := (· != separator)) (l := raw)
    cases dropped : raw.dropWhile (· != separator) with
    | nil =>
      rw [dropped] at split
      cases split
    | cons head rest =>
      have stops : (head != separator) = false := by
        have nonempty : raw.dropWhile (· != separator) ≠ [] := by simp [dropped]
        have first := List.head_dropWhile_not (· != separator) nonempty
        simpa [dropped] using first
      have same : head = separator := by simpa using stops
      subst same
      rw [dropped] at split whole
      cases split
      exact ⟨whole.symm, fun member => by simpa using free head member⟩
  · rintro ⟨same, absent⟩
    have passes : ∀ char ∈ before, (char != separator) = true := by
      intro char member
      have apart : char ≠ separator := fun equal => absent (equal ▸ member)
      simpa using apart
    unfold splitOnce
    rw [same, List.dropWhile_append_of_pos passes, List.takeWhile_append_of_pos passes]
    simp

/-- A text is cut at its first separator in one way only. -/
theorem append_cons_inj_first {separator : Char} {left right left' right' : Str}
    (absent : separator ∉ left) (absent' : separator ∉ left')
    (same : left ++ separator :: right = left' ++ separator :: right') :
    left = left' ∧ right = right' := by
  have cut : splitOnce (left ++ separator :: right) separator = some (left, right) :=
    splitOnce_eq_some.mpr ⟨rfl, absent⟩
  have cut' := splitOnce_eq_some.mpr ⟨same, absent'⟩
  exact Prod.mk.inj (Option.some.inj (cut.symm.trans cut'))

/-- A text is cut at its last separator in one way only. -/
theorem append_cons_inj_last {separator : Char} {left right left' right' : Str}
    (absent : separator ∉ right) (absent' : separator ∉ right')
    (same : left ++ separator :: right = left' ++ separator :: right') :
    left = left' ∧ right = right' := by
  have reversed := congrArg List.reverse same
  simp only [List.reverse_append, List.reverse_cons, List.append_assoc, List.singleton_append]
    at reversed
  have ⟨ends, starts⟩ := append_cons_inj_first (by simpa using absent) (by simpa using absent')
    reversed
  exact ⟨List.reverse_inj.mp starts, List.reverse_inj.mp ends⟩

theorem not_mem_of_mem_splitOn {text part : Str} {separator : Char}
    (member : part ∈ text.splitOn separator) : separator ∉ part := by
  induction text generalizing part with
  | nil =>
    simp only [List.splitOn_nil, List.mem_singleton] at member
    simp [member]
  | cons head rest ih =>
    rw [List.splitOn_cons_eq_if_modifyHead] at member
    split at member
    · rcases List.mem_cons.mp member with rfl | later
      · simp
      · exact ih later
    · rename_i apart
      cases parts : rest.splitOn separator with
      | nil => simp [parts] at member
      | cons first others =>
        rw [parts, List.modifyHead_cons] at member
        rcases List.mem_cons.mp member with rfl | later
        · have kept : separator ∉ first := ih (parts ▸ List.mem_cons_self ..)
          have differs : separator ≠ head := fun same => apart (by simp [same])
          simp [differs, kept]
        · exact ih (parts ▸ List.mem_cons_of_mem _ later)

/-! ### Trimming -/

/-- Trimming what starts with a letter only cuts at the end. -/
theorem trim_eq_rdropWhile {text : Str} (starts : ∀ char ∈ text.head?, isWhitespace char = false) :
    trim text = text.rdropWhile isWhitespace := by
  have front : text.dropWhile isWhitespace = text := by
    cases text with
    | nil => rfl
    | cons head tail =>
      have plain : isWhitespace head = false := starts head rfl
      simp [plain]
  unfold trim
  rw [front]
  rfl

theorem trim_eq_self_iff {text : Str} (starts : ∀ char ∈ text.head?, isWhitespace char = false) :
    trim text = text ↔ ∀ char ∈ text.getLast?, isWhitespace char = false := by
  rw [trim_eq_rdropWhile starts, List.rdropWhile_eq_self_iff]
  constructor
  · intro last char member
    obtain ⟨nonempty, same⟩ := List.mem_getLast?_eq_getLast member
    rw [same]
    simpa using last nonempty
  · intro last nonempty
    have plain := last (text.getLast nonempty) (List.getLast?_eq_some_getLast nonempty)
    simp [plain]

theorem trim_trim (raw : Str) : trim (trim raw) = trim raw := by
  have starts : ∀ char ∈ (trim raw).head?, isWhitespace char = false := by
    intro char first
    have kept : trim raw <+: raw.dropWhile isWhitespace := List.rdropWhile_prefix isWhitespace _
    have head : (raw.dropWhile isWhitespace).head? = some char := by
      obtain ⟨rest, whole⟩ := kept
      rw [← whole, List.head?_append_of_ne_nil]
      · exact first
      · intro empty
        rw [empty] at first
        cases first
    have nonempty : raw.dropWhile isWhitespace ≠ [] := by
      intro empty
      rw [empty] at head
      cases head
    have stops := List.head_dropWhile_not isWhitespace nonempty
    rw [List.head?_eq_some_head nonempty] at head
    rwa [Option.some.inj head] at stops
  apply (trim_eq_self_iff starts).mpr
  intro char last
  obtain ⟨nonempty, same⟩ := List.mem_getLast?_eq_getLast last
  have stops := List.rdropWhile_last_not isWhitespace (raw.dropWhile isWhitespace) nonempty
  rw [same]
  exact Bool.not_eq_true _ ▸ stops

theorem trim_of_no_whitespace {text : Str} (blank : ∀ char ∈ text, isWhitespace char = false) :
    trim text = text := by
  apply (trim_eq_self_iff _).mpr
  · exact fun char last => blank char (List.mem_of_mem_getLast? last)
  · exact fun char first => blank char (List.mem_of_mem_head? first)

/-! ### The URL-safe letters -/

/-- A letter of the URL-safe base64 alphabet. -/
def isUrlSafe (char : Char) : Bool := char.isAlphanum || char == '-' || char == '_'

theorem isWhitespace_of_isUrlSafe {char : Char} (safe : isUrlSafe char = true) :
    isWhitespace char = false := by
  simp only [isUrlSafe, Char.isAlphanum, Char.isAlpha, Char.isUpper, Char.isLower, Char.isDigit,
    Bool.or_eq_true, Bool.and_eq_true, decide_eq_true_eq, beq_iff_eq, UInt32.le_iff_toNat_le,
    Char.ext_iff, ← UInt32.toNat_inj] at safe
  simp only [isWhitespace, Bool.or_eq_false_iff, Bool.and_eq_false_iff, decide_eq_false_iff_not,
    beq_eq_false_iff_ne]
  simp only [Char.reduceVal, UInt32.reduceToNat, Char.toNat_val] at safe
  omega

theorem not_mem_of_isUrlSafe {text : Str} {separator : Char}
    (safe : ∀ char ∈ text, isUrlSafe char = true) (apart : isUrlSafe separator = false) :
    separator ∉ text := by
  intro member
  rw [safe separator member] at apart
  cases apart

theorem trim_of_isUrlSafe {text : Str} (safe : ∀ char ∈ text, isUrlSafe char = true) :
    trim text = text :=
  trim_of_no_whitespace fun char member => isWhitespace_of_isUrlSafe (safe char member)

theorem isUrlSafe_append {left right : Str} (safe : ∀ char ∈ left, isUrlSafe char = true)
    (safe' : ∀ char ∈ right, isUrlSafe char = true) :
    ∀ char ∈ left ++ right, isUrlSafe char = true := by
  intro char member
  exact (List.mem_append.mp member).elim (safe char) (safe' char)

namespace CompactToken

theorem isUrlSafe_of_isValid {token : Str} (valid : CompactToken.isValid token = true) :
    ∀ char ∈ token, isUrlSafe char = true := by
  unfold CompactToken.isValid at valid
  exact List.all_eq_true.mp (Bool.and_eq_true_iff.mp valid).2

theorem parse_eq_ok {raw token : Str} :
    CompactToken.parse raw = .ok token ↔ trim raw = token ∧ CompactToken.isValid token = true := by
  unfold CompactToken.parse
  by_cases valid : CompactToken.isValid (trim raw) = true
  · simp only [valid, if_true, Except.ok.injEq]
    constructor
    · intro same
      exact ⟨same, same ▸ valid⟩
    · exact fun parsed => parsed.1
  · simp only [valid]
    constructor
    · intro refused
      cases refused
    · rintro ⟨rfl, valid'⟩
      exact absurd valid' valid

end CompactToken

theorem isUrlSafe_of_isAsciiHexdigit {char : Char} (digit : isAsciiHexdigit char = true) :
    isUrlSafe char = true := by
  simp only [isAsciiHexdigit, Char.isDigit, Bool.or_eq_true, Bool.and_eq_true, decide_eq_true_eq,
    Char.le_def, UInt32.le_iff_toNat_le] at digit
  simp only [isUrlSafe, Char.isAlphanum, Char.isAlpha, Char.isUpper, Char.isLower, Char.isDigit,
    Bool.or_eq_true, Bool.and_eq_true, decide_eq_true_eq, UInt32.le_iff_toNat_le]
  simp only [Char.reduceVal, UInt32.reduceToNat] at digit ⊢
  omega

namespace AppId

variable {raw : Str} {id : AppId}

theorem parse_eq_ok : AppId.parse raw = .ok id ↔ trim raw = id.asStr ∧ AppId.isValid id.asStr := by
  unfold AppId.parse
  by_cases valid : AppId.isValid (trim raw) = true
  · simp only [valid, if_true, Except.ok.injEq]
    constructor
    · rintro rfl
      exact ⟨rfl, valid⟩
    · exact fun read => Text.asStr_injective read.1
  · simp only [valid]
    constructor
    · intro refused
      cases refused
    · rintro ⟨same, valid'⟩
      exact absurd (same ▸ valid') valid

/-- A parsed id is parsed from its own text. -/
theorem parse_asStr (parsed : AppId.parse raw = .ok id) : AppId.parse id.asStr = .ok id := by
  have valid := (parse_eq_ok.mp parsed).2
  have digits : ∀ char ∈ id.asStr, isAsciiHexdigit char = true :=
    List.all_eq_true.mp (Bool.and_eq_true_iff.mp valid).2
  refine parse_eq_ok.mpr ⟨trim_of_isUrlSafe fun char member => ?_, valid⟩
  exact isUrlSafe_of_isAsciiHexdigit (digits char member)

theorem head?_ne (parsed : AppId.parse raw = .ok id) {letter : Char}
    (other : isAsciiHexdigit letter = false) : id.asStr.head? ≠ some letter := by
  intro first
  have digits := (Bool.and_eq_true_iff.mp (parse_eq_ok.mp parsed).2).2
  have digit := List.all_eq_true.mp digits letter (List.mem_of_mem_head? first)
  rw [digit] at other
  cases other

end AppId

namespace AuthKeyId

/-- The digest behind the prefix. -/
def digestFrom (id : Str) : Except ValidationError Str :=
  match stripPrefix id "key_".toList with
  | none => .error .authKeyIdInvalid
  | some digest => if isDigest digest then .ok digest else .error .authKeyIdInvalid

def isValid (id : Str) : Bool := (digestFrom id).isOk

def parse (raw : Str) : Except ValidationError AuthKeyId := do
  fromDigestHex (← digestFrom (trim raw))

variable {raw : Str} {id : AuthKeyId}

theorem digestFrom_eq_ok {digest : Str} :
    digestFrom raw = .ok digest ↔ raw = "key_".toList ++ digest ∧ isDigest digest = true := by
  unfold digestFrom
  constructor
  · intro found
    split at found
    · cases found
    · rename_i own stripped
      split at found
      · rename_i valid
        cases found
        exact ⟨stripPrefix_eq_some.mp stripped, valid⟩
      · cases found
  · rintro ⟨written, valid⟩
    simp only [stripPrefix_eq_some.mpr written, valid, if_true]

theorem isValid_iff : isValid raw = true ↔
    ∃ digest, raw = "key_".toList ++ digest ∧ isDigest digest = true := by
  unfold isValid
  cases found : digestFrom raw with
  | error cause =>
    simp only [Except.isOk, Except.toBool, Bool.false_eq_true, false_iff, not_exists]
    intro digest written
    rw [digestFrom_eq_ok.mpr written] at found
    cases found
  | ok digest =>
    simp only [Except.isOk, Except.toBool, true_iff]
    exact ⟨digest, digestFrom_eq_ok.mp found⟩

theorem parse_eq_ok : parse raw = .ok id ↔ trim raw = id.asStr ∧ isValid id.asStr = true := by
  rw [isValid_iff]
  unfold parse
  constructor
  · intro parsed
    obtain ⟨digest, found, made⟩ := bind_eq_ok.mp parsed
    obtain ⟨written, valid⟩ := digestFrom_eq_ok.mp found
    rw [fromDigestHex, if_pos valid] at made
    cases made
    exact ⟨written, digest, rfl, valid⟩
  · rintro ⟨same, digest, written, valid⟩
    rw [same, digestFrom_eq_ok.mpr ⟨written, valid⟩]
    change fromDigestHex digest = _
    rw [fromDigestHex, if_pos valid]
    exact congrArg Except.ok (Text.asStr_injective written.symm)

theorem isUrlSafe_lead : ∀ char ∈ "key_".toList, isUrlSafe char = true :=
  List.all_eq_true.mp (by decide)

theorem trim_of_isValid (valid : isValid raw = true) : trim raw = raw := by
  obtain ⟨digest, written, digits⟩ := isValid_iff.mp valid
  have safe : ∀ char ∈ digest, isUrlSafe char = true := fun char member =>
    isUrlSafe_of_isAsciiHexdigit
      (List.all_eq_true.mp (Bool.and_eq_true_iff.mp digits).2 char member)
  apply trim_of_isUrlSafe
  rw [written]
  exact isUrlSafe_append isUrlSafe_lead safe

/-- A parsed id is parsed from its own text. -/
theorem parse_asStr (parsed : parse raw = .ok id) : parse id.asStr = .ok id := by
  have valid := (parse_eq_ok.mp parsed).2
  exact parse_eq_ok.mpr ⟨trim_of_isValid valid, valid⟩

theorem head?_of_parse (parsed : parse raw = .ok id) : id.asStr.head? = some 'k' := by
  obtain ⟨digest, written, _⟩ := isValid_iff.mp (parse_eq_ok.mp parsed).2
  rw [written]
  rfl

end AuthKeyId

namespace StoreId

theorem isUrlSafe_lead : ∀ char ∈ "store_".toList, isUrlSafe char = true :=
  List.all_eq_true.mp (by decide)

theorem fromRawToken_eq_ok {raw : Str} {id : StoreId} (built : fromRawToken raw = .ok id) :
    ∃ token, CompactToken.isValid token = true ∧ id.asStr = "store_".toList ++ token := by
  obtain ⟨token, parsed, rest⟩ := bind_eq_ok.mp built
  split at rest
  · cases rest
  · cases rest
    exact ⟨token, (CompactToken.parse_eq_ok.mp parsed).2, rfl⟩

/-- Every parsed store id is written as the prefix and a token. -/
theorem parse_eq_ok {raw : Str} {id : StoreId} (parsed : parse raw = .ok id) :
    ∃ token, CompactToken.isValid token = true ∧ id.asStr = "store_".toList ++ token := by
  unfold parse at parsed
  simp only at parsed
  split at parsed
  · exact fromRawToken_eq_ok parsed
  · exact fromRawToken_eq_ok parsed

theorem isUrlSafe_of_parsed {raw : Str} {id : StoreId} (parsed : parse raw = .ok id) :
    ∀ char ∈ id.asStr, isUrlSafe char = true := by
  obtain ⟨token, valid, same⟩ := parse_eq_ok parsed
  rw [same]
  exact isUrlSafe_append isUrlSafe_lead (CompactToken.isUrlSafe_of_isValid valid)

/-- A parsed id is parsed from its own text. -/
theorem parse_asStr {raw : Str} {id : StoreId} (parsed : parse raw = .ok id) :
    parse id.asStr = .ok id := by
  have built : ∃ token, CompactToken.isValid token = true ∧ (AppId.parse token).isOk = false ∧
      id.asStr = "store_".toList ++ token := by
    have split : ∀ raw, fromRawToken raw = .ok id → ∃ token,
        CompactToken.isValid token = true ∧ (AppId.parse token).isOk = false ∧
          id.asStr = "store_".toList ++ token := by
      intro raw made
      obtain ⟨token, read, rest⟩ := bind_eq_ok.mp made
      cases reserved : AppId.parse token with
      | ok appId =>
        rw [reserved] at rest
        cases rest
      | error cause =>
        rw [reserved] at rest
        cases rest
        exact ⟨token, (CompactToken.parse_eq_ok.mp read).2, by rw [reserved]; rfl, rfl⟩
    unfold parse at parsed
    simp only at parsed
    split at parsed
    · exact split _ parsed
    · exact split _ parsed
  obtain ⟨token, valid, unreserved, same⟩ := built
  have safe := CompactToken.isUrlSafe_of_isValid valid
  have kept : trim id.asStr = id.asStr := by
    rw [same]
    exact trim_of_isUrlSafe (isUrlSafe_append isUrlSafe_lead safe)
  have stripped : stripPrefix id.asStr "store_".toList = some token := stripPrefix_eq_some.mpr same
  have read : CompactToken.parse token = .ok token :=
    CompactToken.parse_eq_ok.mpr ⟨trim_of_isUrlSafe safe, valid⟩
  unfold parse
  simp only [kept, stripped, fromRawToken, read, bind, Except.bind]
  cases reserved : AppId.parse token with
  | ok appId => simp [reserved, Except.isOk, Except.toBool] at unreserved
  | error cause =>
    simp only [Except.ok.injEq]
    exact Text.asStr_injective same.symm

end StoreId

namespace IdentityId

def parse (raw : Str) : Except ValidationError IdentityId :=
  let trimmed := trim raw
  match stripPrefix trimmed "idn_".toList with
  | none => .error .storeIdInvalid
  | some suffix =>
    if CompactToken.isValid suffix then .ok ⟨trimmed⟩ else .error .storeIdInvalid

/-- An id as it is generated and parsed. A stored one is read as any text. -/
def IsCanonical (id : IdentityId) : Prop :=
  ∃ token, CompactToken.isValid token = true ∧ id.asStr = "idn_".toList ++ token

theorem isUrlSafe_lead : ∀ char ∈ "idn_".toList, isUrlSafe char = true :=
  List.all_eq_true.mp (by decide)

theorem IsCanonical.isUrlSafe {id : IdentityId} (canonical : id.IsCanonical) :
    ∀ char ∈ id.asStr, isUrlSafe char = true := by
  obtain ⟨token, valid, same⟩ := canonical
  rw [same]
  exact isUrlSafe_append isUrlSafe_lead (CompactToken.isUrlSafe_of_isValid valid)

theorem isCanonical_of_parse {raw : Str} {id : IdentityId} (parsed : parse raw = .ok id) :
    id.IsCanonical := by
  unfold parse at parsed
  simp only at parsed
  split at parsed
  · cases parsed
  · rename_i suffix stripped
    split at parsed
    · rename_i valid
      cases parsed
      exact ⟨suffix, valid, stripPrefix_eq_some.mp stripped⟩
    · cases parsed

theorem IsCanonical.parse_asStr {id : IdentityId} (canonical : id.IsCanonical) :
    parse id.asStr = .ok id := by
  have kept : trim id.asStr = id.asStr := trim_of_isUrlSafe canonical.isUrlSafe
  obtain ⟨token, valid, same⟩ := canonical
  have stripped : stripPrefix id.asStr "idn_".toList = some token := stripPrefix_eq_some.mpr same
  unfold parse
  simp only [kept, stripped, valid, if_true]

end IdentityId

/-- The URL-safe engine decodes texts of its own alphabet only. -/
def UrlSafeDecoding [External] : Prop :=
  ∀ text bytes, External.urlSafeNoPadDecode text = some bytes →
    ∀ char ∈ text, isUrlSafe char = true

namespace EventId

variable [External] {raw : Str} {id : EventId}

theorem parse_eq_ok :
    parse raw = .ok id ↔ ∃ encoded bytes, trim raw = "sha256u:".toList ++ encoded ∧
      utf8Len encoded = 43 ∧ External.urlSafeNoPadDecode encoded = some bytes ∧
      bytes.length = 32 ∧ id.asStr = trim raw := by
  unfold parse
  simp only
  constructor
  · intro parsed
    split at parsed
    · cases parsed
    · rename_i encoded stripped
      have written := stripPrefix_eq_some.mp stripped
      split at parsed
      · cases parsed
      · rename_i long
        split at parsed
        · cases parsed
        · rename_i bytes decoded
          split at parsed
          · cases parsed
          · rename_i wide
            cases parsed
            exact ⟨encoded, bytes, written, not_not.mp long, decoded, not_not.mp wide,
              written.symm⟩
  · rintro ⟨encoded, bytes, written, long, decoded, wide, same⟩
    have stripped := stripPrefix_eq_some.mpr written
    simp only [stripped, long, ne_eq, not_true_eq_false, if_false, decoded, wide]
    rw [← written, ← same]

/-- The digest of an id, without the prefix if it has it. -/
def encodedDigest (id : EventId) : Str :=
  (stripPrefix id.asStr "sha256u:".toList).getD id.asStr

theorem asStr_of_parse (parsed : parse raw = .ok id) : id.asStr = trim raw := by
  obtain ⟨_, _, _, _, _, _, same⟩ := parse_eq_ok.mp parsed
  exact same

theorem lead_encodedDigest (parsed : parse raw = .ok id) :
    "sha256u:".toList ++ id.encodedDigest = trim raw := by
  obtain ⟨encoded, _, written, _, _, _, same⟩ := parse_eq_ok.mp parsed
  have stripped : stripPrefix id.asStr "sha256u:".toList = some encoded :=
    stripPrefix_eq_some.mpr (same.trans written)
  rw [encodedDigest, stripped, Option.getD_some, written]

theorem isUrlSafe_encodedDigest (decoding : UrlSafeDecoding) (parsed : parse raw = .ok id) :
    ∀ char ∈ id.encodedDigest, isUrlSafe char = true := by
  obtain ⟨encoded, bytes, written, _, decoded, _, _⟩ := parse_eq_ok.mp parsed
  have same := lead_encodedDigest parsed
  rw [written] at same
  rw [List.append_cancel_left same]
  exact decoding encoded bytes decoded

/-- A parsed id is parsed from its own text. -/
theorem parse_asStr (decoding : UrlSafeDecoding) (parsed : parse raw = .ok id) :
    parse id.asStr = .ok id := by
  have lead : ∀ char ∈ "sha256u:".toList, isWhitespace char = false := by
    have plain : "sha256u:".toList.all fun char => !isWhitespace char := by decide
    intro char member
    simpa using List.all_eq_true.mp plain char member
  have kept : trim id.asStr = id.asStr := by
    rw [asStr_of_parse parsed, ← lead_encodedDigest parsed]
    apply trim_of_no_whitespace
    intro char member
    rcases List.mem_append.mp member with first | rest
    · exact lead char first
    · exact isWhitespace_of_isUrlSafe (isUrlSafe_encodedDigest decoding parsed char rest)
  obtain ⟨encoded, bytes, written, long, decoded, wide, same⟩ := parse_eq_ok.mp parsed
  exact parse_eq_ok.mpr ⟨encoded, bytes, by rw [kept, same, written], long, decoded, wide,
    kept.symm⟩

end EventId

end Nook.EventLog
