import Nook.Secrets.ProviderNotes

set_option autoImplicit false

namespace Nook.Secrets

open Nook.EventLog FingerprintText

/-! ### Trimmed texts -/

/-- A text that neither starts nor ends with white space. -/
structure Trimmed (text : Str) : Prop where
  starts : ∀ char ∈ text.head?, isWhitespace char = false
  ends : ∀ char ∈ text.getLast?, isWhitespace char = false

theorem trimmed_trim (raw : Str) : Trimmed (trim raw) := by
  have starts : ∀ char ∈ (trim raw).head?, isWhitespace char = false := by
    intro char first
    have kept : trim raw <+: raw.dropWhile isWhitespace := List.rdropWhile_prefix isWhitespace _
    have nonempty : raw.dropWhile isWhitespace ≠ [] := by
      intro empty
      rw [empty, List.prefix_nil] at kept
      rw [kept] at first
      cases first
    have head : (raw.dropWhile isWhitespace).head? = some char := by
      obtain ⟨rest, whole⟩ := kept
      rw [← whole, List.head?_append, Option.mem_def.mp first]
      rfl
    have stops := List.head_dropWhile_not isWhitespace nonempty
    rw [List.head?_eq_some_head nonempty] at head
    rwa [Option.some.inj head] at stops
  exact ⟨starts, (trim_eq_self_iff starts).mp (trim_trim raw)⟩

theorem Trimmed.trim_eq {text : Str} (trimmed : Trimmed text) : trim text = text :=
  (trim_eq_self_iff trimmed.starts).mpr trimmed.ends

theorem trimmed_nil : Trimmed [] where
  starts char first := by cases first
  ends char last := by cases last

theorem Trimmed.append {left right : Str} (first : Trimmed left) (second : Trimmed right)
    (filled : left ≠ []) (filled' : right ≠ []) (middle : Str) : Trimmed (left ++ middle ++ right) where
  starts char member := by
    rw [List.append_assoc, List.head?_append_of_ne_nil _ filled] at member
    exact first.starts char member
  ends char member := by
    rw [List.getLast?_append_of_ne_nil _ filled'] at member
    exact second.ends char member

/-! ### CR LF -/

/-- A text without CR LF. -/
def Unix (text : Str) : Prop := ¬"\r\n".toList <:+: text

theorem Unix.of_infix {text part : Str} (unix : Unix text) (inside : part <:+: text) : Unix part :=
  fun found => unix (found.trans inside)

theorem foldCrlf_cons_of_ne {char : Char} (rest : Str) (other : char ≠ '\r') :
    foldCrlf (char :: rest) = char :: foldCrlf rest := by
  rw [foldCrlf, if_neg fun both => other both.1]

theorem foldCrlf_crlf (rest : Str) : foldCrlf ('\r' :: '\n' :: rest) = '\n' :: foldCrlf rest := by
  rw [foldCrlf, if_pos ⟨rfl, rfl⟩, foldCrlf_cons_of_ne rest (by decide)]

theorem foldCrlf_append {left : Str} (right : Str) (ends : left.getLast? ≠ some '\r') :
    foldCrlf (left ++ right) = foldCrlf left ++ foldCrlf right := by
  induction left with
  | nil => rfl
  | cons char rest ih =>
    cases rest with
    | nil =>
      have other : char ≠ '\r' := by
        rintro rfl
        exact ends rfl
      rw [List.singleton_append, foldCrlf_cons_of_ne right other, foldCrlf_cons_of_ne [] other]
      rfl
    | cons next rest =>
      have folded := ih (by simpa using ends)
      rw [List.cons_append, foldCrlf, foldCrlf, folded]
      by_cases pair : char = '\r' ∧ (next :: rest).head? = some '\n'
      · rw [if_pos pair, if_pos (by simpa using pair)]
      · rw [if_neg pair, if_neg (by simpa using pair)]
        rfl

theorem foldCrlf_eq_self_of_unix {text : Str} (unix : Unix text) : foldCrlf text = text := by
  induction text with
  | nil => rfl
  | cons char rest ih =>
    have apart : ¬(char = '\r' ∧ rest.head? = some '\n') := by
      rintro ⟨rfl, next⟩
      obtain ⟨tail, rfl⟩ := List.head?_eq_some_iff.mp next
      exact unix ⟨[], tail, rfl⟩
    rw [foldCrlf, if_neg apart, ih (unix.of_infix (List.suffix_cons char rest).isInfix)]

theorem length_foldCrlf_le (text : Str) : (foldCrlf text).length ≤ text.length := by
  induction text with
  | nil => exact Nat.le_refl 0
  | cons char rest ih =>
    rw [foldCrlf]
    split
    · exact Nat.le_succ_of_le ih
    · exact Nat.succ_le_succ ih

theorem count_foldCrlf (text : Str) : (foldCrlf text).count '\n' = text.count '\n' := by
  induction text with
  | nil => rfl
  | cons char rest ih =>
    rw [foldCrlf]
    split
    · rename_i pair
      rw [ih, pair.1, List.count_cons_of_ne (by decide)]
    · rw [List.count_cons, List.count_cons, ih]

/-- A text with CR LF gets shorter. -/
theorem unix_of_length_le {text : Str} (long : text.length ≤ (foldCrlf text).length) :
    Unix text := by
  induction text with
  | nil =>
    intro found
    exact absurd (List.infix_nil.mp found) (by decide)
  | cons char rest ih =>
    by_cases pair : char = '\r' ∧ rest.head? = some '\n'
    · rw [foldCrlf, if_pos pair] at long
      have short := length_foldCrlf_le rest
      rw [List.length_cons] at long
      omega
    · rw [foldCrlf, if_neg pair, List.length_cons, List.length_cons] at long
      intro found
      rcases List.infix_cons_iff.mp found with starts | inside
      · obtain ⟨tail, same⟩ := starts
        have parts := List.cons.inj (same : '\r' :: '\n' :: tail = char :: rest)
        exact pair ⟨parts.1.symm, by rw [← parts.2]; rfl⟩
      · exact ih (by omega) inside

theorem unix_iff {text : Str} : Unix text ↔ foldCrlf text = text := by
  constructor
  · exact foldCrlf_eq_self_of_unix
  · intro same
    apply unix_of_length_le
    rw [same]

theorem unix_of_foldCrlf_prefix {text : Str} (starts : foldCrlf text <+: text) : Unix text := by
  induction text with
  | nil => exact unix_iff.mpr rfl
  | cons char rest ih =>
    by_cases pair : char = '\r' ∧ rest.head? = some '\n'
    · obtain ⟨rfl, next⟩ := pair
      obtain ⟨tail, rfl⟩ := List.head?_eq_some_iff.mp next
      rw [foldCrlf_crlf, List.cons_prefix_cons] at starts
      exact absurd starts.1 (by decide)
    · have folded : foldCrlf (char :: rest) = char :: foldCrlf rest := by rw [foldCrlf, if_neg pair]
      rw [folded, List.cons_prefix_cons] at starts
      rw [unix_iff, folded, unix_iff.mp (ih starts.2)]

theorem eq_of_cons_eq_concat {char last : Char} {text : Str} (same : char :: text = text ++ [last]) :
    char = last := by
  induction text with
  | nil => exact (List.cons.inj same).1
  | cons head tail ih =>
    have parts := List.cons.inj same
    rw [← parts.1] at parts
    exact ih parts.2

/-- Up to its first line feed a text is folded to itself, or loses a CR at the end. -/
theorem takeWhile_foldCrlf (text : Str) :
    (foldCrlf text).takeWhile (· != '\n') = text.takeWhile (· != '\n') ∨
      (foldCrlf text).takeWhile (· != '\n') ++ ['\r'] = text.takeWhile (· != '\n') := by
  induction text with
  | nil => exact Or.inl rfl
  | cons char rest ih =>
    by_cases pair : char = '\r' ∧ rest.head? = some '\n'
    · obtain ⟨rfl, next⟩ := pair
      obtain ⟨tail, rfl⟩ := List.head?_eq_some_iff.mp next
      rw [foldCrlf_crlf]
      exact Or.inr rfl
    · rw [foldCrlf, if_neg pair]
      by_cases line : (char != '\n') = true
      · rw [List.takeWhile_cons, List.takeWhile_cons, if_pos line, if_pos line]
        rcases ih with same | shorter
        · exact Or.inl (congrArg _ same)
        · exact Or.inr (congrArg _ shorter)
      · rw [List.takeWhile_cons, List.takeWhile_cons, if_neg line, if_neg line]
        exact Or.inl rfl

/-- A trimmed text that holds its own folding holds no CR LF. -/
theorem unix_of_foldCrlf_infix {text : Str} (trimmed : Trimmed text)
    (inside : foldCrlf text <:+: text) : Unix text := by
  obtain ⟨before, after, whole⟩ := inside
  have lines := congrArg (List.count '\n') whole
  rw [List.count_append, List.count_append, count_foldCrlf] at lines
  have firstLine : ∀ char ∈ before, (char != '\n') = true := by
    have none : '\n' ∉ before := List.count_eq_zero.mp (by omega)
    intro char member
    rw [bne_iff_ne]
    rintro rfl
    exact none member
  rw [List.append_assoc] at whole
  cases before with
  | nil => exact unix_of_foldCrlf_prefix ⟨after, whole⟩
  | cons head tail =>
    exfalso
    by_cases single : '\n' ∈ foldCrlf text
    · have line := congrArg (List.takeWhile (· != '\n')) whole
      obtain ⟨left, right, cut, absent⟩ := List.eq_append_cons_of_mem single
      have passes : ∀ char ∈ left, (char != '\n') = true := by
        intro char member
        rw [bne_iff_ne]
        rintro rfl
        exact absent member
      have own : (foldCrlf text).takeWhile (· != '\n') = left := by
        rw [cut, List.takeWhile_append_of_pos passes]
        simp
      have own' : (foldCrlf text ++ after).takeWhile (· != '\n') = left := by
        rw [cut, List.append_assoc, List.takeWhile_append_of_pos passes]
        simp
      rw [List.takeWhile_append_of_pos firstLine, own'] at line
      rcases takeWhile_foldCrlf text with same | shorter
      · rw [own, ← line] at same
        have length := congrArg List.length same
        rw [List.length_append, List.length_cons] at length
        omega
      · rw [own, ← line] at shorter
        have length := congrArg List.length shorter
        simp only [List.length_append, List.length_cons, List.length_nil] at length
        have short : tail = [] := List.length_eq_zero_iff.mp (by omega)
        subst short
        have first := eq_of_cons_eq_concat (shorter.symm : head :: left = left ++ ['\r'])
        have solid := trimmed.starts head (by rw [← whole]; rfl)
        rw [first] at solid
        exact absurd solid (by decide)
    · have unix : Unix text := by
        intro found
        have member : '\n' ∈ text := found.subset (by decide)
        rw [← List.count_pos_iff, ← count_foldCrlf, List.count_pos_iff] at member
        exact single member
      have length := congrArg List.length whole
      rw [unix_iff.mp unix, List.length_append, List.length_append, List.length_cons] at length
      omega

/-! ### Normalized texts -/

theorem normalized_of_unix {text : Str} (trimmed : Trimmed text) (unix : Unix text) :
    normalized text = text := by
  rw [normalized, unix_iff.mp unix, trimmed.trim_eq]

theorem trimmed_normalized (text : Str) : Trimmed (normalized text) := trimmed_trim _

theorem getLast?_foldCrlf {text : Str} (ends : text.getLast? ≠ some '\r') :
    (foldCrlf text).getLast? = text.getLast? := by
  induction text with
  | nil => rfl
  | cons char rest ih =>
    by_cases pair : char = '\r' ∧ rest.head? = some '\n'
    · obtain ⟨rfl, next⟩ := pair
      obtain ⟨tail, rfl⟩ := List.head?_eq_some_iff.mp next
      rw [List.getLast?_cons_cons] at ends ⊢
      rw [foldCrlf, if_pos ⟨rfl, rfl⟩, ih ends]
    · rw [foldCrlf, if_neg pair]
      cases rest with
      | nil => rfl
      | cons next rest =>
        rw [List.getLast?_cons_cons] at ends ⊢
        have inner := ih ends
        rw [← inner, List.getLast?_cons]
        cases last : (foldCrlf (next :: rest)).getLast? with
        | none =>
          rw [last, List.getLast?_cons] at inner
          cases inner
        | some last => rfl

/-- Folding a trimmed text leaves it trimmed. -/
theorem Trimmed.foldCrlf {text : Str} (trimmed : Trimmed text) : Trimmed (foldCrlf text) where
  starts char member := by
    cases text with
    | nil => cases member
    | cons head rest =>
      have solid := trimmed.starts head rfl
      have other : head ≠ '\r' := by
        rintro rfl
        exact absurd solid (by decide)
      rw [foldCrlf_cons_of_ne rest other] at member
      cases member
      exact solid
  ends char member := by
    have other : text.getLast? ≠ some '\r' := by
      intro last
      exact absurd (trimmed.ends '\r' last) (by decide)
    rw [getLast?_foldCrlf other] at member
    exact trimmed.ends char member

/-- Normalizing a trimmed text folds it. -/
theorem Trimmed.normalized_eq {text : Str} (trimmed : Trimmed text) :
    normalized text = FingerprintText.foldCrlf text :=
  trimmed.foldCrlf.trim_eq

end Nook.Secrets
