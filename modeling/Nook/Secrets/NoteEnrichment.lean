import Nook.Secrets.NoteParts

set_option autoImplicit false

namespace Nook.Secrets

open Nook.EventLog FingerprintText

/-! ### What a merge does -/

/-- The sections that a merge takes from the incoming note. -/
def takenMetadata (policy : ImportMetadataPolicy) (incoming : Str) : Str :=
  trim (incoming.drop (ProviderNotes.neutral ⟨incoming, policy⟩).length)

/-- A merge of normalized notes. -/
inductive Merges (policy : ImportMetadataPolicy) (existing incoming : Str) : Str → Prop where
  | contained (inside : incoming <:+: existing) : Merges policy existing incoming existing
  | longer (outside : ¬incoming <:+: existing) (inside : existing <:+: incoming) :
      Merges policy existing incoming incoming
  | known (outside : ¬incoming <:+: existing) (outside' : ¬existing <:+: incoming)
      (sameBase : ProviderNotes.neutral ⟨existing, policy⟩ = ProviderNotes.neutral ⟨incoming, policy⟩)
      (inside : takenMetadata policy incoming <:+: existing) :
      Merges policy existing incoming existing
  | sections (outside : ¬incoming <:+: existing) (outside' : ¬existing <:+: incoming)
      (sameBase : ProviderNotes.neutral ⟨existing, policy⟩ = ProviderNotes.neutral ⟨incoming, policy⟩)
      (new : ¬takenMetadata policy incoming <:+: existing) :
      Merges policy existing incoming (existing ++ "\n\n".toList ++ takenMetadata policy incoming)
  | whole (outside : ¬incoming <:+: existing) (outside' : ¬existing <:+: incoming)
      (otherBase : ProviderNotes.neutral ⟨existing, policy⟩ ≠
        ProviderNotes.neutral ⟨incoming, policy⟩) :
      Merges policy existing incoming (existing ++ "\n\n".toList ++ incoming)

theorem containsText_iff {raw part : Str} : containsText raw part = true ↔ part <:+: raw := by
  simp [containsText]

theorem merges_merge (policy : ImportMetadataPolicy) (text incoming : Str) :
    Merges policy (normalized text) (normalized incoming)
      (ProviderNotes.merge ⟨text, policy⟩ incoming) := by
  have contains : ∀ raw part : Str, (part.isEmpty || containsText raw part) = true ↔
      part <:+: raw := by
    intro raw part
    rw [Bool.or_eq_true, containsText_iff, List.isEmpty_iff]
    constructor
    · rintro (rfl | inside)
      · exact List.nil_infix
      · exact inside
    · exact Or.inr
  have contained : (((normalized incoming).isEmpty || normalized text == normalized incoming) ||
      containsText (normalized text) (normalized incoming)) = true ↔
        normalized incoming <:+: normalized text := by
    rw [Bool.or_assoc, Bool.or_comm (_ == _), ← Bool.or_assoc, Bool.or_eq_true, contains,
      beq_iff_eq]
    constructor
    · rintro (inside | same)
      · exact inside
      · rw [same]
    · exact Or.inl
  unfold ProviderNotes.merge
  dsimp only
  by_cases inside : normalized incoming <:+: normalized text
  · rw [if_pos (contained.mpr inside)]
    exact .contained inside
  rw [if_neg (mt contained.mp inside)]
  by_cases inside' : normalized text <:+: normalized incoming
  · rw [if_pos ((contains _ _).mpr inside')]
    exact .longer inside inside'
  rw [if_neg (mt (contains _ _).mp inside')]
  by_cases same : ProviderNotes.neutral ⟨normalized text, policy⟩ =
      ProviderNotes.neutral ⟨normalized incoming, policy⟩
  · rw [if_pos same]
    by_cases known : takenMetadata policy (normalized incoming) <:+: normalized text
    all_goals unfold takenMetadata at known
    · rw [if_pos ((contains _ _).mpr known)]
      exact .known inside inside' same known
    · rw [if_neg (mt (contains _ _).mp known)]
      exact .sections inside inside' same known
  · rw [if_neg same]
    exact .whole inside inside' same

namespace Merges

variable {policy : ImportMetadataPolicy} {existing incoming result : Str}

theorem eq_of_infix (merges : Merges policy existing incoming result)
    (inside : incoming <:+: existing) : result = existing := by
  cases merges with
  | contained => rfl
  | longer outside => exact absurd inside outside
  | known outside => exact absurd inside outside
  | sections outside => exact absurd inside outside
  | whole outside => exact absurd inside outside

/-- A merge into the folding of a text that gives the text back finds no CR LF in it. -/
theorem unix_of_fold (trimmed : Trimmed result) (folded : existing = foldCrlf result)
    (merges : Merges policy existing incoming result) : Unix result := by
  have lines : existing.count '\n' = result.count '\n' := by rw [folded, count_foldCrlf]
  have two : "\n\n".toList.count '\n' = 2 := rfl
  cases merges with
  | contained => exact unix_iff.mpr folded.symm
  | longer _ inside =>
    rw [folded] at inside
    exact unix_of_foldCrlf_infix trimmed inside
  | known => exact unix_iff.mpr folded.symm
  | sections =>
    rw [List.count_append, List.count_append] at lines
    omega
  | whole =>
    rw [List.count_append, List.count_append] at lines
    omega

end Merges

/-! ### Notes that a merge settles -/

/-- No CR LF is left in the normalized notes, but for one kind of place: the gap between
the incoming user's text and its first section, when the existing note has the same text. -/
def Settles (policy : ImportMetadataPolicy) (existing incoming : Str) : Prop :=
  Unix existing ∧ (Unix incoming ∨ ¬existing <:+: incoming ∧
    userText policy existing = userText policy incoming ∧
      Unix (importedMetadata policy incoming))

theorem neutral_of_unix {policy : ImportMetadataPolicy} {text : Str} (trimmed : Trimmed text)
    (unix : Unix text) : ProviderNotes.neutral ⟨text, policy⟩ = userText policy text := by
  rw [neutral_eq, normalized_of_unix trimmed unix]

/-- Folding keeps the end of a paragraph. -/
theorem ParagraphEnd.foldCrlf {gap : Str} (paragraph : ParagraphEnd gap) :
    ParagraphEnd (foldCrlf gap) := by
  obtain ⟨before, same⟩ := paragraph.breaks
  constructor
  · intro char member
    apply paragraph.blank char
    have sub : ∀ text : Str, FingerprintText.foldCrlf text ⊆ text := by
      intro text
      induction text with
      | nil => exact List.Subset.refl _
      | cons head rest ih =>
        rw [FingerprintText.foldCrlf]
        split
        · exact List.Subset.trans ih (List.subset_cons_self head rest)
        · exact List.cons_subset_cons head ih
    exact sub gap member
  · have first : (before ++ ['\n']).getLast? ≠ some '\r' := by simp
    have one := getLast?_foldCrlf first
    rw [List.getLast?_concat] at one
    obtain ⟨lead, ends⟩ := List.getLast?_eq_some_iff.mp one
    refine ⟨lead, ?_⟩
    have twice : gap = (before ++ ['\n']) ++ ['\n'] := by
      rw [← same]
      simp
    rw [twice, foldCrlf_append _ first, ends]
    simp [FingerprintText.foldCrlf]

/-- CR LF in the gap behind the user's text does not change what the user's text is. -/
theorem neutral_of_unix_parts {policy : ImportMetadataPolicy} {text : Str} (trimmed : Trimmed text)
    (unix : Unix (userText policy text)) (unix' : Unix (importedMetadata policy text)) :
    ProviderNotes.neutral ⟨text, policy⟩ = userText policy text := by
  cases found : ProviderNotes.markerIndex policy text with
  | none =>
    have whole : userText policy text = text := by rw [userText, found]
    rw [whole] at unix
    exact neutral_of_unix trimmed unix
  | some index =>
    obtain ⟨gap, same, length, _, heads, place⟩ := parts_of_markerIndex found
    rcases place with ⟨_, noGap, noText⟩ | paragraph
    · rw [noGap, noText, List.nil_append, List.nil_append] at same
      rw [← same] at unix'
      exact neutral_of_unix trimmed unix'
    have least := (markerIndex_eq_some.mp found).2
    have ends : ∀ char ∈ (userText policy text).getLast?, isWhitespace char = false :=
      userText_ends trimmed
    -- the text before the sections holds none itself
    have none : ProviderNotes.markerIndex policy (userText policy text) = none := by
      rw [markerIndex_eq_none]
      intro other starts
      have inside := starts.lt_length
      have starts' := (starts_append_gap paragraph (importedMetadata policy text) inside).mpr starts
      rw [← same] at starts'
      have later := least other starts'
      rw [← length, List.length_append] at later
      omega
    have lastText : (userText policy text).getLast? ≠ some '\r' := by
      intro last
      exact absurd (ends '\r' last) (by decide)
    have lastGap : gap.getLast? ≠ some '\r' := by
      obtain ⟨before, whole⟩ := paragraph.breaks
      rw [← whole]
      simp
    have folded : foldCrlf text = userText policy text ++ foldCrlf gap ++
        importedMetadata policy text := by
      conv_lhs => rw [same, List.append_assoc]
      rw [foldCrlf_append _ lastText, foldCrlf_append _ lastGap, unix_iff.mp unix,
        unix_iff.mp unix', List.append_assoc]
    have moved := markerIndex_of_tail paragraph.foldCrlf (importedMetadata policy text) none heads
    rw [neutral_eq, trimmed.normalized_eq, folded]
    conv_lhs => rw [userText, moved]
    dsimp only
    rw [List.take_left]
    exact trimEnd_append_blank paragraph.foldCrlf.blank ends

/-- Behind the user's text stand the sections. -/
theorem trim_drop_userText {policy : ImportMetadataPolicy} {text : Str} (trimmed : Trimmed text) :
    trim (text.drop (userText policy text).length) = importedMetadata policy text := by
  cases found : ProviderNotes.markerIndex policy text with
  | none =>
    have whole : userText policy text = text := by rw [userText, found]
    have imported : importedMetadata policy text = [] := by rw [importedMetadata, found]
    rw [whole, imported, List.drop_length]
    rfl
  | some index =>
    obtain ⟨gap, same, _, blank, heads, _⟩ := parts_of_markerIndex found
    obtain ⟨marker, member, rest, heading, _⟩ := heads
    have sign : (importedMetadata policy text).head? = some '#' := by
      rw [heading, List.append_assoc, List.head?_append,
        (ImportMetadataMarker.wellFormed_of_mem member).starts]
      rfl
    have behind := congrArg (List.drop (userText policy text).length) same
    rw [List.append_assoc, List.drop_left] at behind
    have solid : ∀ char ∈ (importedMetadata policy text).head?, isWhitespace char = false := by
      intro char first
      rw [sign] at first
      cases first
      decide
    have last : ∀ char ∈ (importedMetadata policy text).getLast?, isWhitespace char = false := by
      intro char last
      have nonempty : importedMetadata policy text ≠ [] := by
        intro empty
        rw [empty] at sign
        cases sign
      apply trimmed.ends char
      rw [same, List.getLast?_append_of_ne_nil _ nonempty]
      exact last
    have front : trim (gap ++ importedMetadata policy text) = trim (importedMetadata policy text) := by
      rw [trim, trim, List.dropWhile_append_of_pos blank]
    rw [behind, front]
    exact (trim_eq_self_iff solid).mpr last

/-! ### What a merge keeps -/

/-- A note holds the user's text and every section of a source. -/
structure NoteKept (policy : ImportMetadataPolicy) (source result : Str) : Prop where
  text : userText policy source <:+: result
  sections : ∀ part, IsSection policy source part → part <:+: result

variable {policy : ImportMetadataPolicy} {existing incoming result : Str}

theorem noteKept_of_parts {source : Str} (text : userText policy source <:+: result)
    (imported : importedMetadata policy source <:+: result) : NoteKept policy source result :=
  ⟨text, fun _ isSection => isSection.infix.trans imported⟩

theorem noteKept_of_infix {source : Str} (inside : source <:+: result) :
    NoteKept policy source result :=
  noteKept_of_parts (List.IsInfix.trans userText_prefix.isInfix inside)
    (importedMetadata_suffix.isInfix.trans inside)

theorem Settles.bases (settles : Settles policy existing incoming) (trimmed : Trimmed existing)
    (trimmed' : Trimmed incoming) :
    ProviderNotes.neutral ⟨existing, policy⟩ = userText policy existing ∧
      ProviderNotes.neutral ⟨incoming, policy⟩ = userText policy incoming := by
  obtain ⟨unix, rest⟩ := settles
  refine ⟨neutral_of_unix trimmed unix, ?_⟩
  rcases rest with unix' | ⟨_, sameText, unix'⟩
  · exact neutral_of_unix trimmed' unix'
  · apply neutral_of_unix_parts trimmed' _ unix'
    rw [← sameText]
    exact unix.of_infix userText_prefix.isInfix

theorem Settles.takenMetadata_eq (settles : Settles policy existing incoming)
    (trimmed : Trimmed existing) (trimmed' : Trimmed incoming) :
    takenMetadata policy incoming = importedMetadata policy incoming := by
  rw [takenMetadata, (settles.bases trimmed trimmed').2, trim_drop_userText trimmed']

theorem Settles.unix_imported (settles : Settles policy existing incoming) :
    Unix (importedMetadata policy incoming) := by
  rcases settles.2 with unix | ⟨_, _, unix⟩
  · exact unix.of_infix importedMetadata_suffix.isInfix
  · exact unix

theorem Unix.join {left right : Str} (unix : Unix left) (unix' : Unix right)
    (trimmed : Trimmed left) : Unix (left ++ "\n\n".toList ++ right) := by
  have last : left.getLast? ≠ some '\r' := by
    intro last
    exact absurd (trimmed.ends '\r' last) (by decide)
  have breaks : foldCrlf "\n\n".toList = "\n\n".toList := by decide
  rw [unix_iff, List.append_assoc, foldCrlf_append _ last, foldCrlf_append _ (by decide), breaks,
    unix_iff.mp unix, unix_iff.mp unix']

theorem paragraphEnd_breaks : ParagraphEnd "\n\n".toList where
  blank char member := by
    have table : "\n\n".toList.all isWhitespace = true := by decide
    exact List.all_eq_true.mp table char member
  breaks := List.suffix_refl _

/-- A note whose user's text is all of it stands in every note of that text. -/
theorem infix_of_sameText (none : ProviderNotes.markerIndex policy existing = none)
    (same : userText policy existing = userText policy incoming) : existing <:+: incoming := by
  have whole : userText policy existing = existing := by rw [userText, none]
  rw [← whole, same]
  exact userText_prefix.isInfix

theorem userText_append_gap {index : Nat} {gap : Str} (paragraph : ParagraphEnd gap) (tail : Str)
    (found : ProviderNotes.markerIndex policy existing = some index) :
    userText policy (existing ++ gap ++ tail) = userText policy existing := by
  have inside := (markerIndex_eq_some.mp found).1.lt_length
  rw [userText, userText, markerIndex_append_gap paragraph tail found, found]
  dsimp only
  rw [List.append_assoc, List.take_append_of_le_length (Nat.le_of_lt inside)]

/-- What a merge of settling notes gives: the notes' texts and sections, and the same
when it is done again. -/
theorem Merges.settled (merges : Merges policy existing incoming result)
    (settles : Settles policy existing incoming) (trimmed : Trimmed existing)
    (trimmed' : Trimmed incoming) :
    Unix result ∧ NoteKept policy existing result ∧ NoteKept policy incoming result ∧
      (∀ again, Merges policy result incoming again → again = result) ∧
      (userText policy existing = userText policy incoming →
        userText policy result = userText policy existing) := by
  obtain ⟨base, base'⟩ := settles.bases trimmed trimmed'
  have taken := settles.takenMetadata_eq trimmed trimmed'
  have unix := settles.1
  cases merges with
  | contained inside =>
    exact ⟨unix, noteKept_of_infix List.infix_rfl, noteKept_of_infix inside,
      fun again merges => merges.eq_of_infix inside, fun _ => rfl⟩
  | longer outside inside =>
    have unix' : Unix incoming := settles.2.resolve_right fun rest => rest.1 inside
    exact ⟨unix', noteKept_of_infix inside, noteKept_of_infix List.infix_rfl,
      fun again merges => merges.eq_of_infix List.infix_rfl, fun same => same.symm⟩
  | known outside outside' sameBase inside =>
    rw [base, base'] at sameBase
    rw [taken] at inside
    refine ⟨unix, noteKept_of_infix List.infix_rfl, noteKept_of_parts ?_ inside, ?_, fun _ => rfl⟩
    · rw [← sameBase]
      exact userText_prefix.isInfix
    · intro again merges
      cases merges with
      | contained => rfl
      | longer _ inside' => exact absurd inside' outside'
      | known => rfl
      | sections _ _ _ new =>
        rw [taken] at new
        exact absurd inside new
      | whole _ _ otherBase =>
        rw [base, base'] at otherBase
        exact absurd sameBase otherBase
  | sections outside outside' sameBase new =>
    rw [base, base'] at sameBase
    rw [taken]
    have inResult : existing <:+: existing ++ "\n\n".toList ++ importedMetadata policy incoming := by
      rw [List.append_assoc]
      exact (List.prefix_append _ _).isInfix
    have imported : importedMetadata policy incoming <:+:
        existing ++ "\n\n".toList ++ importedMetadata policy incoming :=
      (List.suffix_append _ _).isInfix
    have unix' := unix.join settles.unix_imported trimmed
    cases found : ProviderNotes.markerIndex policy existing with
    | none => exact absurd (infix_of_sameText found sameBase) outside'
    | some index =>
      have sameText := userText_append_gap paragraphEnd_breaks (importedMetadata policy incoming)
        found
      refine ⟨unix', noteKept_of_infix inResult, noteKept_of_parts ?_ imported, ?_,
        fun _ => sameText⟩
      · rw [← sameBase]
        exact List.IsInfix.trans userText_prefix.isInfix inResult
      · intro again merges
        have filled : existing ≠ [] := by
          rintro rfl
          exact outside' List.nil_infix
        cases merges with
        | contained => rfl
        | longer _ inside' => exact absurd (inResult.trans inside') outside'
        | known => rfl
        | sections _ _ _ new' =>
          rw [taken] at new'
          exact absurd imported new'
        | whole _ _ otherBase =>
          have importedTrimmed : Trimmed (importedMetadata policy incoming) := by
            rw [← trim_drop_userText trimmed']
            exact trimmed_trim _
          have importedFilled : importedMetadata policy incoming ≠ [] := by
            intro empty
            rw [taken, empty] at new
            exact new List.nil_infix
          have trimmedResult := trimmed.append importedTrimmed filled importedFilled "\n\n".toList
          rw [neutral_of_unix trimmedResult unix', sameText, base'] at otherBase
          exact absurd sameBase otherBase
  | whole outside outside' otherBase =>
    rw [base, base'] at otherBase
    have unix' : Unix incoming := settles.2.resolve_right fun rest => otherBase rest.2.1
    have inResult : existing <:+: existing ++ "\n\n".toList ++ incoming := by
      rw [List.append_assoc]
      exact (List.prefix_append _ _).isInfix
    have inResult' : incoming <:+: existing ++ "\n\n".toList ++ incoming :=
      (List.suffix_append _ _).isInfix
    exact ⟨unix.join unix' trimmed, noteKept_of_infix inResult, noteKept_of_infix inResult',
      fun again merges => merges.eq_of_infix inResult', fun same => absurd same otherBase⟩

theorem unix_imported_of_kept (unix : Unix result) (kept : NoteKept policy incoming result) :
    Unix (importedMetadata policy incoming) := by
  intro found
  obtain ⟨part, isSection, inside⟩ := exists_section_of_pair '\r' '\n' (by decide) found
  exact unix (inside.trans (kept.sections part isSection))

/-- When a merge gives a text without CR LF that holds the incoming note, the notes settle. -/
theorem Merges.settles (merges : Merges policy existing incoming result)
    (trimmed : Trimmed existing) (trimmed' : Trimmed incoming) (unix : Unix result)
    (kept : NoteKept policy incoming result) : Settles policy existing incoming := by
  have sameText : ∀ (unix' : Unix existing), ¬existing <:+: incoming →
      ProviderNotes.neutral ⟨existing, policy⟩ = ProviderNotes.neutral ⟨incoming, policy⟩ →
      Settles policy existing incoming := by
    intro unix' outside sameBase
    have imported := unix_imported_of_kept unix kept
    rw [neutral_of_unix trimmed unix', neutral_of_unix_parts trimmed' (unix.of_infix kept.text)
      imported] at sameBase
    exact ⟨unix', Or.inr ⟨outside, sameBase, imported⟩⟩
  cases merges with
  | contained inside => exact ⟨unix, Or.inl (unix.of_infix inside)⟩
  | longer _ inside => exact ⟨unix.of_infix inside, Or.inl unix⟩
  | known _ outside sameBase => exact sameText unix outside sameBase
  | sections _ outside sameBase =>
    apply sameText _ outside sameBase
    apply unix.of_infix
    rw [List.append_assoc]
    exact (List.prefix_append _ _).isInfix
  | whole =>
    have first := unix
    rw [List.append_assoc] at first
    exact ⟨first.of_infix (List.prefix_append _ _).isInfix,
      Or.inl (unix.of_infix (List.suffix_append _ _).isInfix)⟩

theorem Merges.trimmed (merges : Merges policy existing incoming result)
    (trimmed : Trimmed existing) (trimmed' : Trimmed incoming) : Trimmed result := by
  have filled : ∀ text other : Str, ¬text <:+: other → text ≠ [] := by
    rintro text other outside rfl
    exact outside List.nil_infix
  cases merges with
  | contained => exact trimmed
  | longer => exact trimmed'
  | known => exact trimmed
  | sections outside outside' _ new =>
    exact trimmed.append (trimmed_trim _) (filled _ _ outside') (filled _ _ new) _
  | whole outside outside' =>
    exact trimmed.append trimmed' (filled _ _ outside') (filled _ _ outside) _

end Nook.Secrets
