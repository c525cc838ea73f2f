import Nook.Secrets.LineEndings

set_option autoImplicit false

namespace Nook.Secrets

open Nook.EventLog FingerprintText

/-! ### Occurrences of a pattern -/

/-- A pattern of which no two occurrences overlap. -/
def Borderless (pattern : Str) : Prop :=
  ∀ offset < pattern.length, 0 < offset → ¬pattern.drop offset <+: pattern

theorem mem_matchIndices {pattern : Str} (borderless : Borderless pattern)
    (filled : pattern ≠ []) {skip position index : Nat} {text : Str} :
    index ∈ matchIndices pattern skip position text ↔
      ∃ offset, index = position + offset ∧ skip ≤ offset ∧ pattern <+: text.drop offset := by
  induction text generalizing skip position with
  | nil =>
    constructor
    · intro member
      cases member
    · rintro ⟨offset, _, _, occurs⟩
      rw [List.drop_nil, List.prefix_nil] at occurs
      exact absurd occurs filled
  | cons char rest ih =>
    -- an occurrence behind the first character is one in the rest
    have later : ∀ skipped, (∃ offset, index = position + 1 + offset ∧ skipped ≤ offset ∧
        pattern <+: rest.drop offset) ↔ ∃ offset, index = position + offset ∧ skipped + 1 ≤ offset ∧
          pattern <+: (char :: rest).drop offset := by
      intro skipped
      constructor
      · rintro ⟨offset, same, behind, occurs⟩
        exact ⟨offset + 1, by omega, by omega, occurs⟩
      · rintro ⟨offset, same, behind, occurs⟩
        obtain ⟨before, rfl⟩ : ∃ before, offset = before + 1 := ⟨offset - 1, by omega⟩
        exact ⟨before, by omega, by omega, occurs⟩
    match skip with
    | skip + 1 => rw [matchIndices, ih, later]
    | 0 =>
      rw [matchIndices]
      by_cases starts : startsWith (char :: rest) pattern = true
      · have here : pattern <+: char :: rest := List.isPrefixOf_iff_prefix.mp starts
        have length := List.length_pos_of_ne_nil filled
        rw [if_pos starts, List.mem_cons, ih, later, Nat.sub_add_cancel length]
        constructor
        · rintro (same | ⟨offset, same, behind, occurs⟩)
          · exact ⟨0, same, Nat.le_refl 0, here⟩
          · exact ⟨offset, same, Nat.zero_le _, occurs⟩
        · rintro ⟨offset, same, _, occurs⟩
          by_cases first : offset = 0
          · exact Or.inl (by rw [same, first, Nat.add_zero])
          · refine Or.inr ⟨offset, same, ?_, occurs⟩
            by_contra overlaps
            have inside := here.drop offset
            have own := List.prefix_of_prefix_length_le inside occurs (by simp)
            exact borderless offset (by omega) (by omega) own
      · rw [if_neg starts, ih, later]
        constructor
        · rintro ⟨offset, same, _, occurs⟩
          exact ⟨offset, same, Nat.zero_le _, occurs⟩
        · rintro ⟨offset, same, _, occurs⟩
          refine ⟨offset, same, ?_, occurs⟩
          by_contra first
          have zero : offset = 0 := by omega
          rw [zero] at occurs
          exact starts (List.isPrefixOf_iff_prefix.mpr occurs)

/-! ### White space at the end -/

/-- A text of white space only. -/
def Blank (text : Str) : Prop := ∀ char ∈ text, isWhitespace char = true

theorem prefix_append_blank {lead text blank : Str} (white : Blank blank)
    (ends : ∀ char ∈ lead.getLast?, isWhitespace char = false) (filled : lead ≠ []) :
    lead <+: text ++ blank ↔ lead <+: text := by
  constructor
  · intro starts
    by_cases short : lead.length ≤ text.length
    · exact List.prefix_of_prefix_length_le starts (List.prefix_append text blank) short
    · obtain ⟨tail, rfl⟩ := List.prefix_of_prefix_length_le (List.prefix_append text blank) starts
        (by omega)
      have inBlank : tail <+: blank := (List.prefix_append_right_inj text).mp starts
      have nonempty : tail ≠ [] := by
        rintro rfl
        simp at short
      have last := ends (tail.getLast nonempty)
        (by rw [List.getLast?_append_of_ne_nil _ nonempty, List.getLast?_eq_some_getLast nonempty]
            rfl)
      rw [white _ (inBlank.subset (List.getLast_mem nonempty))] at last
      cases last
  · intro starts
    exact starts.trans (List.prefix_append text blank)

theorem splitOnce_append_blank {text blank : Str} {separator : Char} (white : Blank blank)
    (solid : isWhitespace separator = false) :
    (splitOnce (text ++ blank) separator).map Prod.fst = (splitOnce text separator).map Prod.fst := by
  cases cut : splitOnce text separator with
  | some parts =>
    obtain ⟨same, absent⟩ := splitOnce_eq_some.mp cut
    have whole : splitOnce (text ++ blank) separator = some (parts.1, parts.2 ++ blank) := by
      apply splitOnce_eq_some.mpr
      rw [same, List.append_assoc, List.cons_append]
      exact ⟨rfl, absent⟩
    rw [whole]
    rfl
  | none =>
    cases whole : splitOnce (text ++ blank) separator with
    | none => rfl
    | some parts =>
      obtain ⟨same, absent⟩ := splitOnce_eq_some.mp whole
      have inside : separator ∈ text ++ blank := by
        rw [same]
        simp
      rcases List.mem_append.mp inside with inText | inBlank
      · obtain ⟨before, after, cutText, absent'⟩ := List.eq_append_cons_of_mem inText
        rw [splitOnce_eq_some.mpr ⟨cutText, absent'⟩] at cut
        cases cut
      · rw [white separator inBlank] at solid
        cases solid

/-! ### Sections -/

namespace ImportMetadataMarker

/-- What is relied on of the headings and of the bullets that are recognized. -/
structure WellFormed (marker : ImportMetadataMarker) : Prop where
  starts : marker.heading.head? = some '#'
  oneLine : '\n' ∉ marker.heading
  borderless : Borderless marker.heading
  keys : ∀ key ∈ marker.keyPrefixes, key ≠ [] ∧ ∀ char ∈ key.getLast?, isWhitespace char = false

theorem wellFormed_of_mem {policy : ImportMetadataPolicy} {marker : ImportMetadataMarker}
    (member : marker ∈ policy.markers) : marker.WellFormed := by
  let valid (marker : ImportMetadataMarker) : Bool :=
    marker.heading.head? == some '#' && !marker.heading.contains '\n' &&
      (List.range marker.heading.length).all (fun offset =>
        offset == 0 || !(marker.heading.drop offset).isPrefixOf marker.heading) &&
      marker.keyPrefixes.all fun key => !key.isEmpty && key.getLast?.all (!isWhitespace ·)
  have table : LOGIN_IMPORT_METADATA_MARKERS.all valid = true := by decide +kernel
  have listed : marker ∈ LOGIN_IMPORT_METADATA_MARKERS := by
    cases policy with
    | login => exact member
    | general =>
      have part : IMPORT_METADATA_MARKERS <+: LOGIN_IMPORT_METADATA_MARKERS := ⟨_, rfl⟩
      exact part.subset member
  have own := List.all_eq_true.mp table marker listed
  simp only [valid, Bool.and_eq_true, beq_iff_eq, Bool.not_eq_true', List.all_eq_true,
    List.mem_range, Bool.or_eq_true, List.contains_eq_mem, decide_eq_false_iff_not,
    Option.all_eq_true, List.isEmpty_eq_false_iff] at own
  obtain ⟨⟨⟨starts, oneLine⟩, borderless⟩, keys⟩ := own
  refine ⟨starts, oneLine, ?_, fun key inside => ⟨(keys key inside).1, (keys key inside).2⟩⟩
  intro offset short positive inside
  rcases borderless offset short with zero | apart
  · omega
  · rw [List.isPrefixOf_iff_prefix.mpr inside] at apart
    cases apart

variable {marker : ImportMetadataMarker}

theorem WellFormed.filled (wellFormed : marker.WellFormed) : marker.heading ≠ [] := by
  intro empty
  have starts := wellFormed.starts
  rw [empty] at starts
  cases starts

/-- White space behind a bullet does not change whether it is recognized. -/
theorem recognizes_append_blank (wellFormed : marker.WellFormed) {bullet blank : Str}
    (white : Blank blank) : marker.recognizes (bullet ++ blank) = marker.recognizes bullet := by
  have keys : marker.keyPrefixes.any (startsWith (bullet ++ blank)) =
      marker.keyPrefixes.any (startsWith bullet) := by
    rw [Bool.eq_iff_iff, List.any_eq_true, List.any_eq_true]
    apply exists_congr
    intro key
    apply and_congr_right
    intro member
    obtain ⟨filled, ends⟩ := wellFormed.keys key member
    rw [startsWith, startsWith, List.isPrefixOf_iff_prefix, List.isPrefixOf_iff_prefix,
      prefix_append_blank white ends filled]
  have dotted : ∀ text : Str, ((splitOnce text ':').any fun part => part.1.contains '.') =
      ((splitOnce text ':').map Prod.fst).any (·.contains '.') := by
    intro text
    cases splitOnce text ':' <;> rfl
  have key : (splitOnce (bullet ++ blank) ':').map Prod.fst = (splitOnce bullet ':').map Prod.fst :=
    splitOnce_append_blank white (by decide)
  unfold recognizes
  dsimp only
  rw [keys, dotted, dotted, key]

theorem recognizes_nil (wellFormed : marker.WellFormed) : marker.recognizes [] = false := by
  have keys : marker.keyPrefixes.any (startsWith []) = false := by
    rw [List.any_eq_false]
    intro key member starts
    have empty := List.prefix_nil.mp (List.isPrefixOf_iff_prefix.mp starts)
    exact (wellFormed.keys key member).1 empty
  unfold recognizes
  dsimp only
  rw [keys]
  simp [splitOnce]

/-- A text that starts with the heading, over a bullet of the provider. -/
def HeadsSection (marker : ImportMetadataMarker) (text : Str) : Prop :=
  ∃ rest, text = marker.heading ++ "\n- ".toList ++ rest ∧
    marker.recognizes (rest.takeWhile (· != '\n')) = true

theorem recognizes_firstLine (wellFormed : marker.WellFormed) (rest : Str) :
    (firstLine rest).any marker.recognizes = marker.recognizes (rest.takeWhile (· != '\n')) := by
  unfold firstLine
  by_cases empty : rest.isEmpty = true
  · rw [List.isEmpty_iff] at empty
    subst empty
    simp [recognizes_nil wellFormed]
  rw [if_neg empty]
  cases cut : splitOnce rest '\n' with
  | none =>
    have absent : '\n' ∉ rest := by
      intro member
      obtain ⟨before, after, same, absent⟩ := List.eq_append_cons_of_mem member
      rw [splitOnce_eq_some.mpr ⟨same, absent⟩] at cut
      cases cut
    have whole : rest.takeWhile (· != '\n') = rest := by
      rw [List.takeWhile_eq_self_iff]
      intro char member
      rw [bne_iff_ne]
      rintro rfl
      exact absent member
    rw [whole]
    rfl
  | some parts =>
    obtain ⟨same, absent⟩ := splitOnce_eq_some.mp cut
    have line : rest.takeWhile (· != '\n') = parts.1 := by
      have passes : ∀ char ∈ parts.1, (char != '\n') = true := by
        intro char member
        rw [bne_iff_ne]
        rintro rfl
        exact absent member
      rw [same, List.takeWhile_append_of_pos passes]
      simp
    rw [line]
    show marker.recognizes ((stripSuffix parts.1 ['\r']).getD parts.1) = _
    cases stripped : stripSuffix parts.1 ['\r'] with
    | none => rfl
    | some bare =>
      have blank : Blank ['\r'] := by
        intro char member
        rw [List.mem_singleton.mp member]
        decide
      rw [stripSuffix_eq_some.mp stripped, recognizes_append_blank wellFormed blank]
      rfl

theorem mem_sectionIndices (wellFormed : marker.WellFormed) {text : Str} {index : Nat} :
    index ∈ marker.sectionIndices text ↔
      (index = 0 ∨ "\n\n".toList <:+ text.take index) ∧ marker.HeadsSection (text.drop index) := by
  have occurs : index ∈ matchIndices marker.heading 0 0 text ↔
      marker.heading <+: text.drop index := by
    rw [mem_matchIndices wellFormed.borderless wellFormed.filled]
    constructor
    · rintro ⟨offset, same, _, occurs⟩
      rw [same, Nat.zero_add]
      exact occurs
    · intro occurs
      exact ⟨index, (Nat.zero_add index).symm, Nat.zero_le _, occurs⟩
  have own : (index == 0 || "\n\n".toList.isSuffixOf (text.take index)) = true ↔
      index = 0 ∨ "\n\n".toList <:+ text.take index := by
    rw [Bool.or_eq_true, beq_iff_eq, List.isSuffixOf_iff_suffix]
  have bullet : ∀ tail, (do
      let metadata ← stripPrefix tail ['\n']
      firstLine (← stripPrefix metadata "- ".toList)).any marker.recognizes = true ↔
        ∃ rest, tail = "\n- ".toList ++ rest ∧
          marker.recognizes (rest.takeWhile (· != '\n')) = true := by
    intro tail
    constructor
    · intro recognized
      rw [Option.any_eq_true] at recognized
      obtain ⟨line, read, recognized⟩ := recognized
      obtain ⟨metadata, stripped, read⟩ := Option.bind_eq_some_iff.mp read
      obtain ⟨rest, stripped', read⟩ := Option.bind_eq_some_iff.mp read
      refine ⟨rest, ?_, ?_⟩
      · rw [stripPrefix_eq_some.mp stripped, stripPrefix_eq_some.mp stripped']
        rfl
      · rw [← recognizes_firstLine wellFormed, read]
        exact recognized
    · rintro ⟨rest, rfl, recognized⟩
      have stripped : stripPrefix ("\n- ".toList ++ rest) ['\n'] = some ("- ".toList ++ rest) :=
        stripPrefix_eq_some.mpr rfl
      have stripped' : stripPrefix ("- ".toList ++ rest) "- ".toList = some rest :=
        stripPrefix_eq_some.mpr rfl
      rw [stripped]
      show ((stripPrefix ("- ".toList ++ rest) "- ".toList).bind firstLine).any _ = true
      rw [stripped']
      rw [← recognizes_firstLine wellFormed] at recognized
      exact recognized
  unfold sectionIndices
  rw [List.mem_filter, occurs]
  unfold isSection
  rw [Bool.and_eq_true, own, bullet]
  constructor
  · rintro ⟨⟨tail, starts⟩, paragraph, rest, same, recognized⟩
    refine ⟨paragraph, rest, ?_, recognized⟩
    have after : text.drop (index + marker.heading.length) = tail := by
      rw [← List.drop_drop, ← starts, List.drop_left]
    rw [← starts, List.append_assoc, ← same, after]
  · rintro ⟨paragraph, rest, same, recognized⟩
    rw [List.append_assoc] at same
    refine ⟨⟨_, same.symm⟩, paragraph, rest, ?_, recognized⟩
    rw [← List.drop_drop, same, List.drop_left]

end ImportMetadataMarker

/-! ### Where the sections stand -/

/-- White space that ends a paragraph. -/
structure ParagraphEnd (gap : Str) : Prop where
  blank : Blank gap
  breaks : "\n\n".toList <:+ gap

/-- A line is read no further than the paragraph, and blanks at its end are all that the
gap behind the paragraph adds to it. -/
theorem takeWhile_append_gap {gap : Str} (paragraph : ParagraphEnd gap) (line tail : Str) :
    ∃ blank, Blank blank ∧ (line ++ gap ++ tail).takeWhile (· != '\n') =
      line.takeWhile (· != '\n') ++ blank := by
  have passes : ∀ part : Str, '\n' ∉ part → ∀ char ∈ part, (char != '\n') = true := by
    intro part absent char member
    rw [bne_iff_ne]
    rintro rfl
    exact absent member
  by_cases broken : '\n' ∈ line
  · obtain ⟨before, after, rfl, absent⟩ := List.eq_append_cons_of_mem broken
    refine ⟨[], fun char member => (List.not_mem_nil member).elim, ?_⟩
    rw [List.append_assoc, List.append_assoc, List.takeWhile_append_of_pos (passes before absent),
      List.takeWhile_append_of_pos (passes before absent)]
    simp
  · obtain ⟨before, after, rfl, absent⟩ := List.eq_append_cons_of_mem
      (paragraph.breaks.subset (by decide : '\n' ∈ "\n\n".toList))
    refine ⟨before, fun char member => paragraph.blank char (List.mem_append_left _ member), ?_⟩
    have whole : line.takeWhile (· != '\n') = line :=
      List.takeWhile_eq_self_iff.mpr (passes line broken)
    rw [whole, List.append_assoc, List.takeWhile_append_of_pos (passes line broken),
      List.append_assoc, List.takeWhile_append_of_pos (passes before absent)]
    simp

theorem headsSection_append_gap {marker : ImportMetadataMarker} (wellFormed : marker.WellFormed)
    {gap : Str} (paragraph : ParagraphEnd gap) (text tail : Str) :
    marker.HeadsSection (text ++ gap ++ tail) ↔ marker.HeadsSection text := by
  constructor
  · rintro ⟨rest, same, recognized⟩
    obtain ⟨first, split⟩ := paragraph.breaks
    -- where the bullet mark stands, and what stands in the gap
    have mark : (text ++ gap ++ tail)[marker.heading.length + 1]? = some '-' := by
      rw [same, List.append_assoc, List.getElem?_append_right (by omega)]
      simp
    have inGap : ∀ offset, (text ++ gap ++ tail)[text.length + offset]? = (gap ++ tail)[offset]? := by
      intro offset
      rw [List.append_assoc, List.getElem?_append_right (by omega), Nat.add_sub_cancel_left]
    have length : gap.length = first.length + 2 := by
      rw [← split, List.length_append]
      rfl
    have long : marker.heading.length + 2 ≤ text.length := by
      by_contra short
      obtain ⟨offset, position⟩ : ∃ offset, marker.heading.length + 1 = text.length + offset :=
        ⟨marker.heading.length + 1 - text.length, by omega⟩
      rw [position, inGap] at mark
      by_cases inside : offset < gap.length
      · rw [List.getElem?_append_left inside] at mark
        have white := paragraph.blank '-' (List.mem_of_getElem? mark)
        exact absurd white (by decide)
      · have broken : marker.heading[text.length + first.length]? = some '\n' := by
          have lineBreak : (gap ++ tail)[first.length]? = some '\n' := by
            rw [← split, List.append_assoc, List.getElem?_append_right (Nat.le_refl _), Nat.sub_self]
            rfl
          have found := inGap first.length
          rw [lineBreak, same, List.append_assoc, List.getElem?_append_left (by omega)] at found
          exact found
        exact wellFormed.oneLine (List.mem_of_getElem? broken)
    have lead : marker.heading ++ "\n-".toList <+: text := by
      have starts : marker.heading ++ "\n-".toList <+: text ++ (gap ++ tail) := by
        rw [← List.append_assoc, same]
        exact ⟨' ' :: rest, by simp⟩
      exact List.prefix_of_prefix_length_le starts (List.prefix_append _ _) (by simpa using long)
    obtain ⟨left, rfl⟩ := lead
    have remains : left ++ gap ++ tail = ' ' :: rest := by
      have whole : marker.heading ++ "\n-".toList ++ (left ++ gap ++ tail) =
          marker.heading ++ "\n-".toList ++ (' ' :: rest) := by
        rw [← List.append_assoc, ← List.append_assoc, same]
        simp
      exact List.append_cancel_left whole
    cases left with
    | nil =>
      -- the bullet would be of white space only
      exfalso
      rw [← split, List.nil_append] at remains
      cases first with
      | nil => exact absurd (List.cons.inj remains).1 (by decide)
      | cons space first =>
        have inner : ParagraphEnd (first ++ "\n\n".toList) := by
          refine ⟨?_, List.suffix_append first _⟩
          intro char member
          apply paragraph.blank char
          rw [← split]
          exact List.mem_cons_of_mem _ member
        obtain ⟨blank, white, line⟩ := takeWhile_append_gap inner [] tail
        rw [← (List.cons.inj remains).2] at recognized
        have read : ((first ++ "\n\n".toList) ++ tail).takeWhile (· != '\n') = [] ++ blank := line
        rw [show (List.append first "\n\n".toList).append tail = first ++ "\n\n".toList ++ tail from
          rfl, read, ImportMetadataMarker.recognizes_append_blank wellFormed white,
          ImportMetadataMarker.recognizes_nil wellFormed] at recognized
        cases recognized
    | cons space bullet =>
      have parts := List.cons.inj remains
      obtain ⟨blank, white, line⟩ := takeWhile_append_gap paragraph bullet tail
      refine ⟨bullet, ?_, ?_⟩
      · rw [parts.1]
        simp
      · have read : rest.takeWhile (· != '\n') = bullet.takeWhile (· != '\n') ++ blank := by
          rw [← parts.2]
          exact line
        rw [read, ImportMetadataMarker.recognizes_append_blank wellFormed white] at recognized
        exact recognized
  · rintro ⟨rest, rfl, recognized⟩
    obtain ⟨blank, white, line⟩ := takeWhile_append_gap paragraph rest tail
    refine ⟨rest ++ gap ++ tail, by simp, ?_⟩
    rw [line, ImportMetadataMarker.recognizes_append_blank wellFormed white]
    exact recognized

end Nook.Secrets
