import Nook.Secrets.NoteSections

set_option autoImplicit false

namespace Nook.Secrets

open Nook.EventLog FingerprintText ImportMetadataMarker

/-! ### The parts of a note -/

/-- A section of some provider starts at `index`. -/
def Starts (policy : ImportMetadataPolicy) (text : Str) (index : Nat) : Prop :=
  (index = 0 ∨ "\n\n".toList <:+ text.take index) ∧
    ∃ marker ∈ policy.markers, marker.HeadsSection (text.drop index)

/-- What the user wrote: the text before the first section. -/
def userText (policy : ImportMetadataPolicy) (text : Str) : Str :=
  match ProviderNotes.markerIndex policy text with
  | some index => trimEnd (text.take index)
  | none => text

/-- The text from the first section on. -/
def importedMetadata (policy : ImportMetadataPolicy) (text : Str) : Str :=
  match ProviderNotes.markerIndex policy text with
  | some index => text.drop index
  | none => []

/-- A section: the text from where one starts to where the next one does, or to the end. -/
def IsSection (policy : ImportMetadataPolicy) (text part : Str) : Prop :=
  ∃ start stop, Starts policy text start ∧ start < stop ∧
    (Starts policy text stop ∨ stop = text.length) ∧
    (∀ other, Starts policy text other → start < other → stop ≤ other) ∧
    part = (text.drop start).take (stop - start)

theorem neutral_eq (text : Str) (policy : ImportMetadataPolicy) :
    ProviderNotes.neutral ⟨text, policy⟩ = userText policy (normalized text) := rfl

variable {policy : ImportMetadataPolicy} {text : Str} {index : Nat}

theorem mem_markers_sectionIndices :
    index ∈ policy.markers.flatMap (·.sectionIndices text) ↔ Starts policy text index := by
  rw [List.mem_flatMap]
  constructor
  · rintro ⟨marker, member, inside⟩
    have own := (mem_sectionIndices (wellFormed_of_mem member)).mp inside
    exact ⟨own.1, marker, member, own.2⟩
  · rintro ⟨paragraph, marker, member, heads⟩
    exact ⟨marker, member, (mem_sectionIndices (wellFormed_of_mem member)).mpr ⟨paragraph, heads⟩⟩

theorem markerIndex_eq_some : ProviderNotes.markerIndex policy text = some index ↔
    Starts policy text index ∧ ∀ other, Starts policy text other → index ≤ other := by
  unfold ProviderNotes.markerIndex
  rw [List.min?_eq_some_iff, mem_markers_sectionIndices]
  apply and_congr_right
  intro _
  apply forall_congr'
  intro other
  rw [mem_markers_sectionIndices]

theorem markerIndex_eq_none : ProviderNotes.markerIndex policy text = none ↔
    ∀ index, ¬Starts policy text index := by
  unfold ProviderNotes.markerIndex
  rw [List.min?_eq_none_iff, List.eq_nil_iff_forall_not_mem]
  apply forall_congr'
  intro index
  rw [mem_markers_sectionIndices]

/-- A section starts with the sign of a heading. -/
theorem Starts.getElem? (starts : Starts policy text index) : text[index]? = some '#' := by
  obtain ⟨_, marker, member, rest, same, _⟩ := starts
  have wellFormed := wellFormed_of_mem member
  have head := congrArg List.head? same
  rw [List.head?_drop, List.append_assoc, List.head?_append, wellFormed.starts] at head
  exact head

theorem Starts.lt_length (starts : Starts policy text index) : index < text.length :=
  (List.getElem?_eq_some_iff.mp starts.getElem?).1

/-! ### Parts of a longer text -/

section
variable {gap : Str} (paragraph : ParagraphEnd gap) (tail : Str)
include paragraph

theorem starts_append_gap (inside : index < text.length) :
    Starts policy (text ++ gap ++ tail) index ↔ Starts policy text index := by
  have before : (text ++ gap ++ tail).take index = text.take index := by
    rw [List.append_assoc, List.take_append_of_le_length (Nat.le_of_lt inside)]
  have behind : (text ++ gap ++ tail).drop index = text.drop index ++ gap ++ tail := by
    rw [List.append_assoc, List.drop_append_of_le_length (Nat.le_of_lt inside), List.append_assoc]
  unfold Starts
  rw [before, behind]
  apply and_congr_right
  intro _
  apply exists_congr
  intro marker
  apply and_congr_right
  intro member
  exact headsSection_append_gap (wellFormed_of_mem member) paragraph _ tail

/-- What follows a paragraph does not move its first section. -/
theorem markerIndex_append_gap (found : ProviderNotes.markerIndex policy text = some index) :
    ProviderNotes.markerIndex policy (text ++ gap ++ tail) = some index := by
  obtain ⟨starts, least⟩ := markerIndex_eq_some.mp found
  have inside := starts.lt_length
  rw [markerIndex_eq_some]
  refine ⟨(starts_append_gap paragraph tail inside).mpr starts, ?_⟩
  intro other starts'
  by_cases short : other < text.length
  · exact least other ((starts_append_gap paragraph tail short).mp starts')
  · omega

/-- Behind a paragraph without sections the next section is the first. -/
theorem markerIndex_of_tail (none : ProviderNotes.markerIndex policy text = none)
    (heads : ∃ marker ∈ policy.markers, marker.HeadsSection tail) :
    ProviderNotes.markerIndex policy (text ++ gap ++ tail) = some (text ++ gap).length := by
  rw [markerIndex_eq_none] at none
  rw [markerIndex_eq_some]
  constructor
  · refine ⟨Or.inr ?_, ?_⟩
    · rw [List.take_left]
      exact paragraph.breaks.trans (List.suffix_append text gap)
    · rw [List.drop_left]
      exact heads
  · intro other starts
    by_contra before
    by_cases inside : other < text.length
    · exact none other ((starts_append_gap paragraph tail inside).mp starts)
    · rw [List.length_append] at before
      have sign := starts.getElem?
      rw [List.append_assoc, List.getElem?_append_right (by omega),
        List.getElem?_append_left (by omega)] at sign
      exact absurd (paragraph.blank '#' (List.mem_of_getElem? sign)) (by decide)

end

/-! ### How a note is put together -/

/-- The user's text, the gap behind it, and the sections. -/
theorem parts_of_markerIndex (found : ProviderNotes.markerIndex policy text = some index) :
    ∃ gap, text = userText policy text ++ gap ++ importedMetadata policy text ∧
      (userText policy text ++ gap).length = index ∧ Blank gap ∧
      (∃ marker ∈ policy.markers, marker.HeadsSection (importedMetadata policy text)) ∧
      (index = 0 ∧ gap = [] ∧ userText policy text = [] ∨ ParagraphEnd gap) := by
  obtain ⟨starts, _⟩ := markerIndex_eq_some.mp found
  have inside := starts.lt_length
  obtain ⟨paragraph, heads⟩ := starts
  have user : userText policy text = trimEnd (text.take index) := by rw [userText, found]
  have imported : importedMetadata policy text = text.drop index := by rw [importedMetadata, found]
  have cut : trimEnd (text.take index) ++ (text.take index).rtakeWhile isWhitespace =
      text.take index := List.rdropWhile_append_rtakeWhile
  have blank : Blank ((text.take index).rtakeWhile isWhitespace) :=
    fun char member => List.mem_rtakeWhile_imp member
  refine ⟨(text.take index).rtakeWhile isWhitespace, ?_, ?_, blank, ?_, ?_⟩
  · rw [user, imported, cut, List.take_append_drop]
  · rw [user, cut, List.length_take, Nat.min_eq_left (Nat.le_of_lt inside)]
  · rw [imported]
    exact heads
  · rcases paragraph with first | breaks
    · subst first
      exact Or.inl ⟨rfl, rfl, by rw [user]; rfl⟩
    · refine Or.inr ⟨blank, ?_⟩
      obtain ⟨before, whole⟩ := breaks
      rw [← whole]
      have twice : (before ++ "\n\n".toList).rtakeWhile isWhitespace =
          before.rtakeWhile isWhitespace ++ "\n\n".toList := by
        rw [show before ++ "\n\n".toList = (before ++ ['\n']) ++ ['\n'] by simp,
          List.rtakeWhile_concat_pos _ _ _ (by decide),
          List.rtakeWhile_concat_pos _ _ _ (by decide)]
        simp
      rw [twice]
      exact List.suffix_append _ _

/-- The user's text in front of a section does not end with white space. -/
theorem userText_ends (trimmed : Trimmed text) :
    ∀ char ∈ (userText policy text).getLast?, isWhitespace char = false := by
  unfold userText
  cases ProviderNotes.markerIndex policy text with
  | none => exact trimmed.ends
  | some index =>
    intro char last
    obtain ⟨nonempty, same⟩ := List.mem_getLast?_eq_getLast last
    have stops := List.rdropWhile_last_not isWhitespace (text.take index) nonempty
    rw [same]
    exact Bool.not_eq_true _ ▸ stops

theorem trimEnd_append_blank {left blank : Str} (white : Blank blank)
    (ends : ∀ char ∈ left.getLast?, isWhitespace char = false) : trimEnd (left ++ blank) = left := by
  induction blank using List.reverseRecOn with
  | nil =>
    rw [List.append_nil]
    apply List.rdropWhile_eq_self_iff.mpr
    intro nonempty
    rw [ends _ (List.getLast?_eq_some_getLast nonempty)]
    decide
  | append_singleton blank char ih =>
    have last : isWhitespace char = true := white char (by simp)
    rw [← List.append_assoc, trimEnd, List.rdropWhile_concat_pos _ _ _ last]
    exact ih fun other member => white other (List.mem_append_left _ member)

theorem userText_prefix : userText policy text <+: text := by
  unfold userText
  cases ProviderNotes.markerIndex policy text with
  | none => exact List.prefix_refl text
  | some index => exact (List.rdropWhile_prefix _ _).trans (List.take_prefix index text)

theorem importedMetadata_suffix : importedMetadata policy text <:+ text := by
  unfold importedMetadata
  cases ProviderNotes.markerIndex policy text with
  | none => exact List.nil_suffix
  | some index => exact List.drop_suffix index text

/-- Every section is part of what was imported. -/
theorem IsSection.infix {part : Str} (isSection : IsSection policy text part) :
    part <:+: importedMetadata policy text := by
  obtain ⟨start, stop, starts, _, _, _, rfl⟩ := isSection
  cases found : ProviderNotes.markerIndex policy text with
  | none => exact absurd starts (markerIndex_eq_none.mp found start)
  | some index =>
    have least := (markerIndex_eq_some.mp found).2 start starts
    have imported : importedMetadata policy text = text.drop index := by
      rw [importedMetadata, found]
    rw [imported, show text.drop start = (text.drop index).drop (start - index) by
      rw [List.drop_drop, Nat.add_sub_cancel' least]]
    exact (List.take_prefix _ _).isInfix.trans (List.drop_suffix _ _).isInfix

/-- A pair of characters of which the second starts no section stands in one section. -/
theorem exists_section_of_pair (first second : Char) (apart : second ≠ '#')
    (pair : [first, second] <:+: importedMetadata policy text) :
    ∃ part, IsSection policy text part ∧ [first, second] <:+: part := by
  cases found : ProviderNotes.markerIndex policy text with
  | none =>
    have imported : importedMetadata policy text = [] := by rw [importedMetadata, found]
    rw [imported] at pair
    exact absurd (List.infix_nil.mp pair) (by simp)
  | some index =>
    obtain ⟨starts, _⟩ := markerIndex_eq_some.mp found
    have imported : importedMetadata policy text = text.drop index := by
      rw [importedMetadata, found]
    rw [imported] at pair
    obtain ⟨before, after, whole⟩ := pair
    have same : text = (text.take index ++ before) ++ first :: second :: after := by
      conv_lhs => rw [← List.take_append_drop index text, ← whole]
      simp
    obtain ⟨lead, leadEq⟩ : ∃ lead, lead = text.take index ++ before := ⟨_, rfl⟩
    rw [← leadEq] at same
    have position : index ≤ lead.length := by
      rw [leadEq, List.length_append, List.length_take, Nat.min_eq_left (Nat.le_of_lt
        starts.lt_length)]
      omega
    have total : text.length = lead.length + (after.length + 2) := by
      rw [same, List.length_append]
      rfl
    have here : text[lead.length + 1]? = some second := by
      rw [same, List.getElem?_append_right (by omega), Nat.add_sub_cancel_left]
      rfl
    classical
    -- the last section that starts at the pair or before it, and where it ends
    let start := Nat.findGreatest (Starts policy text) lead.length
    have startSpec : Starts policy text start := Nat.findGreatest_spec position starts
    have startLe : start ≤ lead.length := Nat.findGreatest_le lead.length
    have ending : ∃ stop, lead.length < stop ∧ (Starts policy text stop ∨ stop = text.length) :=
      ⟨text.length, by omega, Or.inr rfl⟩
    obtain ⟨behind, stops⟩ := Nat.find_spec ending
    have far : lead.length + 2 ≤ Nat.find ending := by
      by_contra near
      have next : Nat.find ending = lead.length + 1 := by omega
      rcases stops with again | last
      · have sign := again.getElem?
        rw [next, here] at sign
        exact apart (Option.some.inj sign)
      · omega
    refine ⟨_, ⟨start, Nat.find ending, startSpec, by omega, stops, ?_, rfl⟩, ?_⟩
    · intro other starts' later
      apply Nat.find_min' ending
      refine ⟨?_, Or.inl starts'⟩
      by_contra before
      have earlier : other ≤ start := Nat.le_findGreatest (Nat.not_lt.mp before) starts'
      omega
    · obtain ⟨more, stop⟩ : ∃ more, Nat.find ending - start =
          (lead.drop start ++ [first, second]).length + more := by
        refine ⟨Nat.find ending - lead.length - 2, ?_⟩
        rw [List.length_append, List.length_drop, List.length_cons, List.length_singleton]
        omega
      have behindStart : text.drop start = (lead.drop start ++ [first, second]) ++ after := by
        rw [same, List.drop_append_of_le_length startLe, List.append_assoc]
        rfl
      rw [behindStart, stop, List.take_length_add_append]
      exact ⟨lead.drop start, after.take more, rfl⟩

end Nook.Secrets
