import Nook.EventLog.Canonical
import Nook.Recovery.WordSplits

set_option autoImplicit false

namespace Nook.Recovery

open Nook.Lib Nook.EventLog

variable {list : WordList}

/-- Words as they may be typed: separators, none at all included, before the first word and
behind each. -/
def spaced (lead : Str) (typed : List (RecoveryWord list × Str)) : Str :=
  lead ++ typed.flatMap fun (word, gap) => word.text ++ gap

open Classical in
/-- The chunks that are no concatenation of words, each at its typed position. -/
noncomputable def failing (list : WordList) (chunks : List Str) : List UnknownRecoveryWord :=
  (chunks.zipIdx.filter fun (chunk, _) => ¬ Splits list chunk).map
    fun (chunk, index) => ⟨.place index, chunk⟩

namespace TypedRecoveryWords

/-! ### Separators -/

theorem isSeparator_of_isLower {char : Char} (lower : char.isLower = true) :
    isSeparator char = false := by
  have safe : isUrlSafe char = true := by
    unfold isUrlSafe Char.isAlphanum Char.isAlpha
    simp only [lower, Bool.or_true, Bool.true_or]
  have hyphen : char ≠ '-' := by
    rintro rfl
    exact absurd lower (by decide)
  unfold isSeparator
  simp only [isWhitespace_of_isUrlSafe safe, Bool.false_or, beq_eq_false_iff_ne]
  exact hyphen

theorem isSeparator_of_mem_text {word : RecoveryWord list} {char : Char}
    (member : char ∈ word.text) : isSeparator char = false :=
  isSeparator_of_isLower ((list.lowercase word.text word.text_mem).2 char member)

/-- What stands between separators, put together, is the text without them. -/
theorem flatten_splitOnP (text : Str) :
    (text.splitOnP isSeparator).flatten = text.filter fun char => !isSeparator char := by
  induction text with
  | nil => rfl
  | cons head tail ih =>
    rw [List.splitOnP_cons_eq_if_modifyHead, List.filter_cons]
    cases separates : isSeparator head with
    | true => simpa using ih
    | false =>
      cases pieces : tail.splitOnP isSeparator with
      | nil => exact absurd pieces (List.splitOnP_ne_nil _ _)
      | cons first others =>
        rw [pieces] at ih
        simpa using ih

theorem flatten_filter_isEmpty (pieces : List Str) :
    (pieces.filter fun piece => !piece.isEmpty).flatten = pieces.flatten := by
  induction pieces with
  | nil => rfl
  | cons head tail ih =>
    cases head with
    | nil => simpa using ih
    | cons char rest => simp [ih]

theorem forall_splitOnP_gap {gap rest : Str} (separators : ∀ char ∈ gap, isSeparator char = true)
    (split : ∀ piece ∈ rest.splitOnP isSeparator, Splits list piece) :
    ∀ piece ∈ (gap ++ rest).splitOnP isSeparator, Splits list piece := by
  induction gap with
  | nil => exact split
  | cons head tail ih =>
    have first := separators head (List.mem_cons_self ..)
    rw [List.cons_append, List.splitOnP_cons_eq_if_modifyHead, if_pos first]
    intro piece member
    rcases List.mem_cons.mp member with rfl | later
    · exact ⟨[], rfl⟩
    · exact ih (fun char own => separators char (List.mem_cons_of_mem _ own)) piece later

theorem splitOnP_append {text : Str} (plain : ∀ char ∈ text, isSeparator char = false)
    (rest : Str) : (text ++ rest).splitOnP isSeparator =
      (rest.splitOnP isSeparator).modifyHead (text ++ ·) := by
  induction text with
  | nil => exact (congrFun List.modifyHead_id _).symm
  | cons head tail ih =>
    have first := plain head (List.mem_cons_self ..)
    rw [List.cons_append, List.splitOnP_cons_eq_if_modifyHead, first,
      ih fun char member => plain char (List.mem_cons_of_mem _ member), List.modifyHead_modifyHead]
    rfl

theorem forall_splitOnP_word {word : RecoveryWord list} {rest : Str}
    (split : ∀ piece ∈ rest.splitOnP isSeparator, Splits list piece) :
    ∀ piece ∈ (word.text ++ rest).splitOnP isSeparator, Splits list piece := by
  rw [splitOnP_append fun char member => isSeparator_of_mem_text member]
  cases pieces : rest.splitOnP isSeparator with
  | nil => exact absurd pieces (List.splitOnP_ne_nil _ _)
  | cons first others =>
    rw [pieces] at split
    intro piece member
    rw [List.modifyHead_cons] at member
    rcases List.mem_cons.mp member with rfl | later
    · obtain ⟨words, same⟩ := split first (List.mem_cons_self ..)
      exact ⟨word :: words, by rw [spelling_cons, same]⟩
    · exact split piece (List.mem_cons_of_mem _ later)

/-! ### Spaced words -/

variable {lead : Str} {typed : List (RecoveryWord list × Str)}

theorem forall_splitOnP_spaced (start : ∀ char ∈ lead, isSeparator char = true)
    (gaps : ∀ word ∈ typed, ∀ char ∈ word.2, isSeparator char = true) :
    ∀ piece ∈ (spaced lead typed).splitOnP isSeparator, Splits list piece := by
  apply forall_splitOnP_gap start
  induction typed with
  | nil =>
    intro piece member
    rw [List.flatMap_nil, List.splitOnP_nil, List.mem_singleton] at member
    exact ⟨[], member.symm⟩
  | cons head tail ih =>
    rw [List.flatMap_cons, List.append_assoc]
    apply forall_splitOnP_word
    apply forall_splitOnP_gap (gaps head (List.mem_cons_self ..))
    exact ih fun word member => gaps word (List.mem_cons_of_mem _ member)

theorem filter_gap {gap : Str} (separators : ∀ char ∈ gap, isSeparator char = true) :
    (gap.filter fun char => !isSeparator char) = [] := by
  rw [List.filter_eq_nil_iff]
  intro char member
  simp [separators char member]

theorem filter_spaced (start : ∀ char ∈ lead, isSeparator char = true)
    (gaps : ∀ word ∈ typed, ∀ char ∈ word.2, isSeparator char = true) :
    ((spaced lead typed).filter fun char => !isSeparator char) =
      spelling (typed.map Prod.fst) := by
  unfold spaced
  rw [List.filter_append, filter_gap start, List.nil_append]
  induction typed with
  | nil => rfl
  | cons head tail ih =>
    have own : (head.1.text.filter fun char => !isSeparator char) = head.1.text := by
      rw [List.filter_eq_self]
      intro char member
      simp [isSeparator_of_mem_text member]
    rw [List.flatMap_cons, List.filter_append, List.filter_append, own,
      filter_gap (gaps head (List.mem_cons_self ..)), List.append_nil,
      ih fun word member => gaps word (List.mem_cons_of_mem _ member)]
    rfl

/-- Only ASCII letters and separators are lowered to letters and separators. -/
theorem ascii_of_toLower {char : Char}
    (read : isSeparator char.toLower = true ∨ char.toLower.isLower = true) :
    char.toNat < 128 ∨ isWhitespace char = true := by
  by_cases ascii : char.toNat < 128
  · exact Or.inl ascii
  · have same : char.toLower = char := by
      unfold Char.toLower
      rw [dif_neg]
      rintro ⟨_, upper⟩
      have bound : char.val.toNat ≤ 'Z'.val.toNat := UInt32.le_iff_toNat_le.mp upper
      have letter : 'Z'.val.toNat = 90 := rfl
      have own : char.toNat = char.val.toNat := rfl
      omega
    rw [same] at read
    rcases read with separator | lower
    · unfold isSeparator at separator
      rcases Bool.or_eq_true _ _ ▸ separator with white | hyphen
      · exact Or.inr white
      · rw [beq_iff_eq.mp hyphen] at ascii
        exact absurd (by decide) ascii
    · unfold Char.isLower at lower
      have bound := UInt32.le_iff_toNat_le.mp
        (of_decide_eq_true (Bool.and_eq_true _ _ ▸ lower).2)
      have letter : 'z'.val.toNat = 122 := rfl
      have own : char.toNat = char.val.toNat := rfl
      omega

variable [Casing]

theorem toLowercase_of_spaced (casing : AsciiCasing) {text : Str}
    (start : ∀ char ∈ lead, isSeparator char = true)
    (gaps : ∀ word ∈ typed, ∀ char ∈ word.2, isSeparator char = true)
    (same : text.map Char.toLower = spaced lead typed) :
    Casing.toLowercase text = spaced lead typed := by
  rw [← same]
  apply casing
  intro char member
  apply ascii_of_toLower
  have lowered : char.toLower ∈ spaced lead typed := same ▸ List.mem_map_of_mem member
  rcases List.mem_append.mp lowered with first | later
  · exact Or.inl (start _ first)
  · obtain ⟨word, own, inside⟩ := List.mem_flatMap.mp later
    rcases List.mem_append.mp inside with letter | gap
    · exact Or.inr ((list.lowercase _ word.1.text_mem).2 _ letter)
    · exact Or.inl (gaps word own _ gap)

/-! ### Reading the chunks -/

omit [Casing]

open Classical in
/-- The chunks read as unknown are those that do not split. -/
theorem foldl_readChunk_unknown (chunks : List (Str × Nat))
    (read : List (RecoveryWord list) × List UnknownRecoveryWord) :
    (chunks.foldl (readChunk list) read).2 = read.2 ++
      (chunks.filter fun (chunk, _) => ¬ Splits list chunk).map
        fun (chunk, index) => ⟨.place index, chunk⟩ := by
  induction chunks generalizing read with
  | nil => exact (List.append_nil _).symm
  | cons head tail ih =>
    rw [List.foldl_cons, ih, List.filter_cons]
    unfold readChunk
    rcases Segmentation.of_eq list head.1 with ⟨found, split, same⟩ | ⟨unknown, stuck⟩
    · have splits : Splits list head.1 := ⟨found, same⟩
      simp only [split, splits, not_true_eq_false, decide_false, Bool.false_eq_true, if_false]
    · simp only [unknown, stuck, not_false_eq_true, decide_true, if_true, List.map_cons,
        List.append_assoc, List.singleton_append]

/-- Where every chunk splits, the words found spell them one by one. -/
theorem foldl_readChunk_words (chunks : List (Str × Nat))
    (read : List (RecoveryWord list) × List UnknownRecoveryWord)
    (split : ∀ chunk ∈ chunks, Splits list chunk.1) :
    ∃ parts : List (List (RecoveryWord list)),
      (chunks.foldl (readChunk list) read).1 = read.1 ++ parts.flatten ∧
        parts.map spelling = chunks.map Prod.fst := by
  induction chunks generalizing read with
  | nil => exact ⟨[], (List.append_nil _).symm, rfl⟩
  | cons head tail ih =>
    rcases Segmentation.of_eq list head.1 with ⟨found, taken, same⟩ | ⟨unknown, stuck⟩
    · have next : readChunk list read head = (read.1 ++ found, read.2) := by
        unfold readChunk
        rw [taken]
      obtain ⟨parts, all, spelled⟩ := ih (read.1 ++ found, read.2)
        fun chunk member => split chunk (List.mem_cons_of_mem _ member)
      refine ⟨found :: parts, ?_, ?_⟩
      · rw [List.foldl_cons, next, all, List.flatten_cons, List.append_assoc]
      · rw [List.map_cons, List.map_cons, spelled, same]
    · exact absurd (split head (List.mem_cons_self ..)) stuck

variable [Casing]

theorem words_of_unknown {typed : TypedRecoveryWords}
    (unknown : ∃ chunk ∈ typed.chunks, ¬ Splits list chunk) :
    typed.words list = .error (.unknownWords (failing list typed.chunks)) := by
  classical
  obtain ⟨chunk, member, stuck⟩ := unknown
  have some : typed.chunks.isEmpty = false := by
    rw [List.isEmpty_eq_false_iff]
    exact List.ne_nil_of_mem member
  have read : (typed.chunks.zipIdx.foldl (readChunk list) ([], [])).2 =
      failing list typed.chunks := foldl_readChunk_unknown _ _
  have reported : (failing list typed.chunks).isEmpty = false := by
    obtain ⟨index, indexed⟩ := List.mem_iff_getElem?.mp member
    rw [List.isEmpty_eq_false_iff]
    apply List.ne_nil_of_mem (a := ⟨.place index, chunk⟩)
    apply List.mem_map.mpr
    refine ⟨(chunk, index), List.mem_filter.mpr ⟨?_, by simpa using stuck⟩, rfl⟩
    exact List.mem_zipIdx_iff_getElem?.mpr indexed
  unfold words
  simp only [some, Bool.false_eq_true, if_false, read, reported]

theorem words_of_split {typed : TypedRecoveryWords} (some : typed.chunks ≠ [])
    (split : ∀ chunk ∈ typed.chunks, Splits list chunk) :
    ∃ parts : List (List (RecoveryWord list)), typed.words list = .ok parts.flatten ∧
      parts.map spelling = typed.chunks := by
  classical
  have each : ∀ chunk ∈ typed.chunks.zipIdx, Splits list chunk.1 := by
    intro chunk member
    exact split chunk.1 (List.mem_of_getElem? (List.mem_zipIdx_iff_getElem?.mp member))
  obtain ⟨parts, all, spelled⟩ := foldl_readChunk_words typed.chunks.zipIdx ([], []) each
  have read : (typed.chunks.zipIdx.foldl (readChunk list) ([], [])).2 = [] := by
    rw [foldl_readChunk_unknown, List.nil_append, List.map_eq_nil_iff, List.filter_eq_nil_iff]
    intro chunk member
    simpa using each chunk member
  refine ⟨parts, ?_, ?_⟩
  · have filled : typed.chunks.isEmpty = false := List.isEmpty_eq_false_iff.mpr some
    unfold words
    simp only [filled, Bool.false_eq_true, if_false, read, all, List.nil_append,
      List.isEmpty_nil, if_true]
  · rw [spelled, List.zipIdx_map_fst]

theorem words_of_blank {typed : TypedRecoveryWords} (blank : typed.chunks = []) :
    typed.words list = .error .empty := by
  unfold words
  simp only [blank, List.isEmpty_nil, if_true]

/-- Words typed in any letter case, with separators or without, are read as themselves where
nothing else is written the same. -/
theorem words_of_spaced (casing : AsciiCasing) {lead : Str}
    {spoken : List (RecoveryWord list × Str)} {typed : TypedRecoveryWords} (some : spoken ≠ [])
    (start : ∀ char ∈ lead, isSeparator char = true)
    (gaps : ∀ word ∈ spoken, ∀ char ∈ word.2, isSeparator char = true)
    (same : typed.text.map Char.toLower = spaced lead spoken)
    (only : ∀ others : List (RecoveryWord list),
      spelling others = spelling (spoken.map Prod.fst) → others = spoken.map Prod.fst) :
    typed.words list = .ok (spoken.map Prod.fst) := by
  have chunks : typed.chunks =
      ((spaced lead spoken).splitOnP isSeparator).filter fun chunk => !chunk.isEmpty := by
    unfold TypedRecoveryWords.chunks
    rw [toLowercase_of_spaced casing start gaps same]
  have whole : typed.chunks.flatten = spelling (spoken.map Prod.fst) := by
    rw [chunks, flatten_filter_isEmpty, flatten_splitOnP, filter_spaced start gaps]
  have split : ∀ chunk ∈ typed.chunks, Splits list chunk := by
    intro chunk member
    rw [chunks] at member
    exact forall_splitOnP_spaced start gaps chunk (List.mem_filter.mp member).1
  have filled : typed.chunks ≠ [] := by
    intro blank
    rw [blank, List.flatten_nil] at whole
    cases spoken with
    | nil => exact some rfl
    | cons head tail =>
      rw [List.map_cons, spelling_cons] at whole
      exact head.1.text_ne_nil (List.append_eq_nil_iff.mp whole.symm).1
  obtain ⟨parts, read, spelled⟩ := words_of_split filled split
  rw [read, only parts.flatten]
  rw [spelling_flatten, spelled, whole]

/-- Typed words are read exactly. Words are returned exactly where there is a chunk and every
chunk is a concatenation of words, and then they spell the chunks one by one; otherwise the
chunks that are none are named, or the input is refused as empty. Words of the list are read as
themselves however they are spaced, where only they are written so. The search always ends. -/
theorem typed_words_read_exactly (casing : AsciiCasing) (list : WordList) :
    (∀ chunk : Str, ∃ result, Segmentation.search list chunk = some result) ∧
    (∀ typed : TypedRecoveryWords, (∃ words, typed.words list = .ok words) ↔
      typed.chunks ≠ [] ∧ ∀ chunk ∈ typed.chunks, Splits list chunk) ∧
    (∀ (typed : TypedRecoveryWords) (words : List (RecoveryWord list)),
      typed.words list = .ok words → ∃ parts : List (List (RecoveryWord list)),
        words = parts.flatten ∧ parts.map spelling = typed.chunks) ∧
    (∀ typed : TypedRecoveryWords, (∃ chunk ∈ typed.chunks, ¬ Splits list chunk) →
      typed.words list = .error (.unknownWords (failing list typed.chunks))) ∧
    (∀ typed : TypedRecoveryWords, typed.chunks = [] → typed.words list = .error .empty) ∧
    (∀ (lead : Str) (spoken : List (RecoveryWord list × Str)) (typed : TypedRecoveryWords),
      spoken ≠ [] → (∀ char ∈ lead, isSeparator char = true) →
      (∀ word ∈ spoken, ∀ char ∈ word.2, isSeparator char = true) →
      typed.text.map Char.toLower = spaced lead spoken →
      (∀ others : List (RecoveryWord list),
        spelling others = spelling (spoken.map Prod.fst) → others = spoken.map Prod.fst) →
      typed.words list = .ok (spoken.map Prod.fst)) := by
  have returned : ∀ (typed : TypedRecoveryWords) (words : List (RecoveryWord list)),
      typed.words list = .ok words →
        typed.chunks ≠ [] ∧ ∀ chunk ∈ typed.chunks, Splits list chunk := by
    intro typed words read
    constructor
    · intro blank
      rw [words_of_blank blank] at read
      cases read
    · intro chunk member
      by_contra stuck
      rw [words_of_unknown ⟨chunk, member, stuck⟩] at read
      cases read
  refine ⟨?_, ?_, ?_, ?_, ?_, ?_⟩
  · intro chunk
    obtain ⟨result, ran, _⟩ := Segmentation.search_eq list chunk
    exact ⟨result, ran⟩
  · intro typed
    constructor
    · rintro ⟨words, read⟩
      exact returned typed words read
    · rintro ⟨some, split⟩
      obtain ⟨parts, read, _⟩ := words_of_split some split
      exact ⟨parts.flatten, read⟩
  · intro typed words read
    obtain ⟨some, split⟩ := returned typed words read
    obtain ⟨parts, own, spelled⟩ := words_of_split some split
    rw [own] at read
    exact ⟨parts, (Except.ok.inj read).symm, spelled⟩
  · intro typed unknown
    exact words_of_unknown unknown
  · intro typed blank
    exact words_of_blank blank
  · intro lead spoken typed some start gaps same only
    exact words_of_spaced casing some start gaps same only

end TypedRecoveryWords

namespace TestSupport

def fiveTexts : List Str :=
  ["abandon".toList, "logistic".toList, "zoo".toList, "zoology".toList, "zoom".toList]

/-- Five words of the list. -/
def fiveWords : WordList where
  words := fiveTexts
  distinct := by decide +kernel
  lowercase := by
    have checked : (fiveTexts.all fun word => !word.isEmpty && word.all Char.isLower) = true := by
      decide +kernel
    intro word member
    have own := List.all_eq_true.mp checked word member
    rw [Bool.and_eq_true, List.all_eq_true] at own
    exact ⟨by simpa using own.1, own.2⟩
  small := by simp [fiveTexts]

/-- Lower-casing of ASCII letters. -/
@[reducible] def asciiCasing : Casing where
  toLowercase := List.map Char.toLower

theorem asciiCasing_ascii : @AsciiCasing asciiCasing := by
  intro text _
  rfl

def zoo : RecoveryWord fiveWords := ⟨2, by decide⟩

/-- The word is written by itself only, though others start with it. -/
theorem eq_zoo_of_spelling {others : List (RecoveryWord fiveWords)}
    (same : spelling others = spelling [zoo]) : others = [zoo] := by
  cases others with
  | nil => cases same
  | cons word rest =>
    rw [spelling_cons, spelling_cons, spelling_nil, List.append_nil] at same
    have long := congrArg List.length same
    rw [List.length_append] at long
    have short : word.text.length ≤ zoo.text.length := by omega
    have own : word = zoo := by
      clear same long
      revert word
      decide +kernel
    rw [own] at same
    cases rest with
    | nil => rw [own]
    | cons other more =>
      have nothing := List.append_eq_nil_iff.mp (List.append_right_eq_self.mp same)
      exact absurd nothing.1 other.text_ne_nil

/-- A word in mixed case between separators, and a text that goes on behind a word. -/
theorem typed_words_read_exactly_zoo :
    @TypedRecoveryWords.words asciiCasing fiveWords ⟨" ZoO-".toList⟩ = .ok [zoo] ∧
      ¬ Splits fiveWords "zoolog".toList := by
  have exact := @TypedRecoveryWords.typed_words_read_exactly asciiCasing asciiCasing_ascii fiveWords
  constructor
  · exact exact.2.2.2.2.2 " ".toList [(zoo, "-".toList)] _ (by decide)
      (List.forall_mem_singleton.mpr (by decide))
      (List.forall_mem_singleton.mpr (List.forall_mem_singleton.mpr (by decide)))
      (by decide +kernel) fun others same => eq_zoo_of_spelling same
  · intro split
    have chunks : @TypedRecoveryWords.chunks asciiCasing ⟨"zoolog".toList⟩ =
        ["zoolog".toList] := by decide +kernel
    have every : ∀ chunk ∈ @TypedRecoveryWords.chunks asciiCasing ⟨"zoolog".toList⟩,
        Splits fiveWords chunk := by
      rw [chunks]
      intro chunk member
      rwa [List.mem_singleton.mp member]
    obtain ⟨words, read⟩ := (exact.2.1 ⟨"zoolog".toList⟩).mpr ⟨by rw [chunks]; simp, every⟩
    have refused : (@TypedRecoveryWords.words asciiCasing fiveWords ⟨"zoolog".toList⟩).toBool =
        false := by decide +kernel
    rw [read] at refused
    cases refused

/-- Separators alone hold no chunk that is no concatenation of words, and are refused. -/
theorem blank_words_refused :
    ¬ ∀ typed : TypedRecoveryWords,
      (∃ words, @TypedRecoveryWords.words asciiCasing fiveWords typed = .ok words) ↔
        ∀ chunk ∈ @TypedRecoveryWords.chunks asciiCasing typed, Splits fiveWords chunk := by
  intro exact
  have blank : @TypedRecoveryWords.chunks asciiCasing ⟨" - \t".toList⟩ = [] := by decide +kernel
  have nothing : ∀ chunk ∈ @TypedRecoveryWords.chunks asciiCasing ⟨" - \t".toList⟩,
      Splits fiveWords chunk := by
    rw [blank]
    exact List.forall_mem_nil _
  obtain ⟨words, read⟩ := (exact ⟨" - \t".toList⟩).mpr nothing
  rw [@TypedRecoveryWords.words_of_blank fiveWords asciiCasing _ blank] at read
  cases read

end TestSupport

end Nook.Recovery
