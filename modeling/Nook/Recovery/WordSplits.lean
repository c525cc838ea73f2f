import Nook.Recovery.Words
import Mathlib.Data.Finset.Card
import Mathlib.Order.Interval.Finset.Nat
import Mathlib.Tactic.Ring

set_option autoImplicit false

namespace Nook.Recovery

open Nook.Lib Nook.EventLog

variable {list : WordList}

/-- Some words, written without separators. -/
def spelling (words : List (RecoveryWord list)) : Str := words.flatMap RecoveryWord.text

/-- A text is a concatenation of words of the list. -/
def Splits (list : WordList) (text : Str) : Prop :=
  ∃ words : List (RecoveryWord list), spelling words = text

@[simp] theorem spelling_nil : spelling ([] : List (RecoveryWord list)) = [] := rfl

@[simp] theorem spelling_cons (word : RecoveryWord list) (words : List (RecoveryWord list)) :
    spelling (word :: words) = word.text ++ spelling words := rfl

@[simp] theorem spelling_append (words others : List (RecoveryWord list)) :
    spelling (words ++ others) = spelling words ++ spelling others := List.flatMap_append

theorem spelling_flatten (parts : List (List (RecoveryWord list))) :
    spelling parts.flatten = (parts.map spelling).flatten := by
  induction parts with
  | nil => rfl
  | cons head tail ih =>
    rw [List.flatten_cons, spelling_append, List.map_cons, List.flatten_cons, ih]

/-! ### Words of the list -/

theorem RecoveryWord.text_mem (word : RecoveryWord list) : word.text ∈ list.words :=
  List.get_mem _ _

theorem RecoveryWord.text_ne_nil (word : RecoveryWord list) : word.text ≠ [] :=
  (list.lowercase word.text word.text_mem).1

theorem RecoveryWord.byteLen_pos (word : RecoveryWord list) : 0 < byteLen word.text := by
  rw [Nat.pos_iff_ne_zero, Ne, byteLen_eq_zero]
  exact word.text_ne_nil

theorem RecoveryWord.of_eq_some {text : Str} {word : RecoveryWord list} :
    RecoveryWord.of list text = some word ↔ word.text = text := by
  unfold RecoveryWord.of
  rw [List.finIdxOf?_eq_some_iff]
  constructor
  · intro found
    exact found.1
  · intro same
    apply And.intro same
    intro other earlier again
    have equal := list.distinct.get_inj_iff.mp (same.trans again.symm)
    exact absurd equal (ne_of_gt earlier)

theorem RecoveryWord.byteLen_le_longest (word : RecoveryWord list) :
    byteLen word.text ≤ list.longest := by
  have member : byteLen word.text ∈ list.words.map byteLen := List.mem_map_of_mem word.text_mem
  unfold WordList.longest
  cases longest : (list.words.map byteLen).max? with
  | none =>
    rw [List.max?_eq_none_iff.mp longest] at member
    cases member
  | some bound => exact (List.max?_eq_some_iff.mp longest).2 _ member

/-- What splits is empty or starts with a word and splits behind it. -/
theorem splits_iff {text : Str} : Splits list text ↔
    text = [] ∨ ∃ (word : RecoveryWord list) (rest : Str), text = word.text ++ rest ∧
      Splits list rest := by
  constructor
  · rintro ⟨words, rfl⟩
    cases words with
    | nil => exact Or.inl rfl
    | cons word words => exact Or.inr ⟨word, spelling words, rfl, words, rfl⟩
  · rintro (rfl | ⟨word, rest, rfl, words, rfl⟩)
    · exact ⟨[], rfl⟩
    · exact ⟨word :: words, rfl⟩

namespace Segmentation

variable (list) (chunk : Str)

/-- Every word shorter than the bound leads nowhere from this text. -/
def Fails (text : Str) (bound : Nat) : Prop :=
  ∀ (word : RecoveryWord list) (rest : Str), byteLen word.text < bound →
    text = word.text ++ rest → ¬ Splits list rest

/-- The path leads from the start of the chunk to this position and the text behind it. On
the way no dead end was entered, and all shorter words lead nowhere. -/
def Follows (deadEnds : Finset Nat) : List (SplitStep list) → Nat → Str → Prop
  | [], position, text => position = 0 ∧ text = chunk
  | step :: path, position, text =>
    ∃ before, step.length = byteLen step.word.text ∧ before + step.length = position ∧
      before ∉ deadEnds ∧ Fails list (step.word.text ++ text) step.length ∧
      Follows deadEnds path before (step.word.text ++ text)

/-- From a dead end the rest of the chunk does not split. -/
def DeadEndsFail (deadEnds : Finset Nat) : Prop :=
  ∀ before after : Str, chunk = before ++ after → byteLen before ∈ deadEnds → ¬ Splits list after

structure Inv (search : Search list) (text : Str) : Prop where
  follows : Follows list chunk search.deadEnds search.path search.start text
  dead : DeadEndsFail list chunk search.deadEnds
  fails : Fails list text search.shortest
  live : search.start ∉ search.deadEnds
  within : search.deadEnds ⊆ Finset.range (byteLen chunk + 1)

variable {list chunk} {deadEnds : Finset Nat} {path : List (SplitStep list)} {position : Nat}
  {text : Str}

theorem fails_one (text : Str) : Fails list text 1 := by
  intro word rest short
  have positive := word.byteLen_pos
  omega

/-- The path spells what lies before the position. -/
theorem Follows.spelled (follows : Follows list chunk deadEnds path position text) :
    chunk = spelling (path.reverse.map (·.word)) ++ text ∧
      byteLen (spelling (path.reverse.map (·.word))) = position := by
  induction path generalizing position text with
  | nil =>
    obtain ⟨rfl, rfl⟩ := follows
    exact ⟨rfl, rfl⟩
  | cons step path ih =>
    obtain ⟨before, length, next, _, _, earlier⟩ := follows
    obtain ⟨whole, long⟩ := ih earlier
    simp only [List.reverse_cons, List.map_append, List.map_cons, List.map_nil, spelling_append,
      spelling_cons, spelling_nil, List.append_nil, List.append_assoc, byteLen_append]
    exact ⟨whole, by omega⟩

/-- Marking the end of the path keeps the path. -/
theorem Follows.insert {mark : Nat} (follows : Follows list chunk deadEnds path position text)
    (later : position ≤ mark) : Follows list chunk (Insert.insert mark deadEnds) path position text := by
  induction path generalizing position text with
  | nil => exact follows
  | cons step path ih =>
    obtain ⟨before, length, next, live, fails, earlier⟩ := follows
    have positive := step.word.byteLen_pos
    refine ⟨before, length, next, ?_, fails, ih earlier (by omega)⟩
    rw [Finset.mem_insert, not_or]
    exact ⟨by omega, live⟩

theorem Inv.text_eq {search : Search list} (inv : Inv list chunk search text) :
    search.start + byteLen text = byteLen chunk := by
  obtain ⟨whole, long⟩ := inv.follows.spelled
  rw [whole, byteLen_append, long]

theorem inv_begin : Inv list chunk (begin list) chunk where
  follows := ⟨rfl, rfl⟩
  dead := fun _ _ _ member => absurd member (Finset.notMem_empty _)
  fails := fails_one chunk
  live := Finset.notMem_empty _
  within := Finset.empty_subset _

/-! ### What one look at a length finds -/

theorem wordOfLength_eq_some {search : Search list} {length : Nat} {step : SplitStep list}
    (inv : Inv list chunk search text) (found : wordOfLength list chunk search length = some step) :
    search.start + length ∉ search.deadEnds ∧ step.length = length ∧
      byteLen step.word.text = length ∧ ∃ rest, text = step.word.text ++ rest := by
  unfold wordOfLength at found
  dsimp only at found
  split at found
  · cases found
  · rename_i live
    obtain ⟨word, read, rfl⟩ := Option.map_eq_some_iff.mp found
    obtain ⟨piece, cut, spelled⟩ := Option.bind_eq_some_iff.mp read
    obtain ⟨whole, long⟩ := inv.follows.spelled
    rw [whole, ← long] at cut
    obtain ⟨rest, same, own⟩ := byteRange_append.mp cut
    rw [← RecoveryWord.of_eq_some.mp spelled] at same own
    exact ⟨live, rfl, own, rest, same⟩

/-- Where no word of a length is taken, none leads anywhere. -/
theorem not_splits_of_wordOfLength_eq_none {search : Search list} {word : RecoveryWord list}
    {rest : Str} (inv : Inv list chunk search text) (same : text = word.text ++ rest)
    (missing : wordOfLength list chunk search (byteLen word.text) = none) :
    ¬ Splits list rest := by
  obtain ⟨whole, long⟩ := inv.follows.spelled
  unfold wordOfLength at missing
  dsimp only at missing
  split at missing
  · rename_i dead
    apply inv.dead (spelling (search.path.reverse.map (·.word)) ++ word.text) rest
    · rw [List.append_assoc, ← same]
      exact whole
    · rwa [byteLen_append, long]
  · have cut : byteRange chunk search.start (search.start + byteLen word.text) =
        some word.text := by
      rw [whole, ← long]
      exact byteRange_append.mpr ⟨rest, same, rfl⟩
    rw [cut, Option.bind_some, RecoveryWord.of_eq_some.mpr rfl] at missing
    cases missing

theorem mem_lengths {search : Search list} {length : Nat} : length ∈ lengths list chunk search ↔
    search.shortest ≤ length ∧ length ≤ min list.longest (byteLen chunk - search.start) := by
  unfold lengths
  rw [List.mem_range'_1]
  omega

/-- Every word that starts here and is not shorter than the bound has a length to try. -/
theorem byteLen_mem_lengths {search : Search list} {word : RecoveryWord list} {rest : Str}
    (inv : Inv list chunk search text) (same : text = word.text ++ rest)
    (long : search.shortest ≤ byteLen word.text) :
    byteLen word.text ∈ lengths list chunk search := by
  have whole := inv.text_eq
  have longest := word.byteLen_le_longest
  rw [same, byteLen_append] at whole
  rw [mem_lengths]
  exact ⟨long, by omega⟩

/-- Where no length yields a word, the text does not split. -/
theorem not_splits_of_findSome?_eq_none {search : Search list} (inv : Inv list chunk search text)
    (more : search.start ≠ byteLen chunk)
    (none : (lengths list chunk search).findSome? (wordOfLength list chunk search) = none) :
    ¬ Splits list text := by
  intro splits
  rcases splits_iff.mp splits with empty | ⟨word, rest, same, after⟩
  · have whole := inv.text_eq
    rw [empty, byteLen_nil] at whole
    omega
  · by_cases short : byteLen word.text < search.shortest
    · exact inv.fails word rest short same after
    · have tried := byteLen_mem_lengths inv same (by omega)
      have missing := List.findSome?_eq_none_iff.mp none _ tried
      exact not_splits_of_wordOfLength_eq_none inv same missing after

/-- Where a length yields a word, all shorter ones lead nowhere. -/
theorem fails_of_findSome?_eq_some {search : Search list} {step : SplitStep list}
    (inv : Inv list chunk search text)
    (found : (lengths list chunk search).findSome? (wordOfLength list chunk search) = some step) :
    Fails list text step.length ∧ search.start + step.length ∉ search.deadEnds ∧
      step.length = byteLen step.word.text ∧ ∃ rest, text = step.word.text ++ rest := by
  obtain ⟨shorter, length, longer, all, taken, missing⟩ := List.findSome?_eq_some_iff.mp found
  obtain ⟨live, own, long, rest, same⟩ := wordOfLength_eq_some inv taken
  refine ⟨?_, by rwa [own], by omega, rest, same⟩
  intro word rest short whole
  by_cases tried : byteLen word.text < search.shortest
  · exact inv.fails word rest tried whole
  · have member := byteLen_mem_lengths inv whole (by omega)
    rw [all, List.mem_append] at member
    rcases member with before | after
    · exact not_splits_of_wordOfLength_eq_none inv whole (missing _ before)
    · -- The lengths are tried in order, so what follows the one taken is no shorter.
      have sorted : (lengths list chunk search).Pairwise (· < ·) := List.pairwise_lt_range'
      rw [all, List.pairwise_append] at sorted
      have later := List.pairwise_cons.mp sorted.2.1
      rcases List.mem_cons.mp after with equal | beyond
      · omega
      · have := later.1 _ beyond
        omega

/-! ### One round -/

/-- What is left to do: positions that are no dead ends yet, and the text behind the
current one. -/
def left (list : WordList) (chunk : Str) (search : Search list) : Nat :=
  (byteLen chunk + 1 - search.deadEnds.card) * (byteLen chunk + 1) +
    (byteLen chunk - search.start)

/-- Taking a word moves on in the chunk. -/
theorem inv_take {search : Search list} {step : SplitStep list} (inv : Inv list chunk search text)
    (found : (lengths list chunk search).findSome? (wordOfLength list chunk search) = some step) :
    (∃ rest, Inv list chunk { search with start := search.start + step.length,
                                          path := step :: search.path, shortest := 1 } rest) ∧
      search.start < search.start + step.length ∧
        search.start + step.length ≤ byteLen chunk := by
  obtain ⟨fails, live, long, rest, same⟩ := fails_of_findSome?_eq_some inv found
  have whole := inv.text_eq
  have positive := step.word.byteLen_pos
  have fits : byteLen text = byteLen step.word.text + byteLen rest := by
    rw [same, byteLen_append]
  refine ⟨⟨rest, ?_⟩, by omega, by omega⟩
  exact {
    follows := ⟨search.start, long, rfl, inv.live, same ▸ fails, same ▸ inv.follows⟩
    dead := inv.dead
    fails := fails_one rest
    live := live
    within := inv.within }

theorem dead_insert {search : Search list} (inv : Inv list chunk search text)
    (stuck : ¬ Splits list text) :
    DeadEndsFail list chunk (insert search.start search.deadEnds) := by
  intro before after whole member
  rcases Finset.mem_insert.mp member with here | known
  · obtain ⟨spelled, long⟩ := inv.follows.spelled
    have same := append_inj_byteLen (whole.symm.trans spelled) (here.trans long.symm)
    rwa [same.2]
  · exact inv.dead before after whole known

theorem within_insert {search : Search list} (inv : Inv list chunk search text) :
    insert search.start search.deadEnds ⊆ Finset.range (byteLen chunk + 1) := by
  intro position member
  rcases Finset.mem_insert.mp member with rfl | known
  · have whole := inv.text_eq
    exact Finset.mem_range.mpr (by omega)
  · exact inv.within known

/-- Going back from a dead end leaves all words up to the one taken behind. -/
theorem inv_back {search : Search list} {step : SplitStep list} {path : List (SplitStep list)}
    (inv : Inv list chunk search text) (stuck : ¬ Splits list text)
    (last : search.path = step :: path) :
    ∃ before, Inv list chunk
      { deadEnds := insert search.start search.deadEnds, path,
        start := search.start - step.length, shortest := step.length + 1 } before := by
  obtain ⟨before, long, next, live, fails, earlier⟩ := last ▸ inv.follows
  have positive := step.word.byteLen_pos
  have back : search.start - step.length = before := by omega
  refine ⟨step.word.text ++ text, ?_⟩
  exact {
    follows := by
      rw [back]
      exact earlier.insert (by omega)
    dead := dead_insert inv stuck
    fails := by
      intro word rest short same
      dsimp only at short
      by_cases equal : byteLen word.text = byteLen step.word.text
      · have own := append_inj_byteLen same.symm equal
        rwa [own.2]
      · exact fails word rest (by omega) same
    live := by
      dsimp only
      rw [back, Finset.mem_insert, not_or]
      exact ⟨by omega, live⟩
    within := within_insert inv }

theorem left_take {search : Search list} {step : SplitStep list}
    (further : search.start < search.start + step.length)
    (fits : search.start + step.length ≤ byteLen chunk) :
    left list chunk { search with start := search.start + step.length,
                                  path := step :: search.path, shortest := 1 } <
      left list chunk search := by
  unfold left
  dsimp only
  omega

theorem left_back {search : Search list} {step : SplitStep list} {path : List (SplitStep list)}
    (inv : Inv list chunk search text) :
    left list chunk { deadEnds := insert search.start search.deadEnds, path,
                      start := search.start - step.length, shortest := step.length + 1 } <
      left list chunk search := by
  have marked := Finset.card_insert_of_notMem inv.live
  have bounded := Finset.card_le_card (within_insert inv)
  rw [marked, Finset.card_range] at bounded
  unfold left
  dsimp only
  rw [marked]
  obtain ⟨spare, same⟩ : ∃ spare, byteLen chunk + 1 - search.deadEnds.card = spare + 1 :=
    ⟨byteLen chunk - search.deadEnds.card, by omega⟩
  have fewer : byteLen chunk + 1 - (search.deadEnds.card + 1) = spare := by omega
  rw [same, fewer]
  have expanded : (spare + 1) * (byteLen chunk + 1) =
      spare * (byteLen chunk + 1) + (byteLen chunk + 1) := by ring
  omega

/-- Every further round keeps the invariant and has less left to do. -/
theorem round_again {search next : Search list} (inv : ∃ text, Inv list chunk search text)
    (again : round list chunk search = .again next) :
    (∃ text, Inv list chunk next text) ∧ left list chunk next < left list chunk search := by
  obtain ⟨text, inv⟩ := inv
  unfold round at again
  split at again
  · cases again
  · rename_i more
    split at again
    · rename_i step found
      cases again
      obtain ⟨kept, further, fits⟩ := inv_take inv found
      exact ⟨kept, left_take further fits⟩
    · rename_i missing
      have stuck := not_splits_of_findSome?_eq_none inv more missing
      dsimp only at again
      split at again
      · cases again
      · rename_i step path last
        cases again
        exact ⟨inv_back inv stuck last, left_back inv⟩

/-- What the last round answers. -/
theorem round_done {search : Search list} {result : Segmentation list}
    (inv : Inv list chunk search text) (done : round list chunk search = .done result) :
    (∃ found, result = .words found ∧ spelling found = chunk) ∨
      result = .unknown ∧ ¬ Splits list chunk := by
  unfold round at done
  split at done
  · rename_i finished
    cases done
    obtain ⟨whole, long⟩ := inv.follows.spelled
    have rest := inv.text_eq
    have nothing : text = [] := byteLen_eq_zero.mp (by omega)
    rw [nothing, List.append_nil] at whole
    exact Or.inl ⟨_, rfl, whole.symm⟩
  · rename_i more
    split at done
    · cases done
    · rename_i missing
      have stuck := not_splits_of_findSome?_eq_none inv more missing
      dsimp only at done
      split at done
      · rename_i bottom
        cases done
        obtain ⟨_, same⟩ := bottom ▸ inv.follows
        exact Or.inr ⟨rfl, same ▸ stuck⟩
      · cases done

/-! ### The whole search -/

variable (list chunk)

/-- The search ends on every chunk. It yields words that spell the chunk, or none do. -/
theorem search_eq : ∃ result, search list chunk = some result ∧
    ((∃ found, result = .words found ∧ spelling found = chunk) ∨
      result = .unknown ∧ ¬ Splits list chunk) := by
  have enough : left list chunk (begin list) < (byteLen chunk + 2) * (byteLen chunk + 2) := by
    unfold left begin
    dsimp only
    rw [Finset.card_empty, Nat.sub_zero, Nat.sub_zero]
    have expanded : (byteLen chunk + 2) * (byteLen chunk + 2) =
        (byteLen chunk + 1) * (byteLen chunk + 1) + 2 * (byteLen chunk + 1) + 1 := by ring
    omega
  obtain ⟨last, result, ⟨text, inv⟩, done, ran⟩ := runLoop_rule (round list chunk)
    (fun search => ∃ text, Inv list chunk search text) (left list chunk)
    (fun _ _ inv again => round_again inv again) _ (begin list) ⟨chunk, inv_begin⟩ enough
  exact ⟨result, ran, round_done inv done⟩

theorem of_eq : (∃ found, of list chunk = .words found ∧ spelling found = chunk) ∨
    of list chunk = .unknown ∧ ¬ Splits list chunk := by
  obtain ⟨result, ran, answer⟩ := search_eq list chunk
  unfold of
  rw [ran, Option.getD_some]
  exact answer

end Segmentation

end Nook.Recovery
