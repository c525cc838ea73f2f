import Nook.Sentinel.MnemonicBits

set_option autoImplicit false

namespace Nook.Sentinel

open Nook.Auth Nook.EventLog Nook.Lib

/-! ### The checksum -/

namespace Checksum

/-- The generators taken in for the bits of `top`. -/
def reduce (top checksum : Nat) (generators : List (Nat × Nat)) : Nat :=
  generators.foldl (fun checksum generator =>
    if (top >>> generator.2) &&& 1 ≠ 0 then checksum ^^^ generator.1 else checksum) checksum

theorem reduce_xor (top checksum other : Nat) (generators : List (Nat × Nat)) :
    reduce top (checksum ^^^ other) generators = reduce top checksum generators ^^^ other := by
  induction generators generalizing checksum with
  | nil => rfl
  | cons generator generators ih =>
    simp only [reduce, List.foldl_cons] at ih ⊢
    split
    · rw [← ih, Nat.xor_assoc, Nat.xor_comm other, ← Nat.xor_assoc]
    · exact ih checksum

theorem reduce_lt {top checksum : Nat} (small : checksum < 2 ^ 30) {generators : List (Nat × Nat)}
    (bounds : ∀ generator ∈ generators, generator.1 < 2 ^ 30) :
    reduce top checksum generators < 2 ^ 30 := by
  induction generators generalizing checksum with
  | nil => exact small
  | cons generator generators ih =>
    have rest : ∀ other ∈ generators, other.1 < 2 ^ 30 := fun other member =>
      bounds other (List.mem_cons_of_mem _ member)
    simp only [reduce, List.foldl_cons] at ih ⊢
    split
    · exact ih (Nat.xor_lt_two_pow small (bounds generator (by simp))) rest
    · exact ih small rest

theorem step_eq (checksum value : Nat) : step checksum value =
    reduce (checksum >>> 20) (((checksum &&& 0xfffff) <<< 10) ^^^ value) GENERATORS.zipIdx :=
  rfl

theorem step_lt (checksum : Nat) {value : Nat} (small : value < 1024) :
    step checksum value < 2 ^ 30 := by
  have low : checksum &&& 0xfffff < 2 ^ 20 := by
    rw [show 0xfffff = 2 ^ 20 - 1 by rfl, Nat.and_two_pow_sub_one_eq_mod]
    exact Nat.mod_lt _ (by decide)
  have shifted : (checksum &&& 0xfffff) <<< 10 < 2 ^ 30 := by
    rw [Nat.shiftLeft_eq]
    omega
  exact reduce_lt (Nat.xor_lt_two_pow shifted (by omega)) (by decide)

/-- What is added below the top ten bits is only moved on. -/
theorem step_xor (checksum value other : Nat) {added : Nat} (small : added < 2 ^ 20) :
    step (checksum ^^^ added) (value ^^^ other) =
      step checksum value ^^^ ((added <<< 10) ^^^ other) := by
  have top : (checksum ^^^ added) >>> 20 = checksum >>> 20 := by
    rw [Nat.shiftRight_xor_distrib, Nat.shiftRight_eq_div_pow added, Nat.div_eq_of_lt small,
      Nat.xor_zero]
  have low : added &&& 0xfffff = added := by
    rw [show 0xfffff = 2 ^ 20 - 1 by rfl, Nat.and_two_pow_sub_one_eq_mod, Nat.mod_eq_of_lt small]
  rw [step_eq, step_eq, top, ← reduce_xor, Nat.and_xor_distrib_right, low,
    Nat.shiftLeft_xor_distrib]
  congr 1
  ac_rfl

theorem shiftLeft_xor (high : Nat) {low : Nat} (small : low < 1024) :
    (high <<< 10) ^^^ low = high * 1024 + low := by
  have joined : high * 1024 + low = 2 ^ 10 * high + low := by omega
  rw [joined]
  apply Nat.eq_of_testBit_eq
  intro place
  rw [Nat.testBit_xor, Nat.testBit_shiftLeft, Nat.testBit_two_pow_mul_add _ small]
  by_cases inside : place < 10
  · simp [inside, Nat.not_le.mpr inside]
  · have large : 1024 ≤ 2 ^ place := Nat.pow_le_pow_right (by decide : 0 < 2) (by omega : 10 ≤ place)
    rw [Nat.testBit_lt_two_pow (by omega : low < 2 ^ place)]
    simp [inside, Nat.le_of_not_lt inside]

theorem polymod_append (values more : List Nat) :
    polymod (values ++ more) = more.foldl step (polymod values) := by
  rw [polymod, polymod, List.foldl_append]

/-- Three words in place of the three zeros are added to the result. -/
theorem polymod_words (values : List Nat) {first second third : Nat} (smallFirst : first < 1024)
    (smallSecond : second < 1024) (smallThird : third < 1024) :
    polymod (values ++ [first, second, third]) =
      polymod (values ++ [0, 0, 0]) ^^^ (first * 2 ^ 20 + second * 2 ^ 10 + third) := by
  have one := step_xor (polymod values) 0 first (Nat.two_pow_pos 20)
  have two := step_xor (step (polymod values) 0) 0 second (by omega : first < 2 ^ 20)
  have joined : (first <<< 10) ^^^ second = first * 1024 + second := shiftLeft_xor first smallSecond
  have three := step_xor (step (step (polymod values) 0) 0) 0 third
    (by omega : first * 1024 + second < 2 ^ 20)
  rw [Nat.zero_xor, Nat.xor_zero, Nat.zero_shiftLeft, Nat.zero_xor] at one
  rw [Nat.zero_xor, joined] at two
  rw [Nat.zero_xor, shiftLeft_xor _ smallThird] at three
  rw [polymod_append, polymod_append]
  have total : (first * 1024 + second) * 1024 + third = first * 2 ^ 20 + second * 2 ^ 10 + third := by
    omega
  rw [← total]
  simp only [List.foldl_cons, List.foldl_nil, one, two, three]

/-- The three words of a number of thirty bits. -/
theorem words_eq {number first second third : Nat} (small : number < 2 ^ 30)
    (smallFirst : first < 1024) (smallSecond : second < 1024) (smallThird : third < 1024) :
    first * 2 ^ 20 + second * 2 ^ 10 + third = number ↔
      [first, second, third] = [(number >>> 20) &&& 1023, (number >>> 10) &&& 1023, number &&& 1023] := by
  simp only [show 1023 = 2 ^ 10 - 1 by rfl, Nat.and_two_pow_sub_one_eq_mod,
    Nat.shiftRight_eq_div_pow, List.cons.injEq, and_true]
  omega

/-- The checksum words are the only ones that verify. -/
theorem verify_append (data : List Nat) {first second third : Nat} (smallFirst : first < 1024)
    (smallSecond : second < 1024) (smallThird : third < 1024) :
    verify (data ++ [first, second, third]) = true ↔ [first, second, third] = create data := by
  let values := EXTENDABLE_CUSTOMIZATION.map Char.toNat ++ data
  let written := first * 2 ^ 20 + second * 2 ^ 10 + third
  have bound : polymod (values ++ [0, 0, 0]) < 2 ^ 30 := by
    rw [polymod_append]
    exact step_lt _ (by decide)
  have wordsOf : [first, second, third] = create data ↔
      written = polymod (values ++ [0, 0, 0]) ^^^ 1 :=
    (words_eq (Nat.xor_lt_two_pow bound (by decide)) smallFirst smallSecond smallThird).symm
  have verified : verify (data ++ [first, second, third]) = true ↔
      polymod (values ++ [0, 0, 0]) ^^^ written = 1 := by
    rw [verify, ← List.append_assoc, polymod_words _ smallFirst smallSecond smallThird,
      decide_eq_true_iff]
  rw [wordsOf, verified]
  constructor
  · intro one
    rw [← one, ← Nat.xor_assoc, Nat.xor_self, Nat.zero_xor]
  · intro same
    rw [same, ← Nat.xor_assoc, Nat.xor_self, Nat.zero_xor]

theorem create_eq (data : List Nat) : ∃ first second third, create data = [first, second, third] ∧
    first < 1024 ∧ second < 1024 ∧ third < 1024 := by
  refine ⟨_, _, _, rfl, ?_, ?_, ?_⟩
  all_goals
    rw [show 1023 = 2 ^ 10 - 1 by rfl, Nat.and_two_pow_sub_one_eq_mod]
    exact Nat.mod_lt _ (by decide)

end Checksum

/-! ### The words of a mnemonic -/

theorem joinWords_cons (word next : Str) (words : List Str) :
    joinWords (word :: next :: words) = word ++ ' ' :: joinWords (next :: words) := by
  simp [joinWords, List.intercalate]

theorem splitWhitespace_joinWords {words : List Str} (plain : ∀ word ∈ words,
    word ≠ [] ∧ ∀ char ∈ word, isWhitespace char = false) :
    splitWhitespace (joinWords words) = words := by
  induction words with
  | nil => simp [splitWhitespace, joinWords]
  | cons word rest ih =>
    have own := plain word (by simp)
    cases rest with
    | nil =>
      have single : joinWords [word] = word := by simp [joinWords]
      rw [single, splitWhitespace, List.splitOnP_eq_singleton own.2]
      simp [own.1]
    | cons next others =>
      have later := ih fun other member => plain other (List.mem_cons_of_mem _ member)
      simp only [splitWhitespace] at later ⊢
      rw [joinWords_cons, List.splitOnP_append_cons_of_forall_mem own.2 ' ' (by decide),
        List.filter_cons, later]
      simp [own.1]

/-! ### Shares and indices -/

namespace Share

/-- The metadata that fits the code, and a value of 32 bytes. -/
structure WellFormed (share : Share) : Prop where
  identifier : share.identifier < 2 ^ 15
  iterationExponent : share.iterationExponent < 16
  memberIndex : share.memberIndex < 16
  threshold : 1 ≤ share.memberThreshold ∧ share.memberThreshold ≤ 16
  value : share.value.length = SECRET_BYTES

theorem integerWords_two (value : Nat) :
    MnemonicWords.integerWords value 2 = [value / 1024 % 1024, value % 1024] := by
  show [(value >>> 10) &&& (2 ^ 10 - 1), value &&& (2 ^ 10 - 1)] = _
  rw [Nat.and_two_pow_sub_one_eq_mod, Nat.and_two_pow_sub_one_eq_mod, Nat.shiftRight_eq_div_pow]

theorem wordsToU32_two {high low : Nat} (small : low < 1024) :
    MnemonicWords.wordsToU32 [high, low] = high * 1024 + low := by
  simp only [MnemonicWords.wordsToU32, List.foldl_cons, List.foldl_nil, Nat.zero_shiftLeft,
    Nat.zero_or]
  rw [← Nat.shiftLeft_add_eq_or_of_lt small, Nat.shiftLeft_eq]

theorem idExtExponent_eq {identifier exponent : Nat} (small : exponent < 16) :
    (identifier <<< 5) ||| (1 <<< 4) ||| exponent = identifier * 32 + 16 + exponent := by
  have lower : (1 <<< 4) ||| exponent = 16 + exponent :=
    (Nat.shiftLeft_add_eq_or_of_lt small 1).symm
  rw [Nat.or_assoc, lower, ← Nat.shiftLeft_add_eq_or_of_lt (by omega), Nat.shiftLeft_eq]
  omega

theorem parameters_eq {memberIndex rest : Nat} (small : rest < 16) :
    (memberIndex <<< 4) ||| rest = memberIndex * 16 + rest := by
  rw [← Nat.shiftLeft_add_eq_or_of_lt small, Nat.shiftLeft_eq]

theorem indices_eq {share : Share} (wellFormed : share.WellFormed) {words : List Nat}
    (converted : MnemonicWords.bytesToWords share.value = .ok words) :
    share.indices =
      let idExtExponent := share.identifier * 32 + 16 + share.iterationExponent
      let parameters := share.memberIndex * 16 + (share.memberThreshold - 1)
      let data := [idExtExponent / 1024 % 1024, idExtExponent % 1024, parameters / 1024 % 1024,
        parameters % 1024] ++ words
      .ok (data ++ Checksum.create data) := by
  have bound := wellFormed.threshold.2
  rw [indices, idExtExponent_eq wellFormed.iterationExponent, parameters_eq (by omega), converted,
    integerWords_two, integerWords_two]
  rfl

theorem length_wordsToBytes {words : List Nat} {bytes : List Byte} (length : words.length = 26)
    (converted : MnemonicWords.wordsToBytes words = .ok bytes) : bytes.length = SECRET_BYTES := by
  obtain ⟨small, padding⟩ := MnemonicWords.wordsToBytes_ok length converted
  obtain ⟨own, same, size, _⟩ := MnemonicWords.wordsToBytes_eq length small padding
  rw [Except.ok.inj (converted.symm.trans same)]
  exact size

theorem decodeFields_eq_ok {idExtExponent parameters : Nat} (smallId : idExtExponent < 2 ^ 20)
    (smallParameters : parameters < 2 ^ 20) {words : List Nat} (length : words.length = 26)
    {share : Share} :
    decodeFields idExtExponent parameters words = .ok share ↔
      idExtExponent / 16 % 2 = 1 ∧ parameters < 256 ∧ share.identifier = idExtExponent / 32 ∧
      share.iterationExponent = idExtExponent % 16 ∧ share.memberIndex = parameters / 16 ∧
      share.memberThreshold = parameters % 16 + 1 ∧
      MnemonicWords.wordsToBytes words = .ok share.value := by
  have low : ∀ number, number &&& 15 = number % 16 := fun number =>
    Nat.and_two_pow_sub_one_eq_mod number 4
  rw [decodeFields]
  simp only [low, Nat.and_one_is_mod, Nat.shiftRight_eq_div_pow]
  by_cases accepted : idExtExponent / 16 % 2 = 1 ∧ parameters < 256
  · rw [if_neg (by omega), if_neg (by omega)]
    constructor
    · intro decoded
      obtain ⟨value, converted, decoded⟩ := bind_eq_ok.mp decoded
      rw [if_neg (not_not.mpr (length_wordsToBytes length converted))] at decoded
      cases decoded
      exact ⟨accepted.1, accepted.2, rfl, rfl, by simp only; omega, rfl, converted⟩
    · rintro ⟨_, _, identifier, exponent, index, threshold, converted⟩
      rw [converted]
      show (if share.value.length ≠ SECRET_BYTES then _ else _) = _
      rw [if_neg (not_not.mpr (length_wordsToBytes length converted))]
      cases share
      simp only at identifier exponent index threshold
      simp only [pure, Except.pure, Except.ok.injEq, mk.injEq, and_true]
      omega
  · constructor
    · intro decoded
      split at decoded
      · cases decoded
      · split at decoded
        · cases decoded
        · exact absurd ⟨by omega, by omega⟩ accepted
    · rintro ⟨extendable, group, _⟩
      exact absurd ⟨extendable, group⟩ accepted

theorem decodeIndices_eq {i0 i1 i2 i3 c1 c2 c3 : Nat} {words : List Nat} (small1 : i1 < 1024)
    (small3 : i3 < 1024) (length : words.length = 26) :
    decodeIndices ([i0, i1, i2, i3] ++ words ++ [c1, c2, c3]) =
      if Checksum.verify ([i0, i1, i2, i3] ++ words ++ [c1, c2, c3]) = true then
        decodeFields (i0 * 1024 + i1) (i2 * 1024 + i3) words
      else .error .invalidSentinelShareEncoding := by
  have count : ([i0, i1, i2, i3] ++ words ++ [c1, c2, c3]).length = MNEMONIC_WORDS_256 := by
    simp [length, MNEMONIC_WORDS_256]
  have head : ([i0, i1, i2, i3] ++ words).length = MNEMONIC_WORDS_256 - CHECKSUM_WORDS := by
    simp [length, MNEMONIC_WORDS_256, CHECKSUM_WORDS]
  have middle : (([i0, i1, i2, i3] ++ words ++ [c1, c2, c3]).take
      (MNEMONIC_WORDS_256 - CHECKSUM_WORDS)).drop METADATA_WORDS = words := by
    rw [List.take_left' head]
    rfl
  rw [decodeIndices, count]
  simp only [middle, ne_eq, not_true_eq_false, false_or]
  show (if ¬ _ then _ else decodeFields (MnemonicWords.wordsToU32 [i0, i1])
    (MnemonicWords.wordsToU32 [i2, i3]) words) = _
  rw [wordsToU32_two small1, wordsToU32_two small3]
  split <;> rename_i verified <;> simp_all

/-! ### The code is a bijection -/

/-- The words of an index list. -/
def wordsOf (indices : List Nat) : List Str := indices.map fun index => WordList.values.getD index []

theorem getElem?_values {index : Nat} (small : index < 1024) :
    WordList.values[index]? = some (WordList.values.getD index []) := by
  have inside : index < WordList.values.length := by
    rw [WordList.length_values]
    exact small
  simp [inside]

theorem encode_eq {share : Share} (wellFormed : share.WellFormed) {indices : List Nat}
    (found : share.indices = .ok indices) (small : ∀ index ∈ indices, index < 1024) :
    share.encode = .ok (joinWords (wordsOf indices)) := by
  obtain ⟨_, exponent, memberIndex, threshold, size⟩ := wellFormed
  have words : indices.mapM wordAt = .ok (wordsOf indices) := by
    apply mapM_eq_ok_map
    intro index member
    rw [wordAt, getElem?_values (small index member)]
  rw [encode, if_neg (by omega), found]
  exact congrArg (· >>= fun words => pure (joinWords words)) words

theorem mapM_indexOf {indices : List Nat} (small : ∀ index ∈ indices, index < 1024) :
    (wordsOf indices).mapM indexOf = .ok indices := by
  have positions : ∀ index ∈ indices,
      WordList.position (WordList.values.getD index []) = some index := fun index member =>
    WordList.position_eq_some.mpr (getElem?_values (small index member))
  have found : (wordsOf indices).mapM indexOf =
      .ok ((wordsOf indices).map fun word => (WordList.position word).getD 0) := by
    apply mapM_eq_ok_map
    intro word member
    obtain ⟨index, inside, rfl⟩ := List.mem_map.mp member
    rw [indexOf, positions index inside]
    rfl
  rw [found, wordsOf, List.map_map]
  congr 1
  conv_rhs => rw [← List.map_id indices]
  apply List.map_congr_left
  intro index member
  simp only [Function.comp_apply, positions index member]
  rfl

theorem mapM_indexOf_ok {words : List Str} {indices : List Nat}
    (found : words.mapM indexOf = .ok indices) :
    words = wordsOf indices ∧ ∀ index ∈ indices, index < 1024 := by
  have step : ∀ word index, indexOf word = .ok index → WordList.position word = some index := by
    intro word index ok
    rw [indexOf] at ok
    split at ok
    · cases ok
    · rename_i there
      cases ok
      exact there
  constructor
  · have same := map_mapM_eq_ok (f := fun index => WordList.values.getD index []) (g := id)
      (fun word index ok => by
        have there := WordList.position_eq_some.mp (step word index ok)
        simp [there]) found
    rw [wordsOf, same, List.map_id]
  · intro index member
    obtain ⟨word, _, ok⟩ := (mem_of_mapM_eq_ok found).mp member
    exact WordList.position_lt (step word index ok)

theorem plain_wordsOf {indices : List Nat} (small : ∀ index ∈ indices, index < 1024) :
    ∀ word ∈ wordsOf indices, word ≠ [] ∧ ∀ char ∈ word, isWhitespace char = false := by
  intro word member
  obtain ⟨index, inside, rfl⟩ := List.mem_map.mp member
  exact WordList.plain_values (List.mem_of_getElem? (getElem?_values (small index inside)))

theorem two_words {number : Nat} (small : number < 1048576) :
    number / 1024 % 1024 * 1024 + number % 1024 = number := by
  omega

/-- The indices of a share are accepted and give the share. -/
theorem decodeIndices_indices {share : Share} (wellFormed : share.WellFormed) :
    ∃ indices, share.indices = .ok indices ∧ (∀ index ∈ indices, index < 1024) ∧
      decodeIndices indices = .ok share := by
  obtain ⟨words, converted, length, small, _⟩ := MnemonicWords.bytesToWords_eq wellFormed.value
  have back := MnemonicWords.wordsToBytes_bytesToWords wellFormed.value converted
  have found := indices_eq wellFormed converted
  obtain ⟨identifier, exponent, memberIndex, threshold, size⟩ := wellFormed
  obtain ⟨idExtExponent, exact⟩ : ∃ number,
      number = share.identifier * 32 + 16 + share.iterationExponent := ⟨_, rfl⟩
  obtain ⟨parameters, exactParameters⟩ : ∃ number,
      number = share.memberIndex * 16 + (share.memberThreshold - 1) := ⟨_, rfl⟩
  have smallId : idExtExponent < 1048576 := by omega
  have smallParameters : parameters < 256 := by omega
  dsimp only at found
  rw [← exact, ← exactParameters] at found
  let data := [idExtExponent / 1024 % 1024, idExtExponent % 1024, parameters / 1024 % 1024,
    parameters % 1024] ++ words
  obtain ⟨first, second, third, created, smallFirst, smallSecond, smallThird⟩ :=
    Checksum.create_eq data
  have bounds : ∀ number : Nat, number % 1024 < 1024 := fun number => Nat.mod_lt _ (by decide)
  have verified : Checksum.verify (data ++ [first, second, third]) = true :=
    (Checksum.verify_append data smallFirst smallSecond smallThird).mpr created.symm
  refine ⟨data ++ [first, second, third], created ▸ found, ?_, ?_⟩
  · intro index member
    rcases List.mem_append.mp member with early | checksum
    · rcases List.mem_append.mp early with metadata | value
      · simp only [List.mem_cons, List.not_mem_nil, or_false] at metadata
        rcases metadata with same | same | same | same
        all_goals exact same ▸ bounds _
      · exact small index value
    · simp only [List.mem_cons, List.not_mem_nil, or_false] at checksum
      omega
  · rw [decodeIndices_eq (bounds _) (bounds _) length, if_pos verified, two_words smallId,
      two_words (by omega), decodeFields_eq_ok (by omega) (by omega) length]
    refine ⟨?_, ?_, ?_, ?_, ?_, ?_, back⟩
    all_goals omega

/-- Accepted indices are those of the share they give. -/
theorem indices_decodeIndices {indices : List Nat} (small : ∀ index ∈ indices, index < 1024)
    {share : Share} (decoded : decodeIndices indices = .ok share) :
    share.WellFormed ∧ share.indices = .ok indices := by
  have count : indices.length = MNEMONIC_WORDS_256 := by
    by_contra differ
    rw [decodeIndices, if_pos (.inl differ)] at decoded
    cases decoded
  obtain ⟨i0, i1, i2, i3, rest, rfl⟩ : ∃ i0 i1 i2 i3 rest, indices = i0 :: i1 :: i2 :: i3 :: rest := by
    match indices, count with
    | i0 :: i1 :: i2 :: i3 :: rest, _ => exact ⟨i0, i1, i2, i3, rest, rfl⟩
  have restLength : rest.length = 29 := by
    simpa [MNEMONIC_WORDS_256] using count
  obtain ⟨c1, c2, c3, tail⟩ : ∃ c1 c2 c3, rest.drop 26 = [c1, c2, c3] := by
    have three : (rest.drop 26).length = 3 := by
      rw [List.length_drop, restLength]
    exact List.length_eq_three.mp three
  have whole : i0 :: i1 :: i2 :: i3 :: rest = [i0, i1, i2, i3] ++ rest.take 26 ++ [c1, c2, c3] := by
    rw [← tail, List.append_assoc, List.take_append_drop]
    rfl
  have length : (rest.take 26).length = 26 := by
    rw [List.length_take, restLength]
    rfl
  have bounds : i0 < 1024 ∧ i1 < 1024 ∧ i2 < 1024 ∧ i3 < 1024 :=
    ⟨small i0 (by simp), small i1 (by simp), small i2 (by simp), small i3 (by simp)⟩
  have tailBounds : ∀ index ∈ [c1, c2, c3], index < 1024 := by
    intro index member
    rw [← tail] at member
    apply small index
    simp [List.mem_of_mem_drop member]
  rw [whole] at decoded ⊢
  rw [decodeIndices_eq bounds.2.1 bounds.2.2.2 length] at decoded
  split at decoded
  · rename_i verified
    rw [decodeFields_eq_ok (by omega) (by omega) length] at decoded
    obtain ⟨extendable, group, identifier, exponent, memberIndex, threshold, value⟩ := decoded
    have created := (Checksum.verify_append _ (tailBounds c1 (by simp)) (tailBounds c2 (by simp))
      (tailBounds c3 (by simp))).mp verified
    have wellFormed : share.WellFormed := by
      refine ⟨by omega, by omega, by omega, by omega, length_wordsToBytes length value⟩
    refine ⟨wellFormed, ?_⟩
    have first : share.identifier * 32 + 16 + share.iterationExponent = i0 * 1024 + i1 := by omega
    have second : share.memberIndex * 16 + (share.memberThreshold - 1) = i2 * 1024 + i3 := by omega
    have high : ∀ a b : Nat, a < 1024 → b < 1024 →
        (a * 1024 + b) / 1024 % 1024 = a ∧ (a * 1024 + b) % 1024 = b := by
      intro a b smallA smallB
      omega
    rw [indices_eq wellFormed (MnemonicWords.bytesToWords_wordsToBytes length value), created, first,
      second]
    simp only [high i0 i1 bounds.1 bounds.2.1, high i2 i3 bounds.2.2.1 bounds.2.2.2]
  · cases decoded

theorem decode_of_encode {share : Share} (wellFormed : share.WellFormed) :
    ∃ mnemonic, share.encode = .ok mnemonic ∧ decode mnemonic = .ok share := by
  obtain ⟨indices, found, small, decoded⟩ := decodeIndices_indices wellFormed
  refine ⟨_, encode_eq wellFormed found small, ?_⟩
  rw [decode, splitWhitespace_joinWords (plain_wordsOf small), mapM_indexOf small]
  exact decoded

theorem encode_of_decode {mnemonic : Str} {share : Share} (decoded : decode mnemonic = .ok share) :
    share.WellFormed ∧ share.encode = .ok (joinWords (splitWhitespace mnemonic)) := by
  obtain ⟨indices, found, decoded⟩ := bind_eq_ok.mp decoded
  obtain ⟨words, small⟩ := mapM_indexOf_ok found
  obtain ⟨wellFormed, same⟩ := indices_decodeIndices small decoded
  rw [words]
  exact ⟨wellFormed, encode_eq wellFormed same small⟩

/-- The words of an accepted mnemonic are those of its share. -/
theorem words_of_decode {mnemonic other : Str} {share : Share}
    (decoded : decode mnemonic = .ok share) (decodedOther : decode other = .ok share) :
    splitWhitespace mnemonic = splitWhitespace other := by
  have plain : ∀ text, decode text = .ok share → ∀ word ∈ splitWhitespace text,
      word ≠ [] ∧ ∀ char ∈ word, isWhitespace char = false := by
    intro text ok
    obtain ⟨indices, found, _⟩ := bind_eq_ok.mp ok
    obtain ⟨words, small⟩ := mapM_indexOf_ok found
    rw [words]
    exact plain_wordsOf small
  have joined := (encode_of_decode decoded).2.symm.trans (encode_of_decode decodedOther).2
  rw [← splitWhitespace_joinWords (plain mnemonic decoded), Except.ok.inj joined,
    splitWhitespace_joinWords (plain other decodedOther)]

theorem mnemonic_bijection :
    (∀ share : Share, share.WellFormed →
      ∃ mnemonic, share.encode = .ok mnemonic ∧ decode mnemonic = .ok share) ∧
    (∀ mnemonic share, decode mnemonic = .ok share →
      share.encode = .ok (joinWords (splitWhitespace mnemonic))) ∧
    ∀ mnemonic other share, decode mnemonic = .ok share → decode other = .ok share →
      splitWhitespace mnemonic = splitWhitespace other :=
  ⟨fun _ wellFormed => decode_of_encode wellFormed, fun _ _ decoded => (encode_of_decode decoded).2,
    fun _ _ _ decoded decodedOther => words_of_decode decoded decodedOther⟩

end Share

namespace TestSupport

def zeroShare : Share where
  identifier := 7
  iterationExponent := 0
  memberIndex := 2
  memberThreshold := 3
  value := List.replicate 32 0

theorem mnemonic_bijection_zero : ∃ mnemonic, zeroShare.encode = .ok mnemonic ∧
    Share.decode mnemonic = .ok zeroShare ∧
    zeroShare.encode = .ok (joinWords (splitWhitespace mnemonic)) := by
  have wellFormed : zeroShare.WellFormed := by
    constructor <;> decide
  obtain ⟨mnemonic, encoded, decoded⟩ := Share.mnemonic_bijection.1 zeroShare wellFormed
  exact ⟨mnemonic, encoded, decoded, Share.mnemonic_bijection.2.1 mnemonic zeroShare decoded⟩

end TestSupport

end Nook.Sentinel
