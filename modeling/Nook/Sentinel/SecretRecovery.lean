import Nook.Sentinel.SecretSharing

set_option autoImplicit false

namespace Nook.Sentinel

open Nook.Auth Nook.Lib

/-- A fold that skips one position. -/
theorem foldl_zipIdx_skip {α β : Type} (step : β → α → β) (position offset : Nat) (list : List α)
    (start : β) : (list.zipIdx offset).foldl
      (fun state entry => if position = entry.2 then state else step state entry.1) start =
    if position < offset then list.foldl step start
    else (list.eraseIdx (position - offset)).foldl step start := by
  induction list generalizing offset start with
  | nil => simp
  | cons head tail ih =>
    rw [List.zipIdx_cons, List.foldl_cons, ih]
    by_cases here : position = offset
    · simp [here]
    · simp only [if_neg here, List.foldl_cons]
      by_cases before : position < offset
      · rw [if_pos before, if_pos (by omega)]
      · have later : position - offset = (position - (offset + 1)) + 1 := by omega
        rw [if_neg before, if_neg (by omega), later, List.eraseIdx_cons_succ, List.foldl_cons]

namespace IndexedShare

/-- The indexes as elements of the field. -/
def nodes (shares : List IndexedShare) : List Gf256 := shares.map fun share => ⟨share.index⟩

theorem nodup_nodes {shares : List IndexedShare} :
    (nodes shares).Nodup ↔ (shares.map index).Nodup := by
  have same : nodes shares = (shares.map index).map Gf256.mk := by
    simp [nodes]
  rw [same, List.nodup_map_iff fun _ _ => congrArg Gf256.bits]

/-! ### The weight of a share -/

theorem weightFraction_eq (admitted : List IndexedShare) (i : Nat) (shareI : IndexedShare) :
    (⟨(weightFraction admitted i shareI).1⟩ : Gf256) = ((nodes admitted).eraseIdx i).prod ∧
    (⟨(weightFraction admitted i shareI).2⟩ : Gf256) =
      (((nodes admitted).eraseIdx i).map fun node => (⟨shareI.index⟩ : Gf256) - node).prod := by
  let step : Byte × Byte → IndexedShare → Byte × Byte := fun fraction shareJ =>
    (gfMul fraction.1 shareJ.index, gfMul fraction.2 (shareI.index ^^^ shareJ.index))
  have skipped : weightFraction admitted i shareI = (admitted.eraseIdx i).foldl step (1, 1) :=
    foldl_zipIdx_skip step i 0 admitted (1, 1)
  have products : ∀ (others : List IndexedShare) (fraction : Byte × Byte),
      (⟨(others.foldl step fraction).1⟩ : Gf256) = ⟨fraction.1⟩ * (nodes others).prod ∧
      (⟨(others.foldl step fraction).2⟩ : Gf256) =
        ⟨fraction.2⟩ * ((nodes others).map fun node => (⟨shareI.index⟩ : Gf256) - node).prod := by
    intro others
    induction others with
    | nil => simp [nodes]
    | cons shareJ others ih =>
      intro fraction
      have numerator := (ih (step fraction shareJ)).1
      have denominator := (ih (step fraction shareJ)).2
      simp only [nodes] at numerator denominator ⊢
      simp only [List.foldl_cons, List.map_cons, List.prod_cons, numerator, denominator, step,
        mk_gfMul, FieldElement.mk_xor_sub, mul_assoc, and_self]
  have one : (⟨1⟩ : Gf256) = 1 := rfl
  have both := products (admitted.eraseIdx i) (1, 1)
  rw [← skipped, one, one_mul, one_mul] at both
  rwa [show nodes (admitted.eraseIdx i) = (nodes admitted).eraseIdx i from
    (List.eraseIdx_map ..).symm] at both

/-- The denominator vanishes when the index is repeated, and only then. -/
theorem denominator_eq_zero {admitted : List IndexedShare} {i : Nat} {shareI : IndexedShare} :
    (weightFraction admitted i shareI).2 = 0 ↔
      ∃ j ≠ i, (admitted.map index)[j]? = some shareI.index := by
  rw [← FieldElement.mk_eq_zero, (weightFraction_eq admitted i shareI).2, List.prod_eq_zero_iff]
  simp only [List.mem_map, sub_eq_zero, List.mem_eraseIdx_iff_getElem?]
  constructor
  · rintro ⟨node, ⟨j, other, found⟩, same⟩
    obtain ⟨shareJ, there, rfl⟩ : ∃ shareJ, admitted[j]? = some shareJ ∧ ⟨shareJ.index⟩ = node := by
      simpa [nodes] using found
    exact ⟨j, other, by simpa [there] using (congrArg Gf256.bits same).symm⟩
  · rintro ⟨j, other, found⟩
    obtain ⟨shareJ, there, same⟩ : ∃ shareJ, admitted[j]? = some shareJ ∧
        shareJ.index = shareI.index := by
      simpa using found
    exact ⟨⟨shareJ.index⟩, ⟨j, other, by simp [nodes, there]⟩, by rw [same]⟩

/-- Distinct indexes never lead to a division by zero. -/
theorem denominator_ne_zero {admitted : List IndexedShare} (distinct : (admitted.map index).Nodup)
    {i : Nat} {shareI : IndexedShare} (found : admitted[i]? = some shareI) :
    (weightFraction admitted i shareI).2 ≠ 0 := by
  intro zero
  obtain ⟨j, other, repeated⟩ := denominator_eq_zero.mp zero
  have same : (admitted.map index)[i]? = some shareI.index := by
    rw [List.getElem?_map, found]
    rfl
  have inside : j < (admitted.map index).length := (List.getElem?_eq_some_iff.mp repeated).1
  exact other ((List.getElem?_inj inside distinct).mp (repeated.trans same.symm))

theorem weight_eq {admitted : List IndexedShare} (distinct : (admitted.map index).Nodup) {i : Nat}
    {shareI : IndexedShare} (found : admitted[i]? = some shareI) :
    (⟨gfMul (weightFraction admitted i shareI).1 (gfInv (weightFraction admitted i shareI).2)⟩ :
      Gf256) = basisAt (nodes admitted) 0 ⟨shareI.index⟩ := by
  have quotient : ∀ others : List Gf256,
      others.prod * ((others.map fun node => (⟨shareI.index⟩ : Gf256) - node).prod)⁻¹ =
        (others.map fun other => (0 - other) / ((⟨shareI.index⟩ : Gf256) - other)).prod := by
    intro others
    induction others with
    | nil => simp
    | cons other others ih =>
      have negated : (0 : Gf256) - other = other := by
        rw [zero_sub]
        rfl
      rw [List.map_cons, List.map_cons, List.prod_cons, List.prod_cons, List.prod_cons, ← ih,
        negated, mul_inv, div_eq_mul_inv]
      ring
  obtain ⟨bound, here⟩ := List.getElem?_eq_some_iff.mp found
  have inside : i < (nodes admitted).length := by simpa [nodes] using bound
  have node : (nodes admitted)[i] = ⟨shareI.index⟩ := by simp [nodes, here]
  have erased : (nodes admitted).filter (· ≠ ⟨shareI.index⟩) = (nodes admitted).eraseIdx i := by
    have nodup := nodup_nodes.mpr distinct
    rw [← node, ← List.erase_eq_eraseIdx_of_idxOf (nodup.idxOf_getElem i inside),
      nodup.erase_eq_filter]
    apply List.filter_congr
    intro other _
    by_cases same : other = (nodes admitted)[i] <;> simp [same]
  obtain ⟨numerator, denominator⟩ := weightFraction_eq admitted i shareI
  rw [mk_gfMul, mk_gfInv, numerator, denominator, quotient, basisAt, erased]

/-! ### Reconstruction of one byte -/

/-- The shares are values of the given polynomials. -/
def OnCurves (curves : List (Polynomial Gf256)) (shares : List IndexedShare) : Prop :=
  ∀ share ∈ shares, share.bytes = bytesAt curves share.index

/-- What the curve adds to the byte at the index of a share. -/
def term (admitted : List IndexedShare) (curve : Polynomial Gf256) (share : IndexedShare) : Gf256 :=
  curve.eval ⟨share.index⟩ * basisAt (nodes admitted) 0 ⟨share.index⟩

theorem addWeighted_eq {admitted : List IndexedShare} {curves : List (Polynomial Gf256)}
    (distinct : (admitted.map index).Nodup) (values : OnCurves curves admitted) {byteIndex : Nat}
    {curve : Polynomial Gf256} (found : curves[byteIndex]? = some curve) (value : Byte)
    {entry : IndexedShare × Nat} (member : entry ∈ admitted.zipIdx) :
    addWeighted admitted byteIndex value entry =
      .ok (value ^^^ (term admitted curve entry.1).bits) := by
  have here : admitted[entry.2]? = some entry.1 := List.mem_zipIdx_iff_getElem?.mp member
  have nonzero := denominator_ne_zero distinct here
  have byte : entry.1.bytes[byteIndex]? = some (curve.eval ⟨entry.1.index⟩).bits := by
    rw [values entry.1 (List.mem_of_getElem? here), bytesAt, List.getElem?_map, found]
    rfl
  have product : (⟨gfMul (curve.eval ⟨entry.1.index⟩).bits
      (gfMul (weightFraction admitted entry.2 entry.1).1
        (gfInv (weightFraction admitted entry.2 entry.1).2))⟩ : Gf256) =
      term admitted curve entry.1 := by
    rw [mk_gfMul, weight_eq distinct here, term]
  rw [addWeighted]
  simp only [if_neg nonzero, byte, ← product]

theorem mk_foldl_xor {α : Type} (term : α → Gf256) (entries : List α) (value : Byte) :
    (⟨entries.foldl (fun value entry => value ^^^ (term entry).bits) value⟩ : Gf256) =
      ⟨value⟩ + (entries.map term).sum := by
  induction entries generalizing value with
  | nil => simp
  | cons entry entries ih =>
    rw [List.foldl_cons, ih, List.map_cons, List.sum_cons, FieldElement.mk_xor, add_assoc]

theorem reconstructByte_eq {admitted : List IndexedShare} {curves : List (Polynomial Gf256)}
    (distinct : (admitted.map index).Nodup) (values : OnCurves curves admitted) {byteIndex : Nat}
    {curve : Polynomial Gf256} (found : curves[byteIndex]? = some curve)
    (degree : curve.degree < admitted.length) :
    reconstructByte admitted byteIndex = .ok (curve.eval 0).bits := by
  have steps : reconstructByte admitted byteIndex = admitted.zipIdx.foldlM
      (fun value entry => pure (value ^^^ (term admitted curve entry.1).bits)) 0 := by
    apply foldlM_congr_mem
    intro entry member value
    exact addWeighted_eq distinct values found value member
  have zero : (⟨0⟩ : Gf256) = 0 := rfl
  have terms : (admitted.zipIdx.map fun entry => term admitted curve entry.1) =
      admitted.map (term admitted curve) := by
    rw [← Function.comp_def, ← List.map_map, List.zipIdx_map_fst]
  have points : (admitted.map (term admitted curve)).sum =
      interpolateAt (admitted.map fun share => (⟨share.index⟩, curve.eval ⟨share.index⟩)) 0 := by
    rw [interpolateAt, List.map_map, List.map_map]
    rfl
  have interpolated : (admitted.map (term admitted curve)).sum = curve.eval 0 := by
    rw [points]
    apply interpolateAt_eq_eval
    · simpa [Function.comp_def, nodes] using nodup_nodes.mpr distinct
    · simpa using degree
    · simp
  have total := mk_foldl_xor (fun entry => term admitted curve entry.1) admitted.zipIdx 0
  rw [zero, zero_add, terms, interpolated] at total
  rw [steps, List.foldlM_pure]
  exact congrArg (fun value => Except.ok (Gf256.bits value)) total

/-- A repeated index is met as a zero denominator. -/
theorem reconstructByte_repeated {admitted : List IndexedShare}
    (repeated : ¬ (admitted.map index).Nodup) (byteIndex : Nat) :
    (reconstructByte admitted byteIndex).isOk = false := by
  simp only [List.nodup_iff_getElem?_ne_getElem?, not_forall, not_not] at repeated
  obtain ⟨i, j, before, inside, same⟩ := repeated
  have bound : i < admitted.length := by simpa using before.trans inside
  have there : (admitted.map index)[j]? = some admitted[i].index := by
    rw [← same]
    simp [bound]
  have zero : (weightFraction admitted i admitted[i]).2 = 0 :=
    denominator_eq_zero.mpr ⟨j, by omega, there⟩
  cases folded : reconstructByte admitted byteIndex with
  | error cause => rfl
  | ok value =>
    have member : (admitted[i], i) ∈ admitted.zipIdx :=
      List.mem_zipIdx_iff_getElem?.mpr (by simp [bound])
    obtain ⟨state, next, stepped⟩ := foldlM_step folded member
    rw [addWeighted, if_pos zero] at stepped
    cases stepped

/-! ### Reconstruction of the secret -/

/-- The list is too short, has a zero index or has shares of different length. -/
def Malformed (shares : List IndexedShare) (threshold : Nat) : Prop :=
  shares.length < threshold ∨ (∃ share ∈ shares, share.index = 0) ∨
    ∃ a ∈ shares, ∃ b ∈ shares, a.bytes.length ≠ b.bytes.length

theorem same_length {shares : List IndexedShare} {threshold : Nat}
    (wellFormed : ¬ Malformed shares threshold) {a b : IndexedShare} (inA : a ∈ shares)
    (inB : b ∈ shares) : a.bytes.length = b.bytes.length := by
  by_contra differ
  exact wellFormed (.inr (.inr ⟨a, inA, b, inB, differ⟩))

theorem reconstructSecretBytes_malformed {shares : List IndexedShare} {threshold : Nat}
    (malformed : Malformed shares threshold) :
    (reconstructSecretBytes shares threshold).isOk = false := by
  rw [reconstructSecretBytes]
  by_cases short : shares.length < threshold
  · rw [if_pos short]
    rfl
  rw [if_neg short]
  cases shares with
  | nil => rfl
  | cons first rest =>
    have refused : (first :: rest).any (fun share =>
        share.index = 0 ∨ share.bytes.length ≠ first.bytes.length) = true := by
      rw [List.any_eq_true]
      rcases malformed with few | ⟨share, member, zero⟩ | ⟨a, inA, b, inB, lengths⟩
      · exact absurd few short
      · exact ⟨share, member, by simp [zero]⟩
      · by_cases same : a.bytes.length = first.bytes.length
        · exact ⟨b, inB, by simp [← same, lengths.symm]⟩
        · exact ⟨a, inA, by simp [same]⟩
    simp only [List.head?_cons, refused, if_true]
    rfl

theorem reconstructSecretBytes_wellFormed {first : IndexedShare} {rest : List IndexedShare}
    {threshold : Nat} (wellFormed : ¬ Malformed (first :: rest) threshold) :
    reconstructSecretBytes (first :: rest) threshold = (List.range first.bytes.length).mapM
      (reconstructByte ((first :: rest).take threshold)) := by
  simp only [Malformed, not_or, not_exists, not_and, not_not] at wellFormed
  have accepted : (first :: rest).any (fun share =>
      share.index = 0 ∨ share.bytes.length ≠ first.bytes.length) = false := by
    rw [List.any_eq_false]
    intro share member
    have nonzero := wellFormed.2.1 share member
    have length := wellFormed.2.2 share member first (by simp)
    simp only [nonzero, length, ne_eq, not_true_eq_false, or_self, decide_false]
    exact Bool.false_ne_true
  rw [reconstructSecretBytes, if_neg wellFormed.1]
  simp only [List.head?_cons, accepted]
  rfl

/-- Enough shares with distinct indexes give back the values at zero. -/
theorem reconstructSecretBytes_eq {shares : List IndexedShare}
    {curves : List (Polynomial Gf256)} {threshold : Nat} (positive : 0 < threshold)
    (enough : threshold ≤ shares.length) (distinct : (shares.map index).Nodup)
    (nonzero : ∀ share ∈ shares, share.index ≠ 0) (values : OnCurves curves shares)
    (degrees : ∀ curve ∈ curves, curve.degree < threshold) :
    reconstructSecretBytes shares threshold = .ok (bytesAt curves 0) := by
  have lengths : ∀ share ∈ shares, share.bytes.length = curves.length := by
    intro share member
    rw [values share member, length_bytesAt]
  have wellFormed : ¬ Malformed shares threshold := by
    rintro (short | ⟨share, member, zero⟩ | ⟨a, inA, b, inB, differ⟩)
    · omega
    · exact nonzero share member zero
    · exact differ ((lengths a inA).trans (lengths b inB).symm)
  cases shares with
  | nil => simp at enough; omega
  | cons first rest =>
    have taken : ((first :: rest).take threshold).length = threshold := by
      rw [List.length_take]
      omega
    have bytes : ∀ byteIndex byte, (bytesAt curves 0)[byteIndex]? = some byte →
        reconstructByte ((first :: rest).take threshold) (0 + byteIndex) = .ok byte := by
      intro byteIndex byte found
      obtain ⟨curve, there, rfl⟩ : ∃ curve, curves[byteIndex]? = some curve ∧
          (curve.eval ⟨0⟩).bits = byte := by
        simpa [bytesAt] using found
      have nodup : (((first :: rest).take threshold).map index).Nodup := by
        rw [List.map_take]
        exact distinct.sublist (List.take_sublist _ _)
      rw [Nat.zero_add]
      apply reconstructByte_eq nodup (fun share chosen => values share (List.mem_of_mem_take chosen))
        there
      rw [taken]
      exact degrees curve (List.mem_of_getElem? there)
    rw [reconstructSecretBytes_wellFormed wellFormed, lengths first (by simp), List.range_eq_range',
      ← length_bytesAt curves 0]
    exact mapM_range'_eq_ok bytes

/-- A repetition among the admitted shares is met at the first byte. -/
theorem reconstructSecretBytes_repeated {shares : List IndexedShare} {threshold : Nat}
    (repeated : ¬ ((shares.take threshold).map index).Nodup)
    (filled : ∃ share ∈ shares, share.bytes ≠ []) :
    (reconstructSecretBytes shares threshold).isOk = false := by
  by_cases malformed : Malformed shares threshold
  · exact reconstructSecretBytes_malformed malformed
  obtain ⟨share, member, nonempty⟩ := filled
  cases shares with
  | nil => cases member
  | cons first rest =>
    have length : first.bytes.length = share.bytes.length :=
      same_length malformed (by simp) member
    have positive : 0 < first.bytes.length := by
      rw [length]
      exact List.length_pos_of_ne_nil nonempty
    rw [reconstructSecretBytes_wellFormed malformed]
    cases collected : (List.range first.bytes.length).mapM
        (reconstructByte ((first :: rest).take threshold)) with
    | error cause => rfl
    | ok secret =>
      obtain ⟨byte, _, reconstructed⟩ := mapM_step collected (List.mem_range.mpr positive)
      have failed := reconstructByte_repeated repeated 0
      rw [reconstructed] at failed
      cases failed

/-- Distinct admitted shares are combined, whatever they hold. -/
theorem reconstructSecretBytes_isOk {shares : List IndexedShare} {threshold : Nat}
    (wellFormed : ¬ Malformed shares threshold) (nonempty : shares ≠ [])
    (combined : ((shares.take threshold).map index).Nodup ∨ ∀ share ∈ shares, share.bytes = []) :
    (reconstructSecretBytes shares threshold).isOk = true := by
  cases shares with
  | nil => exact absurd rfl nonempty
  | cons first rest =>
    rw [reconstructSecretBytes_wellFormed wellFormed]
    rcases combined with distinct | hollow
    · have bytes : ∀ byteIndex ∈ List.range first.bytes.length, ∃ byte,
          reconstructByte ((first :: rest).take threshold) byteIndex = .ok byte := by
        intro byteIndex inside
        have steps : ∀ (before : List (IndexedShare × Nat)) entry value,
            entry ∈ ((first :: rest).take threshold).zipIdx → True → ∃ next,
            addWeighted ((first :: rest).take threshold) byteIndex value entry = .ok next ∧ True := by
            intro before entry value member _
            have here : ((first :: rest).take threshold)[entry.2]? = some entry.1 :=
              List.mem_zipIdx_iff_getElem?.mp member
            have nonzero := denominator_ne_zero distinct here
            have lengths : byteIndex < entry.1.bytes.length := by
              have chosen := List.mem_of_mem_take (List.mem_of_getElem? here)
              have same : first.bytes.length = entry.1.bytes.length :=
                same_length wellFormed (by simp) chosen
              rw [← same]
              exact List.mem_range.mp inside
            rw [addWeighted, if_neg nonzero, List.getElem?_eq_getElem lengths]
            exact ⟨_, rfl, trivial⟩
        obtain ⟨byte, folded, _⟩ := foldlM_rule (fun _ _ => True)
          ((first :: rest).take threshold).zipIdx 0 trivial steps
        exact ⟨byte, folded⟩
      obtain ⟨secret, collected⟩ := exists_mapM_eq_ok bytes
      rw [collected]
      rfl
    · rw [hollow first (by simp)]
      rfl

/-! ### Sharing a secret -/

/-- A chosen list of shares gives back the secret when it is a quorum of the split, is refused when
it is not one, and no weight of distinct shares divides by zero. -/
def Combines (secret : List Byte) (shares : List IndexedShare) (threshold : Nat)
    (chosen : List IndexedShare) : Prop :=
  (chosen ⊆ shares → (chosen.map index).Nodup → threshold ≤ chosen.length →
    reconstructSecretBytes chosen threshold = .ok secret) ∧
  (¬ (chosen.map index).Nodup ∨ chosen.length < threshold ∨
      (∃ a ∈ chosen, ∃ b ∈ chosen, a.bytes.length ≠ b.bytes.length) →
    (reconstructSecretBytes chosen threshold).isOk = false) ∧
  ((chosen.map index).Nodup → ∀ (i : Nat) (share : IndexedShare),
    (chosen.take threshold)[i]? = some share →
      (weightFraction (chosen.take threshold) i share).2 ≠ 0)

/-- A repeated index stands among the first shares, of which there is a byte, unless the list is
refused for another reason. -/
def RepetitionSeen (threshold : Nat) (chosen : List IndexedShare) : Prop :=
  ¬ (chosen.map index).Nodup → Malformed chosen threshold ∨
    (¬ ((chosen.take threshold).map index).Nodup ∧ ∃ share ∈ chosen, share.bytes ≠ [])

theorem repetitionSeen_of_refused {threshold : Nat} {chosen : List IndexedShare}
    (refused : ¬ (chosen.map index).Nodup →
      (reconstructSecretBytes chosen threshold).isOk = false) :
    RepetitionSeen threshold chosen := by
  intro repeated
  by_contra unseen
  simp only [not_or, not_and, not_exists, not_not] at unseen
  have nonempty : chosen ≠ [] := by
    rintro rfl
    exact repeated List.nodup_nil
  have combined : ((chosen.take threshold).map index).Nodup ∨ ∀ share ∈ chosen, share.bytes = [] := by
    by_cases distinct : ((chosen.take threshold).map index).Nodup
    · exact .inl distinct
    · exact .inr (unseen.2 distinct)
  have accepted := reconstructSecretBytes_isOk unseen.1 nonempty combined
  rw [refused repeated] at accepted
  cases accepted

theorem shareAt_index_ne_zero {participants : Nat} (atMost : participants ≤ 255)
    {curves : List (Polynomial Gf256)} {share : IndexedShare}
    (member : share ∈ (List.range' 1 participants).map (shareAt curves)) : share.index ≠ 0 := by
  obtain ⟨number, inside, rfl⟩ := List.mem_map.mp member
  have bounds := List.mem_range'_1.mp inside
  intro zero
  have value : number % 2 ^ 8 = 0 := congrArg BitVec.toNat zero
  omega

end IndexedShare

namespace TestSupport

open IndexedShare

end TestSupport

end Nook.Sentinel
