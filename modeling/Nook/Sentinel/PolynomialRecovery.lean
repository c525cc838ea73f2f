import Nook.Sentinel.SecretPolynomial

set_option autoImplicit false

namespace Nook.Sentinel

open Nook.Auth Nook.Lib

namespace SecretPolynomial

/-- The indexes as elements of the field. -/
def nodes (shares : List RawShare) : List Gf256 := shares.map fun share => ⟨share.index⟩

theorem nodup_nodes {shares : List RawShare} :
    (nodes shares).Nodup ↔ (shares.map RawShare.index).Nodup := by
  have same : nodes shares = (shares.map RawShare.index).map Gf256.mk := by
    simp [nodes]
  rw [same, List.nodup_map_iff fun _ _ => congrArg Gf256.bits]

/-- The shares are values of the given polynomials. -/
def OnCurves (curves : List (Polynomial Gf256)) (shares : List RawShare) : Prop :=
  ∀ share ∈ shares, share.value = bytesAt curves share.index

/-! ### Interpolation -/

theorem basis_eq (shares : List RawShare) (target index : Byte) :
    basis shares target index = .ok (basisAt (nodes shares) ⟨target⟩ ⟨index⟩).bits := by
  let factor : RawShare → Gf256 := fun other =>
    ((⟨target⟩ : Gf256) - ⟨other.index⟩) / (⟨index⟩ - ⟨other.index⟩)
  let others := fun shares : List RawShare => shares.filter fun other => other.index ≠ index
  have multiplied : ∀ before other value, other ∈ shares →
      (⟨value⟩ : Gf256) = ((others before).map factor).prod →
      ∃ next, multiplyFactor target index value other = .ok next ∧
        (⟨next⟩ : Gf256) = ((others (before ++ [other])).map factor).prod := by
    intro before other value _ holds
    by_cases same : other.index = index
    · refine ⟨value, by rw [multiplyFactor, if_neg (not_not.mpr same)]; rfl, ?_⟩
      simp [others, same, holds]
    · have nonzero : index ^^^ other.index ≠ 0 := by
        intro zero
        exact same (BitVec.xor_eq_zero_iff.mp zero).symm
      refine ⟨_, by rw [multiplyFactor, if_pos same, FieldElement.divide_eq_ok nonzero]; rfl, ?_⟩
      rw [FieldElement.mk_multiply, holds, FieldElement.mk_xor_sub, FieldElement.mk_xor_sub]
      simp [others, same, factor]
  obtain ⟨value, folded, product⟩ := foldlM_rule
    (fun before value => (⟨value⟩ : Gf256) = ((others before).map factor).prod) shares 1 rfl
    multiplied
  have points : basisAt (nodes shares) ⟨target⟩ ⟨index⟩ = ((others shares).map factor).prod := by
    have filtered : (nodes shares).filter (· ≠ (⟨index⟩ : Gf256)) = nodes (others shares) := by
      rw [nodes, nodes, List.filter_map]
      congr 1
      apply List.filter_congr
      intro other _
      simp
    rw [basisAt, filtered, nodes, List.map_map]
    rfl
  rw [basis, folded, points, ← product]

theorem addScaled_bytesAt (curves : List (Polynomial Gf256)) (sums : Polynomial Gf256 → Gf256)
    (weight : Byte) (index : Byte) :
    addScaled weight (curves.map fun curve => (sums curve).bits) (bytesAt curves index) =
      curves.map fun curve => (sums curve + curve.eval ⟨index⟩ * ⟨weight⟩).bits := by
  induction curves with
  | nil => rfl
  | cons curve curves ih =>
    have product := FieldElement.mk_multiply (curve.eval ⟨index⟩).bits weight
    simp only [bytesAt] at ih
    simp only [bytesAt, List.map_cons, addScaled, ih, List.cons.injEq, and_true]
    rw [Gf256.bits_add, ← congrArg Gf256.bits product]

/-- Enough values of polynomials give the values of the same polynomials elsewhere. -/
theorem interpolate_eq {shares : List RawShare} {curves : List (Polynomial Gf256)}
    (nonempty : shares ≠ []) (distinct : (shares.map RawShare.index).Nodup)
    (values : OnCurves curves shares) (degrees : ∀ curve ∈ curves, curve.degree < shares.length)
    (target : Byte) : interpolate shares target = .ok (bytesAt curves target) := by
  have lengths : ∀ share ∈ shares, share.value.length = curves.length := by
    intro share member
    rw [values share member, length_bytesAt]
  obtain ⟨first, found⟩ : ∃ first, shares.head? = some first :=
    Option.ne_none_iff_exists'.mp (by simpa using nonempty)
  have length : first.value.length = curves.length := lengths first (List.mem_of_head? found)
  have equal : (shares.any fun share => share.value.length ≠ curves.length) = false := by
    rw [List.any_eq_false]
    intro share member
    simp [lengths share member]
  rw [interpolate, found]
  simp only [length, distinct, equal, not_true_eq_false, Bool.false_eq_true, or_self, if_false]
  split
  · rename_i share there
    have index : share.index = target := by simpa using List.find?_some there
    rw [values share (List.mem_of_find?_eq_some there), index]
  · let weight := fun share : RawShare => basisAt (nodes shares) ⟨target⟩ ⟨share.index⟩
    let sumsOf := fun before : List RawShare => curves.map fun curve =>
      ((before.map fun share => curve.eval ⟨share.index⟩ * weight share).sum).bits
    have added : ∀ before share result, share ∈ shares → result = sumsOf before →
        ∃ next, addShare shares target result share = .ok next ∧
          next = sumsOf (before ++ [share]) := by
      intro before share result member holds
      refine ⟨_, by rw [addShare, basis_eq]; rfl, ?_⟩
      simp only [holds, sumsOf, values share member, addScaled_bytesAt]
      apply List.map_congr_left
      intro curve _
      rw [List.map_append, List.sum_append, List.map_singleton, List.sum_singleton]
    obtain ⟨result, folded, sums⟩ := foldlM_rule (fun before result => result = sumsOf before)
      shares (List.replicate curves.length 0) (by simp [sumsOf, List.map_const']) added
    have interpolated : ∀ curve ∈ curves,
        (shares.map fun share => curve.eval ⟨share.index⟩ * weight share).sum =
          curve.eval ⟨target⟩ := by
      intro curve member
      have points : (shares.map fun share => curve.eval ⟨share.index⟩ * weight share).sum =
          interpolateAt (shares.map fun share => (⟨share.index⟩, curve.eval ⟨share.index⟩))
            ⟨target⟩ := by
        rw [interpolateAt, List.map_map, List.map_map]
        rfl
      rw [points]
      apply interpolateAt_eq_eval
      · simpa [Function.comp_def, nodes] using nodup_nodes.mpr distinct
      · simpa using degrees curve member
      · simp
    rw [folded, sums, bytesAt]
    congr 1
    apply List.map_congr_left
    intro curve member
    rw [interpolated curve member]

/-- Through any shares of one length go polynomials. -/
theorem exists_curves {shares : List RawShare} {length : Nat}
    (distinct : (shares.map RawShare.index).Nodup)
    (lengths : ∀ share ∈ shares, share.value.length = length) :
    ∃ curves : List (Polynomial Gf256), curves.length = length ∧
      (∀ curve ∈ curves, curve.degree < shares.length) ∧ OnCurves curves shares := by
  let points := fun position : Nat => shares.map fun share : RawShare =>
    ((⟨share.index⟩ : Gf256), (⟨share.value.getD position 0⟩ : Gf256))
  have through : ∀ position, ∃ curve : Polynomial Gf256, curve.degree < (points position).length ∧
      ∀ point ∈ points position, curve.eval point.1 = point.2 := by
    intro position
    apply exists_through
    simpa [points, Function.comp_def, nodes] using nodup_nodes.mpr distinct
  choose curve degree evaluates using through
  refine ⟨(List.range length).map curve, by simp, ?_, ?_⟩
  · intro polynomial member
    obtain ⟨position, _, rfl⟩ := List.mem_map.mp member
    simpa [points] using degree position
  · intro share member
    apply List.ext_getElem
    · simp [lengths share member]
    · intro position inside _
      have evaluated := evaluates position (⟨share.index⟩, ⟨share.value.getD position 0⟩)
        (List.mem_map.mpr ⟨share, member, rfl⟩)
      simp [bytesAt, evaluated, inside]

/-! ### Splitting -/

/-- The shares of a split. -/
noncomputable def sharesOf (curves : List (Polynomial Gf256)) (count : Nat) : List RawShare :=
  (List.range count).map fun index =>
    { index := BitVec.ofNat 8 index, value := bytesAt curves (BitVec.ofNat 8 index) }

theorem nodup_map_ofNat {numbers : List Nat} (distinct : numbers.Nodup)
    (bounds : ∀ number ∈ numbers, number < 256) : (numbers.map (BitVec.ofNat 8)).Nodup := by
  apply List.Nodup.map_on _ distinct
  intro a inA b inB same
  have values : a % 256 = b % 256 := congrArg BitVec.toNat same
  rwa [Nat.mod_eq_of_lt (bounds a inA), Nat.mod_eq_of_lt (bounds b inB)] at values

variable [Hashes]

/-- The polynomials of a split: the secret stands at 255 and its digest at 254. -/
structure Splits (threshold : Nat) (secret : List Byte) (curves : List (Polynomial Gf256)) :
    Prop where
  length : curves.length = secret.length
  degree : ∀ curve ∈ curves, curve.degree < threshold
  digest : ∃ randomPart, bytesAt curves DIGEST_INDEX = shareDigest randomPart secret ++ randomPart
  root : bytesAt curves SECRET_INDEX = secret

theorem length_shareDigest (randomPart secret : List Byte) :
    (shareDigest randomPart secret).length = DIGEST_BYTES := by
  simp [shareDigest]

/-- The points a split goes through, when its draws are given. -/
def basePoints (threshold : Nat) (secret : List Byte) (drawn : Nat → Nat → Byte) : List RawShare :=
  let randomPart := (List.range (secret.length - DIGEST_BYTES)).map (drawn (threshold - 2))
  ((List.range (threshold - 2)).map fun index =>
    { index := BitVec.ofNat 8 index, value := (List.range secret.length).map (drawn index) }) ++
  [{ index := DIGEST_INDEX, value := shareDigest randomPart secret ++ randomPart },
    { index := SECRET_INDEX, value := secret }]

theorem index_basePoints (threshold : Nat) (secret : List Byte) (drawn : Nat → Nat → Byte) :
    (basePoints threshold secret drawn).map RawShare.index =
      (List.range (threshold - 2) ++ [254, 255]).map (BitVec.ofNat 8) := by
  simp [basePoints, Function.comp_def, DIGEST_INDEX, SECRET_INDEX]

theorem nodup_basePoints {threshold : Nat} (atMost : threshold ≤ 16) (secret : List Byte)
    (drawn : Nat → Nat → Byte) :
    ((basePoints threshold secret drawn).map RawShare.index).Nodup := by
  have small : ∀ number ∈ List.range (threshold - 2), number < 14 := by
    intro number member
    have := List.mem_range.mp member
    omega
  rw [index_basePoints]
  apply nodup_map_ofNat
  · rw [List.nodup_append]
    refine ⟨List.nodup_range, by decide, fun a inA b inB => ?_⟩
    have := small a inA
    simp only [List.mem_cons, List.not_mem_nil, or_false] at inB
    omega
  · intro number member
    rw [List.mem_append] at member
    rcases member with early | late
    · have := small number early
      omega
    · simp only [List.mem_cons, List.not_mem_nil, or_false] at late
      omega

theorem length_of_basePoints {threshold : Nat} {secret : List Byte} (long : 16 ≤ secret.length)
    (drawn : Nat → Nat → Byte) :
    ∀ share ∈ basePoints threshold secret drawn, share.value.length = secret.length := by
  have four : DIGEST_BYTES = 4 := rfl
  intro share member
  simp only [basePoints, List.mem_append, List.mem_map, List.mem_cons, List.not_mem_nil,
    or_false] at member
  rcases member with ⟨index, _, rfl⟩ | rfl | rfl
  · simp
  · simp only [List.length_append, length_shareDigest, List.length_map, List.length_range]
    omega
  · rfl

/-- The polynomials through the base points. -/
theorem exists_splits {threshold : Nat} {secret : List Byte} (atLeast : 2 ≤ threshold)
    (atMost : threshold ≤ 16) (long : 16 ≤ secret.length) (drawn : Nat → Nat → Byte) :
    ∃ curves, Splits threshold secret curves ∧
      OnCurves curves (basePoints threshold secret drawn) := by
  have count : (basePoints threshold secret drawn).length = threshold := by
    simp [basePoints]
    omega
  obtain ⟨curves, length, degree, values⟩ := exists_curves
    (nodup_basePoints atMost secret drawn) (length_of_basePoints long drawn)
  rw [count] at degree
  have digest := values ⟨DIGEST_INDEX, _⟩ (List.mem_append_right _ List.mem_cons_self)
  have root := values ⟨SECRET_INDEX, secret⟩ (by simp [basePoints])
  exact ⟨curves, ⟨length, degree, ⟨_, digest.symm⟩, root.symm⟩, values⟩

/-- When every draw succeeds, the shares are the values of such polynomials. -/
theorem split_eq {threshold shareCount : Nat} {secret : List Byte} (atLeast : 2 ≤ threshold)
    (fits : threshold ≤ shareCount) (atMost : shareCount ≤ 16) (long : 16 ≤ secret.length)
    (even : secret.length % 2 = 0) (drawn : Nat → Nat → Byte) :
    ∃ curves, Splits threshold secret curves ∧
      split threshold shareCount secret (fun call => .ok (drawn call)) =
        .ok (sharesOf curves shareCount) := by
  obtain ⟨curves, splits, values⟩ := exists_splits atLeast (by omega) long drawn
  refine ⟨curves, splits, ?_⟩
  have nonempty : basePoints threshold secret drawn ≠ [] := by
    simp [basePoints]
  have count : (basePoints threshold secret drawn).length = threshold := by
    simp [basePoints]
    omega
  have interpolated : ∀ target, interpolate (basePoints threshold secret drawn) target =
      .ok (bytesAt curves target) :=
    interpolate_eq nonempty (nodup_basePoints (by omega) secret drawn) values
      (count.symm ▸ splits.degree)
  let random : Nat → RawShare := fun index =>
    { index := BitVec.ofNat 8 index, value := (List.range secret.length).map (drawn index) }
  let share : Nat → RawShare := fun index =>
    { index := BitVec.ofNat 8 index, value := bytesAt curves (BitVec.ofNat 8 index) }
  have drawnShares : ∀ index ∈ List.range (threshold - 2), random index = share index := by
    intro index inside
    have point := values (random index) (by
      simp only [basePoints, List.mem_append, List.mem_map]
      exact .inl ⟨index, inside, rfl⟩)
    simp only [share, ← point, random]
  have first : (List.range (threshold - 2)).mapM (fun index => do
      let value ← RandomBytes.fill (fun call => .ok (drawn call)) index secret.length
      pure ({ index := BitVec.ofNat 8 index, value } : RawShare)) =
      .ok ((List.range (threshold - 2)).map random) :=
    mapM_eq_ok_map fun index _ => rfl
  have rest : (List.range' (threshold - 2) (shareCount - (threshold - 2))).mapM (fun index => do
      let value ← interpolate (basePoints threshold secret drawn) (BitVec.ofNat 8 index)
      pure ({ index := BitVec.ofNat 8 index, value } : RawShare)) =
      .ok ((List.range' (threshold - 2) (shareCount - (threshold - 2))).map share) :=
    mapM_eq_ok_map fun index _ => by
      rw [interpolated]
      rfl
  have all : (List.range (threshold - 2)).map random ++
      (List.range' (threshold - 2) (shareCount - (threshold - 2))).map share =
      sharesOf curves shareCount := by
    have numbers : List.range (threshold - 2) ++
        List.range' (threshold - 2) (shareCount - (threshold - 2)) = List.range shareCount := by
      have whole : threshold - 2 + (shareCount - (threshold - 2)) = shareCount := by omega
      rw [← whole, List.range_eq_range', List.range_eq_range', ← List.range'_append_1, Nat.zero_add,
        whole]
    rw [List.map_congr_left drawnShares, ← List.map_append, numbers]
    rfl
  have accepted : ¬ (threshold = 0 ∨ threshold > shareCount ∨ shareCount > 16 ∨
      secret.length < 16 ∨ secret.length % 2 ≠ 0) := by omega
  rw [← all, split, if_neg accepted, if_neg (by omega)]
  dsimp only
  rw [first]
  exact congrArg (fun derived => derived >>= fun derived =>
    pure ((List.range (threshold - 2)).map random ++ derived)) rest

/-! ### Recovery -/

/-- As many distinct shares as the threshold asks for, whichever they are, give back the secret. -/
theorem recover_eq {threshold : Nat} {secret : List Byte} {curves : List (Polynomial Gf256)}
    (splits : Splits threshold secret curves) (atLeast : 2 ≤ threshold) {shares : List RawShare}
    (count : shares.length = threshold) (distinct : (shares.map RawShare.index).Nodup)
    (values : OnCurves curves shares) : recover threshold shares = .ok secret := by
  have nonempty : shares ≠ [] := by
    rintro rfl
    simp at count
    omega
  have interpolated : ∀ target, interpolate shares target = .ok (bytesAt curves target) :=
    interpolate_eq nonempty distinct values (count.symm ▸ splits.degree)
  obtain ⟨randomPart, digest⟩ := splits.digest
  have head : (shareDigest randomPart secret ++ randomPart).take DIGEST_BYTES =
      shareDigest randomPart secret :=
    List.take_left' (length_shareDigest randomPart secret)
  have tail : (shareDigest randomPart secret ++ randomPart).drop DIGEST_BYTES = randomPart :=
    List.drop_left' (length_shareDigest randomPart secret)
  have long : ¬ (shareDigest randomPart secret ++ randomPart).length < DIGEST_BYTES := by
    rw [List.length_append, length_shareDigest]
    omega
  have secretRead : interpolate shares SECRET_INDEX = .ok secret := by
    rw [interpolated, splits.root]
  have digestRead : interpolate shares DIGEST_INDEX =
      .ok (shareDigest randomPart secret ++ randomPart) := by
    rw [interpolated, digest]
  rw [recover, if_neg (by omega), if_neg (by omega), secretRead, digestRead]
  simp only [bind, Except.bind, if_neg long, head, tail, ne_eq, not_true_eq_false, if_false]
  rfl

end SecretPolynomial

/-! ### The cipher -/

namespace MasterSecretCipher

variable [Hashes]

omit [Hashes] in
theorem xor_xor {left mask : List Byte} (lengths : left.length = mask.length) :
    xor (xor left mask) mask = left := by
  induction left generalizing mask with
  | nil => rfl
  | cons byte left ih =>
    cases mask with
    | nil => cases lengths
    | cons other mask =>
      have rest : xor (xor left mask) mask = left := ih (by simpa using lengths)
      simp only [xor] at rest
      simp [xor, rest]

theorem length_feistelStep (cipher : MasterSecretCipher) {halves : List Byte × List Byte}
    (lengths : halves.1.length = halves.2.length) (round : Nat) :
    (cipher.feistelStep halves round).1.length = (cipher.feistelStep halves round).2.length := by
  simp [feistelStep, xor, MasterSecretCipher.round, lengths]

theorem feistelStep_undone (cipher : MasterSecretCipher) {halves : List Byte × List Byte}
    (lengths : halves.1.length = halves.2.length) (round : Nat) :
    cipher.feistelStep (cipher.feistelStep halves round).swap round = halves.swap := by
  have mask : halves.1.length = (cipher.round round halves.2).length := by
    simp [MasterSecretCipher.round, lengths]
  simp [feistelStep, xor_xor mask, Prod.swap]

/-- The rounds taken backwards from the exchanged halves lead back. -/
theorem feistel_undone (cipher : MasterSecretCipher) (rounds : List Nat)
    {halves : List Byte × List Byte} (lengths : halves.1.length = halves.2.length) :
    rounds.reverse.foldl cipher.feistelStep (rounds.foldl cipher.feistelStep halves).swap =
      halves.swap := by
  induction rounds generalizing halves with
  | nil => rfl
  | cons round rounds ih =>
    rw [List.reverse_cons, List.foldl_append, List.foldl_cons, List.foldl_cons,
      ih (length_feistelStep cipher lengths round)]
    exact feistelStep_undone cipher lengths round

theorem length_feistel (cipher : MasterSecretCipher) (rounds : List Nat)
    {halves : List Byte × List Byte} (lengths : halves.1.length = halves.2.length) :
    (rounds.foldl cipher.feistelStep halves).1.length = halves.1.length ∧
      (rounds.foldl cipher.feistelStep halves).2.length = halves.1.length := by
  induction rounds generalizing halves with
  | nil => exact ⟨rfl, lengths.symm⟩
  | cons round rounds ih =>
    have next := ih (length_feistelStep cipher lengths round)
    have kept : (cipher.feistelStep halves round).1.length = halves.1.length := lengths.symm
    rwa [kept] at next

omit [Hashes] in
theorem length_splitHalves {input : List Byte} (size : input.length = SECRET_BYTES) :
    (splitHalves input).1.length = 16 ∧ (splitHalves input).2.length = 16 := by
  have bytes : input.length = 32 := size
  simp only [splitHalves, List.splitAt_eq, List.length_take, List.length_drop]
  omega

theorem length_encrypt (cipher : MasterSecretCipher) {secret : List Byte}
    (size : secret.length = SECRET_BYTES) : (cipher.encrypt secret).length = SECRET_BYTES := by
  obtain ⟨first, second⟩ := length_splitHalves size
  obtain ⟨left, right⟩ := length_feistel cipher (List.range ROUND_COUNT) (first.trans second.symm)
  rw [encrypt, feistel, List.length_append, left, right, first]
  rfl

theorem decrypt_encrypt (cipher : MasterSecretCipher) {secret : List Byte}
    (size : secret.length = SECRET_BYTES) : cipher.decrypt (cipher.encrypt secret) = .ok secret := by
  have encrypted := length_encrypt cipher size
  have bytes : SECRET_BYTES = 32 := rfl
  obtain ⟨first, second⟩ := length_splitHalves size
  have even := first.trans second.symm
  have right := (length_feistel cipher (List.range ROUND_COUNT) even).2
  have middle : (cipher.encrypt secret).length / 2 =
      ((List.range ROUND_COUNT).foldl cipher.feistelStep (splitHalves secret)).2.length := by
    rw [encrypted, right, first]
    rfl
  have swapped : splitHalves (cipher.encrypt secret) =
      ((List.range ROUND_COUNT).foldl cipher.feistelStep (splitHalves secret)).swap := by
    rw [splitHalves, middle, List.splitAt_eq]
    exact Prod.ext (List.take_left' rfl) (List.drop_left' rfl)
  rw [decrypt, if_neg (by omega), feistel, swapped, feistel_undone cipher _ even]
  simp [splitHalves, List.splitAt_eq]

end MasterSecretCipher

end Nook.Sentinel
