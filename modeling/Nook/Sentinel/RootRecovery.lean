import Nook.Sentinel.RootShares

set_option autoImplicit false

namespace Nook.Sentinel

open Nook.Auth Nook.EventLog Nook.Lib

section

variable [Hashes]

/-! ### The shares of a root -/

/-- The share with the given number of an issued set. -/
noncomputable def issuedShare (identifier threshold : Nat) (curves : List (Polynomial Gf256))
    (index : Nat) : Share where
  identifier
  iterationExponent := ITERATION_EXPONENT
  memberIndex := index
  memberThreshold := threshold
  value := bytesAt curves (BitVec.ofNat 8 index)

/-- What an issued set is: one mnemonic for each share of a split of the encrypted root. -/
structure Issues (root : Root) (threshold shareCount : Nat) (mnemonics : List Str)
    (identifier : Nat) (curves : List (Polynomial Gf256)) (text : Nat → Str) : Prop where
  mnemonics : mnemonics = (List.range shareCount).map text
  splits : SecretPolynomial.Splits threshold
    (MasterSecretCipher.encrypt { passphrase := [], exponent := ITERATION_EXPONENT } root) curves
  decode : ∀ index < shareCount,
    Share.decode (text index) = .ok (issuedShare identifier threshold curves index)

omit [Hashes] in
theorem identifierOf_lt (bytes : List Byte) :
    SentinelSecretSplitRequest.identifierOf bytes < 2 ^ 15 := by
  rw [SentinelSecretSplitRequest.identifierOf, show 0x7fff = 2 ^ 15 - 1 by rfl,
    Nat.and_two_pow_sub_one_eq_mod]
  exact Nat.mod_lt _ (by decide)

omit [Hashes] in
theorem wellFormed_issuedShare {identifier threshold shareCount : Nat}
    (small : identifier < 2 ^ 15) (valid : 2 ≤ threshold ∧ threshold ≤ shareCount ∧ shareCount ≤ 16)
    {curves : List (Polynomial Gf256)} (length : curves.length = SECRET_BYTES) {index : Nat}
    (inside : index < shareCount) : (issuedShare identifier threshold curves index).WellFormed where
  identifier := small
  iterationExponent := by simp [issuedShare, ITERATION_EXPONENT]
  memberIndex := by simp only [issuedShare]; omega
  threshold := by simp only [issuedShare]; omega
  value := by simp [issuedShare, length]

/-- Issuance succeeds whenever the draws do. -/
theorem issue_eq {threshold shareCount : Nat}
    (valid : 2 ≤ threshold ∧ threshold ≤ shareCount ∧ shareCount ≤ 16) (root : Root)
    (drawn : Nat → Nat → Byte) : ∃ mnemonics identifier curves text,
      SentinelSecretSplitRequest.issue ⟨root, threshold, shareCount⟩
        (fun call => .ok (drawn call)) = .ok mnemonics ∧
      Issues root threshold shareCount mnemonics identifier curves text := by
  let cipher : MasterSecretCipher := { passphrase := [], exponent := ITERATION_EXPONENT }
  let identifier := SentinelSecretSplitRequest.identifierOf ((List.range 2).map (drawn 0))
  have length : (cipher.encrypt root).length = SECRET_BYTES :=
    MasterSecretCipher.length_encrypt cipher root.2
  have bytes : (cipher.encrypt root).length = 32 := length
  obtain ⟨curves, splits, split⟩ := SecretPolynomial.split_eq valid.1 valid.2.1 valid.2.2
    (by omega : 16 ≤ (cipher.encrypt root).length) (by omega) fun call => drawn (call + 1)
  have encodes : ∀ index : Nat, ∃ text, index < shareCount →
      (issuedShare identifier threshold curves index).encode = .ok text ∧
        Share.decode text = .ok (issuedShare identifier threshold curves index) := by
    intro index
    by_cases inside : index < shareCount
    · obtain ⟨text, both⟩ := Share.decode_of_encode (wellFormed_issuedShare (identifierOf_lt _) valid
        (splits.length.trans length) inside)
      exact ⟨text, fun _ => both⟩
    · exact ⟨[], fun bound => absurd bound inside⟩
  choose text encodeDecode using encodes
  have validated : SentinelUnlockPolicy.validate
      { threshold := threshold, requiredParticipants := shareCount } = .ok () :=
    SentinelUnlockPolicy.validate_eq_ok.mpr valid
  have encoded : (SecretPolynomial.sharesOf curves shareCount).mapM (fun raw =>
      (SentinelSecretSplitRequest.share threshold identifier raw).encode) =
      .ok ((List.range shareCount).map text) := by
    have each : ∀ raw ∈ SecretPolynomial.sharesOf curves shareCount,
        (SentinelSecretSplitRequest.share threshold identifier raw).encode =
          .ok (text raw.index.toNat) := by
      intro raw member
      obtain ⟨index, inside, rfl⟩ := List.mem_map.mp member
      have bound := List.mem_range.mp inside
      have number : (BitVec.ofNat 8 index).toNat = index := by
        rw [BitVec.toNat_ofNat, Nat.mod_eq_of_lt (by omega)]
      simp only [SentinelSecretSplitRequest.share, number]
      exact (encodeDecode index bound).1
    rw [mapM_eq_ok_map each, SecretPolynomial.sharesOf, List.map_map]
    congr 1
    apply List.map_congr_left
    intro index inside
    have bound := List.mem_range.mp inside
    simp only [Function.comp_apply, BitVec.toNat_ofNat]
    rw [Nat.mod_eq_of_lt (by omega)]
  refine ⟨(List.range shareCount).map text, identifier, curves, text, ?_, rfl, splits,
    fun index bound => (encodeDecode index bound).2⟩
  rw [SentinelSecretSplitRequest.issue, validated]
  show (SecretPolynomial.split threshold shareCount (cipher.encrypt root) _ >>= _) = _
  rw [split]
  exact encoded

/-! ### Admission -/

/-- Decoded shares of one set, enough of them and with distinct indexes. -/
structure Compatible (shares : List Share) : Prop where
  identifier : ∀ a ∈ shares, ∀ b ∈ shares, a.identifier = b.identifier
  iterationExponent : ∀ a ∈ shares, ∀ b ∈ shares, a.iterationExponent = b.iterationExponent
  memberThreshold : ∀ a ∈ shares, ∀ b ∈ shares, a.memberThreshold = b.memberThreshold
  distinct : (shares.map Share.memberIndex).Nodup
  enough : ∀ share ∈ shares, share.memberThreshold ≤ shares.length

omit [Hashes] in
theorem compatible_of_admitShares {shares : List Share} {quorum : AdmittedQuorum}
    (admitted : AdmittedQuorum.admitShares shares = .ok quorum) : Compatible shares := by
  rw [AdmittedQuorum.admitShares] at admitted
  split at admitted
  · cases admitted
  rename_i first head
  split at admitted
  · cases admitted
  rename_i same
  split at admitted
  · cases admitted
  rename_i distinct
  dsimp only at admitted
  split at admitted
  · cases admitted
  rename_i enough
  have like : ∀ share ∈ shares, share.identifier = first.identifier ∧
      share.iterationExponent = first.iterationExponent ∧
      share.memberThreshold = first.memberThreshold := by
    intro share member
    have agrees := List.any_eq_false.mp (Bool.not_eq_true _ ▸ same) share member
    simp only [decide_eq_true_eq, not_or, not_not] at agrees
    exact ⟨agrees.1, agrees.2.1, agrees.2.2.1⟩
  constructor
  · exact fun a inA b inB => (like a inA).1.trans (like b inB).1.symm
  · exact fun a inA b inB => (like a inA).2.1.trans (like b inB).2.1.symm
  · exact fun a inA b inB => (like a inA).2.2.trans (like b inB).2.2.symm
  · exact not_not.mp distinct
  · intro share member
    rw [(like share member).2.2]
    omega

/-- Only compatible shares are combined. -/
theorem compatible_of_recover {mnemonics : List Str} {root : Root}
    (recovered : (SentinelSecretRecoveryRequest.sentinel mnemonics).recover = .ok root) :
    ∃ shares, mnemonics.map Share.decode = shares.map .ok ∧ Compatible shares := by
  obtain ⟨_, _, recovered⟩ := bind_eq_ok.mp recovered
  obtain ⟨_, _, recovered⟩ := bind_eq_ok.mp recovered
  obtain ⟨quorum, admitted, _⟩ := bind_eq_ok.mp recovered
  obtain ⟨shares, decoded, admitted⟩ := bind_eq_ok.mp admitted
  refine ⟨shares, ?_, compatible_of_admitShares admitted⟩
  exact (map_mapM_eq_ok (fun _ _ ok => ok.symm) decoded).symm

omit [Hashes] in
theorem admitShares_eq {shares : List Share} {first : Share} (head : shares.head? = some first)
    (compatible : Compatible shares) (sizes : ∀ share ∈ shares, share.value.length = SECRET_BYTES) :
    AdmittedQuorum.admitShares shares = .ok {
      threshold := first.memberThreshold
      iterationExponent := first.iterationExponent
      shares := (shares.take first.memberThreshold).map fun share =>
        { index := BitVec.ofNat 8 share.memberIndex, value := share.value } } := by
  have member := List.mem_of_head? head
  have same : ¬ (shares.any fun share => share.identifier ≠ first.identifier ∨
      share.iterationExponent ≠ first.iterationExponent ∨
      share.memberThreshold ≠ first.memberThreshold ∨ share.value.length ≠ SECRET_BYTES) = true := by
    rw [List.any_eq_true]
    rintro ⟨share, inside, differs⟩
    have identifier := compatible.identifier share inside first member
    have exponent := compatible.iterationExponent share inside first member
    have threshold := compatible.memberThreshold share inside first member
    simp [identifier, exponent, threshold, sizes share inside] at differs
  have enough := compatible.enough first member
  rw [AdmittedQuorum.admitShares, head]
  simp only [if_neg same, compatible.distinct, not_true_eq_false, if_false]
  rw [if_neg (by omega)]

/-! ### Recovery -/

omit [Hashes] in
/-- The numbers of chosen mnemonics. -/
theorem exists_numbers {text : Nat → Str} {shareCount : Nat} {chosen : List Str}
    (drawn : chosen ⊆ (List.range shareCount).map text) :
    ∃ numbers : List Nat, chosen = numbers.map text ∧ ∀ number ∈ numbers, number < shareCount := by
  induction chosen with
  | nil => exact ⟨[], rfl, by simp⟩
  | cons mnemonic rest ih =>
    obtain ⟨numbers, same, bounds⟩ := ih fun other member => drawn (List.mem_cons_of_mem _ member)
    obtain ⟨number, inside, found⟩ := List.mem_map.mp (drawn List.mem_cons_self)
    refine ⟨number :: numbers, by rw [List.map_cons, found, same], ?_⟩
    exact List.forall_mem_cons.mpr ⟨List.mem_range.mp inside, bounds⟩

omit [Hashes] in
theorem compatible_issued {identifier threshold : Nat} {curves : List (Polynomial Gf256)}
    {numbers : List Nat} (distinct : numbers.Nodup) (enough : threshold ≤ numbers.length) :
    Compatible (numbers.map (issuedShare identifier threshold curves)) := by
  have shares : ∀ share ∈ numbers.map (issuedShare identifier threshold curves),
      share.identifier = identifier ∧ share.iterationExponent = ITERATION_EXPONENT ∧
        share.memberThreshold = threshold := by
    intro share member
    obtain ⟨number, _, rfl⟩ := List.mem_map.mp member
    exact ⟨rfl, rfl, rfl⟩
  constructor
  · exact fun a inA b inB => (shares a inA).1.trans (shares b inB).1.symm
  · exact fun a inA b inB => (shares a inA).2.1.trans (shares b inB).2.1.symm
  · exact fun a inA b inB => (shares a inA).2.2.trans (shares b inB).2.2.symm
  · rw [List.map_map]
    exact (List.map_id numbers).symm ▸ distinct
  · intro share member
    rw [(shares share member).2.2, List.length_map]
    exact enough

section Issued

variable {root : Root} {threshold shareCount identifier : Nat} {mnemonics : List Str}
  {curves : List (Polynomial Gf256)} {text : Nat → Str} {numbers : List Nat}

/-- The share with the given number of a split. -/
noncomputable def issuedRaw (curves : List (Polynomial Gf256)) (number : Nat) : RawShare where
  index := BitVec.ofNat 8 number
  value := bytesAt curves (BitVec.ofNat 8 number)

theorem admit_issued (issues : Issues root threshold shareCount mnemonics identifier curves text)
    (positive : 0 < threshold) (bounds : ∀ number ∈ numbers, number < shareCount)
    (distinct : numbers.Nodup) (enough : threshold ≤ numbers.length) :
    AdmittedQuorum.admitMnemonics (numbers.map text) = .ok {
      threshold := threshold
      iterationExponent := ITERATION_EXPONENT
      shares := (numbers.take threshold).map (issuedRaw curves) } := by
  let share := issuedShare identifier threshold curves
  have length : curves.length = SECRET_BYTES :=
    issues.splits.length.trans (MasterSecretCipher.length_encrypt _ root.2)
  have decoded : (numbers.map text).mapM Share.decode = .ok (numbers.map share) := by
    have each : ∀ number ∈ numbers, Share.decode (text number) = .ok (share number) :=
      fun number member => issues.decode number (bounds number member)
    rw [List.mapM_map]
    exact mapM_eq_ok_map each
  obtain ⟨first, rest, whole⟩ : ∃ first rest, numbers = first :: rest :=
    List.exists_cons_of_length_pos (by omega)
  have head : (numbers.map share).head? = some (share first) := by
    rw [whole]
    rfl
  have sizes : ∀ own ∈ numbers.map share, own.value.length = SECRET_BYTES := by
    intro own member
    obtain ⟨number, _, rfl⟩ := List.mem_map.mp member
    exact (length_bytesAt curves _).trans length
  have quorum : ((numbers.map share).take threshold).map (fun own : Share =>
      ({ index := BitVec.ofNat 8 own.memberIndex, value := own.value } : RawShare)) =
      (numbers.take threshold).map (issuedRaw curves) := by
    rw [← List.map_take, List.map_map]
    rfl
  rw [AdmittedQuorum.admitMnemonics, decoded, ← quorum]
  exact admitShares_eq head (compatible_issued distinct enough) sizes

theorem combine_issued (issues : Issues root threshold shareCount mnemonics identifier curves text)
    (valid : 2 ≤ threshold ∧ threshold ≤ shareCount ∧ shareCount ≤ 16)
    (bounds : ∀ number ∈ numbers, number < shareCount) (distinct : numbers.Nodup)
    (enough : threshold ≤ numbers.length) :
    SecretPolynomial.recover threshold ((numbers.take threshold).map (issuedRaw curves)) =
      .ok (MasterSecretCipher.encrypt { passphrase := [], exponent := ITERATION_EXPONENT } root) := by
  apply SecretPolynomial.recover_eq issues.splits valid.1
  · rw [List.length_map, List.length_take]
    omega
  · rw [List.map_map]
    apply SecretPolynomial.nodup_map_ofNat (distinct.sublist (List.take_sublist _ _))
    intro number member
    have := bounds number (List.mem_of_mem_take member)
    omega
  · intro own member
    obtain ⟨number, _, rfl⟩ := List.mem_map.mp member
    rfl

theorem recover_quorum {quorum : AdmittedQuorum} {passphrase encrypted : List Byte}
    (combined : SecretPolynomial.recover quorum.threshold quorum.shares = .ok encrypted)
    (decrypted : MasterSecretCipher.decrypt { passphrase, exponent := quorum.iterationExponent }
      encrypted = .ok root.1) : quorum.recover passphrase = .ok root := by
  rw [AdmittedQuorum.recover, combined]
  show (MasterSecretCipher.decrypt _ encrypted >>= _) = _
  rw [decrypted]
  exact dif_pos root.2

theorem recover_issued (issues : Issues root threshold shareCount mnemonics identifier curves text)
    (valid : 2 ≤ threshold ∧ threshold ≤ shareCount ∧ shareCount ≤ 16) {chosen : List Str}
    (drawn : chosen ⊆ mnemonics) (distinct : chosen.Nodup) (enough : threshold ≤ chosen.length) :
    (SentinelSecretRecoveryRequest.sentinel chosen).recover = .ok root := by
  obtain ⟨numbers, rfl, bounds⟩ := exists_numbers (issues.mnemonics ▸ drawn)
  have distinctNumbers : numbers.Nodup := List.Nodup.of_map _ distinct
  rw [List.length_map] at enough
  have thresholdChecked :
      SentinelSecretRecoveryRequest.checkThreshold (numbers.map text) = .ok () := by
    obtain ⟨first, rest, whole⟩ : ∃ first rest, numbers = first :: rest :=
      List.exists_cons_of_length_pos (by omega)
    have decoded := issues.decode first (bounds first (by simp [whole]))
    rw [SentinelSecretRecoveryRequest.checkThreshold, whole]
    show (Share.decode (text first) >>= _) = _
    rw [decoded]
    exact (refuse_eq_ok _ _).mpr (decide_eq_false (by simp only [issuedShare]; omega))
  have decrypted := MasterSecretCipher.decrypt_encrypt
    { passphrase := [], exponent := ITERATION_EXPONENT } root.2
  show (SentinelSecretRecoveryRequest.checkThreshold (numbers.map text) >>= fun _ =>
    AdmittedQuorum.admitMnemonics (numbers.map text) >>= fun quorum => quorum.recover []) = _
  rw [thresholdChecked, admit_issued issues (by omega) bounds distinctNumbers enough]
  exact recover_quorum (combine_issued issues valid bounds distinctNumbers enough) decrypted

end Issued

/-! ### The quorum -/

/-- Two of the mnemonics stand for the same member index. -/
def RepeatsIndex (mnemonics : List Str) : Prop :=
  ∃ (i j : Nat) (first second : Share), i ≠ j ∧ (mnemonics.map Share.decode)[i]? = some (.ok first) ∧
    (mnemonics.map Share.decode)[j]? = some (.ok second) ∧ first.memberIndex = second.memberIndex

/-- Two of the mnemonics are of different sets. -/
def Mixes (mnemonics : List Str) : Prop :=
  ∃ a ∈ mnemonics, ∃ b ∈ mnemonics, ∃ first second, Share.decode a = .ok first ∧
    Share.decode b = .ok second ∧ (first.identifier ≠ second.identifier ∨
      first.iterationExponent ≠ second.iterationExponent ∨
      first.memberThreshold ≠ second.memberThreshold)

theorem refused_of_not_compatible {mnemonics : List Str}
    (incompatible : ∀ shares, mnemonics.map Share.decode = shares.map .ok → ¬ Compatible shares) :
    (SentinelSecretRecoveryRequest.sentinel mnemonics).recover.isOk = false := by
  cases recovered : (SentinelSecretRecoveryRequest.sentinel mnemonics).recover with
  | error cause => rfl
  | ok root =>
    obtain ⟨shares, decoded, compatible⟩ := compatible_of_recover recovered
    exact absurd compatible (incompatible shares decoded)

omit [Hashes] in
theorem mem_of_decoded {mnemonics : List Str} {shares : List Share}
    (decoded : mnemonics.map Share.decode = shares.map .ok) {mnemonic : Str}
    (member : mnemonic ∈ mnemonics) {share : Share} (own : Share.decode mnemonic = .ok share) :
    share ∈ shares := by
  have inside : Share.decode mnemonic ∈ shares.map .ok := decoded ▸ List.mem_map_of_mem member
  obtain ⟨other, there, same⟩ := List.mem_map.mp inside
  rwa [Except.ok.inj (same.trans own)] at there

omit [Hashes] in
theorem not_compatible_of_repeatsIndex {mnemonics : List Str} (repeats : RepeatsIndex mnemonics)
    {shares : List Share} (decoded : mnemonics.map Share.decode = shares.map .ok) :
    ¬ Compatible shares := by
  obtain ⟨i, j, first, second, apart, here, there, same⟩ := repeats
  intro compatible
  have read : ∀ (position : Nat) (share : Share), (mnemonics.map Share.decode)[position]? = some (.ok share) →
      shares[position]? = some share := by
    intro position share found
    rw [decoded, List.getElem?_map, Option.map_eq_some_iff] at found
    obtain ⟨other, at_, equal⟩ := found
    rw [at_, Except.ok.inj equal]
  have indexes : (shares.map Share.memberIndex)[i]? = (shares.map Share.memberIndex)[j]? := by
    rw [List.getElem?_map, List.getElem?_map, read i first here, read j second there]
    simp [same]
  have inside : i < (shares.map Share.memberIndex).length := by
    rw [List.length_map]
    exact (List.getElem?_eq_some_iff.mp (read i first here)).1
  exact apart ((List.getElem?_inj inside compatible.distinct).mp indexes)

omit [Hashes] in
theorem not_compatible_of_mixes {mnemonics : List Str} (mixes : Mixes mnemonics)
    {shares : List Share} (decoded : mnemonics.map Share.decode = shares.map .ok) :
    ¬ Compatible shares := by
  obtain ⟨a, inA, b, inB, first, second, decodedA, decodedB, differ⟩ := mixes
  intro compatible
  have memberA := mem_of_decoded decoded inA decodedA
  have memberB := mem_of_decoded decoded inB decodedB
  rcases differ with identifier | exponent | threshold
  · exact identifier (compatible.identifier first memberA second memberB)
  · exact exponent (compatible.iterationExponent first memberA second memberB)
  · exact threshold (compatible.memberThreshold first memberA second memberB)

theorem quorum_recovers_root (root : Root) {threshold shareCount : Nat}
    (valid : SentinelUnlockPolicy.validate
      { threshold := threshold, requiredParticipants := shareCount } = .ok ())
    (drawn : Nat → Nat → Byte) :
    ∃ mnemonics, SentinelSecretSplitRequest.issue ⟨root, threshold, shareCount⟩
        (fun call => .ok (drawn call)) = .ok mnemonics ∧
      mnemonics.length = shareCount ∧
      (∀ chosen, chosen ⊆ mnemonics → chosen.Nodup → threshold ≤ chosen.length →
        (SentinelSecretRecoveryRequest.sentinel chosen).recover = .ok root) ∧
      ∀ chosen, chosen ≠ [] →
        (∃ mnemonic ∈ chosen, mnemonic ∈ mnemonics) ∧ chosen.length < threshold ∨
          RepeatsIndex chosen ∨ Mixes chosen →
        (SentinelSecretRecoveryRequest.sentinel chosen).recover.isOk = false := by
  have policy := SentinelUnlockPolicy.validate_eq_ok.mp valid
  obtain ⟨mnemonics, identifier, curves, text, issued, issues⟩ := issue_eq policy root drawn
  refine ⟨mnemonics, issued, by simp [issues.mnemonics], fun chosen subset distinct enough =>
    recover_issued issues policy subset distinct enough, fun chosen _ refused => ?_⟩
  apply refused_of_not_compatible
  intro shares decoded
  rcases refused with ⟨⟨mnemonic, member, own⟩, short⟩ | repeats | mixes
  · intro compatible
    rw [issues.mnemonics] at own
    obtain ⟨number, inside, rfl⟩ := List.mem_map.mp own
    have share := mem_of_decoded decoded member (issues.decode number (List.mem_range.mp inside))
    have enough : threshold ≤ shares.length := compatible.enough _ share
    have length : chosen.length = shares.length := by
      have lengths := congrArg List.length decoded
      rwa [List.length_map, List.length_map] at lengths
    omega
  · exact not_compatible_of_repeatsIndex repeats decoded
  · exact not_compatible_of_mixes mixes decoded

end

namespace TestSupport

/-- Hashes of nothing but zeros. -/
scoped instance zeroHashes : Hashes where
  pbkdf2Hmac _ _ _ _ _ := 0
  hmac _ _ _ := 0

def zeroRoot : Root := ⟨List.replicate 32 0, rfl⟩

theorem quorum_recovers_root_three_of_five : ∃ mnemonics,
    SentinelSecretSplitRequest.issue ⟨zeroRoot, 3, 5⟩ (fun _ => .ok fun _ => 1) = .ok mnemonics ∧
      mnemonics.length = 5 ∧
      (∀ chosen, chosen ⊆ mnemonics → chosen.Nodup → 3 ≤ chosen.length →
        (SentinelSecretRecoveryRequest.sentinel chosen).recover = .ok zeroRoot) ∧
      ∀ chosen, chosen ≠ [] →
        (∃ mnemonic ∈ chosen, mnemonic ∈ mnemonics) ∧ chosen.length < 3 ∨
          RepeatsIndex chosen ∨ Mixes chosen →
        (SentinelSecretRecoveryRequest.sentinel chosen).recover.isOk = false :=
  quorum_recovers_root zeroRoot (by decide) fun _ _ => 1

end TestSupport

end Nook.Sentinel
