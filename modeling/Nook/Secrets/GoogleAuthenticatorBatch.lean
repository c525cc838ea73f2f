import Nook.Secrets.GoogleAuthenticatorImport

set_option autoImplicit false

namespace Nook.Secrets

open Nook.EventLog Nook.Lib

/-! ### Whole transfers -/

/-- One part for every index below the size of one batch. -/
structure IsTransfer (parts : List ParsedPart) : Prop where
  sizes : ∀ part ∈ parts, part.batchSize = parts.length
  oneBatch : ∀ part ∈ parts, ∀ other ∈ parts, part.payload.batchId = other.payload.batchId ∧
    part.payload.version = other.payload.version
  indices : (parts.map ParsedPart.batchIndex).Perm (List.range parts.length)

theorem IsTransfer.perm {parts other : List ParsedPart} (transfer : IsTransfer parts)
    (reordered : parts.Perm other) : IsTransfer other where
  sizes part member := by
    rw [← reordered.length_eq]
    exact transfer.sizes part (reordered.symm.subset member)
  oneBatch part member part' member' :=
    transfer.oneBatch part (reordered.symm.subset member) part' (reordered.symm.subset member')
  indices := by
    rw [← reordered.length_eq]
    exact (reordered.symm.map ParsedPart.batchIndex).trans transfer.indices

theorem IsTransfer.nodup {parts : List ParsedPart} (transfer : IsTransfer parts) :
    (parts.map ParsedPart.batchIndex).Nodup :=
  transfer.indices.nodup_iff.mpr List.nodup_range

theorem sourceAccounts_perm {parts other : List ParsedPart} (reordered : parts.Perm other) :
    sourceAccounts parts = sourceAccounts other :=
  (reordered.map _).sum_eq

theorem repeatsIndex_eq_false {parts : List ParsedPart}
    (distinct : (parts.map ParsedPart.batchIndex).Nodup) : repeatsIndex parts = false := by
  induction parts with
  | nil => rfl
  | cons left rest ih =>
    cases rest with
    | nil => rfl
    | cons right rest =>
      rw [List.map_cons, List.nodup_cons] at distinct
      have apart : left.batchIndex ≠ right.batchIndex := by
        intro same
        exact distinct.1 (by simp [same])
      rw [repeatsIndex, ih distinct.2, Bool.or_false, beq_eq_false_iff_ne]
      exact apart

namespace ParsedMigrationBatch

/-- Completing admits whole transfers of a number of accounts within the limits. -/
theorem complete_eq_ok {parts : List ParsedPart} {batch : CompleteMigrationBatch} :
    complete ⟨parts⟩ = .ok batch ↔ IsTransfer parts ∧ 0 < sourceAccounts parts ∧
      sourceAccounts parts ≤ MAX_ITEMS ∧
      batch = ⟨sortByKey ParsedPart.batchIndex parts, sourceAccounts parts⟩ := by
  have sorted := sortByKey_perm ParsedPart.batchIndex parts
  have accounts := sourceAccounts_perm sorted
  cases parts with
  | nil =>
    constructor
    · intro completed
      cases completed
    · rintro ⟨_, filled, _⟩
      exact absurd filled (by decide)
  | cons first rest =>
    have alike : ((first :: rest).any fun part => part.batchSize != first.batchSize ||
        part.payload.batchId != first.payload.batchId ||
        part.payload.version != first.payload.version) = false ↔
          ∀ part ∈ first :: rest, part.batchSize = first.batchSize ∧
            part.payload.batchId = first.payload.batchId ∧
            part.payload.version = first.payload.version := by
      simp only [List.any_eq_false, Bool.not_eq_true, Bool.or_eq_false_iff, bne_eq_false_iff_eq,
        and_assoc]
    have positions := any_zipIdx_eq_false ParsedPart.batchIndex
      (sortByKey ParsedPart.batchIndex (first :: rest)) 0
    rw [← List.range_eq_range'] at positions
    unfold complete
    simp only [List.head?_cons, present, bind, Except.bind]
    constructor
    · intro completed
      split at completed
      · cases completed
      rename_i same
      split at completed
      · cases completed
      split at completed
      · cases completed
      rename_i ordered
      rw [not_or, not_not, Bool.not_eq_true, positions] at ordered
      split at completed
      · cases completed
      rename_i filled
      split at completed
      · cases completed
      rename_i bounded
      cases completed
      have each := alike.mp (by simpa using same)
      rw [accounts] at filled bounded
      have length := sorted.length_eq
      refine ⟨⟨?_, ?_, ?_⟩, Nat.pos_of_ne_zero filled, Nat.not_lt.mp bounded, by rw [accounts]⟩
      · intro part member
        rw [(each part member).1, ← ordered.1, length]
      · intro part member other member'
        have own := (each part member).2
        have others := (each other member').2
        exact ⟨own.1.trans others.1.symm, own.2.trans others.2.symm⟩
      · have whole := (sorted.map ParsedPart.batchIndex).symm
        rw [ordered.2, length] at whole
        exact whole
    · rintro ⟨transfer, filled, bounded, rfl⟩
      have same := alike.mpr fun part member => by
        have batch := transfer.oneBatch part member first (List.mem_cons_self ..)
        have size := transfer.sizes first (List.mem_cons_self ..)
        exact ⟨(transfer.sizes part member).trans size.symm, batch⟩
      have distinct : repeatsIndex (sortByKey ParsedPart.batchIndex (first :: rest)) = false := by
        apply repeatsIndex_eq_false
        exact ((sorted.map ParsedPart.batchIndex).nodup_iff).mpr transfer.nodup
      have ordered := positions.mpr (by
        rw [map_sortByKey_of_perm_range ParsedPart.batchIndex transfer.indices, sorted.length_eq])
      have size : (sortByKey ParsedPart.batchIndex (first :: rest)).length = first.batchSize := by
        rw [sorted.length_eq, transfer.sizes first (List.mem_cons_self ..)]
      have nonzero : sourceAccounts (first :: rest) ≠ 0 := by omega
      have within : ¬MAX_ITEMS < sourceAccounts (first :: rest) := by omega
      simp only [same, distinct, ordered, size, accounts, nonzero, within, ne_eq, not_true_eq_false,
        Bool.false_eq_true, or_self, ↓reduceIte]
      rfl

end ParsedMigrationBatch

/-! ### Plans -/

namespace CompleteMigrationBatch

variable [UrlParser]

/-- The catalog of issuers stops no conversion. -/
theorem convert_error {parameter : OtpParameters} {error : OtpParameterError}
    (failed : parameter.convert = .error error) : error = .unsupported := by
  have fromOption : ∀ {α : Type} {value : Option α}, supported value = .error error →
      error = .unsupported := by
    intro α value failed
    cases value with
    | none => exact (Except.error.inj failed).symm
    | some value => cases failed
  have fromResult : ∀ {ε α : Type} {result : Except ε α}, orUnsupported result = .error error →
      error = .unsupported := by
    intro ε α result failed
    cases result with
    | error cause => exact (Except.error.inj failed).symm
    | ok value => cases failed
  unfold OtpParameters.convert at failed
  dsimp only at failed
  split at failed
  · exact (Except.error.inj failed).symm
  rcases bind_eq_error.mp failed with failed | ⟨algorithm, _, failed⟩
  · exact fromOption failed
  rcases bind_eq_error.mp failed with failed | ⟨digits, _, failed⟩
  · exact fromOption failed
  obtain ⟨text, encoded, _⟩ := MigrationSecretBytes.base32_bits parameter.secret
  rcases bind_eq_error.mp failed with failed | ⟨encodedSecret, _, failed⟩
  · rw [encoded] at failed
    cases failed
  rcases bind_eq_error.mp failed with failed | ⟨secret, _, failed⟩
  · exact fromResult failed
  rcases bind_eq_error.mp failed with failed | ⟨period, _, failed⟩
  · exact fromOption failed
  rcases bind_eq_error.mp failed with failed | ⟨item, _, failed⟩
  · obtain ⟨websiteUrl, inferred⟩ := AuthenticatorSecret.applyInferredWebsiteUrlIfEmpty_ok
      { issuer := (MigrationAccountLabel.split ⟨parameter.name, parameter.issuer⟩).2
        account := (MigrationAccountLabel.split ⟨parameter.name, parameter.issuer⟩).1
        websiteUrl := []
        secret := secret
        algorithm := algorithm
        digits := digits
        period := period
        backupCodes := [] }
    rw [inferred] at failed
    cases failed
  rcases bind_eq_error.mp failed with failed | ⟨normalized, _, failed⟩
  · exact fromResult failed
  · cases failed

/-- Every account is taken over or counted. -/
theorem length_take {parameters : List OtpParameters} {start planned : List SecretValue × Nat}
    (taken : parameters.foldlM take start = .ok planned) :
    planned.1.length + planned.2 = start.1.length + start.2 + parameters.length := by
  induction parameters generalizing start with
  | nil =>
    cases taken
    rfl
  | cons parameter rest ih =>
    rw [List.foldlM_cons] at taken
    obtain ⟨next, stepped, taken⟩ := bind_eq_ok.mp taken
    have total := ih taken
    have one : next.1.length + next.2 = start.1.length + start.2 + 1 := by
      unfold take at stepped
      split at stepped
      · cases stepped
        rw [List.length_append, List.length_singleton]
        omega
      · cases stepped
        show start.1.length + (start.2 + 1) = _
        omega
      · cases stepped
    rw [List.length_cons]
    omega

/-- Planning a complete batch takes over or counts each of its accounts. -/
theorem plan_spec (batch : CompleteMigrationBatch) : ∃ plan, batch.plan = .ok plan ∧
    plan.sourceCount = batch.sourceCount ∧
    plan.items.length + plan.skippedUnsupported = sourceAccounts batch.parts := by
  have steps : ∀ planned parameter, ∃ next, take planned parameter = .ok next := by
    intro planned parameter
    unfold take
    split
    · exact ⟨_, rfl⟩
    · exact ⟨_, rfl⟩
    · rename_i failed
      exact absurd (convert_error failed) (by simp)
  obtain ⟨planned, folded, _⟩ := foldlM_rule (fun _ _ => True)
    (batch.parts.flatMap fun part => part.payload.otpParameters) ([], 0) trivial
    fun before parameter state _ _ => by
      obtain ⟨next, stepped⟩ := steps state parameter
      exact ⟨next, stepped, trivial⟩
  have total := length_take folded
  refine ⟨⟨planned.1, batch.sourceCount, planned.2⟩, ?_, rfl, ?_⟩
  · unfold plan
    dsimp only
    rw [folded]
    rfl
  · simpa [sourceAccounts, List.length_flatMap] using total

end CompleteMigrationBatch

namespace GoogleAuthenticatorMigrationInput

variable [UrlParser] [MigrationDecoders]

/-- Planning succeeds on the texts of a whole transfer within the limits, and depends on
its parts by their index. -/
theorem plan_eq_ok {uris : List Str} {plan : GoogleAuthenticatorImportPlan} :
    GoogleAuthenticatorMigrationInput.plan uris = .ok plan ↔
      ∃ parts, uris.length ≤ MAX_QR_CODES ∧ uris.mapM ParsedPart.parse = .ok parts ∧
        IsTransfer parts ∧ 0 < sourceAccounts parts ∧ sourceAccounts parts ≤ MAX_ITEMS ∧
        CompleteMigrationBatch.plan ⟨sortByKey ParsedPart.batchIndex parts, sourceAccounts parts⟩ =
          .ok plan := by
  unfold GoogleAuthenticatorMigrationInput.plan ParsedMigrationBatch.parse
  constructor
  · intro planned
    obtain ⟨batch, parsed, planned⟩ := bind_eq_ok.mp planned
    obtain ⟨complete, completed, planned⟩ := bind_eq_ok.mp planned
    dsimp only at parsed
    split at parsed
    · cases parsed
    split at parsed
    · cases parsed
    rename_i few
    obtain ⟨parts, each, same⟩ := bind_eq_ok.mp parsed
    cases same
    obtain ⟨transfer, filled, bounded, rfl⟩ := ParsedMigrationBatch.complete_eq_ok.mp completed
    exact ⟨parts, Nat.not_lt.mp few, each, transfer, filled, bounded, planned⟩
  · rintro ⟨parts, few, each, transfer, filled, bounded, planned⟩
    have some : ¬uris.isEmpty = true := by
      intro empty
      rw [List.isEmpty_iff] at empty
      subst empty
      cases each
      exact absurd filled (by decide)
    rw [if_neg some, if_neg (Nat.not_lt.mpr few)]
    apply bind_eq_ok.mpr
    refine ⟨⟨parts⟩, bind_eq_ok.mpr ⟨parts, each, rfl⟩, ?_⟩
    exact bind_eq_ok.mpr ⟨_, ParsedMigrationBatch.complete_eq_ok.mpr
      ⟨transfer, filled, bounded, rfl⟩, planned⟩

theorem plan_perm {uris permuted : List Str} (reordered : uris.Perm permuted)
    {plan : GoogleAuthenticatorImportPlan}
    (planned : GoogleAuthenticatorMigrationInput.plan uris = .ok plan) :
    GoogleAuthenticatorMigrationInput.plan permuted = .ok plan := by
  obtain ⟨parts, few, each, transfer, filled, bounded, planned⟩ := plan_eq_ok.mp planned
  obtain ⟨parts', each', permutedParts⟩ := mapM_perm reordered each
  have sorted := sortByKey_eq_of_perm ParsedPart.batchIndex permutedParts transfer.nodup
  have accounts := sourceAccounts_perm permutedParts
  rw [reordered.length_eq] at few
  rw [accounts] at filled bounded
  rw [sorted, accounts] at planned
  exact plan_eq_ok.mpr ⟨parts', few, each', transfer.perm permutedParts, filled, bounded, planned⟩

/-- A transfer is planned only from one part for each index of one batch, the same
in any order, and each of its accounts is taken over or counted as skipped. -/
theorem transfers_are_read_whole {uris : List Str} {plan : GoogleAuthenticatorImportPlan}
    (planned : GoogleAuthenticatorMigrationInput.plan uris = .ok plan) :
    (∃ parts, uris.mapM ParsedPart.parse = .ok parts ∧ IsTransfer parts ∧
      plan.sourceCount = sourceAccounts parts ∧
      plan.items.length + plan.skippedUnsupported = sourceAccounts parts) ∧
    ∀ permuted, uris.Perm permuted → GoogleAuthenticatorMigrationInput.plan permuted = .ok plan := by
  refine ⟨?_, fun permuted reordered => plan_perm reordered planned⟩
  obtain ⟨parts, _, each, transfer, _, _, planned⟩ := plan_eq_ok.mp planned
  obtain ⟨plan', planned', count, total⟩ := CompleteMigrationBatch.plan_spec
    ⟨sortByKey ParsedPart.batchIndex parts, sourceAccounts parts⟩
  rw [planned] at planned'
  cases planned'
  rw [sourceAccounts_perm (sortByKey_perm ParsedPart.batchIndex parts)] at total
  exact ⟨parts, each, transfer, count, total⟩

end GoogleAuthenticatorMigrationInput

namespace TestSupport

/-- The hosts of the two texts that are looked up for an issuer that is a domain. -/
@[reducible] def domainHosts : UrlParser where
  hostStr text := if text = "https://example.com".toList then some (some "example.com".toList)
    else none

def aliceBytes : Bytes :=
  [10, 38, 10, 10, 1, 2, 3, 4, 5, 6, 7, 8, 9, 10, 18, 5, 97, 108, 105, 99, 101, 26, 11, 101, 120,
    97, 109, 112, 108, 101, 46, 99, 111, 109, 32, 1, 40, 1, 48, 2, 16, 1, 24, 2, 40, 7]

def bobBytes : Bytes :=
  [10, 36, 10, 10, 1, 2, 3, 4, 5, 6, 7, 8, 9, 10, 18, 3, 98, 111, 98, 26, 11, 101, 120, 97, 109,
    112, 108, 101, 46, 99, 111, 109, 32, 1, 40, 1, 48, 1, 16, 1, 24, 2, 32, 1, 40, 7]

def accountNamed (name : Str) (otpType : Int32) : OtpParameters where
  secret := [1, 2, 3, 4, 5, 6, 7, 8, 9, 10]
  name := name
  issuer := "example.com".toList
  algorithm := 1
  digits := 1
  otpType := otpType
  counter := 0

/-- The decoders on the texts of a transfer of two parts. -/
@[reducible] def twoParts : MigrationDecoders where
  base64 text :=
    if text = "CiYKCgECAwQFBgcICQoSBWFsaWNlGgtleGFtcGxlLmNvbSABKAEwAhABGAIoBw==".toList then
      some aliceBytes
    else if text = "CiQKCgECAwQFBgcICQoSA2JvYhoLZXhhbXBsZS5jb20gASgBMAEQARgCIAEoBw==".toList then
      some bobBytes
    else none
  payload bytes :=
    if bytes = aliceBytes then some ⟨[accountNamed "alice".toList 2], 1, 2, 0, 7⟩
    else if bytes = bobBytes then some ⟨[accountNamed "bob".toList 1], 1, 2, 1, 7⟩
    else none

/-- The second part, which holds a counter-based account, and then the first. -/
def scanned : List Str :=
  ["otpauth-migration://offline?data=CiQKCgECAwQFBgcICQoSA2JvYhoLZXhhbXBsZS5jb20gASgBMAEQARgCIAEoBw%3D%3D".toList,
    "otpauth-migration://offline?data=CiYKCgECAwQFBgcICQoSBWFsaWNlGgtleGFtcGxlLmNvbSABKAEwAhABGAIoBw%3D%3D".toList]

def scannedPlan : GoogleAuthenticatorImportPlan where
  items := [.authenticator {
    issuer := "example.com".toList
    account := "alice".toList
    websiteUrl := "https://example.com".toList
    secret := ⟨"AEBAGBAFAYDQQCIK".toList⟩
    algorithm := .sha1
    digits := .six
    period := ⟨30, by decide⟩
    backupCodes := [] }]
  sourceCount := 2
  skippedUnsupported := 1

theorem scanned_planned :
    @GoogleAuthenticatorMigrationInput.plan domainHosts twoParts scanned = .ok scannedPlan := by
  decide +kernel

theorem transfers_are_read_whole_scanned :
    (∃ parts, scanned.mapM (@ParsedPart.parse twoParts) = .ok parts ∧ IsTransfer parts ∧
      2 = sourceAccounts parts ∧ 2 = sourceAccounts parts) ∧
    ∀ permuted, scanned.Perm permuted →
      @GoogleAuthenticatorMigrationInput.plan domainHosts twoParts permuted = .ok scannedPlan :=
  @GoogleAuthenticatorMigrationInput.transfers_are_read_whole domainHosts twoParts scanned
    scannedPlan scanned_planned

end TestSupport

end Nook.Secrets
