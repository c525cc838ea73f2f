import Nook.EventLog.Canonical
import Nook.Sync.StoredProvider

set_option autoImplicit false

namespace Nook.Sync

open Nook.Lib Nook.EventLog Nook.Recovery

variable [ICloudTargetText]

/-! ### What a target key of an OAuth provider says -/

omit [ICloudTargetText] in
theorem colon_notMem_folderId (folder : GoogleDriveFolderId) : ':' ∉ folder.asStr := by
  intro member
  have plain := List.all_eq_true.mp folder.exact.2.2 ':' member
  exact absurd plain (by decide)

/-- A share's storage id is its lead and the text of a target. -/
theorem storageId_split (share : ICloudShareTargetId) : ∃ text : Str,
    share.asStr = iCloudShareLead ++ text ∧ (ICloudTargetText.fromStr text).isSome = true := by
  have exact := share.exact.2
  unfold ICloudSharedTarget.isStorageId at exact
  rw [share.exact.1, Bool.and_eq_true] at exact
  obtain ⟨text, split⟩ := List.isPrefixOf_iff_prefix.mp exact.1
  refine ⟨text, split.symm, ?_⟩
  have complete := exact.2
  rw [← split, List.drop_left] at complete
  cases read : ICloudTargetText.fromStr text with
  | some target => rfl
  | none => simp [read] at complete

/-- No storage id goes on behind a colon as another one. -/
theorem storageId_ne_append (refuses : ICloudTargetText.RefusesTrailing)
    (share other : ICloudShareTargetId) (rest : Str) : other.asStr ≠ share.asStr ++ ':' :: rest := by
  intro same
  obtain ⟨text, split, read⟩ := storageId_split share
  obtain ⟨text', split', read'⟩ := storageId_split other
  rw [split, split', List.append_assoc] at same
  have own := List.append_cancel_left same
  rw [own, refuses text rest read] at read'
  cases read'

/-- A storage id ends at the first colon behind a whole target. -/
theorem storageId_inj (refuses : ICloudTargetText.RefusesTrailing)
    {share other : ICloudShareTargetId} {rest rest' : Str}
    (same : share.asStr ++ ':' :: rest = other.asStr ++ ':' :: rest') :
    share.asStr = other.asStr ∧ rest = rest' := by
  cases List.append_eq_append_iff.mp same with
  | inl longer =>
    obtain ⟨between, split, tail⟩ := longer
    cases between with
    | nil => exact ⟨by rw [split, List.append_nil], (List.cons.inj tail).2⟩
    | cons head between =>
      have colon := (List.cons.inj tail).1
      subst colon
      exact absurd split (storageId_ne_append refuses share other between)
  | inr shorter =>
    obtain ⟨between, split, tail⟩ := shorter
    cases between with
    | nil => exact ⟨by rw [split, List.append_nil], (List.cons.inj tail).2.symm⟩
    | cons head between =>
      have colon := (List.cons.inj tail).1
      subst colon
      exact absurd split (storageId_ne_append refuses other share between)

namespace OAuthFileProvider

variable {fresh saved : OAuthFileProvider}

/-- What stands for the account in the target key. -/
def accountText (provider : OAuthFileProvider) : Str :=
  accountOr (trim provider.token.expose) provider.account

/-- Whether a provider was saved with an address of white space only. -/
def hasBlankEmail (provider : OAuthFileProvider) : Prop :=
  ∃ address, provider.account = .email address ∧ trim address = []

/-- The target key that a sign-in has if it names no account. -/
def tokenKey (provider : OAuthFileProvider) : ProviderTargetKey :=
  (provider.withAccount .unknown).targetKey

theorem withAccount_account (provider : OAuthFileProvider) :
    provider.withAccount provider.account = provider := by
  cases provider with
  | googleDrive drive => rfl
  | iCloud share => rfl

theorem mergedInto_self (provider : OAuthFileProvider) :
    provider.mergedInto provider = provider := by
  unfold mergedInto
  cases named : provider.account with
  | email address =>
    have own := withAccount_account provider
    rw [named] at own
    exact own
  | unknown =>
    have own := withAccount_account provider
    rw [named] at own
    exact own

omit [ICloudTargetText] in
/-- What the target key of a preset starts with. -/
def keyLead : OAuthFilePreset → Str
  | .googleDrive => "oauth-file:google-drive:shared:".toList
  | .iCloud => "oauth-file:icloud:".toList

/-- The folder or the share that a provider reaches. -/
def sharedTarget : OAuthFileProvider → Str
  | googleDrive drive => drive.folderId.asStr
  | iCloud share => share.shareTarget.asStr

theorem targetKey_eq (provider : OAuthFileProvider) : provider.targetKey =
    keyLead provider.preset ++ (provider.sharedTarget ++ ':' :: provider.accountText) := by
  cases provider with
  | googleDrive drive => exact List.append_assoc _ _ _
  | iCloud share => exact List.append_assoc _ _ _

omit [ICloudTargetText] in
theorem keyLead_inj {preset other : OAuthFilePreset} {rest rest' : Str}
    (same : keyLead preset ++ rest = keyLead other ++ rest') : preset = other ∧ rest = rest' := by
  have literal (rest rest' : Str) : keyLead .googleDrive ++ rest ≠ keyLead .iCloud ++ rest' :=
    append_ne_append 11 (by decide +kernel) (by decide +kernel) (by decide +kernel)
  cases preset with
  | googleDrive =>
    cases other with
    | googleDrive => exact ⟨rfl, List.append_cancel_left same⟩
    | iCloud => exact absurd same (literal _ _)
  | iCloud =>
    cases other with
    | googleDrive => exact absurd same.symm (literal _ _)
    | iCloud => exact ⟨rfl, List.append_cancel_left same⟩

/-- Providers of one target key have one target, and the same text for the account. -/
theorem targetKey_inj (refuses : ICloudTargetText.RefusesTrailing)
    (same : fresh.targetKey = saved.targetKey) :
    fresh.preset = saved.preset ∧ fresh.sharedTarget = saved.sharedTarget ∧
      fresh.accountText = saved.accountText := by
  rw [targetKey_eq, targetKey_eq] at same
  obtain ⟨preset, tails⟩ := keyLead_inj same
  refine ⟨preset, ?_⟩
  cases fresh with
  | googleDrive drive =>
    cases saved with
    | googleDrive drive' =>
      exact append_cons_inj_of_notMem_left (colon_notMem_folderId drive.folderId)
        (colon_notMem_folderId drive'.folderId) tails
    | iCloud share' => cases preset
  | iCloud share =>
    cases saved with
    | googleDrive drive' => cases preset
    | iCloud share' => exact storageId_inj refuses tails

theorem targetKey_withAccount (provider : OAuthFileProvider) (account : OAuthAccountIdentity) :
    (provider.withAccount account).targetKey = keyLead provider.preset ++
      (provider.sharedTarget ++ ':' :: accountOr (trim provider.token.expose) account) := by
  rw [targetKey_eq]
  cases provider with
  | googleDrive drive => rfl
  | iCloud share => rfl

/-- A merged sign-in keeps the saved target key, unless the saved address is blank. -/
theorem targetKey_mergedInto (refuses : ICloudTargetText.RefusesTrailing)
    (same : saved.targetKey = fresh.targetKey) :
    (saved.hasBlankEmail ∧ (fresh.mergedInto saved).targetKey = fresh.tokenKey) ∨
      (¬ saved.hasBlankEmail ∧ (fresh.mergedInto saved).targetKey = saved.targetKey) := by
  unfold mergedInto hasBlankEmail
  cases named : saved.account with
  | unknown =>
    right
    dsimp only
    rw [withAccount_account]
    refine ⟨?_, same.symm⟩
    intro ⟨address, own, _⟩
    cases own
  | email address =>
    dsimp only
    by_cases blank : trim address = []
    · left
      refine ⟨⟨address, rfl, blank⟩, ?_⟩
      unfold tokenKey
      rw [targetKey_withAccount, targetKey_withAccount]
      simp only [accountOr, blank, ne_eq, not_true_eq_false, if_false]
    · right
      refine ⟨?_, ?_⟩
      · intro ⟨other, own, white⟩
        cases own
        exact blank white
      · obtain ⟨preset, target, _⟩ := targetKey_inj refuses same
        have account : saved.accountText = trim address := by
          simp only [accountText, accountOr, named, ne_eq, blank, not_false_eq_true, if_true]
        rw [targetKey_withAccount, targetKey_eq, preset, target, account]
        simp only [accountOr, ne_eq, blank, not_false_eq_true, if_true]

end OAuthFileProvider

end Nook.Sync
