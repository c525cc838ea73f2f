import Nook.Sync.ProviderSaveShape

set_option autoImplicit false

namespace Nook.Sync

open Nook.Lib Nook.EventLog Nook.Recovery

section Kept

variable [ICloudTargetText] [Casing] {request : ProviderSaveRequest} {draft : ProviderDraft}
  {provider : StoredProvider}

/-! ### What a save does -/

omit [Casing] in
theorem localStore_of_complete (complete : draft.complete = .ok .localStore) :
    draft.kind = .localStore := by
  cases draft with
  | localStore => rfl
  | localFolder folder => cases folder <;> cases complete
  | github saved =>
    obtain ⟨repository, token⟩ := saved
    cases token <;> cases complete
  | oauthFile oauth =>
    cases own : oauth.complete with
    | error gap => simp [ProviderDraft.complete, own, Except.map] at complete
    | ok provider => simp [ProviderDraft.complete, own, Except.map] at complete
  | s3 connection => cases connection <;> cases complete

namespace ProviderSaveRequest

/-- The setup adds a remote provider. -/
def addsRemote (request : ProviderSaveRequest) : Bool :=
  match request.setup, request.draft.kind with
  | .new, .localStore => false
  | .existing, _ => false
  | .new, _ => true

/-- When a save leaves the rows well formed and the other vaults alone. -/
def Free (request : ProviderSaveRequest) : Prop :=
  if request.addsRemote = true then
    request.duplicates = .keepExisting → RefreshFree request.snapshot.providers request.draft
  else
    request.LocalRowFree ∧ RefreshFree request.snapshot.providers request.draft

/-- The rows that a step added, after the sign-in is merged. -/
def saved (request : ProviderSaveRequest) (rows : List StorageProvider)
    (mergeTarget : Option Str) : ProviderSaveOutcome :=
  .saved ⟨(request.mergeOauthSignIn rows mergeTarget).1, request.snapshot.activeVaultStoreId⟩
    (request.mergeOauthSignIn rows mergeTarget).2

theorem apply_of_seeded (seeds : request.addsRemote = false) :
    request.apply = request.saved request.seededLocalRows none := by
  unfold addsRemote at seeds
  unfold apply
  cases setup : request.setup with
  | existing => rfl
  | new =>
    cases kind : request.draft.kind with
    | localStore => rfl
    | _ => simp [setup, kind] at seeds

theorem apply_of_new (adds : request.addsRemote = true) :
    request.apply =
      match request.addNewProvider with
      | .added rows mergeTarget => request.saved rows mergeTarget
      | .stopped outcome => outcome := by
  unfold addsRemote at adds
  unfold apply
  cases setup : request.setup with
  | existing => simp [setup] at adds
  | new =>
    cases kind : request.draft.kind with
    | localStore => simp [setup, kind] at adds
    | _ => rfl

omit [Casing] in
theorem not_isLocal_of_addsRemote (adds : request.addsRemote = true)
    (complete : request.draft.complete = .ok provider) : provider.isLocal = false := by
  cases provider with
  | localStore =>
    have kind := localStore_of_complete complete
    unfold addsRemote at adds
    rw [kind] at adds
    cases setup : request.setup <;> simp [setup] at adds
  | _ => rfl

/-- The property a save has to have. -/
def Kept (request : ProviderSaveRequest) : Prop :=
  ∀ after draft, request.apply = .saved after draft →
    WellFormed after.providers ∧ KeepsOthers request.names request.snapshot.providers after.providers

theorem kept_of_saved {rows : List StorageProvider} {mergeTarget : Option Str}
    (done : request.apply = request.saved rows mergeTarget) :
    request.Kept ↔ WellFormed (request.mergeOauthSignIn rows mergeTarget).1 ∧
      KeepsOthers request.names request.snapshot.providers rows := by
  have others : KeepsOthers request.names request.snapshot.providers
      (request.mergeOauthSignIn rows mergeTarget).1 ↔
        KeepsOthers request.names request.snapshot.providers rows := by
    constructor
    · intro keeps row member vault named differs
      have own := (localVault_eq_some.mp named).1
      exact (local_mem_mergeOauthSignIn own).mp (keeps row member vault named differs)
    · intro keeps row member vault named differs
      have own := (localVault_eq_some.mp named).1
      exact (local_mem_mergeOauthSignIn own).mpr (keeps row member vault named differs)
  rw [← others]
  unfold Kept
  rw [done]
  constructor
  · intro kept
    exact kept _ _ rfl
  · intro kept after draft same
    cases same
    exact kept

theorem kept_of_not_saved (refused : ∀ after draft, request.apply ≠ .saved after draft) :
    request.Kept :=
  fun after draft same => absurd same (refused after draft)

/-- A new remote row beside rows that do not have its target. -/
theorem wellFormed_append_candidate (formed : WellFormed request.snapshot.providers)
    (unused : request.newProviderId ∉ request.snapshot.providers.map (·.id))
    (remote : provider.isLocal = false)
    (unique : ∀ row ∈ request.snapshot.providers, row.isLocal = false →
      row.targetKey ≠ provider.targetKey) :
    WellFormed (request.snapshot.providers ++ [request.candidate provider]) := by
  have own : (request.candidate provider).isLocal = false := remote
  refine ⟨nodup_ids_append_row formed.ids unused, ?_, ?_⟩
  · apply formed.vaults.mono
    intro row member named
    have isLocal := isLocal_of_localVault named
    cases List.mem_append.mp member with
    | inl before => exact before
    | inr added =>
      rw [List.mem_singleton.mp added, own] at isLocal
      cases isLocal
  · refine separates_append.mpr ⟨formed.targets, ?_, ?_⟩
    · intro row member other listed _ _ _
      rw [List.mem_singleton.mp member, List.mem_singleton.mp listed]
    · intro row member other listed key named same
      rw [List.mem_singleton.mp listed] at same
      have first := remoteKey_eq_some.mp named
      have second := remoteKey_eq_some.mp same
      exact absurd (first.2.trans second.2.symm) (unique row member first.1)

/-- A sign-in refreshes its own new row to what it is. -/
theorem mergeOauthSignIn_candidate (complete : request.draft.complete = .ok provider)
    (unused : request.newProviderId ∉ request.snapshot.providers.map (·.id)) :
    (request.mergeOauthSignIn (request.snapshot.providers ++ [request.candidate provider])
      (match provider with
        | .oauthFile _ => some (request.candidate provider).id
        | _ => none)).1 = request.snapshot.providers ++ [request.candidate provider] := by
  cases provider with
  | oauthFile fresh =>
    unfold mergeOauthSignIn reached
    rw [complete]
    dsimp only
    rw [refresh_rows]
    apply updateRow_eq_self
    intro row member named
    cases List.mem_append.mp member with
    | inl before => exact absurd (List.mem_map.mpr ⟨row, before, named⟩) unused
    | inr added =>
      have own : row = request.candidate (.oauthFile fresh) := List.mem_singleton.mp added
      have oauth : row.provider = .oauthFile fresh := by
        rw [own]
        rfl
      rw [merged_of_oauth oauth, OAuthFileProvider.mergedInto_self, own]
      rfl
  | _ =>
    apply mergeOauthSignIn_of_other
    intro fresh other
    rw [complete] at other
    cases other

theorem kept_of_addsRemote (refuses : ICloudTargetText.RefusesTrailing)
    (formed : WellFormed request.snapshot.providers)
    (unused : request.newProviderId ∉ request.snapshot.providers.map (·.id))
    (adds : request.addsRemote = true) :
    request.Kept ↔ (request.duplicates = .keepExisting →
      RefreshFree request.snapshot.providers request.draft) := by
  have here : KeepsOthers request.names request.snapshot.providers request.snapshot.providers :=
    fun row member _ _ _ => member
  have done := apply_of_new adds
  unfold addNewProvider at done
  cases complete : request.draft.complete with
  | error gap =>
    simp only [complete] at done
    have refused : ∀ after draft, request.apply ≠ .saved after draft := by
      intro after draft same
      rw [done] at same
      cases same
    have free : RefreshFree request.snapshot.providers request.draft := by
      apply refreshFree_of_unique
      intro fresh other
      rw [complete] at other
      cases other
    exact ⟨fun _ _ => free, fun _ => kept_of_not_saved refused⟩
  | ok provider =>
    have remote := not_isLocal_of_addsRemote adds complete
    simp only [complete] at done
    cases found : DuplicateProviderSelection.find
        (ProviderRows.active request.snapshot.providers request.snapshot.activeVaultStoreId)
        (request.candidate provider) .includeAll with
    | some row =>
      cases handling : request.duplicates with
      | reject =>
        simp only [found, handling] at done
        have refused : ∀ after draft, request.apply ≠ .saved after draft := by
          intro after draft same
          rw [done] at same
          cases same
        simp only [reduceCtorEq, false_imp_iff, iff_true]
        exact kept_of_not_saved refused
      | keepExisting =>
        simp only [found, handling] at done
        rw [kept_of_saved done, wellFormed_mergeOauthSignIn refuses formed.ids formed.targets]
        simp only [formed.vaults, here, true_and, and_true, true_imp_iff]
    | none =>
      simp only [found] at done
      have unique : ∀ row ∈ request.snapshot.providers, row.isLocal = false →
          row.targetKey ≠ provider.targetKey := by
        intro row member other
        exact find_includeAll_eq_none found row
          ((ProviderRows.mem_active_of_remote other).mpr member)
      have free : RefreshFree request.snapshot.providers request.draft := by
        apply refreshFree_of_unique
        intro fresh other
        rw [complete] at other
        cases other
        exact unique
      rw [kept_of_saved done]
      refine ⟨fun _ _ => free, fun _ => ⟨?_, ?_⟩⟩
      · have merged := mergeOauthSignIn_candidate complete unused
        have formed' := wellFormed_append_candidate formed unused remote unique
        exact Eq.mpr (congrArg WellFormed merged) formed'
      · exact fun row member _ _ _ => List.mem_append_left _ member

/-- A save leaves the rows well formed and the other vaults alone exactly if it is free to. -/
theorem kept_iff (refuses : ICloudTargetText.RefusesTrailing)
    (formed : WellFormed request.snapshot.providers)
    (unused : request.newProviderId ∉ request.snapshot.providers.map (·.id)) :
    request.Kept ↔ request.Free := by
  unfold Free
  cases adds : request.addsRemote with
  | true =>
    rw [if_pos rfl]
    exact kept_of_addsRemote refuses formed unused adds
  | false =>
    have ids := nodup_ids_seededLocalRows formed unused
    have remote {row : StorageProvider} (own : row.isLocal = false) :
        row ∈ request.seededLocalRows ↔ row ∈ request.snapshot.providers :=
      remote_mem_seededLocalRows formed.ids own
    have targets : Separates StorageProvider.remoteKey request.seededLocalRows :=
      formed.targets.mono fun row member named =>
        (remote (not_isLocal_of_remoteKey named)).mp member
    rw [if_neg Bool.false_ne_true, kept_of_saved (apply_of_seeded adds),
      wellFormed_mergeOauthSignIn refuses ids targets, refreshFree_congr fun row own => remote own,
      ← seededLocalRows_iff formed unused]
    constructor
    · exact fun ⟨⟨vaults, free⟩, keeps⟩ => ⟨⟨vaults, keeps⟩, free⟩
    · exact fun ⟨⟨vaults, keeps⟩, free⟩ => ⟨⟨vaults, free⟩, keeps⟩

end ProviderSaveRequest

/-! ### Operations on the saved list -/

/-- One operation on the saved provider list. A save is of the list as it stands. -/
inductive ProviderOperation [ICloudTargetText] where
  | ensureLocalRow (request : LocalProviderRowRequest)
  | save (request : ProviderSaveRequest)
  | replaceActiveVaultGrants (incoming : AuthProvidersSnapshot)
  | replaceKeyringProviders (incoming : List StorageProvider)

namespace ProviderOperation

variable {snapshot incoming : AuthProvidersSnapshot}

/-- The snapshot to persist, of a save if it is saved. -/
def run (snapshot : AuthProvidersSnapshot) : ProviderOperation → Option AuthProvidersSnapshot
  | ensureLocalRow request => some (snapshot.ensureLocalRow request).snapshot
  | save request =>
    match ({ request with snapshot } : ProviderSaveRequest).apply with
    | .saved after _ => some after
    | _ => none
  | replaceActiveVaultGrants incoming => some (snapshot.replaceActiveVaultGrants incoming)
  | replaceKeyringProviders incoming => some (snapshot.replaceKeyringProviders incoming)

/-- The vault an operation is for. -/
def names (snapshot : AuthProvidersSnapshot) : ProviderOperation → Option Str
  | ensureLocalRow request => (snapshot.rowScope request.activeStoreId).vault
  | save request => ({ request with snapshot } : ProviderSaveRequest).names
  | replaceActiveVaultGrants incoming => incoming.activeVaultStoreId.selected
  | replaceKeyringProviders _ => none

/-- A new row's id is fresh, and incoming rows are a well-formed list. -/
def Admissible (snapshot : AuthProvidersSnapshot) : ProviderOperation → Prop
  | ensureLocalRow request => request.newId ∉ snapshot.providers.map (·.id)
  | save request => request.newProviderId ∉ snapshot.providers.map (·.id)
  | replaceActiveVaultGrants incoming => WellFormed incoming.providers
  | replaceKeyringProviders incoming => WellFormed incoming

/-- When an operation leaves the rows well formed and the other vaults alone. Grants without a
vault replace the whole list. -/
def Free (snapshot : AuthProvidersSnapshot) : ProviderOperation → Prop
  | ensureLocalRow _ => True
  | save request => ({ request with snapshot } : ProviderSaveRequest).Free
  | replaceActiveVaultGrants incoming =>
    match incoming.activeVaultStoreId.selected with
    | some active => snapshot.GrantsFree incoming active
    | none => KeepsOthers none snapshot.providers incoming.providers
  | replaceKeyringProviders incoming => snapshot.KeyringFree incoming

/-- The rows after an operation are well formed, and other vaults keep theirs. -/
def Kept (snapshot : AuthProvidersSnapshot) (operation : ProviderOperation) : Prop :=
  ∀ after, operation.run snapshot = some after → WellFormed after.providers ∧
    KeepsOthers (operation.names snapshot) snapshot.providers after.providers

theorem kept_of_run {operation : ProviderOperation} {after : AuthProvidersSnapshot}
    (done : operation.run snapshot = some after) : operation.Kept snapshot ↔
      WellFormed after.providers ∧
        KeepsOthers (operation.names snapshot) snapshot.providers after.providers := by
  unfold Kept
  rw [done]
  constructor
  · exact fun kept => kept after rfl
  · intro kept other same
    cases same
    exact kept

theorem kept_save (request : ProviderSaveRequest) : (save request).Kept snapshot ↔
    ({ request with snapshot } : ProviderSaveRequest).Kept := by
  unfold Kept ProviderSaveRequest.Kept run
  dsimp only
  constructor
  · intro kept after draft same
    apply kept after
    rw [same]
  · intro kept after same
    split at same
    · rename_i saved draft done
      cases same
      exact kept after draft done
    · cases same

/-- Over a well-formed list, with a fresh id and well-formed incoming rows, an operation leaves
the list well formed and the rows of other vaults alone exactly if it is free to. -/
theorem provider_list_kept_iff (refuses : ICloudTargetText.RefusesTrailing)
    (snapshot : AuthProvidersSnapshot) (operation : ProviderOperation)
    (formed : WellFormed snapshot.providers) (admissible : operation.Admissible snapshot) :
    (∀ after, operation.run snapshot = some after → WellFormed after.providers ∧
      KeepsOthers (operation.names snapshot) snapshot.providers after.providers) ↔
        operation.Free snapshot := by
  change operation.Kept snapshot ↔ operation.Free snapshot
  cases operation with
  | ensureLocalRow request =>
    rw [kept_of_run rfl]
    have after := AuthProvidersSnapshot.wellFormed_ensureLocalRow formed admissible
    exact ⟨fun _ => trivial, fun _ => ⟨after, fun row member _ _ _ =>
      AuthProvidersSnapshot.mem_ensureLocalRow member⟩⟩
  | save request =>
    rw [kept_save]
    have own : WellFormed ({ request with snapshot } : ProviderSaveRequest).snapshot.providers :=
      formed
    exact ProviderSaveRequest.kept_iff refuses own admissible
  | replaceActiveVaultGrants incoming =>
    rw [kept_of_run rfl]
    unfold names Free
    dsimp only
    cases selected : incoming.activeVaultStoreId.selected with
    | some active =>
      rw [AuthProvidersSnapshot.wellFormed_replaceActiveVaultGrants selected formed admissible,
        and_iff_left (AuthProvidersSnapshot.keepsOthers_replaceActiveVaultGrants selected)]
    | none =>
      have whole : snapshot.replaceActiveVaultGrants incoming = incoming := by
        unfold AuthProvidersSnapshot.replaceActiveVaultGrants
        rw [selected]
      have sound : WellFormed incoming.providers := admissible
      rw [whole, and_iff_right sound]
  | replaceKeyringProviders incoming =>
    rw [kept_of_run rfl,
      AuthProvidersSnapshot.wellFormed_replaceKeyringProviders formed admissible]
    exact and_iff_left (AuthProvidersSnapshot.keepsOthers_replaceKeyringProviders none)

end ProviderOperation

end Kept

namespace TestSupport

/-- No text is a share target. -/
@[reducible] def noTargets : ICloudTargetText where
  fromStr _ := none

@[reducible] def lowered : Casing where
  toLowercase := List.map Char.toLower

attribute [local instance] noTargets lowered

theorem noTargets_refuses : ICloudTargetText.RefusesTrailing := by
  intro text rest read
  cases read

def storeA : Str := "store_aaaaaaaaaaa".toList

def storeB : Str := "store_bbbbbbbbbbb".toList

/-- This browser's row of the first vault. -/
def rowA : StorageProvider :=
  .neverSynced "local-a".toList (.storeId storeA) "2026-06-24T00:00:00.000Z".toList .localStore

def nookRepository : StorageProvider :=
  .neverSynced "github".toList .unscoped "2026-06-24T00:00:00.000Z".toList
    (.github ⟨.defaultRepository, ⟨"pat".toList, by decide +kernel⟩⟩)

/-- A browser with the first vault, which is not open. -/
def firstVault : AuthProvidersSnapshot := ⟨[rowA], .unselected⟩

/-- The grants of a pairing with the second vault. -/
def secondVault : AuthProvidersSnapshot := ⟨[nookRepository], .storeId storeB⟩

theorem wellFormed_singleton (row : StorageProvider) : WellFormed [row] where
  ids := List.nodup_singleton _
  vaults first member second listed _ _ _ := by
    rw [List.mem_singleton.mp member, List.mem_singleton.mp listed]
  targets first member second listed _ _ _ := by
    rw [List.mem_singleton.mp member, List.mem_singleton.mp listed]

theorem vault_rowA : rowA.localVault = some storeA := by
  apply localVault_eq_some.mpr
  exact ⟨rfl, by decide +kernel⟩

/-- The second vault is paired beside the first one. -/
theorem provider_list_kept_iff_paired :
    WellFormed (firstVault.replaceActiveVaultGrants secondVault).providers ∧
      KeepsOthers (some storeB) firstVault.providers
        (firstVault.replaceActiveVaultGrants secondVault).providers := by
  have selected : secondVault.activeVaultStoreId.selected = some storeB := by decide +kernel
  have free : (ProviderOperation.replaceActiveVaultGrants secondVault).Free firstVault := by
    unfold ProviderOperation.Free
    dsimp only
    rw [selected]
    refine ⟨?_, ?_, ?_⟩
    · intro row member vault _ _
      rw [List.mem_singleton.mp member]
      decide +kernel
    · intro row member other _ isLocal
      rw [List.mem_singleton.mp member] at isLocal
      cases isLocal
    · intro row member other _ remote
      rw [List.mem_singleton.mp member] at remote
      cases remote
  have kept := (ProviderOperation.provider_list_kept_iff noTargets_refuses firstVault
    (.replaceActiveVaultGrants secondVault) (wellFormed_singleton rowA)
    (wellFormed_singleton nookRepository)).mpr free _ rfl
  have named : (ProviderOperation.replaceActiveVaultGrants secondVault).names firstVault =
      some storeB := selected
  rw [named] at kept
  exact kept

/-- The second vault's provider is saved while no vault is open. -/
def secondSave : ProviderSaveRequest where
  snapshot := firstVault
  providerStoreId := .storeId storeB
  setup := .existing
  duplicates := .keepExisting
  draft := .localStore
  newProviderId := "new-row".toList
  createdAt := "2026-06-24T00:00:00.000Z".toList

/-- The save takes over the row of the other vault. -/
theorem other_vaults_row_taken :
    ¬ ∀ (snapshot : AuthProvidersSnapshot) (operation : ProviderOperation),
      WellFormed snapshot.providers → operation.Admissible snapshot →
        ∀ after, operation.run snapshot = some after → WellFormed after.providers ∧
          KeepsOthers (operation.names snapshot) snapshot.providers after.providers := by
  intro kept
  have unused : secondSave.newProviderId ∉ firstVault.providers.map (·.id) := by decide +kernel
  have others := (kept firstVault (.save secondSave) (wellFormed_singleton rowA) unused _ rfl).2
  have other : (ProviderOperation.save secondSave).names firstVault ≠ some storeA := by
    decide +kernel
  have stays := others rowA List.mem_cons_self storeA vault_rowA other
  have scope := congrArg StorageProvider.storeId (List.mem_singleton.mp stays)
  exact absurd scope (by decide +kernel)

end TestSupport

end Nook.Sync
