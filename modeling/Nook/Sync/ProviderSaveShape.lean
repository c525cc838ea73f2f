import Nook.Sync.ProviderListShape
import Nook.Sync.SignInTarget

set_option autoImplicit false

namespace Nook.Sync

open Nook.Lib Nook.EventLog Nook.Recovery

variable [ICloudTargetText] [Casing] {row other own : StorageProvider}
  {rows providers : List StorageProvider} {request : ProviderSaveRequest} {scope : ActiveVaultScope}
  {fresh saved : OAuthFileProvider} {draft : ProviderDraft}

/-! ### Rows visible for a vault -/

namespace ProviderRows

omit [Casing] in
/-- Remote rows are visible for every vault. -/
theorem mem_active_of_remote (remote : row.isLocal = false) :
    row ∈ active providers scope ↔ row ∈ providers := by
  unfold active
  cases scope with
  | unselected => rfl
  | storeId id =>
    dsimp only
    split
    · rfl
    · simp [List.mem_filter, remote]

omit [Casing] in
theorem mem_sync : row ∈ sync providers scope ↔ row ∈ providers ∧ row.isLocal = false := by
  unfold sync
  rw [List.mem_filter, Bool.not_eq_true', and_congr_left_iff]
  exact mem_active_of_remote

omit [Casing] in
/-- The row found is one of this browser, and of the active vault if one is selected. -/
theorem localRow_spec (found : localRow providers scope = some own) : own ∈ providers ∧
    own.isLocal = true ∧ ∀ vault, scope.selected = some vault → own.localVault = some vault := by
  unfold localRow at found
  have isLocal : own.isLocal = true := List.find?_some found
  have visible := List.mem_of_find?_eq_some found
  unfold active at visible
  cases scope with
  | unselected => exact ⟨visible, isLocal, fun vault named => nomatch named⟩
  | storeId id =>
    dsimp only at visible
    by_cases blank : trim id = []
    · rw [if_pos blank] at visible
      refine ⟨visible, isLocal, ?_⟩
      intro vault named
      simp [ActiveVaultScope.selected, blank] at named
    · rw [if_neg blank] at visible
      obtain ⟨member, passes⟩ := List.mem_filter.mp visible
      simp only [isLocal, Bool.not_true, Bool.false_or, beq_iff_eq] at passes
      refine ⟨member, isLocal, ?_⟩
      intro vault named
      have selected : (ActiveVaultScope.storeId id).selected = some (trim id) := if_neg blank
      rw [selected] at named
      apply localVault_eq_some.mpr
      rw [passes, ← Option.some.inj named]
      exact ⟨isLocal, vault_storeId_selected selected⟩

end ProviderRows

theorem find_includeAll_eq_some {candidate : StorageProvider}
    (found : DuplicateProviderSelection.find rows candidate .includeAll = some row) :
    row ∈ rows ∧ row.targetKey = candidate.targetKey := by
  unfold DuplicateProviderSelection.find at found
  have passes := List.find?_some found
  simp only [Bool.true_and, beq_iff_eq] at passes
  exact ⟨List.mem_of_find?_eq_some found, passes⟩

theorem find_includeAll_eq_none {candidate : StorageProvider}
    (unique : DuplicateProviderSelection.find rows candidate .includeAll = none) :
    ∀ row ∈ rows, row.targetKey ≠ candidate.targetKey := by
  intro row member same
  unfold DuplicateProviderSelection.find at unique
  have fails := List.find?_eq_none.mp unique row member
  simp [same] at fails

/-! ### Refreshing the row a sign-in reaches -/

namespace ProviderSaveRequest

omit [Casing] in
/-- A row with a sign-in merged into it, which changes OAuth rows only. -/
def merged (fresh : OAuthFileProvider) (row : StorageProvider) : StorageProvider :=
  match row.provider with
  | .oauthFile saved => { row with provider := .oauthFile (fresh.mergedInto saved) }
  | _ => row

omit [Casing] in
theorem merged_of_oauth (oauth : row.provider = .oauthFile saved) :
    merged fresh row = { row with provider := .oauthFile (fresh.mergedInto saved) } := by
  unfold merged
  rw [oauth]

omit [Casing] in
theorem merged_of_other (differs : ∀ saved, row.provider ≠ .oauthFile saved) :
    merged fresh row = row := by
  unfold merged
  split
  · rename_i saved oauth
    exact absurd oauth (differs saved)
  · rfl

omit [Casing] in
theorem id_merged (fresh : OAuthFileProvider) (row : StorageProvider) :
    (merged fresh row).id = row.id := by
  unfold merged
  split
  · rfl
  · rfl

omit [Casing] in
theorem isLocal_merged (fresh : OAuthFileProvider) (row : StorageProvider) :
    (merged fresh row).isLocal = row.isLocal := by
  unfold merged
  split
  · rename_i saved oauth
    simp only [StorageProvider.isLocal, oauth, StoredProvider.isLocal]
  · rfl

omit [Casing] in
theorem merged_of_local (isLocal : row.isLocal = true) : merged fresh row = row := by
  apply merged_of_other
  intro saved oauth
  simp [StorageProvider.isLocal, oauth, StoredProvider.isLocal] at isLocal

omit [Casing] in
theorem refresh_rows (target : Str) (fresh : OAuthFileProvider) (rows : List StorageProvider)
    (draft : ProviderDraft) :
    (refresh target fresh rows draft).1 = updateRow (·.id) target (merged fresh) rows := by
  induction rows generalizing draft with
  | nil => rfl
  | cons row rest ih =>
    unfold refresh updateRow
    rw [List.map_cons]
    by_cases oauth : ∃ saved, row.provider = .oauthFile saved
    · obtain ⟨saved, oauth⟩ := oauth
      rw [oauth]
      by_cases named : row.id = target
      · simp only [named, if_true, merged_of_oauth oauth]
        exact congrArg _ (ih _)
      · simp only [named, if_false]
        exact congrArg _ (ih _)
    · have kept : merged fresh row = row :=
        merged_of_other fun saved own => oauth ⟨saved, own⟩
      rw [kept, ite_self]
      split
      · rename_i saved own
        exact absurd ⟨saved, own⟩ oauth
      · exact congrArg _ (ih _)

omit [Casing] in
/-- A refresh leaves the rows of this browser as they are. -/
theorem local_mem_updateRow_merged {target : Str} (isLocal : own.isLocal = true) :
    own ∈ updateRow (·.id) target (merged fresh) rows ↔ own ∈ rows := by
  unfold updateRow
  rw [List.mem_map]
  constructor
  · intro ⟨source, member, made⟩
    by_cases named : source.id = target
    · rw [if_pos named] at made
      have isLocal' : source.isLocal = true := by rw [← isLocal_merged fresh, made, isLocal]
      rw [merged_of_local isLocal'] at made
      exact made ▸ member
    · rw [if_neg named] at made
      exact made ▸ member
  · intro member
    refine ⟨own, member, ?_⟩
    rw [merged_of_local isLocal, ite_self]

/-- No sign-in reaches a row whose address is blank while another row has the target key that
the sign-in has without an account. -/
def RefreshFree (rows : List StorageProvider) (draft : ProviderDraft) : Prop :=
  ∀ fresh, draft.complete = .ok (.oauthFile fresh) → ∀ row ∈ rows, ∀ saved,
    row.provider = .oauthFile saved → saved.targetKey = fresh.targetKey → saved.hasBlankEmail →
      ∀ other ∈ rows, other.remoteKey = some fresh.tokenKey → other = row

theorem remoteKey_of_oauth (oauth : row.provider = .oauthFile saved) :
    row.remoteKey = some saved.targetKey := by
  apply remoteKey_eq_some.mpr
  unfold StorageProvider.isLocal StorageProvider.targetKey
  rw [oauth]
  exact ⟨rfl, rfl⟩

theorem refreshFree_congr (same : ∀ row, row.isLocal = false → (row ∈ rows ↔ row ∈ providers)) :
    RefreshFree rows draft ↔ RefreshFree providers draft := by
  have remote {row : StorageProvider} {key : ProviderTargetKey}
      (named : row.remoteKey = some key) : row.isLocal = false := (remoteKey_eq_some.mp named).1
  constructor
  · intro free fresh complete row member saved oauth key blank other listed token
    have inside := (same row (remote (remoteKey_of_oauth oauth))).mpr member
    have inside' := (same other (remote token)).mpr listed
    exact free fresh complete row inside saved oauth key blank other inside' token
  · intro free fresh complete row member saved oauth key blank other listed token
    have inside := (same row (remote (remoteKey_of_oauth oauth))).mp member
    have inside' := (same other (remote token)).mp listed
    exact free fresh complete row inside saved oauth key blank other inside' token

/-- Nothing is refreshed where no row has the sign-in's target. -/
theorem refreshFree_of_unique
    (unique : ∀ fresh, draft.complete = .ok (.oauthFile fresh) → ∀ row ∈ rows,
      row.isLocal = false → row.targetKey ≠ fresh.targetKey) : RefreshFree rows draft := by
  intro fresh complete row member saved oauth key
  obtain ⟨remote, own⟩ := remoteKey_eq_some.mp (remoteKey_of_oauth oauth)
  exact absurd (own.trans key) (unique fresh complete row member remote)

theorem separates_merged (refuses : ICloudTargetText.RefusesTrailing)
    (ids : (rows.map (·.id)).Nodup) (targets : Separates StorageProvider.remoteKey rows)
    (complete : draft.complete = .ok (.oauthFile fresh)) (member : row ∈ rows)
    (remote : row.isLocal = false) (reaches : row.targetKey = fresh.targetKey) :
    Separates StorageProvider.remoteKey (updateRow (·.id) row.id (merged fresh) rows) ↔
      RefreshFree rows draft := by
  rw [separates_updateRow ids member (id_merged fresh) targets]
  have own : row.remoteKey = some fresh.targetKey := remoteKey_eq_some.mpr ⟨remote, reaches⟩
  -- the reached row is the only one with the sign-in's target
  have alone {other : StorageProvider} {saved : OAuthFileProvider} (listed : other ∈ rows)
      (oauth : other.provider = .oauthFile saved) (key : saved.targetKey = fresh.targetKey) :
      other = row :=
    targets other listed row member fresh.targetKey (by rw [remoteKey_of_oauth oauth, key]) own
  have one {other : OAuthFileProvider} (named : draft.complete = .ok (.oauthFile other)) :
      other = fresh := by
    rw [complete] at named
    cases named
    rfl
  by_cases oauth : ∃ saved, row.provider = .oauthFile saved
  · obtain ⟨saved, oauth⟩ := oauth
    have key : saved.targetKey = fresh.targetKey := by
      rw [remoteKey_of_oauth oauth] at own
      exact Option.some.inj own
    have after : (merged fresh row).remoteKey = some (fresh.mergedInto saved).targetKey := by
      rw [merged_of_oauth oauth]
      exact remoteKey_of_oauth rfl
    rw [after]
    cases OAuthFileProvider.targetKey_mergedInto refuses key with
    | inl changed =>
      rw [changed.2]
      constructor
      · intro free fresh' complete' other listed saved' oauth' key' _ third listed' token
        obtain rfl := one complete'
        rw [alone listed oauth' key']
        exact free _ rfl third listed' token
      · intro free value named other listed token
        cases named
        exact free fresh complete row member saved oauth key changed.1 other listed token
    | inr kept =>
      rw [kept.2]
      constructor
      · intro _ fresh' complete' other listed saved' oauth' key' blank
        obtain rfl := one complete'
        obtain rfl := alone listed oauth' key'
        have saved_eq : saved' = saved := by
          rw [oauth] at oauth'
          cases oauth'
          rfl
        subst saved_eq
        exact absurd blank kept.1
      · intro _ value named other listed token
        exact targets other listed row member value token
          ((remoteKey_of_oauth oauth).trans named)
  · have kept : merged fresh row = row := merged_of_other fun saved found => oauth ⟨saved, found⟩
    rw [kept]
    constructor
    · intro _ fresh' complete' other listed saved oauth' key'
      obtain rfl := one complete'
      obtain rfl := alone listed oauth' key'
      exact absurd ⟨saved, oauth'⟩ oauth
    · intro _ value named other listed token
      exact targets other listed row member value token named

omit [Casing] in
theorem mergeOauthSignIn_of_other [Casing] (mergeTarget : Option Str)
    (differs : ∀ fresh, request.draft.complete ≠ .ok (.oauthFile fresh)) :
    (request.mergeOauthSignIn rows mergeTarget).1 = rows := by
  unfold mergeOauthSignIn
  split
  · rename_i fresh complete
    exact absurd complete (differs fresh)
  · rfl

/-- After a merge into saved rows the list is well formed exactly if the row reached may be
refreshed. -/
theorem wellFormed_mergeOauthSignIn (refuses : ICloudTargetText.RefusesTrailing)
    (ids : (rows.map (·.id)).Nodup) (targets : Separates StorageProvider.remoteKey rows) :
    WellFormed (request.mergeOauthSignIn rows none).1 ↔
      Separates StorageProvider.localVault rows ∧ RefreshFree rows request.draft := by
  have unchanged (free : RefreshFree rows request.draft) : WellFormed rows ↔
      Separates StorageProvider.localVault rows ∧ RefreshFree rows request.draft :=
    ⟨fun formed => ⟨formed.vaults, free⟩, fun kept => ⟨ids, kept.1, targets⟩⟩
  by_cases oauth : ∃ fresh, request.draft.complete = .ok (.oauthFile fresh)
  · obtain ⟨fresh, complete⟩ := oauth
    unfold mergeOauthSignIn reached
    rw [complete]
    dsimp only
    cases found : DuplicateProviderSelection.find
        (ProviderRows.sync rows request.snapshot.activeVaultStoreId)
        (request.candidate (.oauthFile fresh)) .includeAll with
    | none =>
      apply unchanged
      apply refreshFree_of_unique
      intro fresh' complete' row member remote same
      rw [complete] at complete'
      cases complete'
      exact find_includeAll_eq_none found row (ProviderRows.mem_sync.mpr ⟨member, remote⟩) same
    | some row =>
      obtain ⟨visible, same⟩ := find_includeAll_eq_some found
      obtain ⟨member, remote⟩ := ProviderRows.mem_sync.mp visible
      have reaches : row.targetKey = fresh.targetKey := same
      rw [Option.map_some]
      dsimp only
      rw [refresh_rows]
      have vaults : Separates StorageProvider.localVault
          (updateRow (·.id) row.id (merged fresh) rows) ↔
            Separates StorageProvider.localVault rows :=
        separates_congr fun own named => local_mem_updateRow_merged (isLocal_of_localVault named)
      have merge := separates_merged refuses ids targets complete member remote reaches
      constructor
      · exact fun formed => ⟨vaults.mp formed.vaults, merge.mp formed.targets⟩
      · intro kept
        refine ⟨?_, vaults.mpr kept.1, merge.mpr kept.2⟩
        rw [map_id_updateRow (id_merged fresh)]
        exact ids
  · have differs : ∀ fresh, request.draft.complete ≠ .ok (.oauthFile fresh) :=
      fun fresh complete => oauth ⟨fresh, complete⟩
    rw [mergeOauthSignIn_of_other none differs]
    apply unchanged
    apply refreshFree_of_unique
    intro fresh complete
    exact absurd complete (differs fresh)

/-- A merge leaves the rows of this browser as they are. -/
theorem local_mem_mergeOauthSignIn {mergeTarget : Option Str} (isLocal : own.isLocal = true) :
    own ∈ (request.mergeOauthSignIn rows mergeTarget).1 ↔ own ∈ rows := by
  unfold mergeOauthSignIn
  split
  · split
    · rw [refresh_rows]
      exact local_mem_updateRow_merged isLocal
    · rfl
  · rfl

/-! ### This browser's row in a save -/

/-- The vault a save is for: the one it names, or the active one. -/
def names (request : ProviderSaveRequest) : Option Str :=
  match request.providerStoreId.vault with
  | some vault => some vault
  | none => request.snapshot.activeVaultStoreId.selected

/-- The setup adds this browser's row. -/
def addsLocal (request : ProviderSaveRequest) : Bool :=
  match request.setup, request.draft.kind with
  | .new, .localStore => true
  | _, _ => false

/-- The row of this browser that a save scopes is of the vault it is for, or of none, and the
vault that the save names has no other row; nor has it one when the setup adds it. -/
def LocalRowFree (request : ProviderSaveRequest) : Prop :=
  match ProviderRows.localRow request.snapshot.providers request.snapshot.activeVaultStoreId with
  | some own =>
    (∀ vault, own.localVault = some vault → request.names = some vault) ∧
      ∀ vault, request.providerStoreId.vault = some vault →
        ∀ other ∈ request.snapshot.providers, other.localVault = some vault → other = own
  | none =>
    request.addsLocal = true → ∀ vault, request.providerStoreId.vault = some vault →
      ∀ other ∈ request.snapshot.providers, other.localVault ≠ some vault

omit [Casing] in
theorem seededLocalRows_of_some
    (found : ProviderRows.localRow request.snapshot.providers
      request.snapshot.activeVaultStoreId = some own) :
    request.seededLocalRows = updateRow (·.id) own.id
      (·.withStoreId request.providerStoreId) request.snapshot.providers := by
  unfold seededLocalRows
  simp only [found]

omit [Casing] in
/-- Without a row for the vault one is added, or seeded for the vault the save names. -/
theorem seededLocalRows_of_none
    (unseeded : ProviderRows.localRow request.snapshot.providers
      request.snapshot.activeVaultStoreId = none) :
    request.seededLocalRows =
      if request.addsLocal = true then
        request.snapshot.providers ++ [.neverSynced request.newProviderId request.providerStoreId
          request.createdAt .localStore]
      else
        match request.providerStoreId with
        | .storeId storeId => (request.snapshot.ensureLocalRow
            ⟨.storeId storeId, request.newProviderId, request.createdAt⟩).snapshot.providers
        | .unscoped => request.snapshot.providers := by
  unfold seededLocalRows addsLocal
  simp only [unseeded]
  cases request.setup with
  | existing => cases request.providerStoreId <;> rfl
  | new => cases request.draft.kind <;> cases request.providerStoreId <;> rfl

omit [Casing] in
/-- Seeding leaves the remote rows as they are. -/
theorem remote_mem_seededLocalRows (ids : (request.snapshot.providers.map (·.id)).Nodup)
    (remote : row.isLocal = false) : row ∈ request.seededLocalRows ↔ row ∈ request.snapshot.providers := by
  cases found : ProviderRows.localRow request.snapshot.providers
      request.snapshot.activeVaultStoreId with
  | some own =>
    obtain ⟨member, isLocal, _⟩ := ProviderRows.localRow_spec found
    rw [seededLocalRows_of_some found, mem_updateRow ids member]
    constructor
    · intro after
      cases after with
      | inl changed =>
        have isLocal' : row.isLocal = true := by
          rw [changed]
          exact isLocal
        rw [remote] at isLocal'
        cases isLocal'
      | inr kept => exact kept.1
    · intro listed
      refine Or.inr ⟨listed, ?_⟩
      rintro rfl
      rw [remote] at isLocal
      cases isLocal
  | none =>
    rw [seededLocalRows_of_none found]
    split
    · rw [List.mem_append, List.mem_singleton]
      apply or_iff_left
      rintro rfl
      cases remote
    · cases request.providerStoreId with
      | storeId storeId => exact AuthProvidersSnapshot.remote_mem_ensureLocalRow remote
      | unscoped => rfl

omit [Casing] in
theorem nodup_ids_append_row {storeId : ProviderVaultScope} {provider : StoredProvider}
    (ids : (request.snapshot.providers.map (·.id)).Nodup)
    (unused : request.newProviderId ∉ request.snapshot.providers.map (·.id)) :
    ((request.snapshot.providers ++ [StorageProvider.neverSynced request.newProviderId storeId
      request.createdAt provider]).map (·.id)).Nodup := by
  rw [List.map_append, List.nodup_append]
  refine ⟨ids, List.nodup_singleton _, ?_⟩
  intro id member other listed same
  rw [List.map_singleton, List.mem_singleton] at listed
  subst same listed
  exact unused member

theorem nodup_ids_seededLocalRows (formed : WellFormed request.snapshot.providers)
    (unused : request.newProviderId ∉ request.snapshot.providers.map (·.id)) :
    (request.seededLocalRows.map (·.id)).Nodup := by
  cases found : ProviderRows.localRow request.snapshot.providers
      request.snapshot.activeVaultStoreId with
  | some own =>
    have kept : ∀ row : StorageProvider, (row.withStoreId request.providerStoreId).id = row.id :=
      fun _ => rfl
    rw [seededLocalRows_of_some found, map_id_updateRow kept]
    exact formed.ids
  | none =>
    rw [seededLocalRows_of_none found]
    split
    · exact nodup_ids_append_row formed.ids unused
    · cases request.providerStoreId with
      | storeId storeId => exact (AuthProvidersSnapshot.wellFormed_ensureLocalRow formed unused).ids
      | unscoped => exact formed.ids

/-- Scoping the row found keeps one row for each vault, and the rows of other vaults, exactly if
the row may be scoped. -/
theorem scoped_iff (formed : WellFormed request.snapshot.providers)
    (found : ProviderRows.localRow request.snapshot.providers
      request.snapshot.activeVaultStoreId = some own) :
    (Separates StorageProvider.localVault request.seededLocalRows ∧
      KeepsOthers request.names request.snapshot.providers request.seededLocalRows) ↔
        (∀ vault, own.localVault = some vault → request.names = some vault) ∧
          ∀ vault, request.providerStoreId.vault = some vault →
            ∀ other ∈ request.snapshot.providers, other.localVault = some vault → other = own := by
  obtain ⟨member, isLocal, _⟩ := ProviderRows.localRow_spec found
  have place (other : StorageProvider) : other ∈ request.seededLocalRows ↔
      other = own.withStoreId request.providerStoreId ∨
        (other ∈ request.snapshot.providers ∧ other ≠ own) := by
    rw [seededLocalRows_of_some found]
    exact mem_updateRow formed.ids member
  have renamed : (own.withStoreId request.providerStoreId).localVault =
      request.providerStoreId.vault := if_pos isLocal
  have separates : Separates StorageProvider.localVault request.seededLocalRows ↔
      ∀ vault, request.providerStoreId.vault = some vault →
        ∀ other ∈ request.snapshot.providers, other.localVault = some vault → other = own := by
    have kept : ∀ row : StorageProvider, (row.withStoreId request.providerStoreId).id = row.id :=
      fun _ => rfl
    rw [seededLocalRows_of_some found, separates_updateRow formed.ids member kept formed.vaults,
      renamed]
  rw [separates, and_comm, and_congr_left_iff]
  intro alone
  constructor
  · intro keeps vault named
    by_contra differs
    have kept := keeps own member vault named differs
    cases (place own).mp kept with
    | inl same =>
      -- the row stayed as it was, so its vault is the one the save names
      have scope : own.storeId = request.providerStoreId := congrArg StorageProvider.storeId same
      have named' : request.providerStoreId.vault = some vault := by
        rw [← scope]
        exact (localVault_eq_some.mp named).2
      apply differs
      unfold names
      rw [named']
    | inr other => exact other.2 rfl
  · intro own_named other listed vault named differs
    apply (place other).mpr
    refine Or.inr ⟨listed, ?_⟩
    rintro rfl
    exact differs (own_named vault named)

theorem seededLocalRows_iff (formed : WellFormed request.snapshot.providers)
    (unused : request.newProviderId ∉ request.snapshot.providers.map (·.id)) :
    (Separates StorageProvider.localVault request.seededLocalRows ∧
      KeepsOthers request.names request.snapshot.providers request.seededLocalRows) ↔
        request.LocalRowFree := by
  unfold LocalRowFree
  cases found : ProviderRows.localRow request.snapshot.providers
      request.snapshot.activeVaultStoreId with
  | some own => exact scoped_iff formed found
  | none =>
    dsimp only
    rw [seededLocalRows_of_none found]
    by_cases adds : request.addsLocal = true
    · rw [if_pos adds, separates_append]
      simp only [adds, true_imp_iff]
      constructor
      · intro ⟨⟨_, _, across⟩, _⟩ vault named other listed own
        have one := across other listed _ (List.mem_singleton_self _) vault own named
        apply unused
        exact List.mem_map.mpr ⟨other, listed, congrArg _ one⟩
      · intro free
        refine ⟨⟨formed.vaults, ?_, ?_⟩, ?_⟩
        · intro row member other listed _ _ _
          rw [List.mem_singleton.mp member, List.mem_singleton.mp listed]
        · intro row member other listed vault named same
          rw [List.mem_singleton.mp listed] at same
          exact absurd named (free vault same row member)
        · exact fun row member _ _ _ => List.mem_append_left _ member
    · rw [if_neg adds]
      simp only [adds, Bool.false_eq_true, false_imp_iff, iff_true]
      cases request.providerStoreId with
      | storeId storeId =>
        exact ⟨(AuthProvidersSnapshot.wellFormed_ensureLocalRow formed unused).vaults,
          fun row member _ _ _ => AuthProvidersSnapshot.mem_ensureLocalRow member⟩
      | unscoped => exact ⟨formed.vaults, fun row member _ _ _ => member⟩

end ProviderSaveRequest

end Nook.Sync
