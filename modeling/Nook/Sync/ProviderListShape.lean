import Nook.Sync.ProviderRows

set_option autoImplicit false

namespace Nook.Sync

open Nook.Lib Nook.EventLog Nook.Recovery

variable [ICloudTargetText] [Casing]

/-! ### Well-formed provider lists -/

/-- The vault a scope names. -/
def ProviderVaultScope.vault : ProviderVaultScope → Option Str
  | unscoped => none
  | storeId id => if trim id = [] then none else some (trim id)

namespace StorageProvider

/-- The vault whose browser row this is. -/
def localVault (row : StorageProvider) : Option Str :=
  if row.isLocal = true then row.storeId.vault else none

/-- The target of a remote row. -/
def remoteKey (row : StorageProvider) : Option ProviderTargetKey :=
  if row.isLocal = true then none else some row.targetKey

end StorageProvider

/-- Rows with ids of their own, at most one of this browser for each vault, and no two remote
rows of one target. -/
structure WellFormed (rows : List StorageProvider) : Prop where
  ids : (rows.map (·.id)).Nodup
  vaults : Separates StorageProvider.localVault rows
  targets : Separates StorageProvider.remoteKey rows

/-- This browser's rows of other vaults than the named one are still there. -/
def KeepsOthers (names : Option Str) (before after : List StorageProvider) : Prop :=
  ∀ row ∈ before, ∀ vault, row.localVault = some vault → names ≠ some vault → row ∈ after

variable {row other : StorageProvider} {rows : List StorageProvider} {vault : Str}
  {snapshot incoming : AuthProvidersSnapshot}

omit [Casing] in
theorem localVault_eq_some : row.localVault = some vault ↔
    row.isLocal = true ∧ row.storeId.vault = some vault := by
  unfold StorageProvider.localVault
  split
  · rename_i own
    simp only [own, true_and]
  · rename_i remote
    simp only [remote, false_and, reduceCtorEq]

theorem remoteKey_eq_some {key : ProviderTargetKey} : row.remoteKey = some key ↔
    row.isLocal = false ∧ row.targetKey = key := by
  unfold StorageProvider.remoteKey
  cases own : row.isLocal with
  | true => simp
  | false => simp

omit [Casing] in
theorem isLocal_of_localVault (named : (row.localVault).isSome = true) : row.isLocal = true := by
  obtain ⟨vault, own⟩ := Option.isSome_iff_exists.mp named
  exact (localVault_eq_some.mp own).1

theorem not_isLocal_of_remoteKey (named : (row.remoteKey).isSome = true) :
    row.isLocal = false := by
  obtain ⟨key, own⟩ := Option.isSome_iff_exists.mp named
  exact (remoteKey_eq_some.mp own).1

omit [ICloudTargetText] [Casing] in
theorem vault_eq_some {scope : ProviderVaultScope} : scope.vault = some vault ↔
    ∃ id, scope = .storeId id ∧ trim id = vault ∧ vault ≠ [] := by
  unfold ProviderVaultScope.vault
  cases scope with
  | unscoped => simp
  | storeId id =>
    by_cases blank : trim id = []
    · simp only [if_pos blank, reduceCtorEq, ProviderVaultScope.storeId.injEq, false_iff]
      intro ⟨other, same, named, filled⟩
      subst same
      exact filled (named ▸ blank)
    · simp only [if_neg blank, Option.some.injEq, ProviderVaultScope.storeId.injEq,
        exists_eq_left']
      constructor
      · intro named
        exact ⟨named, fun empty => blank (named.trans empty)⟩
      · exact And.left

omit [ICloudTargetText] [Casing] in
theorem selected_eq_some {scope : ActiveVaultScope} : scope.selected = some vault ↔
    ∃ id, scope = .storeId id ∧ trim id = vault ∧ vault ≠ [] := by
  unfold ActiveVaultScope.selected
  cases scope with
  | unselected => simp
  | storeId id =>
    by_cases blank : trim id = []
    · simp only [if_pos blank, reduceCtorEq, ActiveVaultScope.storeId.injEq, false_iff]
      intro ⟨other, same, named, filled⟩
      subst same
      exact filled (named ▸ blank)
    · simp only [if_neg blank, Option.some.injEq, ActiveVaultScope.storeId.injEq,
        exists_eq_left']
      constructor
      · intro named
        exact ⟨named, fun empty => blank (named.trans empty)⟩
      · exact And.left

omit [ICloudTargetText] [Casing] in
theorem vault_storeId_selected {scope : ActiveVaultScope} (selected : scope.selected = some vault) :
    (ProviderVaultScope.storeId vault).vault = some vault := by
  obtain ⟨id, _, same, filled⟩ := selected_eq_some.mp selected
  exact vault_eq_some.mpr ⟨vault, rfl, by rw [← same, trim_trim], filled⟩

/-! ### Seeding this browser's row -/

namespace AuthProvidersSnapshot

omit [Casing] in
/-- A new row is unscoped, or its scope is the id of a vault. -/
theorem rowScope_of_vault {requested : ActiveVaultScope}
    (named : (snapshot.rowScope requested).vault = some vault) :
    snapshot.rowScope requested = .storeId vault := by
  unfold rowScope at named ⊢
  cases first : requested.selected with
  | some id =>
    simp only [first] at named ⊢
    rw [vault_storeId_selected first] at named
    exact congrArg _ (Option.some.inj named)
  | none =>
    simp only [first] at named ⊢
    cases second : snapshot.activeVaultStoreId.selected with
    | some id =>
      simp only [second] at named ⊢
      rw [vault_storeId_selected second] at named
      exact congrArg _ (Option.some.inj named)
    | none =>
      simp only [second] at named
      cases named

omit [Casing] in
theorem standsFor_of_vault (own : row.localVault = some vault) :
    standsFor (.storeId vault) row = true := by
  obtain ⟨isLocal, named⟩ := localVault_eq_some.mp own
  obtain ⟨id, scope, same, _⟩ := vault_eq_some.mp named
  simp only [standsFor, isLocal, scope, same, beq_self_eq_true, Bool.or_true, Bool.and_self]

omit [Casing] in
theorem mem_ensureLocalRow {request : LocalProviderRowRequest} (member : row ∈ snapshot.providers) :
    row ∈ (snapshot.ensureLocalRow request).snapshot.providers := by
  unfold ensureLocalRow
  dsimp only
  split
  · exact member
  · exact List.mem_cons_of_mem _ member

omit [Casing] in
theorem remote_mem_ensureLocalRow {request : LocalProviderRowRequest}
    (remote : row.isLocal = false) :
    row ∈ (snapshot.ensureLocalRow request).snapshot.providers ↔ row ∈ snapshot.providers := by
  unfold ensureLocalRow
  dsimp only
  split
  · rfl
  · rw [List.mem_cons]
    apply or_iff_right
    rintro rfl
    cases remote

theorem wellFormed_ensureLocalRow (formed : WellFormed snapshot.providers)
    {request : LocalProviderRowRequest} (fresh : request.newId ∉ snapshot.providers.map (·.id)) :
    WellFormed (snapshot.ensureLocalRow request).snapshot.providers := by
  have absent (row : StorageProvider) (named : row.id = request.newId) :
      row ∉ snapshot.providers := by
    intro member
    exact fresh (List.mem_map.mpr ⟨row, member, named⟩)
  unfold ensureLocalRow
  dsimp only
  split
  · exact formed
  · rename_i unseeded
    refine ⟨?_, ?_, ?_⟩
    · rw [List.map_cons]
      exact List.nodup_cons.mpr ⟨fresh, formed.ids⟩
    · apply (separates_cons (absent _ rfl)).mpr
      refine ⟨formed.vaults, ?_⟩
      intro other member vault named own
      have scope := rowScope_of_vault (localVault_eq_some.mp named).2
      have stands : standsFor (snapshot.rowScope request.activeStoreId) other = true := by
        rw [scope]
        exact standsFor_of_vault own
      exact unseeded (List.any_eq_true.mpr ⟨other, member, stands⟩)
    · apply (separates_cons (absent _ rfl)).mpr
      refine ⟨formed.targets, ?_⟩
      intro other _ key named
      cases (remoteKey_eq_some.mp named).1

/-! ### Handed-over keyring providers -/

/-- No handed-over remote row has the id of a row of this browser. -/
def KeyringFree (snapshot : AuthProvidersSnapshot) (incoming : List StorageProvider) : Prop :=
  ∀ row ∈ snapshot.providers, row.isLocal = true → ∀ other ∈ incoming, other.isLocal = false →
    row.id ≠ other.id

theorem wellFormed_replaceKeyringProviders {incoming : List StorageProvider}
    (formed : WellFormed snapshot.providers) (sound : WellFormed incoming) :
    WellFormed (snapshot.replaceKeyringProviders incoming).providers ↔
      snapshot.KeyringFree incoming := by
  have vaults : Separates StorageProvider.localVault
      (snapshot.replaceKeyringProviders incoming).providers := by
    apply formed.vaults.mono
    intro row member named
    have own := isLocal_of_localVault named
    cases List.mem_append.mp member with
    | inl kept => exact (List.mem_filter.mp kept).1
    | inr taken => simp [own] at taken
  have targets : Separates StorageProvider.remoteKey
      (snapshot.replaceKeyringProviders incoming).providers := by
    apply sound.targets.mono
    intro row member named
    have remote := not_isLocal_of_remoteKey named
    cases List.mem_append.mp member with
    | inl kept => simp [remote] at kept
    | inr taken => exact (List.mem_filter.mp taken).1
  have ids : ((snapshot.replaceKeyringProviders incoming).providers.map (·.id)).Nodup ↔
      snapshot.KeyringFree incoming := by
    have first : ((snapshot.providers.filter (·.isLocal)).map (·.id)).Nodup :=
      formed.ids.sublist (List.filter_sublist.map _)
    have second : ((incoming.filter (!·.isLocal)).map (·.id)).Nodup :=
      sound.ids.sublist (List.filter_sublist.map _)
    unfold replaceKeyringProviders KeyringFree
    rw [List.map_append, List.nodup_append]
    simp only [first, second, true_and, List.mem_map, List.mem_filter, Bool.not_eq_true']
    constructor
    · intro apart row member own other listed remote
      exact apart row.id ⟨row, ⟨member, own⟩, rfl⟩ other.id ⟨other, ⟨listed, remote⟩, rfl⟩
    · rintro free _ ⟨row, ⟨member, own⟩, rfl⟩ _ ⟨other, ⟨listed, remote⟩, rfl⟩
      exact free row member own other listed remote
  constructor
  · exact fun after => ids.mp after.ids
  · exact fun free => ⟨ids.mpr free, vaults, targets⟩

omit [Casing] in
theorem keepsOthers_replaceKeyringProviders {incoming : List StorageProvider}
    (names : Option Str) :
    KeepsOthers names snapshot.providers (snapshot.replaceKeyringProviders incoming).providers := by
  intro row member vault named _
  have own := (localVault_eq_some.mp named).1
  exact List.mem_append_left _ (List.mem_filter.mpr ⟨member, own⟩)

/-! ### Replaced grants -/

/-- The incoming rows go beside the rows of other vaults: they have one row of this browser at
most, no id of another vault's row, and no target of a remote row with another id. -/
structure GrantsFree (existing incoming : AuthProvidersSnapshot) (active : Str) : Prop where
  ids : ∀ row ∈ existing.providers, ∀ vault, row.localVault = some vault → vault ≠ active →
    row.id ∉ incoming.providers.map (·.id)
  oneLocal : ∀ row ∈ incoming.providers, ∀ other ∈ incoming.providers, row.isLocal = true →
    other.isLocal = true → row = other
  targets : ∀ row ∈ existing.providers, ∀ other ∈ incoming.providers, row.isLocal = false →
    other.isLocal = false → row.targetKey = other.targetKey →
      row.id ∈ incoming.providers.map (·.id)

omit [Casing] in
theorem id_bound (active : Str) (row : StorageProvider) : (bound active row).id = row.id := by
  unfold bound
  split
  · rfl
  · rfl

omit [Casing] in
theorem isLocal_bound (active : Str) (row : StorageProvider) :
    (bound active row).isLocal = row.isLocal := by
  unfold bound
  split
  · rfl
  · rfl

omit [Casing] in
theorem bound_of_remote {active : Str} (remote : row.isLocal = false) : bound active row = row := by
  unfold bound
  rw [remote]
  rfl

omit [Casing] in
theorem isKept_of_vault {active : Str} {ids : List Str} (own : row.isLocal = true) :
    isKept active ids row = true ↔ ∃ vault, row.localVault = some vault ∧ vault ≠ active := by
  simp only [isKept, own, if_true, localVault_eq_some, true_and]
  constructor
  · intro kept
    cases scope : row.storeId with
    | unscoped => simp [scope] at kept
    | storeId id =>
      simp only [scope, Bool.and_eq_true, bne_iff_ne, ne_eq] at kept
      exact ⟨trim id, vault_eq_some.mpr ⟨id, rfl, rfl, kept.1⟩, kept.2⟩
  · intro ⟨vault, named, differs⟩
    obtain ⟨id, scope, same, filled⟩ := vault_eq_some.mp named
    rw [← same] at filled differs
    simp only [scope, Bool.and_eq_true, bne_iff_ne, ne_eq]
    exact ⟨filled, differs⟩

omit [Casing] in
theorem isKept_of_remote {active : Str} {ids : List Str} (remote : row.isLocal = false) :
    isKept active ids row = true ↔ row.id ∉ ids := by
  simp [isKept, remote]

section Replaced

variable {active : Str} (selected : incoming.activeVaultStoreId.selected = some active)

include selected

omit [Casing] in
theorem providers_replaceActiveVaultGrants :
    (snapshot.replaceActiveVaultGrants incoming).providers =
      snapshot.providers.filter (isKept active (incoming.providers.map (·.id))) ++
        incoming.providers.map (bound active) := by
  unfold replaceActiveVaultGrants
  rw [selected]

omit [Casing] in
theorem keepsOthers_replaceActiveVaultGrants :
    KeepsOthers (some active) snapshot.providers
      (snapshot.replaceActiveVaultGrants incoming).providers := by
  intro row member vault named differs
  rw [providers_replaceActiveVaultGrants selected]
  have own := (localVault_eq_some.mp named).1
  have kept : isKept active (incoming.providers.map (·.id)) row = true :=
    (isKept_of_vault own).mpr ⟨vault, named, fun same => differs (congrArg some same.symm)⟩
  exact List.mem_append_left _ (List.mem_filter.mpr ⟨member, kept⟩)

omit [Casing] in
theorem nodup_ids_replaceActiveVaultGrants (formed : (snapshot.providers.map (·.id)).Nodup)
    (sound : (incoming.providers.map (·.id)).Nodup) :
    ((snapshot.replaceActiveVaultGrants incoming).providers.map (·.id)).Nodup ↔
      ∀ row ∈ snapshot.providers, ∀ vault, row.localVault = some vault → vault ≠ active →
        row.id ∉ incoming.providers.map (·.id) := by
  have kept : ((snapshot.providers.filter
      (isKept active (incoming.providers.map (·.id)))).map (·.id)).Nodup :=
    formed.sublist (List.filter_sublist.map _)
  have taken : (incoming.providers.map (bound active)).map (·.id) =
      incoming.providers.map (·.id) := by
    rw [List.map_map]
    exact List.map_congr_left fun row _ => id_bound active row
  rw [providers_replaceActiveVaultGrants selected, List.map_append, taken, List.nodup_append]
  simp only [kept, sound, true_and]
  constructor
  · intro apart row member vault named differs listed
    have own := (localVault_eq_some.mp named).1
    have passes : isKept active (incoming.providers.map (·.id)) row = true :=
      (isKept_of_vault own).mpr ⟨vault, named, differs⟩
    have stays := List.mem_filter.mpr ⟨member, passes⟩
    exact apart row.id (List.mem_map.mpr ⟨row, stays, rfl⟩) row.id listed rfl
  · intro free id stays id' listed same
    subst same
    obtain ⟨row, found, rfl⟩ := List.mem_map.mp stays
    obtain ⟨member, passes⟩ := List.mem_filter.mp found
    cases own : row.isLocal with
    | true =>
      obtain ⟨vault, named, differs⟩ := (isKept_of_vault own).mp passes
      exact free row member vault named differs listed
    | false => exact (isKept_of_remote own).mp passes listed

omit [Casing] in
theorem localVault_bound (own : row.isLocal = true) :
    (bound active row).localVault = some active := by
  have scope : (bound active row).storeId = .storeId active := by
    unfold bound
    rw [if_pos own]
  apply localVault_eq_some.mpr
  refine ⟨(isLocal_bound active row).trans own, ?_⟩
  rw [scope]
  exact vault_storeId_selected selected

omit [Casing] in
theorem separates_vaults_replaceActiveVaultGrants
    (formed : Separates StorageProvider.localVault snapshot.providers)
    (sound : (incoming.providers.map (·.id)).Nodup) :
    Separates StorageProvider.localVault (snapshot.replaceActiveVaultGrants incoming).providers ↔
      ∀ row ∈ incoming.providers, ∀ other ∈ incoming.providers, row.isLocal = true →
        other.isLocal = true → row = other := by
  rw [providers_replaceActiveVaultGrants selected]
  constructor
  · intro separates row member other listed own own'
    have one := separates (bound active row)
      (List.mem_append_right _ (List.mem_map_of_mem member)) (bound active other)
      (List.mem_append_right _ (List.mem_map_of_mem listed)) active
      (localVault_bound selected own) (localVault_bound selected own')
    have named : row.id = other.id := by rw [← id_bound active row, one, id_bound]
    exact eq_of_id_eq sound member listed named
  · intro one
    refine separates_append.mpr ⟨formed.mono ?_, ?_, ?_⟩
    · exact fun row member _ => (List.mem_filter.mp member).1
    · intro row member other listed vault named same
      obtain ⟨source, origin, rfl⟩ := List.mem_map.mp member
      obtain ⟨source', origin', rfl⟩ := List.mem_map.mp listed
      have own := (localVault_eq_some.mp named).1
      have own' := (localVault_eq_some.mp same).1
      rw [isLocal_bound] at own own'
      rw [one source origin source' origin' own own']
    · intro row member other listed vault named same
      obtain ⟨source, _, rfl⟩ := List.mem_map.mp listed
      have own := (localVault_eq_some.mp named).1
      have own' := (localVault_eq_some.mp same).1
      rw [isLocal_bound] at own'
      obtain ⟨other, named', differs⟩ := (isKept_of_vault own).mp (List.mem_filter.mp member).2
      rw [localVault_bound selected own', Option.some.injEq] at same
      rw [named, Option.some.injEq] at named'
      exact absurd (named'.symm.trans same.symm) differs

theorem separates_targets_replaceActiveVaultGrants
    (formed : Separates StorageProvider.remoteKey snapshot.providers)
    (sound : Separates StorageProvider.remoteKey incoming.providers) :
    Separates StorageProvider.remoteKey (snapshot.replaceActiveVaultGrants incoming).providers ↔
      ∀ row ∈ snapshot.providers, ∀ other ∈ incoming.providers, row.isLocal = false →
        other.isLocal = false → row.targetKey = other.targetKey →
          row.id ∈ incoming.providers.map (·.id) := by
  have taken (other : StorageProvider) (remote : other.isLocal = false) :
      other ∈ incoming.providers.map (bound active) ↔ other ∈ incoming.providers := by
    rw [List.mem_map]
    constructor
    · intro ⟨source, origin, same⟩
      have remote' : source.isLocal = false := by rw [← isLocal_bound active, same, remote]
      rw [bound_of_remote remote'] at same
      exact same ▸ origin
    · exact fun member => ⟨other, member, bound_of_remote remote⟩
  rw [providers_replaceActiveVaultGrants selected]
  constructor
  · intro separates row member other listed remote remote' same
    by_contra absent
    have passes : isKept active (incoming.providers.map (·.id)) row = true :=
      (isKept_of_remote remote).mpr absent
    have stays := List.mem_filter.mpr ⟨member, passes⟩
    have one := separates row (List.mem_append_left _ stays) other
      (List.mem_append_right _ ((taken other remote').mpr listed)) row.targetKey
      (remoteKey_eq_some.mpr ⟨remote, rfl⟩) (remoteKey_eq_some.mpr ⟨remote', same.symm⟩)
    exact absent (List.mem_map.mpr ⟨other, listed, congrArg _ one.symm⟩)
  · intro free
    refine separates_append.mpr ⟨formed.mono ?_, sound.mono ?_, ?_⟩
    · exact fun row member _ => (List.mem_filter.mp member).1
    · exact fun row member named => (taken row (not_isLocal_of_remoteKey named)).mp member
    · intro row member other listed key named same
      obtain ⟨remote, key'⟩ := remoteKey_eq_some.mp named
      obtain ⟨remote', key''⟩ := remoteKey_eq_some.mp same
      obtain ⟨origin, passes⟩ := List.mem_filter.mp member
      have inside := free row origin other ((taken other remote').mp listed) remote remote'
        (key'.trans key''.symm)
      exact absurd inside ((isKept_of_remote remote).mp passes)

theorem wellFormed_replaceActiveVaultGrants (formed : WellFormed snapshot.providers)
    (sound : WellFormed incoming.providers) :
    WellFormed (snapshot.replaceActiveVaultGrants incoming).providers ↔
      snapshot.GrantsFree incoming active := by
  have ids := nodup_ids_replaceActiveVaultGrants selected formed.ids sound.ids
  have vaults := separates_vaults_replaceActiveVaultGrants selected formed.vaults sound.ids
  have targets := separates_targets_replaceActiveVaultGrants selected formed.targets sound.targets
  constructor
  · exact fun after => ⟨ids.mp after.ids, vaults.mp after.vaults, targets.mp after.targets⟩
  · exact fun free => ⟨ids.mpr free.ids, vaults.mpr free.oneLocal, targets.mpr free.targets⟩

end Replaced

end AuthProvidersSnapshot

end Nook.Sync
