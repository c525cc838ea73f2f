import Nook.Auth.DirectoryValidity

set_option autoImplicit false

namespace Nook.Auth

open Nook.Lib Nook.EventLog

namespace IdentityRecord

variable [Age] {record next : IdentityRecord}

omit [Age] in
theorem setMemberSigningPublicKey_eq_ok {request : IdentityMemberSigningUpdate}
    (accepted : record.setMemberSigningPublicKey request = .ok next) :
    next.identityId = record.identityId ∧ next.memberIds = record.memberIds ∧
      next.storeIds = record.storeIds := by
  have done := (rejecting_eq_ok _ _ _).mp accepted
  split at done
  · cases done
  · split at done
    · cases done
      exact ⟨rfl, rfl, rfl⟩
    · cases done
      refine ⟨rfl, ?_, rfl⟩
      apply map_updateFirst
      exact fun _ _ => rfl

theorem reconcileLegacyVaultMember_ids {request : IdentityLegacyVaultReconciliation}
    {entropy : Entropy} (accepted : record.reconcileLegacyVaultMember request entropy = .ok next) :
    next.identityId = record.identityId ∧ next.memberIds = record.memberIds ∧
      next.storeIds = record.storeIds := by
  rcases reconcileLegacyVaultMember_eq_ok accepted with rfl | ⟨index, vault, ids, placed, _, _, _, rfl⟩
  · exact ⟨rfl, rfl, rfl⟩
  · exact ⟨rfl, rfl, map_set_eq placed⟩

/-- Opening keys generates a grant at most, for a vault without one. -/
theorem openOrGenerateVaultDek_eq_ok {request : IdentityVaultKeyOpening}
    {generated : MultiDeviceResult VaultKeys} {entropy : Entropy} {opened : IdentityVaultKeys}
    (accepted : record.openOrGenerateVaultDek request generated entropy = .ok opened) :
    opened.identity.identityId = record.identityId ∧ opened.identity.memberIds = record.memberIds ∧
      (opened.identity.storeIds = record.storeIds ∨ request.storeId ∉ record.storeIds ∧
        opened.identity.storeIds = record.storeIds ++ [request.storeId]) := by
  unfold openOrGenerateVaultDek at accepted
  split at accepted
  · cases accepted
    exact ⟨rfl, rfl, Or.inl rfl⟩
  · obtain ⟨unheld, vault, named, _, _, same⟩ := generateVaultDek_eq_ok accepted
    rw [same]
    exact ⟨rfl, rfl, Or.inr ⟨unheld, by simp [storeIds, named]⟩⟩
  · cases accepted

end IdentityRecord

/-! ### The record one of whose ids is new -/

namespace IdentityRecord

variable {record next : IdentityRecord} {others : List IdentityRecord} {retired : List AppId}

theorem Fits.addMember_iff (fits : record.Fits others retired) {appId : AppId}
    (absent : appId ∉ record.memberIds) (same : next.identityId = record.identityId)
    (members : next.memberIds = record.memberIds ++ [appId])
    (stores : next.storeIds = record.storeIds) :
    next.Fits others retired ↔ appId ∉ retired ∧ ∀ other ∈ others, appId ∉ other.memberIds := by
  have own : appId ∈ next.memberIds := by simp [members]
  constructor
  · intro whole
    exact ⟨whole.active appId own, fun other inside => (whole.apart other inside).members appId own⟩
  · rintro ⟨active, free⟩
    refine ⟨?_, ?_, stores ▸ fits.stores, fun other inside => ⟨same ▸ (fits.apart other inside).id, ?_,
      stores ▸ (fits.apart other inside).stores⟩⟩
    · rw [members]
      exact List.forall_mem_append.mpr ⟨fits.active, by simpa using active⟩
    · rw [members]
      simpa using fits.members.concat absent
    · rw [members]
      exact List.forall_mem_append.mpr
        ⟨(fits.apart other inside).members, by simpa using free other inside⟩

theorem Fits.addVault (fits : record.Fits others retired) {storeId : StoreId}
    (absent : storeId ∉ record.storeIds) (free : ∀ other ∈ others, storeId ∉ other.storeIds)
    (same : next.identityId = record.identityId) (members : next.memberIds = record.memberIds)
    (stores : next.storeIds = record.storeIds ++ [storeId]) : next.Fits others retired := by
  refine ⟨members ▸ fits.active, members ▸ fits.members, ?_, fun other inside =>
    ⟨same ▸ (fits.apart other inside).id, members ▸ (fits.apart other inside).members, ?_⟩⟩
  · rw [stores]
    simpa using fits.stores.concat absent
  · rw [stores]
    exact List.forall_mem_append.mpr
      ⟨(fits.apart other inside).stores, by simpa using free other inside⟩

end IdentityRecord

namespace IdentityDirectory

variable {directory next : IdentityDirectory}

/-- An identity added last is valid beside the others exactly when it fits them. -/
theorem Valid.push_iff (valid : directory.Valid) {record : IdentityRecord}
    {selection : IdentitySelection} (selects : ∀ identityId, selection = .selected identityId →
      identityId ∈ (directory.identities ++ [record]).map (·.identityId)) :
    Valid ⟨directory.identities ++ [record], selection, directory.retiredAppIds⟩ ↔
      record.Fits directory.identities directory.retiredAppIds := by
  constructor
  · intro whole
    exact (Owned.concat_iff.mp whole.owned).2
  · intro fits
    exact ⟨valid.retired, Owned.concat_iff.mpr ⟨valid.owned, fits⟩, selects⟩

section Owners

variable [Age]

omit [Age] in
theorem vaultOwner_eq_none {storeId : StoreId} (unowned : directory.vaultOwner storeId = none) :
    ∀ record ∈ directory.identities, storeId ∉ record.storeIds := by
  intro record inside held
  have none := List.find?_eq_none.mp unowned record inside
  exact none (IdentityRecord.ownsVault_eq_true.mpr held)

theorem identityOwnedBy_eq_ok {appKey : AppKey} {record : IdentityRecord} {owned : Option IdentityId}
    (done : identityOwnedBy appKey record = .ok owned) :
    owned = none ∧ appKey.appId ∉ record.memberIds ∨
      owned = some record.identityId ∧ appKey.appId ∈ record.memberIds := by
  unfold identityOwnedBy at done
  split at done
  · rename_i absent
    cases done
    exact Or.inl ⟨rfl, by simpa [IdentityRecord.memberIds] using absent⟩
  · rename_i member found
    split at done
    · cases done
    · cases done
      have named : member.appId = appKey.appId := by simpa using List.find?_some found
      exact Or.inr ⟨rfl, named ▸ List.mem_map_of_mem (List.mem_of_find?_eq_some found)⟩

/-- An app key is unenrolled when no identity lists it; otherwise one does. -/
theorem identityForAppKey_eq_ok {appKey : AppKey} {membership : AppKeyIdentityMembership}
    (done : directory.identityForAppKey appKey = .ok membership) :
    appKey.appId ∉ directory.retiredAppIds ∧
      (membership = .unenrolled ∧ directory.Unlisted appKey.appId ∨
        ∃ record ∈ directory.identities, membership = .enrolled record.identityId ∧
          appKey.appId ∈ record.memberIds) := by
  obtain ⟨⟨⟩, active, done⟩ := bind_eq_ok.mp done
  obtain ⟨owned, collected, done⟩ := bind_eq_ok.mp done
  obtain ⟨⟨⟩, _, done⟩ := bind_eq_ok.mp done
  unfold ensureAppKeyActive at active
  rw [refuse_eq_ok, decide_eq_false_iff_not] at active
  refine ⟨active, ?_⟩
  split at done
  · rename_i identityId last
    cases done
    right
    have listed := List.mem_of_getLast? last
    rw [List.reduceOption_mem_iff, mem_of_mapM_eq_ok collected] at listed
    obtain ⟨record, inside, stepped⟩ := listed
    rcases identityOwnedBy_eq_ok stepped with ⟨none, _⟩ | ⟨some, member⟩
    · cases none
    · cases some
      exact ⟨record, inside, rfl, member⟩
  · rename_i absent
    cases done
    left
    refine ⟨rfl, fun record inside listed => ?_⟩
    obtain ⟨result, inResult, stepped⟩ := mapM_step collected inside
    rcases identityOwnedBy_eq_ok stepped with ⟨_, unlisted⟩ | ⟨rfl, _⟩
    · exact unlisted listed
    · have present := List.reduceOption_mem_iff.mpr inResult
      rw [List.getLast?_eq_none_iff.mp absent] at present
      cases present

/-- A vault is imported, reconciled or opened beside an app key that is not retired. -/
theorem ensureAppKeyActive_eq_ok {appKey : AppKey}
    (active : directory.ensureAppKeyActive appKey = .ok ()) :
    appKey.appId ∉ directory.retiredAppIds := by
  unfold ensureAppKeyActive at active
  rwa [refuse_eq_ok, decide_eq_false_iff_not] at active

end Owners

/-! ### Operations that add an identity -/

variable [Age]

omit [Age] in
/-- A record of one member fits exactly when the member is unlisted and its id is new. -/
theorem fits_single_iff {record : IdentityRecord} {appId : AppId}
    {generated : MultiDeviceResult IdentityId} (named : generated = .ok record.identityId)
    (members : record.memberIds = [appId]) (active : appId ∉ directory.retiredAppIds)
    (stores : record.storeIds.Nodup)
    (unowned : ∀ storeId ∈ record.storeIds, ∀ other ∈ directory.identities,
      storeId ∉ other.storeIds) :
    record.Fits directory.identities directory.retiredAppIds ↔
      directory.Unlisted appId ∧ directory.Fresh generated := by
  constructor
  · intro fits
    constructor
    · exact fun other inside => (fits.apart other inside).members appId (by simp [members])
    · intro identityId drawn other inside
      rw [named] at drawn
      cases drawn
      exact (fits.apart other inside).id
  · rintro ⟨unlisted, fresh⟩
    refine ⟨by simpa [members] using active, by simp [members], stores, fun other inside =>
      ⟨fresh _ named other inside, ?_, fun storeId own => unowned storeId own other inside⟩⟩
    simpa [members] using unlisted other inside

/-- A created identity leaves the directory valid exactly when its app key is in no other
identity and its id is new. -/
theorem Valid.createIdentity_iff (valid : directory.Valid) {request : IdentityCreation}
    {generated : MultiDeviceResult IdentityId} {created : IdentityDirectoryResolution}
    (accepted : directory.createIdentity request generated = .ok created) :
    created.directory.Valid ↔
      directory.Unlisted request.appKey.appId ∧ directory.Fresh generated := by
  obtain ⟨record, made, done⟩ := bind_eq_ok.mp ((rejecting_eq_ok _ _ _).mp accepted)
  cases done
  obtain ⟨⟨⟩, active, made⟩ := bind_eq_ok.mp made
  obtain ⟨⟨⟩, _, made⟩ := bind_eq_ok.mp made
  obtain ⟨identityId, drawn, made⟩ := bind_eq_ok.mp made
  cases made
  rw [valid.push_iff (by simp)]
  exact fits_single_iff drawn rfl (ensureAppKeyActive_eq_ok active) List.nodup_nil
    fun storeId own => absurd own List.not_mem_nil

/-- A vault imported into an identity of its own, likewise. -/
theorem Valid.importNewLegacyIdentity_iff (valid : directory.Valid)
    {request : DirectoryLegacyVaultImport} {generated : MultiDeviceResult IdentityId}
    {imported : IdentityDirectoryResolution} (active : request.appKey.appId ∉ directory.retiredAppIds)
    (unowned : directory.vaultOwner request.storeId = none)
    (accepted : directory.importNewLegacyIdentity request generated = .ok imported) :
    imported.directory.Valid ↔
      directory.Unlisted request.appKey.appId ∧ directory.Fresh generated := by
  obtain ⟨record, made, done⟩ := bind_eq_ok.mp ((rejecting_eq_ok _ _ _).mp accepted)
  cases done
  obtain ⟨identityId, drawn, made⟩ := bind_eq_ok.mp made
  cases made
  show Valid ⟨_, _, _⟩ ↔ _
  rw [valid.push_iff (by simp)]
  refine fits_single_iff drawn rfl active (List.nodup_singleton request.storeId) ?_
  intro storeId own other inside
  rw [List.mem_singleton.mp own]
  exact vaultOwner_eq_none unowned other inside

/-! ### Operations on one identity -/

theorem Valid.reconcile (valid : directory.Valid) {identityId : IdentityId}
    {request : IdentityLegacyVaultReconciliation} {entropy : Entropy}
    (accepted : (directory.takeIdentity identityId >>= fun detached =>
      detached.update (·.reconcileLegacyVaultMember request entropy)) = .ok next) :
    next.Valid ∧ identityId ∈ next.identities.map (·.identityId) := by
  obtain ⟨record, updated, others, named, done, rewritten⟩ := update_eq_ok accepted
  obtain ⟨same, members, stores⟩ := IdentityRecord.reconcileLegacyVaultMember_ids done
  refine ⟨rewritten.valid_of_shrink valid same (members ▸ List.Sublist.refl _)
    (stores ▸ List.Sublist.refl _), ?_⟩
  obtain ⟨before, after, _, split, _⟩ := rewritten.split
  simp [split, same, named]

theorem Valid.importInto (valid : directory.Valid) {identityId : IdentityId}
    {request : IdentityLegacyVaultReconciliation} {entropy : Entropy}
    (unowned : directory.vaultOwner request.storeId = none)
    (accepted : (directory.takeIdentity identityId >>= fun detached =>
      detached.update (·.importLegacyVault request entropy)) = .ok next) :
    next.Valid ∧ identityId ∈ next.identities.map (·.identityId) := by
  obtain ⟨record, updated, others, named, done, rewritten⟩ := update_eq_ok accepted
  obtain ⟨vault, ids, store, _, _, _, rfl⟩ := IdentityRecord.importLegacyVault_eq_ok done
  constructor
  · rw [rewritten.valid_iff valid rfl]
    refine (rewritten.fits valid).addVault (vaultOwner_eq_none unowned record rewritten.mem)
      (fun other inside => vaultOwner_eq_none unowned other (rewritten.mem_of_mem inside)) rfl rfl ?_
    simp [IdentityRecord.storeIds, store]
  · obtain ⟨before, after, _, split, _⟩ := rewritten.split
    simp [split, named]

theorem Valid.importLegacyVault_iff (valid : directory.Valid) {request : DirectoryLegacyVaultImport}
    {generated : MultiDeviceResult IdentityId} {entropy : Entropy}
    {imported : IdentityDirectoryResolution}
    (accepted : directory.importLegacyVault request generated entropy = .ok imported) :
    imported.directory.Valid ↔ (directory.vaultOwner request.storeId).isSome = true ∨
      ¬ directory.Unlisted request.appKey.appId ∨ directory.Fresh generated := by
  unfold importLegacyVault at accepted
  dsimp only at accepted
  cases chosen : directory.legacyImportDestination request with
  | error cause => simp [chosen] at accepted
  | ok destination =>
    obtain ⟨⟨⟩, active, rest⟩ := bind_eq_ok.mp chosen
    cases owner : directory.vaultOwner request.storeId with
    | some record =>
      simp only [owner] at rest
      cases rest
      simp only [chosen] at accepted
      obtain ⟨detached, taken, accepted⟩ := bind_eq_ok.mp accepted
      obtain ⟨updated, done, accepted⟩ := bind_eq_ok.mp accepted
      cases accepted
      obtain ⟨whole, present⟩ := valid.reconcile (bind_eq_ok.mpr ⟨detached, taken, done⟩)
      exact iff_of_true (whole.select present) (Or.inl rfl)
    | none =>
      simp only [owner] at rest
      obtain ⟨membership, found, rest⟩ := bind_eq_ok.mp rest
      rcases (identityForAppKey_eq_ok found).2 with ⟨rfl, unlisted⟩ | ⟨record, inside, rfl, listed⟩
      · cases rest
        simp only [chosen] at accepted
        rw [valid.importNewLegacyIdentity_iff (ensureAppKeyActive_eq_ok active) owner accepted]
        simp [unlisted]
      · cases rest
        simp only [chosen] at accepted
        obtain ⟨detached, taken, accepted⟩ := bind_eq_ok.mp accepted
        obtain ⟨updated, done, accepted⟩ := bind_eq_ok.mp accepted
        cases accepted
        obtain ⟨whole, present⟩ := valid.importInto owner (bind_eq_ok.mpr ⟨detached, taken, done⟩)
        exact iff_of_true (whole.select present)
          (Or.inr (Or.inl fun unlisted => unlisted record inside listed))

theorem Valid.reconcileVaultDek (valid : directory.Valid)
    {request : IdentityLegacyVaultReconciliation} {entropy : Entropy}
    {reconciled : IdentityDirectoryResolution}
    (accepted : directory.reconcileVaultDek request entropy = .ok reconciled) :
    reconciled.directory.Valid := by
  unfold IdentityDirectory.reconcileVaultDek at accepted
  split at accepted
  · cases accepted
  · obtain ⟨detached, taken, accepted⟩ := bind_eq_ok.mp accepted
    obtain ⟨updated, done, accepted⟩ := bind_eq_ok.mp accepted
    cases accepted
    exact (valid.reconcile (bind_eq_ok.mpr ⟨detached, taken, done⟩)).1

omit [Age] in
theorem selected_eq_ok {record : IdentityRecord} (chosen : directory.selected = .ok record) :
    record ∈ directory.identities := by
  unfold selected at chosen
  split at chosen
  · cases chosen
  · split at chosen
    · rename_i found
      cases chosen
      exact List.mem_of_find?_eq_some found
    · cases chosen

/-- Keys are opened in the vault's owner, and generated for a vault without one. -/
theorem vaultOpeningIdentity_eq_ok {request : IdentityVaultKeyOpening} {identityId : IdentityId}
    (found : directory.vaultOpeningIdentity request = .ok identityId) :
    (∃ owner ∈ directory.identities, owner.identityId = identityId ∧
      request.storeId ∈ owner.storeIds) ∨ directory.vaultOwner request.storeId = none := by
  obtain ⟨⟨⟩, _, found⟩ := bind_eq_ok.mp found
  split at found
  · rename_i owner holds
    cases found
    left
    unfold vaultOwner at holds
    refine ⟨owner, List.mem_of_find?_eq_some holds, rfl, ?_⟩
    exact IdentityRecord.ownsVault_eq_true.mp (by simpa using List.find?_some holds)
  · rename_i unowned
    exact Or.inr unowned

omit [Age] in
/-- Identities of one id are one identity. -/
theorem Valid.eq_of_identityId (valid : directory.Valid) {record other : IdentityRecord}
    (inside : record ∈ directory.identities) (alsoInside : other ∈ directory.identities)
    (same : record.identityId = other.identityId) : record = other :=
  List.inj_on_of_nodup_map valid.owned.ids inside alsoInside same

theorem Valid.openOrGenerateVaultDek (valid : directory.Valid) {request : IdentityVaultKeyOpening}
    {generated : MultiDeviceResult VaultKeys} {entropy : Entropy}
    {opened : IdentityDirectoryVaultKeys}
    (accepted : directory.openOrGenerateVaultDek request generated entropy = .ok opened) :
    opened.directory.Valid := by
  unfold IdentityDirectory.openOrGenerateVaultDek at accepted
  split at accepted
  · cases accepted
  · rename_i identityId found
    obtain ⟨detached, taken, accepted⟩ := bind_eq_ok.mp accepted
    obtain ⟨named, rewrites⟩ := takeIdentity_eq_ok taken
    unfold DetachedIdentityRecord.openKeys at accepted
    split at accepted
    · rename_i keys done
      cases accepted
      obtain ⟨others, rewritten⟩ := rewrites keys.identity
      obtain ⟨same, members, stores⟩ := IdentityRecord.openOrGenerateVaultDek_eq_ok done
      rcases stores with stores | ⟨unheld, stores⟩
      · exact rewritten.valid_of_shrink valid same (members ▸ List.Sublist.refl _)
          (stores ▸ List.Sublist.refl _)
      · rw [rewritten.valid_iff valid same]
        have unowned : directory.vaultOwner request.storeId = none := by
          rcases vaultOpeningIdentity_eq_ok found with ⟨owner, inside, ownerNamed, held⟩ | unowned
          · have one := valid.eq_of_identityId inside rewritten.mem (ownerNamed.trans named.symm)
            exact absurd (one ▸ held) unheld
          · exact unowned
        exact (rewritten.fits valid).addVault unheld (fun other inside =>
          vaultOwner_eq_none unowned other (rewritten.mem_of_mem inside)) same members stores
    · cases accepted

omit [Age] in
theorem Valid.setMemberSigningPublicKey (valid : directory.Valid)
    {request : DirectoryMemberSigningUpdate}
    (accepted : directory.setMemberSigningPublicKey request = .ok next) : next.Valid := by
  obtain ⟨record, updated, others, _, done, rewritten⟩ := update_eq_ok accepted
  obtain ⟨same, members, stores⟩ := IdentityRecord.setMemberSigningPublicKey_eq_ok done
  exact rewritten.valid_of_shrink valid same (members ▸ List.Sublist.refl _)
    (stores ▸ List.Sublist.refl _)

omit [Age] in
theorem Valid.addSelectedMember_iff (valid : directory.Valid) {member : IdentityMember}
    (accepted : directory.addSelectedMember member = .ok next) :
    next.Valid ↔ member.appId ∉ directory.retiredAppIds ∧ directory.Unlisted member.appId := by
  unfold addSelectedMember at accepted
  split at accepted
  · cases accepted
  · obtain ⟨record, updated, others, _, done, rewritten⟩ := update_eq_ok accepted
    obtain ⟨absent, members, vaults, same⟩ := IdentityRecord.addMember_eq_ok done
    rw [rewritten.valid_iff valid same,
      (rewritten.fits valid).addMember_iff absent same members (congrArg (List.map _) vaults)]
    refine and_congr_right fun _ => ⟨fun free other inside => ?_, fun unlisted other inside =>
      unlisted other (rewritten.mem_of_mem inside)⟩
    rcases rewritten.eq_or_mem inside with rfl | remaining
    · exact absent
    · exact free other remaining

omit [Age] in
/-- A replacement of the selected identity leaves the directory valid exactly when its own ids
are distinct and in no other identity. -/
theorem Valid.replaceSelected_iff (valid : directory.Valid) {replacement : IdentityRecord}
    (accepted : directory.replaceSelected replacement = .ok next) :
    next.Valid ↔ replacement.memberIds.Nodup ∧ replacement.storeIds.Nodup ∧
      ∀ other ∈ directory.identities, other.identityId ≠ replacement.identityId →
        replacement.Apart other := by
  obtain ⟨⟨⟩, _, done⟩ := bind_eq_ok.mp ((rejecting_eq_ok _ _ _).mp accepted)
  obtain ⟨⟨⟩, active, done⟩ := bind_eq_ok.mp done
  split at done
  · cases done
  · rename_i index found
    cases done
    obtain ⟨record, others, named, rewritten⟩ := rewritten_set replacement found
    rw [rewritten.valid_iff valid named.symm]
    rw [refuse_eq_ok, List.any_eq_false] at active
    constructor
    · intro fits
      refine ⟨fits.members, fits.stores, fun other inside different => ?_⟩
      rcases rewritten.eq_or_mem inside with rfl | remaining
      · exact absurd named different
      · exact fits.apart other remaining
    · rintro ⟨members, stores, apart⟩
      refine ⟨fun appId own => ?_, members, stores, fun other inside => ?_⟩
      · obtain ⟨member, listed, rfl⟩ := List.mem_map.mp own
        simpa using active member listed
      · have different := ((rewritten.fits valid).apart other inside).id
        exact apart other (rewritten.mem_of_mem inside) (named ▸ different)

omit [Age] in
theorem nameRecord_keeps (identityId : IdentityId) (label : Str) (record : IdentityRecord) :
    (nameRecord identityId label record).identityId = record.identityId ∧
      (nameRecord identityId label record).memberIds = record.memberIds ∧
      (nameRecord identityId label record).storeIds = record.storeIds := by
  unfold nameRecord
  split
  · exact ⟨rfl, rfl, rfl⟩
  · exact ⟨rfl, rfl, rfl⟩

theorem Valid.nameFreshIdentity (valid : directory.Valid) {request : FreshIdentityNaming}
    (accepted : directory.nameFreshIdentity request = .ok next) : next.Valid := by
  obtain ⟨⟨⟩, _, done⟩ := bind_eq_ok.mp accepted
  obtain ⟨fresh, _, done⟩ := bind_eq_ok.mp done
  obtain ⟨⟨⟩, _, done⟩ := bind_eq_ok.mp done
  cases done
  have keeps := nameRecord_keeps fresh.identityId request.label
  refine ⟨valid.retired, valid.owned.map_keeping keeps, fun identityId chosen => ?_⟩
  have present := valid.selection identityId chosen
  rw [List.map_map]
  rwa [show (fun record : IdentityRecord => record.identityId) ∘
    nameRecord fresh.identityId request.label = fun record => record.identityId from
      funext fun record => (keeps record).1]

/-! ### Retirement -/

omit [Age] in
/-- Retiring an app key leaves the directory valid exactly when no identity lists it. -/
theorem Valid.retireAppId_iff (valid : directory.Valid) (appId : AppId) :
    (directory.retireAppId appId).Valid ↔ directory.Unlisted appId := by
  unfold retireAppId
  split
  · rename_i retired
    exact iff_of_true valid fun record inside listed => valid.owned.active record inside appId listed
      retired
  · rename_i active
    constructor
    · intro whole record inside listed
      exact whole.owned.active record inside appId listed (by simp)
    · intro unlisted
      refine ⟨by simpa using valid.retired.concat active, { valid.owned with active := ?_ },
        valid.selection⟩
      intro record inside id listed
      rw [List.mem_append, List.mem_singleton]
      rintro (before | rfl)
      · exact valid.owned.active record inside id listed before
      · exact unlisted record inside listed

omit [Age] in
theorem Valid.resetForDeviceRecovery (valid : directory.Valid) (retirement : RecoveryRetirement) :
    (directory.resetForDeviceRecovery retirement).Valid := by
  have reset : Valid { directory with identities := [], selection := .empty } :=
    ⟨valid.retired, Owned.nil _, fun identityId chosen => by cases chosen⟩
  cases retirement with
  | retireInstallation appId =>
    exact (reset.retireAppId_iff appId).mpr fun record inside => absurd inside List.not_mem_nil
  | preserveRetiredKeys => exact reset

omit [Age] in
theorem firstSelection_mem {identities : List IdentityRecord} {identityId : IdentityId}
    (chosen : firstSelection identities = .selected identityId) :
    identityId ∈ identities.map (·.identityId) := by
  unfold firstSelection at chosen
  split at chosen
  · cases chosen
  · rename_i identity first
    cases chosen
    exact List.mem_map_of_mem (List.mem_of_head? first)

omit [Age] in
/-- The identity whose key is retired, at its place. -/
theorem admitLocalKeyRetirement_eq_ok {request : LocalIdentityKeyRetirement} {index : Nat}
    {identity : IdentityRecord}
    (admitted : directory.admitLocalKeyRetirement request = .ok (index, identity)) :
    request.appId ∈ identity.memberIds ∧ ∃ before after,
      directory.identities = before ++ identity :: after ∧ before.length = index := by
  obtain ⟨⟨⟩, _, admitted⟩ := bind_eq_ok.mp admitted
  split at admitted
  · rename_i place record found listed
    obtain ⟨⟨⟩, member, admitted⟩ := bind_eq_ok.mp admitted
    cases admitted
    rw [refuse_eq_ok, Bool.not_eq_false', IdentityRecord.hasAppId_eq_true] at member
    obtain ⟨before, after, split, place, _⟩ := split_of_find? found listed
    exact ⟨member, before, after, split, place⟩
  · cases admitted

omit [Age] in
/-- Without its identity or without the member, no identity lists the key. -/
theorem Valid.withoutLocalKey (valid : directory.Valid) {request : LocalIdentityKeyRetirement}
    {identity : IdentityRecord} {before after : List IdentityRecord}
    (split : directory.identities = before ++ identity :: after)
    (member : request.appId ∈ identity.memberIds)
    (removed : directory.withoutLocalKey request before.length identity = .ok next) :
    next.Valid ∧ next.Unlisted request.appId := by
  unfold IdentityDirectory.withoutLocalKey at removed
  split at removed
  · cases removed
    have remaining : directory.identities.eraseIdx before.length = before ++ after := by
      simp [split, List.eraseIdx_append_of_length_le]
    obtain ⟨left, fits⟩ := Owned.middle_iff.mp (split ▸ valid.owned)
    simp only [remaining]
    refine ⟨⟨valid.retired, left, fun identityId chosen => firstSelection_mem chosen⟩, ?_⟩
    exact fun other inside => (fits.apart other inside).members request.appId member
  · obtain ⟨record, updated, others, recordNamed, done, rewritten⟩ := update_eq_ok removed
    obtain ⟨first, last, listed, remaining, vaults, same⟩ := IdentityRecord.removeMember_eq_ok done
    have fits := rewritten.fits valid
    have distinct := fits.members
    have kept : request.appId ∈ record.memberIds := by simp [listed]
    rw [listed, List.nodup_middle, List.nodup_cons] at distinct
    refine ⟨rewritten.valid_of_shrink valid same ?_ ?_, fun other inside => ?_⟩
    · rw [remaining, listed]
      exact List.Sublist.append_left (List.sublist_cons_self _ _) _
    · rw [IdentityRecord.storeIds, vaults, List.map_map]
      exact List.Sublist.refl _
    · rcases rewritten.next_eq_or_mem inside with rfl | elsewhere
      · exact remaining ▸ distinct.1
      · exact (fits.apart other elsewhere).members request.appId kept

omit [Age] in
/-- Retiring the key of an identity removes the key wherever the directory lists it. -/
theorem Valid.retireLocalIdentityKey {request : LocalIdentityKeyRetirement} (valid : directory.Valid)
    (accepted : directory.retireLocalIdentityKey request = .ok next) : next.Valid := by
  unfold IdentityDirectory.retireLocalIdentityKey at accepted
  split at accepted
  · cases accepted
  · rename_i index identity admitted
    obtain ⟨remaining, removed, accepted⟩ := bind_eq_ok.mp accepted
    cases accepted
    obtain ⟨member, before, after, split, rfl⟩ := admitLocalKeyRetirement_eq_ok admitted
    obtain ⟨whole, unlisted⟩ := valid.withoutLocalKey split member removed
    exact (whole.retireAppId_iff request.appId).mpr unlisted

end IdentityDirectory

end Nook.Auth
