import Nook.Auth.IdentityLegacy
import Nook.Auth.IdentityReplication

set_option autoImplicit false

namespace Nook.Auth

open Nook.Lib Nook.EventLog

/-- The apps that a list of envelopes is addressed to. -/
def recipients (envelopes : List MemberDekEnvelope) : List AppId := envelopes.map (·.appId)

namespace IdentityRecord

def memberIds (record : IdentityRecord) : List AppId := record.members.map (·.appId)

def storeIds (record : IdentityRecord) : List StoreId := record.vaultDeks.map (·.storeId)

theorem hasAppId_eq_true {record : IdentityRecord} {appId : AppId} :
    record.hasAppId appId = true ↔ appId ∈ record.memberIds := by
  simp [hasAppId, memberIds]

theorem ownsVault_eq_true {record : IdentityRecord} {storeId : StoreId} :
    record.ownsVault storeId = true ↔ storeId ∈ record.storeIds := by
  simp [ownsVault, vaultDek, storeIds]

end IdentityRecord

/-! ### Grants of one vault -/

/-- Both lists of a vault name the same apps, each once and each one of `ids`. -/
structure IdentityVaultDek.GrantedTo (vault : IdentityVaultDek) (ids : List AppId) : Prop where
  secrets : (recipients vault.secretsEnvelopes).Nodup
  members : (recipients vault.membersEnvelopes).Nodup
  same : ∀ id, id ∈ recipients vault.secretsEnvelopes ↔ id ∈ recipients vault.membersEnvelopes
  current : ∀ id ∈ recipients vault.secretsEnvelopes, id ∈ ids

namespace IdentityVaultDek

variable {vault : IdentityVaultDek} {ids : List AppId}

theorem GrantedTo.mono (granted : vault.GrantedTo ids) {others : List AppId} (more : ids ⊆ others) :
    vault.GrantedTo others :=
  { granted with current := fun id named => more (granted.current id named) }

theorem GrantedTo.withEpoch (granted : vault.GrantedTo ids) (keyEpoch : IdentityVaultDekEpoch) :
    { vault with keyEpoch : IdentityVaultDek }.GrantedTo ids :=
  ⟨granted.secrets, granted.members, granted.same, granted.current⟩

/-- A vault whose two lists name the same apps in the same order. -/
theorem grantedTo_of_eq (distinct : ids.Nodup) (secrets : recipients vault.secretsEnvelopes = ids)
    (members : recipients vault.membersEnvelopes = ids) {others : List AppId} (more : ids ⊆ others) :
    vault.GrantedTo others := by
  apply GrantedTo.mono _ more
  exact ⟨secrets ▸ distinct, members ▸ distinct, fun id => by rw [secrets, members],
    fun id named => secrets ▸ named⟩

theorem recipients_filter (envelopes : List MemberDekEnvelope) (removed : AppId → Bool) :
    recipients (envelopes.filter fun entry => !removed entry.appId) =
      (recipients envelopes).filter fun id => !removed id := by
  unfold recipients
  rw [List.filter_map]
  rfl

theorem GrantedTo.withoutEnvelopes (granted : vault.GrantedTo ids) (removed : AppId → Bool) :
    (vault.withoutEnvelopes removed).GrantedTo (ids.filter fun id => !removed id) := by
  unfold IdentityVaultDek.withoutEnvelopes
  constructor
  · rw [recipients_filter]
    exact granted.secrets.filter _
  · rw [recipients_filter]
    exact granted.members.filter _
  · intro id
    simp only [recipients_filter, List.mem_filter, granted.same]
  · intro id named
    rw [recipients_filter, List.mem_filter] at named
    rw [List.mem_filter]
    exact ⟨granted.current id named.1, named.2⟩

section Sealing

variable [Age]

/-- Wrapping addresses both lists to the members, in their order. -/
theorem wrapVaultKeysForMembers_eq_ok {keys : VaultKeys} {members : List IdentityMember}
    {storeId : StoreId} {entropy : Entropy}
    (wrapped : wrapVaultKeysForMembers keys members storeId entropy = .ok vault) :
    vault.storeId = storeId ∧ recipients vault.secretsEnvelopes = members.map (·.appId) ∧
      recipients vault.membersEnvelopes = members.map (·.appId) := by
  obtain ⟨envelopes, collected, same⟩ := bind_eq_ok.mp wrapped
  cases same
  have names : ∀ (member : IdentityMember × Nat) (sealed : MemberDekEnvelope × MemberDekEnvelope),
      wrapVaultKeys keys entropy member = .ok sealed →
        sealed.1.appId = member.1.appId ∧ sealed.2.appId = member.1.appId := by
    intro member sealed made
    obtain ⟨secrets, _, made⟩ := bind_eq_ok.mp made
    obtain ⟨others, _, made⟩ := bind_eq_ok.mp made
    cases made
    exact ⟨rfl, rfl⟩
  have order : members.zipIdx.map (fun member => member.1.appId) = members.map (·.appId) := by
    calc members.zipIdx.map (fun member => member.1.appId)
      _ = (members.zipIdx.map Prod.fst).map (·.appId) := by rw [List.map_map]; rfl
      _ = members.map (·.appId) := by rw [List.zipIdx_map_fst]
  refine ⟨rfl, ?_, ?_⟩
  · rw [← order, recipients, List.map_map]
    exact map_mapM_eq_ok (fun member sealed made => (names member sealed made).1) collected
  · rw [← order, recipients, List.map_map]
    exact map_mapM_eq_ok (fun member sealed made => (names member sealed made).2) collected

end Sealing

end IdentityVaultDek

/-! ### Grants of a record -/

/-- A vault is held once, and its envelopes go to current members only. -/
structure IdentityRecord.GrantsCurrent (record : IdentityRecord) : Prop where
  members : record.memberIds.Nodup
  stores : record.storeIds.Nodup
  vaults : ∀ vault ∈ record.vaultDeks, vault.GrantedTo record.memberIds

namespace IdentityRecord

variable [Age] {record next : IdentityRecord}

omit [Age] in
/-- A record keeps its vaults' grants when its members only grow. -/
theorem GrantsCurrent.grow (current : record.GrantsCurrent) (distinct : next.memberIds.Nodup)
    (more : record.memberIds ⊆ next.memberIds) (same : next.vaultDeks = record.vaultDeks) :
    next.GrantsCurrent := by
  refine ⟨distinct, ?_, fun vault held => ?_⟩
  · rw [storeIds, same]
    exact current.stores
  · rw [same] at held
    exact (current.vaults vault held).mono more

omit [Age] in
/-- A vault that the record does not hold joins it. -/
theorem GrantsCurrent.push (current : record.GrantsCurrent) {vault : IdentityVaultDek}
    (fresh : vault.storeId ∉ record.storeIds) (granted : vault.GrantedTo record.memberIds)
    (members : next.memberIds = record.memberIds)
    (vaults : next.vaultDeks = record.vaultDeks ++ [vault]) : next.GrantsCurrent := by
  refine ⟨members ▸ current.members, ?_, ?_⟩
  · rw [storeIds, vaults, List.map_append, List.nodup_append]
    refine ⟨current.stores, by simp, ?_⟩
    intro held inside pushed added same
    simp only [List.map_cons, List.map_nil, List.mem_singleton] at added
    exact fresh (added ▸ same ▸ inside)
  · intro other held
    rw [vaults, List.mem_append, List.mem_singleton] at held
    rw [members]
    rcases held with before | rfl
    · exact current.vaults other before
    · exact granted

omit [Age] in
/-- The vaults change, each under its own store id. -/
theorem GrantsCurrent.replace (current : record.GrantsCurrent)
    (members : next.memberIds = record.memberIds) (stores : next.storeIds = record.storeIds)
    (vaults : ∀ vault ∈ next.vaultDeks,
      vault ∈ record.vaultDeks ∨ vault.GrantedTo record.memberIds) : next.GrantsCurrent := by
  refine ⟨members ▸ current.members, stores ▸ current.stores, fun vault held => ?_⟩
  rw [members]
  rcases vaults vault held with before | granted
  · exact current.vaults vault before
  · exact granted

omit [Age] in
theorem addMember_eq_ok {member : IdentityMember} (accepted : record.addMember member = .ok next) :
    member.appId ∉ record.memberIds ∧ next.memberIds = record.memberIds ++ [member.appId] ∧
      next.vaultDeks = record.vaultDeks ∧ next.identityId = record.identityId := by
  obtain ⟨⟨⟩, unlisted, added⟩ := bind_eq_ok.mp ((rejecting_eq_ok _ _ _).mp accepted)
  cases added
  rw [refuse_eq_ok, ← Bool.not_eq_true, hasAppId_eq_true] at unlisted
  exact ⟨unlisted, by simp [memberIds], rfl, rfl⟩

omit [Age] in
theorem GrantsCurrent.addMember (current : record.GrantsCurrent) {member : IdentityMember}
    (accepted : record.addMember member = .ok next) : next.GrantsCurrent := by
  obtain ⟨unlisted, members, vaults, _⟩ := addMember_eq_ok accepted
  refine current.grow ?_ ?_ vaults
  · rw [members]
    simpa using current.members.concat unlisted
  · rw [members]
    exact List.subset_append_left _ _

omit [Age] in
/-- Removing a member leaves the ids of the others. -/
theorem removeMember_eq_ok {appId : AppId} (accepted : record.removeMember appId = .ok next) :
    ∃ before after, record.memberIds = before ++ appId :: after ∧
      next.memberIds = before ++ after ∧
      next.vaultDeks = record.vaultDeks.map (·.withoutEnvelopes (· = appId)) ∧
      next.identityId = record.identityId := by
  have removed := (rejecting_eq_ok _ _ _).mp accepted
  cases found : record.members.findIdx? (·.appId = appId) with
  | none => simp [found] at removed
  | some index =>
    simp only [found] at removed
    obtain ⟨⟨⟩, several, removed⟩ := bind_eq_ok.mp removed
    cases removed
    obtain ⟨before, member, after, split, place, named, _⟩ := mem_of_findIdx? found
    rw [decide_eq_true_eq] at named
    refine ⟨before.map (·.appId), after.map (·.appId), ?_, ?_, rfl, rfl⟩
    · simp [memberIds, split, named]
    · simp [memberIds, split, ← place, List.eraseIdx_append_of_length_le]

omit [Age] in
theorem GrantsCurrent.removeMember (current : record.GrantsCurrent) {appId : AppId}
    (accepted : record.removeMember appId = .ok next) :
    next.GrantsCurrent ∧ appId ∉ next.memberIds := by
  obtain ⟨before, after, listed, left, vaults, _⟩ := removeMember_eq_ok accepted
  have distinct := current.members
  rw [listed, List.nodup_middle, List.nodup_cons] at distinct
  have remaining : ∀ id ∈ record.memberIds.filter (fun id => !decide (id = appId)),
      id ∈ next.memberIds := by
    intro id member
    rw [listed] at member
    rw [left]
    simp only [List.mem_filter, List.mem_append, List.mem_cons, Bool.not_eq_true',
      decide_eq_false_iff_not] at member
    simp only [List.mem_append]
    tauto
  refine ⟨⟨left ▸ distinct.2, ?_, ?_⟩, left ▸ distinct.1⟩
  · rw [storeIds, vaults, List.map_map]
    exact current.stores
  · intro vault held
    rw [vaults, List.mem_map] at held
    obtain ⟨old, inside, rfl⟩ := held
    exact ((current.vaults old inside).withoutEnvelopes (· = appId)).mono remaining

/-- A generated grant is for a vault not held yet and goes to every member. -/
theorem generateVaultDek_eq_ok {storeId : StoreId} {generated : MultiDeviceResult VaultKeys}
    {entropy : Entropy} {opened : IdentityVaultKeys}
    (accepted : record.generateVaultDek storeId generated entropy = .ok opened) :
    storeId ∉ record.storeIds ∧ ∃ vault, vault.storeId = storeId ∧
      recipients vault.secretsEnvelopes = record.memberIds ∧
      recipients vault.membersEnvelopes = record.memberIds ∧
      opened.identity = { record with
        controlEpoch := record.controlEpoch.next
        vaultDeks := record.vaultDeks ++ [vault] } := by
  obtain ⟨⟨⟩, _, made⟩ := bind_eq_ok.mp ((rejecting_eq_ok _ _ _).mp accepted)
  obtain ⟨⟨⟩, unheld, made⟩ := bind_eq_ok.mp made
  obtain ⟨keys, _, made⟩ := bind_eq_ok.mp made
  obtain ⟨vault, wrapped, made⟩ := bind_eq_ok.mp made
  cases made
  obtain ⟨named, secrets, members⟩ := IdentityVaultDek.wrapVaultKeysForMembers_eq_ok wrapped
  refine ⟨?_, vault, named, secrets, members, rfl⟩
  rw [refuse_eq_ok] at unheld
  simpa [storeIds] using unheld

theorem GrantsCurrent.generateVaultDek (current : record.GrantsCurrent) {storeId : StoreId}
    {generated : MultiDeviceResult VaultKeys} {entropy : Entropy} {opened : IdentityVaultKeys}
    (accepted : record.generateVaultDek storeId generated entropy = .ok opened) :
    opened.identity.GrantsCurrent := by
  obtain ⟨unheld, vault, named, secrets, members, same⟩ := generateVaultDek_eq_ok accepted
  rw [same]
  refine current.push (named ▸ unheld) ?_ rfl rfl
  exact IdentityVaultDek.grantedTo_of_eq current.members secrets members (List.Subset.refl _)

/-! ### Replaced grants -/

omit [Age] in
theorem storeIds_of_findIdx? {storeId : StoreId} {index : Nat}
    (found : record.vaultDeks.findIdx? (·.storeId = storeId) = some index) :
    record.storeIds[index]? = some storeId := by
  obtain ⟨before, vault, after, split, place, named, _⟩ := mem_of_findIdx? found
  rw [decide_eq_true_eq] at named
  simp [storeIds, split, ← place, named]

omit [Age] in
theorem vaultDek_eq_some {storeId : StoreId} {vault : IdentityVaultDek}
    (held : record.vaultDek storeId = some vault) :
    vault ∈ record.vaultDeks ∧ vault.storeId = storeId := by
  refine ⟨List.mem_of_find?_eq_some held, ?_⟩
  simpa using List.find?_some held

/-- A reconciliation and an import wrap the keys to members of the record. -/
theorem reconciledMembers_eq_ok {appKey : AppKey} {reconciliation : IdentityVaultDekReconciliation}
    {unauthorized : String} {authorized : List IdentityMember}
    (accepted : record.reconciledMembers appKey reconciliation unauthorized = .ok authorized) :
    (authorized.map (·.appId)).Sublist record.memberIds := by
  obtain ⟨⟨⟩, _, same⟩ := bind_eq_ok.mp accepted
  cases same
  exact List.filter_sublist.map _

omit [Age] in
/-- A vault whose grant was wrapped to members of the record. -/
theorem GrantsCurrent.wrapped (current : record.GrantsCurrent) {vault : IdentityVaultDek}
    {ids : List AppId} (authorized : ids.Sublist record.memberIds)
    (secrets : recipients vault.secretsEnvelopes = ids)
    (members : recipients vault.membersEnvelopes = ids) : vault.GrantedTo record.memberIds :=
  IdentityVaultDek.grantedTo_of_eq (authorized.nodup current.members) secrets members
    authorized.subset

/-- A reconciliation replaces the grant of its vault at most. -/
theorem reconcileLegacyVaultMember_eq_ok {request : IdentityLegacyVaultReconciliation}
    {entropy : Entropy} (accepted : record.reconcileLegacyVaultMember request entropy = .ok next) :
    next = record ∨ ∃ index vault ids, record.storeIds[index]? = some vault.storeId ∧
      ids.Sublist record.memberIds ∧ recipients vault.secretsEnvelopes = ids ∧
      recipients vault.membersEnvelopes = ids ∧
      next = { record with
        vaultDeks := record.vaultDeks.set index vault
        controlEpoch := record.controlEpoch.next } := by
  obtain ⟨member, _, done⟩ := bind_eq_ok.mp ((rejecting_eq_ok _ _ _).mp accepted)
  split at done
  · rename_i index vault found held
    obtain ⟨nextEpoch, _, done⟩ := bind_eq_ok.mp done
    obtain ⟨keys, _, done⟩ := bind_eq_ok.mp done
    obtain ⟨authorized, listed, done⟩ := bind_eq_ok.mp done
    split at done
    · left
      cases done
      rfl
    · obtain ⟨rewrapped, wrapped, done⟩ := bind_eq_ok.mp done
      cases done
      unfold storeGrant
      split
      · exact Or.inl rfl
      · right
        obtain ⟨named, secrets, members⟩ := IdentityVaultDek.wrapVaultKeysForMembers_eq_ok wrapped
        refine ⟨index, { rewrapped with keyEpoch := nextEpoch }, _, ?_,
          reconciledMembers_eq_ok listed, secrets, members, rfl⟩
        show record.storeIds[index]? = some rewrapped.storeId
        rw [named]
        exact storeIds_of_findIdx? found
  · cases done

theorem GrantsCurrent.reconcileLegacyVaultMember (current : record.GrantsCurrent)
    {request : IdentityLegacyVaultReconciliation} {entropy : Entropy}
    (accepted : record.reconcileLegacyVaultMember request entropy = .ok next) :
    next.GrantsCurrent := by
  rcases reconcileLegacyVaultMember_eq_ok accepted with rfl | ⟨index, vault, ids, placed, authorized,
    secrets, members, rfl⟩
  · exact current
  · refine current.replace rfl (map_set_eq placed) fun other held => ?_
    rcases List.mem_or_eq_of_mem_set held with before | rfl
    · exact Or.inl before
    · exact Or.inr (current.wrapped authorized secrets members)

/-- An import adds a vault, whether the record holds one of that id or not. -/
theorem importLegacyVault_eq_ok {request : IdentityLegacyVaultReconciliation} {entropy : Entropy}
    (accepted : record.importLegacyVault request entropy = .ok next) :
    ∃ vault ids, vault.storeId = request.storeId ∧ ids.Sublist record.memberIds ∧
      recipients vault.secretsEnvelopes = ids ∧ recipients vault.membersEnvelopes = ids ∧
      next = { record with
        vaultDeks := record.vaultDeks ++ [vault]
        controlEpoch := record.controlEpoch.next } := by
  obtain ⟨member, _, done⟩ := bind_eq_ok.mp ((rejecting_eq_ok _ _ _).mp accepted)
  obtain ⟨keys, _, done⟩ := bind_eq_ok.mp done
  obtain ⟨authorized, listed, done⟩ := bind_eq_ok.mp done
  obtain ⟨wrapped, made, done⟩ := bind_eq_ok.mp done
  cases done
  obtain ⟨named, secrets, members⟩ := IdentityVaultDek.wrapVaultKeysForMembers_eq_ok made
  exact ⟨{ wrapped with keyEpoch := request.reconciliation.epochUpdate.committedEpoch }, _, named,
    reconciledMembers_eq_ok listed, secrets, members, rfl⟩

/-- An import keeps a vault held once exactly when the record did not hold it. -/
theorem GrantsCurrent.importLegacyVault_iff (current : record.GrantsCurrent)
    {request : IdentityLegacyVaultReconciliation} {entropy : Entropy}
    (accepted : record.importLegacyVault request entropy = .ok next) :
    next.GrantsCurrent ↔ record.ownsVault request.storeId = false := by
  obtain ⟨vault, ids, named, authorized, secrets, members, rfl⟩ := importLegacyVault_eq_ok accepted
  rw [← Bool.not_eq_true, ownsVault_eq_true]
  constructor
  · intro whole held
    have stores := whole.stores
    rw [storeIds, List.map_append, List.nodup_append] at stores
    exact stores.2.2 _ held _ (by simp [named]) rfl
  · intro unheld
    exact current.push (named ▸ unheld) (current.wrapped authorized secrets members) rfl rfl

omit [Age] in
/-- The current recipients of a grant, in the order of its envelopes. -/
theorem authorizedMembers_eq_ok {grant : IdentityVaultDek} {authorized : List IdentityMember}
    (accepted : record.authorizedMembers grant = .ok authorized) :
    authorized.map (·.appId) = recipients grant.secretsEnvelopes := by
  apply map_mapM_eq_ok _ accepted
  intro entry member found
  split at found
  · rename_i candidate listed
    cases found
    simpa using List.find?_some listed
  · cases found

/-- What a grant puts in the place of a vault: the same vault, whose recipients are the current
ones and the new member. -/
structure Replaces (record : IdentityRecord) (member : IdentityMember)
    (replacement : Nat × IdentityVaultDek) : Prop where
  placed : record.storeIds[replacement.1]? = some replacement.2.storeId
  granted : replacement.2.GrantedTo (member.appId :: record.memberIds)
  reaches : member.appId ∈ recipients replacement.2.secretsEnvelopes

omit [Age] in
/-- The recipients of a vault with one more member, each once. -/
theorem extended_recipients (authorized : List IdentityMember) (member : IdentityMember)
    (distinct : (authorized.map (·.appId)).Nodup) :
    let ids := (if authorized.all (·.appId ≠ member.appId) then authorized ++ [member]
      else authorized).map (·.appId)
    ids.Nodup ∧ member.appId ∈ ids ∧ ids ⊆ member.appId :: authorized.map (·.appId) := by
  intro ids
  by_cases absent : authorized.all (fun candidate => decide (candidate.appId ≠ member.appId)) = true
  · have extended : ids = authorized.map (·.appId) ++ [member.appId] := by
      simp only [ids, if_pos absent, List.map_append, List.map_cons, List.map_nil]
    have fresh : member.appId ∉ authorized.map (·.appId) := by simpa [List.all_eq_true] using absent
    rw [extended]
    exact ⟨by simpa using distinct.concat fresh, by simp, by simp⟩
  · have kept : ids = authorized.map (·.appId) := by simp only [ids, if_neg absent]
    rw [kept]
    refine ⟨distinct, ?_, List.subset_cons_self _ _⟩
    simpa [List.all_eq_true] using absent

theorem GrantsCurrent.grantReplacement (current : record.GrantsCurrent) {member : IdentityMember}
    {storeId : StoreId} {keys : VaultKeys} {entropy : Entropy} {replacement : Nat × IdentityVaultDek}
    (accepted : record.grantReplacement member storeId keys entropy = .ok replacement) :
    record.Replaces member replacement := by
  unfold IdentityRecord.grantReplacement at accepted
  split at accepted
  · rename_i index grant found held
    obtain ⟨⟨⟩, _, done⟩ := bind_eq_ok.mp accepted
    obtain ⟨authorized, listed, done⟩ := bind_eq_ok.mp done
    obtain ⟨wrapped, made, done⟩ := bind_eq_ok.mp done
    cases done
    obtain ⟨named, secrets, members⟩ := IdentityVaultDek.wrapVaultKeysForMembers_eq_ok made
    have before := authorizedMembers_eq_ok listed
    have grants := current.vaults grant (vaultDek_eq_some held).1
    obtain ⟨distinct, reached, known⟩ :=
      extended_recipients authorized member (before ▸ grants.secrets)
    have inside : member.appId :: authorized.map (·.appId) ⊆ member.appId :: record.memberIds := by
      rw [before]
      exact List.cons_subset_cons _ grants.current
    constructor
    · show record.storeIds[index]? = some wrapped.storeId
      rw [named]
      exact storeIds_of_findIdx? found
    · apply IdentityVaultDek.GrantedTo.withEpoch
      exact IdentityVaultDek.grantedTo_of_eq distinct secrets members (List.Subset.trans known inside)
    · show member.appId ∈ recipients wrapped.secretsEnvelopes
      rw [secrets]
      exact reached
  · cases accepted

theorem grantMemberToVaults_eq_ok (current : record.GrantsCurrent)
    {request : IdentityMemberVaultGrant} {entropy : Nat → Entropy}
    (accepted : record.grantMemberToVaults request entropy = .ok next) :
    ∃ replacements : List (Nat × IdentityVaultDek),
      (∀ replacement ∈ replacements, record.Replaces request.member replacement) ∧
      replacements.length = request.keysByStore.length ∧ next = { record with
        vaultDeks := replacements.foldl (fun vaults replacement =>
          vaults.set replacement.1 replacement.2) record.vaultDeks
        controlEpoch :=
          if request.keysByStore.isEmpty then record.controlEpoch else record.controlEpoch.next } := by
  obtain ⟨replacements, made, done⟩ := bind_eq_ok.mp ((rejecting_eq_ok _ _ _).mp accepted)
  cases done
  refine ⟨replacements, fun replacement member => ?_, ?_, rfl⟩
  · obtain ⟨⟨⟨storeId, keys⟩, turn⟩, _, stepped⟩ := (mem_of_mapM_eq_ok made).mp member
    exact current.grantReplacement stepped
  · have same : replacements.map (fun _ => ()) = request.keysByStore.zipIdx.map (fun _ => ()) :=
      map_mapM_eq_ok (fun _ _ _ => rfl) made
    simpa using congrArg List.length same

/-- A grant goes to current members exactly when it names no vault or its member is one. -/
theorem GrantsCurrent.grantMemberToVaults_iff (current : record.GrantsCurrent)
    {request : IdentityMemberVaultGrant} {entropy : Nat → Entropy}
    (accepted : record.grantMemberToVaults request entropy = .ok next) :
    next.GrantsCurrent ↔
      request.keysByStore = [] ∨ request.member.appId ∈ record.memberIds := by
  obtain ⟨replacements, replaces, length, rfl⟩ := grantMemberToVaults_eq_ok current accepted
  constructor
  · intro whole
    rcases List.eq_nil_or_concat replacements with none | ⟨earlier, last, split⟩
    · left
      rw [none] at length
      exact List.length_eq_zero_iff.mp length.symm
    · right
      have final := replaces last (by simp [split])
      have stored : last.2 ∈ replacements.foldl (fun vaults replacement =>
          vaults.set replacement.1 replacement.2) record.vaultDeks := by
        obtain ⟨bound, _⟩ := List.getElem?_eq_some_iff.mp final.placed
        rw [storeIds, List.length_map] at bound
        rw [split, List.concat_eq_append]
        exact last_mem_foldl_set earlier bound
      exact (whole.vaults last.2 stored).current _ final.reaches
  · intro grounded
    refine current.replace rfl (map_foldl_set fun replacement member =>
      (replaces replacement member).placed) fun vault held => ?_
    rcases mem_foldl_set held with before | ⟨replacement, member, rfl⟩
    · exact Or.inl before
    · right
      rcases grounded with none | listed
      · rw [none] at length
        rw [List.length_eq_zero_iff.mp length] at member
        cases member
      · apply (replaces replacement member).granted.mono
        intro id named
        rcases List.mem_cons.mp named with rfl | inside
        · exact listed
        · exact inside

end IdentityRecord

/-! ### Replicated membership -/

/-- A vault whose envelopes of one app were replaced by new ones. -/
theorem IdentityVaultDek.GrantedTo.fillGrant {vault : IdentityVaultDek} {ids : List AppId}
    (granted : vault.GrantedTo ids) {secrets members : MemberDekEnvelope} {ownAppId : AppId}
    (own : ownAppId ∈ ids) (addressed : secrets.appId = ownAppId ∧ members.appId = ownAppId) :
    (MirroredRecord.fillGrant ownAppId secrets members vault).GrantedTo ids := by
  have kept := granted.withoutEnvelopes (· = ownAppId)
  have left : ∀ {id}, id ∈ ids.filter (fun id => !decide (id = ownAppId)) → id ≠ ownAppId := by
    intro id member same
    simp [same] at member
  have secretsIds : recipients (MirroredRecord.fillGrant ownAppId secrets members vault).secretsEnvelopes =
      recipients (vault.withoutEnvelopes (· = ownAppId)).secretsEnvelopes ++ [ownAppId] := by
    simp [MirroredRecord.fillGrant, recipients, addressed.1]
  have membersIds : recipients (MirroredRecord.fillGrant ownAppId secrets members vault).membersEnvelopes =
      recipients (vault.withoutEnvelopes (· = ownAppId)).membersEnvelopes ++ [ownAppId] := by
    simp [MirroredRecord.fillGrant, recipients, addressed.2]
  constructor
  · rw [secretsIds]
    simpa using kept.secrets.concat fun named => left (kept.current ownAppId named) rfl
  · rw [membersIds]
    simpa using kept.members.concat fun named =>
      left (kept.current ownAppId ((kept.same ownAppId).mpr named)) rfl
  · intro id
    rw [secretsIds, membersIds, List.mem_append, List.mem_append, kept.same]
  · intro id named
    rw [secretsIds, List.mem_append, List.mem_singleton] at named
    rcases named with before | rfl
    · exact (List.mem_filter.mp (kept.current id before)).1
    · exact own

namespace MirroredRecord

variable {mirrored next : MirroredRecord}

/-- Mirroring a member refreshes it, or adds it when it is new. -/
theorem mirrorMember_eq_ok {replicated : IdentityMember}
    (accepted : mirrored.mirrorMember replicated = .ok next) :
    next.record.vaultDeks = mirrored.record.vaultDeks ∧
      (next.record.memberIds = mirrored.record.memberIds ∨
        replicated.appId ∉ mirrored.record.memberIds ∧
          next.record.memberIds = mirrored.record.memberIds ++ [replicated.appId]) := by
  dsimp only [mirrorMember] at accepted
  split at accepted
  · rename_i absent
    cases accepted
    refine ⟨rfl, Or.inr ⟨?_, by simp [IdentityRecord.memberIds]⟩⟩
    simpa [IdentityRecord.memberIds] using absent
  · split at accepted
    · cases accepted
    · split at accepted
      · cases accepted
        refine ⟨rfl, Or.inl ?_⟩
        apply map_updateFirst
        exact fun _ _ => rfl
      · cases accepted
        exact ⟨rfl, Or.inl rfl⟩

/-- A mirrored record keeps its grants, and its members only grow. -/
theorem mirrorMember_keeps {replicated : IdentityMember} {base : List AppId}
    (holds : mirrored.record.GrantsCurrent ∧ base ⊆ mirrored.record.memberIds)
    (accepted : mirrored.mirrorMember replicated = .ok next) :
    next.record.GrantsCurrent ∧ base ⊆ next.record.memberIds := by
  obtain ⟨vaults, same | ⟨absent, added⟩⟩ := mirrorMember_eq_ok accepted
  · rw [same]
    exact ⟨holds.1.replace same (by rw [IdentityRecord.storeIds, vaults, IdentityRecord.storeIds])
      (vaults ▸ fun vault held => Or.inl held), holds.2⟩
  · have more : mirrored.record.memberIds ⊆ next.record.memberIds := by
      rw [added]
      exact List.subset_append_left _ _
    refine ⟨holds.1.grow ?_ more vaults, List.Subset.trans holds.2 more⟩
    rw [added]
    simpa using holds.1.members.concat absent

theorem memberIds_prune (request : ReplicatedIdentityMembership) :
    (mirrored.prune request).record.memberIds =
      mirrored.record.memberIds.filter (· ∉ request.revoked) := by
  simp only [prune, IdentityRecord.memberIds, List.filter_map]
  rfl

/-- Pruning leaves no envelope of a revoked app. -/
theorem prune_keeps (current : mirrored.record.GrantsCurrent)
    (request : ReplicatedIdentityMembership) : (mirrored.prune request).record.GrantsCurrent := by
  constructor
  · rw [memberIds_prune]
    exact current.members.filter _
  · refine current.stores.sublist ?_
    simp only [MirroredRecord.prune, IdentityRecord.storeIds]
    have kept := (List.filter_sublist (p := fun vault : IdentityVaultDek =>
      decide (vault.storeId ∉ request.removedVaults)) (l := mirrored.record.vaultDeks.map
        (·.withoutEnvelopes (· ∈ request.revoked)))).map IdentityVaultDek.storeId
    rw [List.map_map] at kept
    exact kept
  · intro vault held
    rw [memberIds_prune]
    simp only [MirroredRecord.prune, List.mem_filter, List.mem_map] at held
    obtain ⟨⟨old, inside, rfl⟩, _⟩ := held
    apply ((current.vaults old inside).withoutEnvelopes _).mono
    intro id named
    simpa using named

section Caching

variable [Age]

theorem cacheGrant_keeps {request : ReplicatedIdentityMembership} {grant : ReplicatedVaultGrant}
    {ids : List AppId} (own : request.appKey.appId ∈ ids)
    (holds : mirrored.record.GrantsCurrent ∧ mirrored.record.memberIds = ids)
    (accepted : cacheGrant request mirrored grant = .ok next) :
    next.record.GrantsCurrent ∧ next.record.memberIds = ids := by
  obtain ⟨current, members⟩ := holds
  unfold cacheGrant at accepted
  split at accepted
  · cases accepted
    exact ⟨current, members⟩
  · obtain ⟨secretsKey, _, done⟩ := bind_eq_ok.mp accepted
    obtain ⟨membersKey, _, done⟩ := bind_eq_ok.mp done
    dsimp only at done
    split at done
    · rename_i absent
      cases done
      refine ⟨current.push ?_ ?_ rfl rfl, members⟩
      · rw [← IdentityRecord.ownsVault_eq_true, IdentityRecord.ownsVault, absent]
        simp
      · refine IdentityVaultDek.grantedTo_of_eq (List.nodup_singleton request.appKey.appId) rfl rfl ?_
        simpa [members] using own
    · split at done
      · cases done
        exact ⟨current, members⟩
      · cases done
        refine ⟨current.replace rfl ?_ fun vault held => ?_, members⟩
        · apply map_updateFirst
          exact fun _ _ => rfl
        · rcases mem_updateFirst held with before | ⟨old, inside, _, rfl⟩
          · exact Or.inl before
          · exact Or.inr ((current.vaults old inside).fillGrant (members ▸ own) ⟨rfl, rfl⟩)

end Caching

end MirroredRecord

namespace IdentityRecord

variable [Age] {record next : IdentityRecord}

theorem boundMember_eq_ok {appKey : AppKey} {member : IdentityMember}
    (bound : record.boundMember appKey = .ok member) : appKey.appId ∈ record.memberIds := by
  unfold boundMember at bound
  split at bound
  · cases bound
  · rename_i found
    have listed := List.mem_of_find?_eq_some found
    have named := List.find?_some found
    rw [decide_eq_true_eq] at named
    exact named ▸ List.mem_map_of_mem listed

/-- A replicated membership keeps the grants current and drops the revoked members. -/
theorem GrantsCurrent.applyReplicatedMembership (current : record.GrantsCurrent)
    {mirror : MembershipMirror} (accepted : record.applyReplicatedMembership mirror = .ok next) :
    next.GrantsCurrent ∧ ∀ id ∈ mirror.request.revoked, id ∉ next.memberIds := by
  obtain ⟨⟨⟩, unrevoked, done⟩ := bind_eq_ok.mp accepted
  obtain ⟨own, bound, done⟩ := bind_eq_ok.mp done
  obtain ⟨mirrored, members, done⟩ := bind_eq_ok.mp done
  obtain ⟨cached, grants, done⟩ := bind_eq_ok.mp done
  rw [refuse_eq_ok, decide_eq_false_iff_not] at unrevoked
  obtain ⟨mirroredCurrent, grown⟩ : mirrored.record.GrantsCurrent ∧
      record.memberIds ⊆ mirrored.record.memberIds := foldlM_keeps
    (fun replicated _ _ _ holds stepped => MirroredRecord.mirrorMember_keeps holds stepped)
    ⟨current, List.Subset.refl _⟩ members
  have kept : mirror.request.appKey.appId ∈ (mirrored.prune mirror.request).record.memberIds := by
    rw [MirroredRecord.memberIds_prune, List.mem_filter, decide_eq_true_eq]
    exact ⟨grown (boundMember_eq_ok bound), unrevoked⟩
  obtain ⟨cachedCurrent, same⟩ := foldlM_keeps
    (fun grant _ _ _ holds stepped => MirroredRecord.cacheGrant_keeps kept holds stepped)
    ⟨MirroredRecord.prune_keeps mirroredCurrent mirror.request, rfl⟩ grants
  have gone : ∀ id ∈ mirror.request.revoked, id ∉ cached.record.memberIds := by
    intro id revoked
    rw [same, MirroredRecord.memberIds_prune, List.mem_filter, decide_eq_true_eq]
    exact fun listed => listed.2 revoked
  split at done
  · cases done
    exact ⟨⟨cachedCurrent.members, cachedCurrent.stores, cachedCurrent.vaults⟩, gone⟩
  · cases done
    exact ⟨cachedCurrent, gone⟩

end IdentityRecord

end Nook.Auth
