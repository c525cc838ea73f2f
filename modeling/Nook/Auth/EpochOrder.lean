import Nook.Auth.VaultGrants
import Nook.EventLog.Canonical
import Nook.EventLog.Graph
import Nook.Replication.CausalGraphAncestry

set_option autoImplicit false

namespace Nook.Auth

open Nook.Lib Nook.EventLog

/-- The event of a vault that an identity names. -/
def IdentityVaultEventId.event (id : IdentityVaultEventId) : EventId := ⟨id.asStr⟩

/-- Whether an epoch stays at or causally follows another one. A known epoch is not
followed by an unknown one. -/
def IdentityVaultDekEpoch.Precedes (graph : EventGraph) :
    IdentityVaultDekEpoch → IdentityVaultDekEpoch → Prop
  | legacyUnknown, _ => True
  | known _ _, legacyUnknown => False
  | known _ checkpoint, known _ next =>
    checkpoint = next ∨ graph.isAncestor checkpoint.event next.event = true

/-- The ancestors that an update lists are ancestors of its checkpoint. -/
def IdentityVaultDekEpochUpdate.Truthful (graph : EventGraph) :
    IdentityVaultDekEpochUpdate → Prop
  | observe (.known _ checkpoint) ancestors | rotate _ ancestors _ checkpoint =>
    ∀ id ∈ ancestors, graph.isAncestor id.event checkpoint.event = true
  | observe .legacyUnknown _ => True

namespace IdentityVaultDekEpoch

variable {graph : EventGraph} {first second third : IdentityVaultDekEpoch}
  {update : IdentityVaultDekEpochUpdate}

theorem Precedes.refl (graph : EventGraph) (epoch : IdentityVaultDekEpoch) :
    epoch.Precedes graph epoch := by
  cases epoch with
  | legacyUnknown => exact trivial
  | known keyEpoch checkpoint => exact Or.inl rfl

theorem Precedes.trans (before : first.Precedes graph second)
    (after : second.Precedes graph third) : first.Precedes graph third := by
  cases first with
  | legacyUnknown => exact trivial
  | known firstKey firstCheckpoint =>
    cases second with
    | legacyUnknown => exact before.elim
    | known secondKey secondCheckpoint =>
      cases third with
      | legacyUnknown => exact after.elim
      | known thirdKey thirdCheckpoint =>
        rcases before with rfl | before
        · exact after
        · rcases after with rfl | after
          · exact Or.inr before
          · right
            have path := (graph.causal.isAncestor_iff _ _).mp after
            exact (graph.causal.isAncestor_iff _ _).mpr
              (((graph.causal.isAncestor_iff _ _).mp before).trans path)

/-- What an update is accepted with is the epoch it commits. -/
theorem next_eq_ok (accepted : first.next update = .ok second) :
    second = update.committedEpoch := by
  unfold next at accepted
  simp only at accepted
  split at accepted
  · cases accepted
    rfl
  · split at accepted <;> cases accepted
    rfl
  · cases accepted
    rfl
  · split at accepted <;> cases accepted
    rfl
  · cases accepted

/-- An accepted update stays at the stored checkpoint or follows it. -/
theorem Precedes.next (truthful : update.Truthful graph)
    (accepted : first.next update = .ok second) : first.Precedes graph second := by
  unfold IdentityVaultDekEpoch.next at accepted
  simp only at accepted
  split at accepted
  · exact trivial
  · split at accepted
    · rename_i follows
      cases accepted
      exact follows.2.imp id fun listed => truthful _ listed
    · cases accepted
  · exact trivial
  · split at accepted
    · rename_i follows
      cases accepted
      rcases follows with ⟨_, listed⟩ | ⟨_, follows⟩
      · exact Or.inr (truthful _ listed)
      · exact follows.imp id fun listed => truthful _ listed
    · cases accepted
  · cases accepted

/-- The epoch an update commits is accepted again with it. -/
theorem next_committed (update : IdentityVaultDekEpochUpdate) :
    update.committedEpoch.next update = .ok update.committedEpoch := by
  cases update with
  | observe keyEpoch ancestors =>
    cases keyEpoch with
    | legacyUnknown => rfl
    | known keyEpoch checkpoint => exact if_pos ⟨rfl, Or.inl rfl⟩
  | rotate previous ancestors keyEpoch checkpoint => exact if_pos (Or.inr ⟨rfl, Or.inl rfl⟩)

end IdentityVaultDekEpoch

/-! ### Envelopes of a wrapping -/

/-- What is sealed to a public key is opened by its identity. -/
def Age.Opens [Age] : Prop := ∀ identity plaintext entropy sealed,
  Age.sealBytes (Age.toPublic identity) plaintext entropy = .ok sealed →
    Age.openIdentityBytes sealed identity = .ok plaintext

theorem SymmetricKey.parse_asStr {raw : Str} {key : SymmetricKey} (parsed : parse raw = .ok key) :
    parse key.asStr = .ok key := by
  unfold parse at parsed ⊢
  simp only at parsed ⊢
  split at parsed
  · cases parsed
  · rename_i valid
    cases parsed
    simp only [trim_trim, valid, if_false]

/-- One of several entries of distinct apps. -/
theorem length_filter_recipient {envelopes : List MemberDekEnvelope} {appId : AppId}
    (distinct : (recipients envelopes).Nodup) (named : appId ∈ recipients envelopes) :
    (envelopes.filter (·.appId = appId)).length = 1 := by
  have once := List.count_eq_one_of_mem distinct named
  rw [recipients, List.count, List.countP_map, List.countP_eq_length_filter] at once
  rw [← once]
  congr 1

namespace IdentityVaultDek

variable [Age] {keys : VaultKeys} {members : List IdentityMember} {storeId : StoreId}
  {entropy : Entropy} {vault : IdentityVaultDek} {member : IdentityMember}

/-- The envelopes of a wrapping are sealed to the members they name. -/
theorem sealed_of_wrapped (wrapped : wrapVaultKeysForMembers keys members storeId entropy =
    .ok vault) {entry : MemberDekEnvelope} :
    (entry ∈ vault.secretsEnvelopes → ∃ member ∈ members, member.appId = entry.appId ∧
      ∃ draw, Age.sealBytes member.publicKey keys.secretsKey.asStr draw = .ok entry.envelope) ∧
    (entry ∈ vault.membersEnvelopes → ∃ member ∈ members, member.appId = entry.appId ∧
      ∃ draw, Age.sealBytes member.publicKey keys.membersKey.asStr draw = .ok entry.envelope) := by
  obtain ⟨envelopes, collected, same⟩ := bind_eq_ok.mp wrapped
  cases same
  have each : ∀ pair ∈ envelopes, ∃ member ∈ members, member.appId = pair.1.appId ∧
      member.appId = pair.2.appId ∧
      (∃ draw, Age.sealBytes member.publicKey keys.secretsKey.asStr draw = .ok pair.1.envelope) ∧
      ∃ draw, Age.sealBytes member.publicKey keys.membersKey.asStr draw = .ok pair.2.envelope := by
    intro pair listed
    obtain ⟨⟨member, index⟩, inside, made⟩ := (mem_of_mapM_eq_ok collected).mp listed
    obtain ⟨secrets, first, made⟩ := bind_eq_ok.mp made
    obtain ⟨others, second, made⟩ := bind_eq_ok.mp made
    cases made
    exact ⟨member, List.fst_mem_of_mem_zipIdx inside, rfl, rfl, ⟨_, first⟩, ⟨_, second⟩⟩
  constructor
  · intro listed
    obtain ⟨pair, inside, rfl⟩ := List.mem_map.mp listed
    obtain ⟨member, own, named, _, opened, _⟩ := each pair inside
    exact ⟨member, own, named, opened⟩
  · intro listed
    obtain ⟨pair, inside, rfl⟩ := List.mem_map.mp listed
    obtain ⟨member, own, _, named, _, opened⟩ := each pair inside
    exact ⟨member, own, named, opened⟩

/-- The envelope that names an app key opens to the key that was wrapped. -/
theorem opensTo_of_sealed (opens : Age.Opens) {appKey : AppKey} {key : SymmetricKey} {draw : Str}
    (parsed : SymmetricKey.parse key.asStr = .ok key) {entry : MemberDekEnvelope}
    (made : Age.sealBytes appKey.publicKey key.asStr draw = .ok entry.envelope) :
    opensTo appKey entry key = true := by
  have opened : appKey.decryptEnvelope entry.envelope = .ok key :=
    bind_eq_ok.mpr ⟨key.asStr, opens _ _ _ _ made, parsed⟩
  unfold opensTo
  rw [opened]
  exact decide_eq_true rfl

/-- A grant just wrapped is the one its reconciliation asks for. -/
theorem reconciliationWith_wrapped (opens : Age.Opens) {appKey : AppKey}
    (secretsParsed : SymmetricKey.parse keys.secretsKey.asStr = .ok keys.secretsKey)
    (membersParsed : SymmetricKey.parse keys.membersKey.asStr = .ok keys.membersKey)
    (distinct : (members.map (·.appId)).Nodup) (authorized : member ∈ members)
    (named : member.appId = appKey.appId) (bound : member.publicKey = appKey.publicKey)
    (wrapped : wrapVaultKeysForMembers keys members storeId entropy = .ok vault)
    (keyEpoch : IdentityVaultDekEpoch) :
    ({ vault with keyEpoch := keyEpoch } : IdentityVaultDek).reconciliationWith appKey members keys
      keyEpoch = .current := by
  obtain ⟨_, secrets, others⟩ := wrapVaultKeysForMembers_eq_ok wrapped
  have covers : ∀ envelopes : List MemberDekEnvelope,
      recipients envelopes = members.map (·.appId) → coversMembers members envelopes = true := by
    intro envelopes addressed
    refine List.all_eq_true.mpr fun member listed => decide_eq_true ?_
    apply length_filter_recipient
    · rwa [addressed]
    · rw [addressed]
      exact List.mem_map_of_mem listed
  have length : ∀ envelopes : List MemberDekEnvelope,
      recipients envelopes = members.map (·.appId) → envelopes.length = members.length := by
    intro envelopes addressed
    simpa [recipients] using congrArg List.length addressed
  have own : ∀ envelopes : List MemberDekEnvelope,
      recipients envelopes = members.map (·.appId) →
        ∃ entry ∈ envelopes, envelopes.find? (·.appId = appKey.appId) = some entry ∧
          entry.appId = appKey.appId := by
    intro envelopes addressed
    have listed : appKey.appId ∈ recipients envelopes := by
      rw [addressed, ← named]
      exact List.mem_map_of_mem authorized
    obtain ⟨entry, inside, same⟩ := List.mem_map.mp listed
    cases found : envelopes.find? (·.appId = appKey.appId) with
    | none =>
      have missing := List.find?_eq_none.mp found entry inside
      simp [same] at missing
    | some first =>
      exact ⟨first, List.mem_of_find?_eq_some found, rfl, by simpa using List.find?_some found⟩
  have recipient : ∀ other ∈ members, other.appId = appKey.appId → other = member :=
    fun other listed same =>
      List.inj_on_of_nodup_map distinct listed authorized (same.trans named.symm)
  obtain ⟨first, firstListed, firstFound, firstNamed⟩ := own _ secrets
  obtain ⟨second, secondListed, secondFound, secondNamed⟩ := own _ others
  obtain ⟨sealedTo, listed, same, draw, made⟩ := (sealed_of_wrapped wrapped).1 firstListed
  obtain ⟨sealedTo', listed', same', draw', made'⟩ := (sealed_of_wrapped wrapped).2 secondListed
  rw [recipient sealedTo listed (same.trans firstNamed), bound] at made
  rw [recipient sealedTo' listed' (same'.trans secondNamed), bound] at made'
  have envelopes : appEnvelopes { vault with keyEpoch := keyEpoch } appKey.appId =
      some (first, second) := by
    unfold appEnvelopes
    simp only [firstFound, secondFound]
  unfold reconciliationWith
  rw [if_neg (by simp [length _ secrets, length _ others]),
    if_neg (by simp [covers _ secrets, covers _ others]), envelopes]
  simp only [opensTo_of_sealed opens secretsParsed made,
    opensTo_of_sealed opens membersParsed made', Bool.and_self, if_true]

end IdentityVaultDek

namespace IdentityRecord

variable [Age] {record next : IdentityRecord} {request : IdentityLegacyVaultReconciliation}
  {entropy : Entropy} {graph : EventGraph}

/-- The vault of a request has been reconciled: its grant is the one the request asks for. -/
def ReportsCurrent (record : IdentityRecord) (request : IdentityLegacyVaultReconciliation) : Prop :=
  ∃ member vault keyEpoch keys authorized,
    record.boundMember request.appKey = .ok member ∧
    record.vaultDek request.storeId = some vault ∧
    vault.nextEpoch request.reconciliation.epochUpdate = .ok keyEpoch ∧
    reconciledKeys request.appKey request.reconciliation = .ok keys ∧
    record.reconciledMembers request.appKey request.reconciliation
      "reconciling app key is not authorized for this vault" = .ok authorized ∧
    vault.reconciliationWith request.appKey authorized keys keyEpoch = .current

omit [Age] in
theorem findIdx?_of_vaultDek {storeId : StoreId} {vault : IdentityVaultDek}
    (held : record.vaultDek storeId = some vault) :
    ∃ index, record.vaultDeks.findIdx? (·.storeId = storeId) = some index := by
  have some : (record.vaultDeks.findIdx? (·.storeId = storeId)).isSome = true := by
    rw [List.findIdx?_isSome, List.any_eq_true]
    obtain ⟨listed, named⟩ := vaultDek_eq_some held
    exact ⟨vault, listed, decide_eq_true named⟩
  exact Option.isSome_iff_exists.mp some

theorem reconciledMembers_text {appKey : AppKey} {reconciliation : IdentityVaultDekReconciliation}
    {unauthorized : String} {authorized : List IdentityMember} (other : String)
    (accepted : record.reconciledMembers appKey reconciliation unauthorized = .ok authorized) :
    record.reconciledMembers appKey reconciliation other = .ok authorized := by
  obtain ⟨⟨⟩, allowed, same⟩ := bind_eq_ok.mp accepted
  exact bind_eq_ok.mpr ⟨(), (refuse_eq_ok _ _).mpr ((refuse_eq_ok _ _).mp allowed), same⟩

/-- A vault that has been reconciled stays as it is. -/
theorem ReportsCurrent.again (current : record.ReportsCurrent request) (entropy : Entropy) :
    record.reconcileLegacyVaultMember request entropy = .ok record := by
  obtain ⟨member, vault, keyEpoch, keys, authorized, bound, held, follows, opened, listed, same⟩ :=
    current
  obtain ⟨index, found⟩ := findIdx?_of_vaultDek held
  refine (rejecting_eq_ok _ _ _).mpr (bind_eq_ok.mpr ⟨member, bound, ?_⟩)
  simp only [found, held]
  refine bind_eq_ok.mpr ⟨keyEpoch, follows, bind_eq_ok.mpr ⟨keys, opened, bind_eq_ok.mpr
    ⟨authorized, listed, ?_⟩⟩⟩
  rw [if_pos same]
  rfl

theorem boundMember_key {appKey : AppKey} {member : IdentityMember}
    (bound : record.boundMember appKey = .ok member) :
    member ∈ record.members ∧ member.appId = appKey.appId ∧
      member.publicKey = appKey.publicKey := by
  unfold boundMember at bound
  split at bound
  · cases bound
  · rename_i found
    split at bound
    · cases bound
    · rename_i matching
      cases bound
      unfold IdentityMember.bindingToAppKey at matching
      split at matching
      · rename_i own
        exact ⟨List.mem_of_find?_eq_some found, by simpa using List.find?_some found, own.2⟩
      · exact absurd rfl matching

/-- The keys a reconciliation hands over are well-formed. -/
theorem reconciledKeys_parsed {appKey : AppKey} {reconciliation : IdentityVaultDekReconciliation}
    {keys : VaultKeys} (opened : reconciledKeys appKey reconciliation = .ok keys) :
    SymmetricKey.parse keys.secretsKey.asStr = .ok keys.secretsKey ∧
      SymmetricKey.parse keys.membersKey.asStr = .ok keys.membersKey := by
  obtain ⟨secrets, first, opened⟩ := bind_eq_ok.mp opened
  obtain ⟨members, second, opened⟩ := bind_eq_ok.mp opened
  cases opened
  obtain ⟨_, _, firstParsed⟩ := bind_eq_ok.mp first
  obtain ⟨_, _, secondParsed⟩ := bind_eq_ok.mp second
  exact ⟨SymmetricKey.parse_asStr firstParsed, SymmetricKey.parse_asStr secondParsed⟩

/-- A record whose grant was just wrapped as a request asks reports it current. -/
theorem reportsCurrent_of_wrapped (opens : Age.Opens) (distinct : record.memberIds.Nodup)
    {member : IdentityMember} (bound : record.boundMember request.appKey = .ok member)
    {keys : VaultKeys} (opened : reconciledKeys request.appKey request.reconciliation = .ok keys)
    {authorized : List IdentityMember} {unauthorized : String}
    (listed : record.reconciledMembers request.appKey request.reconciliation unauthorized =
      .ok authorized)
    {rewrapped : IdentityVaultDek}
    (wrapped : IdentityVaultDek.wrapVaultKeysForMembers keys authorized request.storeId entropy =
      .ok rewrapped)
    (members : next.members = record.members)
    (held : next.vaultDek request.storeId = some { rewrapped with
      keyEpoch := request.reconciliation.epochUpdate.committedEpoch }) :
    next.ReportsCurrent request := by
  have bound' : next.boundMember request.appKey = .ok member := by
    unfold boundMember at bound ⊢
    rwa [members]
  have listed' : next.reconciledMembers request.appKey request.reconciliation
      "reconciling app key is not authorized for this vault" = .ok authorized := by
    have same := reconciledMembers_text
      "reconciling app key is not authorized for this vault" listed
    unfold reconciledMembers at same ⊢
    rwa [members]
  obtain ⟨inRecord, named, key⟩ := boundMember_key bound
  obtain ⟨⟨⟩, allowed, same⟩ := bind_eq_ok.mp listed
  cases same
  have among : member ∈ record.members.filter
      (·.authId ∈ request.reconciliation.authorizedAuthIds) := by
    have some := (refuse_eq_ok _ _).mp allowed
    rw [Bool.not_eq_false', List.any_eq_true] at some
    obtain ⟨other, inside, sameApp⟩ := some
    rw [decide_eq_true_eq] at sameApp
    have equal : other = member := List.inj_on_of_nodup_map distinct
      (List.mem_of_mem_filter inside) inRecord (sameApp.trans named.symm)
    rwa [← equal]
  obtain ⟨secretsParsed, membersParsed⟩ := reconciledKeys_parsed opened
  have current := IdentityVaultDek.reconciliationWith_wrapped opens secretsParsed membersParsed
    ((List.filter_sublist.map _).nodup distinct) among named key wrapped
    request.reconciliation.epochUpdate.committedEpoch
  exact ⟨member, _, _, keys, _, bound', held, IdentityVaultDekEpoch.next_committed _, opened,
    listed', current⟩

/-- An accepted reconciliation follows the stored epoch, stores the epoch it commits, and
reports it current from then on. -/
theorem reconcileLegacyVaultMember_current (opens : Age.Opens) (distinct : record.memberIds.Nodup)
    (accepted : record.reconcileLegacyVaultMember request entropy = .ok next) :
    next.members = record.members ∧ next.ReportsCurrent request ∧
      ∃ before after, record.vaultDek request.storeId = some before ∧
        before.nextEpoch request.reconciliation.epochUpdate = .ok after.keyEpoch ∧
        next.vaultDek request.storeId = some after := by
  obtain ⟨member, bound, done⟩ := bind_eq_ok.mp ((rejecting_eq_ok _ _ _).mp accepted)
  split at done
  · rename_i index vault found held
    obtain ⟨nextEpoch, follows, done⟩ := bind_eq_ok.mp done
    obtain ⟨keys, opened, done⟩ := bind_eq_ok.mp done
    obtain ⟨authorized, listed, done⟩ := bind_eq_ok.mp done
    have committed := IdentityVaultDekEpoch.next_eq_ok follows
    split at done
    · rename_i same
      cases done
      have epoch : vault.keyEpoch = nextEpoch := by
        by_contra apart
        unfold IdentityVaultDek.reconciliationWith at same
        rw [if_pos (Or.inl apart)] at same
        cases same
      exact ⟨rfl, ⟨member, vault, nextEpoch, keys, authorized, bound, held, follows, opened, listed,
        same⟩, vault, vault, held, epoch ▸ follows, held⟩
    · obtain ⟨rewrapped, wrapped, done⟩ := bind_eq_ok.mp done
      cases done
      have named := (IdentityVaultDek.wrapVaultKeysForMembers_eq_ok wrapped).1
      have replaced : (record.storeGrant index vault { rewrapped with keyEpoch := nextEpoch }).vaultDek
          request.storeId = some { rewrapped with keyEpoch := nextEpoch } := by
        unfold storeGrant
        split
        · rename_i same
          rwa [← same]
        · exact find?_set found (decide_eq_true named)
      have members : (record.storeGrant index vault
          { rewrapped with keyEpoch := nextEpoch }).members = record.members := by
        unfold storeGrant
        split <;> rfl
      refine ⟨members, ?_, vault, _, held, follows, replaced⟩
      rw [committed] at replaced members ⊢
      exact reportsCurrent_of_wrapped opens distinct bound opened listed wrapped members replaced
  · cases done

/-- An import of a vault that is not held yet is reported current from then on. -/
theorem importLegacyVault_current (opens : Age.Opens) (distinct : record.memberIds.Nodup)
    (unheld : record.vaultDek request.storeId = none)
    (accepted : record.importLegacyVault request entropy = .ok next) :
    next.ReportsCurrent request := by
  obtain ⟨member, bound, done⟩ := bind_eq_ok.mp ((rejecting_eq_ok _ _ _).mp accepted)
  obtain ⟨keys, opened, done⟩ := bind_eq_ok.mp done
  obtain ⟨authorized, listed, done⟩ := bind_eq_ok.mp done
  obtain ⟨rewrapped, wrapped, done⟩ := bind_eq_ok.mp done
  cases done
  have named := (IdentityVaultDek.wrapVaultKeysForMembers_eq_ok wrapped).1
  refine reportsCurrent_of_wrapped opens distinct bound opened listed wrapped rfl ?_
  unfold vaultDek at unheld ⊢
  rw [List.find?_append, unheld]
  simp [named]

end IdentityRecord

end Nook.Auth
