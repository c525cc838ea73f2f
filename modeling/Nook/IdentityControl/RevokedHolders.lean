import Nook.IdentityControl.GrantHistory
import Nook.IdentityControl.AdmittedMembers
import Nook.IdentityControl.PartialLog
import Nook.IdentityControl.TestSupport

set_option autoImplicit false

namespace Nook.IdentityControl

open Nook.Lib Nook.Replication Nook.EventLog Relation

/-- Revoked members that hold this vault's DEK at `keyEpoch`. -/
def IdentityControlVault.revokedHolders (vault : IdentityControlVault) (keyEpoch : EventId) :
    List AppId :=
  match vault.epochs.find? fun epoch => epoch.keyEpoch = keyEpoch with
  | none => []
  | some epoch => epoch.revokedHolders

/-- A vault at its own current key epoch, checked against the members the
identity revoked. -/
structure VaultRevokedHolders where
  state : IdentityControlState
  storeId : StoreId
  keyEpoch : EventId

/-- Whether a vault must rotate for a revoked member that holds its DEK. -/
inductive VaultHolderRotation where
  | notDue
  | due (appId : AppId)
  deriving DecidableEq

def VaultRevokedHolders.rotation (holders : VaultRevokedHolders) : VaultHolderRotation :=
  match (holders.state.vault holders.storeId).bind fun vault =>
      (vault.revokedHolders holders.keyEpoch).head? with
  | none => .notDue
  | some appId => .due appId

theorem VaultRevokedHolders.rotation_eq_due {holders : VaultRevokedHolders} {appId : AppId} :
    holders.rotation = .due appId ↔ ∃ vault, holders.state.vault holders.storeId = some vault ∧
      (vault.revokedHolders holders.keyEpoch).head? = some appId := by
  unfold rotation
  rw [← Option.bind_eq_some_iff]
  cases (holders.state.vault holders.storeId).bind fun vault =>
      (vault.revokedHolders holders.keyEpoch).head? with
  | none => simp
  | some first => simp

/-- A rotation is due exactly when the epoch has a revoked holder. -/
theorem VaultRevokedHolders.exists_due {holders : VaultRevokedHolders}
    {vault : IdentityControlVault} (found : holders.state.vault holders.storeId = some vault) :
    (∃ appId, holders.rotation = .due appId) ↔
      ∃ appId, appId ∈ vault.revokedHolders holders.keyEpoch := by
  constructor
  · intro ⟨appId, due⟩
    obtain ⟨other, same, first⟩ := rotation_eq_due.mp due
    rw [found] at same
    cases same
    exact ⟨appId, List.mem_of_head? first⟩
  · intro ⟨appId, listed⟩
    cases holding : vault.revokedHolders holders.keyEpoch with
    | nil =>
      rw [holding] at listed
      cases listed
    | cons first rest =>
      exact ⟨first, rotation_eq_due.mpr ⟨vault, found, by rw [holding, List.head?_cons]⟩⟩

theorem VaultAccumulator.project_eq_some {accumulator : VaultAccumulator} {storeId : StoreId}
    {active : BTreeMap AppId EffectiveMember} {vault : IdentityControlVault}
    (projected : accumulator.project storeId active = some vault) :
    vault.storeId = storeId ∧ accumulator.registeredIn = some vault.registeredIn ∧
      accumulator.currentKeyEpoch = some vault.currentKeyEpoch := by
  unfold project at projected
  obtain ⟨registeredIn, registered, projected⟩ := Option.bind_eq_some_iff.mp projected
  obtain ⟨currentKeyEpoch, current, projected⟩ := Option.bind_eq_some_iff.mp projected
  cases projected
  exact ⟨rfl, registered, current⟩

theorem VaultAccumulator.exists_project {accumulator : VaultAccumulator} (storeId : StoreId)
    (active : BTreeMap AppId EffectiveMember) {registeredIn keyEpoch : EventId}
    (registered : accumulator.registeredIn = some registeredIn)
    (current : accumulator.currentKeyEpoch = some keyEpoch) :
    ∃ vault, accumulator.project storeId active = some vault := by
  unfold project
  rw [registered, current]
  exact ⟨_, rfl⟩

/-- The revoked holders of an epoch are those of its envelopes whose app is not active. -/
theorem VaultAccumulator.mem_revokedHolders {accumulator : VaultAccumulator} {storeId : StoreId}
    {active : BTreeMap AppId EffectiveMember} {vault : IdentityControlVault}
    (projected : accumulator.project storeId active = some vault) (keyEpoch : EventId)
    (named : ∀ (appId : AppId) dek, (((accumulator.epochs[keyEpoch]?).getD ∅)[appId]?) = some dek →
      dek.appId = appId) (appId : AppId) :
    appId ∈ vault.revokedHolders keyEpoch ↔
      appId ∈ (accumulator.epochs[keyEpoch]?).getD ∅ ∧ appId ∉ active := by
  unfold project at projected
  obtain ⟨registeredIn, _, projected⟩ := Option.bind_eq_some_iff.mp projected
  obtain ⟨currentKeyEpoch, _, projected⟩ := Option.bind_eq_some_iff.mp projected
  cases projected
  unfold IdentityControlVault.revokedHolders
  dsimp only
  rw [List.find?_map]
  have looked := BTreeMap.find?_toList accumulator.epochs keyEpoch
  simp only [Function.comp_def]
  cases found : accumulator.epochs.toList.find? fun epoch => epoch.1 = keyEpoch with
  | none =>
    rw [found] at looked
    rw [← looked]
    simp
  | some epoch =>
    rw [found, Option.map_some] at looked
    rw [← looked, Option.getD_some] at named ⊢
    rw [Option.map_some]
    dsimp only
    rw [List.partition_eq_filter_filter]
    simp only [List.mem_map, List.mem_filter, BTreeMap.mem_intoValues, Function.comp_apply,
      Bool.not_eq_true', ← Bool.not_eq_true, Std.ExtTreeMap.contains_iff_mem]
    constructor
    · rintro ⟨dek, ⟨⟨key, held⟩, inactive⟩, same⟩
      have keyed := named key dek held
      rw [← same]
      rw [keyed] at inactive ⊢
      exact ⟨BTreeMap.mem_of_getElem? held, inactive⟩
    · rintro ⟨member, inactive⟩
      obtain ⟨dek, held⟩ := (BTreeMap.mem_iff_getElem? _ _).mp member
      have keyed := named appId dek held
      exact ⟨dek, ⟨⟨appId, held⟩, by rwa [keyed]⟩, keyed⟩

namespace IdentityControlLog

variable {log : IdentityControlLog}

/-- An operation of a recorded event hands the app an envelope of the vault's epoch. -/
def Grants (log : IdentityControlLog) (id : EventId) (storeId : StoreId) (keyEpoch : EventId)
    (appId : AppId) : Prop :=
  ∃ event, log.events[id]? = some event ∧ ∃ operation ∈ event.body.operations,
    ∃ envelope ∈ operation.vaultEnvelopes,
      envelope.1 = (storeId, keyEpoch) ∧ envelope.2.appId = appId

/-- An operation of a recorded event registers the vault. -/
def RegistersVault (log : IdentityControlLog) (id : EventId) (storeId : StoreId) : Prop :=
  ∃ event, log.events[id]? = some event ∧ ∃ operation ∈ event.body.operations,
    operation.registers storeId = true

/-- An operation of a recorded event removes the vault. -/
def RemovesVault (log : IdentityControlLog) (id : EventId) (storeId : StoreId) : Prop :=
  ∃ event, log.events[id]? = some event ∧ .vaultRemoved storeId ∈ event.body.operations

variable {ordered : List (EventId × IdentityEvent)} {accumulator : ProjectionAccumulator}
  {active : BTreeMap AppId EffectiveMember} {state : IdentityControlState}

/-- The operations the fold goes through are those of the applicable events. -/
theorem Ordered.exists_operation (listing : log.Ordered ordered)
    (P : EventId → IdentityControlOperation → Prop) :
    (∃ step ∈ operationsOf ordered, P step.1.1 step.2) ↔
      ∃ id, log.causal.Applicable id ∧ ∃ event, log.events[id]? = some event ∧
        ∃ operation ∈ event.body.operations, P id operation := by
  constructor
  · intro ⟨step, member, holds⟩
    obtain ⟨inside, listed⟩ := (mem_operationsOf ordered step).mp member
    obtain ⟨applicable, recorded⟩ := (listing.mem_iff step.1.1 step.1.2).mp inside
    exact ⟨step.1.1, applicable, step.1.2, recorded, step.2, listed, holds⟩
  · intro ⟨id, applicable, event, recorded, operation, listed, holds⟩
    refine ⟨((id, event), operation), (mem_operationsOf ordered _).mpr ⟨?_, listed⟩, holds⟩
    exact (listing.mem_iff id event).mpr ⟨applicable, recorded⟩

variable [IdentityExternal]

/-- The vaults that a projection keeps. -/
theorem Projects.vaults_eq (projects : log.Projects ordered accumulator active)
    (projected : IdentityControlState.project log = .ok state) :
    state.vaults = (accumulator.vaults.toList.filter fun entry =>
        !accumulator.removedVaults.contains entry.1).filterMap
          (fun entry => entry.2.project entry.1 active) ∧
      state.removedVaults = accumulator.removedVaults.toList := by
  unfold IdentityControlState.project at projected
  rw [projects.sorted] at projected
  obtain ⟨_, same, projected⟩ := bind_eq_ok.mp projected
  cases same
  rw [projects.folded] at projected
  obtain ⟨_, same, projected⟩ := bind_eq_ok.mp projected
  cases same
  obtain ⟨_, _, projected⟩ := bind_eq_ok.mp projected
  rw [projects.members] at projected
  obtain ⟨_, same, projected⟩ := bind_eq_ok.mp projected
  cases same
  obtain ⟨members, mapped, projected⟩ := bind_eq_ok.mp projected
  cases projected
  exact ⟨rfl, rfl⟩

/-- A vault of the projection is a vault of the fold that nothing removed. -/
theorem Projects.vault_eq_some (projects : log.Projects ordered accumulator active)
    (projected : IdentityControlState.project log = .ok state) (storeId : StoreId)
    (vault : IdentityControlVault) :
    state.vault storeId = some vault ↔ storeId ∉ accumulator.removedVaults ∧
      (accumulator.vaultOf storeId).project storeId active = some vault := by
  have vaults := (projects.vaults_eq projected).1
  have member : ∀ other, other ∈ state.vaults ↔ ∃ entry ∈ accumulator.vaults.toList,
      entry.1 ∉ accumulator.removedVaults ∧ entry.2.project entry.1 active = some other := by
    intro other
    rw [vaults]
    simp only [List.mem_filterMap, List.mem_filter, BTreeMap.not_contains_iff, and_assoc]
  have sound : ∀ other, state.vault storeId = some other → storeId ∉ accumulator.removedVaults ∧
      (accumulator.vaultOf storeId).project storeId active = some other := by
    intro other found
    obtain ⟨entry, listed, kept, projects⟩ := (member other).mp (List.mem_of_find?_eq_some found)
    have named := List.find?_some found
    rw [decide_eq_true_eq, (VaultAccumulator.project_eq_some projects).1] at named
    have held : accumulator.vaultOf storeId = entry.2 := by
      unfold ProjectionAccumulator.vaultOf
      rw [← named, Std.ExtTreeMap.mem_toList_iff_getElem?_eq_some.mp listed, Option.getD_some]
    rw [held, ← named]
    exact ⟨kept, projects⟩
  constructor
  · exact sound vault
  · intro ⟨kept, projects⟩
    have listed : vault ∈ state.vaults := by
      apply (member vault).mpr
      cases held : accumulator.vaults[storeId]? with
      | none =>
        unfold ProjectionAccumulator.vaultOf at projects
        rw [held] at projects
        cases projects
      | some inner =>
        have same : accumulator.vaultOf storeId = inner := by
          unfold ProjectionAccumulator.vaultOf
          rw [held, Option.getD_some]
        rw [same] at projects
        exact ⟨(storeId, inner), Std.ExtTreeMap.mem_toList_iff_getElem?_eq_some.mpr held, kept,
          projects⟩
    have named := (VaultAccumulator.project_eq_some projects).1
    cases found : state.vault storeId with
    | none => exact absurd named (by simpa using List.find?_eq_none.mp found vault listed)
    | some other => rw [← (sound other found).2, projects]

theorem Projects.vaultRecords (projects : log.Projects ordered accumulator active) :
    accumulator.VaultRecords (operationsOf ordered) :=
  ProjectionAccumulator.foldlM_applyEvent_vaultRecords projects.folded

/-- The revoked holders of a projected vault's epoch are the apps it was granted to that
are not effective members. -/
theorem Projects.mem_revokedHolders (projects : log.Projects ordered accumulator active)
    (projected : IdentityControlState.project log = .ok state) {storeId : StoreId}
    {vault : IdentityControlVault} (found : state.vault storeId = some vault) (keyEpoch : EventId)
    (appId : AppId) : appId ∈ vault.revokedHolders keyEpoch ↔
      (∃ id, log.causal.Applicable id ∧ log.Grants id storeId keyEpoch appId) ∧
        appId ∉ active := by
  have records := projects.vaultRecords
  have held := ((projects.vault_eq_some projected storeId vault).mp found).2
  have listed := VaultAccumulator.mem_revokedHolders held keyEpoch (fun app dek lookup => by
    apply appId_of_lastEnvelope
    rw [← records.envelopes]
    exact lookup) appId
  have operations := projects.listing.exists_operation fun _ operation =>
    ∃ envelope ∈ operation.vaultEnvelopes,
      envelope.1 = (storeId, keyEpoch) ∧ envelope.2.appId = appId
  unfold Grants
  rw [listed, ← operations]
  have granted := records.envelopes storeId keyEpoch appId
  unfold ProjectionAccumulator.epochDeks at granted
  rw [BTreeMap.mem_iff_getElem?, ← Option.isSome_iff_exists, granted, lastEnvelope_isSome]
  simp only [List.mem_flatMap]
  constructor
  · rintro ⟨⟨envelope, ⟨step, member, handed⟩, same⟩, inactive⟩
    exact ⟨⟨step, member, envelope, handed, same⟩, inactive⟩
  · rintro ⟨⟨step, member, envelope, handed, same⟩, inactive⟩
    exact ⟨⟨envelope, ⟨step, member, handed⟩, same⟩, inactive⟩

/-- A vault that an applicable event registers and none removes is in the projection. -/
theorem Projects.exists_vault (projects : log.Projects ordered accumulator active)
    (projected : IdentityControlState.project log = .ok state) {storeId : StoreId}
    (registered : ∃ id, log.causal.Applicable id ∧ log.RegistersVault id storeId)
    (kept : ∀ id, log.causal.Applicable id → ¬log.RemovesVault id storeId) :
    ∃ vault, state.vault storeId = some vault := by
  have records := projects.vaultRecords
  obtain ⟨step, member, registers⟩ := (projects.listing.exists_operation fun _ operation =>
    operation.registers storeId = true).mpr registered
  have unremoved : storeId ∉ accumulator.removedVaults := by
    rw [records.removed]
    intro removal
    obtain ⟨id, applicable, event, recorded, operation, listed, same⟩ :=
      (projects.listing.exists_operation fun _ operation => operation = .vaultRemoved storeId).mp
        removal
    rw [same] at listed
    exact kept id applicable ⟨event, recorded, listed⟩
  have inside : (accumulator.vaultOf storeId).registeredIn.isSome = true := by
    rw [records.registered, List.any_eq_true]
    exact ⟨step, member, registers⟩
  obtain ⟨registeredIn, inside⟩ := Option.isSome_iff_exists.mp inside
  cases current : (accumulator.vaultOf storeId).currentKeyEpoch with
  | none =>
    rw [records.current, List.getLast?_eq_none_iff, List.filterMap_eq_nil_iff] at current
    have absent := current step member
    obtain ⟨keyEpoch, granted⟩ := step.2.exists_keyEpochOf registers
    rw [granted] at absent
    cases absent
  | some keyEpoch =>
    obtain ⟨vault, held⟩ := VaultAccumulator.exists_project storeId active inside current
    exact ⟨vault, (projects.vault_eq_some projected storeId vault).mpr ⟨unremoved, held⟩⟩

variable {next : IdentityControlLog} {appId : AppId}

/-- What keeps a revoked holder of a vault's epoch one while the log grows: no event
that came to be applicable admits it, an applicable event still grants it the epoch,
no revocation of it was quarantined, and the vault stays registered and not removed. -/
structure HolderKept (log next : IdentityControlLog) (storeId : StoreId) (keyEpoch : EventId)
    (appId : AppId) : Prop where
  unadmitted : ∀ id member role, next.causal.Applicable id → next.Admits id member role →
    member.appId = appId → log.causal.Applicable id
  granted : ∃ id, next.causal.Applicable id ∧ next.Grants id storeId keyEpoch appId
  revoked : ∀ id, log.causal.Applicable id → log.Revokes id appId → next.causal.Applicable id
  registered : ∃ id, next.causal.Applicable id ∧ next.RegistersVault id storeId
  unremoved : ∀ id, next.causal.Applicable id → ¬next.RemovesVault id storeId

omit [IdentityExternal] in
/-- An admission that still counts in a grown log counted before. -/
theorem Part.survives_of_survives (within : Part log next) {id : EventId}
    {member : IdentityMemberKeys} {role : MemberRole}
    (survives : next.Survives next.causal.Applicable id member role)
    (applicable : log.causal.Applicable id)
    (revoked : ∀ id, log.causal.Applicable id → log.Revokes id member.appId →
      next.causal.Applicable id) : log.Survives log.causal.Applicable id member role := by
  refine ⟨applicable, ?_, ?_⟩
  · obtain ⟨event, found, admits⟩ := survives.admits
    rw [← within.events_eq applicable.1 .refl] at found
    exact ⟨event, found, admits⟩
  · intro revocation before revokes
    rw [within.ancestorOrSelf_iff applicable.1]
    apply survives.follows revocation (revoked revocation before revokes)
    exact (within.revokes_iff before.1 member.appId).mp revokes

/-- A revoked holder is never forgotten while these hold. -/
theorem Reachable.holder_kept (reachable : log.Reachable) {events : List IdentityEvent}
    (accepted : log.insertAll events = .ok next) {storeId : StoreId} {keyEpoch : EventId}
    (kept : log.HolderKept next storeId keyEpoch appId)
    {accumulator : ProjectionAccumulator} (projects : log.Projects ordered accumulator active)
    (revoked : appId ∉ active) {later : IdentityControlState}
    (projected : IdentityControlState.project next = .ok later) :
    ∃ vault, later.vault storeId = some vault ∧ appId ∈ vault.revokedHolders keyEpoch := by
  have within := reachable.part_insertAll accepted
  obtain ⟨nextOrdered, nextAccumulator, nextActive, nextProjects⟩ :=
    (reachable.insertAll accepted).sound.projects
  obtain ⟨vault, found⟩ := nextProjects.exists_vault projected kept.registered kept.unremoved
  refine ⟨vault, found, ?_⟩
  apply (nextProjects.mem_revokedHolders projected found keyEpoch appId).mpr
  refine ⟨kept.granted, ?_⟩
  intro effective
  obtain ⟨id, member, role, survives, same⟩ := (nextProjects.effective.listed appId).mp effective
  subst same
  have before := kept.unadmitted id member role survives.inside survives.admits rfl
  apply revoked
  apply (projects.effective.listed member.appId).mpr
  exact ⟨id, member, role, within.survives_of_survives survives before kept.revoked, rfl⟩

/-- A rotation is due exactly for an epoch that an applicable event granted to an app
that is not an effective member, and stays due while its holder is kept. -/
theorem rotation_due_iff (reachable : log.Reachable)
    (projected : IdentityControlState.project log = .ok state)
    (members : log.effectiveMembers (Std.ExtTreeSet.ofList log.causal.applicableIds compare) =
      .ok active) {storeId : StoreId} {vault : IdentityControlVault}
    (found : state.vault storeId = some vault) (keyEpoch : EventId) :
    ((∃ appId, VaultRevokedHolders.rotation ⟨state, storeId, keyEpoch⟩ = .due appId) ↔
      ∃ id appId, log.causal.Applicable id ∧ log.Grants id storeId keyEpoch appId ∧
        appId ∉ active) ∧
    ∀ appId, VaultRevokedHolders.rotation ⟨state, storeId, keyEpoch⟩ = .due appId →
      ∀ events next later, log.insertAll events = .ok next →
        IdentityControlState.project next = .ok later →
          log.HolderKept next storeId keyEpoch appId →
            ∃ other, VaultRevokedHolders.rotation ⟨later, storeId, keyEpoch⟩ = .due other := by
  obtain ⟨ordered, accumulator, effective, projects⟩ := reachable.sound.projects
  have same := projects.members
  rw [projects.listing.ofList_eq, members] at same
  injection same with same
  subst same
  have holders := projects.mem_revokedHolders projected found keyEpoch
  constructor
  · rw [VaultRevokedHolders.exists_due found]
    simp only [holders]
    constructor
    · rintro ⟨appId, ⟨id, applicable, grants⟩, inactive⟩
      exact ⟨id, appId, applicable, grants, inactive⟩
    · rintro ⟨id, appId, applicable, grants, inactive⟩
      exact ⟨appId, ⟨id, applicable, grants⟩, inactive⟩
  · intro appId due events next later accepted projectedNext kept
    obtain ⟨_, sameVault, first⟩ := VaultRevokedHolders.rotation_eq_due.mp due
    rw [found] at sameVault
    cases sameVault
    have revoked := ((holders appId).mp (List.mem_of_head? first)).2
    obtain ⟨laterVault, laterFound, listed⟩ :=
      reachable.holder_kept accepted kept projects revoked projectedNext
    exact (VaultRevokedHolders.exists_due laterFound).mpr ⟨appId, listed⟩

end IdentityControlLog

namespace TestSupport

open Nook.EventLog.TestSupport

def heldVault : StoreId := ⟨"store_abcdefghijk".toList⟩

/-- The vault registered at the epoch `e`, with an envelope for the app of `digit`. -/
def registerFor (digit : Char) : IdentityControlOperation :=
  .vaultRegistered heldVault (eventId 'e') [⟨(keys digit).appId, ⟨[]⟩, ⟨[]⟩⟩]

/-- An app that the vault is granted to is revoked, by an event that comes after a join. -/
def heldEvents : List IdentityEvent :=
  [founded 'g' '1', signed 'a' '1' ['g'] [approve '3'], signed 'i' '1' ['g'] [invite '5'],
    signed 'v' '1' ['a'] [registerFor '3'], signed 'm' '2' ['i'] [join '5' '2'],
    signed 'r' '1' ['m', 'v'] [revoke '3']]

/-- Whether only events of the list have an operation that the check passes. -/
def onlyIn (log : IdentityControlLog) (ids : List EventId)
    (check : IdentityControlOperation → Bool) : Bool :=
  log.events.toList.all fun entry => ids.contains entry.1 || !entry.2.body.operations.any check

theorem mem_of_onlyIn {log : IdentityControlLog} {ids : List EventId}
    {check : IdentityControlOperation → Bool} (only : onlyIn log ids check = true) {id : EventId}
    {event : IdentityEvent} (found : log.events[id]? = some event)
    {operation : IdentityControlOperation} (listed : operation ∈ event.body.operations)
    (passed : check operation = true) : id ∈ ids := by
  have entry := List.all_eq_true.mp only (id, event)
    (Std.ExtTreeMap.mem_toList_iff_getElem?_eq_some.mpr found)
  rw [Bool.or_eq_true, List.contains_iff_mem, Bool.not_eq_true', ← Bool.not_eq_true,
    List.any_eq_true] at entry
  exact entry.resolve_right fun none_ => none_ ⟨operation, listed, passed⟩

def admitsApp (appId : AppId) (operation : IdentityControlOperation) : Bool :=
  operation.admits.any fun admitted => admitted.1.appId = appId

def registration : IdentityEvent := signed 'v' '1' ['a'] [registerFor '3']

/-- The holder stays one when a member issues another invite. -/
theorem rotation_due_heldEvents : ∃ log next state later,
    (IdentityControlLog.new identityId).insertAll heldEvents = .ok log ∧
    log.insertAll [signed 'n' '1' ['r'] [invite '6']] = .ok next ∧
    IdentityControlState.project log = .ok state ∧ IdentityControlState.project next = .ok later ∧
    ∃ other, VaultRevokedHolders.rotation ⟨later, heldVault, eventId 'e'⟩ = .due other := by
  obtain ⟨log, built, checked⟩ := exists_of_passes
    ((IdentityControlLog.new identityId).insertAll heldEvents)
    (fun log => passes (log.insertAll [signed 'n' '1' ['r'] [invite '6']]) fun next =>
      passes (IdentityControlState.project log) fun state =>
        passes (IdentityControlState.project next) fun _ =>
          passes (log.effectiveMembers (Std.ExtTreeSet.ofList log.causal.applicableIds compare))
            fun _ => decide ((state.vault heldVault).isSome = true ∧
              VaultRevokedHolders.rotation ⟨state, heldVault, eventId 'e'⟩ = .due (keys '3').appId ∧
              eventId 'a' ∈ log.causal.applicableIds ∧
              onlyIn next [eventId 'a'] (admitsApp (keys '3').appId) = true ∧
              log.causal.applicableIds ⊆ next.causal.applicableIds ∧
              eventId 'v' ∈ next.causal.applicableIds ∧
              next.events[eventId 'v']? = some registration ∧
              onlyIn next [] (· = .vaultRemoved heldVault) = true))
    (by decide +kernel)
  obtain ⟨next, grown, checked⟩ := exists_of_passes _ _ checked
  obtain ⟨state, projected, checked⟩ := exists_of_passes _ _ checked
  obtain ⟨later, projectedNext, checked⟩ := exists_of_passes _ _ checked
  obtain ⟨active, members, checked⟩ := exists_of_passes _ _ checked
  obtain ⟨present, due, admitted, only, grew, registering, recorded, unremoved⟩ :=
    of_decide_eq_true checked
  obtain ⟨vault, found⟩ := Option.isSome_iff_exists.mp present
  have reachable := (IdentityControlLog.Reachable.new identityId).insertAll built
  have applicable := (CausalGraph.mem_applicableIds (eventId 'v')).mp registering
  refine ⟨log, next, state, later, built, grown, projected, projectedNext, ?_⟩
  apply (IdentityControlLog.rotation_due_iff reachable projected members found (eventId 'e')).2
    (keys '3').appId due _ next later grown projectedNext
  constructor
  · intro id member role _ ⟨event, recorded, operation, listed, admits⟩ same
    have sole := mem_of_onlyIn only recorded listed (by simp [admitsApp, admits, same])
    rw [List.mem_singleton.mp sole]
    exact (CausalGraph.mem_applicableIds _).mp admitted
  · exact ⟨eventId 'v', applicable, registration, recorded, registerFor '3',
      List.mem_singleton_self _, _, List.mem_singleton_self _, rfl, rfl⟩
  · intro id before _
    exact (CausalGraph.mem_applicableIds id).mp (grew ((CausalGraph.mem_applicableIds id).mpr before))
  · exact ⟨eventId 'v', applicable, registration, recorded, registerFor '3',
      List.mem_singleton_self _, by simp [registerFor, IdentityControlOperation.registers]⟩
  · intro id _ ⟨event, recorded, listed⟩
    exact absurd (mem_of_onlyIn unremoved recorded listed (by simp)) (by simp)

/-- A join with a lower id takes the invite over, so the join that the revocation came
after is rejected and the revocation with it: the holder is a member again, though
nothing admitted it again, removed the vault or rejected the grant. -/
theorem rotation_not_due_rejectedJoin : ∃ log next state later vault,
    (IdentityControlLog.new identityId).insertAll heldEvents = .ok log ∧
    log.insertAll [signed 'j' '4' ['i'] [join '5' '4']] = .ok next ∧
    IdentityControlState.project log = .ok state ∧ IdentityControlState.project next = .ok later ∧
    VaultRevokedHolders.rotation ⟨state, heldVault, eventId 'e'⟩ = .due (keys '3').appId ∧
    VaultRevokedHolders.rotation ⟨later, heldVault, eventId 'e'⟩ = .notDue ∧
    later.vault heldVault = some vault ∧ heldVault ∉ later.removedVaults ∧
    next.causal.Applicable (eventId 'v') ∧
    next.Grants (eventId 'v') heldVault (eventId 'e') (keys '3').appId ∧
    ∀ id member role, next.Admits id member role → member.appId = (keys '3').appId →
      log.causal.Applicable id := by
  obtain ⟨log, built, checked⟩ := exists_of_passes
    ((IdentityControlLog.new identityId).insertAll heldEvents)
    (fun log => passes (log.insertAll [signed 'j' '4' ['i'] [join '5' '4']]) fun next =>
      passes (IdentityControlState.project log) fun state =>
        passes (IdentityControlState.project next) fun later =>
          decide ((later.vault heldVault).isSome = true ∧
            VaultRevokedHolders.rotation ⟨state, heldVault, eventId 'e'⟩ = .due (keys '3').appId ∧
            VaultRevokedHolders.rotation ⟨later, heldVault, eventId 'e'⟩ = .notDue ∧
            heldVault ∉ later.removedVaults ∧ eventId 'a' ∈ log.causal.applicableIds ∧
            onlyIn next [eventId 'a'] (admitsApp (keys '3').appId) = true ∧
            eventId 'v' ∈ next.causal.applicableIds ∧
            next.events[eventId 'v']? = some registration))
    (by decide +kernel)
  obtain ⟨next, grown, checked⟩ := exists_of_passes _ _ checked
  obtain ⟨state, projected, checked⟩ := exists_of_passes _ _ checked
  obtain ⟨later, projectedNext, checked⟩ := exists_of_passes _ _ checked
  obtain ⟨present, due, lapsed, unremoved, admitted, only, registering, recorded⟩ :=
    of_decide_eq_true checked
  obtain ⟨vault, found⟩ := Option.isSome_iff_exists.mp present
  refine ⟨log, next, state, later, vault, built, grown, projected, projectedNext, due, lapsed, found,
    unremoved, (CausalGraph.mem_applicableIds _).mp registering, ?_, ?_⟩
  · exact ⟨registration, recorded, registerFor '3', List.mem_singleton_self _, _,
      List.mem_singleton_self _, rfl, rfl⟩
  · intro id member role ⟨event, recorded, operation, listed, admits⟩ same
    have sole := mem_of_onlyIn only recorded listed (by simp [admitsApp, admits, same])
    rw [List.mem_singleton.mp sole]
    exact (CausalGraph.mem_applicableIds _).mp admitted

end TestSupport

end Nook.IdentityControl
