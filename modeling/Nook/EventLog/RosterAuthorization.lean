import Nook.EventLog.Revocation
import Nook.EventLog.Roster

set_option autoImplicit false

namespace Nook.EventLog

open Nook.Lib Nook.Replication Relation

namespace EventGraph

variable {graph : EventGraph} {order : List EventId}

/-! ### The heads and the applicable history -/

/-- Without pending events the walk from the heads meets the applicable events. -/
theorem mem_pastEvents_heads (indexed : graph.Indexed) (settled : graph.causal.pendingIds = [])
    (id : EventId) (event : VaultEvent) :
    (id, event) ∈ graph.pastEvents graph.heads ↔
      graph.causal.Applicable id ∧ graph.events[id]? = some event := by
  rw [mem_pastEvents, indexed.mem_pastOrder]
  apply and_congr_left
  intro found
  constructor
  · rintro ⟨head, member, path⟩
    have reached := ((CausalGraph.mem_heads settled head).mp member).1
    exact reached.ancestor indexed.wellFormed path
  · exact CausalGraph.exists_head indexed.wellFormed

theorem mem_flatMap_approvalsOf (extension : graph.causal.Extension order)
    (indexed : graph.Indexed) (settled : graph.causal.pendingIds = [])
    (approval : EventId × VaultRosterMember) :
    approval ∈ order.flatMap graph.approvalsOf ↔
      ∃ event, (approval.1, event) ∈ graph.pastEvents graph.heads ∧
        approval.2 ∈ event.approvals := by
  simp only [List.mem_flatMap, extension.mem_iff, mem_pastEvents_heads indexed settled]
  unfold approvalsOf
  constructor
  · rintro ⟨id, applicable, member⟩
    cases found : graph.events[id]? with
    | none => simp [found] at member
    | some event =>
      simp only [found, List.mem_map] at member
      obtain ⟨approved, inside, rfl⟩ := member
      exact ⟨event, ⟨applicable, found⟩, inside⟩
  · rintro ⟨event, ⟨applicable, found⟩, inside⟩
    refine ⟨approval.1, applicable, ?_⟩
    simp only [found, List.mem_map]
    exact ⟨approval.2, inside, rfl⟩

theorem mem_flatMap_revocationsOf (extension : graph.causal.Extension order)
    (indexed : graph.Indexed) (settled : graph.causal.pendingIds = []) (deviceId : DeviceId) :
    (∃ id, (id, deviceId) ∈ order.flatMap graph.revocationsOf) ↔
      deviceId ∈ graph.pastRevokedDevices graph.heads := by
  unfold pastRevokedDevices revocationsOf
  simp only [List.mem_flatMap, extension.mem_iff]
  constructor
  · rintro ⟨_, id, applicable, member⟩
    cases found : graph.events[id]? with
    | none => simp [found] at member
    | some event =>
      simp only [found, List.mem_map, Prod.mk.injEq] at member
      obtain ⟨_, inside, _, rfl⟩ := member
      exact ⟨(id, event), (mem_pastEvents_heads indexed settled id event).mpr ⟨applicable, found⟩,
        inside⟩
  · rintro ⟨⟨id, event⟩, past, inside⟩
    obtain ⟨applicable, found⟩ := (mem_pastEvents_heads indexed settled id event).mp past
    refine ⟨id, id, applicable, ?_⟩
    simp only [found, List.mem_map]
    exact ⟨deviceId, inside, rfl⟩

/-! ### The roster from the approvals -/

/-- The member of a device in the roster is its current approval, up to the label. -/
structure Lists (graph : EventGraph) (order : List EventId) (roster : VaultAuthorizedRoster) :
    Prop where
  member : ∀ listed ∈ roster.members, ∃ approved,
    graph.currentApproval order listed.deviceId = some approved ∧
      listed.identity = approved.identity
  listed : ∀ (deviceId : DeviceId) (approved : VaultRosterMember),
    graph.currentApproval order deviceId = some approved →
      ∃ listed ∈ roster.members, listed.deviceId = deviceId ∧ listed.identity = approved.identity
  revoked_iff : ∀ deviceId, deviceId ∈ roster.revoked ↔
    (∃ id, (id, deviceId) ∈ order.flatMap graph.revocationsOf) ∧
      graph.currentApproval order deviceId = none

theorem currentApproval_deviceId {deviceId : DeviceId} {approved : VaultRosterMember}
    (found : graph.currentApproval order deviceId = some approved) :
    approved.deviceId = deviceId := by
  unfold currentApproval at found
  obtain ⟨approval, last, rfl⟩ := Option.map_eq_some_iff.mp found
  have same := List.find?_some last
  rw [Bool.and_eq_true, decide_eq_true_iff] at same
  exact same.2

theorem currentApproval_mem {deviceId : DeviceId} {approved : VaultRosterMember}
    (found : graph.currentApproval order deviceId = some approved) :
    ∃ id, (id, approved) ∈ order.flatMap graph.approvalsOf := by
  unfold currentApproval at found
  obtain ⟨approval, last, rfl⟩ := Option.map_eq_some_iff.mp found
  exact ⟨approval.1, List.mem_reverse.mp (List.mem_of_find?_eq_some last)⟩

theorem lists_authorizedRoster [External] {roster : VaultAuthorizedRoster}
    (ordered : graph.topologicalOrder = .ok order)
    (listed : graph.authorizedRoster = .ok roster) : graph.Lists order roster := by
  unfold authorizedRoster at listed
  rw [ordered] at listed
  injection listed with same
  subst same
  have scanned := (RosterScan.scanned_approvals graph order).2
  have lookup := RosterScan.getElem?_members graph order
  generalize order.foldl (RosterScan.recorded graph) RosterScan.empty = scan at scanned lookup
  have entry : ∀ (deviceId : DeviceId) (member : VaultRosterMember),
      (scan.members graph)[deviceId]? = some member →
        ∃ approved, graph.currentApproval order deviceId = some approved ∧
          approved.identity = member.identity := by
    intro deviceId member found
    have same := lookup deviceId
    rw [found, Option.map_some, eq_comm, Option.map_eq_some_iff] at same
    exact same
  refine ⟨?_, ?_, ?_⟩
  · intro member inside
    obtain ⟨deviceId, found⟩ := (BTreeMap.mem_intoValues _ _).mp inside
    obtain ⟨approved, current, same⟩ := entry deviceId member found
    have device : member.deviceId = deviceId :=
      (congrArg Prod.fst same).symm.trans (currentApproval_deviceId current)
    exact ⟨approved, device ▸ current, same.symm⟩
  · intro deviceId approved current
    have same := lookup deviceId
    rw [current, Option.map_some, Option.map_eq_some_iff] at same
    obtain ⟨member, found, same⟩ := same
    exact ⟨member, (BTreeMap.mem_intoValues _ _).mpr ⟨deviceId, found⟩,
      (congrArg Prod.fst same).trans (currentApproval_deviceId current), same⟩
  · intro deviceId
    have absent := congrArg Option.isSome (lookup deviceId)
    rw [Option.isSome_map, Option.isSome_map] at absent
    have unlisted : (scan.members graph)[deviceId]? = none ↔
        graph.currentApproval order deviceId = none := by
      rw [← Option.not_isSome_iff_eq_none, ← Option.not_isSome_iff_eq_none, absent]
    show deviceId ∈ dedup _ ↔ _
    rw [mem_dedup, List.mem_mergeSort, List.mem_filter, List.mem_map, Bool.not_eq_true',
      ← Bool.not_eq_true, Std.ExtTreeMap.contains_iff_mem, BTreeMap.not_mem_iff_getElem?,
      unlisted, scanned]
    simp

/-! ### Roster membership against the authorization rule -/

variable [External] {event : VaultEvent}

/-- The actor of a key that an accepted event approves for the device. -/
def ApprovedKey (graph : EventGraph) (deviceId : DeviceId) (actor : AuthKeyId) : Prop :=
  ∃ past ∈ graph.pastEvents graph.heads, ∃ approved ∈ past.2.approvals,
    approved.deviceId = deviceId ∧
      SigningIdentity.actorIdForPublicKeyHex approved.signingPublicKey.asStr = .ok actor

/-- No approved key of the device is bound to another member or to the genesis. -/
def KeysIsolated (graph : EventGraph) (isMember : DeviceId → Prop) (deviceId : DeviceId) : Prop :=
  ∀ actor, graph.ApprovedKey deviceId actor →
    (∀ other, isMember other → other ≠ deviceId →
      (other, actor) ∉ graph.pastBindings graph.heads) ∧
    actor ∉ graph.pastGenesisActors graph.heads

/-- The check of an event on top of the heads follows the roster: members pass,
and keys that belong to revoked devices only do not. -/
structure FollowsRoster (graph : EventGraph) (roster : VaultAuthorizedRoster)
    (event : VaultEvent) : Prop where
  admitted : ∀ member ∈ roster.members,
    SigningIdentity.actorIdForPublicKeyHex member.signingPublicKey.asStr =
      .ok event.body.actorId → graph.validateEventActorAuthorized event = .ok ()
  refused : graph.isSelfSignedMembershipEvent event = .ok false → ∀ deviceId ∈ roster.revoked,
    graph.KeysIsolated (fun other => ∃ member ∈ roster.members, member.deviceId = other) deviceId →
      graph.ApprovedKey deviceId event.body.actorId →
        graph.validateEventActorAuthorized event ≠ .ok ()

/-- The walk from the heads met this actor last for one of the devices revoked in the history. -/
def MetLast (graph : EventGraph) (actor : AuthKeyId) : Prop :=
  ∃ deviceId ∈ graph.pastRevokedDevices graph.heads,
    lastBinding (graph.pastBindings graph.heads) deviceId = some actor

/-- Where the walk from the heads and the surviving approvals say the same of the actor. -/
structure WalkFollowsApprovals (graph : EventGraph) (order : List EventId) (event : VaultEvent) :
    Prop where
  current : graph.isSelfSignedMembershipEvent event = .ok false →
    ∀ deviceId approved, graph.currentApproval order deviceId = some approved →
      SigningIdentity.actorIdForPublicKeyHex approved.signingPublicKey.asStr =
        .ok event.body.actorId →
        graph.PastKeysParse graph.heads ∧ ¬graph.MetLast event.body.actorId
  revoked : graph.isSelfSignedMembershipEvent event = .ok false →
    graph.PastKeysParse graph.heads → ∀ deviceId ∈ graph.pastRevokedDevices graph.heads,
      graph.currentApproval order deviceId = none →
        graph.KeysIsolated (fun other => graph.currentApproval order other ≠ none) deviceId →
          graph.ApprovedKey deviceId event.body.actorId → graph.MetLast event.body.actorId

omit [External] in
theorem approval_bound {operation : VaultOperation} {approved : VaultRosterMember}
    (approval : operation.approval = some approved) :
    operation.boundKey = some (approved.deviceId, approved.signingPublicKey) := by
  cases operation with
  | joinApproved deviceId _ key =>
    by_cases missing : key.isEmpty
    · simp [VaultOperation.approval, missing] at approval
    · simp only [VaultOperation.approval, missing, if_false, Bool.false_eq_true,
        Option.some.injEq] at approval
      rw [← approval]
      simp [VaultOperation.boundKey, missing]
  | _ => cases approval

theorem ApprovedKey.bound {deviceId : DeviceId} {actor : AuthKeyId}
    (approved : graph.ApprovedKey deviceId actor) :
    (deviceId, actor) ∈ graph.pastBindings graph.heads := by
  obtain ⟨past, inside, member, approval, rfl, named⟩ := approved
  obtain ⟨operation, performed, admits⟩ := List.mem_filterMap.mp approval
  refine List.mem_flatMap.mpr ⟨past, inside, List.mem_filterMap.mpr ⟨operation, performed, ?_⟩⟩
  unfold VaultOperation.binding
  rw [approval_bound admits]
  simp [named, Except.toOption]

/-- On top of the heads a key that an accepted approval binds may append unless
the walk met it last for a revoked device. -/
theorem ApprovedKey.mayAppend_iff {deviceId : DeviceId} {actor : AuthKeyId}
    (approved : graph.ApprovedKey deviceId actor) :
    graph.MayAppend graph.heads actor ↔ ¬graph.MetLast actor := by
  constructor
  · rintro admitted ⟨other, revoked, last⟩
    exact admitted.2 other revoked last
  · intro kept
    refine ⟨Or.inr ⟨deviceId, approved.bound⟩, ?_⟩
    intro other revoked last
    exact kept ⟨other, revoked, last⟩

theorem ApprovedKey.heads_nonempty {deviceId : DeviceId} {actor : AuthKeyId}
    (indexed : graph.Indexed) (approved : graph.ApprovedKey deviceId actor) :
    graph.heads ≠ [] := by
  obtain ⟨past, inside, _⟩ := approved
  have walked := ((mem_pastEvents _ _ _ _).mp inside).1
  obtain ⟨head, member, _⟩ := (indexed.mem_pastOrder _ _).mp walked
  exact List.ne_nil_of_mem member

theorem validateEventActorAuthorized_of_selfSigned
    (own : graph.isSelfSignedMembershipEvent event = .ok true) :
    graph.validateEventActorAuthorized event = .ok () := by
  unfold validateEventActorAuthorized
  rw [own]
  split
  · rfl
  · rfl

end EventGraph

namespace TestSupport

/-- A device is approved, revoked, and approved again with the same key. -/
def reapprovedEvents : List VaultEvent :=
  [genesis 'g' '1',
    signed 'a' '1' [eventId 'g'] (eventId 'g')
      [.joinApproved (device 'd') ⟨[]⟩ (publicKey '2') ⟨[]⟩ ⟨[]⟩ ⟨[]⟩],
    signed 'b' '1' [eventId 'a'] (eventId 'g') [.deviceRevoked (device 'd')],
    signed 'c' '1' [eventId 'b'] (eventId 'g')
      [.joinApproved (device 'd') ⟨[]⟩ (publicKey '2') ⟨[]⟩ ⟨[]⟩ ⟨[]⟩]]

/-- The roster lists the device again, yet what it appends is refused. -/
def byReapproved : VaultEvent := signed 'e' '2' [eventId 'c'] (eventId 'g') [.vaultCleared]

end TestSupport

end Nook.EventLog
