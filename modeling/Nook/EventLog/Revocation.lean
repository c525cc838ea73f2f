import Nook.EventLog.AuthorizationScan
import Nook.EventLog.GraphConfluence

set_option autoImplicit false

namespace Nook.EventLog

open Nook.Lib Nook.Replication Relation

namespace EventGraph

variable [External] {graph : EventGraph} {event : VaultEvent} {id : EventId}

/-! ### When an event is accepted -/

/-- No defect of the checkpoint structure rejects the event. -/
def ValidStructure (graph : EventGraph) (event : VaultEvent) : Prop :=
  ∀ reason, graph.validateEpochCheckpointStructure event ≠
    .error (.invalidEpochCheckpointStructure reason)

/-- The actor is known below `parents` and not the last bound actor of a device revoked there. -/
def MayAppend (graph : EventGraph) (parents : List EventId) (actor : AuthKeyId) : Prop :=
  (actor ∈ graph.pastGenesisActors parents ∨
      ∃ deviceId, (deviceId, actor) ∈ graph.pastBindings parents) ∧
    ∀ deviceId ∈ graph.pastRevokedDevices parents,
      lastBinding (graph.pastBindings parents) deviceId ≠ some actor

theorem classifyEvent_eq (valid : graph.ValidStructure event) :
    graph.classifyEvent event = graph.classifyEventActorQuarantine event := by
  unfold classifyEvent
  split
  · rename_i reason invalid
    exact absurd invalid (valid reason)
  · rfl

theorem validateEventActorAuthorized_eq (child : event.body.parents ≠ [])
    (ordinary : graph.isSelfSignedMembershipEvent event = .ok false) :
    graph.validateEventActorAuthorized event = (do
      let authorized ← graph.authorizedActorsBefore event
      ensure (authorized.contains event.body.actorId)
        (.unauthorizedActor event.body.actorId.asStr)) := by
  have nonempty : event.body.parents.isEmpty = false := by simpa using child
  unfold validateEventActorAuthorized
  rw [nonempty, ordinary]
  rfl

theorem validateEventActorAuthorized_ok_iff (child : event.body.parents ≠ [])
    (ordinary : graph.isSelfSignedMembershipEvent event = .ok false) :
    graph.validateEventActorAuthorized event = .ok () ↔
      graph.PastKeysParse event.body.parents ∧
        graph.MayAppend event.body.parents event.body.actorId := by
  rw [validateEventActorAuthorized_eq child ordinary, bind_eq_ok,
    ← authorizedActorsBefore_ok_iff]
  constructor
  · rintro ⟨actors, collected, member⟩
    rw [ensure_eq_ok, Std.ExtTreeSet.contains_iff_mem] at member
    exact ⟨⟨actors, collected⟩, (mem_authorizedActorsBefore collected _).mp member⟩
  · rintro ⟨⟨actors, collected⟩, admitted⟩
    refine ⟨actors, collected, ?_⟩
    rw [ensure_eq_ok, Std.ExtTreeSet.contains_iff_mem]
    exact (mem_authorizedActorsBefore collected _).mpr admitted

theorem not_mayAppend_of_unauthorized (child : event.body.parents ≠ [])
    (ordinary : graph.isSelfSignedMembershipEvent event = .ok false) {actorId : Str}
    (refused : graph.validateEventActorAuthorized event = .error (.unauthorizedActor actorId)) :
    ¬graph.MayAppend event.body.parents event.body.actorId := by
  rw [validateEventActorAuthorized_eq child ordinary] at refused
  rcases bind_eq_error.mp refused with failed | ⟨actors, collected, outside⟩
  · exact absurd rfl (authorizedActorsBefore_error failed actorId)
  · intro admitted
    have member := (mem_authorizedActorsBefore collected _).mpr admitted
    rw [Std.ExtTreeSet.mem_iff_contains] at member
    rw [member] at outside
    cases outside

/-- A recorded event over accepted ancestors is accepted exactly when its content is. -/
theorem Judged.applicable_iff (judged : graph.Judged) (found : graph.events[id]? = some event)
    (past : ∀ ancestor, graph.causal.Ancestor ancestor id → graph.causal.Applicable ancestor) :
    graph.causal.Applicable id ↔ graph.classifyEvent event = .ok .retain := by
  have known := BTreeMap.mem_of_getElem? found
  constructor
  · intro applicable
    exact judged.indexed.retain_verdict (judged.settled id known) applicable found
  · intro retained
    refine ⟨?_, ?_⟩
    · intro ancestor path
      rcases reflTransGen_iff_eq_or_transGen.mp path with rfl | strict
      · exact (judged.indexed.known_iff _).mpr known
      · exact (past ancestor strict).1.known
    · intro rejected
      obtain ⟨root, reason, path⟩ := (judged.quarantined_iff id).mp rejected
      rcases reflTransGen_iff_eq_or_transGen.mp path with rfl | strict
      · rcases reason with ⟨_, content, reason, same, refused⟩ | cyclic
        · rw [found] at same
          cases same
          rw [retained] at refused
          cases refused
        · exact (past _ cyclic).2 rejected
      · have rejectedRoot := (judged.quarantined_iff root).mpr ⟨root, reason, .refl⟩
        exact (past root strict).2 rejectedRoot

/-- Nothing but the actor can reject the event: its ancestors are accepted and
its checkpoint structure is valid. -/
structure Admissible (graph : EventGraph) (id : EventId) (event : VaultEvent) : Prop where
  past : ∀ ancestor, graph.causal.Ancestor ancestor id → graph.causal.Applicable ancestor
  structured : graph.ValidStructure event

theorem Judged.admissible (judged : graph.Judged) (found : graph.events[id]? = some event)
    (applicable : graph.causal.Applicable id) : graph.Admissible id event where
  past ancestor path := applicable.ancestor judged.indexed.wellFormed path.to_reflTransGen
  structured := by
    intro reason invalid
    have retained := judged.indexed.retain_verdict
      (judged.settled id (BTreeMap.mem_of_getElem? found)) applicable found
    unfold classifyEvent at retained
    rw [invalid] at retained
    cases retained

/-- An admissible child that is no self-signed membership event is accepted
exactly when its actor may append. -/
theorem Judged.applicable_iff_mayAppend (judged : graph.Judged)
    (found : graph.events[id]? = some event) (child : event.body.parents ≠ [])
    (ordinary : graph.isSelfSignedMembershipEvent event = .ok false)
    (admissible : graph.Admissible id event) :
    graph.causal.Applicable id ↔
      graph.MayAppend event.body.parents event.body.actorId := by
  rw [judged.applicable_iff found admissible.past, classifyEvent_eq admissible.structured]
  constructor
  · intro retained
    unfold classifyEventActorQuarantine at retained
    split at retained
    · rename_i authorized
      exact ((validateEventActorAuthorized_ok_iff child ordinary).mp authorized).2
    · cases retained
    · cases retained
  · intro admitted
    have verdict := judged.settled id (BTreeMap.mem_of_getElem? found)
    by_contra refused
    have notApplicable : ¬graph.causal.Applicable id := by
      rw [judged.applicable_iff found admissible.past, classifyEvent_eq admissible.structured]
      exact refused
    have present : graph.causal.Present id := by
      intro ancestor path
      rcases reflTransGen_iff_eq_or_transGen.mp path with rfl | strict
      · exact (judged.indexed.known_iff _).mpr (BTreeMap.mem_of_getElem? found)
      · exact (admissible.past ancestor strict).1.known
    have rejected : id ∈ graph.causal.quarantined := by
      by_contra kept
      exact notApplicable ⟨present, kept⟩
    obtain ⟨root, reason, path⟩ := (judged.quarantined_iff id).mp rejected
    have rejectedRoot := (judged.quarantined_iff root).mpr ⟨root, reason, .refl⟩
    rcases reflTransGen_iff_eq_or_transGen.mp path with rfl | strict
    · rcases reason with ⟨_, content, reason, same, unauthorized⟩ | cyclic
      · rw [found] at same
        cases same
        rw [classifyEvent_eq admissible.structured] at unauthorized
        unfold classifyEventActorQuarantine at unauthorized
        split at unauthorized
        · cases unauthorized
        · rename_i actorId outside
          exact not_mayAppend_of_unauthorized child ordinary outside admitted
        · cases unauthorized
      · exact (admissible.past _ cyclic).2 rejected
    · exact (admissible.past root strict).2 rejectedRoot

/-! ### Keys of revoked devices -/

/-- The event is signed with a key that its past binds to a device it has seen
revoked. No approval of the device with that key follows all the revocations, and
the key is neither that of another unrevoked device nor that of the genesis. -/
structure SignedWithRevokedKey (graph : EventGraph) (event : VaultEvent) (deviceId : DeviceId) :
    Prop where
  revoked : deviceId ∈ graph.pastRevokedDevices event.body.parents
  bound : (deviceId, event.body.actorId) ∈ graph.pastBindings event.body.parents
  notReapproved : ∀ approval ∈ graph.pastEvents event.body.parents,
    (deviceId, event.body.actorId) ∈ approval.2.bindings →
      ∃ revocation ∈ graph.pastEvents event.body.parents,
        deviceId ∈ revocation.2.revokedDevices ∧ ¬graph.isAncestor revocation.1 approval.1
  notElsewhere : ∀ binding ∈ graph.pastBindings event.body.parents,
    binding.2 = event.body.actorId → binding.1 ≠ deviceId →
      binding.1 ∈ graph.pastRevokedDevices event.body.parents
  notGenesis : event.body.actorId ∉ graph.pastGenesisActors event.body.parents

instance (graph : EventGraph) (event : VaultEvent) (deviceId : DeviceId) :
    Decidable (graph.SignedWithRevokedKey event deviceId) :=
  decidable_of_iff
    (deviceId ∈ graph.pastRevokedDevices event.body.parents ∧
      (deviceId, event.body.actorId) ∈ graph.pastBindings event.body.parents ∧
      (∀ approval ∈ graph.pastEvents event.body.parents,
        (deviceId, event.body.actorId) ∈ approval.2.bindings →
          ∃ revocation ∈ graph.pastEvents event.body.parents,
            deviceId ∈ revocation.2.revokedDevices ∧
              ¬graph.isAncestor revocation.1 approval.1) ∧
      (∀ binding ∈ graph.pastBindings event.body.parents,
        binding.2 = event.body.actorId → binding.1 ≠ deviceId →
          binding.1 ∈ graph.pastRevokedDevices event.body.parents) ∧
      event.body.actorId ∉ graph.pastGenesisActors event.body.parents)
    ⟨fun ⟨revoked, bound, reapproved, elsewhere, genesis⟩ =>
      ⟨revoked, bound, reapproved, elsewhere, genesis⟩,
     fun ⟨revoked, bound, reapproved, elsewhere, genesis⟩ =>
      ⟨revoked, bound, reapproved, elsewhere, genesis⟩⟩

/-- With one key for each device a revocation excludes the key of the device. -/
theorem not_mayAppend_of_single_key {parents : List EventId} {actor : AuthKeyId}
    {deviceId : DeviceId} (revoked : deviceId ∈ graph.pastRevokedDevices parents)
    (bound : (deviceId, actor) ∈ graph.pastBindings parents)
    (single : ∀ other, (deviceId, other) ∈ graph.pastBindings parents → other = actor) :
    ¬graph.MayAppend parents actor := fun admitted =>
  admitted.2 deviceId revoked (lastBinding_of_unique bound single)

end EventGraph

namespace TestSupport

/-- A device is approved with a key, approved again with another one and revoked. -/
def rekeyedEvents : List VaultEvent :=
  [genesis 'g' '1',
    signed 'a' '1' [eventId 'g'] (eventId 'g')
      [.joinApproved (device 'd') ⟨[]⟩ (publicKey '2') ⟨[]⟩ ⟨[]⟩ ⟨[]⟩],
    signed 'b' '1' [eventId 'a'] (eventId 'g')
      [.joinApproved (device 'd') ⟨[]⟩ (publicKey '3') ⟨[]⟩ ⟨[]⟩ ⟨[]⟩],
    signed 'c' '1' [eventId 'b'] (eventId 'g') [.deviceRevoked (device 'd')]]

def afterRevocation : VaultEvent := signed 'e' '3' [eventId 'c'] (eventId 'g') [.vaultCleared]

end TestSupport

end Nook.EventLog
