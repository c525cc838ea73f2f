import Nook.EventLog.GraphPast

set_option autoImplicit false

namespace Nook.EventLog

open Nook.Lib Nook.Replication Relation

namespace VaultOperation

/-- The device and the signing key that an approval binds to each other. -/
def boundKey : VaultOperation → Option (DeviceId × DeviceSigningPublicKey)
  | joinApproved deviceId _ key _ _ _ => if key.isEmpty then none else some (deviceId, key)
  | sentinelParticipantEnrolled deviceId _ key _ =>
    if key.isEmpty then none else some (deviceId, key)
  | _ => none

def revokedDevice : VaultOperation → Option DeviceId
  | deviceRevoked deviceId => some deviceId
  | _ => none

variable [External]

/-- The same with the actor of the key, when the key is one. -/
def binding (operation : VaultOperation) : Option (DeviceId × AuthKeyId) :=
  operation.boundKey.bind fun (deviceId, key) =>
    (SigningIdentity.actorIdForPublicKeyHex key.asStr).toOption.map (Prod.mk deviceId)

/-- The bound key, if any, names an actor. -/
def KeyParses (operation : VaultOperation) : Prop :=
  ∀ bound ∈ operation.boundKey,
    ∃ actor, SigningIdentity.actorIdForPublicKeyHex bound.2.asStr = .ok actor

end VaultOperation

namespace VaultEvent

/-- The author of an import without parents. -/
def genesisActors (event : VaultEvent) : List AuthKeyId :=
  if event.body.parents.isEmpty && event.body.operations.any VaultOperation.isVaultImported then
    [event.body.actorId]
  else []

def revokedDevices (event : VaultEvent) : List DeviceId :=
  event.body.operations.filterMap VaultOperation.revokedDevice

def bindings [External] (event : VaultEvent) : List (DeviceId × AuthKeyId) :=
  event.body.operations.filterMap VaultOperation.binding

end VaultEvent

/-- The actor that the last of `bindings` for the device binds to it. -/
def lastBinding (bindings : List (DeviceId × AuthKeyId)) (deviceId : DeviceId) : Option AuthKeyId :=
  (bindings.reverse.find? (·.1 = deviceId)).map Prod.snd

theorem lastBinding_concat (bindings : List (DeviceId × AuthKeyId)) (deviceId other : DeviceId)
    (actor : AuthKeyId) : lastBinding (bindings ++ [(other, actor)]) deviceId =
      if other = deviceId then some actor else lastBinding bindings deviceId := by
  unfold lastBinding
  rw [List.reverse_append]
  by_cases same : other = deviceId
  · simp [same]
  · simp [same]

/-- A binding that is the only one of its device is the last one. -/
theorem lastBinding_of_unique {bindings : List (DeviceId × AuthKeyId)} {deviceId : DeviceId}
    {actor : AuthKeyId} (member : (deviceId, actor) ∈ bindings)
    (unique : ∀ other, (deviceId, other) ∈ bindings → other = actor) :
    lastBinding bindings deviceId = some actor := by
  unfold lastBinding
  cases found : bindings.reverse.find? (·.1 = deviceId) with
  | none =>
    rw [List.find?_eq_none] at found
    simpa using found _ (List.mem_reverse.mpr member)
  | some entry =>
    have same := List.find?_some found
    have inside := List.mem_reverse.mp (List.mem_of_find?_eq_some found)
    rw [decide_eq_true_iff] at same
    rw [Option.map_some, unique entry.2 (same ▸ inside)]

theorem SigningIdentity.actorIdForPublicKeyHex_error [External] {raw : Str} {cause : EventError}
    (failed : actorIdForPublicKeyHex raw = .error cause) (actorId : Str) :
    cause ≠ .unauthorizedActor actorId := by
  rintro rfl
  unfold actorIdForPublicKeyHex at failed
  rcases bind_eq_error.mp failed with unparsed | ⟨key, _, unnamed⟩
  · unfold verifyingKeyFromPublicKeyHex at unparsed
    split at unparsed
    · cases unparsed
    · split at unparsed
      · cases unparsed
      · split at unparsed <;> cases unparsed
  · unfold actorIdForVerifyingKey AuthKeyId.fromDigestHex at unnamed
    split at unnamed <;> cases unnamed

namespace AuthorizationScan

variable [External]

/-- The scan has seen these genesis actors, bindings and revocations, in this order. -/
structure Describes (scan : AuthorizationScan) (roots : List AuthKeyId)
    (bindings : List (DeviceId × AuthKeyId)) (revoked : List DeviceId) : Prop where
  authorized_iff : ∀ actor, actor ∈ scan.authorized ↔
    actor ∈ roots ∨ ∃ deviceId, (deviceId, actor) ∈ bindings
  actor_eq : ∀ deviceId : DeviceId, scan.actorByDevice[deviceId]? = lastBinding bindings deviceId
  revoked_iff : ∀ deviceId, deviceId ∈ scan.revokedDevices ↔ deviceId ∈ revoked

variable {scan next : AuthorizationScan} {roots : List AuthKeyId}
  {bindings : List (DeviceId × AuthKeyId)} {revoked : List DeviceId}

omit [External] in
theorem describes_empty : empty.Describes [] [] [] where
  authorized_iff := by simp [empty]
  actor_eq := by simp [empty, lastBinding]
  revoked_iff := by simp [empty]

theorem Describes.bind (describes : scan.Describes roots bindings revoked) {deviceId : DeviceId}
    {key : DeviceSigningPublicKey} {actor : AuthKeyId} (nonempty : key.isEmpty = false)
    (parsed : SigningIdentity.actorIdForPublicKeyHex key.asStr = .ok actor)
    (bound : scan.bind deviceId key = .ok next) :
    next.Describes roots (bindings ++ [(deviceId, actor)]) revoked := by
  unfold AuthorizationScan.bind at bound
  rw [nonempty, if_neg Bool.false_ne_true, parsed] at bound
  cases bound
  constructor
  · intro other
    simp only [Std.ExtTreeSet.mem_insert, compare_eq_iff_eq, describes.authorized_iff,
      List.mem_append, List.mem_singleton, Prod.mk.injEq, exists_or]
    constructor
    · rintro (rfl | root | found)
      · exact Or.inr (Or.inr ⟨deviceId, rfl, rfl⟩)
      · exact Or.inl root
      · exact Or.inr (Or.inl found)
    · rintro (root | found | ⟨_, _, rfl⟩)
      · exact Or.inr (Or.inl root)
      · exact Or.inr (Or.inr found)
      · exact Or.inl rfl
  · intro other
    rw [lastBinding_concat, ← describes.actor_eq, BTreeMap.getElem?_insert_eq]
  · exact describes.revoked_iff

/-- One operation of a past event extends what the scan has seen by what it does. -/
theorem Describes.operation (describes : scan.Describes roots bindings revoked)
    (operation : VaultOperation) (scanned : scan.operation operation = .ok next) :
    next.Describes roots (bindings ++ operation.binding.toList)
        (revoked ++ operation.revokedDevice.toList) ∧ operation.KeyParses := by
  have keyed : ∀ (deviceId : DeviceId) (key : DeviceSigningPublicKey),
      scan.bind deviceId key = .ok next →
      operation.boundKey = (if key.isEmpty then none else some (deviceId, key)) →
      operation.revokedDevice = none →
      next.Describes roots (bindings ++ operation.binding.toList)
        (revoked ++ operation.revokedDevice.toList) ∧ operation.KeyParses := by
    intro deviceId key bound keyOf keeps
    rw [keeps, Option.toList_none, List.append_nil]
    unfold VaultOperation.binding VaultOperation.KeyParses
    rw [keyOf]
    by_cases missing : key.isEmpty
    · rw [if_pos missing]
      unfold AuthorizationScan.bind at bound
      rw [if_pos missing] at bound
      cases bound
      exact ⟨by simpa using describes, by simp⟩
    · rw [Bool.not_eq_true] at missing
      rw [if_neg (by simp [missing])]
      cases parsed : SigningIdentity.actorIdForPublicKeyHex key.asStr with
      | error cause =>
        unfold AuthorizationScan.bind at bound
        rw [missing, if_neg Bool.false_ne_true, parsed] at bound
        cases bound
      | ok actor =>
        refine ⟨?_, by simp [parsed]⟩
        simpa [parsed, Except.toOption] using describes.bind missing parsed bound
  cases operation with
  | joinApproved deviceId _ key => exact keyed deviceId key scanned rfl rfl
  | sentinelParticipantEnrolled deviceId _ key => exact keyed deviceId key scanned rfl rfl
  | deviceRevoked deviceId =>
    cases scanned
    refine ⟨⟨?_, ?_, ?_⟩, by simp [VaultOperation.KeyParses, VaultOperation.boundKey]⟩
    · simpa [VaultOperation.binding, VaultOperation.boundKey] using describes.authorized_iff
    · simpa [VaultOperation.binding, VaultOperation.boundKey] using describes.actor_eq
    · intro other
      simp only [Std.ExtTreeSet.mem_insert, compare_eq_iff_eq, describes.revoked_iff,
        VaultOperation.revokedDevice, Option.toList_some, List.mem_append, List.mem_singleton]
      rw [eq_comm, or_comm]
  | _ =>
    cases scanned
    refine ⟨?_, by simp [VaultOperation.KeyParses, VaultOperation.boundKey]⟩
    simpa [VaultOperation.binding, VaultOperation.boundKey, VaultOperation.revokedDevice]
      using describes

theorem Describes.operations (operations : List VaultOperation) {scan : AuthorizationScan}
    {bindings : List (DeviceId × AuthKeyId)} {revoked : List DeviceId}
    (describes : scan.Describes roots bindings revoked)
    (scanned : operations.foldlM AuthorizationScan.operation scan = .ok next) :
    next.Describes roots (bindings ++ operations.filterMap VaultOperation.binding)
        (revoked ++ operations.filterMap VaultOperation.revokedDevice) ∧
      ∀ operation ∈ operations, operation.KeyParses := by
  induction operations generalizing scan bindings revoked with
  | nil =>
    cases scanned
    exact ⟨by simpa using describes, by simp⟩
  | cons head tail ih =>
    obtain ⟨middle, first, rest⟩ := bind_eq_ok.mp scanned
    obtain ⟨headDescribes, headParses⟩ := describes.operation head first
    obtain ⟨tailDescribes, tailParses⟩ := ih headDescribes rest
    refine ⟨?_, List.forall_mem_cons.mpr ⟨headParses, tailParses⟩⟩
    have bound : bindings ++ (head :: tail).filterMap VaultOperation.binding =
        bindings ++ head.binding.toList ++ tail.filterMap VaultOperation.binding := by
      cases same : head.binding <;> simp [same]
    have dropped : revoked ++ (head :: tail).filterMap VaultOperation.revokedDevice =
        revoked ++ head.revokedDevice.toList ++ tail.filterMap VaultOperation.revokedDevice := by
      cases same : head.revokedDevice <;> simp [same]
    rw [bound, dropped]
    exact tailDescribes

theorem Describes.event (describes : scan.Describes roots bindings revoked) (event : VaultEvent)
    (scanned : scan.event event = .ok next) :
    next.Describes (roots ++ event.genesisActors) (bindings ++ event.bindings)
        (revoked ++ event.revokedDevices) ∧
      ∀ operation ∈ event.body.operations, operation.KeyParses := by
  unfold AuthorizationScan.event at scanned
  refine Describes.operations event.body.operations ?_ scanned
  unfold VaultEvent.genesisActors
  split
  · refine ⟨?_, describes.actor_eq, describes.revoked_iff⟩
    intro actor
    simp only [Std.ExtTreeSet.mem_insert, compare_eq_iff_eq, describes.authorized_iff,
      List.mem_append, List.mem_singleton]
    rw [eq_comm (a := event.body.actorId)]
    tauto
  · simpa using describes

theorem Describes.events (events : List VaultEvent) {scan : AuthorizationScan}
    {roots : List AuthKeyId} {bindings : List (DeviceId × AuthKeyId)} {revoked : List DeviceId}
    (describes : scan.Describes roots bindings revoked)
    (scanned : events.foldlM AuthorizationScan.event scan = .ok next) :
    next.Describes (roots ++ events.flatMap VaultEvent.genesisActors)
        (bindings ++ events.flatMap VaultEvent.bindings)
        (revoked ++ events.flatMap VaultEvent.revokedDevices) ∧
      ∀ event ∈ events, ∀ operation ∈ event.body.operations, operation.KeyParses := by
  induction events generalizing scan roots bindings revoked with
  | nil =>
    cases scanned
    exact ⟨by simpa using describes, by simp⟩
  | cons head tail ih =>
    obtain ⟨middle, first, rest⟩ := bind_eq_ok.mp scanned
    obtain ⟨headDescribes, headParses⟩ := describes.event head first
    obtain ⟨tailDescribes, tailParses⟩ := ih headDescribes rest
    simp only [List.append_assoc] at tailDescribes
    exact ⟨tailDescribes, List.forall_mem_cons.mpr ⟨headParses, tailParses⟩⟩

omit [External] in
/-- A revocation takes the recorded actor of the device out of the authorized set. -/
theorem mem_actors (scan : AuthorizationScan) (actor : AuthKeyId) :
    actor ∈ scan.actors ↔ actor ∈ scan.authorized ∧
      ∀ deviceId ∈ scan.revokedDevices, scan.actorByDevice[deviceId]? ≠ some actor := by
  have erased : ∀ (devices : List DeviceId) (authorized : BTreeSet AuthKeyId),
      actor ∈ devices.foldl scan.removeDevice authorized ↔
      actor ∈ authorized ∧ ∀ deviceId ∈ devices, scan.actorByDevice[deviceId]? ≠ some actor := by
    intro devices
    induction devices with
    | nil => simp
    | cons device devices ih =>
      intro authorized
      rw [List.foldl_cons, ih, List.forall_mem_cons]
      unfold removeDevice
      cases scan.actorByDevice[device]? with
      | none => simp
      | some recorded =>
        simp only [Std.ExtTreeSet.mem_erase, compare_eq_iff_eq, ne_eq, Option.some.injEq]
        tauto
  unfold actors
  rw [erased]
  simp only [Std.ExtTreeSet.mem_toList]

/-- A scan fails only on a key that names no actor. -/
theorem event_error (scan : AuthorizationScan) (event : VaultEvent) {cause : EventError}
    (failed : scan.event event = .error cause) (actorId : Str) :
    cause ≠ .unauthorizedActor actorId := by
  unfold AuthorizationScan.event at failed
  refine foldlM_error (P := fun cause => cause ≠ .unauthorizedActor actorId) ?_ _ _ failed
  intro scan operation cause failed
  have keyed : ∀ (deviceId : DeviceId) (key : DeviceSigningPublicKey),
      scan.bind deviceId key = .error cause → cause ≠ .unauthorizedActor actorId := by
    intro deviceId key failed
    unfold AuthorizationScan.bind at failed
    split at failed
    · cases failed
    · rcases bind_eq_error.mp failed with unparsed | ⟨actor, _, impossible⟩
      · exact SigningIdentity.actorIdForPublicKeyHex_error unparsed actorId
      · cases impossible
  cases operation with
  | joinApproved deviceId _ key => exact keyed deviceId key failed
  | sentinelParticipantEnrolled deviceId _ key => exact keyed deviceId key failed
  | _ => cases failed

theorem operations_ok (operations : List VaultOperation) (scan : AuthorizationScan)
    (parse : ∀ operation ∈ operations, operation.KeyParses) :
    ∃ next, operations.foldlM AuthorizationScan.operation scan = .ok next := by
  induction operations generalizing scan with
  | nil => exact ⟨scan, rfl⟩
  | cons head tail ih =>
    rw [List.forall_mem_cons] at parse
    have step : ∃ next, scan.operation head = .ok next := by
      have keyed : ∀ (deviceId : DeviceId) (key : DeviceSigningPublicKey),
          head.boundKey = (if key.isEmpty then none else some (deviceId, key)) →
          ∃ next, scan.bind deviceId key = .ok next := by
        intro deviceId key keyOf
        unfold AuthorizationScan.bind
        by_cases missing : key.isEmpty
        · exact ⟨scan, by rw [if_pos missing]⟩
        · obtain ⟨actor, parsed⟩ := parse.1 (deviceId, key) (by rw [keyOf, if_neg missing]; rfl)
          rw [if_neg missing, parsed]
          exact ⟨_, rfl⟩
      cases head with
      | joinApproved deviceId _ key => exact keyed deviceId key rfl
      | sentinelParticipantEnrolled deviceId _ key => exact keyed deviceId key rfl
      | _ => exact ⟨_, rfl⟩
    obtain ⟨middle, first⟩ := step
    obtain ⟨next, rest⟩ := ih middle parse.2
    exact ⟨next, bind_eq_ok.mpr ⟨middle, first, rest⟩⟩

theorem events_ok (events : List VaultEvent) (scan : AuthorizationScan)
    (parse : ∀ event ∈ events, ∀ operation ∈ event.body.operations, operation.KeyParses) :
    ∃ next, events.foldlM AuthorizationScan.event scan = .ok next := by
  induction events generalizing scan with
  | nil => exact ⟨scan, rfl⟩
  | cons head tail ih =>
    rw [List.forall_mem_cons] at parse
    obtain ⟨middle, first⟩ : ∃ next, scan.event head = .ok next :=
      operations_ok head.body.operations _ parse.1
    obtain ⟨next, rest⟩ := ih middle parse.2
    exact ⟨next, bind_eq_ok.mpr ⟨middle, first, rest⟩⟩

end AuthorizationScan

namespace EventGraph

variable {graph : EventGraph}

/-- The recorded events below `parents`, in the order the walk meets them. -/
def pastEvents (graph : EventGraph) (parents : List EventId) : List (EventId × VaultEvent) :=
  (graph.pastOrder parents).filterMap fun id => (graph.events[id]?).map (Prod.mk id)

def pastGenesisActors (graph : EventGraph) (parents : List EventId) : List AuthKeyId :=
  (graph.pastEvents parents).flatMap fun past => past.2.genesisActors

def pastRevokedDevices (graph : EventGraph) (parents : List EventId) : List DeviceId :=
  (graph.pastEvents parents).flatMap fun past => past.2.revokedDevices

theorem mem_pastEvents (graph : EventGraph) (parents : List EventId) (id : EventId)
    (event : VaultEvent) : (id, event) ∈ graph.pastEvents parents ↔
      id ∈ graph.pastOrder parents ∧ graph.events[id]? = some event := by
  unfold pastEvents
  simp only [List.mem_filterMap, Option.map_eq_some_iff, Prod.mk.injEq]
  constructor
  · rintro ⟨other, member, found, recorded, rfl, rfl⟩
    exact ⟨member, recorded⟩
  · rintro ⟨member, recorded⟩
    exact ⟨id, member, event, recorded, rfl, rfl⟩

variable [External]

def pastBindings (graph : EventGraph) (parents : List EventId) : List (DeviceId × AuthKeyId) :=
  (graph.pastEvents parents).flatMap fun past => past.2.bindings

/-- Every key bound below `parents` names an actor. -/
def PastKeysParse (graph : EventGraph) (parents : List EventId) : Prop :=
  ∀ past ∈ graph.pastEvents parents, ∀ operation ∈ past.2.body.operations, operation.KeyParses

theorem authorizedActorsBefore_eq (graph : EventGraph) (event : VaultEvent) :
    graph.authorizedActorsBefore event = do
      let scan ← ((graph.pastEvents event.body.parents).map Prod.snd).foldlM
        AuthorizationScan.event AuthorizationScan.empty
      return scan.actors := by
  have walked : ∀ (ids : List EventId) (scan : AuthorizationScan),
      ids.foldlM graph.scanRecorded scan =
      ((ids.filterMap fun id => (graph.events[id]?).map (Prod.mk id)).map Prod.snd).foldlM
        AuthorizationScan.event scan := by
    intro ids
    induction ids with
    | nil => exact fun _ => rfl
    | cons id ids ih =>
      intro scan
      rw [List.foldlM_cons]
      unfold scanRecorded
      cases found : graph.events[id]? with
      | none =>
        rw [List.filterMap_cons_none (by rw [found]; rfl)]
        exact ih scan
      | some parentEvent =>
        rw [List.filterMap_cons_some (by rw [found]; rfl), List.map_cons, List.foldlM_cons]
        dsimp only
        congr 1
        funext next
        exact ih next
  unfold authorizedActorsBefore pastEvents
  rw [walked]

/-- The actors that may append below `parents`: the genesis author and the bound
actors, less the last bound actor of each revoked device. -/
theorem mem_authorizedActorsBefore {event : VaultEvent} {actors : BTreeSet AuthKeyId}
    (collected : graph.authorizedActorsBefore event = .ok actors) (actor : AuthKeyId) :
    actor ∈ actors ↔
      (actor ∈ graph.pastGenesisActors event.body.parents ∨
        ∃ deviceId, (deviceId, actor) ∈ graph.pastBindings event.body.parents) ∧
      ∀ deviceId ∈ graph.pastRevokedDevices event.body.parents,
        lastBinding (graph.pastBindings event.body.parents) deviceId ≠ some actor := by
  rw [authorizedActorsBefore_eq] at collected
  obtain ⟨scan, scanned, same⟩ := bind_eq_ok.mp collected
  cases same
  have describes := (AuthorizationScan.describes_empty.events _ scanned).1
  simp only [List.nil_append, List.flatMap_map] at describes
  rw [AuthorizationScan.mem_actors, describes.authorized_iff]
  simp only [describes.revoked_iff, describes.actor_eq]
  rfl

theorem authorizedActorsBefore_ok_iff (graph : EventGraph) (event : VaultEvent) :
    (∃ actors, graph.authorizedActorsBefore event = .ok actors) ↔
      graph.PastKeysParse event.body.parents := by
  rw [authorizedActorsBefore_eq]
  constructor
  · rintro ⟨actors, collected⟩
    obtain ⟨scan, scanned, _⟩ := bind_eq_ok.mp collected
    intro past member
    exact (AuthorizationScan.describes_empty.events _ scanned).2 past.2 (List.mem_map_of_mem member)
  · intro parse
    obtain ⟨scan, scanned⟩ := AuthorizationScan.events_ok
      ((graph.pastEvents event.body.parents).map Prod.snd) AuthorizationScan.empty (by
        intro past member
        obtain ⟨entry, inside, rfl⟩ := List.mem_map.mp member
        exact parse entry inside)
    exact ⟨scan.actors, bind_eq_ok.mpr ⟨scan, scanned, rfl⟩⟩

theorem authorizedActorsBefore_error {event : VaultEvent} {cause : EventError}
    (failed : graph.authorizedActorsBefore event = .error cause) (actorId : Str) :
    cause ≠ .unauthorizedActor actorId := by
  rw [authorizedActorsBefore_eq] at failed
  rcases bind_eq_error.mp failed with scanFailed | ⟨scan, _, impossible⟩
  · exact foldlM_error (P := fun cause => cause ≠ .unauthorizedActor actorId)
      (fun scan event _ failed => scan.event_error event failed actorId) _ _ scanFailed
  · cases impossible

end EventGraph

end Nook.EventLog
