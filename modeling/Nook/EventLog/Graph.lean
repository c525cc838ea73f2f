import Nook.EventLog.Event
import Nook.Replication.CausalGraph

set_option autoImplicit false

namespace Nook.EventLog

open Nook.Lib Nook.Replication

/-- Immutable event set with causal metadata. -/
structure EventGraph where
  events : BTreeMap EventId VaultEvent
  causal : CausalGraph EventId

/-- Validation outcome when inserting into the graph. -/
inductive EventInsertStatus where
  | applied
  | pending (missingParents : List EventId)
  | quarantined (reason : String)
  | duplicate
  deriving DecidableEq

structure EventGraphInsertion where
  graph : EventGraph
  status : EventInsertStatus

structure EventGraphRejection where
  graph : EventGraph
  cause : EventError

inductive EventQuarantineDecision where
  | retain
  | quarantine (reason : String)
  deriving DecidableEq

/-- What `authorized_actors_before` collects while it walks the causal past. -/
structure AuthorizationScan where
  authorized : BTreeSet AuthKeyId
  actorByDevice : BTreeMap DeviceId AuthKeyId
  revokedDevices : BTreeSet DeviceId

variable [External]

namespace AuthorizationScan

def empty : AuthorizationScan := ⟨∅, ∅, ∅⟩

def bind (scan : AuthorizationScan) (deviceId : DeviceId) (key : DeviceSigningPublicKey) :
    EventResult AuthorizationScan :=
  if key.isEmpty then .ok scan
  else do
    let actor ← SigningIdentity.actorIdForPublicKeyHex key.asStr
    return { scan with
      actorByDevice := scan.actorByDevice.insert deviceId actor
      authorized := scan.authorized.insert actor }

def operation (scan : AuthorizationScan) : VaultOperation → EventResult AuthorizationScan
  | .joinApproved deviceId _ key _ _ _ => scan.bind deviceId key
  | .sentinelParticipantEnrolled deviceId _ key _ => scan.bind deviceId key
  | .deviceRevoked deviceId =>
    .ok { scan with revokedDevices := scan.revokedDevices.insert deviceId }
  | _ => .ok scan

def event (scan : AuthorizationScan) (event : VaultEvent) : EventResult AuthorizationScan :=
  let scan :=
    if event.body.parents.isEmpty && event.body.operations.any VaultOperation.isVaultImported then
      { scan with authorized := scan.authorized.insert event.body.actorId }
    else scan
  event.body.operations.foldlM operation scan

def removeDevice (scan : AuthorizationScan) (authorized : BTreeSet AuthKeyId)
    (deviceId : DeviceId) : BTreeSet AuthKeyId :=
  match scan.actorByDevice[deviceId]? with
  | some actor => authorized.erase actor
  | none => authorized

/-- The authorized actors, less the recorded actor of every revoked device. -/
def actors (scan : AuthorizationScan) : BTreeSet AuthKeyId :=
  scan.revokedDevices.toList.foldl scan.removeDevice scan.authorized

end AuthorizationScan

namespace EventGraph

def new : EventGraph := ⟨∅, CausalGraph.new⟩

def contains (graph : EventGraph) (id : EventId) : Bool := graph.causal.contains id

def quarantined (graph : EventGraph) : BTreeMap EventId String := graph.causal.quarantined

def heads (graph : EventGraph) : List EventId := graph.causal.heads

def isAncestor (graph : EventGraph) (ancestor descendant : EventId) : Bool :=
  graph.causal.isAncestor ancestor descendant

def areConcurrent (graph : EventGraph) (left right : EventId) : Bool :=
  graph.causal.areConcurrent left right

def applicableEvents (graph : EventGraph) : List VaultEvent :=
  graph.causal.applicableIds.filterMap fun id => graph.events[id]?

def pendingEvents (graph : EventGraph) : List (EventId × VaultEvent) :=
  graph.causal.pendingIds.filterMap fun id => (graph.events[id]?).map (Prod.mk id)

/-! ### Walks over the recorded event bodies -/

/-- The parent list of a recorded event, in the order of its body. -/
def bodyParents (graph : EventGraph) (id : EventId) : List EventId :=
  match graph.events[id]? with
  | some event => event.body.parents
  | none => []

def bodyParentCount (graph : EventGraph) : Nat :=
  (graph.events.keys.map fun id => (graph.bodyParents id).length).sum

/-- The causal past below `parents`, in the order a stack walk first sees it. -/
def pastOrder (graph : EventGraph) (parents : List EventId) : List EventId :=
  visitFrom graph.bodyParents (parents.length + graph.bodyParentCount) parents.reverse []

def scanRecorded (graph : EventGraph) (scan : AuthorizationScan) (id : EventId) :
    EventResult AuthorizationScan :=
  match graph.events[id]? with
  | some parentEvent => scan.event parentEvent
  | none => .ok scan

def authorizedActorsBefore (graph : EventGraph) (event : VaultEvent) :
    EventResult (BTreeSet AuthKeyId) := do
  let scan ← (graph.pastOrder event.body.parents).foldlM graph.scanRecorded
    AuthorizationScan.empty
  return scan.actors

/-- True when causal ancestry proves Sentinel architecture. -/
def ancestryHasSentinelArchitectureEvidence (graph : EventGraph) (event : VaultEvent) : Bool :=
  (graph.pastOrder event.body.parents).any fun id =>
    match graph.events[id]? with
    | some parent => parent.body.operations.any VaultOperation.isSentinelArchitectureEvidence
    | none => false

def operationIsSelfSigned (event : VaultEvent) (key : DeviceSigningPublicKey) :
    EventResult Bool := do
  if key.isEmpty then return false
  if event.body.actorSigningPublicKey ≠ key then return false
  let requestActor ← SigningIdentity.actorIdForPublicKeyHex key.asStr
  return requestActor = event.body.actorId

/-- Whether every operation is a self-signed membership operation; when they
are, whether some requests a join and whether some approves one. -/
def selfSignedMembership (event : VaultEvent) (joinRequested joinApproved : Bool) :
    List VaultOperation → EventResult (Option (Bool × Bool))
  | [] => .ok (some (joinRequested, joinApproved))
  | .joinRequested _ _ key _ :: operations => do
    if !(← operationIsSelfSigned event key) then return none
    selfSignedMembership event true joinApproved operations
  | .joinApproved _ _ key _ _ _ :: operations => do
    if !(← operationIsSelfSigned event key) then return none
    selfSignedMembership event joinRequested true operations
  | _ :: _ => .ok none

/-- Allow an unauthorized actor to publish its own membership event. -/
def isSelfSignedMembershipEvent (graph : EventGraph) (event : VaultEvent) : EventResult Bool := do
  if event.body.operations.isEmpty then return false
  match ← selfSignedMembership event false false event.body.operations with
  | none => return false
  | some (joinRequested, joinApproved) =>
    if joinApproved && graph.ancestryHasSentinelArchitectureEvidence event then return false
    return joinRequested || joinApproved

def validateEventActorAuthorized (graph : EventGraph) (event : VaultEvent) : EventResult Unit := do
  if event.body.parents.isEmpty then return ()
  if ← graph.isSelfSignedMembershipEvent event then return ()
  let authorized ← graph.authorizedActorsBefore event
  ensure (authorized.contains event.body.actorId) (.unauthorizedActor event.body.actorId.asStr)

def validateEpochCheckpointStructure (graph : EventGraph) (event : VaultEvent) :
    EventResult Unit := do
  match ← event.body.epochCheckpointRequirement with
  | .notRequired => return ()
  | .securityRotationParent parentId =>
    match graph.events[parentId]? with
    | none => throw (.missingEvent parentId.asStr)
    | some parent =>
      match parent.body.securityRotationTrigger with
      | .deviceRevoked => return ()
      | .other =>
        throw (.invalidEpochCheckpointStructure
          "checkpoint parent must be one security rotation trigger")

/-! ### Quarantine of rejected applicable events -/

def classifyEventActorQuarantine (graph : EventGraph) (event : VaultEvent) :
    EventResult EventQuarantineDecision :=
  match graph.validateEventActorAuthorized event with
  | .ok () => .ok .retain
  | .error (.unauthorizedActor actorId) =>
    .ok (.quarantine
      ("Event actor " ++ String.ofList actorId ++ " was not authorized in causal history"))
  | .error cause => .error cause

/-- The verdict on an event whose ancestors are recorded and not rejected. -/
def classifyEvent (graph : EventGraph) (event : VaultEvent) : EventResult EventQuarantineDecision :=
  match graph.validateEpochCheckpointStructure event with
  | .error (.invalidEpochCheckpointStructure reason) =>
    .ok (.quarantine s!"Invalid security epoch checkpoint: {reason}")
  | _ => graph.classifyEventActorQuarantine event

def classifyEventQuarantine (graph : EventGraph) (id : EventId) :
    EventResult EventQuarantineDecision :=
  if graph.causal.quarantined.contains id then .ok .retain
  else
    match graph.events[id]? with
    | none => .error (.missingEvent id.asStr)
    | some event =>
      if !graph.causal.ancestorIdsPresent event.body.parents then .ok .retain
      else if event.body.parents.any fun parent => graph.causal.quarantined.contains parent then
        .ok (.quarantine rejectedAncestorReason)
      else graph.classifyEvent event

/-- One pass over the ids: the graph after it and whether it quarantined anything. -/
def quarantinePass (graph : EventGraph) (changed : Bool) :
    List EventId → Except EventGraphRejection (EventGraph × Bool)
  | [] => .ok (graph, changed)
  | id :: ids =>
    match graph.classifyEventQuarantine id with
    | .ok .retain => graph.quarantinePass changed ids
    | .ok (.quarantine reason) =>
      quarantinePass { graph with causal := graph.causal.quarantine id reason } true ids
    | .error cause => .error ⟨graph, cause⟩

def quarantineRound (graph : EventGraph) :
    Round EventGraph (Except EventGraphRejection EventGraph) :=
  match graph.quarantinePass false graph.events.keys with
  | .error rejection => .done (.error rejection)
  | .ok (next, true) => .again next
  | .ok (next, false) => .done (.ok next)

/-- A pass that changes something quarantines a recorded event, so the bound on
the passes is never reached. -/
def quarantineRejectedApplicableEvents (graph : EventGraph) :
    Except EventGraphRejection EventGraph :=
  (runLoop quarantineRound (graph.events.size + 1) graph).getD (.ok graph)

/-! ### Insertion and union -/

inductive EventGraphAdmission where
  | duplicate
  | conflict (id : EventId)
  | insert (id : EventId)

def admission (graph : EventGraph) (event : VaultEvent) (expectedStoreId : Str) :
    EventResult EventGraphAdmission := do
  let storeId ← (StoreId.parse expectedStoreId).mapError .validation
  let eventId ← event.validateEnvelope storeId
  match graph.events[eventId]? with
  | some existing =>
    if (← existing.body.toCanonicalBytes) = (← event.body.toCanonicalBytes) then return .duplicate
    return .conflict eventId
  | none => return .insert eventId

def insertStatus (graph : EventGraph) (id : EventId) (inserted : CausalInsertStatus EventId) :
    EventInsertStatus :=
  match graph.causal.quarantined[id]? with
  | some reason => .quarantined reason
  | none =>
    match inserted with
    | .applied => .applied
    | .pending missingParents => .pending missingParents
    | .quarantined reason => .quarantined reason
    | .duplicate => .duplicate
    | .conflict => .quarantined conflictingParentsReason

/-- The graph with a new event recorded and indexed, before any verdict on it. -/
def recordEvent (graph : EventGraph) (id : EventId) (event : VaultEvent) : EventGraph where
  events := graph.events.insert id event
  causal := (graph.causal.insert id event.body.parents).graph

/-- Insert an event after envelope and current-schema signature validation. -/
def insert (graph : EventGraph) (event : VaultEvent) (expectedStoreId : Str) :
    Except EventGraphRejection EventGraphInsertion :=
  match graph.admission event expectedStoreId with
  | .error cause => .error ⟨graph, cause⟩
  | .ok .duplicate => .ok ⟨graph, .duplicate⟩
  | .ok (.conflict eventId) =>
    .ok ⟨{ graph with
      causal := graph.causal.quarantine eventId "Same event id with different canonical bytes" },
      .quarantined "hash mismatch at event path"⟩
  | .ok (.insert eventId) => do
    let inserted := (graph.causal.insert eventId event.body.parents).status
    let graph ← (graph.recordEvent eventId event).quarantineRejectedApplicableEvents
    return ⟨graph, graph.insertStatus eventId inserted⟩

/-- Insertion of a list of events, stopping at the first refusal. -/
def insertAll (expectedStoreId : Str) (graph : EventGraph) (events : List VaultEvent) :
    Except EventGraphRejection EventGraph :=
  events.foldlM (fun graph event => return (← graph.insert event expectedStoreId).graph) graph

def union (graph other : EventGraph) : EventGraph where
  events := graph.events.insertAbsent other.events.toList
  causal := graph.causal.union other.causal

/-! ### Validation and topological order -/

/-- Validate all applicable events against actors authorized in their causal past. -/
def validateAuthorizations (graph : EventGraph) : EventResult Unit := do
  let applicable := graph.applicableEvents
  ensure (applicable.countP (fun event => event.body.parents.isEmpty) ≤ 1) .multipleGenesisRoots
  applicable.forM fun event => do
    graph.validateEpochCheckpointStructure event
    graph.validateEventActorAuthorized event

/-- Deterministic topological order: ties broken by event id. -/
def topologicalOrder (graph : EventGraph) : EventResult (List EventId) := do
  graph.validateAuthorizations
  match graph.causal.topologicalOrder with
  | .ok order => return order
  | .error .cycle => throw .graphCycle
  | .error .topologicalSortStalled => throw .topologicalSortStalled

end EventGraph

end Nook.EventLog
