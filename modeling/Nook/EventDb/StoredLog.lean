import Nook.EventLog.LocalEventStore
import Nook.EventLog.Projection
import Mathlib.Data.List.Sort

set_option autoImplicit false

namespace Nook.EventDb

open Nook.Lib Nook.Replication Nook.EventLog

/-- A record of an IndexedDB object store. -/
inductive StoredRecord (α : Type) where
  | missingKey
  | stored (value : α)
  deriving DecidableEq

/-- What one browser stores of the log of one vault: the event rows by the text of
their ids, the index of these ids and the heads. -/
structure StoredLog where
  events : BTreeMap Str String
  index : StoredRecord (List Str)
  heads : StoredRecord (List Str)

inductive NookError where
  | event (cause : EventError)
  | database (message : String)
  /-- A message that ends in the list of missing parents. -/
  | unresolvedParents (message : String) (missing : List EventId)
  | serialization (cause : String)

abbrev NookResult (α : Type) := Except NookError α

def require (check : Bool) (message : String) : NookResult Unit :=
  if check then .ok () else .error (.database message)

@[simp] theorem require_eq_ok (check : Bool) (message : String) :
    require check message = .ok () ↔ check = true := by
  cases check <;> simp [require]

/-- One admitted event and its exact serialized storage bytes. -/
structure EventAppend where
  event : VaultEvent
  bytes : EventStorageBytes

/-- Atomic trigger and checkpoint append for one security-epoch transition. -/
structure EpochPairAppend where
  trigger : EventAppend
  checkpoint : EventAppend

structure EventBytes where
  eventId : EventId
  bytes : EventStorageBytes

/-- The event rows and the listed ids inside a live transaction. -/
structure TransactionEvents where
  events : BTreeMap Str String
  ids : List Str

structure VaultAppendGraph where
  graph : EventGraph
  storeId : Str

/-- What an append admitted, bound to the rows of its transaction. -/
structure PreparedEventAppend where
  transaction : TransactionEvents
  graph : EventGraph
  entries : List EventBytes

variable [External] [Storage]

/-- `sort` of a vector. -/
def sorted {α : Type} [LinearOrder α] (list : List α) : List α := list.insertionSort (· ≤ ·)

omit [External] [Storage] in
@[simp] theorem mem_sorted {α : Type} [LinearOrder α] (list : List α) (a : α) :
    a ∈ sorted list ↔ a ∈ list :=
  List.mem_insertionSort (· ≤ ·)

/-! ### Reading the log -/

def textBytes (value : String) : EventStorageBytes := value.toByteArray.data.toList

namespace TransactionEvents

omit [Storage] in
/-- An id without a row, or that does not parse, is skipped. -/
def loadRow (transaction : TransactionEvents) (store : LocalEventStore) (rawId : Str) :
    LocalEventStore :=
  match transaction.events[rawId]?, EventId.parse rawId with
  | some value, .ok eventId => store.putEvent eventId (textBytes value)
  | _, _ => store

omit [Storage] in
def localStore (transaction : TransactionEvents) : LocalEventStore :=
  transaction.ids.foldl transaction.loadRow .new

end TransactionEvents

namespace StoredLog

omit [External] [Storage] in
def empty : StoredLog := ⟨∅, .missingKey, .missingKey⟩

omit [External] [Storage] in
def load (log : StoredLog) : TransactionEvents :=
  match log.index with
  | .missingKey => ⟨log.events, []⟩
  | .stored ids => ⟨log.events, sorted ids⟩

omit [External] [Storage] in
def storedHeads (log : StoredLog) : List Str :=
  match log.heads with
  | .missingKey => []
  | .stored heads => heads

end StoredLog

/-! ### Admission -/

namespace VaultAppendGraph

omit [Storage] in
/-- Insert an event into the candidate graph; what would not be applied is refused. -/
def admitEvent (graph : VaultAppendGraph) (refusing unresolved : String) (event : VaultEvent) :
    NookResult VaultAppendGraph :=
  match graph.graph.insert event graph.storeId with
  | .error rejected => .error (.event rejected.cause)
  | .ok inserted =>
    match inserted.status with
    | .applied => .ok { graph with graph := inserted.graph }
    | .duplicate => .ok { graph with graph := inserted.graph }
    | .quarantined reason => .error (.database (refusing ++ reason))
    | .pending missing => .error (.unresolvedParents unresolved missing)

omit [Storage] in
def insert (graph : VaultAppendGraph) (event : VaultEvent) :
    NookResult (VaultAppendGraph × EventId) := do
  let eventId ← event.id.mapError .event
  require (graph.graph.contains eventId ||
      sorted graph.graph.heads = sorted event.body.parents)
    "Vault changed before the event could commit."
  let admitted ← graph.admitEvent "Refusing to append unauthorized vault event: "
    "Refusing to append vault event with unresolved parents: " event
  return (admitted, eventId)

omit [Storage] in
/-- The frontier check of a pair. A stored trigger resumes, while it is the only head. -/
def checkPairFrontier (graph : VaultAppendGraph) (trigger : VaultEvent)
    (triggerId checkpointId : EventId) : NookResult Unit :=
  if !graph.graph.contains triggerId then
    require (sorted graph.graph.heads = sorted trigger.body.parents)
      "Vault changed before the security epoch pair could commit."
  else
    require (graph.graph.contains checkpointId || graph.graph.heads = [triggerId])
      "Vault changed between the security epoch trigger and checkpoint."

omit [Storage] in
def insertPair (graph : VaultAppendGraph) (request : EpochPairAppend) :
    NookResult (VaultAppendGraph × EventId × EventId) := do
  let trigger := request.trigger.event
  let checkpoint := request.checkpoint.event
  let triggerId ← trigger.id.mapError .event
  let checkpointId ← checkpoint.id.mapError .event
  require (checkpoint.body.parents = [triggerId] && checkpoint.body.keyEpoch = triggerId)
    "Security epoch checkpoint does not directly commit its trigger."
  graph.checkPairFrontier trigger triggerId checkpointId
  let graph ← [trigger, checkpoint].foldlM
    (admitEvent · "Refusing conflicting security epoch event: "
      "Refusing security epoch event with unresolved parents: ") graph
  let projection ← (VaultProjection.fromGraph graph.graph graph.storeId).mapError .event
  require (!projection.securityConflicts.any fun conflict =>
      conflict.events.contains triggerId || conflict.events.contains checkpointId)
    "Concurrent security epoch transition detected; recovery is required."
  return (graph, triggerId, checkpointId)

end VaultAppendGraph

/-! ### Commits -/

namespace TransactionEvents

omit [External] [Storage] in
/-- Put the row of an event; its bytes are the caller's. -/
def put (transaction : TransactionEvents) (entry : EventBytes) : NookResult TransactionEvents :=
  match String.fromUTF8? ⟨entry.bytes.toArray⟩ with
  | none => .error (.serialization "invalid utf-8 sequence")
  | some value =>
    let rawId := entry.eventId.asStr
    .ok {
      events := transaction.events.insert rawId value
      ids := if transaction.ids.contains rawId then transaction.ids
        else transaction.ids ++ [rawId] }

omit [External] [Storage] in
/-- Put the row of an admitted event, unless its id was listed before. -/
def putAdmitted (transaction : TransactionEvents) (store : LocalEventStore)
    (events : BTreeMap Str String) (eventId : EventId) : NookResult (BTreeMap Str String) :=
  if transaction.ids.contains eventId.asStr then .ok events
  else
    match store.getBytes eventId with
    | .unknownEvent => .error (.database "Admitted remote event bytes are missing.")
    | .stored bytes =>
      match String.fromUTF8? ⟨bytes.toArray⟩ with
      | none => .error (.serialization "invalid utf-8 sequence")
      | some value => .ok (events.insert eventId.asStr value)

omit [External] [Storage] in
/-- The listed ids that a union dropped. -/
def removed (transaction : TransactionEvents) (acceptedIds : List Str) : List Str :=
  transaction.ids.filter fun rawId => !acceptedIds.contains rawId

end TransactionEvents

omit [External] [Storage] in
def PreparedEventAppend.commit (prepared : PreparedEventAppend) : NookResult StoredLog := do
  let written ← prepared.entries.foldlM TransactionEvents.put prepared.transaction
  return {
    events := written.events
    index := .stored (sorted written.ids)
    heads := .stored (prepared.graph.heads.map Text.asStr) }

namespace StoredLog

/-! ### The three transactions. A failed one leaves the log as it was. -/

def prepareAppend (log : StoredLog) (storeId : Str) (request : EventAppend) :
    NookResult PreparedEventAppend := do
  let transaction := log.load
  let graph ← (transaction.localStore.loadGraph storeId).mapError .event
  let (admitted, eventId) ← VaultAppendGraph.insert ⟨graph, storeId⟩ request.event
  return ⟨transaction, admitted.graph, [⟨eventId, request.bytes⟩]⟩

def append (log : StoredLog) (storeId : Str) (request : EventAppend) : NookResult StoredLog := do
  (← log.prepareAppend storeId request).commit

def preparePair (log : StoredLog) (storeId : Str) (request : EpochPairAppend) :
    NookResult PreparedEventAppend := do
  let transaction := log.load
  let graph ← (transaction.localStore.loadGraph storeId).mapError .event
  let (admitted, triggerId, checkpointId) ←
    VaultAppendGraph.insertPair ⟨graph, storeId⟩ request
  return ⟨transaction, admitted.graph,
    [⟨triggerId, request.trigger.bytes⟩, ⟨checkpointId, request.checkpoint.bytes⟩]⟩

def appendEpochPair (log : StoredLog) (storeId : Str) (request : EpochPairAppend) :
    NookResult StoredLog := do
  (← log.preparePair storeId request).commit

def unionRemote (log : StoredLog) (storeId : Str)
    (remoteEvents : List (EventId × EventStorageBytes)) : NookResult StoredLog := do
  let transaction := log.load
  let outcome ← (transaction.localStore.unionRemote ⟨remoteEvents, storeId⟩).mapError
    fun rejected => .event rejected.cause
  let graph ← (outcome.store.loadGraph storeId).mapError .event
  let projection ← (VaultProjection.fromGraph graph storeId).mapError .event
  require projection.securityConflicts.isEmpty
    "Remote events conflict with a concurrent security transition."
  let events ← outcome.store.eventIds.foldlM (transaction.putAdmitted outcome.store) log.events
  let ids := sorted (outcome.store.eventIds.map Text.asStr)
  return {
    events := (transaction.removed ids).foldl (fun events rawId => events.erase rawId) events
    index := .stored ids
    heads := .stored outcome.heads }

end StoredLog

end Nook.EventDb
