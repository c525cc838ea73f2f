import Nook.Lib.OrderedMap

set_option autoImplicit false

namespace Nook.Replication

open Nook.Lib

/-- Byte storage membership retains a stored empty event. -/
inductive ReplicaEventBytes where
  | unknownEvent
  | stored (bytes : List UInt8)
  deriving DecidableEq

/-- Result of inserting immutable bytes for an event identifier. -/
inductive ReplicaInsertStatus where
  | inserted
  | duplicate
  | conflict
  deriving DecidableEq

def ReplicaEventBytes.immutableInsertStatus (existing : ReplicaEventBytes)
    (incoming : List UInt8) : ReplicaInsertStatus :=
  match existing with
  | unknownEvent => .inserted
  | stored bytes => if bytes = incoming then .duplicate else .conflict

/-- Provider-neutral in-memory representation of immutable event bytes and
durable outbox entries. -/
structure ReplicaStore (Id : Type) [LinearOrder Id] where
  events : BTreeMap Id (List UInt8)
  outbox : BTreeMap (List Char) (BTreeMap Id (List UInt8))

structure ReplicaWrite (Id : Type) [LinearOrder Id] where
  store : ReplicaStore Id
  status : ReplicaInsertStatus

variable {Id : Type} [LinearOrder Id]

namespace ReplicaStore

def new : ReplicaStore Id := ⟨∅, ∅⟩

def getBytes (store : ReplicaStore Id) (eventId : Id) : ReplicaEventBytes :=
  match store.events[eventId]? with
  | some bytes => .stored bytes
  | none => .unknownEvent

def eventIds (store : ReplicaStore Id) : List Id := store.events.keys

def containsEvent (store : ReplicaStore Id) (eventId : Id) : Bool := store.events.contains eventId

def putEvent (store : ReplicaStore Id) (eventId : Id) (storageBytes : List UInt8) :
    ReplicaWrite Id :=
  match (store.getBytes eventId).immutableInsertStatus storageBytes with
  | .inserted =>
    ⟨{ store with events := store.events.insert eventId storageBytes }, .inserted⟩
  | status => ⟨store, status⟩

def queueOutbox (store : ReplicaStore Id) (providerId : List Char) (eventId : Id)
    (bytes : List UInt8) : ReplicaWrite Id :=
  let entries := (store.outbox[providerId]?).getD ∅
  match entries[eventId]? with
  | some queued =>
    ⟨{ store with outbox := store.outbox.insert providerId entries },
      if queued = bytes then .duplicate else .conflict⟩
  | none =>
    ⟨{ store with outbox := store.outbox.insert providerId (entries.insert eventId bytes) },
      .inserted⟩

/-- Commit a validated exclusion set across events and their pending writes. -/
def excludingEvents (store : ReplicaStore Id) (excluded : BTreeSet Id) : ReplicaStore Id where
  events := store.events.filter fun id _ => !excluded.contains id
  outbox := store.outbox.map fun _ entries => entries.filter fun id _ => !excluded.contains id

/-- An outbox entry of one provider. -/
def queued (store : ReplicaStore Id) (providerId : List Char) (eventId : Id) :
    Option (List UInt8) :=
  (store.outbox[providerId]?).bind fun entries => entries[eventId]?

theorem events_putEvent (store : ReplicaStore Id) (eventId : Id) (bytes : List UInt8) (id : Id) :
    (store.putEvent eventId bytes).store.events[id]? =
      (store.events[id]?).or (if eventId = id then some bytes else none) := by
  unfold putEvent getBytes
  cases found : store.events[eventId]? with
  | none =>
    simp only [ReplicaEventBytes.immutableInsertStatus, BTreeMap.getElem?_insert_eq]
    by_cases same : eventId = id
    · rw [if_pos same, ← same, found, if_pos rfl, Option.none_or]
    · rw [if_neg same, if_neg same, Option.or_none]
  | some existing =>
    have kept : store.events[id]? =
        (store.events[id]?).or (if eventId = id then some bytes else none) := by
      by_cases same : eventId = id
      · rw [← same, found, Option.some_or]
      · rw [if_neg same, Option.or_none]
    simp only [ReplicaEventBytes.immutableInsertStatus]
    split
    · rename_i impossible
      split at impossible <;> cases impossible
    · exact kept

@[simp] theorem outbox_putEvent (store : ReplicaStore Id) (eventId : Id) (bytes : List UInt8) :
    (store.putEvent eventId bytes).store.outbox = store.outbox := by
  unfold putEvent
  split <;> rfl

theorem events_excludingEvents (store : ReplicaStore Id) (excluded : BTreeSet Id) (id : Id) :
    (store.excludingEvents excluded).events[id]? =
      if id ∈ excluded then none else store.events[id]? := by
  unfold excludingEvents
  exact BTreeMap.getElem?_excluding store.events excluded id

/-- Of the outboxes, exactly the entries of excluded events go. -/
theorem queued_excludingEvents (store : ReplicaStore Id) (excluded : BTreeSet Id)
    (providerId : List Char) (id : Id) :
    (store.excludingEvents excluded).queued providerId id =
      if id ∈ excluded then none else store.queued providerId id := by
  unfold queued excludingEvents
  rw [BTreeMap.getElem?_map_eq]
  cases store.outbox[providerId]? with
  | none => simp
  | some entries =>
    rw [Option.map_some, Option.bind_some, Option.bind_some]
    exact BTreeMap.getElem?_excluding entries excluded id

end ReplicaStore

end Nook.Replication
