import Nook.Replication.ReplicaStore

set_option autoImplicit false

namespace Nook.Replication

open Nook.Lib

variable {Id : Type} [LinearOrder Id]

namespace ReplicaStore

/-- Remove one outbox entry of a provider, if it is queued. -/
def dequeueOutbox (store : ReplicaStore Id) (providerId : List Char) (eventId : Id) :
    ReplicaStore Id :=
  match store.outbox[providerId]? with
  | some entries =>
    { store with outbox := store.outbox.insert providerId (entries.erase eventId) }
  | none => store

def pendingOutbox (store : ReplicaStore Id) (providerId : List Char) : List (Id × List UInt8) :=
  match store.outbox[providerId]? with
  | some entries => entries.toList
  | none => []

@[simp] theorem events_queueOutbox (store : ReplicaStore Id) (providerId : List Char)
    (eventId : Id) (bytes : List UInt8) :
    (store.queueOutbox providerId eventId bytes).store.events = store.events := by
  unfold queueOutbox
  dsimp only
  split
  · rfl
  · rfl

@[simp] theorem events_dequeueOutbox (store : ReplicaStore Id) (providerId : List Char)
    (eventId : Id) : (store.dequeueOutbox providerId eventId).events = store.events := by
  unfold dequeueOutbox
  split
  · rfl
  · rfl

/-- A queued entry stays; a new one is the only change. -/
theorem queued_queueOutbox (store : ReplicaStore Id) (providerId other : List Char)
    (eventId id : Id) (bytes : List UInt8) :
    (store.queueOutbox providerId eventId bytes).store.queued other id =
      (store.queued other id).or
        (if providerId = other ∧ eventId = id then some bytes else none) := by
  unfold queueOutbox queued
  dsimp only
  by_cases same : providerId = other
  · subst same
    cases held : ((store.outbox[providerId]?).getD ∅)[eventId]? with
    | some existing =>
      dsimp only
      rw [BTreeMap.getElem?_insert_eq, if_pos rfl]
      cases entries : store.outbox[providerId]? with
      | none => simp [entries] at held
      | some entries' =>
        simp only [entries, Option.getD_some] at held
        simp only [Option.getD_some, Option.bind_some, true_and]
        by_cases own : eventId = id
        · rw [← own, held, Option.some_or]
        · rw [if_neg own, Option.or_none]
    | none =>
      dsimp only
      rw [BTreeMap.getElem?_insert_eq, if_pos rfl, Option.bind_some, BTreeMap.getElem?_insert_eq]
      cases entries : store.outbox[providerId]? with
      | none =>
        by_cases own : eventId = id
        · simp [own]
        · simp [own]
      | some entries' =>
        simp only [entries, Option.getD_some] at held
        simp only [Option.getD_some, Option.bind_some, true_and]
        by_cases own : eventId = id
        · rw [if_pos own, if_pos own, ← own, held, Option.none_or]
        · rw [if_neg own, if_neg own, Option.or_none]
  · rw [if_neg fun both => same both.1, Option.or_none]
    split
    · dsimp only
      rw [BTreeMap.getElem?_insert_eq, if_neg same]
    · dsimp only
      rw [BTreeMap.getElem?_insert_eq, if_neg same]

theorem queued_dequeueOutbox (store : ReplicaStore Id) (providerId other : List Char)
    (eventId id : Id) :
    (store.dequeueOutbox providerId eventId).queued other id =
      if providerId = other ∧ eventId = id then none else store.queued other id := by
  unfold dequeueOutbox queued
  by_cases same : providerId = other
  · subst same
    cases entries : store.outbox[providerId]? with
    | none => simp [entries]
    | some entries' =>
      dsimp only
      rw [BTreeMap.getElem?_insert_eq, if_pos rfl, Option.bind_some, Option.bind_some,
        Std.ExtTreeMap.getElem?_erase]
      by_cases own : eventId = id
      · simp [own]
      · simp [own]
  · rw [if_neg fun both => same both.1]
    split
    · rw [BTreeMap.getElem?_insert_eq, if_neg same]
    · rfl

theorem mem_pendingOutbox (store : ReplicaStore Id) (providerId : List Char) (id : Id)
    (bytes : List UInt8) :
    (id, bytes) ∈ store.pendingOutbox providerId ↔ store.queued providerId id = some bytes := by
  unfold pendingOutbox queued
  cases store.outbox[providerId]? with
  | none => simp
  | some entries => exact Std.ExtTreeMap.mem_toList_iff_getElem?_eq_some

end ReplicaStore

end Nook.Replication
