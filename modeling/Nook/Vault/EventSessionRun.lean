import Nook.EventLog.CleanStore
import Nook.Vault.EventSession

set_option autoImplicit false

namespace Nook.Vault

open Nook.Lib Nook.Replication Nook.EventLog

variable [External] [Storage] [EventWriter] [VaultEpochCrypto]

/-! ### Runs of session operations -/

inductive SessionAction where
  | append (input : VaultEventAppend)
  | rotate (input : VaultSecurityEpochRotationInput)
  | union (remoteEvents : List (EventId × EventStorageBytes))
  | flush (providerId : Str) (remote : LocalEventStore)

def SessionAction.destination : SessionAction → EventPublicationDestination
  | append input => input.destination
  | rotate input => input.destination
  | _ => .localOnly

/-- The entries that the outbox of the destination owes for published events. -/
def EventPublicationDestination.owes :
    EventPublicationDestination → List EventId → List (Str × EventId)
  | provider providerId, ids => ids.map (Prod.mk providerId)
  | localOnly, _ => []

namespace VaultEventSession

/-- The session after an operation, accepted or refused. -/
def perform (session : VaultEventSession) : SessionAction → VaultEventSession
  | .append input => match session.appendOperations input with
    | .ok appended => appended.session
    | .error rejection => rejection.session
  | .rotate input => match session.rotateSecurityEpoch input with
    | .ok rotated => rotated.session
    | .error rejection => rejection.session
  | .union remoteEvents => match session.unionRemote remoteEvents with
    | .ok joined => joined
    | .error rejection => rejection.session
  | .flush providerId remote => (session.flushOutboxToRemote providerId remote).session

/-- The events that an accepted operation publishes. -/
def published (session : VaultEventSession) : SessionAction → List EventId
  | .append input => match session.prepareAppend input with
    | .ok (prepared, _) => prepared.map PreparedSessionEvent.eventId
    | .error _ => []
  | .rotate input => match session.prepareRotation input with
    | .ok (prepared, _) => prepared.map PreparedSessionEvent.eventId
    | .error _ => []
  | _ => []

/-- The events that an operation builds. -/
def built (session : VaultEventSession) : SessionAction → List VaultEvent
  | .append input => match session.appendedEvent input with
    | .ok event => [event.1]
    | .error _ => []
  | .rotate input => match session.epochPair input with
    | .ok pair => [pair.trigger.1, pair.checkpoint.1]
    | .error _ => []
  | _ => []

end VaultEventSession

/-- A session with the outbox entries it owes: an entry for every event published to a
provider that has been stored ever since and not been flushed to the provider. -/
structure SessionRun where
  session : VaultEventSession
  owed : List (Str × EventId)

namespace SessionRun

def step (run : SessionRun) (action : SessionAction) : SessionRun :=
  let session := run.session.perform action
  let due := run.owed ++ action.destination.owes (run.session.published action)
  let unflushed : List (Str × EventId) := match action with
    | .flush providerId _ => due.filter fun entry => entry.1 ≠ providerId
    | _ => due
  ⟨session, unflushed.filter fun entry => session.store.getBytes entry.2 ≠ .unknownEvent⟩

def after (run : SessionRun) (actions : List SessionAction) : SessionRun :=
  actions.foldl step run

end SessionRun

/-! ### What is assumed of the encodings -/

/-- What the session relies on of the third-party encodings: the text of a digest
parses to itself, and what the YAML writer wrote reads back. -/
structure FaithfulEncoding : Prop where
  parse_digest : ∀ (body : CanonicalEventBodyBytes) (id : EventId),
    EventId.parse (EventId.fromBodyBytes body).asStr = .ok id → id = EventId.fromBodyBytes body
  reads_back : ∀ (input : AppendEventInput) (event : VaultEvent) (bytes : EventStorageBytes),
    input.build = .ok (event, bytes) → VaultEvent.parseEventStorageBytes bytes = .ok event

/-- Events with one id have one parent set: no two of them collide under SHA-256. -/
def IdsBind (events : List VaultEvent) : Prop :=
  ∀ left ∈ events, ∀ right ∈ events, left.id = right.id →
    normalizeParents left.body.parents = normalizeParents right.body.parents

instance (events : List VaultEvent) : Decidable (IdsBind events) :=
  inferInstanceAs (Decidable (∀ left ∈ events, ∀ right ∈ events, left.id = right.id →
    normalizeParents left.body.parents = normalizeParents right.body.parents))

def storedEvents (store : LocalEventStore) : List VaultEvent :=
  store.replica.events.toList.filterMap fun row =>
    (VaultEvent.parseEventStorageBytes row.2).toOption

/-- Along a run no event that is built collides with another or with a stored one. -/
def CollisionFreeRun (session : VaultEventSession) : List SessionAction → Prop
  | [] => True
  | action :: actions => IdsBind (storedEvents session.store ++ session.built action) ∧
      CollisionFreeRun (session.perform action) actions

def decideCollisionFreeRun (session : VaultEventSession) :
    ∀ actions, Decidable (CollisionFreeRun session actions)
  | [] => isTrue trivial
  | action :: actions =>
    have := decideCollisionFreeRun (session.perform action) actions
    inferInstanceAs (Decidable (IdsBind (storedEvents session.store ++ session.built action) ∧
      CollisionFreeRun (session.perform action) actions))

instance (session : VaultEventSession) (actions : List SessionAction) :
    Decidable (CollisionFreeRun session actions) := decideCollisionFreeRun session actions

end Nook.Vault
