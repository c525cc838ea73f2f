import Nook.EventLog.LocalEventStore
import Nook.Lib.Except
import Nook.Replication.ReplicaOutbox

set_option autoImplicit false

namespace Nook.EventLog

open Nook.Lib Nook.Replication

/-- What the builder adds to the third-party operations: the hexadecimal form of
a key and the YAML text of an event. -/
class EventWriter where
  hexEncode : Bytes → Str
  yamlToString : VaultEvent → Except String Str

/-- Ed25519 signing identity for vault events: its verifying key and the signatures it makes. -/
structure SigningIdentity where
  verifyingKey : Bytes
  sign : CanonicalEventBodyBytes → Ed25519Signature

variable [External] [EventWriter]

namespace SigningIdentity

/-- `key_{sha256_hex}` actor id derived from the Ed25519 public key. -/
def actorId (identity : SigningIdentity) : EventResult AuthKeyId :=
  actorIdForVerifyingKey identity.verifyingKey

omit [External] in
def publicKey (identity : SigningIdentity) : DeviceSigningPublicKey :=
  .ed25519Hex (EventWriter.hexEncode identity.verifyingKey)

end SigningIdentity

namespace VaultEvent

def sign (body : VaultEventBody) (signingIdentity : SigningIdentity) : EventResult VaultEvent := do
  return ⟨body, signingIdentity.sign (← body.toCanonicalBytes)⟩

omit [External] in
/-- Serialize an event for provider/local storage, with a final line break. -/
def serializeEventStorageYaml (event : VaultEvent) : EventResult EventStorageBytes := do
  let yaml ← (EventWriter.yamlToString event).mapError .eventSerialize
  let yaml := if yaml.getLast? = some '\n' then yaml else yaml ++ ['\n']
  return yaml.flatMap String.utf8EncodeChar

end VaultEvent

/-- Inputs required to append a new event. -/
structure AppendEventInput where
  storeId : StoreId
  actorId : AuthKeyId
  signingIdentity : SigningIdentity
  parents : List EventId
  keyEpoch : EventId
  createdAt : IsoTimestamp
  operations : List VaultOperation

/-- Build and sign a vault event; returns the event and its provider-storage YAML bytes. -/
def AppendEventInput.build (input : AppendEventInput) :
    EventResult (VaultEvent × EventStorageBytes) := do
  let signingActorId ← input.signingIdentity.actorId
  ensure (signingActorId = input.actorId)
    (.actorSigningKeyMismatch input.actorId.asStr signingActorId.asStr)
  let body : VaultEventBody := {
    schemaVersion := VaultEventSchemaVersion.current
    storeId := input.storeId
    actorId := input.actorId
    actorSigningPublicKey := input.signingIdentity.publicKey
    parents := normalizeParents input.parents
    createdAt := input.createdAt
    keyEpoch := input.keyEpoch
    operations := input.operations }
  let event ← VaultEvent.sign body input.signingIdentity
  return (event, ← event.serializeEventStorageYaml)

theorem AppendEventInput.parents_build {input : AppendEventInput} {event : VaultEvent}
    {bytes : EventStorageBytes} (built : input.build = .ok (event, bytes)) :
    event.body.parents = normalizeParents input.parents := by
  obtain ⟨_, _, built⟩ := bind_eq_ok.mp built
  obtain ⟨_, _, built⟩ := bind_eq_ok.mp built
  obtain ⟨signed, signs, built⟩ := bind_eq_ok.mp built
  obtain ⟨_, _, built⟩ := bind_eq_ok.mp built
  obtain ⟨_, _, same⟩ := bind_eq_ok.mp signs
  cases built
  cases same
  rfl

/-- Validated causal head set observed locally before appending a new event. -/
structure ObservedHeads where
  asParents : List EventId

namespace ObservedHeads

/-- Build validated heads from already parsed event ids. -/
def fromEventIds (heads : List EventId) : ObservedHeads := ⟨normalizeParents heads⟩

omit [EventWriter] in
/-- Parse and deduplicate raw head strings from session state. -/
def parse (raw : List Str) : EventResult ObservedHeads := do
  return fromEventIds (← raw.mapM EventId.parse)

end ObservedHeads

/-! ### Owned provider outbox transitions -/

namespace LocalEventStore

def dequeueOutbox (store : LocalEventStore) (providerId : Str) (eventId : EventId) :
    LocalEventStore :=
  ⟨store.replica.dequeueOutbox providerId eventId⟩

def pendingOutbox (store : LocalEventStore) (providerId : Str) :
    List (EventId × EventStorageBytes) :=
  store.replica.pendingOutbox providerId

end LocalEventStore

end Nook.EventLog
