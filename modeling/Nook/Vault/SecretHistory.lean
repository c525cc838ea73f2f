import Nook.EventLog.SecretOrigin
import Nook.Auth.Member
import Nook.Lib.Lineage

set_option autoImplicit false

namespace Nook.Vault

open Nook.Lib Nook.Replication Nook.EventLog Nook.Auth

/-- Why a secret history cannot be derived. -/
inductive SecretHistoryError where
  | unknownSecret
  | missingEvent
  | brokenReplacementChain
  | unrecordedOrigin
  deriving DecidableEq

/-- The signing key this browser session writes vault events with, when known. -/
inductive SecretHistoryLocalSigner where
  | known (key : DeviceSigningPublicKey)
  | unavailable

/-- Inputs for deriving one item's history. -/
structure SecretHistoryRequest where
  secrets : BTreeMap SecretId ProjectedSecret
  /-- The applied vault events in causal (topological) order. -/
  events : List (EventId × VaultEvent)
  roster : List VaultMember
  localSigner : SecretHistoryLocalSigner
  /-- The item's current secret id. -/
  secretId : SecretId

/-- How the first recorded version of an item was written. -/
inductive OriginOperation where
  | created
  | imported
  | carriedForward
  deriving DecidableEq

/-- The device that signed an event, as far as the vault records can tell. -/
inductive SecretHistoryDevice where
  | thisDevice
  | member (deviceId : DeviceId) (label : MemberLabelState)
  | formerMember (deviceId : DeviceId)
  | unrecorded
  deriving DecidableEq

/-- How the item's first recorded version entered the vault. -/
inductive SecretHistoryOrigin where
  | created (createdAt : IsoTimestamp) (device : SecretHistoryDevice)
  | imported (createdAt : IsoTimestamp)
  | carriedForwardSince (createdAt : IsoTimestamp)
  deriving DecidableEq

/-- Whether the item changed after its first recorded version. -/
inductive SecretRevision where
  | original
  | revised (createdAt : IsoTimestamp) (device : SecretHistoryDevice)
  deriving DecidableEq

structure SecretHistory where
  origin : SecretHistoryOrigin
  revision : SecretRevision
  deriving DecidableEq

/-- The operation as the writer of a first version of the secret. -/
def originOf (secretId : SecretId) : VaultOperation → Option OriginOperation
  | .secretCreated secret => if secret.id = secretId then some .created else none
  | .vaultImported _ secrets =>
    if secrets.any (·.id = secretId) then some .imported else none
  | .epochCheckpoint secrets _ _ _ =>
    if secrets.any (·.id = secretId) then some .carriedForward else none
  | _ => none

/-- The device of an operation that declares the signing key. -/
def declaredDevice (signer : DeviceSigningPublicKey) : VaultOperation → Option DeviceId
  | .joinApproved deviceId _ key _ _ _ =>
    if !key.isEmpty && key = signer then some deviceId else none
  | .sentinelParticipantEnrolled deviceId _ key _ =>
    if !key.isEmpty && key = signer then some deviceId else none
  | _ => none

namespace SecretHistoryRequest

variable (request : SecretHistoryRequest)

/-- The walk along the replaced versions, with the steps that remain of one for
each projected version. -/
def walk (secrets : BTreeMap SecretId ProjectedSecret) :
    Nat → SecretId → ProjectedSecret → Except SecretHistoryError (SecretId × ProjectedSecret)
  | steps, rootId, root =>
    match root.origin with
    | .created => .ok (rootId, root)
    | .replacement replaced =>
      match steps with
      | 0 => .error .brokenReplacementChain
      | steps + 1 =>
        match secrets[replaced]? with
        | none => .error .brokenReplacementChain
        | some older => walk secrets steps replaced older

def event (id : EventId) : Except SecretHistoryError VaultEvent :=
  match request.events.findSome? fun entry => if entry.1 = id then some entry.2 else none with
  | some event => .ok event
  | none => .error .missingEvent

/-- The last operation in the event that wrote this version, matching
projection order where a later operation overrides an earlier one. -/
def originOperation (event : VaultEvent) (secretId : SecretId) :
    Except SecretHistoryError OriginOperation :=
  match event.body.operations.reverse.findSome? (originOf secretId) with
  | some origin => .ok origin
  | none => .error .unrecordedOrigin

/-- The first applied declaration of a signing key, in causal order. -/
def joinedDevice (signer : DeviceSigningPublicKey) : Option DeviceId :=
  request.events.findSome? fun entry =>
    entry.2.body.operations.findSome? (declaredDevice signer)

def device (event : VaultEvent) : SecretHistoryDevice :=
  let signer := event.body.actorSigningPublicKey
  let isLocal := match request.localSigner with
    | .known key => decide (key = signer)
    | .unavailable => false
  if isLocal then .thisDevice
  else
    match request.joinedDevice signer with
    | none => .unrecorded
    | some deviceId =>
      match request.roster.find? (·.deviceId = deviceId) with
      | some member => .member deviceId member.label
      | none => .formerMember deviceId

/-- The origin that the event of the first version tells. -/
def origin (rootId : SecretId) (root : ProjectedSecret) :
    Except SecretHistoryError SecretHistoryOrigin := do
  let rootEvent ← request.event root.createdBy
  match ← originOperation rootEvent rootId with
  | .created => return .created rootEvent.body.createdAt (request.device rootEvent)
  | .imported => return .imported rootEvent.body.createdAt
  | .carriedForward => return .carriedForwardSince rootEvent.body.createdAt

def revision (rootId : SecretId) (current : ProjectedSecret) :
    Except SecretHistoryError SecretRevision := do
  if rootId = request.secretId then return .original
  let currentEvent ← request.event current.createdBy
  return .revised currentEvent.body.createdAt (request.device currentEvent)

/-- Walk the item's replacement chain back to its first recorded version. -/
def derive : Except SecretHistoryError SecretHistory := do
  match request.secrets[request.secretId]? with
  | none => throw .unknownSecret
  | some current =>
    let (rootId, root) ← walk request.secrets request.secrets.size request.secretId current
    let origin ← request.origin rootId root
    let revision ← request.revision rootId current
    return ⟨origin, revision⟩

end SecretHistoryRequest

end Nook.Vault
