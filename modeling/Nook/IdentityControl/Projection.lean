import Nook.IdentityControl.Graph

set_option autoImplicit false

namespace Nook.IdentityControl

open Nook.Lib Nook.EventLog

/-- A recovery passphrase on the keyring: its sealed private keys, and how many words it has. -/
structure IdentityRecoveryMember where
  sealedSecret : RecoverySealedSecret
  strength : RecoveryStrength
  deriving DecidableEq

/-- An app key on a device, or a recovery passphrase, which is on no device. -/
inductive IdentityMemberKind where
  | app (device : MemberDevice)
  | recovery (member : IdentityRecoveryMember)
  deriving DecidableEq

def IdentityMemberKind.isRecovery : IdentityMemberKind → Bool
  | recovery _ => true
  | app _ => false

/-- Who let a member in. -/
inductive IdentityMemberApprover where
  | founder
  | invite
  | app (appId : AppId)
  | recoveryPassphrase (appId : AppId) (label : MemberLabel)
  deriving DecidableEq

/-- An active member of the identity. -/
structure IdentityControlMember where
  keys : IdentityMemberKeys
  approvedIn : EventId
  kind : IdentityMemberKind
  approvedBy : IdentityMemberApprover
  deriving DecidableEq

/-- A join request no approval, denial, or revocation has resolved. -/
structure IdentityJoinRequest where
  member : IdentityMemberKeys
  requestEvent : EventId
  requestedAt : IsoTimestamp
  deriving DecidableEq

/-- DEK envelopes for one vault key epoch, and the revoked members that held one. -/
structure IdentityVaultEpochDeks where
  keyEpoch : EventId
  recipients : List MemberVaultDek
  revokedHolders : List AppId
  deriving DecidableEq

/-- A vault owned by the identity with its DEK envelopes. -/
structure IdentityControlVault where
  storeId : StoreId
  registeredIn : EventId
  currentKeyEpoch : EventId
  epochs : List IdentityVaultEpochDeks
  deriving DecidableEq

/-- Replicated identity state derived from the applicable control log. -/
structure IdentityControlState where
  identityId : IdentityId
  members : List IdentityControlMember
  revoked : List AppId
  pendingJoins : List IdentityJoinRequest
  deniedJoins : List AppId
  vaults : List IdentityControlVault
  removedVaults : List StoreId
  mounts : List IdentityProviderMount
  sealedName : List MemberSealedName
  heads : List EventId
  deriving DecidableEq

structure VaultAccumulator where
  registeredIn : Option EventId
  currentKeyEpoch : Option EventId
  epochs : BTreeMap EventId (BTreeMap AppId MemberVaultDek)

namespace VaultAccumulator

def empty : VaultAccumulator := ⟨none, none, ∅⟩

/-- Each epoch's envelopes, split between the active members and the revoked
ones. A vault granted but never registered is not one. -/
def project (vault : VaultAccumulator) (storeId : StoreId)
    (active : BTreeMap AppId EffectiveMember) : Option IdentityControlVault := do
  let registeredIn ← vault.registeredIn
  let currentKeyEpoch ← vault.currentKeyEpoch
  let epochs := vault.epochs.toList.map fun (epoch : EventId × BTreeMap AppId MemberVaultDek) =>
    let (recipients, revoked) := epoch.2.intoValues.partition fun dek => active.contains dek.appId
    (⟨epoch.1, recipients, revoked.map MemberVaultDek.appId⟩ : IdentityVaultEpochDeks)
  return ⟨storeId, registeredIn, currentKeyEpoch, epochs⟩

end VaultAccumulator

/-- Who admitted a member, as the fold sees it. -/
inductive AdmittingActor where
  | founder
  | invite
  | member (actor : AuthKeyId)
  deriving DecidableEq

/-- A member as the fold last admitted it. -/
structure AdmittedMember where
  keys : IdentityMemberKeys
  approvedIn : EventId
  kind : IdentityMemberKind
  admittedBy : AdmittingActor
  deriving DecidableEq

structure ProjectionAccumulator where
  created : Bool
  memberKeys : BTreeMap AppId AdmittedMember
  signers : BTreeMap AuthKeyId AppId
  requests : List IdentityJoinRequest
  resolutions : List (EventId × AppId)
  denials : List (EventId × AppId)
  vaults : BTreeMap StoreId VaultAccumulator
  removedVaults : BTreeSet StoreId
  mounts : BTreeMap ProviderMountId IdentityProviderMount
  sealedName : List MemberSealedName

/-- The event one operation belongs to. -/
structure AppliedEvent where
  id : EventId
  createdAt : IsoTimestamp
  actorId : AuthKeyId

/-- How an event admits a member: in which kind, by whom and with which DEKs. -/
structure MemberAdmission where
  member : IdentityMemberKeys
  vaultDeks : List IdentityVaultDekGrant
  kind : IdentityMemberKind
  admittedBy : AdmittingActor

/-- The invite holder joins from wherever it typed the code. -/
def IdentityControlOperation.admission (operation : IdentityControlOperation) (actorId : AuthKeyId) :
    Option MemberAdmission :=
  match operation with
  | identityCreated founder => some ⟨founder, [], .app .own, .founder⟩
  | memberApproved member vaultDeks device => some ⟨member, vaultDeks, .app device, .member actorId⟩
  | memberJoinedByInvite _ member _ vaultDeks => some ⟨member, vaultDeks, .app .own, .invite⟩
  | recoveryKeyAdded member sealedSecret strength =>
    some ⟨member, [], .recovery ⟨sealedSecret, strength⟩, .member actorId⟩
  | _ => none

namespace ProjectionAccumulator

def empty : ProjectionAccumulator where
  created := false
  memberKeys := ∅
  signers := ∅
  requests := []
  resolutions := []
  denials := []
  vaults := ∅
  removedVaults := ∅
  mounts := ∅
  sealedName := []

def vaultOf (accumulator : ProjectionAccumulator) (storeId : StoreId) : VaultAccumulator :=
  (accumulator.vaults[storeId]?).getD .empty

/-- One wrapped DEK pair of a new member. -/
def grantDek (member : IdentityMemberKeys) (accumulator : ProjectionAccumulator)
    (grant : IdentityVaultDekGrant) : ProjectionAccumulator :=
  let vault := accumulator.vaultOf grant.storeId
  let epoch := (vault.epochs[grant.keyEpoch]?).getD ∅
  let dek : MemberVaultDek :=
    ⟨member.appId, grant.secretsKeyCiphertext, grant.membersKeyCiphertext⟩
  { accumulator with
    vaults := accumulator.vaults.insert grant.storeId
      { vault with epochs := vault.epochs.insert grant.keyEpoch (epoch.insert member.appId dek) } }

variable [IdentityExternal]

def admitMember (accumulator : ProjectionAccumulator) (event : EventId) (admission : MemberAdmission) :
    EventResult ProjectionAccumulator := do
  let member := admission.member
  let actor ← member.signingActor
  let admitted : AdmittedMember := ⟨member, event, admission.kind, admission.admittedBy⟩
  return admission.vaultDeks.foldl (grantDek member) { accumulator with
    signers := accumulator.signers.insert actor member.appId
    memberKeys := accumulator.memberKeys.insert member.appId admitted
    resolutions := accumulator.resolutions ++ [(event, member.appId)] }

omit [IdentityExternal] in
def grant (accumulator : ProjectionAccumulator) (storeId : StoreId) (keyEpoch : EventId)
    (recipients : List MemberVaultDek) : ProjectionAccumulator :=
  let vault := accumulator.vaultOf storeId
  let epoch := recipients.foldl (fun epoch recipient => epoch.insert recipient.appId recipient)
    ((vault.epochs[keyEpoch]?).getD ∅)
  { accumulator with
    vaults := accumulator.vaults.insert storeId
      { vault with currentKeyEpoch := some keyEpoch, epochs := vault.epochs.insert keyEpoch epoch } }

omit [IdentityExternal] in
def registered (accumulator : ProjectionAccumulator) (storeId : StoreId) (id : EventId) :
    ProjectionAccumulator :=
  { accumulator with
    vaults := accumulator.vaults.insert storeId
      { accumulator.vaultOf storeId with registeredIn := some id } }

omit [IdentityExternal] in
/-- What an operation that admits nobody does. -/
def applyOther (accumulator : ProjectionAccumulator) (event : AppliedEvent) :
    IdentityControlOperation → ProjectionAccumulator
  | .memberJoinRequested member =>
    { accumulator with
      requests := accumulator.requests ++ [⟨member, event.id, event.createdAt⟩] }
  | .memberJoinDenied appId =>
    { accumulator with
      resolutions := accumulator.resolutions ++ [(event.id, appId)]
      denials := accumulator.denials ++ [(event.id, appId)] }
  | .memberRevoked appId =>
    { accumulator with resolutions := accumulator.resolutions ++ [(event.id, appId)] }
  | .memberRenamed appId label =>
    match accumulator.memberKeys[appId]? with
    | none => accumulator
    | some admitted =>
      { accumulator with
        memberKeys := accumulator.memberKeys.insert appId
          { admitted with keys := { admitted.keys with label := label } } }
  | .vaultRegistered storeId keyEpoch recipients =>
    (accumulator.grant storeId keyEpoch recipients).registered storeId event.id
  | .vaultDekGranted storeId keyEpoch recipients => accumulator.grant storeId keyEpoch recipients
  | .vaultRemoved storeId =>
    { accumulator with removedVaults := accumulator.removedVaults.insert storeId }
  | .providerMounted mount =>
    { accumulator with mounts := accumulator.mounts.insert mount.mountId mount }
  | .providerUnmounted mountId =>
    { accumulator with mounts := accumulator.mounts.erase mountId }
  | .identityNamed recipients => { accumulator with sealedName := recipients }
  -- An invite grants nothing until its holder joins with it.
  | .memberInvited _ => accumulator
  | .identityCreated _ | .memberApproved .. | .memberJoinedByInvite .. | .recoveryKeyAdded .. =>
    accumulator

def apply (event : AppliedEvent) (accumulator : ProjectionAccumulator)
    (operation : IdentityControlOperation) : EventResult ProjectionAccumulator :=
  let accumulator :=
    if operation.isIdentityCreated then { accumulator with created := true } else accumulator
  match operation.admission event.actorId with
  | some admission => accumulator.admitMember event.id admission
  | none => .ok (accumulator.applyOther event operation)

def applyEvent (accumulator : ProjectionAccumulator) (entry : EventId × IdentityEvent) :
    EventResult ProjectionAccumulator :=
  entry.2.body.operations.foldlM
    (apply ⟨entry.1, entry.2.body.createdAt, entry.2.body.actorId⟩) accumulator

omit [IdentityExternal] in
/-- Who let a member in, by name: for a recovery passphrase its label too, even
after it was removed. -/
def approver (accumulator : ProjectionAccumulator) :
    AdmittingActor → EventResult IdentityMemberApprover
  | .founder => .ok .founder
  | .invite => .ok .invite
  | .member actor =>
    match (accumulator.signers[actor]?).bind fun appId => accumulator.memberKeys[appId]? with
    | none => .error (.identityControlInvalid
        ("member approver " ++ String.ofList actor.asStr ++ " is not a member of the identity"))
    | some approver =>
      match approver.kind with
      | .app _ => .ok (.app approver.keys.appId)
      | .recovery _ => .ok (.recoveryPassphrase approver.keys.appId approver.keys.label)

omit [IdentityExternal] in
/-- Apps that never became members and are not asking again, whose request a
causally later denial answered. -/
def deniedJoins (accumulator : ProjectionAccumulator) (log : IdentityControlLog)
    (pending : List IdentityJoinRequest) : List AppId :=
  let denied := accumulator.requests.filter fun asked =>
    !accumulator.memberKeys.contains asked.member.appId &&
      !pending.any (fun other => other.member.appId = asked.member.appId) &&
        accumulator.denials.any fun denial =>
          denial.2 = asked.member.appId && log.isAncestor asked.requestEvent denial.1
  (Std.ExtTreeSet.ofList (denied.map fun asked => asked.member.appId) compare).toList

omit [IdentityExternal] in
/-- The requests of no active member that nothing later resolved. -/
def pendingJoins (accumulator : ProjectionAccumulator) (log : IdentityControlLog)
    (active : BTreeMap AppId EffectiveMember) : List IdentityJoinRequest :=
  accumulator.requests.filter fun request =>
    !active.contains request.member.appId &&
      !accumulator.resolutions.any fun resolution =>
        resolution.2 = request.member.appId && log.isAncestor request.requestEvent resolution.1

omit [IdentityExternal] in
def controlMember (accumulator : ProjectionAccumulator) (admitted : AdmittedMember) :
    EventResult IdentityControlMember := do
  return ⟨admitted.keys, admitted.approvedIn, admitted.kind,
    ← accumulator.approver admitted.admittedBy⟩

end ProjectionAccumulator

variable [IdentityExternal]

/-- Project the applicable events. -/
def IdentityControlState.project (log : IdentityControlLog) : EventResult IdentityControlState := do
  let ordered ← log.orderedApplicableEvents
  let applicable := Std.ExtTreeSet.ofList (ordered.map Prod.fst) compare
  let accumulator ← ordered.foldlM ProjectionAccumulator.applyEvent .empty
  ensure accumulator.created (.identityControlInvalid "identity log has no applicable genesis")
  let active ← log.effectiveMembers applicable
  let listed := accumulator.memberKeys.toList.filter fun entry => active.contains entry.1
  let members ← listed.mapM fun entry => accumulator.controlMember entry.2
  let pendingJoins := accumulator.pendingJoins log active
  let kept := accumulator.vaults.toList.filter fun entry =>
    !accumulator.removedVaults.contains entry.1
  return {
    identityId := log.identityId
    members := members
    revoked := accumulator.memberKeys.keys.filter fun appId => !active.contains appId
    pendingJoins := pendingJoins
    deniedJoins := accumulator.deniedJoins log pendingJoins
    vaults := kept.filterMap fun entry => entry.2.project entry.1 active
    removedVaults := accumulator.removedVaults.toList
    mounts := accumulator.mounts.intoValues
    sealedName := accumulator.sealedName.filter fun sealed => active.contains sealed.appId
    heads := log.applicableHeads }

namespace IdentityControlState

omit [IdentityExternal]

def member (state : IdentityControlState) (appId : AppId) : Option IdentityControlMember :=
  state.members.find? fun member => member.keys.appId = appId

/-- The app-key members. -/
def appMembers (state : IdentityControlState) : List IdentityControlMember :=
  state.members.filter fun member => !member.kind.isRecovery

def vault (state : IdentityControlState) (storeId : StoreId) : Option IdentityControlVault :=
  state.vaults.find? fun vault => vault.storeId = storeId

def pendingJoin (state : IdentityControlState) (appId : AppId) : Option IdentityJoinRequest :=
  state.pendingJoins.find? fun request => request.member.appId = appId

end IdentityControlState

end Nook.IdentityControl
