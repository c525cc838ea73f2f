import Nook.IdentityControl.Wire
import Nook.Replication.CausalGraph

set_option autoImplicit false

namespace Nook.IdentityControl

open Nook.Lib Nook.Replication Nook.EventLog

/-- Outcome of inserting one identity control event. -/
inductive IdentityEventInsertStatus where
  | applied
  | pending (missingParents : List EventId)
  | quarantined (reason : String)
  | duplicate
  deriving DecidableEq

/-- Validated, causally indexed identity control events for one identity. -/
structure IdentityControlLog where
  identityId : IdentityId
  events : BTreeMap EventId IdentityEvent
  causal : CausalGraph EventId

/-- A rejected insertion returns the unchanged log with its cause. -/
structure IdentityControlRejection where
  log : IdentityControlLog
  cause : EventError

structure IdentityControlInsertion where
  log : IdentityControlLog
  status : IdentityEventInsertStatus

/-- An app key acts for the identity; a recovery passphrase may only approve a
new app key or remove itself. -/
inductive MemberRole where
  | app
  | recovery
  deriving DecidableEq

/-- One admission of a member's signing key, by the event that admitted it. -/
structure MemberApproval where
  event : EventId
  appId : AppId
  actor : AuthKeyId
  role : MemberRole
  deriving DecidableEq

/-- Membership-changing operations observed in one causal past. -/
structure MembershipHistory where
  approvals : List MemberApproval
  revocations : List (EventId × AppId)

/-- A member effective in one causal past: its signing keys and its role. -/
structure EffectiveMember where
  actors : BTreeSet AuthKeyId
  role : MemberRole

/-- The member an operation admits, and in which role. -/
def IdentityControlOperation.admits : IdentityControlOperation → Option (IdentityMemberKeys × MemberRole)
  | identityCreated founder => some (founder, .app)
  | memberApproved member _ _ => some (member, .app)
  | memberJoinedByInvite _ member _ _ => some (member, .app)
  | recoveryKeyAdded member _ _ => some (member, .recovery)
  | _ => none

/-- The app an operation revokes. -/
def IdentityControlOperation.revokes : IdentityControlOperation → Option AppId
  | memberRevoked appId => some appId
  | _ => none

variable [IdentityExternal]

namespace MembershipHistory

def empty : MembershipHistory := ⟨[], []⟩

def operation (id : EventId) (history : MembershipHistory)
    (operation : IdentityControlOperation) : EventResult MembershipHistory :=
  match operation.admits with
  | some (member, role) => do
    let approval : MemberApproval := ⟨id, member.appId, ← member.signingActor, role⟩
    return { history with approvals := history.approvals ++ [approval] }
  | none =>
    match operation.revokes with
    | some appId => .ok { history with revocations := history.revocations ++ [(id, appId)] }
    | none => .ok history

end MembershipHistory

/-- An app admitted as a recovery passphrase keeps that role. -/
def MemberRole.join : MemberRole → MemberRole → MemberRole
  | app, app => app
  | _, _ => recovery

/-- Whether some member holds the signing key. -/
def isMemberActor (members : BTreeMap AppId EffectiveMember) (actor : AuthKeyId) : Bool :=
  members.intoValues.any fun member => member.actors.contains actor

/-- Whether a recovery passphrase may not sign this operation: it may approve an
app key that is no member, on its own device, and revoke itself; nothing else. -/
def refusedForRecovery (recovery : AppId) (members : BTreeMap AppId EffectiveMember) :
    IdentityControlOperation → Bool
  | .memberApproved member _ .own => members.contains member.appId
  | .memberRevoked appId => appId ≠ recovery
  | _ => true

/-- Whether a recovery passphrase is added under an app that is a member. -/
def addsMemberAsRecovery (members : BTreeMap AppId EffectiveMember) :
    IdentityControlOperation → Bool
  | .recoveryKeyAdded member _ _ => members.contains member.appId
  | _ => false

namespace IdentityControlLog

def new (identityId : IdentityId) : IdentityControlLog := ⟨identityId, ∅, .new⟩

def contains (log : IdentityControlLog) (id : EventId) : Bool := log.events.contains id

def quarantined (log : IdentityControlLog) : BTreeMap EventId String := log.causal.quarantined

def genesisId (log : IdentityControlLog) : Option EventId :=
  (log.events.toList.find? fun entry => entry.2.body.isGenesis).map Prod.fst

/-- Heads of the applicable (authorized, fully resolved) graph. -/
def applicableHeads (log : IdentityControlLog) : List EventId :=
  let applicable := log.causal.applicableIds
  let referenced := (applicable.filterMap fun id => log.events[id]?).flatMap fun event =>
    event.body.parents
  applicable.filter fun id => !referenced.contains id

/-- Applicable events in deterministic causal order. -/
def orderedApplicableEvents (log : IdentityControlLog) :
    EventResult (List (EventId × IdentityEvent)) := do
  let order ← log.causal.topologicalOrder.mapError fun _ => EventError.graphCycle
  order.mapM fun id =>
    match log.events[id]? with
    | some event => .ok (id, event)
    | none => .error (.missingEvent id.asStr)

def isAncestor (log : IdentityControlLog) (ancestor descendant : EventId) : Bool :=
  log.causal.isAncestor ancestor descendant

/-- The parent list of a recorded event, in the order of its body. -/
def bodyParents (log : IdentityControlLog) (id : EventId) : List EventId :=
  match log.events[id]? with
  | some event => event.body.parents
  | none => []

def bodyParentCount (log : IdentityControlLog) : Nat :=
  (log.events.keys.map fun id => (log.bodyParents id).length).sum

/-- Everything at or below `parents`, recorded or not. -/
def ancestry (log : IdentityControlLog) (parents : List EventId) : BTreeSet EventId :=
  Std.ExtTreeSet.ofList
    (visitFrom log.bodyParents (parents.length + log.bodyParentCount) parents.reverse []) compare

/-- The membership changes of one recorded event. -/
def eventHistory (log : IdentityControlLog) (history : MembershipHistory) (id : EventId) :
    EventResult MembershipHistory :=
  match log.events[id]? with
  | some event => event.body.operations.foldlM (MembershipHistory.operation id) history
  | none => .ok history

def membershipHistory (log : IdentityControlLog) (events : BTreeSet EventId) :
    EventResult MembershipHistory :=
  events.toList.foldlM log.eventHistory MembershipHistory.empty

/-- Whether an approval follows every revocation of the same app. -/
def survives (log : IdentityControlLog) (history : MembershipHistory)
    (approval : MemberApproval) : Bool :=
  (history.revocations.filter fun revocation => revocation.2 = approval.appId).all fun revocation =>
    log.causal.isAncestor revocation.1 approval.event

/-- One approval of the effective membership. -/
def admitApproval (log : IdentityControlLog) (history : MembershipHistory)
    (members : BTreeMap AppId EffectiveMember) (approval : MemberApproval) :
    BTreeMap AppId EffectiveMember :=
  if log.survives history approval then
    let member := (members[approval.appId]?).getD ⟨∅, approval.role⟩
    members.insert approval.appId
      ⟨member.actors.insert approval.actor, member.role.join approval.role⟩
  else members

/-- Members whose latest approval in `events` causally follows every revocation
of the same app. A concurrent revocation wins. -/
def effectiveMembers (log : IdentityControlLog) (events : BTreeSet EventId) :
    EventResult (BTreeMap AppId EffectiveMember) := do
  let history ← log.membershipHistory events
  return history.approvals.foldl (log.admitApproval history) ∅

/-- Why a member's event is refused. -/
def memberActionRejection (event : IdentityEvent) (members : BTreeMap AppId EffectiveMember) :
    Option String :=
  match members.toList.find? fun entry => entry.2.actors.contains event.body.actorId with
  | none => none
  | some (actingApp, acting) =>
    match acting.role with
    | .recovery =>
      if event.body.operations.any (refusedForRecovery actingApp members) then
        some ("Recovery passphrase " ++ String.ofList actingApp.asStr ++
          " may only approve a new app key on its own device or remove itself")
      else none
    | .app =>
      if event.body.operations.any (addsMemberAsRecovery members) then
        some "A recovery passphrase must be a new member of the identity"
      else none

/-- The invite a member issued in the causal history of `parents`. -/
def issuedInvite (log : IdentityControlLog) (parents : List EventId)
    (inviteId : IdentityInviteId) : Option IdentityInvite :=
  let events := (log.ancestry parents).toList.filterMap fun id => log.events[id]?
  (events.flatMap fun event => event.body.operations).findSome? fun
    | .memberInvited invite => if invite.inviteId = inviteId then some invite else none
    | _ => none

/-- The invite a member issued in this log's applicable history. -/
def issuedInviteNow (log : IdentityControlLog) (inviteId : IdentityInviteId) :
    Option IdentityInvite :=
  log.issuedInvite log.applicableHeads inviteId

/-- An invite join stands when its invite was issued before it and the invite
key proves the joiner's keys. -/
def inviteJoinHolds (log : IdentityControlLog) (event : IdentityEvent) : Bool :=
  match event.inviteJoin with
  | none => false
  | some (inviteId, member, signature) =>
    match log.issuedInvite event.body.parents inviteId with
    | none => false
    | some invite =>
      (IdentityInviteProof.verify ⟨log.identityId, inviteId, member⟩ invite signature).isOk

/-- Of several joins on one invite, the lowest event id wins. -/
def inviteJoinRejection (log : IdentityControlLog) (id : EventId) (event : IdentityEvent) :
    Option String :=
  match event.inviteJoin with
  | none => none
  | some (inviteId, _, _) =>
    if !log.inviteJoinHolds event then
      some ("Invite " ++ String.ofList inviteId.asStr ++
        " was not issued in causal history or its proof does not verify")
    else if log.events.toList.any fun other =>
        other.1 < id && other.2.inviteJoin.any (fun join => join.1 = inviteId) &&
          log.inviteJoinHolds other.2 then
      some ("Invite " ++ String.ofList inviteId.asStr ++ " was already used")
    else none

/-- The first listed event that authorizes the removal of a recovery passphrase
and that the event does not precede. -/
def removalBeside (log : IdentityControlLog) (id : EventId) (recovery : AppId) :
    List EventId → EventResult (Option EventId)
  | [] => .ok none
  | revocationId :: rest =>
    if revocationId = id || log.causal.isAncestor id revocationId then
      log.removalBeside id recovery rest
    else
      match log.events[revocationId]? with
      | none => log.removalBeside id recovery rest
      | some revocation =>
        if !revocation.body.operations.any (fun operation => operation.revokes = some recovery) then
          log.removalBeside id recovery rest
        else do
          -- Only a revocation its signer was entitled to make counts.
          let members ← log.effectiveMembers (log.ancestry revocation.body.parents)
          if isMemberActor members revocation.body.actorId then return some revocationId
          log.removalBeside id recovery rest

/-- Why an event a recovery passphrase signed is refused although its causal
past still lists it. -/
def revokedRecoveryRejection (log : IdentityControlLog) (id : EventId) (event : IdentityEvent)
    (members : BTreeMap AppId EffectiveMember) : EventResult (Option String) :=
  match members.toList.find? fun entry =>
      entry.2.actors.contains event.body.actorId && entry.2.role = .recovery with
  | none => .ok none
  | some (recovery, _) => do
    let removal ← log.removalBeside id recovery log.causal.applicableIds
    return removal.map fun revocationId =>
      "Recovery passphrase " ++ String.ofList recovery.asStr ++ " was removed by " ++
        String.ofList revocationId.asStr ++ ", which this event does not precede"

def unauthorizedReason (log : IdentityControlLog) (id : EventId) : EventResult (Option String) :=
  match log.events[id]? with
  | none => .ok none
  | some event =>
    if event.body.isGenesis || event.isSelfSignedJoinRequest then .ok none
    else if event.inviteJoin.isSome then .ok (log.inviteJoinRejection id event)
    else do
      let members ← log.effectiveMembers (log.ancestry event.body.parents)
      if isMemberActor members event.body.actorId then
        match memberActionRejection event members with
        | some reason => return some reason
        | none => log.revokedRecoveryRejection id event members
      else
        return some ("Identity actor " ++ String.ofList event.body.actorId.asStr ++
          " was not an identity member in causal history")

/-- The reason to quarantine an applicable event, if there is one. -/
def verdict (log : IdentityControlLog) (id : EventId) : Option String :=
  match log.unauthorizedReason id with
  | .ok reason => reason
  | .error error => some (IdentityExternal.errorText error)

/-- One pass over the candidates: the log after it and whether it quarantined anything. -/
def quarantinePass (log : IdentityControlLog) (changed : Bool) :
    List EventId → IdentityControlLog × Bool
  | [] => (log, changed)
  | id :: ids =>
    match log.verdict id with
    | none => log.quarantinePass changed ids
    | some reason =>
      quarantinePass { log with causal := log.causal.quarantine id reason } true ids

def quarantineRound (log : IdentityControlLog) : Round IdentityControlLog IdentityControlLog :=
  match log.quarantinePass false log.causal.applicableIds with
  | (next, true) => .again next
  | (next, false) => .done next

/-- A pass that changes something quarantines an applicable event, so the bound
on the passes is never reached. -/
def quarantineUnauthorized (log : IdentityControlLog) : IdentityControlLog :=
  (runLoop quarantineRound (log.causal.applicableIds.length + 1) log).getD log

/-- The log with a new event recorded and indexed, before any verdict on it. -/
def recordEvent (log : IdentityControlLog) (id : EventId) (event : IdentityEvent) :
    IdentityControlLog :=
  { log with
    events := log.events.insert id event
    causal := (log.causal.insert id event.body.parents).graph }

def insertStatus (log : IdentityControlLog) (id : EventId)
    (inserted : CausalInsertStatus EventId) : IdentityEventInsertStatus :=
  match log.causal.quarantined[id]?, inserted with
  | some reason, _ => .quarantined reason
  | none, .pending missingParents => .pending missingParents
  | none, .quarantined reason => .quarantined reason
  | none, .duplicate => .duplicate
  | none, .conflict => .duplicate
  | none, .applied => .applied

/-- Insert one event after envelope validation; unauthorized actors are
quarantined together with their causal descendants. -/
def insert (log : IdentityControlLog) (event : IdentityEvent) :
    Except IdentityControlRejection IdentityControlInsertion :=
  match event.validateEnvelope log.identityId with
  | .error cause => .error ⟨log, cause⟩
  | .ok id =>
    if log.events.contains id then .ok ⟨log, .duplicate⟩
    else if event.body.isGenesis && log.genesisId.isSome then
      .error ⟨log, .multipleGenesisRoots⟩
    else
      let inserted := (log.causal.insert id event.body.parents).status
      let log := (log.recordEvent id event).quarantineUnauthorized
      .ok ⟨log, log.insertStatus id inserted⟩

/-- Insertion of a list of events, stopping at the first refusal. -/
def insertAll (log : IdentityControlLog) (events : List IdentityEvent) :
    Except IdentityControlRejection IdentityControlLog :=
  events.foldlM (fun log event => return (← log.insert event).log) log

end IdentityControlLog

end Nook.IdentityControl
