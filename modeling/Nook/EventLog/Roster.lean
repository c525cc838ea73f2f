import Nook.EventLog.AuthorizationScan
import Nook.Replication.CausalGraphOrder

set_option autoImplicit false

namespace Nook.EventLog

open Nook.Lib Nook.Replication Relation

/-- One device authorized by the vault's signed event graph. -/
structure VaultRosterMember where
  deviceId : DeviceId
  encryptionPublicKey : DevicePublicKey
  signingPublicKey : DeviceSigningPublicKey
  label : MemberLabel
  deriving DecidableEq

/-- Active and revoked devices of one vault. -/
structure VaultAuthorizedRoster where
  members : List VaultRosterMember
  revoked : List DeviceId

/-- `dedup`: drop every element that repeats the one before it. -/
def dedup {α : Type} [DecidableEq α] : List α → List α
  | first :: second :: rest =>
    if first = second then dedup (second :: rest) else first :: dedup (second :: rest)
  | list => list

theorem mem_dedup {α : Type} [DecidableEq α] (list : List α) (a : α) : a ∈ dedup list ↔ a ∈ list := by
  fun_induction dedup list with
  | case1 first rest ih =>
    rw [ih]
    simp
  | case2 first second rest apart ih =>
    rw [List.mem_cons, ih]
    simp
  | case3 list => rfl

/-- What `authorized_roster` collects along the topological order. -/
structure RosterScan where
  approvals : List (EventId × VaultRosterMember)
  revocations : List (EventId × DeviceId)
  labels : BTreeMap DeviceId MemberLabel

namespace RosterScan

def empty : RosterScan := ⟨[], [], ∅⟩

def operation (id : EventId) (scan : RosterScan) : VaultOperation → RosterScan
  | .joinApproved deviceId encryptionPublicKey signingPublicKey label _ _ =>
    if signingPublicKey.isEmpty then scan
    else { scan with
      approvals := scan.approvals ++
        [(id, ⟨deviceId, encryptionPublicKey, signingPublicKey, label⟩)] }
  | .deviceRevoked deviceId =>
    { scan with revocations := scan.revocations ++ [(id, deviceId)] }
  | .memberRenamed deviceId label =>
    { scan with labels := scan.labels.insert deviceId label }
  | _ => scan

def recorded (graph : EventGraph) (scan : RosterScan) (id : EventId) : RosterScan :=
  match graph.events[id]? with
  | none => scan
  | some event => event.body.operations.foldl (operation id) scan

/-- The approval causally follows every revocation of its device. -/
def survives (scan : RosterScan) (graph : EventGraph) (approval : EventId × VaultRosterMember) :
    Bool :=
  (scan.revocations.filter (·.2 = approval.2.deviceId)).all fun revocation =>
    graph.isAncestor revocation.1 approval.1

/-- The last surviving approval of each device. -/
def approved (scan : RosterScan) (graph : EventGraph) : BTreeMap DeviceId VaultRosterMember :=
  scan.approvals.foldl (fun members approval =>
    if scan.survives graph approval then members.insert approval.2.deviceId approval.2
    else members) ∅

def relabel (members : BTreeMap DeviceId VaultRosterMember) (entry : DeviceId × MemberLabel) :
    BTreeMap DeviceId VaultRosterMember :=
  match members[entry.1]? with
  | some member => members.insert entry.1 { member with label := entry.2 }
  | none => members

def members (scan : RosterScan) (graph : EventGraph) : BTreeMap DeviceId VaultRosterMember :=
  scan.labels.toList.foldl relabel (scan.approved graph)

def roster (scan : RosterScan) (graph : EventGraph) : VaultAuthorizedRoster where
  members := BTreeMap.intoValues (scan.members graph)
  revoked := dedup ((scan.revocations.map Prod.snd).filter fun deviceId =>
    !(scan.members graph).contains deviceId).mergeSort

end RosterScan

namespace EventGraph

/-- Devices whose `join-approved` causally follows every revocation of the same
device. A revocation concurrent with an approval wins. -/
def authorizedRoster [External] (graph : EventGraph) : EventResult VaultAuthorizedRoster := do
  let order ← graph.topologicalOrder
  return (order.foldl (RosterScan.recorded graph) RosterScan.empty).roster graph

end EventGraph

/-! ### What the roster holds -/

/-- The member that an approval with a usable key admits. -/
def VaultOperation.approval : VaultOperation → Option VaultRosterMember
  | joinApproved deviceId encryptionPublicKey signingPublicKey label _ _ =>
    if signingPublicKey.isEmpty then none
    else some ⟨deviceId, encryptionPublicKey, signingPublicKey, label⟩
  | _ => none

def VaultEvent.approvals (event : VaultEvent) : List VaultRosterMember :=
  event.body.operations.filterMap VaultOperation.approval

/-- What a member is authorized as: everything but its label. -/
def VaultRosterMember.identity (member : VaultRosterMember) :
    DeviceId × DevicePublicKey × DeviceSigningPublicKey :=
  (member.deviceId, member.encryptionPublicKey, member.signingPublicKey)

namespace EventGraph

def approvalsOf (graph : EventGraph) (id : EventId) : List (EventId × VaultRosterMember) :=
  match graph.events[id]? with
  | some event => event.approvals.map (Prod.mk id)
  | none => []

def revocationsOf (graph : EventGraph) (id : EventId) : List (EventId × DeviceId) :=
  match graph.events[id]? with
  | some event => event.revokedDevices.map (Prod.mk id)
  | none => []

/-- No revocation of the device in `order` fails to precede the approval. -/
def survives (graph : EventGraph) (order : List EventId)
    (approval : EventId × VaultRosterMember) : Bool :=
  ((order.flatMap graph.revocationsOf).filter (·.2 = approval.2.deviceId)).all fun revocation =>
    graph.isAncestor revocation.1 approval.1

/-- The last approval of the device in `order` that survives. -/
def currentApproval (graph : EventGraph) (order : List EventId) (deviceId : DeviceId) :
    Option VaultRosterMember :=
  ((order.flatMap graph.approvalsOf).reverse.find? fun approval =>
    graph.survives order approval && approval.2.deviceId = deviceId).map Prod.snd

end EventGraph

namespace RosterScan

variable {graph : EventGraph}

theorem recorded_approvals (graph : EventGraph) (scan : RosterScan) (id : EventId) :
    (recorded graph scan id).approvals = scan.approvals ++ graph.approvalsOf id ∧
      (recorded graph scan id).revocations = scan.revocations ++ graph.revocationsOf id := by
  have operations : ∀ (list : List VaultOperation) (scan : RosterScan),
      (list.foldl (operation id) scan).approvals =
        scan.approvals ++ (list.filterMap VaultOperation.approval).map (Prod.mk id) ∧
      (list.foldl (operation id) scan).revocations =
        scan.revocations ++ (list.filterMap VaultOperation.revokedDevice).map (Prod.mk id) := by
    intro list
    induction list with
    | nil => simp
    | cons head tail ih =>
      intro scan
      rw [List.foldl_cons, (ih _).1, (ih _).2]
      simp only [List.filterMap_cons]
      cases head with
      | joinApproved deviceId encryptionKey key label =>
        by_cases missing : key.isEmpty
        · simp [operation, VaultOperation.approval, VaultOperation.revokedDevice, missing]
        · simp [operation, VaultOperation.approval, VaultOperation.revokedDevice, missing]
      | _ => simp [operation, VaultOperation.approval, VaultOperation.revokedDevice]
  unfold recorded EventGraph.approvalsOf EventGraph.revocationsOf
  cases graph.events[id]? with
  | none => simp
  | some event => exact operations event.body.operations scan

theorem scanned_approvals (graph : EventGraph) (order : List EventId) :
    (order.foldl (recorded graph) empty).approvals = order.flatMap graph.approvalsOf ∧
      (order.foldl (recorded graph) empty).revocations = order.flatMap graph.revocationsOf := by
  have walked : ∀ (order : List EventId) (scan : RosterScan),
      (order.foldl (recorded graph) scan).approvals =
        scan.approvals ++ order.flatMap graph.approvalsOf ∧
      (order.foldl (recorded graph) scan).revocations =
        scan.revocations ++ order.flatMap graph.revocationsOf := by
    intro order
    induction order with
    | nil => simp
    | cons id rest ih =>
      intro scan
      have here := recorded_approvals graph scan id
      rw [List.foldl_cons, (ih _).1, (ih _).2, here.1, here.2]
      simp
  simpa [empty] using walked order empty

theorem getElem?_approved (order : List EventId) (deviceId : DeviceId) :
    ((order.foldl (recorded graph) empty).approved graph)[deviceId]? =
      graph.currentApproval order deviceId := by
  have scanned := scanned_approvals graph order
  unfold approved EventGraph.currentApproval
  rw [BTreeMap.getElem?_foldl_insert, scanned.1]
  unfold survives EventGraph.survives
  rw [scanned.2]
  simp

/-- A new label changes nothing but the label. -/
theorem getElem?_relabel (members : BTreeMap DeviceId VaultRosterMember)
    (entry : DeviceId × MemberLabel) (deviceId : DeviceId) :
    ((relabel members entry)[deviceId]?).map VaultRosterMember.identity =
      (members[deviceId]?).map VaultRosterMember.identity := by
  unfold relabel
  cases found : members[entry.1]? with
  | none => rfl
  | some member =>
    dsimp only
    rw [BTreeMap.getElem?_insert_eq]
    split
    · rename_i same
      rw [← same, found]
      rfl
    · rfl

theorem getElem?_members (graph : EventGraph) (order : List EventId) (deviceId : DeviceId) :
    (((order.foldl (recorded graph) empty).members graph)[deviceId]?).map
        VaultRosterMember.identity =
      (graph.currentApproval order deviceId).map VaultRosterMember.identity := by
  have labelled : ∀ (labels : List (DeviceId × MemberLabel))
      (members : BTreeMap DeviceId VaultRosterMember),
      ((labels.foldl relabel members)[deviceId]?).map VaultRosterMember.identity =
        (members[deviceId]?).map VaultRosterMember.identity := by
    intro labels
    induction labels with
    | nil => exact fun _ => rfl
    | cons entry rest ih =>
      intro members
      rw [List.foldl_cons, ih, getElem?_relabel]
  unfold members
  rw [labelled, getElem?_approved]

end RosterScan

end Nook.EventLog
