import Nook.IdentityControl.AdmittedMembers
import Nook.IdentityControl.Builder

set_option autoImplicit false

namespace Nook.IdentityControl

open Nook.Lib Nook.Replication Nook.EventLog Relation

/-! ### What the builders check -/

namespace IdentityControlState

variable {state : IdentityControlState}

theorem member_mem {appId : AppId} {member : IdentityControlMember}
    (found : state.member appId = some member) :
    member ∈ state.members ∧ member.keys.appId = appId := by
  have named := List.find?_some found
  exact ⟨List.mem_of_find?_eq_some found, of_decide_eq_true named⟩

theorem mem_appMembers (member : IdentityControlMember) :
    member ∈ state.appMembers ↔ member ∈ state.members ∧ member.kind.isRecovery = false := by
  unfold appMembers
  rw [List.mem_filter, Bool.not_eq_true']

variable [IdentitySealing]

theorem approvalOperation_ok {request : IdentityApprovalRequest}
    {operation : IdentityControlOperation}
    (built : state.approvalOperation request = .ok operation) :
    ∃ member vaultDeks, operation = .memberApproved member vaultDeks .own := by
  unfold approvalOperation at built
  split at built
  · cases built
  · obtain ⟨_, _, built⟩ := bind_eq_ok.mp built
    obtain ⟨_, _, built⟩ := bind_eq_ok.mp built
    cases built
    exact ⟨_, _, rfl⟩

theorem additionOperation_ok {request : IdentityMemberAddition}
    {operation : IdentityControlOperation}
    (built : state.additionOperation request = .ok operation) :
    ∃ vaultDeks, operation = .memberApproved request.member vaultDeks request.device := by
  obtain ⟨_, _, built⟩ := bind_eq_ok.mp built
  obtain ⟨_, _, built⟩ := bind_eq_ok.mp built
  obtain ⟨_, _, built⟩ := bind_eq_ok.mp built
  obtain ⟨_, _, built⟩ := bind_eq_ok.mp built
  obtain ⟨_, _, built⟩ := bind_eq_ok.mp built
  cases built
  exact ⟨_, rfl⟩

theorem recoveryApprovalOperation_ok {approval : IdentityRecoveryApproval}
    {operation : IdentityControlOperation}
    (built : state.recoveryApprovalOperation approval = .ok operation) :
    ∃ vaultDeks, operation = .memberApproved approval.member vaultDeks .own := by
  obtain ⟨_, _, built⟩ := bind_eq_ok.mp built
  obtain ⟨_, _, built⟩ := bind_eq_ok.mp built
  obtain ⟨_, _, built⟩ := bind_eq_ok.mp built
  obtain ⟨_, _, built⟩ := bind_eq_ok.mp built
  obtain ⟨_, _, built⟩ := bind_eq_ok.mp built
  cases built
  exact ⟨_, rfl⟩

theorem recoveryAdditionOperations_ok {addition : IdentityRecoveryAddition}
    {operations : List IdentityControlOperation}
    (built : state.recoveryAdditionOperations addition = .ok operations) :
    ∃ grants, operations = .recoveryKeyAdded addition.member addition.sealedSecret
        addition.strength :: grants ∧
      ∀ grant ∈ grants, ∃ storeId keyEpoch recipients,
        grant = .vaultDekGranted storeId keyEpoch recipients := by
  obtain ⟨_, _, built⟩ := bind_eq_ok.mp built
  obtain ⟨_, _, built⟩ := bind_eq_ok.mp built
  obtain ⟨_, _, built⟩ := bind_eq_ok.mp built
  obtain ⟨grants, mapped, built⟩ := bind_eq_ok.mp built
  cases built
  refine ⟨grants, rfl, ?_⟩
  intro grant member
  obtain ⟨opened, _, made⟩ := (mem_of_mapM_eq_ok mapped).mp member
  obtain ⟨_, _, made⟩ := bind_eq_ok.mp made
  cases made
  exact ⟨_, _, _, rfl⟩

omit [IdentitySealing] in
theorem revocationOperation_ok {appId : AppId} {operation : IdentityControlOperation}
    (built : state.revocationOperation appId = .ok operation) :
    operation = .memberRevoked appId ∧ ∃ member, state.member appId = some member := by
  unfold revocationOperation at built
  split at built
  · cases built
  · rename_i member found
    split at built
    · cases built
    · cases built
      exact ⟨rfl, member, found⟩

/-- Only members are revoked. -/
theorem Built.revokes {operations : List IdentityControlOperation} (built : state.Built operations)
    {operation : IdentityControlOperation} (listed : operation ∈ operations) {appId : AppId}
    (revokes : operation.revokes = some appId) : ∃ member, state.member appId = some member := by
  induction built with
  | approval built =>
    obtain ⟨member, vaultDeks, rfl⟩ := approvalOperation_ok built
    rw [List.mem_singleton.mp listed] at revokes
    cases revokes
  | addition built =>
    obtain ⟨vaultDeks, rfl⟩ := additionOperation_ok built
    rw [List.mem_singleton.mp listed] at revokes
    cases revokes
  | recoveryAddition built =>
    obtain ⟨grants, rfl, granting⟩ := recoveryAdditionOperations_ok built
    rcases List.mem_cons.mp listed with rfl | grant
    · cases revokes
    · obtain ⟨storeId, keyEpoch, recipients, rfl⟩ := granting operation grant
      cases revokes
  | recoveryApproval built =>
    obtain ⟨vaultDeks, rfl⟩ := recoveryApprovalOperation_ok built
    rw [List.mem_singleton.mp listed] at revokes
    cases revokes
  | revocation built =>
    obtain ⟨rfl, member, found⟩ := revocationOperation_ok built
    rw [List.mem_singleton.mp listed] at revokes
    cases revokes
    exact ⟨member, found⟩
  | other _ unrevoking =>
    rw [List.mem_singleton.mp listed, unrevoking] at revokes
    cases revokes
  | both _ _ first second =>
    rcases List.mem_append.mp listed with left | right
    · exact first left
    · exact second right

end IdentityControlState

namespace IdentityControlLog

variable {log other : IdentityControlLog}

/-! ### The heads an event is appended to -/

theorem Indexed.mem_applicableHeads (indexed : log.Indexed) (id : EventId) :
    id ∈ log.applicableHeads ↔ log.causal.Applicable id ∧
      ∀ child, log.causal.Applicable child → ¬log.causal.Edge id child := by
  have referenced : ∀ id, id ∈ ((log.causal.applicableIds.filterMap fun id =>
      log.events[id]?).flatMap fun event => event.body.parents) ↔
        ∃ child, log.causal.Applicable child ∧ log.causal.Edge id child := by
    intro id
    simp only [List.mem_flatMap, List.mem_filterMap, CausalGraph.mem_applicableIds]
    constructor
    · intro ⟨event, ⟨child, applicable, found⟩, parent⟩
      refine ⟨child, applicable, (indexed.edge_iff id child).mpr ?_⟩
      unfold bodyParents
      rw [found]
      exact parent
    · intro ⟨child, applicable, edge⟩
      obtain ⟨event, found⟩ := indexed.recorded applicable.1
      have parent := (indexed.edge_iff id child).mp edge
      unfold bodyParents at parent
      rw [found] at parent
      exact ⟨event, ⟨child, applicable, found⟩, parent⟩
  unfold applicableHeads
  dsimp only
  rw [List.mem_filter, Bool.not_eq_true', ← Bool.not_eq_true, List.contains_iff_mem, referenced,
    CausalGraph.mem_applicableIds]
  apply and_congr_right
  intro _
  rw [not_exists]
  exact forall_congr' fun child => not_and

/-- Every applicable event is in the past of a head. -/
theorem Indexed.exists_applicableHead (indexed : log.Indexed) {id : EventId}
    (applicable : log.causal.Applicable id) :
    ∃ head ∈ log.applicableHeads, log.causal.AncestorOrSelf id head := by
  let later := log.causal.applicableIds.filter fun other => log.causal.isAncestor id other
  have mem_later : ∀ other, other ∈ later ↔
      log.causal.Applicable other ∧ log.causal.AncestorOrSelf id other := by
    intro other
    simp only [later, List.mem_filter, CausalGraph.mem_applicableIds, CausalGraph.isAncestor_iff]
  have some : later ≠ [] := List.ne_nil_of_mem ((mem_later id).mpr ⟨applicable, .refl⟩)
  obtain ⟨head, inside, last⟩ := exists_minimal (fun a b => log.causal.Ancestor b a)
    (fun _ _ _ first second => second.trans first) later
    (fun other member => ((mem_later other).mp member).1.acyclic indexed.wellFormed) some
  obtain ⟨headApplicable, path⟩ := (mem_later head).mp inside
  refine ⟨head, (indexed.mem_applicableHeads head).mpr ⟨headApplicable, ?_⟩, path⟩
  intro child childApplicable edge
  exact last child ((mem_later child).mpr ⟨childApplicable, path.tail edge⟩) (.single edge)

/-! ### One event in two logs -/

/-- An id that both logs record has one body. -/
def SameBodies (log other : IdentityControlLog) : Prop :=
  ∀ (id : EventId) event otherEvent, log.events[id]? = some event →
    other.events[id]? = some otherEvent → event.body = otherEvent.body

theorem SameBodies.symm (same : log.SameBodies other) : other.SameBodies log :=
  fun id event otherEvent found otherFound => (same id otherEvent event otherFound found).symm

/-- Where both logs record all of the past of an event, it is one past. -/
theorem SameBodies.ancestorOrSelf (same : log.SameBodies other) (indexed : log.Indexed)
    (otherIndexed : other.Indexed) {ancestor id : EventId} (present : log.causal.Present id)
    (otherPresent : other.causal.Present id) (path : log.causal.AncestorOrSelf ancestor id) :
    other.causal.AncestorOrSelf ancestor id := by
  induction path using ReflTransGen.head_induction_on with
  | refl => exact .refl
  | @head parent child edge rest ih =>
    obtain ⟨event, found⟩ := indexed.recorded (present.ancestor rest)
    obtain ⟨otherEvent, otherFound⟩ := otherIndexed.recorded (otherPresent.ancestor ih)
    refine .head ((otherIndexed.edge_iff parent child).mpr ?_) ih
    have member := (indexed.edge_iff parent child).mp edge
    unfold bodyParents at member ⊢
    rw [found] at member
    rw [otherFound]
    dsimp only at member ⊢
    rwa [← same child event otherEvent found otherFound]

/-- Below an event that was appended to the heads of a log lie the applicable
events of that log. -/
theorem SameBodies.past_iff (same : log.SameBodies other) (indexed : log.Indexed)
    (otherIndexed : other.Indexed) {id : EventId} {event : IdentityEvent}
    (found : log.events[id]? = some event) (present : log.causal.Present id)
    (parents : event.body.parents = other.applicableHeads) (ancestor : EventId) :
    log.causal.Ancestor ancestor id ↔ other.causal.Applicable ancestor := by
  have edge : ∀ parent, log.causal.Edge parent id ↔ parent ∈ other.applicableHeads := by
    intro parent
    rw [indexed.edge_iff]
    unfold bodyParents
    rw [found, ← parents]
  rw [CausalGraph.ancestor_iff]
  constructor
  · intro ⟨parent, step, path⟩
    have head := ((otherIndexed.mem_applicableHeads parent).mp ((edge parent).mp step)).1
    exact head.ancestor otherIndexed.wellFormed (same.ancestorOrSelf indexed otherIndexed
      (present.ancestor (.single ((edge parent).mpr ((edge parent).mp step)))) head.1 path)
  · intro applicable
    obtain ⟨head, inside, path⟩ := otherIndexed.exists_applicableHead applicable
    have step := (edge head).mpr inside
    exact ⟨head, step, same.symm.ancestorOrSelf otherIndexed indexed
      ((otherIndexed.mem_applicableHeads head).mp inside).1.1
      (present.ancestor (.single step)) path⟩

variable [IdentitySealing]

theorem buildAppend_ok {operations : List IdentityControlOperation}
    {signing : IdentityEventSigning} {event : IdentityEvent}
    (built : log.buildAppend operations signing = .ok event) :
    event.body.parents = log.applicableHeads ∧ event.body.operations = operations := by
  obtain ⟨_, _, built⟩ := bind_eq_ok.mp built
  obtain ⟨actor, _, built⟩ := bind_eq_ok.mp built
  obtain ⟨_, _, built⟩ := bind_eq_ok.mp built
  obtain ⟨_, _, built⟩ := bind_eq_ok.mp built
  obtain ⟨_, _, built⟩ := bind_eq_ok.mp built
  cases built
  exact ⟨rfl, rfl⟩

end IdentityControlLog

end Nook.IdentityControl
