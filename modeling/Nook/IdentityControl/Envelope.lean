import Nook.IdentityControl.Graph
import Nook.Lib.Except

set_option autoImplicit false

namespace Nook.IdentityControl

open Nook.Lib Nook.EventLog

variable [IdentityExternal]

namespace IdentityEvent

variable {event : IdentityEvent}

/-- The structure of an accepted envelope: a genesis only founds, a join is the
joiner's own single operation, and every admitted key tuple names its actor. -/
structure Enveloped (event : IdentityEvent) : Prop where
  genesis : event.body.isGenesis = true → ∃ founder,
    event.body.operations = [.identityCreated founder] ∧
      founder.signingActor = .ok event.body.actorId
  created : event.body.isGenesis = false → ∀ operation ∈ event.body.operations,
    operation.isIdentityCreated = false
  admits : ∀ operation ∈ event.body.operations, ∀ member role,
    operation.admits = some (member, role) → ∃ actor, member.signingActor = .ok actor
  requested : ∀ member, .memberJoinRequested member ∈ event.body.operations →
    event.body.operations = [.memberJoinRequested member] ∧
      member.signingActor = .ok event.body.actorId
  joined : ∀ inviteId member signature vaultDeks,
    .memberJoinedByInvite inviteId member signature vaultDeks ∈ event.body.operations →
      event.body.operations = [.memberJoinedByInvite inviteId member signature vaultDeks] ∧
        member.signingActor = .ok event.body.actorId

theorem isSoleAndSignedBy_ok {member : IdentityMemberKeys}
    (sole : event.isSoleAndSignedBy member = .ok true) :
    event.body.operations.length = 1 ∧ member.signingActor = .ok event.body.actorId := by
  unfold isSoleAndSignedBy at sole
  split at sole
  · cases sole
  · rename_i single
    obtain ⟨actor, signed, same⟩ := bind_eq_ok.mp sole
    injection same with same
    rw [decide_eq_true_iff] at same
    exact ⟨not_not.mp single, same ▸ signed⟩

omit [IdentityExternal] in
theorem eq_singleton_of_mem {operation : IdentityControlOperation}
    (member : operation ∈ event.body.operations) (single : event.body.operations.length = 1) :
    event.body.operations = [operation] := by
  obtain ⟨only, same⟩ := List.length_eq_one_iff.mp single
  rw [same, List.mem_singleton] at member
  rw [same, member]

/-- What the structure check of one operation establishes about joins. -/
theorem validateOperation_request {member : IdentityMemberKeys}
    (valid : event.validateOperation (.memberJoinRequested member) = .ok ()) :
    event.body.operations.length = 1 ∧ member.signingActor = .ok event.body.actorId := by
  obtain ⟨sole, signed, holds⟩ := bind_eq_ok.mp valid
  rw [ensure_eq_ok] at holds
  exact isSoleAndSignedBy_ok (holds ▸ signed)

theorem validateOperation_join {inviteId : IdentityInviteId} {member : IdentityMemberKeys}
    {signature : Ed25519Signature} {vaultDeks : List IdentityVaultDekGrant}
    (valid : event.validateOperation (.memberJoinedByInvite inviteId member signature vaultDeks) =
      .ok ()) :
    event.body.operations.length = 1 ∧ member.signingActor = .ok event.body.actorId := by
  obtain ⟨sole, signed, holds⟩ := bind_eq_ok.mp valid
  obtain ⟨_, checked, _⟩ := bind_eq_ok.mp holds
  rw [ensure_eq_ok] at checked
  exact isSoleAndSignedBy_ok (checked ▸ signed)

theorem validateOperation_admits {operation : IdentityControlOperation}
    (valid : event.validateOperation operation = .ok ()) {member : IdentityMemberKeys}
    (admits : operation.admits = some (member, .app))
    (created : operation.isIdentityCreated = false) :
    ∃ actor, member.signingActor = .ok actor := by
  cases operation with
  | memberApproved keys vaultDeks device =>
    cases admits
    obtain ⟨_, signed, _⟩ := bind_eq_ok.mp valid
    exact discard_eq_ok signed
  | memberJoinedByInvite inviteId keys signature vaultDeks =>
    cases admits
    exact ⟨_, (validateOperation_join valid).2⟩
  | identityCreated => cases created
  | _ => cases admits

theorem enveloped (structured : event.validateOperationStructure = .ok ())
    (recovered : event.checkRecoveryMembers = .ok ()) : event.Enveloped := by
  have recovery : ∀ operation ∈ event.body.operations, ∀ member sealedSecret strength,
      operation = .recoveryKeyAdded member sealedSecret strength →
        ∃ actor, member.signingActor = .ok actor := by
    intro operation listed member sealedSecret strength same
    subst same
    exact discard_eq_ok (forM_eq_ok.mp recovered _ listed)
  unfold validateOperationStructure at structured
  split at structured
  · rename_i root
    split at structured
    · rename_i founder operations
      obtain ⟨actor, signed, same⟩ := bind_eq_ok.mp structured
      rw [ensure_eq_ok, decide_eq_true_iff] at same
      subst same
      constructor
      · exact fun _ => ⟨founder, operations, signed⟩
      · intro branch
        rw [root] at branch
        cases branch
      · intro operation listed member role admits
        rw [operations, List.mem_singleton] at listed
        subst listed
        cases admits
        exact ⟨_, signed⟩
      · intro member listed
        rw [operations, List.mem_singleton] at listed
        cases listed
      · intro inviteId member signature vaultDeks listed
        rw [operations, List.mem_singleton] at listed
        cases listed
    · cases structured
  · rename_i branch
    split at structured
    · cases structured
    · rename_i created
      rw [forM_eq_ok] at structured
      simp only [List.any_eq_true, not_exists, not_and, Bool.not_eq_true] at created
      constructor
      · exact fun root => absurd root branch
      · exact fun _ => created
      · intro operation listed member role admits
        cases role with
        | app => exact validateOperation_admits (structured operation listed) admits (created operation listed)
        | recovery =>
          cases operation with
          | recoveryKeyAdded keys sealedSecret strength =>
            cases admits
            exact recovery _ listed _ _ _ rfl
          | _ => cases admits
      · intro member listed
        have valid := validateOperation_request (structured _ listed)
        exact ⟨eq_singleton_of_mem listed valid.1, valid.2⟩
      · intro inviteId member signature vaultDeks listed
        have valid := validateOperation_join (structured _ listed)
        exact ⟨eq_singleton_of_mem listed valid.1, valid.2⟩

theorem validateEnvelope_ok {expected : IdentityId} {id : EventId}
    (valid : event.validateEnvelope expected = .ok id) :
    event.Enveloped ∧ event.id = .ok id := by
  obtain ⟨_, _, valid⟩ := bind_eq_ok.mp valid
  obtain ⟨_, _, valid⟩ := bind_eq_ok.mp valid
  obtain ⟨_, _, valid⟩ := bind_eq_ok.mp valid
  obtain ⟨_, _, valid⟩ := bind_eq_ok.mp valid
  obtain ⟨_, structured, valid⟩ := bind_eq_ok.mp valid
  obtain ⟨_, _, valid⟩ := bind_eq_ok.mp valid
  obtain ⟨_, recovered, valid⟩ := bind_eq_ok.mp valid
  obtain ⟨_, _, valid⟩ := bind_eq_ok.mp valid
  exact ⟨enveloped structured recovered, valid⟩

namespace Enveloped

/-- The invite join of an event is its only operation. -/
theorem inviteJoin_eq (enveloped : event.Enveloped) {inviteId : IdentityInviteId}
    {member : IdentityMemberKeys} {signature : Ed25519Signature}
    {vaultDeks : List IdentityVaultDekGrant}
    (listed : .memberJoinedByInvite inviteId member signature vaultDeks ∈ event.body.operations) :
    event.inviteJoin = some (inviteId, member, signature) := by
  unfold inviteJoin
  rw [(enveloped.joined _ _ _ _ listed).1]

theorem isSelfSignedJoinRequest_iff (enveloped : event.Enveloped) :
    event.isSelfSignedJoinRequest = true ↔
      ∃ member, .memberJoinRequested member ∈ event.body.operations := by
  constructor
  · intro request
    unfold isSelfSignedJoinRequest at request
    split at request
    · rename_i member operations
      exact ⟨member, by rw [operations]; exact List.mem_singleton_self _⟩
    · cases request
  · intro ⟨member, listed⟩
    obtain ⟨operations, signed⟩ := enveloped.requested member listed
    unfold isSelfSignedJoinRequest
    rw [operations]
    dsimp only
    rw [signed]
    exact decide_eq_true rfl

end Enveloped

end IdentityEvent

end Nook.IdentityControl
