import Nook.IdentityControl.GraphInvariant
import Nook.IdentityControl.TestSupport

set_option autoImplicit false

namespace Nook.IdentityControl

open Nook.Lib Nook.Replication Nook.EventLog

namespace IdentityControlLog

variable {log : IdentityControlLog}

/-- An event of the log issues the invite. -/
def Issues (log : IdentityControlLog) (id : EventId) (invite : IdentityInvite) : Prop :=
  ∃ event, log.events[id]? = some event ∧ .memberInvited invite ∈ event.body.operations

/-- An applicable event in which the member joins by the invite. -/
structure JoinsBy (log : IdentityControlLog) (inviteId : IdentityInviteId) (id : EventId)
    (member : IdentityMemberKeys) (signature : Ed25519Signature) : Prop where
  applicable : id ∈ log.causal.applicableIds
  recorded : ∃ event vaultDeks, log.events[id]? = some event ∧
    .memberJoinedByInvite inviteId member signature vaultDeks ∈ event.body.operations

/-- An invite that is found was issued in the ancestry under that id. -/
theorem issuedInvite_issues {parents : List EventId} {inviteId : IdentityInviteId}
    {invite : IdentityInvite} (found : log.issuedInvite parents inviteId = some invite) :
    invite.inviteId = inviteId ∧ ∃ id ∈ log.ancestry parents, log.Issues id invite := by
  unfold issuedInvite at found
  obtain ⟨operation, listed, matched⟩ := List.exists_of_findSome?_eq_some found
  obtain ⟨event, recorded, inside⟩ := List.mem_flatMap.mp listed
  obtain ⟨id, member, lookup⟩ := List.mem_filterMap.mp recorded
  rw [Std.ExtTreeSet.mem_toList] at member
  cases operation with
  | memberInvited issued =>
    dsimp only at matched
    split at matched
    · rename_i same
      injection matched with equal
      subst equal
      exact ⟨same, id, member, event, lookup, inside⟩
    · cases matched
  | _ => cases matched

variable [IdentityExternal]

theorem inviteJoinHolds_iff (event : IdentityEvent) {inviteId : IdentityInviteId}
    {member : IdentityMemberKeys} {signature : Ed25519Signature}
    (joins : event.inviteJoin = some (inviteId, member, signature)) :
    log.inviteJoinHolds event = true ↔ ∃ invite,
      log.issuedInvite event.body.parents inviteId = some invite ∧
        IdentityInviteProof.verify ⟨log.identityId, inviteId, member⟩ invite signature = .ok () := by
  unfold inviteJoinHolds
  rw [joins]
  dsimp only
  cases log.issuedInvite event.body.parents inviteId with
  | none => simp
  | some invite =>
    dsimp only
    constructor
    · intro holds
      obtain ⟨_, verified⟩ := exists_of_isOk holds
      exact ⟨invite, rfl, verified⟩
    · rintro ⟨other, same, verified⟩
      injection same with same
      rw [same, verified]
      rfl

/-- A join that is not refused holds, and no join with a lower id holds on its invite. -/
theorem inviteJoinRejection_eq_none {id : EventId} {event : IdentityEvent}
    {inviteId : IdentityInviteId} {member : IdentityMemberKeys} {signature : Ed25519Signature}
    (joins : event.inviteJoin = some (inviteId, member, signature)) :
    log.inviteJoinRejection id event = none ↔ log.inviteJoinHolds event = true ∧
      ∀ (other : EventId) another, log.events[other]? = some another → other < id →
        (∃ joiner proof, another.inviteJoin = some (inviteId, joiner, proof)) →
          log.inviteJoinHolds another = false := by
  unfold inviteJoinRejection
  rw [joins]
  dsimp only
  by_cases holds : log.inviteJoinHolds event = true
  · rw [holds, Bool.not_true, if_neg Bool.false_ne_true]
    rw [ite_eq_right_iff]
    simp only [reduceCtorEq, imp_false, List.any_eq_true, not_exists, not_and, Prod.forall,
      Std.ExtTreeMap.mem_toList_iff_getElem?_eq_some, Bool.and_eq_true, decide_eq_true_eq, and_imp,
      Bool.not_eq_true, true_and]
    apply forall_congr'
    intro other
    apply forall_congr'
    intro another
    apply forall_congr'
    intro _
    apply forall_congr'
    intro _
    rw [← Bool.not_eq_true]
    cases another.inviteJoin with
    | none => simp
    | some join =>
      obtain ⟨otherInvite, joiner, proof⟩ := join
      simp
  · rw [Bool.not_eq_true] at holds
    simp [holds]

/-- What an applicable join comes to: its proof holds, and no join with a lower
id holds on its invite. -/
theorem Sound.joinsBy (sound : log.Sound) {inviteId : IdentityInviteId} {id : EventId}
    {member : IdentityMemberKeys} {signature : Ed25519Signature}
    (joins : log.JoinsBy inviteId id member signature) :
    ∃ event, log.events[id]? = some event ∧
      event.inviteJoin = some (inviteId, member, signature) ∧
        log.inviteJoinRejection id event = none := by
  obtain ⟨event, vaultDeks, found, listed⟩ := joins.recorded
  have enveloped := sound.enveloped id event found
  have sole := enveloped.inviteJoin_eq listed
  have operations := (enveloped.joined _ _ _ _ listed).1
  refine ⟨event, found, sole, ?_⟩
  cases sound.accepted ((CausalGraph.mem_applicableIds id).mp joins.applicable) found with
  | exempt exempt =>
    rw [Bool.or_eq_true] at exempt
    rcases exempt with root | request
    · obtain ⟨founder, founding, _⟩ := enveloped.genesis root
      rw [operations] at founding
      cases founding
    · obtain ⟨other, requested⟩ := enveloped.isSelfSignedJoinRequest_iff.mp request
      rw [operations, List.mem_singleton] at requested
      cases requested
  | join _ _ kept => exact kept
  | signed _ unjoined =>
    rw [sole] at unjoined
    cases unjoined

/-- At most one applicable join uses an invite, and it uses one that an applicable
event of its past issued, whose key proves the joiner's keys. -/
theorem inviteJoin_unique (reachable : log.Reachable) (inviteId : IdentityInviteId) :
    (∀ left right leftMember rightMember leftSignature rightSignature,
      log.JoinsBy inviteId left leftMember leftSignature →
        log.JoinsBy inviteId right rightMember rightSignature → left = right) ∧
    ∀ id member signature, log.JoinsBy inviteId id member signature →
      ∃ issuer invite, issuer ∈ log.causal.applicableIds ∧ log.causal.Ancestor issuer id ∧
        log.Issues issuer invite ∧ invite.inviteId = inviteId ∧
          IdentityInviteProof.verify ⟨log.identityId, inviteId, member⟩ invite signature = .ok () := by
  have sound := reachable.sound
  constructor
  · have lowest : ∀ left right leftMember rightMember leftSignature rightSignature,
        log.JoinsBy inviteId left leftMember leftSignature →
          log.JoinsBy inviteId right rightMember rightSignature → ¬left < right := by
      intro left right leftMember rightMember leftSignature rightSignature first second below
      obtain ⟨event, found, joins, kept⟩ := sound.joinsBy first
      obtain ⟨later, laterFound, laterJoins, laterKept⟩ := sound.joinsBy second
      have holds := ((inviteJoinRejection_eq_none joins).mp kept).1
      have unused := ((inviteJoinRejection_eq_none laterJoins).mp laterKept).2 left event found
        below ⟨leftMember, leftSignature, joins⟩
      rw [holds] at unused
      cases unused
    intro left right leftMember rightMember leftSignature rightSignature first second
    exact le_antisymm (not_lt.mp (lowest right left _ _ _ _ second first))
      (not_lt.mp (lowest left right _ _ _ _ first second))
  · intro id member signature joined
    obtain ⟨event, found, joins, kept⟩ := sound.joinsBy joined
    obtain ⟨invite, issued, verified⟩ := (inviteJoinHolds_iff event joins).mp
      ((inviteJoinRejection_eq_none joins).mp kept).1
    obtain ⟨same, issuer, below, issues⟩ := issuedInvite_issues issued
    have path := (sound.indexed.mem_ancestry_parents found issuer).mp below
    have applicable := (CausalGraph.mem_applicableIds id).mp joined.applicable
    refine ⟨issuer, invite, ?_, path, issues, same, verified⟩
    exact (CausalGraph.mem_applicableIds issuer).mpr
      (applicable.ancestor sound.indexed.wellFormed path.to_reflTransGen)

end IdentityControlLog

namespace TestSupport

open Nook.EventLog.TestSupport

/-- Two devices join by one invite, each unaware of the other. -/
def joinedEvents : List IdentityEvent :=
  [founded 'g' '1', signed 'i' '1' ['g'] [invite '5'],
    signed 'm' '3' ['i'] [join '5' '3'], signed 'j' '2' ['i'] [join '5' '2']]

theorem inviteJoin_unique_joinedEvents :
    ∃ log, (IdentityControlLog.new identityId).insertAll joinedEvents = .ok log ∧
      log.causal.applicableIds = [eventId 'g', eventId 'i', eventId 'j'] ∧
      ∀ left right leftMember rightMember leftSignature rightSignature,
        log.JoinsBy ⟨['5']⟩ left leftMember leftSignature →
          log.JoinsBy ⟨['5']⟩ right rightMember rightSignature → left = right := by
  obtain ⟨log, built, applicable⟩ := exists_of_passes
    ((IdentityControlLog.new identityId).insertAll joinedEvents)
    (fun log => decide (log.causal.applicableIds = [eventId 'g', eventId 'i', eventId 'j']))
    (by decide +kernel)
  refine ⟨log, built, of_decide_eq_true applicable, ?_⟩
  exact (IdentityControlLog.inviteJoin_unique
    ((IdentityControlLog.Reachable.new identityId).insertAll built) ⟨['5']⟩).1

end TestSupport

end Nook.IdentityControl
