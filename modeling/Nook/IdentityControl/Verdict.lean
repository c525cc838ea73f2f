import Nook.IdentityControl.InviteJoin
import Nook.IdentityControl.PartialLog

set_option autoImplicit false

namespace Nook.IdentityControl

open Nook.Lib Nook.Replication Nook.EventLog

namespace IdentityControlLog

variable [IdentityExternal] {log part : IdentityControlLog} {id : EventId} {event : IdentityEvent}

/-! The verdict on an event has three parts: one that its own past decides, one
about the recorded joins, and one about the applicable revocations. -/

/-- Whether its own past refuses the event, whatever else the log has recorded. -/
def refusedByPast (log : IdentityControlLog) (event : IdentityEvent) : Bool :=
  if event.body.isGenesis || event.isSelfSignedJoinRequest then false
  else if event.inviteJoin.isSome then !log.inviteJoinHolds event
  else
    match log.effectiveMembers (log.ancestry event.body.parents) with
    | .ok members =>
      !isMemberActor members event.body.actorId || (memberActionRejection event members).isSome
    | .error _ => true

/-- Whether a recorded join with a lower id holds on the invite of the event. -/
def outbid (log : IdentityControlLog) (id : EventId) (event : IdentityEvent) : Bool :=
  match event.inviteJoin with
  | none => false
  | some (inviteId, _, _) => log.events.toList.any fun other =>
      other.1 < id && other.2.inviteJoin.any (fun join => join.1 = inviteId) &&
        log.inviteJoinHolds other.2

/-- The recovery passphrase whose removals the event is checked against. -/
def recoverySigner (log : IdentityControlLog) (event : IdentityEvent) : Option AppId :=
  if event.body.isGenesis || event.isSelfSignedJoinRequest || event.inviteJoin.isSome then none
  else
    match log.effectiveMembers (log.ancestry event.body.parents) with
    | .ok members => (members.toList.find? fun entry =>
        entry.2.actors.contains event.body.actorId && entry.2.role = .recovery).map Prod.fst
    | .error _ => none

/-- No applicable revocation counts against the event of a passphrase. -/
def Unremoved (log : IdentityControlLog) (id : EventId) (event : IdentityEvent) : Prop :=
  ∀ recovery, log.recoverySigner event = some recovery →
    ∀ revocation ∈ log.causal.applicableIds, ¬log.CountsAgainst revocation id recovery

theorem inviteJoin_of_exempt (enveloped : event.Enveloped)
    (exempt : (event.body.isGenesis || event.isSelfSignedJoinRequest) = true) :
    event.inviteJoin = none := by
  rw [Bool.or_eq_true] at exempt
  unfold IdentityEvent.inviteJoin
  rcases exempt with root | request
  · obtain ⟨founder, founding, _⟩ := enveloped.genesis root
    rw [founding]
  · obtain ⟨member, requested⟩ := enveloped.isSelfSignedJoinRequest_iff.mp request
    rw [(enveloped.requested member requested).1]

theorem outbid_of_unjoined (log : IdentityControlLog) (id : EventId)
    (unjoined : event.inviteJoin = none) : log.outbid id event = false := by
  unfold outbid
  rw [unjoined]

/-- A join is refused when it does not hold or is outbid. -/
theorem inviteJoinRejection_none_iff (joins : event.inviteJoin.isSome = true) :
    log.inviteJoinRejection id event = none ↔
      log.inviteJoinHolds event = true ∧ log.outbid id event = false := by
  obtain ⟨⟨inviteId, member, signature⟩, same⟩ := Option.isSome_iff_exists.mp joins
  unfold inviteJoinRejection outbid
  rw [same]
  dsimp only
  cases log.inviteJoinHolds event with
  | false => simp
  | true =>
    rw [Bool.not_true, if_neg Bool.false_ne_true, ite_eq_right_iff]
    simp only [reduceCtorEq, imp_false, Bool.not_eq_true, true_and]

/-- The search of a passphrase's removals finds none. -/
theorem Enveloped.revokedRecovery_none_iff (enveloped : log.Enveloped)
    (members : BTreeMap AppId EffectiveMember) :
    log.revokedRecoveryRejection id event members = .ok none ↔
      ∀ recovery, (members.toList.find? fun entry =>
          entry.2.actors.contains event.body.actorId && entry.2.role = .recovery).map Prod.fst =
            some recovery →
        ∀ revocation ∈ log.causal.applicableIds, ¬log.CountsAgainst revocation id recovery := by
  unfold revokedRecoveryRejection
  cases members.toList.find? _ with
  | none => simp
  | some entry =>
    obtain ⟨removal, ran, none_iff⟩ :=
      enveloped.removalBeside_spec id entry.1 log.causal.applicableIds
    simp only [Option.map_some, Option.some.injEq, forall_eq', ← none_iff]
    rw [ran]
    cases removal with
    | none => exact iff_of_true rfl rfl
    | some revocation => exact iff_of_false (fun same => by cases same) (fun same => by cases same)

/-- An event is accepted when none of the three parts refuses it. -/
theorem Enveloped.verdict_none_iff (enveloped : log.Enveloped)
    (found : log.events[id]? = some event) :
    log.verdict id = none ↔
      log.refusedByPast event = false ∧ log.outbid id event = false ∧ log.Unremoved id event := by
  rw [verdict_eq_none found]
  unfold refusedByPast Unremoved recoverySigner
  cases exempt : event.body.isGenesis || event.isSelfSignedJoinRequest with
  | true =>
    have unjoined := inviteJoin_of_exempt (enveloped id event found) exempt
    simp only [if_true, Bool.true_or, reduceCtorEq, false_implies, implies_true, and_true,
      outbid_of_unjoined log id unjoined, iff_true]
    exact .exempt exempt
  | false =>
    cases joins : event.inviteJoin.isSome with
    | true =>
      simp only [if_true, Bool.false_eq_true, if_false, Bool.or_true, reduceCtorEq, false_implies,
        implies_true, and_true, Bool.not_eq_false']
      rw [← inviteJoinRejection_none_iff joins]
      constructor
      · intro accepted
        cases accepted with
        | exempt open_ => rw [exempt] at open_; cases open_
        | join _ _ kept => exact kept
        | signed _ unjoined => rw [joins] at unjoined; cases unjoined
      · exact .join exempt joins
    | false =>
      have unjoined : event.inviteJoin = none := Option.not_isSome_iff_eq_none.mp (by simp [joins])
      obtain ⟨members, past, _⟩ := enveloped.effectiveMembers_spec (log.ancestry event.body.parents)
      simp only [Bool.false_eq_true, if_false, Bool.or_false, past, outbid_of_unjoined log id unjoined,
        true_and, ← enveloped.revokedRecovery_none_iff members, Bool.or_eq_false_iff,
        Bool.not_eq_false', Option.isSome_eq_false_iff, Option.isNone_iff_eq_none]
      constructor
      · intro accepted
        cases accepted with
        | exempt open_ => rw [exempt] at open_; cases open_
        | join _ joined => rw [joins] at joined; cases joined
        | signed _ _ others past' signer allowed unrevoked =>
          rw [past] at past'
          injection past' with same
          subst same
          exact ⟨⟨signer, allowed⟩, unrevoked⟩
      · intro ⟨⟨signer, allowed⟩, unrevoked⟩
        exact .signed exempt joins members past signer allowed unrevoked

namespace Part

variable (within : Part part log)
include within

theorem refusedByPast_eq (enveloped : log.Enveloped) (found : part.events[id]? = some event)
    (present : part.causal.Present id) : part.refusedByPast event = log.refusedByPast event := by
  unfold refusedByPast
  rw [within.inviteJoinHolds_eq found present, within.effectiveMembers_eq enveloped found present]

theorem recoverySigner_eq (enveloped : log.Enveloped) (found : part.events[id]? = some event)
    (present : part.causal.Present id) : part.recoverySigner event = log.recoverySigner event := by
  unfold recoverySigner
  rw [within.effectiveMembers_eq enveloped found present]

end Part

end IdentityControlLog

end Nook.IdentityControl
