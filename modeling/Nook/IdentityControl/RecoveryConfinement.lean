import Nook.IdentityControl.Membership
import Nook.IdentityControl.TestSupport

set_option autoImplicit false

namespace Nook.IdentityControl

open Nook.Lib Nook.Replication Nook.EventLog Relation

/-- Among the members only this app holds the key, and it is a recovery passphrase. -/
structure SignsAsRecovery (members : BTreeMap AppId EffectiveMember) (actor : AuthKeyId)
    (recovery : AppId) : Prop where
  holds : ∃ entry : EffectiveMember, members[recovery]? = some entry ∧ actor ∈ entry.actors ∧
    entry.role = .recovery
  only : ∀ (appId : AppId) (entry : EffectiveMember), members[appId]? = some entry →
    actor ∈ entry.actors → appId = recovery

def signsAsRecovery (members : BTreeMap AppId EffectiveMember) (actor : AuthKeyId)
    (recovery : AppId) : Bool :=
  (members[recovery]?.any fun entry => entry.actors.contains actor && entry.role = .recovery) &&
    members.toList.all fun entry => !entry.2.actors.contains actor || entry.1 = recovery

theorem signsAsRecovery_iff (members : BTreeMap AppId EffectiveMember) (actor : AuthKeyId)
    (recovery : AppId) :
    signsAsRecovery members actor recovery = true ↔ SignsAsRecovery members actor recovery := by
  simp only [signsAsRecovery, Bool.and_eq_true, Option.any_eq_true, List.all_eq_true, Prod.forall,
    Std.ExtTreeMap.mem_toList_iff_getElem?_eq_some, Bool.or_eq_true, Bool.not_eq_true',
    ← Bool.not_eq_true, Std.ExtTreeSet.contains_iff_mem, decide_eq_true_eq, ← imp_iff_not_or]
  constructor
  · intro ⟨holds, only⟩
    exact ⟨holds, only⟩
  · intro signs
    exact ⟨signs.holds, signs.only⟩

/-- What a recovery passphrase may sign: the approval of a new app key on its own
device, or its own removal. -/
inductive AllowedForRecovery (recovery : AppId) (members : BTreeMap AppId EffectiveMember) :
    IdentityControlOperation → Prop
  | approval (member : IdentityMemberKeys) (vaultDeks : List IdentityVaultDekGrant)
      (new : member.appId ∉ members) :
      AllowedForRecovery recovery members (.memberApproved member vaultDeks .own)
  | removal : AllowedForRecovery recovery members (.memberRevoked recovery)

theorem allowedForRecovery_iff (recovery : AppId) (members : BTreeMap AppId EffectiveMember)
    (operation : IdentityControlOperation) :
    refusedForRecovery recovery members operation = false ↔
      AllowedForRecovery recovery members operation := by
  constructor
  · intro allowed
    cases operation with
    | memberApproved member vaultDeks device =>
      cases device with
      | own =>
        change members.contains member.appId = false at allowed
        rw [← Bool.not_eq_true, Std.ExtTreeMap.contains_iff_mem] at allowed
        exact .approval member vaultDeks allowed
      | sameAs => cases allowed
    | memberRevoked appId =>
      change decide (appId ≠ recovery) = false at allowed
      rw [decide_eq_false_iff_not, not_not] at allowed
      subst allowed
      exact .removal
    | _ => cases allowed
  · intro allowed
    cases allowed with
    | approval member vaultDeks new =>
      show members.contains member.appId = false
      rw [← Bool.not_eq_true, Std.ExtTreeMap.contains_iff_mem]
      exact new
    | removal => exact decide_eq_false (not_not.mpr rfl)

theorem SignsAsRecovery.find (members : BTreeMap AppId EffectiveMember) {actor : AuthKeyId}
    {recovery : AppId} (signs : SignsAsRecovery members actor recovery)
    (check : AppId × EffectiveMember → Bool)
    (matched : ∀ entry, entry.2.role = .recovery → check entry = entry.2.actors.contains actor)
    (sound : ∀ entry, check entry = true → actor ∈ entry.2.actors) :
    ∃ entry : EffectiveMember, members.toList.find? check = some (recovery, entry) ∧
      entry.role = .recovery := by
  obtain ⟨held, lookup, inside, role⟩ := signs.holds
  cases found : members.toList.find? check with
  | none =>
    rw [List.find?_eq_none] at found
    have passes := matched (recovery, held) role
    rw [Std.ExtTreeSet.contains_iff_mem.mpr inside] at passes
    exact absurd passes (found _ (Std.ExtTreeMap.mem_toList_iff_getElem?_eq_some.mpr lookup))
  | some entry =>
    have listed := Std.ExtTreeMap.mem_toList_iff_getElem?_eq_some.mp (List.mem_of_find?_eq_some found)
    have same := signs.only entry.1 entry.2 listed (sound entry (List.find?_some found))
    rw [same, lookup] at listed
    injection listed with equal
    exact ⟨entry.2, by rw [← same], equal ▸ role⟩

/-- The operations of somebody who is no member yet. -/
def IdentityControlOperation.fromOutside : IdentityControlOperation → Bool
  | identityCreated _ | memberJoinRequested _ | memberJoinedByInvite .. => true
  | _ => false

theorem IdentityControlOperation.fromOutside_of_revokes {operation : IdentityControlOperation}
    {appId : AppId} (revokes : operation.revokes = some appId) : operation.fromOutside = false := by
  cases operation <;> first | rfl | cases revokes

namespace IdentityControlLog

variable {log : IdentityControlLog} [IdentityExternal]

/-- A member of its causal past signed the event. -/
def SignedByMember (log : IdentityControlLog) (id : EventId) : Prop :=
  ∃ event members, log.events[id]? = some event ∧
    log.effectiveMembers (log.ancestry event.body.parents) = .ok members ∧
      isMemberActor members event.body.actorId = true

/-- A revocation that counts against an event of the passphrase: it is not the
event, nor after it, and a member signed it. -/
structure CountsAgainst (log : IdentityControlLog) (revocation id : EventId) (recovery : AppId) :
    Prop where
  beside : ¬log.causal.AncestorOrSelf id revocation
  revokes : log.Revokes revocation recovery
  signed : log.SignedByMember revocation

theorem Enveloped.removalBeside_spec (enveloped : log.Enveloped) (id : EventId) (recovery : AppId)
    (ids : List EventId) : ∃ removal, log.removalBeside id recovery ids = .ok removal ∧
      (removal = none ↔ ∀ revocation ∈ ids, ¬log.CountsAgainst revocation id recovery) := by
  induction ids with
  | nil => exact ⟨none, rfl, by simp⟩
  | cons revocation ids ih =>
    obtain ⟨removal, rest, none_iff⟩ := ih
    have skipped : ¬log.CountsAgainst revocation id recovery → (removal = none ↔
        ∀ other ∈ revocation :: ids, ¬log.CountsAgainst other id recovery) := by
      intro harmless
      rw [none_iff, List.forall_mem_cons]
      exact ⟨fun later => ⟨harmless, later⟩, fun both => both.2⟩
    unfold removalBeside
    rw [rest]
    split
    · rename_i before
      refine ⟨removal, rfl, skipped ?_⟩
      intro counts
      rw [Bool.or_eq_true, decide_eq_true_iff, CausalGraph.isAncestor_iff] at before
      rcases before with rfl | before
      · exact counts.beside .refl
      · exact counts.beside before
    · rename_i beside
      rw [Bool.or_eq_true, not_or, CausalGraph.isAncestor_iff] at beside
      split
      · rename_i absent
        refine ⟨removal, rfl, skipped ?_⟩
        intro counts
        obtain ⟨event, found, _⟩ := counts.revokes
        rw [absent] at found
        cases found
      · rename_i event found
        have revokes_iff : (event.body.operations.any fun operation =>
            operation.revokes = some recovery) = true ↔ log.Revokes revocation recovery := by
          unfold Revokes
          rw [found]
          simp
        split
        · rename_i other
          refine ⟨removal, rfl, skipped ?_⟩
          intro counts
          rw [revokes_iff.mpr counts.revokes] at other
          cases other
        · rename_i revokes
          rw [Bool.not_eq_true', Bool.not_eq_false, revokes_iff] at revokes
          obtain ⟨members, past, _⟩ := enveloped.effectiveMembers_spec
            (log.ancestry event.body.parents)
          rw [past]
          show ∃ removal, (if isMemberActor members event.body.actorId = true then _ else _) = _ ∧ _
          split
          · rename_i signer
            refine ⟨some revocation, rfl, ?_⟩
            simp only [reduceCtorEq, false_iff]
            intro none
            exact none revocation List.mem_cons_self
              ⟨beside.2, revokes, event, members, found, past, signer⟩
          · rename_i outsider
            refine ⟨removal, rfl, skipped ?_⟩
            intro counts
            obtain ⟨other, found', recorded, past', signer⟩ := counts.signed
            rw [found] at recorded
            injection recorded with same
            rw [← same, past] at past'
            injection past' with equal
            rw [← equal, ← same] at signer
            exact outsider signer

/-- A member of its causal past signed what a member did. -/
theorem Sound.signedByMember (sound : log.Sound) {id : EventId}
    (applicable : log.causal.Applicable id) {event : IdentityEvent}
    (found : log.events[id]? = some event) {operation : IdentityControlOperation}
    (listed : operation ∈ event.body.operations) (outside : operation.fromOutside = false) :
    log.SignedByMember id := by
  have enveloped := sound.enveloped id event found
  have sole : ∀ other, event.body.operations = [other] → other.fromOutside = false := by
    intro other only
    rw [only, List.mem_singleton] at listed
    rwa [← listed]
  cases sound.accepted applicable found with
  | signed _ _ members past signer => exact ⟨event, members, found, past, signer⟩
  | exempt exempt =>
    rw [Bool.or_eq_true] at exempt
    rcases exempt with root | request
    · obtain ⟨founder, founding, _⟩ := enveloped.genesis root
      cases sole _ founding
    · obtain ⟨member, requested⟩ := enveloped.isSelfSignedJoinRequest_iff.mp request
      cases sole _ (enveloped.requested member requested).1
  | join _ joins =>
    unfold IdentityEvent.inviteJoin at joins
    split at joins
    · rename_i only
      cases sole _ only
    · cases joins

/-- An event of a recovery passphrase is kept when no applicable revocation counts against it. -/
theorem revokedRecoveryRejection_eq_none (enveloped : log.Enveloped) {id : EventId}
    {event : IdentityEvent} {members : BTreeMap AppId EffectiveMember} {recovery : AppId}
    (signs : SignsAsRecovery members event.body.actorId recovery) :
    log.revokedRecoveryRejection id event members = .ok none ↔
      ∀ revocation ∈ log.causal.applicableIds, ¬log.CountsAgainst revocation id recovery := by
  obtain ⟨entry, first, role⟩ := signs.find members
    (fun entry => entry.2.actors.contains event.body.actorId && entry.2.role = .recovery)
    (fun entry role => by simp [role])
    (fun entry passed => by
      rw [Bool.and_eq_true, Std.ExtTreeSet.contains_iff_mem] at passed
      exact passed.1)
  obtain ⟨removal, ran, none_iff⟩ := enveloped.removalBeside_spec id recovery log.causal.applicableIds
  unfold revokedRecoveryRejection
  rw [first, ← none_iff]
  dsimp only
  rw [ran]
  cases removal with
  | none => exact iff_of_true rfl rfl
  | some revocation => exact iff_of_false (fun same => by cases same) (fun same => by cases same)

/-- What a recovery passphrase signed is confined: it approves new app keys on its
own device or removes itself, and every other removal of it comes later. -/
theorem recovery_confined (reachable : log.Reachable) {id : EventId} {event : IdentityEvent}
    (applicable : id ∈ log.causal.applicableIds) (found : log.events[id]? = some event)
    (request : event.isSelfSignedJoinRequest = false) (join : event.inviteJoin = none)
    {members : BTreeMap AppId EffectiveMember}
    (past : log.effectiveMembers (log.ancestry event.body.parents) = .ok members)
    {recovery : AppId} (signs : SignsAsRecovery members event.body.actorId recovery) :
    (∀ operation ∈ event.body.operations, AllowedForRecovery recovery members operation) ∧
      ∀ revocation ∈ log.causal.applicableIds, revocation ≠ id →
        log.Revokes revocation recovery → log.causal.Ancestor id revocation := by
  have sound := reachable.sound
  rw [CausalGraph.mem_applicableIds] at applicable
  cases sound.accepted applicable found with
  | exempt exempt =>
    rw [request, Bool.or_false] at exempt
    -- The genesis has no past to be a member in.
    obtain ⟨_, past', effective⟩ := sound.enveloped.effectiveMembers_spec
      (log.ancestry event.body.parents)
    rw [past] at past'
    injection past' with same
    obtain ⟨entry, lookup, _⟩ := signs.holds
    obtain ⟨admission, _, _, survives, _⟩ := (effective.listed recovery).mp
      (same ▸ BTreeMap.mem_of_getElem? lookup)
    have below := (sound.indexed.mem_ancestry _ _).mp survives.inside
    rw [List.isEmpty_iff.mp exempt] at below
    obtain ⟨_, none, _⟩ := below
    cases none
  | join _ joins =>
    rw [join] at joins
    cases joins
  | signed _ _ members' past' _ allowed unrevoked =>
    rw [past] at past'
    injection past' with same
    rw [← same] at allowed unrevoked
    constructor
    · obtain ⟨entry, first, role⟩ := signs.find members
        (fun entry => entry.2.actors.contains event.body.actorId) (fun _ _ => rfl)
        (fun entry passed => Std.ExtTreeSet.contains_iff_mem.mp passed)
      unfold memberActionRejection at allowed
      rw [first] at allowed
      dsimp only at allowed
      rw [role] at allowed
      dsimp only at allowed
      split at allowed
      · cases allowed
      · rename_i unrefused
        intro operation listed
        rw [List.any_eq_true, not_exists] at unrefused
        have passes := unrefused operation
        rw [not_and, Bool.not_eq_true] at passes
        exact (allowedForRecovery_iff recovery members operation).mp (passes listed)
    · intro revocation later apart revokes
      have kept := revokes
      have harmless := (revokedRecoveryRejection_eq_none sound.enveloped signs).mp unrevoked
        revocation later
      by_contra beside
      apply harmless
      obtain ⟨_, recorded, operation, listed, revoking⟩ := revokes
      refine ⟨?_, kept, sound.signedByMember ((CausalGraph.mem_applicableIds _).mp later) recorded
        listed (IdentityControlOperation.fromOutside_of_revokes revoking)⟩
      intro path
      rcases reflTransGen_iff_eq_or_transGen.mp path with same | path
      · exact apart same
      · exact beside path

end IdentityControlLog

namespace TestSupport

open Nook.EventLog.TestSupport

def recoveryApproval : IdentityEvent := signed 'x' '9' ['h'] [approve '3']

/-- A recovery passphrase approves a new app, and is removed afterwards. -/
def recoveredEvents : List IdentityEvent :=
  [founded 'g' '1', signed 'h' '1' ['g'] [addRecovery '9'], recoveryApproval,
    signed 'v' '1' ['x'] [revoke '9']]

theorem recovery_confined_recoveredEvents :
    ∃ log, (IdentityControlLog.new identityId).insertAll recoveredEvents = .ok log ∧
      log.Revokes (eventId 'v') (keys '9').appId ∧
        log.causal.Ancestor (eventId 'x') (eventId 'v') := by
  obtain ⟨log, built, checked⟩ := exists_of_passes
    ((IdentityControlLog.new identityId).insertAll recoveredEvents)
    (fun log => decide (eventId 'x' ∈ log.causal.applicableIds) &&
      decide (eventId 'v' ∈ log.causal.applicableIds) &&
      decide (log.events[eventId 'x']? = some recoveryApproval) &&
      decide (log.events[eventId 'v']? = some (signed 'v' '1' ['x'] [revoke '9'])) &&
      passes (log.effectiveMembers (log.ancestry recoveryApproval.body.parents))
        fun members => signsAsRecovery members (actor '9') (keys '9').appId)
    (by decide +kernel)
  simp only [Bool.and_eq_true, decide_eq_true_eq] at checked
  obtain ⟨⟨⟨⟨approved, removed⟩, found⟩, recorded⟩, signing⟩ := checked
  obtain ⟨members, past, signs⟩ := exists_of_passes _ _ signing
  have revokes : log.Revokes (eventId 'v') (keys '9').appId :=
    ⟨_, recorded, revoke '9', List.mem_singleton_self _, rfl⟩
  refine ⟨log, built, revokes, ?_⟩
  exact (IdentityControlLog.recovery_confined
    ((IdentityControlLog.Reachable.new identityId).insertAll built) approved found
    (by decide +kernel) (by decide +kernel) past ((signsAsRecovery_iff _ _ _).mp signs)).2
    (eventId 'v') removed (by decide) revokes

end TestSupport

end Nook.IdentityControl
