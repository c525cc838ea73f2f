import Nook.IdentityControl.Verdict

set_option autoImplicit false

namespace Nook.IdentityControl

open Nook.Lib Nook.Replication Nook.EventLog Relation

namespace IdentityControlLog

variable [IdentityExternal] {log part : IdentityControlLog} {id : EventId}

/-! What the recorded events alone, before any verdict, say of the verdicts that
some or every order of their delivery gives. -/

/-- The past of the event is recorded, and refuses it. -/
def PastRefused (log : IdentityControlLog) (id : EventId) : Prop :=
  log.causal.Present id ∧ (log.events[id]?).any log.refusedByPast = true

/-- The other event is a join with a lower id on the same invite, and it holds. -/
def Outbids (log : IdentityControlLog) (other id : EventId) : Prop :=
  other < id ∧ (log.events[id]?).any (fun event => event.inviteJoin.any fun join =>
    (log.events[other]?).any fun rival =>
      rival.inviteJoin.any (fun claim => claim.1 = join.1) && log.inviteJoinHolds rival) = true

/-- Whether some recorded issue of its invite proves the join; a log that has
recorded less may find that issue first. -/
def inviteJoinMayHold (log : IdentityControlLog) (event : IdentityEvent) : Bool :=
  match event.inviteJoin with
  | none => false
  | some (inviteId, member, signature) => (log.ancestry event.body.parents).toList.any fun issuer =>
      (log.events[issuer]?).any fun issuing => issuing.body.operations.any fun
        | .memberInvited invite => invite.inviteId = inviteId &&
            (IdentityInviteProof.verify ⟨log.identityId, inviteId, member⟩ invite signature).isOk
        | _ => false

/-- A recorded join with a lower id may hold on the invite of the event. -/
def Rivalled (log : IdentityControlLog) (id : EventId) : Prop :=
  ∃ other ∈ log.events.keys, other < id ∧ (log.events[id]?).any (fun event =>
    event.inviteJoin.any fun join => (log.events[other]?).any fun rival =>
      rival.inviteJoin.any (fun claim => claim.1 = join.1) && log.inviteJoinMayHold rival) = true

/-- A recovery passphrase signed the event, and the revocation counts against it. -/
def Counters (log : IdentityControlLog) (revocation id : EventId) : Prop :=
  ∃ recovery ∈ (log.events[id]?).bind log.recoverySigner, log.CountsAgainst revocation id recovery

def JointPast (log : IdentityControlLog) (left right id : EventId) : Prop :=
  log.causal.AncestorOrSelf id left ∨ log.causal.AncestorOrSelf id right

/-- The revocation and the event may both be applicable when a pass comes to the
event: in their joint past nothing is on a cycle, and nothing that the pass comes
to first is refused by its own past or by another event there. -/
def Meets (log : IdentityControlLog) (revocation id : EventId) : Prop :=
  log.causal.Present revocation ∧ ∀ earlier ∈ log.causal.parents.keys,
    log.JointPast revocation id earlier → ¬log.causal.Ancestor earlier earlier ∧
      (earlier < id → ¬log.PastRefused earlier ∧ ∀ other ∈ log.causal.parents.keys,
        log.JointPast revocation id other →
          ¬log.Outbids other earlier ∧ ¬log.Counters other earlier)

/-- Some order of delivery may reject the event by a rule about the whole log. -/
def Contested (log : IdentityControlLog) (id : EventId) : Prop :=
  log.causal.Present id ∧ (log.Rivalled id ∨ ∃ revocation ∈ log.causal.parents.keys,
    log.Counters revocation id ∧ log.Meets revocation id)

/-- No order of delivery rejects the event. -/
def Firm (log : IdentityControlLog) (id : EventId) : Prop :=
  log.causal.Present id ∧ ∀ ancestor ∈ log.causal.parents.keys,
    log.causal.AncestorOrSelf ancestor id → ¬log.causal.Ancestor ancestor ancestor ∧
      ¬log.PastRefused ancestor ∧ ¬log.Contested ancestor

/-- Every order of delivery ends with the event rejected. -/
def Doomed (log : IdentityControlLog) (id : EventId) : Prop :=
  log.causal.Ancestor id id ∨ log.PastRefused id ∨ log.causal.Present id ∧
    ((∃ other ∈ log.causal.parents.keys, log.Outbids other id) ∨
      ∃ revocation ∈ log.causal.parents.keys, log.Counters revocation id ∧ log.Firm revocation)

/-- What some order may reject, every order rejects, for itself or for an ancestor. -/
def Convergent (log : IdentityControlLog) : Prop :=
  ∀ id ∈ log.causal.parents.keys, log.Contested id → ∃ cause ∈ log.causal.parents.keys,
    log.causal.AncestorOrSelf cause id ∧ log.Doomed cause

section Decidable

omit [IdentityExternal]

variable {Id : Type} [LinearOrder Id] (graph : CausalGraph Id)

instance (ancestor id : Id) : Decidable (graph.AncestorOrSelf ancestor id) :=
  decidable_of_iff _ (CausalGraph.isAncestor_iff ancestor id)

instance (id : Id) : Decidable (graph.Ancestor id id) :=
  decidable_of_iff _ (CausalGraph.mem_allCyclicIds id)

instance (id : Id) : Decidable (graph.Present id) :=
  decidable_of_iff _ (CausalGraph.ancestorsPresent_iff id)

instance (log : IdentityControlLog) (id : EventId) (appId : AppId) :
    Decidable (log.Revokes id appId) :=
  decidable_of_iff (((log.events[id]?).any fun event =>
      event.body.operations.any fun operation => operation.revokes = some appId) = true) (by
    simp [Revokes, Option.any_eq_true])

end Decidable

instance (log : IdentityControlLog) (id : EventId) : Decidable (log.SignedByMember id) :=
  decidable_of_iff (((log.events[id]?).any fun event =>
      match log.effectiveMembers (log.ancestry event.body.parents) with
      | .ok members => isMemberActor members event.body.actorId
      | .error _ => false) = true) (by
    rw [Option.any_eq_true]
    apply exists_congr
    intro event
    cases log.effectiveMembers (log.ancestry event.body.parents) with
    | ok members => simp
    | error => simp)

instance (log : IdentityControlLog) (revocation id : EventId) (recovery : AppId) :
    Decidable (log.CountsAgainst revocation id recovery) :=
  decidable_of_iff (¬log.causal.AncestorOrSelf id revocation ∧ log.Revokes revocation recovery ∧
      log.SignedByMember revocation)
    ⟨fun counts => ⟨counts.1, counts.2.1, counts.2.2⟩,
      fun counts => ⟨counts.beside, counts.revokes, counts.signed⟩⟩

section Decidable

variable (log : IdentityControlLog) (revocation other id : EventId)

instance : Decidable (log.PastRefused id) := by unfold PastRefused; infer_instance
instance : Decidable (log.Outbids other id) := by unfold Outbids; infer_instance
instance : Decidable (log.Rivalled id) := by unfold Rivalled; infer_instance
instance : Decidable (log.Counters revocation id) := by unfold Counters; infer_instance
instance (left right : EventId) : Decidable (log.JointPast left right id) := by
  unfold JointPast; infer_instance
instance : Decidable (log.Meets revocation id) := by unfold Meets; infer_instance
instance : Decidable (log.Contested id) := by unfold Contested; infer_instance
instance : Decidable (log.Firm id) := by unfold Firm; infer_instance
instance : Decidable (log.Doomed id) := by unfold Doomed; infer_instance
instance : Decidable log.Convergent := by unfold Convergent; infer_instance

end Decidable

/-! ### The verdict of a log -/

theorem outbid_iff {event : IdentityEvent} (found : log.events[id]? = some event) :
    log.outbid id event = true ↔ ∃ other ∈ log.events.keys, log.Outbids other id := by
  unfold outbid Outbids
  simp only [found, Option.any_some]
  cases event.inviteJoin with
  | none => simp
  | some join =>
    simp only [List.any_eq_true, Bool.and_eq_true, decide_eq_true_eq, Option.any_some,
      Option.any_eq_true, Prod.exists, Std.ExtTreeMap.mem_toList_iff_getElem?_eq_some,
      Std.ExtTreeMap.mem_keys]
    constructor
    · intro ⟨other, rival, recorded, ⟨lower, same⟩, holds⟩
      exact ⟨other, BTreeMap.mem_of_getElem? recorded, lower, rival, recorded, same, holds⟩
    · intro ⟨other, _, lower, rival, recorded, same, holds⟩
      exact ⟨other, rival, recorded, ⟨lower, same⟩, holds⟩

/-- An event with a complete past is accepted when nothing refuses it. -/
theorem Enveloped.accepts_iff (enveloped : log.Enveloped) (indexed : log.Indexed)
    (present : log.causal.Present id) :
    log.verdict id = none ↔ ¬log.PastRefused id ∧
      (∀ other ∈ log.events.keys, ¬log.Outbids other id) ∧
        ∀ revocation ∈ log.causal.applicableIds, ¬log.Counters revocation id := by
  obtain ⟨event, found⟩ := indexed.recorded present
  rw [enveloped.verdict_none_iff found]
  apply and_congr
  · unfold PastRefused
    rw [found, Option.any_some, ← Bool.not_eq_true]
    exact not_congr (iff_and_self.mpr fun _ => present)
  apply and_congr
  · rw [← Bool.not_eq_true, outbid_iff found]
    simp only [not_exists, not_and]
  · unfold Unremoved Counters
    rw [found, Option.bind_some]
    simp only [Option.mem_def, not_exists, not_and]
    exact ⟨fun kept revocation listed recovery signer => kept recovery signer revocation listed,
      fun kept recovery signer revocation listed => kept revocation listed recovery signer⟩

/-! ### The verdicts of a part -/

namespace Part

variable (within : Part part log)
include within

theorem pastRefused_iff (enveloped : log.Enveloped) (present : part.causal.Present id) :
    part.PastRefused id ↔ log.PastRefused id := by
  obtain ⟨event, found⟩ := within.partIndexed.recorded present
  unfold PastRefused
  rw [found, within.recorded id event found, Option.any_some, Option.any_some,
    within.refusedByPast_eq enveloped found present]
  exact and_congr_left' (iff_of_true present (within.present present))

theorem outbids_iff {other : EventId} (present : part.causal.Present id)
    (otherPresent : part.causal.Present other) : part.Outbids other id ↔ log.Outbids other id := by
  obtain ⟨event, found⟩ := within.partIndexed.recorded present
  obtain ⟨rival, recorded⟩ := within.partIndexed.recorded otherPresent
  unfold Outbids
  simp only [found, within.recorded id event found, recorded, within.recorded other rival recorded,
    Option.any_some, within.inviteJoinHolds_eq recorded otherPresent]

theorem counters_iff (enveloped : log.Enveloped) {revocation : EventId}
    (present : part.causal.Present id) (standing : part.causal.Present revocation) :
    part.Counters revocation id ↔ log.Counters revocation id := by
  obtain ⟨event, found⟩ := within.partIndexed.recorded present
  unfold Counters
  rw [found, within.recorded id event found, Option.bind_some, Option.bind_some,
    within.recoverySigner_eq enveloped found present]
  apply exists_congr
  intro recovery
  exact and_congr_right' (within.countsAgainst_iff enveloped standing recovery)

end Part

/-- The proof of a join that a part finds is one that the log has. -/
theorem Part.inviteJoinMayHold (within : Part part log) {event : IdentityEvent}
    (holds : part.inviteJoinHolds event = true) : log.inviteJoinMayHold event = true := by
  cases joins : event.inviteJoin with
  | none =>
    unfold inviteJoinHolds at holds
    rw [joins] at holds
    cases holds
  | some join =>
    obtain ⟨inviteId, member, signature⟩ := join
    obtain ⟨invite, issued, verified⟩ := (inviteJoinHolds_iff event joins).mp holds
    obtain ⟨same, issuer, below, issuing, found, listed⟩ := issuedInvite_issues issued
    obtain ⟨parent, inside, path⟩ := (within.partIndexed.mem_ancestry _ _).mp below
    have member : issuer ∈ log.ancestry event.body.parents :=
      (within.indexed.mem_ancestry _ _).mpr ⟨parent, inside, ReflTransGen.mono within.edge _ _ path⟩
    rw [within.identity] at verified
    unfold IdentityControlLog.inviteJoinMayHold
    rw [joins]
    dsimp only
    rw [List.any_eq_true]
    refine ⟨issuer, Std.ExtTreeSet.mem_toList.mpr member, ?_⟩
    rw [within.recorded issuer issuing found, Option.any_some, List.any_eq_true]
    refine ⟨_, listed, ?_⟩
    dsimp only
    rw [verified, same]
    simp [Except.isOk, Except.toBool]

/-- A join that outbids in a part may hold in the log. -/
theorem Part.rivalled (within : Part part log) {other : EventId} (outbids : part.Outbids other id) :
    log.Rivalled id := by
  obtain ⟨lower, matched⟩ := outbids
  simp only [Option.any_eq_true, Bool.and_eq_true, decide_eq_true_eq] at matched
  obtain ⟨event, found, join, joins, rival, recorded, claimed, holds⟩ := matched
  have kept := within.recorded other rival recorded
  refine ⟨other, Std.ExtTreeMap.mem_keys.mpr (BTreeMap.mem_of_getElem? kept), lower, ?_⟩
  simp only [Option.any_eq_true, Bool.and_eq_true, decide_eq_true_eq]
  exact ⟨event, within.recorded id event found, join, joins, rival, kept, claimed,
    within.inviteJoinMayHold holds⟩

/-- What stands in the joint past of two firm events refuses nothing there. -/
theorem Firm.not_refused (indexed : log.Indexed) {left right earlier other : EventId}
    (leftFirm : log.Firm left) (rightFirm : log.Firm right)
    (inside : log.JointPast left right earlier) (beside : log.JointPast left right other) :
    ¬log.Outbids other earlier ∧ ¬log.Counters other earlier := by
  have firm : ∀ id, log.JointPast left right id → log.causal.Present id ∧
      ¬log.causal.Ancestor id id ∧ ¬log.PastRefused id ∧ ¬log.Contested id := by
    intro id member
    rcases member with path | path
    · have present := leftFirm.1.ancestor path
      exact ⟨present, leftFirm.2 id (Std.ExtTreeMap.mem_keys.mpr present.known) path⟩
    · have present := rightFirm.1.ancestor path
      exact ⟨present, rightFirm.2 id (Std.ExtTreeMap.mem_keys.mpr present.known) path⟩
  have outbidden : ∀ id, log.JointPast left right id → ∀ other, ¬log.Outbids other id := by
    intro id member other outbids
    obtain ⟨present, _, _, uncontested⟩ := firm id member
    exact uncontested ⟨present, Or.inl (indexed.wholly.rivalled outbids)⟩
  refine ⟨outbidden earlier inside other, ?_⟩
  intro counters
  -- The countered event with the lowest id would be contested.
  let countered := log.causal.parents.keys.filter fun id => log.JointPast left right id ∧
    ∃ other ∈ log.causal.parents.keys, log.JointPast left right other ∧ log.Counters other id
  have mem_countered : ∀ id, id ∈ countered ↔ id ∈ log.causal.parents.keys ∧
      log.JointPast left right id ∧ ∃ other ∈ log.causal.parents.keys,
        log.JointPast left right other ∧ log.Counters other id := by
    simp [countered]
  have known : ∀ id, log.JointPast left right id → id ∈ log.causal.parents.keys := fun id member =>
    Std.ExtTreeMap.mem_keys.mpr (firm id member).1.known
  have some : countered ≠ [] := List.ne_nil_of_mem ((mem_countered earlier).mpr
    ⟨known earlier inside, inside, other, known other beside, beside, counters⟩)
  obtain ⟨first, member, least⟩ := exists_minimal (fun a b : EventId => a < b)
    (fun _ _ _ => lt_trans) countered (fun id _ => lt_irrefl id) some
  obtain ⟨_, joint, revocation, listed, standing, against⟩ := (mem_countered first).mp member
  have narrow : ∀ id, log.JointPast revocation first id → log.JointPast left right id := by
    intro id below
    rcases below with path | path
    · exact standing.imp path.trans path.trans
    · exact joint.imp path.trans path.trans
  obtain ⟨present, _, _, uncontested⟩ := firm first joint
  refine uncontested ⟨present, Or.inr ⟨revocation, listed, against, (firm revocation standing).1, ?_⟩⟩
  intro id _ below
  obtain ⟨_, acyclic, unrefused, _⟩ := firm id (narrow id below)
  refine ⟨acyclic, fun lower => ⟨unrefused, ?_⟩⟩
  intro other found otherBelow
  refine ⟨outbidden id (narrow id below) other, fun counters => least id ?_ lower⟩
  exact (mem_countered id).mpr ⟨known id (narrow id below), narrow id below, other, found,
    narrow other otherBelow, counters⟩

/-- Nothing at or below a firm event is doomed. -/
theorem Firm.not_doomed (indexed : log.Indexed) {cause : EventId} (firm : log.Firm id)
    (path : log.causal.AncestorOrSelf cause id) : ¬log.Doomed cause := by
  have present := firm.1.ancestor path
  obtain ⟨acyclic, unrefused, uncontested⟩ :=
    firm.2 cause (Std.ExtTreeMap.mem_keys.mpr present.known) path
  intro doomed
  rcases doomed with cyclic | refused | ⟨_, ⟨other, _, outbids⟩ | ⟨revocation, _, counters, standing⟩⟩
  · exact acyclic cyclic
  · exact unrefused refused
  · exact uncontested ⟨present, Or.inl (indexed.wholly.rivalled outbids)⟩
  · exact (firm.not_refused indexed standing (Or.inl path) (Or.inr .refl)).2 counters

end IdentityControlLog

end Nook.IdentityControl
