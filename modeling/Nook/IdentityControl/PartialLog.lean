import Nook.IdentityControl.RecoveryConfinement

set_option autoImplicit false

namespace Nook.IdentityControl

open Nook.Lib Nook.Replication Nook.EventLog Relation

namespace IdentityControlLog

variable {log part : IdentityControlLog} {id : EventId} {event : IdentityEvent}

/-- The part has recorded some of the events of the log. -/
structure Part (part log : IdentityControlLog) : Prop where
  identity : part.identityId = log.identityId
  recorded : ∀ (id : EventId) event, part.events[id]? = some event → log.events[id]? = some event
  partIndexed : part.Indexed
  indexed : log.Indexed

theorem Indexed.wholly (indexed : log.Indexed) : Part log log :=
  ⟨rfl, fun _ _ found => found, indexed, indexed⟩

namespace Part

variable (within : Part part log)
include within

theorem edge_iff (found : part.events[id]? = some event) (parent : EventId) :
    part.causal.Edge parent id ↔ log.causal.Edge parent id := by
  rw [within.partIndexed.edge_iff, within.indexed.edge_iff]
  unfold bodyParents
  rw [found, within.recorded id event found]

theorem edge (parent child : EventId) (edge : part.causal.Edge parent child) :
    log.causal.Edge parent child := by
  obtain ⟨event, found⟩ := (BTreeMap.mem_iff_getElem? _ _).mp
    ((within.partIndexed.known_iff child).mp edge.known)
  exact (within.edge_iff found parent).mp edge

/-- The past of an event, where the part has recorded all of it, is its past in the log. -/
theorem ancestorOrSelf_iff (present : part.causal.Present id) (ancestor : EventId) :
    part.causal.AncestorOrSelf ancestor id ↔ log.causal.AncestorOrSelf ancestor id := by
  constructor
  · exact fun path => ReflTransGen.mono within.edge _ _ path
  · intro path
    induction path using ReflTransGen.head_induction_on with
    | refl => exact .refl
    | @head parent child edge _ ih =>
      obtain ⟨event, found⟩ := within.partIndexed.recorded (present.ancestor ih)
      exact .head ((within.edge_iff found parent).mpr edge) ih

theorem ancestor_iff (present : part.causal.Present id) (ancestor : EventId) :
    part.causal.Ancestor ancestor id ↔ log.causal.Ancestor ancestor id := by
  obtain ⟨event, found⟩ := within.partIndexed.recorded present
  rw [CausalGraph.ancestor_iff, CausalGraph.ancestor_iff]
  apply exists_congr
  intro parent
  constructor
  · intro ⟨edge, path⟩
    exact ⟨(within.edge_iff found parent).mp edge,
      (within.ancestorOrSelf_iff (present.ancestor (.single edge)) ancestor).mp path⟩
  · intro ⟨edge, path⟩
    have step := (within.edge_iff found parent).mpr edge
    exact ⟨step, (within.ancestorOrSelf_iff (present.ancestor (.single step)) ancestor).mpr path⟩

theorem known (known : id ∈ part.causal.parents) : id ∈ log.causal.parents := by
  obtain ⟨event, found⟩ := (BTreeMap.mem_iff_getElem? _ _).mp
    ((within.partIndexed.known_iff id).mp known)
  exact (within.indexed.known_iff id).mpr
    (BTreeMap.mem_of_getElem? (within.recorded id event found))

theorem present (present : part.causal.Present id) : log.causal.Present id := fun ancestor path =>
  within.known (present ancestor ((within.ancestorOrSelf_iff present ancestor).mpr path))

theorem present_iff : part.causal.Present id ↔
    ∀ ancestor, log.causal.AncestorOrSelf ancestor id → ancestor ∈ part.events := by
  constructor
  · intro present ancestor path
    rw [← within.partIndexed.known_iff]
    exact present ancestor ((within.ancestorOrSelf_iff present ancestor).mpr path)
  · intro recorded ancestor path
    rw [within.partIndexed.known_iff]
    exact recorded ancestor (ReflTransGen.mono within.edge _ _ path)

theorem events_eq (present : part.causal.Present id) {ancestor : EventId}
    (path : part.causal.AncestorOrSelf ancestor id) :
    part.events[ancestor]? = log.events[ancestor]? := by
  obtain ⟨event, found⟩ := within.partIndexed.recorded (present.ancestor path)
  rw [found, within.recorded ancestor event found]

theorem ancestry_eq (found : part.events[id]? = some event) (present : part.causal.Present id) :
    part.ancestry event.body.parents = log.ancestry event.body.parents := by
  apply Std.ExtTreeSet.ext_mem
  intro ancestor
  rw [within.partIndexed.mem_ancestry_parents found,
    within.indexed.mem_ancestry_parents (within.recorded id event found)]
  exact within.ancestor_iff present ancestor

/-- An event has one record below its parents. -/
theorem past_eq (found : part.events[id]? = some event) (present : part.causal.Present id)
    {ancestor : EventId} (member : ancestor ∈ part.ancestry event.body.parents) :
    part.causal.Present ancestor ∧ part.events[ancestor]? = log.events[ancestor]? := by
  have path := ((within.partIndexed.mem_ancestry_parents found ancestor).mp member).to_reflTransGen
  exact ⟨present.ancestor path, within.events_eq present path⟩

theorem issuedInvite_eq (found : part.events[id]? = some event) (present : part.causal.Present id)
    (inviteId : IdentityInviteId) :
    part.issuedInvite event.body.parents inviteId =
      log.issuedInvite event.body.parents inviteId := by
  have listed : ((part.ancestry event.body.parents).toList.filterMap fun id => part.events[id]?) =
      (log.ancestry event.body.parents).toList.filterMap fun id => log.events[id]? := by
    rw [← within.ancestry_eq found present]
    apply List.filterMap_congr
    intro ancestor member
    exact (within.past_eq found present (Std.ExtTreeSet.mem_toList.mp member)).2
  unfold issuedInvite
  rw [listed]

variable [IdentityExternal]

theorem inviteJoinHolds_eq (found : part.events[id]? = some event)
    (present : part.causal.Present id) : part.inviteJoinHolds event = log.inviteJoinHolds event := by
  unfold inviteJoinHolds
  rw [within.identity]
  simp only [within.issuedInvite_eq found present]

theorem enveloped (enveloped : log.Enveloped) : part.Enveloped := fun id event found =>
  enveloped id event (within.recorded id event found)

/-- Membership among events below a complete past is one in both. -/
theorem effectiveMembers_eq (enveloped : log.Enveloped) (found : part.events[id]? = some event)
    (present : part.causal.Present id) :
    part.effectiveMembers (part.ancestry event.body.parents) =
      log.effectiveMembers (log.ancestry event.body.parents) := by
  have recorded : ∀ ancestor ∈ part.ancestry event.body.parents,
      part.causal.Present ancestor ∧ part.events[ancestor]? = log.events[ancestor]? :=
    fun _ member => within.past_eq found present member
  rw [← within.ancestry_eq found present]
  generalize part.ancestry event.body.parents = past at recorded
  have histories : part.membershipHistory past = log.membershipHistory past := by
    apply foldlM_congr_mem
    intro ancestor member history
    unfold eventHistory
    rw [(recorded ancestor (Std.ExtTreeSet.mem_toList.mp member)).2]
  obtain ⟨history, collected, approvals, revocations⟩ := enveloped.membershipHistory_spec past
  unfold effectiveMembers
  rw [histories, collected]
  show Except.ok _ = Except.ok _
  congr 1
  apply List.foldl_ext
  intro members approval member
  have survival : part.survives history approval = log.survives history approval := by
    have inside := ((approvals approval).mp member).1
    unfold survives
    rw [Bool.eq_iff_iff, List.all_eq_true, List.all_eq_true]
    apply forall_congr'
    intro revocation
    rw [CausalGraph.isAncestor_iff, CausalGraph.isAncestor_iff,
      within.ancestorOrSelf_iff (recorded approval.event inside).1]
  unfold admitApproval
  rw [survival]

theorem signedByMember_iff (enveloped : log.Enveloped) (present : part.causal.Present id) :
    part.SignedByMember id ↔ log.SignedByMember id := by
  obtain ⟨event, found⟩ := within.partIndexed.recorded present
  have both := within.recorded id event found
  constructor
  · intro ⟨other, members, same, past, signer⟩
    rw [found] at same
    injection same with same
    subst same
    exact ⟨event, members, both, within.effectiveMembers_eq enveloped found present ▸ past, signer⟩
  · intro ⟨other, members, same, past, signer⟩
    rw [both] at same
    injection same with same
    subst same
    exact ⟨event, members, found, (within.effectiveMembers_eq enveloped found present).trans past,
      signer⟩

omit [IdentityExternal] in
theorem revokes_iff (present : part.causal.Present id) (appId : AppId) :
    part.Revokes id appId ↔ log.Revokes id appId := by
  unfold Revokes
  rw [within.events_eq present .refl]

theorem countsAgainst_iff (enveloped : log.Enveloped) {revocation : EventId}
    (present : part.causal.Present revocation) (recovery : AppId) :
    part.CountsAgainst revocation id recovery ↔ log.CountsAgainst revocation id recovery := by
  have path := within.ancestorOrSelf_iff present id
  have revokes := within.revokes_iff present recovery
  have signed := within.signedByMember_iff enveloped present
  constructor
  · intro counts
    exact ⟨fun before => counts.beside (path.mpr before), revokes.mp counts.revokes,
      signed.mp counts.signed⟩
  · intro counts
    exact ⟨fun before => counts.beside (path.mp before), revokes.mpr counts.revokes,
      signed.mpr counts.signed⟩

end Part

/-! ### Growing logs -/

theorem Part.trans {whole : IdentityControlLog} (within : Part part log) (rest : Part log whole) :
    Part part whole :=
  ⟨within.identity.trans rest.identity,
    fun id event found => rest.recorded id event (within.recorded id event found),
    within.partIndexed, rest.indexed⟩

variable [IdentityExternal]

theorem Reachable.part_insert (reachable : log.Reachable) {insertion : IdentityControlInsertion}
    (accepted : log.insert event = .ok insertion) : Part log insertion.log := by
  have indexed := (reachable.insert accepted).sound.indexed
  have inserted := inserted_insert accepted
  generalize insertion.log = next at inserted indexed
  cases inserted with
  | duplicate => exact indexed.wholly
  | recorded id valid fresh single =>
    have recording := reachable.sound.indexed.recordEvent fresh event
    obtain ⟨identity, events, _⟩ := (quarantineUnauthorized_spec recording.wellFormed).1.frame
    refine ⟨identity.symm, ?_, reachable.sound.indexed, indexed⟩
    intro other found lookup
    have apart : id ≠ other := by
      rintro rfl
      rw [fresh] at lookup
      cases lookup
    rw [events, events_recordEvent, if_neg apart]
    exact lookup

/-- Insertions only add events. -/
theorem Reachable.part_insertAll {events : List IdentityEvent} {next : IdentityControlLog}
    (reachable : log.Reachable) (accepted : log.insertAll events = .ok next) : Part log next := by
  induction events generalizing log with
  | nil =>
    cases accepted
    exact reachable.sound.indexed.wholly
  | cons event events ih =>
    unfold IdentityControlLog.insertAll at accepted
    rw [List.foldlM_cons] at accepted
    obtain ⟨middle, first, rest⟩ := bind_eq_ok.mp accepted
    obtain ⟨insertion, inserted, same⟩ := bind_eq_ok.mp first
    cases same
    exact (reachable.part_insert inserted).trans (ih (reachable.insert inserted) rest)

end IdentityControlLog

end Nook.IdentityControl
