import Nook.IdentityControl.ProjectionFold
import Nook.IdentityControl.RecoveryConfinement

set_option autoImplicit false

namespace Nook.IdentityControl

open Nook.Lib Nook.Replication Nook.EventLog Relation

theorem IdentityControlOperation.fromOutside_of_admission {operation : IdentityControlOperation}
    {actorId actor : AuthKeyId} {admission : MemberAdmission}
    (found : operation.admission actorId = some admission)
    (admitted : admission.admittedBy = .member actor) :
    operation.fromOutside = false ∧ actor = actorId := by
  cases operation <;> cases found <;> cases admitted <;> exact ⟨rfl, rfl⟩

theorem ProjectionAccumulator.approver_ok {accumulator : ProjectionAccumulator}
    {admittedBy : AdmittingActor} (known : ∀ actor, admittedBy = .member actor →
      ∃ (appId : AppId) (admitted : AdmittedMember), accumulator.signers[actor]? = some appId ∧
        accumulator.memberKeys[appId]? = some admitted) :
    ∃ approver, accumulator.approver admittedBy = .ok approver := by
  cases admittedBy with
  | founder => exact ⟨_, rfl⟩
  | invite => exact ⟨_, rfl⟩
  | member actor =>
    obtain ⟨appId, admitted, signer, member⟩ := known actor rfl
    unfold approver
    dsimp only
    rw [signer, Option.bind_some, member]
    dsimp only
    cases admitted.kind <;> exact ⟨_, rfl⟩

namespace IdentityControlLog

variable {log : IdentityControlLog}

/-- The applicable events in an order of their causality. -/
structure Ordered (log : IdentityControlLog) (ordered : List (EventId × IdentityEvent)) : Prop where
  extension : log.causal.Extension (ordered.map Prod.fst)
  mem_iff : ∀ (id : EventId) event, (id, event) ∈ ordered ↔
    log.causal.Applicable id ∧ log.events[id]? = some event

/-- The step of the traversal that reads the event of each id. -/
theorem readEvent_eq_ok {id : EventId} {entry : EventId × IdentityEvent} :
    (match log.events[id]? with
      | some event => (.ok (id, event) : EventResult (EventId × IdentityEvent))
      | none => .error (.missingEvent id.asStr)) = .ok entry ↔
      entry.1 = id ∧ log.events[id]? = some entry.2 := by
  cases log.events[id]? with
  | none => simp
  | some event => grind

theorem exists_readEvent {id : EventId} (recorded : ∃ event, log.events[id]? = some event) :
    ∃ entry, (match log.events[id]? with
      | some event => (.ok (id, event) : EventResult (EventId × IdentityEvent))
      | none => .error (.missingEvent id.asStr)) = .ok entry := by
  obtain ⟨event, found⟩ := recorded
  exact ⟨(id, event), readEvent_eq_ok.mpr ⟨rfl, found⟩⟩

theorem Indexed.orderedApplicableEvents_ok (indexed : log.Indexed) :
    ∃ ordered, log.orderedApplicableEvents = .ok ordered ∧ log.Ordered ordered := by
  obtain ⟨order, sorted, extension⟩ := CausalGraph.topologicalOrder_extension indexed.wellFormed
  unfold orderedApplicableEvents
  rw [sorted]
  obtain ⟨ordered, collected⟩ := exists_mapM_eq_ok fun id (listed : id ∈ order) =>
    exists_readEvent (indexed.recorded ((extension.mem_iff id).mp listed).1)
  have ids : ordered.map Prod.fst = order :=
    map_of_mapM_eq_ok (fun _ _ read => (readEvent_eq_ok.mp read).1) collected
  refine ⟨ordered, collected, ids ▸ extension, ?_⟩
  intro id event
  rw [mem_of_mapM_eq_ok collected, ← extension.mem_iff]
  constructor
  · rintro ⟨other, listed, read⟩
    obtain ⟨same, found⟩ := readEvent_eq_ok.mp read
    cases same
    exact ⟨listed, found⟩
  · rintro ⟨listed, found⟩
    exact ⟨id, listed, readEvent_eq_ok.mpr ⟨rfl, found⟩⟩

/-- The admission of a member is an operation the fold went through. -/
theorem Ordered.admission {ordered : List (EventId × IdentityEvent)} (listing : log.Ordered ordered)
    {id : EventId} {member : IdentityMemberKeys} {role : MemberRole}
    (applicable : log.causal.Applicable id) (admits : log.Admits id member role) :
    ∃ step ∈ operationsOf ordered, step.1.1 = id ∧ step.2.admits = some (member, role) := by
  obtain ⟨event, found, operation, listed, admitting⟩ := admits
  refine ⟨((id, event), operation), ?_, rfl, admitting⟩
  exact (mem_operationsOf ordered _).mpr ⟨(listing.mem_iff id event).mpr ⟨applicable, found⟩, listed⟩

variable [IdentityExternal]

/-- A member that a recorded past lists was admitted by the fold over any later events. -/
theorem Sound.signer_known (sound : log.Sound) {ordered : List (EventId × IdentityEvent)}
    (listing : log.Ordered ordered) {accumulator : ProjectionAccumulator}
    (signed : accumulator.Signed (operationsOf ordered)) {id : EventId}
    (applicable : log.causal.Applicable id) {event : IdentityEvent}
    (found : log.events[id]? = some event) (signer : log.SignedByMember id) :
    ∃ (appId : AppId) (admitted : AdmittedMember),
      accumulator.signers[event.body.actorId]? = some appId ∧
        accumulator.memberKeys[appId]? = some admitted := by
  obtain ⟨same, members, recorded, past, acts⟩ := signer
  rw [found] at recorded
  injection recorded with equal
  obtain ⟨_, past', effective⟩ := sound.enveloped.effectiveMembers_spec
    (log.ancestry event.body.parents)
  rw [← equal] at past acts
  rw [past] at past'
  injection past' with same
  subst same
  obtain ⟨app, entry, lookup, holds⟩ := (isMemberActor_iff members event.body.actorId).mp acts
  obtain ⟨admission, member, role, survives, _, key⟩ :=
    (effective.actors app entry lookup event.body.actorId).mp holds
  have below := (sound.indexed.mem_ancestry_parents found admission).mp survives.inside
  obtain ⟨step, listed, _, admits⟩ := listing.admission
    (applicable.ancestor sound.indexed.wellFormed below.to_reflTransGen) survives.admits
  have known := signed.known step listed member role event.body.actorId admits key
  obtain ⟨appId, signs⟩ := (BTreeMap.mem_iff_getElem? _ _).mp known
  obtain ⟨admitted, kept⟩ := (BTreeMap.mem_iff_getElem? _ _).mp (signed.admitted _ appId signs)
  exact ⟨appId, admitted, signs, kept⟩

/-- The approver of every admission the fold went through is somebody it admitted. -/
theorem Sound.approver_ok (sound : log.Sound) {ordered : List (EventId × IdentityEvent)}
    (listing : log.Ordered ordered) {accumulator : ProjectionAccumulator}
    (signed : accumulator.Signed (operationsOf ordered)) {step : AppliedOperation}
    (member : step ∈ operationsOf ordered) {admission : MemberAdmission}
    (found : step.2.admission step.1.2.body.actorId = some admission) :
    ∃ approver, accumulator.approver admission.admittedBy = .ok approver := by
  apply ProjectionAccumulator.approver_ok
  intro actor admitted
  obtain ⟨listed, operation⟩ := (mem_operationsOf ordered step).mp member
  obtain ⟨applicable, recorded⟩ := (listing.mem_iff step.1.1 step.1.2).mp listed
  obtain ⟨acting, same⟩ := IdentityControlOperation.fromOutside_of_admission found admitted
  rw [same]
  exact sound.signer_known listing signed applicable recorded
    (sound.signedByMember applicable recorded operation acting)

theorem Sound.controlMember_ok (sound : log.Sound) {ordered : List (EventId × IdentityEvent)}
    (listing : log.Ordered ordered) {accumulator : ProjectionAccumulator}
    (records : accumulator.Records (operationsOf ordered))
    (signed : accumulator.Signed (operationsOf ordered)) {appId : AppId}
    {admitted : AdmittedMember} (lookup : accumulator.memberKeys[appId]? = some admitted) :
    ∃ member, accumulator.controlMember admitted = .ok member := by
  obtain ⟨_, step, _, admission, split, found, _, renames, _⟩ :=
    (records.admitted appId admitted lookup).split
  have member : step ∈ operationsOf ordered := by simp [split]
  obtain ⟨approver, approved⟩ := sound.approver_ok listing signed member found
  unfold ProjectionAccumulator.controlMember
  rw [renames.admittedBy, approved]
  exact ⟨_, rfl⟩

/-- What the projection of a log goes through. -/
structure Projects (log : IdentityControlLog) (ordered : List (EventId × IdentityEvent))
    (accumulator : ProjectionAccumulator) (active : BTreeMap AppId EffectiveMember) : Prop where
  sorted : log.orderedApplicableEvents = .ok ordered
  listing : log.Ordered ordered
  folded : ordered.foldlM ProjectionAccumulator.applyEvent .empty = .ok accumulator
  records : accumulator.Records (operationsOf ordered)
  signed : accumulator.Signed (operationsOf ordered)
  members : log.effectiveMembers (Std.ExtTreeSet.ofList (ordered.map Prod.fst) compare) = .ok active
  effective : log.Effective log.causal.Applicable active

theorem Sound.projects (sound : log.Sound) :
    ∃ ordered accumulator active, log.Projects ordered accumulator active := by
  obtain ⟨ordered, sorted, listing⟩ := sound.indexed.orderedApplicableEvents_ok
  obtain ⟨accumulator, folded, records, signed⟩ := ProjectionAccumulator.foldlM_applyEvent_ok ordered
    fun entry listed => sound.enveloped entry.1 entry.2
      ((listing.mem_iff entry.1 entry.2).mp listed).2
  obtain ⟨active, members, effective⟩ := sound.enveloped.effectiveMembers_spec
    (Std.ExtTreeSet.ofList (ordered.map Prod.fst) compare)
  have within : (fun id => id ∈ Std.ExtTreeSet.ofList (ordered.map Prod.fst) compare) =
      log.causal.Applicable := by
    funext id
    rw [Std.ExtTreeSet.mem_ofList, List.contains_iff_mem, listing.extension.mem_iff]
  rw [within] at effective
  exact ⟨ordered, accumulator, active, sorted, listing, folded, records, signed, members, effective⟩

theorem Projects.members_iff {ordered : List (EventId × IdentityEvent)}
    {accumulator : ProjectionAccumulator} {active : BTreeMap AppId EffectiveMember}
    (projects : log.Projects ordered accumulator active) {state : IdentityControlState}
    (projected : IdentityControlState.project log = .ok state) (member : IdentityControlMember) :
    member ∈ state.members ↔ ∃ (appId : AppId) (admitted : AdmittedMember),
      accumulator.memberKeys[appId]? = some admitted ∧ appId ∈ active ∧
        accumulator.controlMember admitted = .ok member := by
  unfold IdentityControlState.project at projected
  rw [projects.sorted] at projected
  obtain ⟨_, same, projected⟩ := bind_eq_ok.mp projected
  cases same
  rw [projects.folded] at projected
  obtain ⟨_, same, projected⟩ := bind_eq_ok.mp projected
  cases same
  obtain ⟨_, _, projected⟩ := bind_eq_ok.mp projected
  rw [projects.members] at projected
  obtain ⟨_, same, projected⟩ := bind_eq_ok.mp projected
  cases same
  obtain ⟨members, mapped, projected⟩ := bind_eq_ok.mp projected
  cases projected
  rw [mem_of_mapM_eq_ok mapped]
  simp only [List.mem_filter, Prod.exists, Std.ExtTreeMap.mem_toList_iff_getElem?_eq_some,
    Std.ExtTreeMap.contains_iff_mem, and_assoc]

theorem Sound.created (sound : log.Sound) {ordered : List (EventId × IdentityEvent)}
    {accumulator : ProjectionAccumulator} {active : BTreeMap AppId EffectiveMember}
    (projects : log.Projects ordered accumulator active) {id : EventId} {event : IdentityEvent}
    (found : log.events[id]? = some event) (root : event.body.isGenesis = true) :
    accumulator.created = true := by
  obtain ⟨founder, operations, _⟩ := (sound.enveloped id event found).genesis root
  rw [projects.records.created, List.any_eq_true]
  refine ⟨((id, event), .identityCreated founder), ?_, rfl⟩
  apply (mem_operationsOf ordered _).mpr
  refine ⟨(projects.listing.mem_iff id event).mpr ⟨sound.genesis_applicable found root, found⟩, ?_⟩
  rw [operations]
  exact List.mem_singleton_self _

theorem Sound.exists_projection (sound : log.Sound) {ordered : List (EventId × IdentityEvent)}
    {accumulator : ProjectionAccumulator} {active : BTreeMap AppId EffectiveMember}
    (projects : log.Projects ordered accumulator active) {id : EventId} {event : IdentityEvent}
    (found : log.events[id]? = some event) (root : event.body.isGenesis = true) :
    ∃ state, IdentityControlState.project log = .ok state := by
  have created := sound.created projects found root
  have mapped : ∃ members, ((accumulator.memberKeys.toList.filter fun entry =>
      active.contains entry.1).mapM fun entry => accumulator.controlMember entry.2) = .ok members :=
    exists_mapM_eq_ok fun entry listed =>
      sound.controlMember_ok projects.listing projects.records projects.signed
        (Std.ExtTreeMap.mem_toList_iff_getElem?_eq_some.mp (List.mem_filter.mp listed).1)
  obtain ⟨members, mapped⟩ := mapped
  unfold IdentityControlState.project
  simp only [projects.sorted, projects.folded, created, projects.members, mapped, ensure, bind,
    Except.bind, pure, Except.pure, if_true]
  exact ⟨_, rfl⟩

/-- A log with a genesis always projects: its events are ordered, every key tuple
they admit has its actor, and every approver they name is an admitted member. -/
theorem project_ok (reachable : log.Reachable) (founded : ∃ (id : EventId) (event : IdentityEvent),
    log.events[id]? = some event ∧ event.body.isGenesis = true) :
    ∃ ordered accumulator state, log.orderedApplicableEvents = .ok ordered ∧
      ordered.foldlM ProjectionAccumulator.applyEvent .empty = .ok accumulator ∧
      (∀ entry ∈ ordered, ∀ operation ∈ entry.2.body.operations, ∀ admission,
        operation.admission entry.2.body.actorId = some admission →
          (∃ actor, admission.member.signingActor = .ok actor) ∧
            ∃ approver, accumulator.approver admission.admittedBy = .ok approver) ∧
      IdentityControlState.project log = .ok state := by
  have sound := reachable.sound
  obtain ⟨genesis, founding, found, root⟩ := founded
  obtain ⟨ordered, accumulator, active, projects⟩ := sound.projects
  obtain ⟨state, projected⟩ := sound.exists_projection projects found root
  refine ⟨ordered, accumulator, state, projects.sorted, projects.folded, ?_, projected⟩
  intro entry listed operation inside admission admitting
  have recorded := ((projects.listing.mem_iff entry.1 entry.2).mp listed).2
  constructor
  · exact (sound.enveloped entry.1 entry.2 recorded).admits operation inside admission.member _
      (IdentityControlOperation.admits_of_admission admitting)
  · exact sound.approver_ok projects.listing projects.signed
      ((mem_operationsOf ordered (entry, operation)).mpr ⟨listed, inside⟩) admitting

end IdentityControlLog

namespace TestSupport

open Nook.EventLog.TestSupport

theorem project_ok_founded : ∃ log, (IdentityControlLog.new identityId).insertAll
      [founded 'g' '1', signed 'a' '1' ['g'] [approve '2'], signed 'b' '3' ['z'] [approve '4']] =
        .ok log ∧ ∃ state, IdentityControlState.project log = .ok state := by
  obtain ⟨log, built, checked⟩ := exists_of_passes
    ((IdentityControlLog.new identityId).insertAll
      [founded 'g' '1', signed 'a' '1' ['g'] [approve '2'], signed 'b' '3' ['z'] [approve '4']])
    (fun log => decide (log.events[eventId 'g']? = some (founded 'g' '1')))
    (by decide +kernel)
  obtain ⟨_, _, state, _, _, _, projected⟩ := IdentityControlLog.project_ok
    ((IdentityControlLog.Reachable.new identityId).insertAll built)
    ⟨eventId 'g', founded 'g' '1', of_decide_eq_true checked, rfl⟩
  exact ⟨log, built, state, projected⟩

end TestSupport

end Nook.IdentityControl
