import Nook.EventLog.GraphOrdering
import Nook.EventLog.GraphRestriction

set_option autoImplicit false

namespace Nook.EventLog

open Nook.Lib Nook.Replication Relation

namespace EventGraph

variable [External] {graph : EventGraph}

/-! ### A settled graph stays as it is -/

theorem quarantinePass_of_retain (changed : Bool) (ids : List EventId)
    (retained : ∀ id ∈ ids, graph.classifyEventQuarantine id = .ok .retain) :
    graph.quarantinePass changed ids = .ok (graph, changed) := by
  induction ids with
  | nil => rfl
  | cons id ids ih =>
    unfold quarantinePass
    rw [retained id (by simp)]
    exact ih fun other member => retained other (by simp [member])

theorem Settled.quarantineRejected_eq (settled : graph.Settled) :
    graph.quarantineRejectedApplicableEvents = .ok graph := by
  have pass : graph.quarantinePass false graph.events.keys = .ok (graph, false) :=
    quarantinePass_of_retain false _ fun id member =>
      settled id (Std.ExtTreeMap.mem_keys.mp member)
  unfold quarantineRejectedApplicableEvents runLoop quarantineRound
  rw [pass]
  rfl

/-! ### Rejections are of recorded events -/

/-- Only recorded events are rejected for themselves. -/
def RootsRecorded (graph : EventGraph) : Prop :=
  ∀ root ∈ graph.causal.quarantineRoots, root ∈ graph.events

omit [External] in
theorem RootsRecorded.quarantine (recorded : graph.RootsRecorded) {id : EventId}
    (known : id ∈ graph.events) (reason : String) :
    RootsRecorded { graph with causal := graph.causal.quarantine id reason } := by
  intro root member
  have entry : id = root ∨ root ∈ graph.causal.quarantineRoots :=
    (mem_mergeQuarantineReason _ _ _ _).mp member
  rcases entry with same | old
  · exact same ▸ known
  · exact recorded root old

theorem RootsRecorded.quarantined {next : EventGraph} (recorded : graph.RootsRecorded)
    (steps : Quarantined graph next) : next.RootsRecorded := by
  induction steps with
  | refl => exact recorded
  | tail _ step ih =>
    cases step with
    | reject verdict => exact ih.quarantine (quarantine_verdict verdict).2 _

omit [External] in
theorem RootsRecorded.recordEvent (recorded : graph.RootsRecorded) (indexed : graph.Indexed)
    {id : EventId} (fresh : graph.events[id]? = none) (event : VaultEvent) :
    (graph.recordEvent id event).RootsRecorded := by
  intro root member
  rw [quarantineRoots_recordEvent indexed fresh] at member
  show root ∈ graph.events.insert id event
  rw [BTreeMap.mem_insert_eq]
  exact Or.inr (recorded root member)

theorem Accepted.rootsRecorded {event : VaultEvent} {next : EventGraph}
    (accepted : Accepted graph event next) (indexed : graph.Indexed)
    (recorded : graph.RootsRecorded) : next.RootsRecorded := by
  cases accepted with
  | recorded _ fresh steps _ => exact (recorded.recordEvent indexed fresh event).quarantined steps
  | duplicate => exact recorded
  | conflict reason _ found _ => exact recorded.quarantine (BTreeMap.mem_of_getElem? found) reason

theorem rootsRecorded_insertAll {expectedStoreId : Str} {final : EventGraph}
    (events : List VaultEvent) (accepted : new.insertAll expectedStoreId events = .ok final) :
    final.RootsRecorded :=
  (insertAll_rule (fun graph => graph.Indexed ∧ graph.RootsRecorded)
    (fun _ holds => holds.1.wellFormed)
    (fun _ _ _ holds step => ⟨step.indexed holds.1, step.rootsRecorded holds.1 holds.2⟩) events
    ⟨indexed_new, by simp [RootsRecorded, new, CausalGraph.new]⟩ accepted).2

/-! ### Appending on applicable parents -/

section Append

variable {id : EventId} {event : VaultEvent}

omit [External] in
theorem events_recordEvent (graph : EventGraph) (id : EventId) (event : VaultEvent) (other : EventId) :
    (graph.recordEvent id event).events[other]? =
      if id = other then some event else graph.events[other]? :=
  BTreeMap.getElem?_insert_eq graph.events id other event

omit [External] in
theorem extends_recordEvent (fresh : graph.events[id]? = none) :
    (graph.recordEvent id event).Extends graph := by
  intro other content found
  rw [events_recordEvent, if_neg]
  · exact found
  · rintro rfl
    rw [fresh] at found
    cases found

omit [External] in
/-- Recording a new event rejects no event whose past is recorded. -/
theorem applicable_recordEvent (indexed : graph.Indexed) (fresh : graph.events[id]? = none)
    {other : EventId} (applicable : graph.causal.Applicable other) :
    (graph.recordEvent id event).causal.Applicable other := by
  have nextIndexed := indexed.recordEvent fresh event
  have larger : (graph.recordEvent id event).Extends graph := extends_recordEvent fresh
  have down : ∀ ancestor, (graph.recordEvent id event).causal.AncestorOrSelf ancestor other →
      graph.causal.AncestorOrSelf ancestor other := fun ancestor path =>
    ancestorOrSelf_of_extends indexed nextIndexed larger applicable.1 path
  refine ⟨fun ancestor path => ?_, fun rejected => ?_⟩
  · have known := (indexed.known_iff ancestor).mp (applicable.1 ancestor (down ancestor path))
    obtain ⟨content, found⟩ := (BTreeMap.mem_iff_getElem? _ _).mp known
    rw [nextIndexed.known_iff]
    exact BTreeMap.mem_of_getElem? (larger ancestor content found)
  · obtain ⟨root, cause, path⟩ := (nextIndexed.wellFormed.quarantined_iff other).mp rejected
    have rootPresent := applicable.1.ancestor (down root path)
    refine applicable.2 ((indexed.wellFormed.quarantined_iff other).mpr ⟨root, ?_, down root path⟩)
    rcases cause with rooted | cyclic
    · rw [quarantineRoots_recordEvent indexed fresh] at rooted
      exact Or.inl rooted
    · rw [nextIndexed.wellFormed.cyclic_iff] at cyclic
      exact Or.inr ((indexed.wellFormed.cyclic_iff root).mpr
        ((cyclic_iff_of_extends nextIndexed indexed larger rootPresent).mpr cyclic))

omit [External] in
/-- A new event on applicable parents is applicable before any verdict on it. -/
theorem applicable_recorded (indexed : graph.Indexed) (rootsRecorded : graph.RootsRecorded)
    (fresh : graph.events[id]? = none)
    (parents : ∀ parent ∈ event.body.parents, graph.causal.Applicable parent) :
    (graph.recordEvent id event).causal.Applicable id := by
  have nextIndexed := indexed.recordEvent fresh event
  have larger : (graph.recordEvent id event).Extends graph := extends_recordEvent fresh
  have recorded : (graph.recordEvent id event).events[id]? = some event := by
    rw [events_recordEvent, if_pos rfl]
  have parent_of_edge : ∀ parent, (graph.recordEvent id event).causal.Edge parent id →
      graph.causal.Applicable parent := by
    intro parent edge
    rw [nextIndexed.edge_iff, bodyParents_of_get recorded] at edge
    exact parents parent edge
  refine ⟨fun ancestor path => ?_, fun rejected => ?_⟩
  · rcases CausalGraph.ancestorOrSelf_cases path with same | ⟨parent, edge, path⟩
    · subst same
      rw [nextIndexed.known_iff]
      exact BTreeMap.mem_of_getElem? recorded
    · exact (applicable_recordEvent indexed fresh (parent_of_edge parent edge)).1 ancestor path
  · obtain ⟨root, cause, path⟩ := (nextIndexed.wellFormed.quarantined_iff id).mp rejected
    rcases CausalGraph.ancestorOrSelf_cases path with same | ⟨parent, edge, path⟩
    · subst same
      rcases cause with rooted | cyclic
      · rw [quarantineRoots_recordEvent indexed fresh] at rooted
        exact (BTreeMap.not_mem_iff_getElem? _ _).mpr fresh (rootsRecorded root rooted)
      · rw [nextIndexed.wellFormed.cyclic_iff] at cyclic
        obtain ⟨parent, before, edge⟩ := TransGen.tail'_iff.mp cyclic
        have parentApplicable := parent_of_edge parent edge
        have old := ancestorOrSelf_of_extends indexed nextIndexed larger parentApplicable.1 before
        have known := (indexed.known_iff root).mp (parentApplicable.1 root old)
        exact (BTreeMap.not_mem_iff_getElem? _ _).mpr fresh known
    · have parentApplicable : (graph.recordEvent id event).causal.Applicable parent :=
        applicable_recordEvent indexed fresh (parent_of_edge parent edge)
      exact parentApplicable.2
        ((nextIndexed.wellFormed.quarantined_iff parent).mpr ⟨root, cause, path⟩)

/-- Nothing pending, a new retained event on applicable parents leaves the graph settled. -/
theorem Settled.recordEvent (indexed : graph.Indexed) (settled : graph.Settled)
    (unpending : graph.causal.pendingIds = []) (fresh : graph.events[id]? = none)
    (parents : ∀ parent ∈ event.body.parents, graph.causal.Applicable parent)
    (retained : graph.classifyEvent event = .ok .retain) : (graph.recordEvent id event).Settled := by
  have nextIndexed := indexed.recordEvent fresh event
  have larger : (graph.recordEvent id event).Extends graph := extends_recordEvent fresh
  rw [nextIndexed.settled_iff]
  intro other content applicable found
  by_cases same : id = other
  · rw [events_recordEvent, if_pos same] at found
    cases found
    have past : graph.SamePast (graph.recordEvent id event) event.body.parents := by
      intro ancestor member
      obtain ⟨parent, inside, path⟩ := (indexed.mem_pastOrder _ _).mp member
      have known := (indexed.known_iff ancestor).mp ((parents parent inside).1 ancestor path)
      obtain ⟨older, olderFound⟩ := (BTreeMap.mem_iff_getElem? _ _).mp known
      rw [olderFound, larger ancestor older olderFound]
    rw [← past.classifyEvent_eq]
    exact retained
  · rw [events_recordEvent, if_neg same] at found
    have known := (indexed.known_iff other).mpr (BTreeMap.mem_of_getElem? found)
    have kept : other ∉ graph.causal.quarantined := by
      intro rejected
      obtain ⟨root, cause, path⟩ := (indexed.wellFormed.quarantined_iff other).mp rejected
      refine applicable.2 ((nextIndexed.wellFormed.quarantined_iff other).mpr ⟨root, ?_,
        ancestorOrSelf_extend nextIndexed indexed larger path⟩)
      rcases cause with rooted | cyclic
      · rw [← quarantineRoots_recordEvent indexed fresh event] at rooted
        exact Or.inl rooted
      · rw [indexed.wellFormed.cyclic_iff] at cyclic
        exact Or.inr ((nextIndexed.wellFormed.cyclic_iff root).mpr
          (TransGen.mono (edge_extend nextIndexed indexed larger) _ _ cyclic))
    have before := CausalGraph.applicable_of_kept unpending known kept
    rw [← (samePast_of_extends indexed larger before.1 found).classifyEvent_eq]
    exact indexed.settled_iff.mp settled other content before found

/-- A valid event without a checkpoint by an actor authorized below it is retained. -/
theorem classifyEvent_of_authorized {storeId : StoreId}
    (valid : event.validateEnvelope storeId = .ok id)
    (ordinary : event.body.operations.any VaultOperation.isEpochCheckpoint = false)
    {actors : BTreeSet AuthKeyId} (collected : graph.authorizedActorsBefore event = .ok actors)
    (member : event.body.actorId ∈ actors) : graph.classifyEvent event = .ok .retain := by
  have unchecked : graph.validateEpochCheckpointStructure event = .ok () := by
    have none : event.body.operations.countP VaultOperation.isEpochCheckpoint = 0 := by
      rw [List.countP_eq_zero]
      simpa using ordinary
    unfold validateEpochCheckpointStructure VaultEventBody.epochCheckpointRequirement
    rw [none]
    rfl
  have authorized : graph.validateEventActorAuthorized event = .ok () := by
    obtain ⟨own, signed⟩ : ∃ own, graph.isSelfSignedMembershipEvent event = .ok own :=
      isSelfSignedMembershipEvent_ok valid
    unfold validateEventActorAuthorized
    rw [signed, collected]
    by_cases root : event.body.parents.isEmpty
    · rw [if_pos root]
      rfl
    · rw [if_neg root]
      cases own with
      | true => rfl
      | false => exact (ensure_eq_ok _ _).mpr (Std.ExtTreeSet.contains_iff_mem.mpr member)
  unfold classifyEvent classifyEventActorQuarantine
  rw [unchecked, authorized]

/-- Nothing pending, a new retained event on applicable parents is applied. -/
theorem insert_applied {expectedStoreId : Str} {storeId : StoreId} (indexed : graph.Indexed)
    (settled : graph.Settled) (rootsRecorded : graph.RootsRecorded)
    (unpending : graph.causal.pendingIds = [])
    (parsed : StoreId.parse expectedStoreId = .ok storeId)
    (valid : event.validateEnvelope storeId = .ok id) (fresh : graph.events[id]? = none)
    (parents : ∀ parent ∈ event.body.parents, graph.causal.Applicable parent)
    (retained : graph.classifyEvent event = .ok .retain) :
    ∃ insertion, graph.insert event expectedStoreId = .ok insertion ∧
      insertion.status = .applied := by
  have admitted : graph.admission event expectedStoreId = .ok (.insert id) := by
    unfold admission
    rw [parsed, Except.mapError]
    simp only [bind, Except.bind, valid, fresh]
    rfl
  have applicable := applicable_recorded indexed rootsRecorded fresh parents
  have nextSettled := settled.recordEvent indexed unpending fresh parents retained
  have unrejected : (graph.recordEvent id event).causal.quarantined[id]? = none :=
    (BTreeMap.not_mem_iff_getElem? _ _).mp applicable.2
  unfold insert
  rw [admitted]
  dsimp only
  rw [nextSettled.quarantineRejected_eq]
  refine ⟨_, rfl, ?_⟩
  unfold insertStatus
  dsimp only
  rw [unrejected]
  dsimp only
  rw [CausalGraph.insert_status_applied id event.body.parents (indexed.fresh fresh) applicable]

end Append

/-! ### What the heads promise -/

/-- The heads are applicable, cover the applicable events, and carry an append. -/
structure HeadsVisible (graph : EventGraph) (expectedStoreId : Str) : Prop where
  applicable : ∀ head ∈ graph.heads, graph.causal.Applicable head
  covered : ∀ id, graph.causal.Applicable id → ∃ head ∈ graph.heads, graph.isAncestor id head = true
  append_applied : ∀ storeId event id, StoreId.parse expectedStoreId = .ok storeId →
    event.validateEnvelope storeId = .ok id → graph.events[id]? = none →
    (∀ parent, parent ∈ event.body.parents ↔ parent ∈ graph.heads) →
    event.body.operations.any VaultOperation.isEpochCheckpoint = false →
    (∃ actors, graph.authorizedActorsBefore event = .ok actors ∧ event.body.actorId ∈ actors) →
    ∃ insertion, graph.insert event expectedStoreId = .ok insertion ∧ insertion.status = .applied

omit [External] in
theorem pendingEvents_eq_nil_iff (indexed : graph.Indexed) :
    graph.pendingEvents = [] ↔ graph.causal.pendingIds = [] := by
  unfold pendingEvents
  rw [List.filterMap_eq_nil_iff, List.eq_nil_iff_forall_not_mem]
  refine forall_congr' fun id => ?_
  constructor
  · intro none pending
    have known := (indexed.known_iff id).mp ((CausalGraph.mem_pendingIds id).mp pending).1
    obtain ⟨event, found⟩ := (BTreeMap.mem_iff_getElem? _ _).mp known
    have absent := none pending
    rw [found] at absent
    cases absent
  · exact fun absent pending => absurd pending absent

/-- The heads of a graph built by insertions keep their promises exactly when no event of
it is pending. -/
theorem headsVisible_iff (expectedStoreId : Str) (events : List VaultEvent) (graph : EventGraph)
    (built : new.insertAll expectedStoreId events = .ok graph) :
    graph.HeadsVisible expectedStoreId ↔ graph.pendingEvents = [] := by
  obtain ⟨indexed, settled⟩ := settled_insertAll events built
  have rootsRecorded := rootsRecorded_insertAll events built
  rw [pendingEvents_eq_nil_iff indexed]
  have visible := CausalGraph.heads_applicable_iff indexed.wellFormed
  constructor
  · exact fun promised => visible.mp promised.applicable
  · intro unpending
    have applicable := visible.mpr unpending
    refine ⟨applicable, fun id reached => ?_, ?_⟩
    · obtain ⟨head, member, path⟩ := CausalGraph.exists_head indexed.wellFormed reached
      exact ⟨head, member, (CausalGraph.isAncestor_iff _ _).mpr path⟩
    · rintro storeId event id parsed valid fresh parents ordinary ⟨actors, collected, member⟩
      exact insert_applied indexed settled rootsRecorded unpending parsed valid fresh
        (fun parent inside => applicable parent ((parents parent).mp inside))
        (classifyEvent_of_authorized valid ordinary collected member)

end EventGraph

namespace TestSupport

theorem headsVisible_iff_forkedEvents :
    ∃ graph : EventGraph, EventGraph.new.insertAll storeName forkedEvents = .ok graph ∧
      (graph.HeadsVisible storeName ↔ graph.pendingEvents = []) := by
  obtain ⟨graph, built⟩ := exists_of_isOk (show
    (EventGraph.new.insertAll storeName forkedEvents).isOk = true from by decide +kernel)
  exact ⟨graph, built, EventGraph.headsVisible_iff storeName forkedEvents graph built⟩

/-- A genesis and an event that also names a parent nobody has delivered. -/
def earlyEvents : List VaultEvent :=
  [genesis 'g' '1',
    signed 'p' '1' [eventId 'g', eventId 'x'] (eventId 'g') [.vaultCleared]]

/-- The pending event is the only head: what is appended on the heads is pending too. -/
theorem pending_head_hides_genesis :
    ∃ graph insertion, EventGraph.new.insertAll storeName earlyEvents = .ok graph ∧
      graph.causal.applicableIds = [eventId 'g'] ∧ graph.heads = [eventId 'p'] ∧
      graph.insert (signed 'n' '1' graph.heads (eventId 'g') [.vaultCleared]) storeName =
        .ok insertion ∧
      insertion.status = .pending [] ∧ ¬graph.HeadsVisible storeName := by
  obtain ⟨graph, built, checked⟩ := exists_of_passes
    (EventGraph.new.insertAll storeName earlyEvents)
    (fun graph => decide (graph.causal.applicableIds = [eventId 'g']) &&
      decide (graph.heads = [eventId 'p']) &&
      passes (graph.insert (signed 'n' '1' graph.heads (eventId 'g') [.vaultCleared]) storeName)
        fun insertion => decide (insertion.status = .pending [])) (by decide +kernel)
  rw [Bool.and_eq_true, Bool.and_eq_true, decide_eq_true_iff, decide_eq_true_iff] at checked
  obtain ⟨⟨applicable, heads⟩, appended⟩ := checked
  obtain ⟨insertion, inserted, pending⟩ := exists_of_passes _ _ appended
  refine ⟨graph, insertion, built, applicable, heads, inserted, of_decide_eq_true pending, ?_⟩
  intro visible
  have reached := visible.applicable (eventId 'p') (by simp [heads])
  rw [← CausalGraph.mem_applicableIds, applicable] at reached
  exact absurd reached (by decide)

end TestSupport

end Nook.EventLog
