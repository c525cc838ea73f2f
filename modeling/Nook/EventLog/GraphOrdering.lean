import Nook.EventLog.GraphConfluence

set_option autoImplicit false

namespace Nook.EventLog

open Nook.Lib Nook.Replication Relation

namespace EventGraph

variable [External] {graph : EventGraph}

/-! ### Accepted insertions leave a settled graph -/

/-- A further rejection leaves nothing new to reject. -/
theorem Settled.quarantine (indexed : graph.Indexed) (settled : graph.Settled) (id : EventId)
    (reason : String) : Settled { graph with causal := graph.causal.quarantine id reason } := by
  rw [(indexed.quarantine id reason).settled_iff]
  intro other event applicable found
  have past : SamePast { graph with causal := graph.causal.quarantine id reason } graph
      event.body.parents := fun _ _ => rfl
  have before : graph.causal.Applicable other := by
    refine ⟨applicable.1, fun rejected => applicable.2 ?_⟩
    exact (mem_quarantined_quarantine indexed.wellFormed id other reason).mpr (Or.inr rejected)
  rw [past.classifyEvent_eq]
  exact indexed.settled_iff.mp settled other event before found

/-- What holds of the empty graph and survives accepted insertions holds after a run of them. -/
theorem insertAll_rule (Inv : EventGraph → Prop)
    (wellFormed : ∀ graph, Inv graph → graph.causal.WellFormed)
    (step : ∀ graph next event, Inv graph → Accepted graph event next → Inv next)
    {expectedStoreId : Str} {final : EventGraph} (events : List VaultEvent) (holds : Inv graph)
    (accepted : graph.insertAll expectedStoreId events = .ok final) : Inv final := by
  induction events generalizing graph with
  | nil =>
    cases accepted
    exact holds
  | cons head tail ih =>
    obtain ⟨middle, first, rest⟩ := bind_eq_ok.mp accepted
    obtain ⟨insertion, inserted, same⟩ := bind_eq_ok.mp first
    cases same
    exact ih (step graph _ head holds (accepted_insert (wellFormed graph holds) inserted)) rest

theorem Accepted.indexed {event : VaultEvent} {next : EventGraph}
    (accepted : Accepted graph event next) (indexed : graph.Indexed) : next.Indexed := by
  cases accepted with
  | recorded _ fresh steps _ => exact steps.indexed (indexed.recordEvent fresh event)
  | duplicate => exact indexed
  | conflict reason _ _ _ => exact indexed.quarantine _ reason

theorem Accepted.settled {event : VaultEvent} {next : EventGraph}
    (accepted : Accepted graph event next) (indexed : graph.Indexed) (settled : graph.Settled) :
    next.Settled := by
  cases accepted with
  | recorded _ _ _ nextSettled => exact nextSettled
  | duplicate => exact settled
  | conflict reason _ _ _ => exact settled.quarantine indexed _ reason

theorem settled_insertAll {expectedStoreId : Str} {final : EventGraph} (events : List VaultEvent)
    (accepted : new.insertAll expectedStoreId events = .ok final) :
    final.Indexed ∧ final.Settled :=
  insertAll_rule (fun graph => graph.Indexed ∧ graph.Settled) (fun _ holds => holds.1.wellFormed)
    (fun _ _ _ holds step => ⟨step.indexed holds.1, step.settled holds.1 holds.2⟩) events
    ⟨indexed_new, judged_new.settled⟩ accepted

/-! ### Ordering a settled graph -/

omit [External] in
/-- A structural check on an event with a recorded past fails on the structure only. -/
theorem validateEpochCheckpointStructure_cases {event : VaultEvent}
    (recorded : ∀ parent ∈ event.body.parents, parent ∈ graph.events) :
    graph.validateEpochCheckpointStructure event = .ok () ∨
      ∃ reason, graph.validateEpochCheckpointStructure event =
        .error (.invalidEpochCheckpointStructure reason) := by
  unfold validateEpochCheckpointStructure
  cases required : event.body.epochCheckpointRequirement with
  | error cause =>
    unfold VaultEventBody.epochCheckpointRequirement at required
    dsimp only at required
    split at required
    · cases required
    split at required
    · cases required
      exact Or.inr ⟨_, rfl⟩
    split at required
    · split at required
      · cases required
        exact Or.inr ⟨_, rfl⟩
      · cases required
    · cases required
      exact Or.inr ⟨_, rfl⟩
  | ok requirement =>
    cases requirement with
    | notRequired => exact Or.inl rfl
    | securityRotationParent parent =>
      have known := recorded parent (by simp [(securityRotationParent_mem required).1])
      obtain ⟨content, found⟩ := (BTreeMap.mem_iff_getElem? _ _).mp known
      simp only [bind, Except.bind, found]
      cases content.body.securityRotationTrigger with
      | deviceRevoked => exact Or.inl rfl
      | other => exact Or.inr ⟨_, rfl⟩

/-- Both checks of an applicable event of a settled graph pass. -/
theorem Settled.validated (indexed : graph.Indexed) (settled : graph.Settled) {id : EventId}
    (applicable : graph.causal.Applicable id) {event : VaultEvent}
    (found : graph.events[id]? = some event) :
    graph.validateEpochCheckpointStructure event = .ok () ∧
      graph.validateEventActorAuthorized event = .ok () := by
  have verdict := settled id (BTreeMap.mem_of_getElem? found)
  have retained := indexed.retain_verdict verdict applicable found
  have recorded : ∀ parent ∈ event.body.parents, parent ∈ graph.events := by
    intro parent member
    rw [← indexed.known_iff]
    refine applicable.1 parent (.single ?_)
    rwa [indexed.edge_iff, bodyParents_of_get found]
  unfold classifyEvent at retained
  rcases validateEpochCheckpointStructure_cases recorded with valid | ⟨reason, invalid⟩
  · refine ⟨valid, ?_⟩
    rw [valid] at retained
    unfold classifyEventActorQuarantine at retained
    dsimp only at retained
    split at retained
    · assumption
    · cases retained
    · cases retained
  · rw [invalid] at retained
    cases retained

/-- How many applicable events have no parents. -/
def rootCount (graph : EventGraph) : Nat :=
  graph.applicableEvents.countP fun event => event.body.parents.isEmpty

/-- Of a settled graph the validation checks nothing but the number of roots. -/
theorem Settled.validateAuthorizations_eq (indexed : graph.Indexed) (settled : graph.Settled) :
    graph.validateAuthorizations = ensure (graph.rootCount ≤ 1) .multipleGenesisRoots := by
  have checks : (graph.applicableEvents.forM fun event => do
      graph.validateEpochCheckpointStructure event
      graph.validateEventActorAuthorized event) = .ok () := by
    refine forM_eq_ok.mpr fun event member => ?_
    unfold applicableEvents at member
    obtain ⟨id, applicable, found⟩ := List.mem_filterMap.mp member
    obtain ⟨structured, authorized⟩ := settled.validated indexed
      ((CausalGraph.mem_applicableIds id).mp applicable) found
    exact bind_eq_ok.mpr ⟨(), structured, authorized⟩
  unfold validateAuthorizations
  dsimp only
  rw [checks]
  unfold rootCount ensure
  split <;> rfl

theorem Settled.topologicalOrder_ok_iff (indexed : graph.Indexed) (settled : graph.Settled) :
    (∃ order, graph.topologicalOrder = .ok order) ↔ graph.rootCount ≤ 1 := by
  obtain ⟨order, ordered, _⟩ := CausalGraph.topologicalOrder_extension indexed.wellFormed
  unfold topologicalOrder
  rw [settled.validateAuthorizations_eq indexed, ordered]
  by_cases single : graph.rootCount ≤ 1
  · refine iff_of_true ⟨order, ?_⟩ single
    simp [ensure, single]
  · refine iff_of_false ?_ single
    rintro ⟨found, passed⟩
    simp [ensure, single] at passed

theorem Settled.topologicalOrder_error (indexed : graph.Indexed) (settled : graph.Settled)
    (several : ¬graph.rootCount ≤ 1) :
    graph.topologicalOrder = .error .multipleGenesisRoots := by
  unfold topologicalOrder
  rw [settled.validateAuthorizations_eq indexed]
  simp [ensure, several]
  rfl

end EventGraph

end Nook.EventLog
