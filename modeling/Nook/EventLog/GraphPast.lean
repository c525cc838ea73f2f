import Nook.EventLog.Graph
import Nook.Lib.Except
import Nook.Replication.CausalGraphQuarantine

set_option autoImplicit false

namespace Nook.EventLog

open Nook.Lib Nook.Replication Relation

namespace EventGraph

variable {graph other : EventGraph}

/-- The causal index holds exactly the recorded events with their parents. -/
structure Indexed (graph : EventGraph) : Prop where
  wellFormed : graph.causal.WellFormed
  parents_eq : ∀ id : EventId, graph.causal.parents[id]? =
    (graph.events[id]?).map fun event => normalizeParents event.body.parents

theorem Indexed.known_iff (indexed : graph.Indexed) (id : EventId) :
    id ∈ graph.causal.parents ↔ id ∈ graph.events := by
  rw [BTreeMap.mem_iff_getElem?, BTreeMap.mem_iff_getElem?]
  simp only [indexed.parents_eq, Option.map_eq_some_iff]
  constructor
  · rintro ⟨_, event, found, _⟩
    exact ⟨event, found⟩
  · rintro ⟨event, found⟩
    exact ⟨_, event, found, rfl⟩

theorem Indexed.edge_iff (indexed : graph.Indexed) (parent child : EventId) :
    graph.causal.Edge parent child ↔ parent ∈ graph.bodyParents child := by
  unfold CausalGraph.Edge CausalGraph.parentsOf bodyParents
  rw [indexed.parents_eq]
  cases graph.events[child]? with
  | none => simp
  | some event => simp [mem_normalizeParents]

theorem bodyParents_of_get {id : EventId} {event : VaultEvent} (found : graph.events[id]? = some event) :
    graph.bodyParents id = event.body.parents := by
  simp only [bodyParents, found]

theorem visits_pastOrder (graph : EventGraph) (parents : List EventId) :
    Visits graph.bodyParents parents.reverse [] (graph.pastOrder parents) := by
  apply visitFrom_visits graph.bodyParents graph.events.keys Std.ExtTreeMap.nodup_keys
  · intro id absent
    rw [Std.ExtTreeMap.mem_keys, BTreeMap.not_mem_iff_getElem?] at absent
    simp only [bodyParents, absent]
  · simp [pendingPushes, bodyParentCount]

/-- A walk sees the ancestors of the parents it starts from, and themselves. -/
theorem Indexed.mem_pastOrder (indexed : graph.Indexed) (parents : List EventId) (id : EventId) :
    id ∈ graph.pastOrder parents ↔
      ∃ parent ∈ parents, graph.causal.AncestorOrSelf id parent := by
  rw [(graph.visits_pastOrder parents).mem_iff]
  have edges : (fun child parent => parent ∈ graph.bodyParents child) =
      Function.swap graph.causal.Edge := by
    funext child parent
    exact propext (indexed.edge_iff parent child).symm
  rw [edges]
  have swap : ∀ start, ReflTransGen (Function.swap graph.causal.Edge) start id ↔
      graph.causal.AncestorOrSelf id start := fun start => reflTransGen_swap
  simp only [List.mem_reverse, swap]

theorem mem_pastOrder_of_parent (graph : EventGraph) {parents : List EventId} {parent : EventId}
    (member : parent ∈ parents) : parent ∈ graph.pastOrder parents := by
  rcases (graph.visits_pastOrder parents).covers_stack (List.mem_reverse.mpr member) with seen | found
  · cases seen
  · exact found

/-! ### Verdicts depend on the causal past only -/

/-- The other graph records the same events in the causal past below `parents`. -/
def SamePast (graph other : EventGraph) (parents : List EventId) : Prop :=
  ∀ id ∈ graph.pastOrder parents, graph.events[id]? = other.events[id]?

theorem SamePast.pastOrder_eq {parents : List EventId} (same : graph.SamePast other parents) :
    graph.pastOrder parents = other.pastOrder parents := by
  have moved := (graph.visits_pastOrder parents).congr fun id member => by
    show graph.bodyParents id = other.bodyParents id
    simp only [bodyParents, same id member]
  exact moved.unique (other.visits_pastOrder parents)

/-- A required rotation parent is one of the event's own parents. -/
theorem securityRotationParent_mem {body : VaultEventBody} {parent : EventId}
    (required : body.epochCheckpointRequirement = .ok (.securityRotationParent parent)) :
    body.parents = [parent] ∧ body.keyEpoch = parent := by
  unfold VaultEventBody.epochCheckpointRequirement at required
  dsimp only at required
  split at required
  · cases required
  split at required
  · cases required
  split at required
  · rename_i only parents
    split at required
    · cases required
    · rename_i committed
      injection required with required
      injection required with required
      subst required
      exact ⟨parents, Classical.not_not.mp committed⟩
  · cases required

theorem SamePast.ancestryHasSentinelArchitectureEvidence_eq {event : VaultEvent}
    (same : graph.SamePast other event.body.parents) :
    graph.ancestryHasSentinelArchitectureEvidence event =
      other.ancestryHasSentinelArchitectureEvidence event := by
  unfold ancestryHasSentinelArchitectureEvidence
  rw [← same.pastOrder_eq, Bool.eq_iff_iff, List.any_eq_true, List.any_eq_true]
  apply exists_congr
  intro id
  apply and_congr_right
  intro member
  rw [same id member]

theorem SamePast.validateEpochCheckpointStructure_eq {event : VaultEvent}
    (same : graph.SamePast other event.body.parents) :
    graph.validateEpochCheckpointStructure event =
      other.validateEpochCheckpointStructure event := by
  unfold validateEpochCheckpointStructure
  cases required : event.body.epochCheckpointRequirement with
  | error => rfl
  | ok requirement =>
    cases requirement with
    | notRequired => rfl
    | securityRotationParent parent =>
      have member : parent ∈ event.body.parents := by
        simp [(securityRotationParent_mem required).1]
      dsimp only [bind, Except.bind]
      rw [same parent (graph.mem_pastOrder_of_parent member)]

variable [External]

theorem SamePast.authorizedActorsBefore_eq {event : VaultEvent}
    (same : graph.SamePast other event.body.parents) :
    graph.authorizedActorsBefore event = other.authorizedActorsBefore event := by
  unfold authorizedActorsBefore
  rw [← same.pastOrder_eq]
  congr 1
  apply foldlM_congr_mem
  intro id member scan
  unfold scanRecorded
  rw [same id member]

theorem SamePast.validateEventActorAuthorized_eq {event : VaultEvent}
    (same : graph.SamePast other event.body.parents) :
    graph.validateEventActorAuthorized event = other.validateEventActorAuthorized event := by
  unfold validateEventActorAuthorized isSelfSignedMembershipEvent
  rw [same.authorizedActorsBefore_eq, same.ancestryHasSentinelArchitectureEvidence_eq]

theorem SamePast.classifyEvent_eq {event : VaultEvent}
    (same : graph.SamePast other event.body.parents) :
    graph.classifyEvent event = other.classifyEvent event := by
  unfold classifyEvent classifyEventActorQuarantine
  rw [same.validateEpochCheckpointStructure_eq, same.validateEventActorAuthorized_eq]

end EventGraph

end Nook.EventLog
