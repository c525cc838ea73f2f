import Nook.EventLog.GraphConfluence
import Nook.EventLog.LocalEventStore
import Nook.Lib.Obligation

set_option autoImplicit false

namespace Nook.EventLog

open Nook.Lib Nook.Replication Relation

namespace EventGraph

variable [External] {graph part : EventGraph}

/-- The part records some of the events of the graph. -/
def Extends (graph part : EventGraph) : Prop :=
  ∀ (id : EventId) (event : VaultEvent), part.events[id]? = some event →
    graph.events[id]? = some event

omit [External] in
theorem edge_iff_of_extends (indexed : graph.Indexed) (partIndexed : part.Indexed)
    (larger : graph.Extends part) {child : EventId} (recorded : child ∈ part.events)
    (parent : EventId) : part.causal.Edge parent child ↔ graph.causal.Edge parent child := by
  obtain ⟨event, found⟩ := (BTreeMap.mem_iff_getElem? _ _).mp recorded
  rw [partIndexed.edge_iff, bodyParents_of_get found, indexed.edge_iff,
    bodyParents_of_get (larger child event found)]

omit [External] in
theorem edge_extend (indexed : graph.Indexed) (partIndexed : part.Indexed)
    (larger : graph.Extends part) (parent child : EventId) (edge : part.causal.Edge parent child) :
    graph.causal.Edge parent child :=
  (edge_iff_of_extends indexed partIndexed larger
    ((partIndexed.known_iff child).mp edge.known) parent).mp edge

omit [External] in
theorem ancestorOrSelf_extend (indexed : graph.Indexed) (partIndexed : part.Indexed)
    (larger : graph.Extends part) {ancestor id : EventId}
    (path : part.causal.AncestorOrSelf ancestor id) : graph.causal.AncestorOrSelf ancestor id :=
  ReflTransGen.mono (edge_extend indexed partIndexed larger) _ _ path

omit [External] in
/-- A cycle through an event whose past the part records lies in the part. -/
theorem cyclic_iff_of_extends (indexed : graph.Indexed) (partIndexed : part.Indexed)
    (larger : graph.Extends part) {id : EventId} (present : part.causal.Present id) :
    part.causal.Ancestor id id ↔ graph.causal.Ancestor id id := by
  constructor
  · exact fun cyclic => TransGen.mono (edge_extend indexed partIndexed larger) _ _ cyclic
  · intro cyclic
    obtain ⟨middle, before, edge⟩ := TransGen.tail'_iff.mp cyclic
    have step : part.causal.Edge middle id :=
      (edge_iff_of_extends indexed partIndexed larger
        ((partIndexed.known_iff id).mp present.known) middle).mpr edge
    exact TransGen.tail' (ancestorOrSelf_of_extends partIndexed indexed larger
      (present.ancestor (.single step)) before) step

omit [External] in
/-- Whether the past of an event is all recorded in the part shows in the graph. -/
theorem present_iff_of_extends (indexed : graph.Indexed) (partIndexed : part.Indexed)
    (larger : graph.Extends part) (id : EventId) :
    part.causal.Present id ↔
      ∀ ancestor, graph.causal.AncestorOrSelf ancestor id → ancestor ∈ part.events := by
  constructor
  · intro present ancestor path
    rw [← partIndexed.known_iff]
    exact present ancestor (ancestorOrSelf_of_extends partIndexed indexed larger present path)
  · intro recorded ancestor path
    rw [partIndexed.known_iff]
    exact recorded ancestor (ancestorOrSelf_extend indexed partIndexed larger path)

omit [External] in
theorem samePast_of_extends (partIndexed : part.Indexed) (larger : graph.Extends part) {id : EventId} (present : part.causal.Present id)
    {event : VaultEvent} (found : part.events[id]? = some event) :
    part.SamePast graph event.body.parents := by
  intro ancestor member
  obtain ⟨parent, inside, path⟩ := (partIndexed.mem_pastOrder _ _).mp member
  have edge : part.causal.Edge parent id := by
    rwa [partIndexed.edge_iff, bodyParents_of_get found]
  obtain ⟨older, olderFound⟩ := (BTreeMap.mem_iff_getElem? _ _).mp
    ((partIndexed.known_iff ancestor).mp (present ancestor (path.tail edge)))
  rw [olderFound, larger ancestor older olderFound]

/-- Of an event whose past the part records, the part and the graph have one verdict. -/
theorem refused_iff_of_extends (indexed : graph.Indexed) (partIndexed : part.Indexed)
    (larger : graph.Extends part) {id : EventId} (present : part.causal.Present id) :
    part.Refused id ↔ graph.Refused id := by
  constructor
  · exact fun refused => refused.extend partIndexed indexed larger
  · rintro ⟨_, event, reason, found, verdict⟩
    obtain ⟨own, ownFound⟩ := (BTreeMap.mem_iff_getElem? _ _).mp
      ((partIndexed.known_iff id).mp present.known)
    have same : own = event := by
      have := larger id own ownFound
      rw [found] at this
      exact (Option.some.inj this).symm
    subst same
    refine ⟨present, own, reason, ownFound, ?_⟩
    have past := samePast_of_extends partIndexed larger present ownFound
    rw [past.classifyEvent_eq]
    exact verdict

theorem Judged.recorded_of_quarantined (judged : graph.Judged) {id : EventId}
    (rejected : id ∈ graph.quarantined) : id ∈ graph.events := by
  obtain ⟨root, cause, path⟩ := (judged.quarantined_iff id).mp rejected
  rw [← judged.indexed.known_iff]
  rcases CausalGraph.ancestorOrSelf_cases path with same | ⟨parent, edge, _⟩
  · subst same
    rcases cause with refused | cyclic
    · exact refused.1.known
    · obtain ⟨parent, _, edge⟩ := TransGen.tail'_iff.mp cyclic
      exact CausalGraph.Edge.known edge
  · exact CausalGraph.Edge.known edge

/-- What the part rejects, the graph rejects. -/
theorem Judged.quarantined_of_extends (judged : graph.Judged) (partJudged : part.Judged)
    (larger : graph.Extends part) {id : EventId} (rejected : id ∈ part.quarantined) :
    id ∈ graph.quarantined := by
  obtain ⟨root, cause, path⟩ := (partJudged.quarantined_iff id).mp rejected
  refine (judged.quarantined_iff id).mpr ⟨root, ?_,
    ancestorOrSelf_extend judged.indexed partJudged.indexed larger path⟩
  rcases cause with refused | cyclic
  · exact Or.inl (refused.extend partJudged.indexed judged.indexed larger)
  · exact Or.inr (TransGen.mono (edge_extend judged.indexed partJudged.indexed larger) _ _ cyclic)

/-- Exactly the applicable events whose past the part records are applicable in it. -/
theorem Judged.applicable_iff_of_extends (judged : graph.Judged) (partJudged : part.Judged)
    (larger : graph.Extends part) (id : EventId) :
    part.causal.Applicable id ↔ graph.causal.Applicable id ∧
      ∀ ancestor, graph.causal.AncestorOrSelf ancestor id → ancestor ∈ part.events := by
  have presence := present_iff_of_extends judged.indexed partJudged.indexed larger id
  constructor
  · rintro ⟨present, admitted⟩
    have recorded := presence.mp present
    have wholePresent : graph.causal.Present id := by
      intro ancestor path
      obtain ⟨event, found⟩ := (BTreeMap.mem_iff_getElem? _ _).mp (recorded ancestor path)
      rw [judged.indexed.known_iff]
      exact BTreeMap.mem_of_getElem? (larger ancestor event found)
    refine ⟨⟨wholePresent, fun rejected => admitted ?_⟩, recorded⟩
    obtain ⟨root, cause, path⟩ := (judged.quarantined_iff id).mp rejected
    have down : ∀ ancestor, graph.causal.AncestorOrSelf ancestor id →
        part.causal.AncestorOrSelf ancestor id := fun ancestor older =>
      ancestorOrSelf_of_extends partJudged.indexed judged.indexed larger present older
    refine (partJudged.quarantined_iff id).mpr ⟨root, ?_, down root path⟩
    have rootPresent := present.ancestor (down root path)
    rcases cause with refused | cyclic
    · exact Or.inl ((refused_iff_of_extends judged.indexed partJudged.indexed larger
        rootPresent).mpr refused)
    · exact Or.inr ((cyclic_iff_of_extends judged.indexed partJudged.indexed larger
        rootPresent).mpr cyclic)
  · rintro ⟨⟨_, admitted⟩, recorded⟩
    exact ⟨presence.mpr recorded,
      fun rejected => admitted (judged.quarantined_of_extends partJudged larger rejected)⟩

end EventGraph

end Nook.EventLog
