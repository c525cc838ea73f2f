import Nook.EventLog.GraphRestriction

set_option autoImplicit false

namespace Nook.EventLog

open Nook.Lib Nook.Replication Relation

namespace EventGraph

variable {graph part : EventGraph}

/-- The recorded event starts a security epoch. -/
def StartsEpoch (graph : EventGraph) (id : EventId) : Prop :=
  ∃ event, graph.events[id]? = some event ∧ event.startsSecurityEpoch = true

/-- The recorded event is a checkpoint that commits `trigger`. -/
def Commits (graph : EventGraph) (checkpoint trigger : EventId) : Prop :=
  ∃ event, graph.events[checkpoint]? = some event ∧ event.committedEpochParent = .commits trigger

/-- An applicable security trigger. -/
def Trigger (graph : EventGraph) (id : EventId) : Prop :=
  graph.causal.Applicable id ∧ graph.StartsEpoch id

/-- An applicable checkpoint commits the trigger. -/
def CommittedBy (graph : EventGraph) (trigger checkpoint : EventId) : Prop :=
  graph.causal.Applicable checkpoint ∧ graph.Commits checkpoint trigger

/-- At or after an applicable security trigger that no applicable checkpoint commits. -/
def Incomplete (graph : EventGraph) (id : EventId) : Prop :=
  ∃ trigger, graph.Trigger trigger ∧ (∀ checkpoint, ¬graph.CommittedBy trigger checkpoint) ∧
    graph.causal.AncestorOrSelf trigger id

/-- A committed trigger whose checkpoints are all incomplete themselves and not in `kept`. -/
def Dangling (graph : EventGraph) (kept : Set EventId) (id : EventId) : Prop :=
  graph.Trigger id ∧ ¬graph.Incomplete id ∧
    ∀ checkpoint, graph.CommittedBy id checkpoint →
      graph.Incomplete checkpoint ∧ checkpoint ∉ kept

instance (id : EventId) : Decidable (graph.causal.Applicable id) :=
  decidable_of_iff _ (CausalGraph.mem_applicableIds id)

instance (id : EventId) : Decidable (graph.StartsEpoch id) :=
  decidable_of_iff ((graph.events[id]?).any VaultEvent.startsSecurityEpoch = true)
    (by simp [StartsEpoch, Option.any_eq_true])

instance (id : EventId) : Decidable (graph.Trigger id) :=
  inferInstanceAs (Decidable (graph.causal.Applicable id ∧ graph.StartsEpoch id))

instance (trigger : EventId) : Decidable (∃ checkpoint, graph.CommittedBy trigger checkpoint) :=
  decidable_of_iff (∃ checkpoint ∈ graph.causal.applicableIds,
      (graph.events[checkpoint]?).any (·.committedEpochParent = .commits trigger) = true)
    (by simp [CommittedBy, Commits, CausalGraph.mem_applicableIds, Option.any_eq_true])

@[simp] theorem parent?_eq_some (commit : VaultEvent.CheckpointCommit) (parent : EventId) :
    commit.parent? = some parent ↔ commit = .commits parent := by
  cases commit <;> simp [VaultEvent.CheckpointCommit.parent?]

theorem commits_parents {event : VaultEvent} {trigger : EventId}
    (commits : event.committedEpochParent = .commits trigger) : event.body.parents = [trigger] := by
  unfold VaultEvent.committedEpochParent at commits
  dsimp only at commits
  split at commits
  · rename_i parent only
    split at commits
    · injection commits with same
      rw [only, same]
    · cases commits
  · cases commits

theorem Commits.edge_iff (indexed : graph.Indexed) {checkpoint trigger : EventId}
    (commits : graph.Commits checkpoint trigger) (parent : EventId) :
    graph.causal.Edge parent checkpoint ↔ parent = trigger := by
  obtain ⟨event, found, committed⟩ := commits
  rw [indexed.edge_iff, bodyParents_of_get found, commits_parents committed, List.mem_singleton]

variable [External]

/-- The applicable events, with triggers as obligations that checkpoints close. -/
def Judged.transitions (judged : graph.Judged) : Obligations EventId where
  accepted := { id | graph.causal.Applicable id }
  below := graph.causal.AncestorOrSelf
  opens := graph.StartsEpoch
  closes := graph.Commits
  below_refl _ := .refl
  below_trans _ _ _ first second := first.trans second
  accepted_below _ _ path applicable := applicable.ancestor judged.indexed.wellFormed path
  closes_below _ trigger commits := .single ((commits.edge_iff judged.indexed trigger).mpr rfl)
  below_closer checkpoint trigger id commits path := by
    rcases ReflTransGen.cases_tail path with same | ⟨parent, before, edge⟩
    · exact Or.inl same.symm
    · rw [commits.edge_iff judged.indexed] at edge
      exact Or.inr (edge ▸ before)

theorem Judged.mem_withheld (judged : graph.Judged) (id : EventId) :
    id ∈ judged.transitions.withheld ↔ graph.Incomplete id := by
  constructor
  · rintro ⟨trigger, ⟨applicable, starts, uncommitted⟩, path⟩
    exact ⟨trigger, ⟨applicable, starts⟩,
      fun checkpoint committed => uncommitted checkpoint committed.1 committed.2, path⟩
  · rintro ⟨trigger, ⟨applicable, starts⟩, uncommitted, path⟩
    exact ⟨trigger, ⟨applicable, starts,
      fun checkpoint accepted commits => uncommitted checkpoint ⟨accepted, commits⟩⟩, path⟩

theorem Judged.dangling_iff (judged : graph.Judged) (kept : Set EventId) (id : EventId) :
    judged.transitions.Dangling kept id ↔ graph.Dangling kept id := by
  unfold Obligations.Dangling Dangling
  simp only [judged.mem_withheld]
  constructor
  · rintro ⟨applicable, complete, starts, lost⟩
    exact ⟨⟨applicable, starts⟩, complete,
      fun checkpoint committed => lost checkpoint committed.1 committed.2⟩
  · rintro ⟨⟨applicable, starts⟩, complete, lost⟩
    exact ⟨applicable, complete, starts,
      fun checkpoint accepted commits => lost checkpoint ⟨accepted, commits⟩⟩

omit [External] in
theorem Incomplete.recorded (indexed : graph.Indexed) {id : EventId}
    (incomplete : graph.Incomplete id) : id ∈ graph.events := by
  obtain ⟨trigger, ⟨⟨present, _⟩, _⟩, _, path⟩ := incomplete
  rw [← indexed.known_iff]
  rcases CausalGraph.ancestorOrSelf_cases path with same | ⟨parent, edge, _⟩
  · exact same ▸ present.known
  · exact CausalGraph.Edge.known edge

/-- Taking events away from a graph takes their descendants from its transitions. -/
theorem Judged.restricts (judged : graph.Judged) (partJudged : part.Judged) {removed : Set EventId}
    (recorded : ∀ id : EventId, part.events[id]? = graph.events[id]? ∨ part.events[id]? = none)
    (gone : ∀ id, graph.causal.Applicable id → (id ∈ part.events ↔ id ∉ removed)) :
    judged.transitions.Restricts partJudged.transitions removed := by
  have larger : graph.Extends part := by
    intro id event found
    rcases recorded id with same | absent
    · rw [← same, found]
    · rw [found] at absent
      cases absent
  have same : ∀ id, part.causal.Applicable id → part.events[id]? = graph.events[id]? := by
    intro id applicable
    obtain ⟨event, found⟩ := (BTreeMap.mem_iff_getElem? _ _).mp
      ((partJudged.indexed.known_iff id).mp applicable.1.known)
    rw [found, larger id event found]
  refine ⟨fun id => ?_, fun id applicable earlier => ?_, fun id applicable => ?_,
    fun closer applicable opener => ?_⟩
  · refine (judged.applicable_iff_of_extends partJudged larger id).trans
      (and_congr_right fun applicable => forall₂_congr fun earlier path => ?_)
    exact gone earlier (applicable.ancestor judged.indexed.wellFormed path)
  · have present : part.causal.Present id := applicable.1
    exact ⟨ancestorOrSelf_extend judged.indexed partJudged.indexed larger,
      ancestorOrSelf_of_extends partJudged.indexed judged.indexed larger present⟩
  · show part.StartsEpoch id ↔ graph.StartsEpoch id
    rw [StartsEpoch, same id applicable, StartsEpoch]
  · show part.Commits closer opener ↔ graph.Commits closer opener
    rw [Commits, same closer applicable, Commits]

/-! ### What the code computes -/

omit [External] in
theorem mem_applicableEvents (event : VaultEvent) :
    event ∈ graph.applicableEvents ↔
      ∃ id, graph.causal.Applicable id ∧ graph.events[id]? = some event := by
  unfold applicableEvents
  simp only [List.mem_filterMap, CausalGraph.mem_applicableIds]

/-- The recorded ids are those of the recorded events. -/
def Filed (graph : EventGraph) : Prop :=
  ∀ (id : EventId) (event : VaultEvent), graph.events[id]? = some event → event.id = .ok id

theorem Judged.mem_incompleteSecurityTransitionEvents (judged : graph.Judged) (filed : graph.Filed)
    {incomplete : BTreeSet EventId}
    (computed : graph.incompleteSecurityTransitionEvents = .ok incomplete) (id : EventId) :
    id ∈ incomplete ↔ graph.Incomplete id := by
  unfold incompleteSecurityTransitionEvents at computed
  obtain ⟨triggers, identified, same⟩ := bind_eq_ok.mp computed
  cases same
  have trigger_iff : ∀ trigger, trigger ∈ triggers ↔ graph.Trigger trigger := by
    intro trigger
    rw [mem_of_mapM_eq_ok identified]
    simp only [List.mem_filter, mem_applicableEvents]
    constructor
    · rintro ⟨event, ⟨⟨own, applicable, found⟩, starts⟩, named⟩
      rw [filed own event found] at named
      cases named
      exact ⟨applicable, event, found, starts⟩
    · rintro ⟨applicable, event, found, starts⟩
      exact ⟨event, ⟨⟨trigger, applicable, found⟩, starts⟩, filed trigger event found⟩
  have committed_iff : ∀ trigger,
      trigger ∈ (graph.applicableEvents.filterMap fun event => event.committedEpochParent.parent?) ↔
        ∃ checkpoint, graph.CommittedBy trigger checkpoint := by
    intro trigger
    rw [List.mem_filterMap]
    simp only [mem_applicableEvents, parent?_eq_some]
    constructor
    · rintro ⟨event, ⟨checkpoint, applicable, found⟩, committed⟩
      exact ⟨checkpoint, applicable, event, found, committed⟩
    · rintro ⟨checkpoint, applicable, event, found, commits⟩
      exact ⟨event, ⟨checkpoint, applicable, found⟩, commits⟩
  rw [Std.ExtTreeSet.mem_ofList, List.contains_iff_mem, List.mem_filter, Std.ExtTreeMap.mem_keys]
  simp only [List.any_eq_true, List.mem_filter, Bool.not_eq_true', ← Bool.not_eq_true,
    List.contains_iff_mem, committed_iff, trigger_iff, Bool.or_eq_true, decide_eq_true_iff]
  constructor
  · rintro ⟨_, trigger, ⟨starts, uncommitted⟩, below⟩
    refine ⟨trigger, starts, fun checkpoint committed => uncommitted ⟨checkpoint, committed⟩, ?_⟩
    rcases below with same | ancestor
    · exact same ▸ .refl
    · exact (CausalGraph.isAncestor_iff _ _).mp ancestor
  · intro incomplete
    refine ⟨incomplete.recorded judged.indexed, ?_⟩
    obtain ⟨trigger, starts, uncommitted, path⟩ := incomplete
    exact ⟨trigger, ⟨starts, fun ⟨checkpoint, committed⟩ => uncommitted checkpoint committed⟩,
      Or.inr ((CausalGraph.isAncestor_iff _ _).mpr path)⟩

end EventGraph

end Nook.EventLog
