import Nook.Replication.CausalGraphQuarantine
import Nook.Lib.LinearExtension

set_option autoImplicit false

namespace Nook.Replication

open Nook.Lib Relation

variable {Id : Type} [LinearOrder Id]

namespace CausalGraph

variable {graph : CausalGraph Id}

/-- A linear extension of the causal order of the applicable events. -/
def Extension (graph : CausalGraph Id) (order : List Id) : Prop :=
  LinearExtension graph.Ancestor graph.Applicable order

/-- The state between two rounds: what is ordered is closed under ancestors. -/
structure Ordering (graph : CausalGraph Id) (state : List Id × List Id) : Prop where
  nodup : (state.1 ++ state.2).Nodup
  mem_iff : ∀ id, id ∈ state.1 ++ state.2 ↔ graph.Applicable id
  closed : ∀ parent child, graph.Edge parent child → child ∈ state.1 → parent ∈ state.1
  sorted : state.1.Pairwise fun earlier later => ¬graph.Ancestor later earlier

theorem Ordering.closed_ancestor {state : List Id × List Id} (holds : graph.Ordering state)
    {ancestor id : Id} (path : graph.AncestorOrSelf ancestor id) (member : id ∈ state.1) :
    ancestor ∈ state.1 := by
  induction path using ReflTransGen.head_induction_on with
  | refl => exact member
  | head edge _ ih => exact holds.closed _ _ edge ih

theorem ordering_start : graph.Ordering ([], graph.applicableIds) where
  nodup := by simpa using nodup_applicableIds
  mem_iff := by simpa using mem_applicableIds
  closed := by simp
  sorted := .nil

def readyIds (graph : CausalGraph Id) (state : List Id × List Id) : List Id :=
  state.2.filter fun id =>
    graph.contains id && (graph.parentsOf id).all fun parent =>
      state.1.contains parent || !state.2.contains parent

theorem topologicalRound_eq (state : List Id × List Id) :
    graph.topologicalRound state =
      if state.2.isEmpty then .done (.ok state.1)
      else if (graph.readyIds state).isEmpty then .done (.error .cycle)
      else .again (state.1 ++ graph.readyIds state,
        state.2.filter fun id => !(graph.readyIds state).contains id) := rfl

/-- A remaining event is ready when all its parents are ordered. -/
theorem mem_readyIds (holds : graph.WellFormed) {state : List Id × List Id}
    (ordering : graph.Ordering state) (id : Id) :
    id ∈ graph.readyIds state ↔ id ∈ state.2 ∧ ∀ parent, graph.Edge parent id → parent ∈ state.1 := by
  simp only [readyIds, List.mem_filter, Bool.and_eq_true, contains_iff, List.all_eq_true,
    Bool.or_eq_true, List.contains_iff_mem, Bool.not_eq_true', ← Bool.not_eq_true]
  constructor
  · rintro ⟨remaining, _, ready⟩
    refine ⟨remaining, fun parent edge => ?_⟩
    have applicable := (ordering.mem_iff id).mp (List.mem_append_right _ remaining)
    have parentApplicable := applicable.ancestor holds (ReflTransGen.single edge)
    rcases List.mem_append.mp ((ordering.mem_iff parent).mpr parentApplicable) with before | after
    · exact before
    · exact (ready parent edge).resolve_right fun absent => absent after
  · rintro ⟨remaining, ready⟩
    have applicable := (ordering.mem_iff id).mp (List.mem_append_right _ remaining)
    exact ⟨remaining, applicable.1.known, fun parent edge => Or.inl (ready parent edge)⟩

theorem readyIds_nonempty (holds : graph.WellFormed) {state : List Id × List Id}
    (ordering : graph.Ordering state) (some : state.2 ≠ []) : graph.readyIds state ≠ [] := by
  have applicable : ∀ id ∈ state.2, graph.Applicable id := fun id remaining =>
    (ordering.mem_iff id).mp (List.mem_append_right _ remaining)
  obtain ⟨least, remaining, minimal⟩ := exists_minimal graph.Ancestor
    (fun _ _ _ => TransGen.trans) state.2
    (fun id remaining => (applicable id remaining).acyclic holds) some
  apply List.ne_nil_of_mem (a := least)
  rw [mem_readyIds holds ordering]
  refine ⟨remaining, fun parent edge => ?_⟩
  have parentApplicable := (applicable least remaining).ancestor holds (ReflTransGen.single edge)
  rcases List.mem_append.mp ((ordering.mem_iff parent).mpr parentApplicable) with before | after
  · exact before
  · exact absurd (TransGen.single edge) (minimal parent after)

theorem topologicalRound_step (holds : graph.WellFormed) (state next : List Id × List Id)
    (ordering : graph.Ordering state) (again : graph.topologicalRound state = .again next) :
    graph.Ordering next ∧ next.2.length < state.2.length := by
  rw [topologicalRound_eq] at again
  split at again
  · cases again
  split at again
  · cases again
  rename_i progress
  injection again with same
  subst same
  have ready := mem_readyIds holds ordering
  have disjoint := (List.nodup_append.mp ordering.nodup)
  have split : ∀ id, id ∈ graph.readyIds state ++
      (state.2.filter fun id => !(graph.readyIds state).contains id) ↔ id ∈ state.2 := by
    intro id
    simp only [List.mem_append, List.mem_filter, Bool.not_eq_true', ← Bool.not_eq_true,
      List.contains_iff_mem]
    have := (ready id).mp
    tauto
  constructor
  · constructor
    · dsimp only
      rw [List.append_assoc, List.nodup_append]
      refine ⟨disjoint.1, ?_, ?_⟩
      · rw [List.nodup_append]
        refine ⟨disjoint.2.1.filter _, disjoint.2.1.filter _, ?_⟩
        rintro id taken other kept rfl
        simp [taken] at kept
      · intro id first other second
        exact disjoint.2.2 id first other ((split other).mp second)
    · intro id
      dsimp only
      rw [List.append_assoc, List.mem_append, split, ← List.mem_append]
      exact ordering.mem_iff id
    · intro parent child edge member
      rcases List.mem_append.mp member with old | new
      · exact List.mem_append_left _ (ordering.closed parent child edge old)
      · exact List.mem_append_left _ (((ready child).mp new).2 parent edge)
    · dsimp only
      rw [List.pairwise_append]
      have early : ∀ later ∈ graph.readyIds state, ∀ id, graph.Ancestor later id →
          id ∉ state.1 := by
        intro later member id path inside
        have taken := ordering.closed_ancestor path.to_reflTransGen inside
        exact disjoint.2.2 later taken later ((ready later).mp member).1 rfl
      refine ⟨ordering.sorted, ?_, ?_⟩
      · apply List.pairwise_of_forall_mem_list
        intro earlier first later second path
        obtain ⟨parent, edge, below⟩ := (ancestor_iff later earlier).mp path
        have inside := ((ready earlier).mp first).2 parent edge
        have taken := ordering.closed_ancestor below inside
        exact disjoint.2.2 later taken later ((ready later).mp second).1 rfl
      · intro earlier first later second path
        exact early later second earlier path first
  · rw [List.isEmpty_iff] at progress
    obtain ⟨id, found⟩ := List.exists_mem_of_ne_nil _ progress
    dsimp only
    rw [List.length_filter_lt_length_iff_exists]
    exact ⟨id, ((ready id).mp found).1, by simpa using found⟩

/-- A well-formed graph is always ordered, by an extension of its causal order. -/
theorem topologicalOrder_extension (holds : graph.WellFormed) :
    ∃ order, graph.topologicalOrder = .ok order ∧ graph.Extension order := by
  obtain ⟨last, result, ordering, leaves, ran⟩ := runLoop_rule graph.topologicalRound
    graph.Ordering (fun state => state.2.length)
    (fun state next => topologicalRound_step holds state next)
    (graph.applicableIds.length + 1) ([], graph.applicableIds) ordering_start (by simp)
  rw [topologicalRound_eq] at leaves
  split at leaves
  · rename_i finished
    injection leaves with same
    rw [List.isEmpty_iff] at finished
    refine ⟨last.1, ?_, ?_⟩
    · unfold topologicalOrder
      dsimp only
      rw [ran, Option.getD_some, ← same]
    · have nodup := ordering.nodup
      have mem_iff := ordering.mem_iff
      rw [finished, List.append_nil] at nodup mem_iff
      exact ⟨nodup, mem_iff, ordering.sorted⟩
  · rename_i unfinished
    rw [List.isEmpty_iff] at unfinished
    rw [if_neg (by simpa using readyIds_nonempty holds ordering unfinished)] at leaves
    cases leaves

/-- A reordering of the applicable ids that no later id precedes is an extension. -/
theorem extension_of_perm {order : List Id} (perm : order.Perm graph.applicableIds)
    (sorted : order.Pairwise fun earlier later => graph.isAncestor later earlier = false) :
    graph.Extension order where
  nodup := perm.nodup_iff.mpr nodup_applicableIds
  mem_iff id := perm.mem_iff.trans (mem_applicableIds id)
  sorted := by
    refine sorted.imp ?_
    intro earlier later apart path
    rw [(isAncestor_iff_eq_or _ _).mpr (Or.inr path)] at apart
    cases apart

/-! ### Heads -/

theorem mem_pendingIds (id : Id) :
    id ∈ graph.pendingIds ↔ id ∈ graph.parents ∧ id ∉ graph.quarantined ∧ ¬graph.Present id := by
  have shown : ∀ parents, graph.parents[id]? = some parents →
      (graph.Present id ↔ graph.ancestorIdsPresent parents = true) := by
    intro parents found
    rw [← ancestorsPresent_iff, ancestorsPresent, found]
  simp only [pendingIds, List.mem_filter, Std.ExtTreeMap.mem_keys, Bool.and_eq_true,
    Bool.not_eq_true', ← Bool.not_eq_true, Std.ExtTreeMap.contains_iff_mem]
  constructor
  · rintro ⟨known, ⟨_, missing⟩, kept⟩
    obtain ⟨parents, found⟩ := (BTreeMap.mem_iff_getElem? _ _).mp known
    rw [parentsOf_known graph found] at missing
    exact ⟨known, kept, fun present => missing ((shown parents found).mp present)⟩
  · rintro ⟨known, kept, absent⟩
    obtain ⟨parents, found⟩ := (BTreeMap.mem_iff_getElem? _ _).mp known
    rw [shown parents found] at absent
    rw [parentsOf_known graph found]
    refine ⟨known, ⟨fun root => absent ?_, absent⟩, kept⟩
    rw [List.isEmpty_iff.mp root, ancestorIdsPresent_iff]
    simp

theorem applicable_of_kept (settled : graph.pendingIds = []) {id : Id} (known : id ∈ graph.parents)
    (kept : id ∉ graph.quarantined) : graph.Applicable id := by
  refine ⟨?_, kept⟩
  by_contra absent
  have pending := (mem_pendingIds id).mpr ⟨known, kept, absent⟩
  rw [settled] at pending
  cases pending

/-- Without pending events the heads are the applicable ids with no applicable child. -/
theorem mem_heads (settled : graph.pendingIds = []) (id : Id) :
    id ∈ graph.heads ↔
      graph.Applicable id ∧ ∀ child, graph.Applicable child → ¬graph.Edge id child := by
  simp only [heads, List.mem_filter, Std.ExtTreeMap.mem_keys, Bool.and_eq_true, Bool.not_eq_true',
    ← Bool.not_eq_true, Std.ExtTreeMap.contains_iff_mem, List.contains_iff_mem, List.mem_flatMap,
    not_exists, not_and, and_imp]
  constructor
  · rintro ⟨known, kept, unreferenced⟩
    exact ⟨applicable_of_kept settled known kept, fun child applicable =>
      unreferenced child applicable.1.known applicable.2⟩
  · rintro ⟨applicable, childless⟩
    exact ⟨applicable.1.known, applicable.2, fun child known kept =>
      childless child (applicable_of_kept settled known kept)⟩

/-- Every known id that is not rejected is in the past of a head, pending or not. -/
theorem exists_head_of_kept (holds : graph.WellFormed) {id : Id} (known : id ∈ graph.parents)
    (kept : id ∉ graph.quarantined) : ∃ head ∈ graph.heads, graph.AncestorOrSelf id head := by
  let later := graph.parents.keys.filter fun other =>
    !graph.quarantined.contains other && graph.isAncestor id other
  have mem_later : ∀ other, other ∈ later ↔
      other ∈ graph.parents ∧ other ∉ graph.quarantined ∧ graph.AncestorOrSelf id other := by
    intro other
    simp only [later, List.mem_filter, Std.ExtTreeMap.mem_keys, Bool.and_eq_true, Bool.not_eq_true',
      ← Bool.not_eq_true, Std.ExtTreeMap.contains_iff_mem, isAncestor_iff]
  have some : later ≠ [] := List.ne_nil_of_mem ((mem_later id).mpr ⟨known, kept, .refl⟩)
  have acyclic : ∀ other ∈ later, ¬graph.Ancestor other other := by
    intro other member cycle
    refine ((mem_later other).mp member).2.1 ((holds.quarantined_iff other).mpr ⟨other, ?_, .refl⟩)
    exact Or.inr ((holds.cyclic_iff other).mpr cycle)
  obtain ⟨head, inside, last⟩ := exists_minimal (fun a b => graph.Ancestor b a)
    (fun _ _ _ first second => second.trans first) later acyclic some
  obtain ⟨headKnown, headKept, path⟩ := (mem_later head).mp inside
  refine ⟨head, ?_, path⟩
  simp only [heads, List.mem_filter, Std.ExtTreeMap.mem_keys, Bool.and_eq_true, Bool.not_eq_true',
    ← Bool.not_eq_true, Std.ExtTreeMap.contains_iff_mem, List.contains_iff_mem, List.mem_flatMap]
  refine ⟨headKnown, headKept, ?_⟩
  rintro ⟨child, ⟨childKnown, childKept⟩, edge⟩
  exact last child ((mem_later child).mpr ⟨childKnown, childKept, path.tail edge⟩) (.single edge)

/-- Every applicable id is in the past of a head. -/
theorem exists_head (holds : graph.WellFormed) {id : Id} (applicable : graph.Applicable id) :
    ∃ head ∈ graph.heads, graph.AncestorOrSelf id head :=
  exists_head_of_kept holds applicable.1.known applicable.2

/-- The heads are all applicable exactly when nothing is pending. -/
theorem heads_applicable_iff (holds : graph.WellFormed) :
    (∀ head ∈ graph.heads, graph.Applicable head) ↔ graph.pendingIds = [] := by
  constructor
  · intro applicable
    rw [List.eq_nil_iff_forall_not_mem]
    intro id pending
    obtain ⟨known, kept, absent⟩ := (mem_pendingIds id).mp pending
    obtain ⟨head, member, path⟩ := exists_head_of_kept holds known kept
    exact absent ((applicable head member).1.ancestor path)
  · intro settled head member
    exact ((mem_heads settled head).mp member).1

/-! ### Queries see only the parent map and the rejected ids -/

/-- The two graphs have one causal order and reject the same ids, for whatever reasons. -/
structure Agrees (graph other : CausalGraph Id) : Prop where
  parents_eq : graph.parents = other.parents
  quarantined_iff : ∀ id, id ∈ graph.quarantined ↔ id ∈ other.quarantined

namespace Agrees

variable {other : CausalGraph Id} (agrees : graph.Agrees other)
include agrees

theorem quarantined_contains (id : Id) :
    graph.quarantined.contains id = other.quarantined.contains id := by
  rw [Bool.eq_iff_iff, Std.ExtTreeMap.contains_iff_mem, Std.ExtTreeMap.contains_iff_mem]
  exact agrees.quarantined_iff id

theorem applicable_iff (id : Id) : graph.Applicable id ↔ other.Applicable id := by
  simp only [Applicable, Present, agrees.quarantined_iff, agrees.parents_eq,
    ancestorOrSelf_congr agrees.parents_eq]

theorem applicableIds_eq : graph.applicableIds = other.applicableIds := by
  unfold applicableIds
  rw [agrees.parents_eq]
  apply List.filter_congr
  intro id _
  rw [agrees.quarantined_contains, Bool.eq_iff_iff, Bool.and_eq_true, Bool.and_eq_true,
    ancestorsPresent_iff, ancestorsPresent_iff]
  simp only [Present, agrees.parents_eq, ancestorOrSelf_congr agrees.parents_eq]

theorem heads_eq : graph.heads = other.heads := by
  unfold heads parentsOf
  rw [agrees.parents_eq]
  simp only [agrees.quarantined_contains]

theorem topologicalOrder_eq : graph.topologicalOrder = other.topologicalOrder := by
  have round : graph.topologicalRound = other.topologicalRound := by
    funext state
    have ready : graph.readyIds state = other.readyIds state := by
      unfold readyIds contains parentsOf
      rw [agrees.parents_eq]
    rw [topologicalRound_eq, topologicalRound_eq, ready]
  unfold topologicalOrder
  rw [agrees.applicableIds_eq, round]

end Agrees

end CausalGraph

end Nook.Replication
