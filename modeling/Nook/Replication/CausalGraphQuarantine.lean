import Nook.Replication.CausalGraphAncestry

set_option autoImplicit false

namespace Nook.Replication

open Nook.Lib Relation

variable {Id : Type} [LinearOrder Id]

theorem normalizeParents_congr {parents other : List Id}
    (same : ∀ id, id ∈ parents ↔ id ∈ other) :
    normalizeParents parents = normalizeParents other := by
  unfold normalizeParents
  congr 1
  apply Std.ExtTreeSet.ext_mem
  simp [Std.ExtTreeSet.mem_ofList, same]

theorem normalizeParents_idem (parents : List Id) :
    normalizeParents (normalizeParents parents) = normalizeParents parents :=
  normalizeParents_congr (mem_normalizeParents parents)

namespace CausalGraph

variable {graph : CausalGraph Id}

/-- A rejection that is not inherited from an ancestor. -/
def Rejected (graph : CausalGraph Id) (id : Id) : Prop :=
  id ∈ graph.quarantineRoots ∨ id ∈ graph.cyclic

/-- The index holds normalized parent sets, exactly the ids that are on a cycle,
and exactly the rejected ids with their descendants. -/
structure WellFormed (graph : CausalGraph Id) : Prop where
  normalized : ∀ (id : Id) (parents : List Id), graph.parents[id]? = some parents →
    normalizeParents parents = parents
  cyclic_iff : ∀ id, id ∈ graph.cyclic ↔ graph.Ancestor id id
  quarantined_iff : ∀ id, id ∈ graph.quarantined ↔
    ∃ root, graph.Rejected root ∧ graph.AncestorOrSelf root id

theorem Ancestor.known {ancestor id : Id} (path : graph.Ancestor ancestor id) :
    id ∈ graph.parents := by
  rcases TransGen.tail'_iff.mp path with ⟨_, _, edge⟩
  exact edge.known

theorem AncestorOrSelf.known {ancestor id : Id} (path : graph.AncestorOrSelf ancestor id)
    (recorded : ancestor ∈ graph.parents) : id ∈ graph.parents := by
  rcases ReflTransGen.cases_tail path with rfl | ⟨_, _, edge⟩
  · exact recorded
  · exact edge.known

/-- Two graphs with the same parent map have the same causal order. -/
theorem edge_congr {other : CausalGraph Id} (same : graph.parents = other.parents) :
    graph.Edge = other.Edge := by
  funext parent child
  simp only [Edge, parentsOf, same]

theorem ancestor_congr {other : CausalGraph Id} (same : graph.parents = other.parents) :
    graph.Ancestor = other.Ancestor := by
  unfold Ancestor
  rw [edge_congr same]

theorem ancestorOrSelf_congr {other : CausalGraph Id} (same : graph.parents = other.parents) :
    graph.AncestorOrSelf = other.AncestorOrSelf := by
  unfold AncestorOrSelf
  rw [edge_congr same]

/-! ### Rejection propagation -/

/-- What the propagation has reached: everything seeded, nothing but descendants. -/
structure Propagated (graph : CausalGraph Id) (seeded reached : BTreeMap Id String) : Prop where
  seeds : ∀ id, id ∈ seeded → id ∈ reached
  caused : ∀ id, id ∈ reached → ∃ root, root ∈ seeded ∧ graph.AncestorOrSelf root id

def outstanding (graph : CausalGraph Id) (reached : BTreeMap Id String) : Nat :=
  (graph.parents.keys.filter fun id => !reached.contains id).length

theorem mem_rejectedDescendants (reached : BTreeMap Id String) (id : Id) :
    (id ∈ graph.parents.keys.filter fun id =>
        !reached.contains id && (graph.parentsOf id).any fun parent => reached.contains parent) ↔
      id ∉ reached ∧ ∃ parent, graph.Edge parent id ∧ parent ∈ reached := by
  simp only [List.mem_filter, Std.ExtTreeMap.mem_keys, Bool.and_eq_true, Bool.not_eq_true',
    ← Bool.not_eq_true, Std.ExtTreeMap.contains_iff_mem, List.any_eq_true]
  constructor
  · rintro ⟨_, fresh, parent, edge, member⟩
    exact ⟨fresh, parent, edge, member⟩
  · rintro ⟨fresh, parent, edge, member⟩
    exact ⟨edge.known, fresh, parent, edge, member⟩

theorem propagationRound_step (seeded reached next : BTreeMap Id String)
    (holds : graph.Propagated seeded reached)
    (again : graph.propagationRound reached = .again next) :
    graph.Propagated seeded next ∧ graph.outstanding next < graph.outstanding reached := by
  unfold propagationRound at again
  dsimp only at again
  split at again
  · cases again
  · rename_i progress
    injection again with grown
    have mem_next : ∀ id, id ∈ next ↔
        (id ∉ reached ∧ ∃ parent, graph.Edge parent id ∧ parent ∈ reached) ∨ id ∈ reached := by
      intro id
      rw [← grown, mem_foldl_mergeQuarantineReason, mem_rejectedDescendants]
    constructor
    · constructor
      · intro id member
        exact (mem_next id).mpr (Or.inr (holds.seeds id member))
      · intro id member
        rcases (mem_next id).mp member with ⟨_, parent, edge, old⟩ | old
        · obtain ⟨root, seed, path⟩ := holds.caused parent old
          exact ⟨root, seed, path.tail edge⟩
        · exact holds.caused id old
    · rw [List.isEmpty_iff] at progress
      obtain ⟨id, found⟩ := List.exists_mem_of_ne_nil _ progress
      obtain ⟨fresh, parent, edge, old⟩ := (mem_rejectedDescendants reached id).mp found
      apply length_filter_lt id
      · intro other
        simp only [Bool.not_eq_true', ← Bool.not_eq_true, Std.ExtTreeMap.contains_iff_mem, mem_next]
        tauto
      · exact Std.ExtTreeMap.mem_keys.mpr edge.known
      · simpa [← Bool.not_eq_true] using fresh
      · simpa using (mem_next id).mpr (Or.inl ⟨fresh, parent, edge, old⟩)

/-- The seeds and everything below them, whatever the order of the rounds. -/
theorem mem_propagated (seeded : BTreeMap Id String) (id : Id) :
    id ∈ (runLoop graph.propagationRound (graph.parents.size + 1) seeded).getD seeded ↔
      ∃ root, root ∈ seeded ∧ graph.AncestorOrSelf root id := by
  have start : graph.Propagated seeded seeded := ⟨fun _ seed => seed, fun id seed => ⟨id, seed, .refl⟩⟩
  have enough : graph.outstanding seeded < graph.parents.size + 1 := by
    have := List.length_filter_le (fun id => !seeded.contains id) graph.parents.keys
    rw [Std.ExtTreeMap.length_keys] at this
    unfold outstanding
    omega
  obtain ⟨last, result, holds, leaves, ran⟩ := runLoop_rule graph.propagationRound
    (graph.Propagated seeded) graph.outstanding
    (fun reached next => propagationRound_step seeded reached next) _ seeded start enough
  rw [ran, Option.getD_some]
  unfold propagationRound at leaves
  dsimp only at leaves
  split at leaves
  · rename_i finished
    injection leaves with same
    subst same
    rw [List.isEmpty_iff] at finished
    constructor
    · exact holds.caused id
    · rintro ⟨root, seed, path⟩
      induction path with
      | refl => exact holds.seeds root seed
      | @tail parent child _ edge ih =>
        by_contra fresh
        have found := (mem_rejectedDescendants last child).mpr ⟨fresh, parent, edge, ih⟩
        rw [finished] at found
        cases found
  · cases leaves

theorem mem_quarantined_recomputeQuarantine (id : Id) :
    id ∈ graph.recomputeQuarantine.quarantined ↔
      ∃ root, graph.Rejected root ∧ graph.AncestorOrSelf root id := by
  unfold recomputeQuarantine
  dsimp only
  rw [mem_propagated]
  simp only [mem_foldl_mergeQuarantineReason, Std.ExtTreeSet.mem_toList, Rejected, or_comm]

/-- A recomputation establishes the whole invariant from its first two fields. -/
theorem wellFormed_recomputeQuarantine
    (normalized : ∀ (id : Id) (parents : List Id), graph.parents[id]? = some parents →
      normalizeParents parents = parents)
    (cyclic : ∀ id, id ∈ graph.cyclic ↔ graph.Ancestor id id) :
    graph.recomputeQuarantine.WellFormed where
  normalized := normalized
  cyclic_iff := cyclic
  quarantined_iff := mem_quarantined_recomputeQuarantine

/-! ### Cycles -/

theorem count_childrenOf (id : Id) :
    (graph.childrenOf id).length = (graph.parents.keys.flatMap graph.parentsOf).count id := by
  unfold childrenOf
  rw [List.length_flatMap, List.count_flatMap]
  congr 1
  apply List.map_congr_left
  intro child _
  rw [List.length_map, Function.comp_apply, List.count, List.countP_eq_length_filter]
  rfl

theorem mem_childrenOf (id child : Id) : child ∈ graph.childrenOf id ↔ graph.Edge id child := by
  unfold childrenOf
  rw [List.mem_flatMap]
  constructor
  · rintro ⟨known, _, member⟩
    obtain ⟨parent, found, rfl⟩ := List.mem_map.mp member
    rw [List.mem_filter, decide_eq_true_iff] at found
    exact found.2 ▸ found.1
  · intro edge
    refine ⟨child, Std.ExtTreeMap.mem_keys.mpr edge.known, List.mem_map.mpr ⟨id, ?_, rfl⟩⟩
    exact List.mem_filter.mpr ⟨edge, by simp⟩

/-- The reverse index has one entry for each parent reference, so the descendant
scan is bounded by the same number as the ancestor scan. -/
theorem mem_descendants (origin id : Id) :
    id ∈ visitFrom graph.childrenOf (1 + graph.edgeCount) [origin] [] ↔
      graph.AncestorOrSelf origin id := by
  have visits : Visits graph.childrenOf [origin] []
      (visitFrom graph.childrenOf (1 + graph.edgeCount) [origin] []) := by
    apply visitFrom_visits graph.childrenOf
      (graph.parents.keys.flatMap graph.parentsOf).dedup (List.nodup_dedup _)
    · intro node absent
      apply List.eq_nil_of_length_eq_zero
      rw [count_childrenOf, List.count_eq_zero]
      exact fun member => absent (List.mem_dedup.mpr member)
    · have total : pendingPushes graph.childrenOf
          (graph.parents.keys.flatMap graph.parentsOf).dedup [] = graph.edgeCount := by
        simp only [pendingPushes, count_childrenOf, List.not_mem_nil, not_false_eq_true,
          decide_true, List.filter_true, edgeCount]
        rw [List.sum_map_count_dedup_eq_length, List.length_flatMap]
      rw [total]
      simp
  have same : (fun a b => b ∈ graph.childrenOf a) = graph.Edge := by
    funext a b
    rw [mem_childrenOf]
  rw [visits.mem_iff, same]
  simp [AncestorOrSelf]

theorem ancestor_iff (ancestor id : Id) :
    graph.Ancestor ancestor id ↔ ∃ parent ∈ graph.parentsOf id, graph.AncestorOrSelf ancestor parent := by
  unfold Ancestor
  rw [TransGen.tail'_iff]
  exact exists_congr fun parent => and_comm

theorem mem_ancestors (origin id : Id) :
    id ∈ graph.visitOrder (graph.parentsOf origin) ↔ graph.Ancestor id origin := by
  rw [mem_visitOrder, ancestor_iff]

theorem mem_cycleMembers (origin id : Id) :
    id ∈ graph.cycleMembers origin ↔
      graph.Ancestor id origin ∧ graph.AncestorOrSelf origin id := by
  unfold cycleMembers
  dsimp only
  split
  · simp only [Std.ExtTreeSet.mem_ofList, List.contains_iff_mem, List.mem_filter, mem_ancestors,
      mem_descendants]
  · rename_i acyclic
    rw [List.contains_iff_mem, mem_ancestors] at acyclic
    constructor
    · intro member
      exact absurd member (by simp)
    · rintro ⟨before, after⟩
      exact absurd (TransGen.trans_right after before) acyclic

theorem mem_allCyclicIds (id : Id) : id ∈ graph.allCyclicIds ↔ graph.Ancestor id id := by
  simp only [allCyclicIds, Std.ExtTreeSet.mem_ofList, List.contains_iff_mem, List.mem_flatMap,
    Std.ExtTreeMap.mem_keys, Std.ExtTreeSet.mem_toList, mem_cycleMembers]
  constructor
  · rintro ⟨origin, _, before, after⟩
    exact TransGen.trans_left before after
  · intro cycle
    exact ⟨id, cycle.known, cycle, .refl⟩

/-- A path of a graph that gained one event is old, or runs through the event. -/
theorem ancestor_insert_cases {older : CausalGraph Id} {id : Id}
    (old : ∀ parent child, child ≠ id → graph.Edge parent child → older.Edge parent child)
    {ancestor descendant : Id} (path : graph.Ancestor ancestor descendant) :
    older.Ancestor ancestor descendant ∨
      (graph.Ancestor ancestor id ∧ graph.AncestorOrSelf id descendant) := by
  induction path with
  | @single child edge =>
    by_cases fresh : child = id
    · subst fresh
      exact Or.inr ⟨.single edge, .refl⟩
    · exact Or.inl (.single (old _ _ fresh edge))
  | @tail parent child before edge ih =>
    by_cases fresh : child = id
    · subst fresh
      exact Or.inr ⟨.tail before edge, .refl⟩
    · rcases ih with ih | ⟨into, out⟩
      · exact Or.inl (.tail ih (old _ _ fresh edge))
      · exact Or.inr ⟨into, out.tail edge⟩

/-! ### The operations keep the index well formed -/

theorem new_wellFormed : (new : CausalGraph Id).WellFormed := by
  have empty : ∀ parent child : Id, ¬(new : CausalGraph Id).Edge parent child := by
    intro parent child edge
    exact absurd edge.known (by simp [new])
  constructor
  · intro id parents found
    simp [new] at found
  · intro id
    constructor
    · intro member
      simp [new] at member
    · intro cycle
      obtain ⟨parent, _, edge⟩ := TransGen.tail'_iff.mp cycle
      exact absurd edge (empty parent id)
  · intro id
    simp [new, Rejected]

/-- The parent map holds only normalized lists. -/
def Normalized (parents : BTreeMap Id (List Id)) : Prop :=
  ∀ (id : Id) (list : List Id), parents[id]? = some list → normalizeParents list = list

theorem Normalized.insert {parents : BTreeMap Id (List Id)} (holds : Normalized parents)
    (id : Id) (requested : List Id) : Normalized (parents.insert id (normalizeParents requested)) := by
  intro other list found
  rw [BTreeMap.getElem?_insert_eq] at found
  split at found
  · injection found with same
    rw [← same, normalizeParents_idem]
  · exact holds other list found

/-- Recording an unknown event changes only the edges into that event. -/
theorem edge_of_insert (id : Id) (value : List Id) {parent child : Id} (apart : child ≠ id) :
    Edge { graph with parents := graph.parents.insert id value } parent child ↔
      graph.Edge parent child := by
  simp only [Edge, parentsOf, BTreeMap.getElem?_insert_eq, if_neg (Ne.symm apart)]

theorem cyclic_insert_iff (holds : graph.WellFormed) (id : Id) (value : List Id)
    (fresh : id ∉ graph.parents) (other : Id) :
    let grown := { graph with parents := graph.parents.insert id value }
    other ∈ graph.cyclic.insertMany (grown.cycleMembers id).toList ↔
      grown.Ancestor other other := by
  intro grown
  have kept : ∀ parent child, graph.Edge parent child → grown.Edge parent child := by
    intro parent child edge
    have apart : child ≠ id := fun same => fresh (same ▸ edge.known)
    exact (edge_of_insert id value apart).mpr edge
  rw [Std.ExtTreeSet.mem_insertMany_list, List.contains_iff_mem, Std.ExtTreeSet.mem_toList,
    mem_cycleMembers, holds.cyclic_iff]
  constructor
  · rintro (cycle | ⟨into, out⟩)
    · exact TransGen.mono kept other other cycle
    · exact TransGen.trans_left into out
  · exact ancestor_insert_cases fun parent child apart edge =>
      (edge_of_insert id value apart).mp edge

/-- The graph that indexing an unknown event leaves. -/
theorem insert_unknown (id : Id) (requested : List Id) (fresh : id ∉ graph.parents) :
    let grown := { graph with parents := graph.parents.insert id (normalizeParents requested) }
    (graph.insert id requested).graph =
      recomputeQuarantine { grown with
        cyclic := graph.cyclic.insertMany (grown.cycleMembers id).toList } := by
  rw [BTreeMap.not_mem_iff_getElem?] at fresh
  unfold insert
  dsimp only
  rw [fresh]

/-- A new id that the insertion leaves applicable is reported so. -/
theorem insert_status_applied (id : Id) (requested : List Id) (fresh : id ∉ graph.parents)
    (applicable : (graph.insert id requested).graph.Applicable id) :
    (graph.insert id requested).status = .applied := by
  have unrejected := (BTreeMap.not_mem_iff_getElem? _ _).mp applicable.2
  have listed : (graph.insert id requested).graph.parents[id]? = some (normalizeParents requested) := by
    rw [insert_unknown id requested fresh]
    show (graph.parents.insert id (normalizeParents requested))[id]? = _
    rw [BTreeMap.getElem?_insert_eq, if_pos rfl]
  have present : (graph.insert id requested).graph.ancestorIdsPresent (normalizeParents requested) =
      true := by
    have shown := (ancestorsPresent_iff id).mpr applicable.1
    unfold ancestorsPresent at shown
    rwa [listed] at shown
  rw [BTreeMap.not_mem_iff_getElem?] at fresh
  unfold insert at unrejected present ⊢
  dsimp only at unrejected present ⊢
  rw [fresh] at unrejected present ⊢
  dsimp only at unrejected present ⊢
  rw [unrejected]
  dsimp only
  rw [if_pos present]

theorem insert_wellFormed (holds : graph.WellFormed) (id : Id) (requested : List Id) :
    (graph.insert id requested).graph.WellFormed := by
  by_cases known : id ∈ graph.parents
  · obtain ⟨existing, found⟩ := (BTreeMap.mem_iff_getElem? _ _).mp known
    unfold insert
    dsimp only
    rw [found]
    dsimp only
    split
    · exact holds
    · by_cases replaced : normalizeParents requested < existing
      · simp only [replaced, if_true]
        apply wellFormed_recomputeQuarantine
        · exact Normalized.insert holds.normalized id requested
        · intro other
          exact mem_allCyclicIds other
      · simp only [replaced, if_false]
        exact wellFormed_recomputeQuarantine holds.normalized holds.cyclic_iff
  · rw [insert_unknown id requested known]
    apply wellFormed_recomputeQuarantine
    · exact Normalized.insert holds.normalized id requested
    · exact cyclic_insert_iff holds id _ known

theorem quarantine_wellFormed (holds : graph.WellFormed) (id : Id) (reason : String) :
    (graph.quarantine id reason).WellFormed :=
  wellFormed_recomputeQuarantine holds.normalized holds.cyclic_iff

/-- Rejected ids stay rejected, and a rejection reaches the descendants. -/
theorem mem_quarantined_quarantine (holds : graph.WellFormed) (id other : Id) (reason : String) :
    other ∈ (graph.quarantine id reason).quarantined ↔
      graph.AncestorOrSelf id other ∨ other ∈ graph.quarantined := by
  unfold quarantine
  rw [mem_quarantined_recomputeQuarantine, holds.quarantined_iff]
  have same : AncestorOrSelf { graph with
      quarantineRoots := mergeQuarantineReason graph.quarantineRoots id reason } =
      graph.AncestorOrSelf := ancestorOrSelf_congr rfl
  rw [same]
  simp only [Rejected, mem_mergeQuarantineReason]
  constructor
  · rintro ⟨root, (rfl | old) | cyclic, path⟩
    · exact Or.inl path
    · exact Or.inr ⟨root, Or.inl old, path⟩
    · exact Or.inr ⟨root, Or.inr cyclic, path⟩
  · rintro (path | ⟨root, old | cyclic, path⟩)
    · exact ⟨id, Or.inl (Or.inl rfl), path⟩
    · exact ⟨root, Or.inl (Or.inr old), path⟩
    · exact ⟨root, Or.inr cyclic, path⟩

theorem applicable_quarantine (holds : graph.WellFormed) (id other : Id) (reason : String) :
    (graph.quarantine id reason).Applicable other ↔
      graph.Applicable other ∧ ¬graph.AncestorOrSelf id other := by
  have present : (graph.quarantine id reason).Present other ↔ graph.Present other := Iff.rfl
  unfold Applicable
  rw [present, mem_quarantined_quarantine holds, not_or]
  tauto

theorem mergeParents_normalized (holds : Normalized graph.parents) (id : Id)
    (requested : List Id) : Normalized (graph.mergeParents id requested).parents := by
  unfold mergeParents
  dsimp only
  split
  · split
    · exact holds
    · dsimp only
      split
      · exact holds.insert id requested
      · exact holds
  · exact holds.insert id requested

theorem union_wellFormed (holds : graph.WellFormed) (other : CausalGraph Id) :
    (graph.union other).WellFormed := by
  have merged : ∀ (entries : List (Id × List Id)) (graph : CausalGraph Id),
      Normalized graph.parents →
        Normalized (entries.foldl (fun merged entry => merged.mergeParents entry.1 entry.2)
          graph).parents := by
    intro entries
    induction entries with
    | nil => exact fun _ holds => holds
    | cons entry entries ih => exact fun _ holds => ih _ (mergeParents_normalized holds _ _)
  apply wellFormed_recomputeQuarantine
  · exact merged other.parents.toList graph holds.normalized
  · intro id
    exact mem_allCyclicIds id

/-- Where two graphs agree on the ids they share, a union only adds parent sets. -/
theorem parents_union (other : CausalGraph Id) (wellFormed : other.WellFormed)
    (agree : ∀ (id : Id) (left right : List Id), graph.parents[id]? = some left →
      other.parents[id]? = some right → left = right) (id : Id) :
    (graph.union other).parents[id]? = (graph.parents[id]?).or other.parents[id]? := by
  have merged : ∀ (entries : List (Id × List Id)) (merged : CausalGraph Id),
      (∀ entry ∈ entries, normalizeParents entry.2 = entry.2) →
      (∀ entry ∈ entries, ∀ parents, merged.parents[entry.1]? = some parents →
        parents = entry.2) →
      (∀ entry ∈ entries, ∀ other ∈ entries, entry.1 = other.1 → entry.2 = other.2) →
      (entries.foldl (fun merged entry => merged.mergeParents entry.1 entry.2) merged).parents =
        merged.parents.insertAbsent entries := by
    intro entries
    induction entries with
    | nil => exact fun _ _ _ _ => rfl
    | cons entry entries ih =>
      intro merged normalized agree functional
      have head : (merged.mergeParents entry.1 entry.2).parents =
          if merged.parents.contains entry.1 then merged.parents
          else merged.parents.insert entry.1 entry.2 := by
        unfold mergeParents
        rw [normalized entry (by simp)]
        dsimp only
        split
        · rename_i existing found
          have known := Std.ExtTreeMap.contains_iff_mem.mpr (BTreeMap.mem_of_getElem? found)
          rw [if_pos (agree entry (by simp) existing found), if_pos known]
        · rename_i absent
          rw [if_neg]
          rw [Std.ExtTreeMap.contains_iff_mem, BTreeMap.not_mem_iff_getElem?]
          exact absent
      rw [List.foldl_cons, ih]
      · rw [head]
        rfl
      · exact fun other member => normalized other (by simp [member])
      · intro other member parents found
        rw [head] at found
        split at found
        · exact agree other (by simp [member]) parents found
        · rw [BTreeMap.getElem?_insert_eq] at found
          split at found
          · rename_i same
            injection found with found
            rw [← found]
            exact functional entry (by simp) other (by simp [member]) same
          · exact agree other (by simp [member]) parents found
      · exact fun left first right second =>
          functional left (by simp [first]) right (by simp [second])
  show (other.parents.toList.foldl _ graph).parents[id]? = _
  have entry_iff : ∀ entry : Id × List Id, entry ∈ other.parents.toList ↔
      other.parents[entry.1]? = some entry.2 := fun entry =>
    Std.ExtTreeMap.mem_toList_iff_getElem?_eq_some
  rw [merged, BTreeMap.getElem?_insertAbsent, BTreeMap.find?_toList]
  · intro entry member
    exact wellFormed.normalized entry.1 entry.2 ((entry_iff entry).mp member)
  · intro entry member parents found
    exact agree entry.1 parents entry.2 found ((entry_iff entry).mp member)
  · intro left first right second same
    have found := (entry_iff left).mp first
    rw [same, (entry_iff right).mp second] at found
    injection found with found
    exact found.symm

/-- In a well-formed graph nothing applicable is on a cycle. -/
theorem Applicable.acyclic (holds : graph.WellFormed) {id : Id} (applicable : graph.Applicable id) :
    ¬graph.Ancestor id id := by
  intro cycle
  apply applicable.2
  rw [holds.quarantined_iff]
  exact ⟨id, Or.inr ((holds.cyclic_iff id).mpr cycle), .refl⟩

/-- Applicable events have applicable ancestors. -/
theorem Applicable.ancestor (holds : graph.WellFormed) {ancestor id : Id}
    (applicable : graph.Applicable id) (path : graph.AncestorOrSelf ancestor id) :
    graph.Applicable ancestor := by
  refine ⟨applicable.1.ancestor path, ?_⟩
  intro rejected
  obtain ⟨root, reason, below⟩ := (holds.quarantined_iff ancestor).mp rejected
  exact applicable.2 ((holds.quarantined_iff id).mpr ⟨root, reason, below.trans path⟩)

end CausalGraph

end Nook.Replication
