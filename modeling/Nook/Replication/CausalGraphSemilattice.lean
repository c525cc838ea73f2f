import Nook.Lib.LeastMap
import Nook.Replication.CausalGraphRun

set_option autoImplicit false

namespace Nook.Replication

open Nook.Lib Relation

/-- An id that was inserted with two parent sets is rejected for it. -/
def conflicts {Id : Type} (inserted : Set (Id × List Id)) : Set (Id × String) :=
  {entry | entry.2 = conflictingParentsReason ∧
    ∃ first second, (entry.1, first) ∈ inserted ∧ (entry.1, second) ∈ inserted ∧ first ≠ second}

theorem conflicts_mono {Id : Type} {inserted more : Set (Id × List Id)} (kept : inserted ⊆ more) :
    conflicts inserted ⊆ conflicts more := by
  rintro entry ⟨reason, first, second, left, right, apart⟩
  exact ⟨reason, first, second, kept left, kept right, apart⟩

/-- Only the inserted id can come into conflict. -/
theorem conflicts_insert {Id : Type} {inserted : Set (Id × List Id)} {id : Id}
    {parents : List Id} {entry : Id × String}
    (member : entry ∈ conflicts (insert (id, parents) inserted)) :
    entry ∈ conflicts inserted ∨
      entry = (id, conflictingParentsReason) ∧ ∃ other, (id, other) ∈ inserted := by
  obtain ⟨other, reason⟩ := entry
  obtain ⟨same, first, second, left, right, apart⟩ := member
  dsimp only at same left right
  subst same
  rcases left with left | left
  · injection left with known value
    subst known value
    rcases right with right | right
    · injection right with _ value
      exact absurd value.symm apart
    · exact Or.inr ⟨rfl, second, right⟩
  · rcases right with right | right
    · injection right with known value
      subst known value
      exact Or.inr ⟨rfl, first, left⟩
    · exact Or.inl ⟨rfl, first, second, left, right, apart⟩

variable {Id : Type} [LinearOrder Id]

theorem mergeQuarantineReason_eq_keepLeast :
    (mergeQuarantineReason : BTreeMap Id String → Id → String → BTreeMap Id String) = keepLeast := by
  funext reasons id reason
  unfold mergeQuarantineReason
  split
  · rename_i absent
    rw [keepLeast_absent absent]
  · rename_i existing found
    rw [keepLeast_found found]

/-- The recorded parent sets and the reasons that are not inherited are the
least that were entered. -/
structure Indexes (graph : CausalGraph Id) (inserted : Set (Id × List Id))
    (rejected : Set (Id × String)) : Prop where
  parents : HoldsLeast graph.parents inserted
  quarantineRoots : HoldsLeast graph.quarantineRoots (rejected ∪ conflicts inserted)

variable {graph other : CausalGraph Id} {inserted more : Set (Id × List Id)}
  {rejected : Set (Id × String)}

theorem new_indexes : Indexes (CausalGraph.new : CausalGraph Id) ∅ ∅ where
  parents := .empty
  quarantineRoots := by
    have none : (∅ : Set (Id × String)) ∪ conflicts (∅ : Set (Id × List Id)) = ∅ := by
      ext entry
      simp [conflicts]
    rw [none]
    exact .empty

theorem mergeParents_indexes (holds : Indexes graph inserted rejected) (id : Id)
    (requested : List Id) :
    Indexes (graph.mergeParents id requested) (insert (id, normalizeParents requested) inserted)
      rejected := by
  have kept := holds.parents.keepLeast id (normalizeParents requested)
  have grown : rejected ∪ conflicts inserted ⊆
      rejected ∪ conflicts (insert (id, normalizeParents requested) inserted) :=
    Set.union_subset_union_right rejected (conflicts_mono (Set.subset_insert _ _))
  unfold CausalGraph.mergeParents
  dsimp only
  split
  · rename_i existing found
    have entered := holds.parents.entered id existing found
    rw [keepLeast_found found] at kept
    split
    · rename_i same
      rw [Set.insert_eq_of_mem (same ▸ entered)]
      exact holds
    · rename_i apart
      have root := holds.quarantineRoots.keepLeast id conflictingParentsReason
      rw [← mergeQuarantineReason_eq_keepLeast] at root
      refine ⟨kept, root.widen ?_ ?_⟩
      · apply Set.insert_subset _ grown
        exact Or.inr ⟨rfl, existing, _, Or.inr entered, Or.inl rfl, apart⟩
      · intro other reason member
        refine ⟨reason, ?_, le_rfl⟩
        rcases member with member | member
        · exact Or.inr (Or.inl member)
        · rcases conflicts_insert member with old | ⟨same, _⟩
          · exact Or.inr (Or.inr old)
          · exact Or.inl same
  · rename_i absent
    rw [keepLeast_absent absent] at kept
    refine ⟨kept, holds.quarantineRoots.widen grown ?_⟩
    intro other reason member
    refine ⟨reason, ?_, le_rfl⟩
    rcases member with member | member
    · exact Or.inl member
    · rcases conflicts_insert member with old | ⟨_, parents, entered⟩
      · exact Or.inr old
      · obtain ⟨least, found, _⟩ := holds.parents.bounded id parents entered
        rw [absent] at found
        cases found

/-- `insert` records what a merge of the one parent set records. -/
theorem insert_indexes (holds : Indexes graph inserted rejected) (id : Id)
    (requested : List Id) :
    Indexes (graph.insert id requested).graph
      (insert (id, normalizeParents requested) inserted) rejected := by
  have merged := mergeParents_indexes holds id requested
  unfold CausalGraph.mergeParents at merged
  unfold CausalGraph.insert
  dsimp only at merged ⊢
  cases found : graph.parents[id]? with
  | none =>
    rw [found] at merged
    exact ⟨merged.parents, merged.quarantineRoots⟩
  | some existing =>
    rw [found] at merged
    dsimp only at merged ⊢
    by_cases same : existing = normalizeParents requested
    · rw [if_pos same] at merged ⊢
      exact merged
    · rw [if_neg same] at merged ⊢
      by_cases replaced : normalizeParents requested < existing
      · simp only [replaced, if_true] at merged ⊢
        exact ⟨merged.parents, merged.quarantineRoots⟩
      · simp only [replaced, if_false] at merged ⊢
        exact ⟨merged.parents, merged.quarantineRoots⟩

theorem quarantine_indexes (holds : Indexes graph inserted rejected) (id : Id) (reason : String) :
    Indexes (graph.quarantine id reason) inserted (insert (id, reason) rejected) where
  parents := holds.parents
  quarantineRoots := by
    have root := holds.quarantineRoots.keepLeast id reason
    rw [← Set.insert_union, ← mergeQuarantineReason_eq_keepLeast] at root
    exact root

/-- The entries of a map. -/
def entriesOf {Value : Type} (map : BTreeMap Id Value) : Set (Id × Value) :=
  {entry | map[entry.1]? = some entry.2}

theorem foldl_mergeParents_indexes (holds : Indexes graph inserted rejected)
    (entries : List (Id × List Id)) (normalized : ∀ entry ∈ entries,
      normalizeParents entry.2 = entry.2) :
    Indexes (entries.foldl (fun merged entry => merged.mergeParents entry.1 entry.2) graph)
      (inserted ∪ {entry | entry ∈ entries}) rejected := by
  induction entries generalizing graph inserted with
  | nil => simpa using holds
  | cons head tail ih =>
    have grown := ih (mergeParents_indexes holds head.1 head.2)
      fun entry member => normalized entry (List.mem_cons_of_mem _ member)
    have same : insert (head.1, normalizeParents head.2) inserted ∪ {entry | entry ∈ tail} =
        inserted ∪ {entry | entry ∈ head :: tail} := by
      rw [normalized head List.mem_cons_self]
      ext entry
      simp only [Set.mem_union, Set.mem_insert_iff, Set.mem_ofPred_eq, List.mem_cons]
      tauto
    rwa [same] at grown

/-- A second parent set of one side is a conflict of that side, or a conflict
with the parent set that the other side keeps. -/
theorem union_indexes {otherRejected : Set (Id × String)}
    (holds : Indexes graph inserted rejected) (otherHolds : Indexes other more otherRejected)
    (wellFormed : other.WellFormed) :
    Indexes (graph.union other) (inserted ∪ more) (rejected ∪ otherRejected) := by
  have normalized : ∀ entry ∈ other.parents.toList, normalizeParents entry.2 = entry.2 :=
    fun entry member => wellFormed.normalized entry.1 entry.2
      (Std.ExtTreeMap.mem_toList_iff_getElem?_eq_some.mp member)
  have merged := foldl_mergeParents_indexes holds other.parents.toList normalized
  have roots := merged.quarantineRoots.foldl other.quarantineRoots
  rw [← mergeQuarantineReason_eq_keepLeast] at roots
  have listed : {entry | entry ∈ other.parents.toList} = entriesOf other.parents := by
    ext entry
    exact Std.ExtTreeMap.mem_toList_iff_getElem?_eq_some
  rw [listed] at merged roots
  have sub : entriesOf other.parents ⊆ more := fun entry member =>
    otherHolds.parents.entered entry.1 entry.2 member
  constructor
  · apply merged.parents.widen (Set.union_subset_union_right inserted sub)
    intro id parents member
    rcases member with member | member
    · exact ⟨parents, Or.inl member, le_rfl⟩
    · obtain ⟨least, found, below⟩ := otherHolds.parents.bounded id parents member
      exact ⟨least, Or.inr found, below⟩
  · apply roots.widen
    · rintro ⟨id, reason⟩ ((member | member) | member)
      · exact Or.inl (Or.inl member)
      · exact Or.inr (conflicts_mono (Set.union_subset_union_right inserted sub) member)
      · rcases otherHolds.quarantineRoots.entered id reason member with known | known
        · exact Or.inl (Or.inr known)
        · exact Or.inr (conflicts_mono Set.subset_union_right known)
    · -- A reason of the other side is bounded by the one that it keeps.
      have carried : ∀ id reason, (id, reason) ∈ otherRejected ∪ conflicts more →
          ∃ smaller, (id, smaller) ∈ (rejected ∪ conflicts (inserted ∪ entriesOf other.parents)) ∪
            entriesOf other.quarantineRoots ∧ smaller ≤ reason := by
        intro id reason member
        obtain ⟨least, found, below⟩ := otherHolds.quarantineRoots.bounded id reason member
        exact ⟨least, Or.inr found, below⟩
      -- One parent set from each side.
      have across : ∀ id first second, (id, first) ∈ inserted → (id, second) ∈ more →
          first ≠ second → ∃ smaller,
            (id, smaller) ∈ (rejected ∪ conflicts (inserted ∪ entriesOf other.parents)) ∪
              entriesOf other.quarantineRoots ∧ smaller ≤ conflictingParentsReason := by
        intro id first second left right apart
        obtain ⟨least, found, _⟩ := otherHolds.parents.bounded id second right
        by_cases same : first = least
        · apply carried id
          have kept : (id, least) ∈ more := sub found
          exact Or.inr ⟨rfl, least, second, kept, right, same ▸ apart⟩
        · exact ⟨_, Or.inl (Or.inr ⟨rfl, first, least, Or.inl left, Or.inr found, same⟩), le_rfl⟩
      rintro id reason ((member | member) | ⟨rfl, first, second, left, right, apart⟩)
      · exact ⟨reason, Or.inl (Or.inl member), le_rfl⟩
      · exact carried id reason (Or.inl member)
      · rcases left with left | left <;> rcases right with right | right
        · exact ⟨_, Or.inl (Or.inr ⟨rfl, first, second, Or.inl left, Or.inl right, apart⟩), le_rfl⟩
        · exact across id first second left right apart
        · exact across id second first right left (Ne.symm apart)
        · exact carried id _ (Or.inr ⟨rfl, first, second, left, right, apart⟩)

theorem indexes_entries (graph : CausalGraph Id) :
    Indexes graph (entriesOf graph.parents) (entriesOf graph.quarantineRoots) where
  parents := ⟨fun _ _ found => found, fun _ parents found => ⟨parents, found, le_rfl⟩⟩
  quarantineRoots := by
    have functional : conflicts (entriesOf graph.parents) = ∅ := by
      apply Set.eq_empty_of_forall_notMem
      rintro ⟨id, reason⟩ ⟨_, first, second, left, right, apart⟩
      change graph.parents[id]? = some first at left
      change graph.parents[id]? = some second at right
      rw [left] at right
      injection right with same
      exact apart same
    rw [functional, Set.union_empty]
    exact ⟨fun _ _ found => found, fun _ reason found => ⟨reason, found, le_rfl⟩⟩

/-- A union of graphs that agree on the parent sets they share rejects in its own
right what either of them does. -/
theorem mem_quarantineRoots_union (wellFormed : other.WellFormed)
    (agree : ∀ (id : Id) (left right : List Id), graph.parents[id]? = some left →
      other.parents[id]? = some right → left = right) (id : Id) :
    id ∈ (graph.union other).quarantineRoots ↔
      id ∈ graph.quarantineRoots ∨ id ∈ other.quarantineRoots := by
  have union := (union_indexes (indexes_entries graph) (indexes_entries other)
    wellFormed).quarantineRoots
  have functional : conflicts (entriesOf graph.parents ∪ entriesOf other.parents) = ∅ := by
    apply Set.eq_empty_of_forall_notMem
    rintro ⟨key, reason⟩ ⟨_, first, second, left, right, apart⟩
    apply apart
    rcases left with left | left <;> rcases right with right | right
    · exact Option.some.inj (left.symm.trans right)
    · exact agree key first second left right
    · exact (agree key second first right left).symm
    · exact Option.some.inj (left.symm.trans right)
  rw [functional, Set.union_empty] at union
  simp only [BTreeMap.mem_iff_getElem?]
  constructor
  · intro ⟨reason, found⟩
    exact (union.entered id reason found).imp (fun member => ⟨reason, member⟩)
      fun member => ⟨reason, member⟩
  · rintro (⟨reason, found⟩ | ⟨reason, found⟩)
    · obtain ⟨least, kept, _⟩ := union.bounded id reason (Or.inl found)
      exact ⟨least, kept⟩
    · obtain ⟨least, kept, _⟩ := union.bounded id reason (Or.inr found)
      exact ⟨least, kept⟩

/-! ### The graph of a run -/

/-- The entered parent sets, the reasons that are not inherited and the cycles
of the parent map determine all four fields. -/
theorem graph_unique (first : Indexes graph inserted rejected)
    (second : Indexes other inserted rejected) (wellFormed : graph.WellFormed)
    (otherWellFormed : other.WellFormed) (derived : graph.recomputeQuarantine = graph)
    (otherDerived : other.recomputeQuarantine = other) : graph = other := by
  have parents := first.parents.unique second.parents
  have roots := first.quarantineRoots.unique second.quarantineRoots
  have cyclic : graph.cyclic = other.cyclic := by
    apply Std.ExtTreeSet.ext_mem
    intro id
    rw [wellFormed.cyclic_iff, otherWellFormed.cyclic_iff, CausalGraph.ancestor_congr parents]
  rw [← derived, ← otherDerived]
  unfold CausalGraph.recomputeQuarantine CausalGraph.propagationRound CausalGraph.parentsOf
  rw [parents, roots, cyclic]

namespace Run

theorem indexes (run : Run Id) : Indexes run.graph run.inserted run.rejected := by
  induction run with
  | new => exact new_indexes
  | insert run id parents ih => exact insert_indexes ih id parents
  | quarantine run id reason ih => exact quarantine_indexes ih id reason
  | union left right leftHolds rightHolds =>
    exact union_indexes leftHolds rightHolds right.wellFormed

theorem recomputeQuarantine_graph (run : Run Id) :
    run.graph.recomputeQuarantine = run.graph := by
  induction run with
  | new => rfl
  | insert run id parents ih =>
    show (run.graph.insert id parents).graph.recomputeQuarantine = (run.graph.insert id parents).graph
    unfold CausalGraph.insert
    dsimp only
    split
    · split
      · exact ih
      · rfl
    · rfl
  | quarantine => rfl
  | union => rfl

theorem graph_congr {first second : Run Id} (inserted : first.inserted = second.inserted)
    (rejected : first.rejected = second.rejected) : first.graph = second.graph := by
  have indexes := second.indexes
  rw [← inserted, ← rejected] at indexes
  exact graph_unique first.indexes indexes first.wellFormed second.wellFormed
    first.recomputeQuarantine_graph second.recomputeQuarantine_graph

theorem inserted_andThen (first second : Run Id) :
    (first.andThen second).inserted = first.inserted ∪ second.inserted := by
  induction second with
  | new => exact (Set.union_empty _).symm
  | insert run id parents ih =>
    show {(id, normalizeParents parents)} ∪ (first.andThen run).inserted = _
    rw [ih, Set.union_left_comm]
    rfl
  | quarantine run id reason ih => exact ih
  | union left right ih _ =>
    show (first.andThen left).inserted ∪ right.inserted = _
    rw [ih, Set.union_assoc]
    rfl

omit [LinearOrder Id] in
theorem rejected_andThen (first second : Run Id) :
    (first.andThen second).rejected = first.rejected ∪ second.rejected := by
  induction second with
  | new => exact (Set.union_empty _).symm
  | insert run id parents ih => exact ih
  | quarantine run id reason ih =>
    show {(id, reason)} ∪ (first.andThen run).rejected = _
    rw [ih, Set.union_left_comm]
    rfl
  | union left right ih _ =>
    show (first.andThen left).rejected ∪ right.rejected = _
    rw [ih, Set.union_assoc]
    rfl

theorem union_comm (left right : Run Id) :
    left.graph.union right.graph = right.graph.union left.graph := by
  show (left.union right).graph = (right.union left).graph
  exact graph_congr (Set.union_comm _ _) (Set.union_comm _ _)

theorem union_assoc (left middle right : Run Id) :
    (left.graph.union middle.graph).union right.graph =
      left.graph.union (middle.graph.union right.graph) := by
  show ((left.union middle).union right).graph = (left.union (middle.union right)).graph
  exact graph_congr (Set.union_assoc _ _ _) (Set.union_assoc _ _ _)

theorem union_self (run : Run Id) : run.graph.union run.graph = run.graph := by
  show (run.union run).graph = run.graph
  exact graph_congr (Set.union_self _) (Set.union_self _)

theorem graph_andThen (first second : Run Id) :
    (first.andThen second).graph = first.graph.union second.graph := by
  show (first.andThen second).graph = (first.union second).graph
  exact graph_congr (inserted_andThen first second) (rejected_andThen first second)

/-- The graph depends on nothing but what was inserted and quarantined, so union
is the join of what the two graphs were told. -/
theorem graph_joinSemilattice :
    (∃ index : Set (Id × List Id) → Set (Id × String) → CausalGraph Id,
      ∀ run : Run Id, run.graph = index run.inserted run.rejected) ∧
    ∀ left middle right : Run Id,
      left.graph.union right.graph = right.graph.union left.graph ∧
      (left.graph.union middle.graph).union right.graph =
        left.graph.union (middle.graph.union right.graph) ∧
      left.graph.union left.graph = left.graph ∧
      left.graph.union right.graph = (left.andThen right).graph := by
  constructor
  · classical
    let index (inserted : Set (Id × List Id)) (rejected : Set (Id × String)) : CausalGraph Id :=
      if built : ∃ run : Run Id, run.inserted = inserted ∧ run.rejected = rejected
        then built.choose.graph else .new
    refine ⟨index, ?_⟩
    intro run
    have built : ∃ other : Run Id, other.inserted = run.inserted ∧ other.rejected = run.rejected :=
      ⟨run, rfl, rfl⟩
    show run.graph = if _ : _ then _ else _
    rw [dif_pos built]
    exact graph_congr built.choose_spec.1.symm built.choose_spec.2.symm
  · intro left middle right
    exact ⟨union_comm left right, union_assoc left middle right, union_self left,
      (graph_andThen left right).symm⟩

end Run

/-- A causal graph that some run built. -/
abbrev BuiltGraph (Id : Type) [LinearOrder Id] :=
  {graph : CausalGraph Id // ∃ run : Run Id, run.graph = graph}

namespace BuiltGraph

instance : Max (BuiltGraph Id) where
  max left right := ⟨left.1.union right.1, by
    obtain ⟨first, same⟩ := left.2
    obtain ⟨second, other⟩ := right.2
    exact ⟨.union first second, by rw [← same, ← other]; rfl⟩⟩

/-- Replicas that only exchange graphs climb in one order, and meet at its joins. -/
instance : SemilatticeSup (BuiltGraph Id) :=
  SemilatticeSup.mk'
    (by
      rintro ⟨_, left, rfl⟩ ⟨_, right, rfl⟩
      exact Subtype.ext (Run.union_comm left right))
    (by
      rintro ⟨_, left, rfl⟩ ⟨_, middle, rfl⟩ ⟨_, right, rfl⟩
      exact Subtype.ext (Run.union_assoc left middle right))
    (by
      rintro ⟨_, run, rfl⟩
      exact Subtype.ext (Run.union_self run))

end BuiltGraph

end Nook.Replication
