import Nook.Replication.CausalGraph

set_option autoImplicit false

namespace Nook.Replication

open Nook.Lib Relation

variable {Id : Type} [LinearOrder Id]

theorem mem_normalizeParents (parents : List Id) (id : Id) :
    id ∈ normalizeParents parents ↔ id ∈ parents := by
  simp [normalizeParents, Std.ExtTreeSet.mem_toList, Std.ExtTreeSet.mem_ofList]

theorem mem_mergeQuarantineReason (reasons : BTreeMap Id String) (id other : Id)
    (reason : String) :
    other ∈ mergeQuarantineReason reasons id reason ↔ id = other ∨ other ∈ reasons := by
  unfold mergeQuarantineReason
  split
  · exact BTreeMap.mem_insert_eq reasons id other reason
  · rename_i existing found
    have known : id ∈ reasons := BTreeMap.mem_of_getElem? found
    split
    · exact BTreeMap.mem_insert_eq reasons id other reason
    · constructor
      · exact Or.inr
      · rintro (rfl | member)
        · exact known
        · exact member

theorem mem_foldl_mergeQuarantineReason (ids : List Id) (reason : String) (other : Id)
    (reasons : BTreeMap Id String) :
    other ∈ ids.foldl (fun merged id => mergeQuarantineReason merged id reason) reasons ↔
      other ∈ ids ∨ other ∈ reasons := by
  induction ids generalizing reasons with
  | nil => simp
  | cons id ids ih =>
    rw [List.foldl_cons, ih, mem_mergeQuarantineReason]
    simp only [List.mem_cons]
    constructor <;> rintro (left | right) <;> tauto

namespace CausalGraph

variable (graph : CausalGraph Id)

/-- `parent` is recorded as a parent of `child`. -/
def Edge (parent child : Id) : Prop := parent ∈ graph.parentsOf child

/-- `ancestor` is `descendant` or causally before it. -/
def AncestorOrSelf : Id → Id → Prop := ReflTransGen graph.Edge

/-- `ancestor` is causally before `descendant`; on a cycle also of itself. -/
def Ancestor : Id → Id → Prop := TransGen graph.Edge

@[simp] theorem contains_iff (id : Id) : graph.contains id = true ↔ id ∈ graph.parents :=
  Std.ExtTreeMap.contains_iff_mem

theorem parentsOf_known {id : Id} {parents : List Id} (found : graph.parents[id]? = some parents) :
    graph.parentsOf id = parents := by
  simp only [parentsOf, found, Option.getD_some]

theorem parentsOf_unknown {id : Id} (absent : id ∉ graph.parents) : graph.parentsOf id = [] := by
  rw [BTreeMap.not_mem_iff_getElem?] at absent
  simp only [parentsOf, absent, Option.getD_none]

theorem Edge.known {graph : CausalGraph Id} {parent child : Id} (edge : graph.Edge parent child) :
    child ∈ graph.parents := by
  by_contra absent
  simp [Edge, parentsOf_unknown graph absent] at edge

theorem edge_iff (parent child : Id) :
    graph.Edge parent child ↔ ∃ parents, graph.parents[child]? = some parents ∧ parent ∈ parents := by
  constructor
  · intro edge
    obtain ⟨parents, found⟩ := (BTreeMap.mem_iff_getElem? _ _).mp edge.known
    exact ⟨parents, found, by simpa only [Edge, parentsOf_known graph found] using edge⟩
  · rintro ⟨parents, found, member⟩
    simpa only [Edge, parentsOf_known graph found] using member

theorem visits_visitOrder (stack : List Id) :
    Visits graph.parentsOf stack.reverse [] (graph.visitOrder stack) := by
  apply visitFrom_visits graph.parentsOf graph.parents.keys Std.ExtTreeMap.nodup_keys
  · intro id absent
    exact graph.parentsOf_unknown (by simpa [Std.ExtTreeMap.mem_keys] using absent)
  · simp [pendingPushes, edgeCount]

theorem mem_visitOrder (stack : List Id) (id : Id) :
    id ∈ graph.visitOrder stack ↔ ∃ start ∈ stack, graph.AncestorOrSelf id start := by
  rw [(graph.visits_visitOrder stack).mem_iff]
  have swap : ∀ start, ReflTransGen (fun a b => b ∈ graph.parentsOf a) start id ↔
      graph.AncestorOrSelf id start := fun start => reflTransGen_swap
  simp only [List.mem_reverse, swap]

theorem ancestorIdsPresent_iff (parents : List Id) :
    graph.ancestorIdsPresent parents = true ↔
      ∀ ancestor, ∀ parent ∈ parents, graph.AncestorOrSelf ancestor parent →
        ancestor ∈ graph.parents := by
  simp only [ancestorIdsPresent, List.all_eq_true, mem_visitOrder, contains_iff]
  constructor
  · intro present ancestor parent member path
    exact present ancestor ⟨parent, member, path⟩
  · rintro present ancestor ⟨parent, member, path⟩
    exact present ancestor parent member path

/-- Known, with every ancestor known. -/
def Present (id : Id) : Prop := ∀ ancestor, graph.AncestorOrSelf ancestor id → ancestor ∈ graph.parents

variable {graph}

theorem ancestorOrSelf_cases {ancestor descendant : Id}
    (path : graph.AncestorOrSelf ancestor descendant) :
    ancestor = descendant ∨
      ∃ parent ∈ graph.parentsOf descendant, graph.AncestorOrSelf ancestor parent := by
  rcases ReflTransGen.cases_tail path with same | ⟨parent, path, edge⟩
  · exact Or.inl same.symm
  · exact Or.inr ⟨parent, edge, path⟩

theorem Present.known {id : Id} (present : graph.Present id) : id ∈ graph.parents :=
  present id .refl

theorem Present.ancestor {ancestor id : Id} (present : graph.Present id)
    (path : graph.AncestorOrSelf ancestor id) : graph.Present ancestor :=
  fun older olderPath => present older (olderPath.trans path)

theorem ancestorsPresent_iff (id : Id) : graph.ancestorsPresent id = true ↔ graph.Present id := by
  unfold ancestorsPresent
  split
  · rename_i absent
    have unknown := (BTreeMap.not_mem_iff_getElem? _ _).mpr absent
    simp only [Bool.false_eq_true, false_iff]
    exact fun present => unknown present.known
  · rename_i parents found
    rw [ancestorIdsPresent_iff]
    constructor
    · intro present ancestor path
      rcases ancestorOrSelf_cases path with rfl | ⟨parent, edge, path⟩
      · exact BTreeMap.mem_of_getElem? found
      · exact present ancestor parent (by rwa [parentsOf_known graph found] at edge) path
    · intro present ancestor parent member path
      exact present ancestor (path.tail ((edge_iff graph parent id).mpr ⟨parents, found, member⟩))

theorem isAncestor_iff (ancestor descendant : Id) :
    graph.isAncestor ancestor descendant = true ↔ graph.AncestorOrSelf ancestor descendant := by
  unfold isAncestor
  split
  · rename_i same
    subst same
    exact iff_of_true rfl .refl
  · rename_i apart
    split
    · rename_i absent
      simp only [Bool.false_eq_true, false_iff]
      intro path
      rcases ancestorOrSelf_cases path with same | ⟨parent, edge, _⟩
      · exact apart same
      · exact (BTreeMap.not_mem_iff_getElem? _ _).mpr absent (Edge.known edge)
    · rename_i parents found
      rw [List.contains_iff_mem, mem_visitOrder]
      constructor
      · rintro ⟨parent, member, path⟩
        exact path.tail ((edge_iff graph parent descendant).mpr ⟨parents, found, member⟩)
      · intro path
        rcases ancestorOrSelf_cases path with same | ⟨parent, edge, path⟩
        · exact absurd same apart
        · exact ⟨parent, by rwa [parentsOf_known graph found] at edge, path⟩

theorem isAncestor_iff_eq_or (ancestor descendant : Id) :
    graph.isAncestor ancestor descendant = true ↔
      ancestor = descendant ∨ graph.Ancestor ancestor descendant := by
  rw [isAncestor_iff, eq_comm]
  exact reflTransGen_iff_eq_or_transGen

theorem areConcurrent_iff (left right : Id) :
    graph.areConcurrent left right = true ↔
      ¬graph.AncestorOrSelf left right ∧ ¬graph.AncestorOrSelf right left ∧
        left ∈ graph.parents ∧ right ∈ graph.parents := by
  unfold areConcurrent
  simp only [Bool.and_eq_true, bne_iff_ne, ne_eq, Bool.not_eq_true', ← Bool.not_eq_true,
    isAncestor_iff, contains_iff]
  constructor
  · rintro ⟨⟨⟨⟨_, notLeft⟩, notRight⟩, leftKnown⟩, rightKnown⟩
    exact ⟨notLeft, notRight, leftKnown, rightKnown⟩
  · rintro ⟨notLeft, notRight, leftKnown, rightKnown⟩
    refine ⟨⟨⟨⟨?_, notLeft⟩, notRight⟩, leftKnown⟩, rightKnown⟩
    rintro rfl
    exact notLeft .refl

/-- Known, with every ancestor known, and not quarantined. -/
def Applicable (graph : CausalGraph Id) (id : Id) : Prop :=
  graph.Present id ∧ id ∉ graph.quarantined

theorem mem_applicableIds (id : Id) : id ∈ graph.applicableIds ↔ graph.Applicable id := by
  simp only [applicableIds, List.mem_filter, Std.ExtTreeMap.mem_keys, Bool.and_eq_true,
    Bool.not_eq_true', ← Bool.not_eq_true, Std.ExtTreeMap.contains_iff_mem, ancestorsPresent_iff]
  exact ⟨fun found => ⟨found.2.2, found.2.1⟩, fun found => ⟨found.1.known, found.2, found.1⟩⟩

theorem nodup_applicableIds : graph.applicableIds.Nodup :=
  Std.ExtTreeMap.nodup_keys.filter _

theorem length_applicableIds_lt {other : CausalGraph Id}
    (kept : ∀ id, other.Applicable id → graph.Applicable id) {lost : Id}
    (before : graph.Applicable lost) (after : ¬other.Applicable lost) :
    other.applicableIds.length < graph.applicableIds.length := by
  have inside : other.applicableIds.Subperm graph.applicableIds := by
    apply List.subperm_of_subset nodup_applicableIds
    intro id member
    rw [mem_applicableIds] at member ⊢
    exact kept id member
  by_contra short
  have same := inside.perm_of_length_le (not_lt.mp short)
  exact after ((mem_applicableIds lost).mp (same.mem_iff.mpr ((mem_applicableIds lost).mpr before)))

theorem present_congr {other : CausalGraph Id} (same : graph.parents = other.parents) (id : Id) :
    graph.Present id ↔ other.Present id := by
  have edges : graph.Edge = other.Edge := by
    funext parent child
    simp only [Edge, parentsOf, same]
  unfold Present AncestorOrSelf
  rw [edges, same]

/-- The applicable ids are listed in order. -/
theorem pairwise_applicableIds (graph : CausalGraph Id) : graph.applicableIds.Pairwise (· < ·) :=
  (Std.ExtTreeMap.ordered_keys.imp compare_lt_iff_lt.mp).filter _

theorem applicableIds_congr {other : CausalGraph Id}
    (same : ∀ id, graph.Applicable id ↔ other.Applicable id) :
    graph.applicableIds = other.applicableIds := by
  refine List.Perm.eq_of_pairwise (fun _ _ _ _ before after => absurd after before.asymm)
    (pairwise_applicableIds graph) (pairwise_applicableIds other) ?_
  rw [List.perm_ext_iff_of_nodup nodup_applicableIds nodup_applicableIds]
  intro id
  rw [mem_applicableIds, mem_applicableIds]
  exact same id

end CausalGraph

end Nook.Replication
