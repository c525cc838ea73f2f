import Nook.Lib.OrderedMap

set_option autoImplicit false

namespace Nook.Lib

variable {Key Value : Type} [LinearOrder Key] [LinearOrder Value]

/-- Record a value under a key unless a smaller one is already there. -/
def keepLeast (map : BTreeMap Key Value) (key : Key) (value : Value) : BTreeMap Key Value :=
  match map[key]? with
  | none => map.insert key value
  | some existing => if value < existing then map.insert key value else map

theorem keepLeast_absent {map : BTreeMap Key Value} {key : Key} {value : Value}
    (absent : map[key]? = none) : keepLeast map key value = map.insert key value := by
  unfold keepLeast
  rw [absent]

theorem keepLeast_found {map : BTreeMap Key Value} {key : Key} {value existing : Value}
    [Decidable (value < existing)] (found : map[key]? = some existing) :
    keepLeast map key value = if value < existing then map.insert key value else map := by
  unfold keepLeast
  rw [found]
  dsimp only
  congr

/-- The map holds under every key the least of the values that were entered there. -/
structure HoldsLeast (map : BTreeMap Key Value) (entries : Set (Key × Value)) : Prop where
  entered : ∀ (key : Key) (value : Value), map[key]? = some value → (key, value) ∈ entries
  bounded : ∀ (key : Key) (value : Value), (key, value) ∈ entries →
    ∃ least, map[key]? = some least ∧ least ≤ value

namespace HoldsLeast

variable {map other : BTreeMap Key Value} {entries more : Set (Key × Value)}

theorem isLeast (holds : HoldsLeast map entries) {key : Key} {value : Value}
    (found : map[key]? = some value) : IsLeast {value | (key, value) ∈ entries} value := by
  refine ⟨holds.entered key value found, ?_⟩
  intro entry member
  obtain ⟨least, same, below⟩ := holds.bounded key entry member
  rw [found] at same
  injection same with same
  rwa [same]

theorem empty : HoldsLeast (∅ : BTreeMap Key Value) ∅ where
  entered := by simp
  bounded := by simp

/-- The entries determine the map. -/
theorem unique (first : HoldsLeast map entries) (second : HoldsLeast other entries) :
    map = other := by
  apply BTreeMap.ext
  intro key
  cases found : map[key]? with
  | some value =>
    obtain ⟨least, same, _⟩ := second.bounded key value (first.entered key value found)
    rw [same, (first.isLeast found).unique (second.isLeast same)]
  | none =>
    rw [eq_comm, ← BTreeMap.not_mem_iff_getElem?, BTreeMap.mem_iff_getElem?]
    rintro ⟨value, same⟩
    obtain ⟨least, known, _⟩ := first.bounded key value (second.entered key value same)
    rw [found] at known
    cases known

/-- Entries that some smaller entry of the same key covers change nothing. -/
theorem widen (holds : HoldsLeast map entries) (kept : entries ⊆ more)
    (covered : ∀ (key : Key) (value : Value), (key, value) ∈ more →
      ∃ smaller, (key, smaller) ∈ entries ∧ smaller ≤ value) : HoldsLeast map more where
  entered key value found := kept (holds.entered key value found)
  bounded key value member := by
    obtain ⟨smaller, old, below⟩ := covered key value member
    obtain ⟨least, found, least_le⟩ := holds.bounded key smaller old
    exact ⟨least, found, least_le.trans below⟩

theorem keepLeast (holds : HoldsLeast map entries) (key : Key) (value : Value) :
    HoldsLeast (keepLeast map key value) (insert (key, value) entries) := by
  have replaced (smaller : ∀ existing, map[key]? = some existing → value ≤ existing) :
      HoldsLeast (map.insert key value) (insert (key, value) entries) := by
    constructor
    · intro other entry found
      rw [BTreeMap.getElem?_insert_eq] at found
      split at found
      · rename_i same
        injection found with equal
        exact Or.inl (Prod.ext same.symm equal.symm)
      · exact Or.inr (holds.entered other entry found)
    · intro other entry member
      by_cases same : key = other
      · subst same
        refine ⟨value, by rw [BTreeMap.getElem?_insert_eq, if_pos rfl], ?_⟩
        rcases member with equal | member
        · exact (congrArg Prod.snd equal).ge
        · obtain ⟨existing, found, below⟩ := holds.bounded key entry member
          exact (smaller existing found).trans below
      · rw [BTreeMap.getElem?_insert_eq, if_neg same]
        rcases member with equal | member
        · exact absurd (congrArg Prod.fst equal).symm same
        · exact holds.bounded other entry member
  cases found : map[key]? with
  | none =>
    rw [keepLeast_absent found]
    apply replaced
    intro existing same
    rw [found] at same
    cases same
  | some existing =>
    rw [keepLeast_found found]
    split
    · rename_i below
      apply replaced
      intro other same
      rw [found] at same
      injection same with same
      exact same ▸ below.le
    · rename_i above
      apply holds.widen (Set.subset_insert _ _)
      intro other entry member
      rcases member with equal | member
      · injection equal with sameKey sameValue
        subst sameKey sameValue
        exact ⟨existing, holds.entered other existing found, not_lt.mp above⟩
      · exact ⟨entry, member, le_rfl⟩

/-- Entering the content of a map. -/
theorem foldl (holds : HoldsLeast map entries) (content : BTreeMap Key Value) :
    HoldsLeast (content.toList.foldl (fun map entry => Lib.keepLeast map entry.1 entry.2) map)
      (entries ∪ {entry | content[entry.1]? = some entry.2}) := by
  have general : ∀ (list : List (Key × Value)) (map : BTreeMap Key Value)
      (entries : Set (Key × Value)), HoldsLeast map entries →
        HoldsLeast (list.foldl (fun map entry => Lib.keepLeast map entry.1 entry.2) map)
          (entries ∪ {entry | entry ∈ list}) := by
    intro list
    induction list with
    | nil => simp
    | cons head tail ih =>
      intro map entries holds
      have grown := ih _ _ (holds.keepLeast head.1 head.2)
      have same : insert (head.1, head.2) entries ∪ {entry | entry ∈ tail} =
          entries ∪ {entry | entry ∈ head :: tail} := by
        ext entry
        simp only [Set.mem_union, Set.mem_insert_iff, Set.mem_ofPred_eq, List.mem_cons]
        tauto
      rwa [same] at grown
  have read : {entry | entry ∈ content.toList} = {entry | content[entry.1]? = some entry.2} := by
    ext entry
    exact Std.ExtTreeMap.mem_toList_iff_getElem?_eq_some
  rw [← read]
  exact general content.toList map entries holds

end HoldsLeast

end Nook.Lib
