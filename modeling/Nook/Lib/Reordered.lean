import Mathlib.Data.List.Sort
import Nook.Lib.Except

set_option autoImplicit false

namespace Nook.Lib

variable {α β ε : Type}

/-! ### Traversals of a reordered list -/

theorem mapM_cons_eq_ok {step : α → Except ε β} {head : α} {tail : List α} {results : List β} :
    (head :: tail).mapM step = .ok results ↔
      ∃ first others, step head = .ok first ∧ tail.mapM step = .ok others ∧
        results = first :: others := by
  rw [List.mapM_cons]
  constructor
  · intro collected
    obtain ⟨first, headOk, collected⟩ := bind_eq_ok.mp collected
    obtain ⟨others, tailOk, same⟩ := bind_eq_ok.mp collected
    cases same
    exact ⟨first, others, headOk, tailOk, rfl⟩
  · rintro ⟨first, others, headOk, tailOk, rfl⟩
    exact bind_eq_ok.mpr ⟨first, headOk, bind_eq_ok.mpr ⟨others, tailOk, rfl⟩⟩

/-- A traversal that succeeds succeeds in any order, and collects the same. -/
theorem mapM_perm {step : α → Except ε β} {list other : List α} (reordered : list.Perm other)
    {results : List β} (collected : list.mapM step = .ok results) :
    ∃ results', other.mapM step = .ok results' ∧ results.Perm results' := by
  induction reordered generalizing results with
  | nil => exact ⟨results, collected, .refl _⟩
  | cons head _ ih =>
    obtain ⟨first, others, headOk, tailOk, rfl⟩ := mapM_cons_eq_ok.mp collected
    obtain ⟨others', collected', permuted⟩ := ih tailOk
    exact ⟨first :: others', mapM_cons_eq_ok.mpr ⟨first, others', headOk, collected', rfl⟩,
      permuted.cons first⟩
  | swap left right rest =>
    obtain ⟨first, others, rightOk, tailOk, rfl⟩ := mapM_cons_eq_ok.mp collected
    obtain ⟨second, others, leftOk, restOk, rfl⟩ := mapM_cons_eq_ok.mp tailOk
    have inner : (right :: rest).mapM step = .ok (first :: others) :=
      mapM_cons_eq_ok.mpr ⟨first, others, rightOk, restOk, rfl⟩
    exact ⟨second :: first :: others, mapM_cons_eq_ok.mpr ⟨second, _, leftOk, inner, rfl⟩, .swap ..⟩
  | trans _ _ first second =>
    obtain ⟨middle, collected', permuted⟩ := first collected
    obtain ⟨results', collected'', permuted'⟩ := second collected'
    exact ⟨results', collected'', permuted.trans permuted'⟩

/-! ### Lists sorted by a key -/

section
variable (key : α → Nat)

def sortByKey (list : List α) : List α := list.insertionSort fun left right => key left ≤ key right

theorem sortByKey_perm (list : List α) : (sortByKey key list).Perm list :=
  List.perm_insertionSort _ list

theorem sortByKey_sorted (list : List α) :
    ((sortByKey key list).map key).Pairwise (· ≤ ·) := by
  let le : α → α → Prop := fun left right => key left ≤ key right
  have total : Std.Total le := ⟨fun left right => Nat.le_total (key left) (key right)⟩
  have transitive : IsTrans α le := ⟨fun _ _ _ first second => Nat.le_trans first second⟩
  rw [List.pairwise_map]
  exact List.pairwise_insertionSort le list

/-- Lists of the same elements with distinct keys are sorted alike. -/
theorem sortByKey_eq_of_perm {list other : List α} (reordered : list.Perm other)
    (distinct : (list.map key).Nodup) : sortByKey key list = sortByKey key other := by
  have permuted : (sortByKey key list).Perm (sortByKey key other) :=
    (sortByKey_perm key list).trans (reordered.trans (sortByKey_perm key other).symm)
  have sorted := List.pairwise_map.mp (sortByKey_sorted key list)
  have sorted' := List.pairwise_map.mp (sortByKey_sorted key other)
  apply permuted.eq_of_pairwise _ sorted sorted'
  intro left right leftIn rightIn below above
  have inside := (sortByKey_perm key list).subset leftIn
  have inside' := reordered.symm.subset ((sortByKey_perm key other).subset rightIn)
  exact List.inj_on_of_nodup_map distinct inside inside' (Nat.le_antisymm below above)

/-- A list whose keys are the first numbers is sorted to have each key at its position. -/
theorem map_sortByKey_of_perm_range {list : List α}
    (whole : (list.map key).Perm (List.range list.length)) :
    (sortByKey key list).map key = List.range list.length := by
  have permuted : ((sortByKey key list).map key).Perm (List.range list.length) :=
    ((sortByKey_perm key list).map key).trans whole
  have sorted := sortByKey_sorted key list
  have ordered : (List.range list.length).Pairwise (· ≤ ·) := List.pairwise_le_range
  exact permuted.eq_of_pairwise (fun _ _ _ _ below above => Nat.le_antisymm below above) sorted
    ordered

/-- Whether every key is the position of its element. -/
theorem any_zipIdx_eq_false (list : List α) (start : Nat) :
    (list.zipIdx start).any (fun entry => entry.2 != key entry.1) = false ↔
      list.map key = List.range' start list.length := by
  induction list generalizing start with
  | nil => simp
  | cons head tail ih =>
    rw [List.zipIdx_cons, List.any_cons, Bool.or_eq_false_iff, ih, List.map_cons, List.length_cons,
      List.range'_succ, List.cons.injEq]
    have position : (start != key head) = false ↔ key head = start := by
      rw [bne_eq_false_iff_eq, eq_comm]
    rw [position]

end

end Nook.Lib
