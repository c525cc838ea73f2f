import Mathlib.Data.List.Nodup
import Mathlib.Data.List.InsertIdx

set_option autoImplicit false

namespace Nook.Lib

variable {α β : Type}

/-! ### The first element of a list that a test accepts -/

/-- Replace the first element that passes. -/
def updateFirst (test : α → Bool) (f : α → α) : List α → List α
  | [] => []
  | head :: tail => if test head then f head :: tail else head :: updateFirst test f tail

theorem map_updateFirst (test : α → Bool) (f : α → α) (g : α → β)
    (same : ∀ a, test a = true → g (f a) = g a) (list : List α) :
    (updateFirst test f list).map g = list.map g := by
  induction list with
  | nil => rfl
  | cons head tail ih =>
    by_cases passed : test head = true
    · simp [updateFirst, passed, same head passed]
    · simp [updateFirst, passed, ih]

theorem mem_updateFirst {test : α → Bool} {f : α → α} {list : List α} {a : α}
    (member : a ∈ updateFirst test f list) :
    a ∈ list ∨ ∃ b ∈ list, test b = true ∧ a = f b := by
  induction list with
  | nil => cases member
  | cons head tail ih =>
    by_cases passed : test head = true
    · simp only [updateFirst, passed, if_true, List.mem_cons] at member
      rcases member with same | later
      · exact Or.inr ⟨head, by simp, passed, same⟩
      · exact Or.inl (by simp [later])
    · rw [updateFirst, if_neg passed, List.mem_cons] at member
      rcases member with same | later
      · exact Or.inl (by simp [same])
      · rcases ih later with before | ⟨b, inside, tested, same⟩
        · exact Or.inl (by simp [before])
        · exact Or.inr ⟨b, by simp [inside], tested, same⟩

theorem mem_of_findIdx? {test : α → Bool} {list : List α} {index : Nat}
    (found : list.findIdx? test = some index) :
    ∃ before a after, list = before ++ a :: after ∧ before.length = index ∧ test a = true ∧
      ∀ b ∈ before, test b = false := by
  obtain ⟨bound, passed, first⟩ := List.findIdx?_eq_some_iff_getElem.mp found
  refine ⟨list.take index, list[index], list.drop (index + 1), ?_, ?_, passed, ?_⟩
  · simp
  · simp only [List.length_take]
    omega
  · intro b member
    obtain ⟨position, inside, rfl⟩ := List.mem_take_iff_getElem.mp member
    simpa using first position (by omega)

/-- The element at the place of the first match is the first match. -/
theorem split_of_find? {test : α → Bool} {list : List α} {index : Nat} {a : α}
    (placed : list.findIdx? test = some index) (found : list.find? test = some a) :
    ∃ before after, list = before ++ a :: after ∧ before.length = index ∧ test a = true := by
  obtain ⟨before, first, after, split, place, passed, earlier⟩ := mem_of_findIdx? placed
  have same : list.find? test = some first := by
    rw [split, List.find?_append, List.find?_eq_none.mpr]
    · simp [passed]
    · exact fun other inside => by simp [earlier other inside]
  rw [found, Option.some.injEq] at same
  exact ⟨before, after, same ▸ split, place, same ▸ passed⟩

/-! ### Replacing elements at their places -/

/-- What replaces the first match is the first match, when it passes. -/
theorem find?_set {test : α → Bool} {list : List α} {index : Nat} {a : α}
    (placed : list.findIdx? test = some index) (passed : test a = true) :
    (list.set index a).find? test = some a := by
  obtain ⟨before, first, after, split, place, _, earlier⟩ := mem_of_findIdx? placed
  have replaced : list.set index a = before ++ a :: after := by
    rw [split, ← place, List.set_append_right _ _ (Nat.le_refl _), Nat.sub_self]
    rfl
  rw [replaced, List.find?_append, List.find?_eq_none.mpr]
  · simp [passed]
  · exact fun other inside => by simp [earlier other inside]

theorem map_set_eq {f : α → β} {list : List α} {index : Nat} {a : α}
    (placed : (list.map f)[index]? = some (f a)) : (list.set index a).map f = list.map f := by
  rw [List.map_set]
  apply List.ext_getElem?
  intro place
  by_cases same : index = place
  · subst same
    rw [List.getElem?_set_self', placed]
    rfl
  · rw [List.getElem?_set_ne same]

theorem map_foldl_set {f : α → β} {replacements : List (Nat × α)} {list : List α}
    (placed : ∀ replacement ∈ replacements,
      (list.map f)[replacement.1]? = some (f replacement.2)) :
    (replacements.foldl (fun list replacement => list.set replacement.1 replacement.2) list).map f =
      list.map f := by
  induction replacements generalizing list with
  | nil => rfl
  | cons head tail ih =>
    have same := map_set_eq (placed head (by simp))
    rw [List.foldl_cons, ih, same]
    intro replacement member
    rw [same]
    exact placed replacement (by simp [member])

theorem mem_foldl_set {replacements : List (Nat × α)} {list : List α} {a : α}
    (member : a ∈ replacements.foldl
      (fun list replacement => list.set replacement.1 replacement.2) list) :
    a ∈ list ∨ ∃ replacement ∈ replacements, replacement.2 = a := by
  induction replacements generalizing list with
  | nil => exact Or.inl member
  | cons head tail ih =>
    rcases ih member with placed | ⟨replacement, inside, same⟩
    · rcases List.mem_or_eq_of_mem_set placed with before | rfl
      · exact Or.inl before
      · exact Or.inr ⟨head, by simp, rfl⟩
    · exact Or.inr ⟨replacement, by simp [inside], same⟩

theorem length_foldl_set (replacements : List (Nat × α)) (list : List α) :
    (replacements.foldl (fun list replacement => list.set replacement.1 replacement.2) list).length =
      list.length := by
  induction replacements generalizing list with
  | nil => rfl
  | cons head tail ih => rw [List.foldl_cons, ih, List.length_set]

/-- The last replacement stays in its place. -/
theorem last_mem_foldl_set (replacements : List (Nat × α)) {last : Nat × α} {list : List α}
    (bound : last.1 < list.length) : last.2 ∈ (replacements ++ [last]).foldl
      (fun list replacement => list.set replacement.1 replacement.2) list := by
  rw [List.foldl_append]
  apply List.mem_set
  rw [length_foldl_set]
  exact bound

end Nook.Lib
