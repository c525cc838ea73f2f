import Mathlib.Data.List.Nodup

set_option autoImplicit false

namespace Nook.Lib

/-! ### Lists of rows in which a key names one row

A key is a function that gives some rows a value. Rows have an id of their own besides. -/

universe u v w

variable {α : Type u} {κ : Type v} {ι : Type w} {key : α → Option κ} {rows left right : List α}

/-- No two rows have one value of the key. -/
def Separates (key : α → Option κ) (rows : List α) : Prop :=
  ∀ row ∈ rows, ∀ other ∈ rows, ∀ value, key row = some value → key other = some value →
    row = other

/-- Whether a key separates rows depends on the rows that have the key only. -/
theorem Separates.mono (separates : Separates key right)
    (inside : ∀ row ∈ left, (key row).isSome = true → row ∈ right) : Separates key left := by
  intro row member other listed value named same
  have first := inside row member (by rw [named]; rfl)
  have second := inside other listed (by rw [same]; rfl)
  exact separates row first other second value named same

theorem separates_congr (same : ∀ row, (key row).isSome = true → (row ∈ left ↔ row ∈ right)) :
    Separates key left ↔ Separates key right := by
  constructor
  · intro separates
    exact separates.mono fun row member named => (same row named).mpr member
  · intro separates
    exact separates.mono fun row member named => (same row named).mp member

theorem separates_append : Separates key (left ++ right) ↔
    Separates key left ∧ Separates key right ∧
      ∀ row ∈ left, ∀ other ∈ right, ∀ value, key row = some value → key other = some value →
        row = other := by
  constructor
  · intro separates
    refine ⟨separates.mono fun row member _ => List.mem_append_left _ member,
      separates.mono fun row member _ => List.mem_append_right _ member, ?_⟩
    intro row member other listed
    exact separates row (List.mem_append_left _ member) other (List.mem_append_right _ listed)
  · intro ⟨first, second, across⟩ row member other listed value named same
    cases List.mem_append.mp member with
    | inl before =>
      cases List.mem_append.mp listed with
      | inl before' => exact first row before other before' value named same
      | inr after => exact across row before other after value named same
    | inr after =>
      cases List.mem_append.mp listed with
      | inl before => exact (across other before row after value same named).symm
      | inr after' => exact second row after other after' value named same

/-- One more row keeps a key separating exactly if no other row has its value. -/
theorem separates_cons {row : α} (fresh : row ∉ rows) : Separates key (row :: rows) ↔
    Separates key rows ∧ ∀ other ∈ rows, ∀ value, key row = some value → key other ≠ some value := by
  constructor
  · intro separates
    refine ⟨separates.mono fun other member _ => List.mem_cons_of_mem _ member, ?_⟩
    intro other member value named same
    have one := separates row List.mem_cons_self other (List.mem_cons_of_mem _ member) value
      named same
    exact fresh (one ▸ member)
  · intro ⟨separates, apart⟩ first member second listed value named same
    cases List.mem_cons.mp member with
    | inl head =>
      subst head
      cases List.mem_cons.mp listed with
      | inl head' => exact head'.symm
      | inr tail => exact absurd same (apart second tail value named)
    | inr tail =>
      cases List.mem_cons.mp listed with
      | inl head =>
        subst head
        exact absurd named (apart first tail value same)
      | inr tail' => exact separates first tail second tail' value named same

/-! ### Updating the row of an id -/

variable [DecidableEq ι] {id : α → ι} {change : α → α} {row other : α}

/-- The rows with the row of an id changed. -/
def updateRow (id : α → ι) (target : ι) (change : α → α) (rows : List α) : List α :=
  rows.map fun row => if id row = target then change row else row

omit [DecidableEq ι] in
/-- Rows of one id are one row. -/
theorem eq_of_id_eq (distinct : (rows.map id).Nodup) (member : row ∈ rows) (listed : other ∈ rows)
    (same : id row = id other) : row = other :=
  List.inj_on_of_nodup_map distinct member listed same

theorem map_id_updateRow (kept : ∀ row, id (change row) = id row) (target : ι) :
    (updateRow id target change rows).map id = rows.map id := by
  unfold updateRow
  rw [List.map_map]
  apply List.map_congr_left
  intro row member
  rw [Function.comp_apply]
  split
  · exact kept row
  · rfl

theorem updateRow_eq_self {target : ι} (same : ∀ row ∈ rows, id row = target → change row = row) :
    updateRow id target change rows = rows := by
  have each : ∀ row ∈ rows, (if id row = target then change row else row) = row := by
    intro row member
    split
    · rename_i named
      exact same row member named
    · rfl
  unfold updateRow
  rw [List.map_congr_left each, List.map_id']

/-- The updated rows are the changed row and the other rows. -/
theorem mem_updateRow (distinct : (rows.map id).Nodup) (member : row ∈ rows) :
    other ∈ updateRow id (id row) change rows ↔
      other = change row ∨ (other ∈ rows ∧ other ≠ row) := by
  unfold updateRow
  rw [List.mem_map]
  constructor
  · intro ⟨own, listed, made⟩
    by_cases named : id own = id row
    · rw [if_pos named] at made
      have one := eq_of_id_eq distinct listed member named
      exact Or.inl (one ▸ made.symm)
    · rw [if_neg named] at made
      subst made
      exact Or.inr ⟨listed, fun same => named (congrArg id same)⟩
  · intro found
    cases found with
    | inl changed => exact ⟨row, member, by rw [if_pos rfl, changed]⟩
    | inr listed =>
      refine ⟨other, listed.1, if_neg ?_⟩
      intro named
      exact listed.2 (eq_of_id_eq distinct listed.1 member named)

/-- A changed row keeps a key separating exactly if no other row has its new value. -/
theorem separates_updateRow (distinct : (rows.map id).Nodup) (member : row ∈ rows)
    (kept : ∀ row, id (change row) = id row) (separates : Separates key rows) :
    Separates key (updateRow id (id row) change rows) ↔
      ∀ value, key (change row) = some value → ∀ other ∈ rows, key other = some value →
        other = row := by
  have place (other : α) : other ∈ updateRow id (id row) change rows ↔
      other = change row ∨ (other ∈ rows ∧ other ≠ row) := mem_updateRow distinct member
  constructor
  · intro updated value named other listed same
    by_contra differs
    have one := updated (change row) ((place _).mpr (Or.inl rfl)) other
      ((place _).mpr (Or.inr ⟨listed, differs⟩)) value named same
    have named' : id other = id row := by rw [← one, kept]
    exact differs (eq_of_id_eq distinct listed member named')
  · intro alone first listed second listed' value named same
    cases (place first).mp listed with
    | inl changed =>
      subst changed
      cases (place second).mp listed' with
      | inl changed' => exact changed'.symm
      | inr old => exact absurd (alone value named second old.1 same) old.2
    | inr old =>
      cases (place second).mp listed' with
      | inl changed =>
        subst changed
        exact absurd (alone value same first old.1 named) old.2
      | inr old' => exact separates first old.1 second old'.1 value named same

end Nook.Lib
