import Mathlib

set_option autoImplicit false

namespace Nook.Lib

variable {α : Type}

/-! ### What comes after what in a list -/

theorem pair_sublist_total {a b : α} (apart : a ≠ b) (list : List α) (first : a ∈ list)
    (second : b ∈ list) : [a, b].Sublist list ∨ [b, a].Sublist list := by
  induction list with
  | nil => simp at first
  | cons head tail ih =>
    rcases List.mem_cons.mp first with rfl | tailFirst
    · have tailSecond : b ∈ tail := by simpa [Ne.symm apart] using second
      exact Or.inl (List.cons_sublist_cons.mpr (List.singleton_sublist.mpr tailSecond))
    · rcases List.mem_cons.mp second with rfl | tailSecond
      · exact Or.inr (List.cons_sublist_cons.mpr (List.singleton_sublist.mpr tailFirst))
      · exact (ih tailFirst tailSecond).imp (·.cons head) (·.cons head)

theorem pair_sublist_concat (a b c : α) (list : List α) :
    [a, b].Sublist (list ++ [c]) ↔ [a, b].Sublist list ∨ a ∈ list ∧ b = c := by
  rw [← List.reverse_sublist, List.reverse_append]
  simp only [List.reverse_cons, List.reverse_nil, List.nil_append, List.cons_append]
  rw [List.sublist_cons_iff]
  constructor
  · rintro (inside | ⟨rest, same, inside⟩)
    · exact Or.inl (by simpa using List.reverse_sublist.mpr inside)
    · injection same with same tail
      subst same tail
      exact Or.inr ⟨by simpa using inside, rfl⟩
  · rintro (inside | ⟨inside, rfl⟩)
    · exact Or.inl (by simpa using List.reverse_sublist.mpr inside)
    · exact Or.inr ⟨[a], rfl, by simpa using inside⟩

theorem pair_sublist_split {earlier later : List α} {a b : α}
    (nodup : (earlier ++ a :: later).Nodup) :
    [a, b].Sublist (earlier ++ a :: later) ↔ b ∈ later := by
  constructor
  · intro inside
    have fresh : a ∉ earlier := fun early =>
      (List.nodup_append.mp nodup).2.2 a early a List.mem_cons_self rfl
    induction earlier with
    | nil =>
      rw [List.nil_append, List.cons_sublist_cons] at inside
      exact List.singleton_sublist.mp inside
    | cons head tail ih =>
      rw [List.mem_cons, not_or] at fresh
      rcases List.sublist_cons_iff.mp inside with inside | ⟨_, same, _⟩
      · exact ih (List.nodup_cons.mp nodup).2 inside fresh.2
      · injection same with same
        exact absurd same fresh.1
  · intro inside
    exact (List.cons_sublist_cons.mpr (List.singleton_sublist.mpr inside)).trans
      (List.sublist_append_right _ _)

/-- A list of exactly the members, none of them before an earlier one. -/
structure LinearExtension (before : α → α → Prop) (member : α → Prop) (order : List α) : Prop where
  nodup : order.Nodup
  mem_iff : ∀ a, a ∈ order ↔ member a
  sorted : order.Pairwise fun earlier later => ¬before later earlier

namespace LinearExtension

variable {before : α → α → Prop} {member : α → Prop} {order : List α}

/-- An element that is before another comes first in every extension. -/
theorem precedes (extension : LinearExtension before member order) {a b : α}
    (apart : a ≠ b) (path : before a b) (first : member a) (second : member b) :
    [a, b].Sublist order := by
  rcases pair_sublist_total apart order ((extension.mem_iff a).mpr first)
      ((extension.mem_iff b).mpr second) with ahead | behind
  · exact ahead
  · exact absurd path (List.pairwise_iff_forall_sublist.mp extension.sorted behind)

/-- Moving an upward closed part to the back keeps the order a linear extension. -/
theorem partition (extension : LinearExtension before member order) (late : α → Bool)
    (upward : ∀ a b, before a b → member a → member b → late a = true → late b = true) :
    LinearExtension before member
      ((order.filter fun a => !late a) ++ order.filter late) where
  nodup := by
    have perm := List.filter_append_perm late order
    exact (List.perm_append_comm.trans perm).nodup_iff.mpr extension.nodup
  mem_iff := by
    intro a
    rw [← extension.mem_iff a]
    simp only [List.mem_append, List.mem_filter, Bool.not_eq_true']
    cases late a <;> simp
  sorted := by
    rw [List.pairwise_append]
    refine ⟨extension.sorted.filter _, extension.sorted.filter _, ?_⟩
    intro a early b moved path
    have isMember : ∀ c, c ∈ order → member c := fun c => (extension.mem_iff c).mp
    rw [List.mem_filter] at early moved
    have raised := upward b a path (isMember b moved.1) (isMember a early.1) moved.2
    simp [raised] at early

/-- Anything earlier in an extension is not after it. -/
theorem not_before_of_split {earlier later : List α} {a : α}
    (extension : LinearExtension before member (earlier ++ a :: later)) {b : α} :
    (b ∈ earlier → ¬before a b) ∧ (b ∈ later → ¬before b a) := by
  have sorted := List.pairwise_append.mp extension.sorted
  constructor
  · intro inside
    exact sorted.2.2 b inside a List.mem_cons_self
  · intro inside
    exact (List.pairwise_cons.mp sorted.2.1).1 b inside

theorem ne_of_split {earlier later : List α} {a : α}
    (extension : LinearExtension before member (earlier ++ a :: later)) {b : α} :
    (b ∈ earlier → b ≠ a) ∧ (b ∈ later → b ≠ a) := by
  have nodup := List.nodup_append.mp extension.nodup
  constructor
  · intro inside
    exact nodup.2.2 b inside a List.mem_cons_self
  · intro inside same
    exact (List.nodup_cons.mp nodup.2.1).1 (same ▸ inside)

/-- A member that comes before another in one place of the order comes before it there. -/
theorem mem_later {earlier later : List α} {a b : α}
    (extension : LinearExtension before member (earlier ++ a :: later)) (path : before a b)
    (apart : a ≠ b) (second : member b) : b ∈ later := by
  have inside := (extension.mem_iff b).mpr second
  rw [List.mem_append, List.mem_cons] at inside
  rcases inside with early | same | late
  · exact absurd path (extension.not_before_of_split.1 early)
  · exact absurd same.symm apart
  · exact late

section Reach

variable {reach : α → α → Bool}

/-- Move a member behind everything that is not after it. -/
theorem exists_behind (extension : LinearExtension before member order)
    (reach_iff : ∀ a b, reach a b = true ↔ a = b ∨ before a b)
    (trans : ∀ a b c, before a b → before b c → before a c) {a : α} (inside : member a) :
    ∃ later, LinearExtension before member ((order.filter fun b => !reach a b) ++ a :: later) ∧
      ∀ b ∈ later, before a b := by
  have upward : ∀ b c, before b c → member b → member c → reach a b = true → reach a c = true := by
    intro b c path _ _ reached
    rw [reach_iff] at reached ⊢
    rcases reached with rfl | below
    · exact Or.inr path
    · exact Or.inr (trans a b c below path)
  have moved := extension.partition (reach a) upward
  have late : a ∈ order.filter (reach a) :=
    List.mem_filter.mpr ⟨(extension.mem_iff a).mpr inside, (reach_iff a a).mpr (Or.inl rfl)⟩
  obtain ⟨front, later, split⟩ := List.append_of_mem late
  have reached : ∀ b ∈ front ++ a :: later, a = b ∨ before a b := by
    intro b member
    rw [← split] at member
    exact (reach_iff a b).mp (List.mem_filter.mp member).2
  rw [split] at moved
  have shifted := moved
  rw [← List.append_assoc] at shifted
  -- Nothing else reached from the member stands in front of it.
  have first : front = [] := by
    rw [List.eq_nil_iff_forall_not_mem]
    intro b member
    have early : b ∈ (order.filter fun b => !reach a b) ++ front := List.mem_append_right _ member
    rcases reached b (by simp [member]) with same | path
    · exact shifted.ne_of_split.1 early same.symm
    · exact shifted.not_before_of_split.1 early path
  rw [first, List.nil_append] at moved
  refine ⟨later, moved, ?_⟩
  intro b member
  rcases reached b (by simp [member]) with same | path
  · exact absurd same.symm (moved.ne_of_split.2 member)
  · exact path

/-- Move two unrelated members behind everything that is after neither of them. -/
theorem exists_behind_both (extension : LinearExtension before member order)
    (reach_iff : ∀ a b, reach a b = true ↔ a = b ∨ before a b)
    (trans : ∀ a b c, before a b → before b c → before a c) {a b : α} (first : member a)
    (second : member b) (apart : a ≠ b) (unrelated : ¬before b a) :
    ∃ earlier between later,
      LinearExtension before member (earlier ++ a :: between ++ b :: later) ∧
        (∀ c ∈ between, before a c) ∧ ∀ c ∈ later, before b c := by
  obtain ⟨tail, moved, above⟩ := extension.exists_behind reach_iff trans first
  obtain ⟨later, both, last⟩ := moved.exists_behind reach_iff trans second
  have kept : reach b a = false := by
    rw [← Bool.not_eq_true, reach_iff]
    rintro (same | path)
    · exact apart same.symm
    · exact unrelated path
  rw [List.filter_append, List.filter_cons_of_pos (by simp [kept])] at both
  refine ⟨_, _, later, both, ?_, last⟩
  intro c member
  exact above c (List.mem_filter.mp member).1

end Reach

end LinearExtension

/-- A nonempty list has an element that nothing else in it is before. -/
theorem exists_minimal (before : α → α → Prop)
    (trans : ∀ a b c, before a b → before b c → before a c) (list : List α)
    (irrefl : ∀ a ∈ list, ¬before a a) (some : list ≠ []) :
    ∃ a ∈ list, ∀ b ∈ list, ¬before b a := by
  let within : {a // a ∈ list} → {a // a ∈ list} → Prop := fun a b => before a.1 b.1
  have : Finite {a // a ∈ list} := (List.finite_toSet list).to_subtype
  have : IsTrans _ within := ⟨fun a b c => trans a.1 b.1 c.1⟩
  have : Std.Irrefl within := ⟨fun a => irrefl a.1 a.2⟩
  have wellFounded : WellFounded within := Finite.wellFounded_of_trans_of_irrefl within
  obtain ⟨first, inside⟩ := List.exists_mem_of_ne_nil list some
  obtain ⟨least, _, minimal⟩ := wellFounded.has_min Set.univ ⟨⟨first, inside⟩, trivial⟩
  exact ⟨least.1, least.2, fun b inside => minimal ⟨b, inside⟩ trivial⟩

/-- The last element of a list with a property. -/
theorem exists_last_split (P : α → Prop) (list : List α) {a : α} (inside : a ∈ list) (holds : P a) :
    ∃ earlier last later, list = earlier ++ last :: later ∧ P last ∧ ∀ b ∈ later, ¬P b := by
  induction list using List.reverseRecOn with
  | nil => cases inside
  | append_singleton front b ih =>
    by_cases final : P b
    · exact ⟨front, b, [], rfl, final, by simp⟩
    · have old : a ∈ front := by
        rcases List.mem_append.mp inside with old | new
        · exact old
        · rw [List.mem_singleton.mp new] at holds
          exact absurd holds final
      obtain ⟨earlier, last, later, split, property, rest⟩ := ih old
      refine ⟨earlier, last, later ++ [b], by rw [split, List.append_assoc]; rfl, property, ?_⟩
      intro c member
      rcases List.mem_append.mp member with before | same
      · exact rest c before
      · rw [List.mem_singleton.mp same]
        exact final

end Nook.Lib
