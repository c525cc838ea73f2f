import Mathlib

set_option autoImplicit false

namespace Nook.Lib

variable {α : Type}

/-- The walk from `a` up to the element that has no origin of its own, at most
`fuel` steps long. An element is unknown, a root, or has an origin. -/
def rootFrom (origin : α → Option (Option α)) : Nat → α → Option α
  | fuel, a =>
    match origin a with
    | none => none
    | some none => some a
    | some (some parent) =>
      match fuel with
      | 0 => none
      | fuel + 1 => rootFrom origin fuel parent

/-- The elements from a root down to `a`, each but the first the origin of the next. -/
inductive Lineage (origin : α → Option (Option α)) (root : α) : α → List α → Prop
  | root (starts : origin root = some none) : Lineage origin root root [root]
  | child {a parent : α} {line : List α} (from_parent : origin a = some (some parent))
      (up : Lineage origin root parent line) : Lineage origin root a (line ++ [a])

variable {origin : α → Option (Option α)} {root a : α} {line : List α}

namespace Lineage

theorem getLast? (lineage : Lineage origin root a line) : line.getLast? = some a := by
  cases lineage with
  | root => rfl
  | child => simp

theorem head? (lineage : Lineage origin root a line) : line.head? = some root := by
  induction lineage with
  | root => rfl
  | child _ _ ih => rw [List.head?_append, ih, Option.some_or]

theorem root_starts (lineage : Lineage origin root a line) : origin root = some none := by
  induction lineage with
  | root starts => exact starts
  | child _ _ ih => exact ih

/-- Each element of a lineage names the one before it as its origin. -/
theorem isChain (lineage : Lineage origin root a line) :
    line.IsChain fun older newer => origin newer = some (some older) := by
  induction lineage with
  | root => exact List.isChain_singleton root
  | child from_parent up ih =>
    refine List.isChain_append.mpr ⟨ih, List.isChain_singleton _, ?_⟩
    intro older last newer first
    rw [up.getLast?, Option.mem_some_iff] at last
    rw [List.head?_cons, Option.mem_some_iff] at first
    rw [← last, ← first]
    exact from_parent

/-- An element has one lineage. -/
theorem unique {otherRoot : α} {other : List α} (lineage : Lineage origin root a line)
    (otherLineage : Lineage origin otherRoot a other) : root = otherRoot ∧ line = other := by
  induction lineage generalizing other with
  | root starts =>
    cases otherLineage with
    | root => exact ⟨rfl, rfl⟩
    | child from_parent =>
      rw [starts] at from_parent
      cases from_parent
  | child from_parent _ ih =>
    cases otherLineage with
    | root starts =>
      rw [starts] at from_parent
      cases from_parent
    | child fromOther up =>
      rw [from_parent] at fromOther
      cases fromOther
      obtain ⟨same, lines⟩ := ih up
      exact ⟨same, by rw [lines]⟩

/-- A lineage holds the lineage of each of its elements. -/
theorem of_mem (lineage : Lineage origin root a line) {b : α} (member : b ∈ line) :
    ∃ earlier, Lineage origin root b earlier ∧ earlier.length ≤ line.length := by
  induction lineage with
  | root starts =>
    rw [List.mem_singleton.mp member]
    exact ⟨[root], .root starts, le_refl _⟩
  | @child a parent line from_parent up ih =>
    rcases List.mem_append.mp member with inside | last
    · obtain ⟨earlier, found, shorter⟩ := ih inside
      refine ⟨earlier, found, ?_⟩
      rw [List.length_append]
      omega
    · rw [List.mem_singleton.mp last]
      exact ⟨line ++ [a], .child from_parent up, le_refl _⟩

/-- No element occurs twice: its lineage would be shorter than itself. -/
theorem nodup (lineage : Lineage origin root a line) : line.Nodup := by
  induction lineage with
  | root => exact List.nodup_singleton root
  | @child a parent line from_parent up ih =>
    rw [List.nodup_append]
    refine ⟨ih, List.nodup_singleton a, ?_⟩
    intro b inside c last
    rw [List.mem_singleton.mp last]
    rintro rfl
    obtain ⟨earlier, found, shorter⟩ := up.of_mem inside
    have whole := (found.unique (.child from_parent up)).2
    rw [whole, List.length_append, List.length_singleton] at shorter
    omega

theorem known (lineage : Lineage origin root a line) {b : α} (member : b ∈ line) :
    origin b ≠ none := by
  obtain ⟨_, found, _⟩ := lineage.of_mem member
  cases found with
  | root starts => simp [starts]
  | child from_parent => simp [from_parent]

/-- A lineage of known elements is no longer than the list of all of them. -/
theorem length_le {keys : List α} (lineage : Lineage origin root a line)
    (covers : ∀ b, origin b ≠ none → b ∈ keys) : line.length ≤ keys.length :=
  (List.subperm_of_subset lineage.nodup fun _ member => covers _ (lineage.known member)).length_le

end Lineage

theorem rootFrom_eq_some_iff {fuel : Nat} : rootFrom origin fuel a = some root ↔
    ∃ line, Lineage origin root a line ∧ line.length ≤ fuel + 1 := by
  induction fuel generalizing a with
  | zero =>
    unfold rootFrom
    constructor
    · intro found
      split at found
      · cases found
      · rename_i starts
        cases found
        exact ⟨_, .root starts, le_refl _⟩
      · cases found
    · rintro ⟨line, lineage, short⟩
      cases lineage with
      | root starts => rw [starts]
      | child from_parent up =>
        have nonempty := List.length_pos_iff.mpr (List.ne_nil_of_mem (List.mem_of_getLast? up.getLast?))
        rw [List.length_append, List.length_singleton] at short
        omega
  | succ fuel ih =>
    unfold rootFrom
    constructor
    · intro found
      split at found
      · cases found
      · rename_i starts
        cases found
        exact ⟨_, .root starts, by simp⟩
      · rename_i parent from_parent
        obtain ⟨line, up, short⟩ := ih.mp found
        refine ⟨line ++ [a], .child from_parent up, ?_⟩
        rw [List.length_append, List.length_singleton]
        omega
    · rintro ⟨line, lineage, short⟩
      cases lineage with
      | root starts => rw [starts]
      | child from_parent up =>
        rw [from_parent]
        rw [List.length_append, List.length_singleton] at short
        exact ih.mpr ⟨_, up, by omega⟩

/-- With a step for every known element the walk finds every root. -/
theorem rootFrom_iff {keys : List α} (covers : ∀ b, origin b ≠ none → b ∈ keys) :
    rootFrom origin keys.length a = some root ↔ ∃ line, Lineage origin root a line := by
  rw [rootFrom_eq_some_iff]
  constructor
  · rintro ⟨line, lineage, _⟩
    exact ⟨line, lineage⟩
  · rintro ⟨line, lineage⟩
    have bounded := lineage.length_le covers
    exact ⟨line, lineage, by omega⟩

end Nook.Lib
