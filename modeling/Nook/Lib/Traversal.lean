import Mathlib

set_option autoImplicit false

namespace Nook.Lib

variable {α : Type}

/-- The visiting order of a depth-first traversal with an explicit stack and a
visited set: pop, skip what was visited, otherwise visit and push the neighbours
in their order. The head of `stack` is its top. -/
def visitFrom [DecidableEq α] (next : α → List α) : Nat → List α → List α → List α
  | 0, _, _ => []
  | _ + 1, [], _ => []
  | fuel + 1, node :: stack, visited =>
    if node ∈ visited then visitFrom next fuel stack visited
    else node :: visitFrom next fuel ((next node).reverse ++ stack) (node :: visited)

/-- The same traversal without a bound: `Visits next stack visited order`. -/
inductive Visits (next : α → List α) : List α → List α → List α → Prop
  | nil (visited : List α) : Visits next [] visited []
  | skip {node : α} {stack visited order : List α} (seen : node ∈ visited)
      (rest : Visits next stack visited order) : Visits next (node :: stack) visited order
  | visit {node : α} {stack visited order : List α} (fresh : node ∉ visited)
      (rest : Visits next ((next node).reverse ++ stack) (node :: visited) order) :
      Visits next (node :: stack) visited (node :: order)

/-- The pushes that are still to come from the unvisited nodes of `keys`. -/
def pendingPushes [DecidableEq α] (next : α → List α) (keys visited : List α) : Nat :=
  ((keys.filter (· ∉ visited)).map fun node => (next node).length).sum

theorem pendingPushes_visit [DecidableEq α] (next : α → List α) (keys visited : List α)
    (node : α) (distinct : keys.Nodup) (fresh : node ∉ visited)
    (known : node ∉ keys → next node = []) :
    (next node).length + pendingPushes next keys (node :: visited) ≤
      pendingPushes next keys visited := by
  induction keys with
  | nil => simp [pendingPushes, known List.not_mem_nil]
  | cons key keys ih =>
    have distinctTail := (List.nodup_cons.mp distinct).2
    by_cases same : node = key
    · subst same
      have absent : node ∉ keys := (List.nodup_cons.mp distinct).1
      have tail : pendingPushes next keys (node :: visited) = pendingPushes next keys visited := by
        unfold pendingPushes
        congr 2
        apply List.filter_congr
        intro other member
        have apart : other ≠ node := fun equal => absent (equal ▸ member)
        simp [apart]
      have skipped : pendingPushes next (node :: keys) (node :: visited) =
          pendingPushes next keys (node :: visited) := by simp [pendingPushes]
      have counted : pendingPushes next (node :: keys) visited =
          (next node).length + pendingPushes next keys visited := by simp [pendingPushes, fresh]
      omega
    · have tail := ih distinctTail (fun absent => known (by simp [same, absent]))
      unfold pendingPushes at tail ⊢
      by_cases seen : key ∈ visited
      · simpa [seen] using tail
      · simp [seen, Ne.symm same] at tail ⊢
        omega

/-- With enough fuel the bounded traversal is the unbounded one. -/
theorem visitFrom_visits [DecidableEq α] (next : α → List α) (keys : List α)
    (distinct : keys.Nodup) (known : ∀ node, node ∉ keys → next node = [])
    (fuel : Nat) (stack visited : List α)
    (enough : stack.length + pendingPushes next keys visited ≤ fuel) :
    Visits next stack visited (visitFrom next fuel stack visited) := by
  induction fuel generalizing stack visited with
  | zero =>
    have empty : stack = [] := List.eq_nil_of_length_eq_zero (by omega)
    subst empty
    exact .nil visited
  | succ fuel ih =>
    cases stack with
    | nil => exact .nil visited
    | cons node stack =>
      simp only [visitFrom]
      split
      · rename_i seen
        refine .skip seen (ih stack visited ?_)
        simp only [List.length_cons] at enough
        omega
      · rename_i fresh
        refine .visit fresh (ih _ _ ?_)
        have drop := pendingPushes_visit next keys visited node distinct fresh (known node)
        simp only [List.length_cons, List.length_append, List.length_reverse] at enough ⊢
        omega

namespace Visits

variable {next other : α → List α} {stack visited order order' : List α}

theorem unique (first : Visits next stack visited order)
    (second : Visits next stack visited order') : order = order' := by
  induction first generalizing order' with
  | nil => cases second; rfl
  | skip seen _ ih =>
    cases second with
    | skip _ rest => exact ih rest
    | visit fresh _ => exact absurd seen fresh
  | visit fresh _ ih =>
    cases second with
    | skip seen _ => exact absurd seen fresh
    | visit _ rest => rw [ih rest]

/-- Two neighbour functions that agree on every visited node visit alike. -/
theorem congr (visits : Visits next stack visited order)
    (same : ∀ node ∈ order, next node = other node) : Visits other stack visited order := by
  induction visits with
  | nil visited => exact .nil visited
  | skip seen _ ih => exact .skip seen (ih same)
  | @visit node stack visited order fresh _ ih =>
    refine .visit fresh ?_
    rw [← same node (by simp)]
    exact ih fun node member => same node (by simp [member])

theorem fresh_of_mem (visits : Visits next stack visited order) {node : α}
    (member : node ∈ order) : node ∉ visited := by
  induction visits with
  | nil => cases member
  | skip _ _ ih => exact ih member
  | visit fresh _ ih =>
    rcases List.mem_cons.mp member with rfl | member
    · exact fresh
    · exact fun seen => ih member (by simp [seen])

theorem nodup (visits : Visits next stack visited order) : order.Nodup := by
  induction visits with
  | nil => exact List.nodup_nil
  | skip _ _ ih => exact ih
  | visit _ rest ih => exact List.nodup_cons.mpr ⟨fun member => rest.fresh_of_mem member (by simp), ih⟩

theorem covers_stack (visits : Visits next stack visited order) {node : α}
    (member : node ∈ stack) : node ∈ visited ∨ node ∈ order := by
  induction visits with
  | nil => cases member
  | skip seen _ ih =>
    rcases List.mem_cons.mp member with rfl | member
    · exact Or.inl seen
    · exact ih member
  | visit fresh _ ih =>
    rcases List.mem_cons.mp member with rfl | member
    · exact Or.inr (by simp)
    · rcases ih (by simp [member]) with seen | later
      · rcases List.mem_cons.mp seen with rfl | seen
        · exact Or.inr (by simp)
        · exact Or.inl seen
      · exact Or.inr (by simp [later])

theorem covers_next (visits : Visits next stack visited order) {node neighbour : α}
    (member : node ∈ order) (adjacent : neighbour ∈ next node) :
    neighbour ∈ visited ∨ neighbour ∈ order := by
  induction visits with
  | nil => cases member
  | skip _ _ ih => exact ih member
  | visit _ rest ih =>
    have widen : ∀ {head : α} {visited order : List α},
        neighbour ∈ head :: visited ∨ neighbour ∈ order →
          neighbour ∈ visited ∨ neighbour ∈ head :: order := by
      intro head visited order found
      simp only [List.mem_cons] at found ⊢
      tauto
    rcases List.mem_cons.mp member with rfl | member
    · exact widen (rest.covers_stack (by simp [adjacent]))
    · exact widen (ih member)

theorem reachable_of_mem (visits : Visits next stack visited order) {node : α}
    (member : node ∈ order) :
    ∃ start ∈ stack, Relation.ReflTransGen (fun a b => b ∈ next a) start node := by
  induction visits with
  | nil => cases member
  | skip _ _ ih =>
    obtain ⟨start, inside, path⟩ := ih member
    exact ⟨start, by simp [inside], path⟩
  | @visit head stack visited order fresh _ ih =>
    rcases List.mem_cons.mp member with rfl | member
    · exact ⟨node, by simp, .refl⟩
    · obtain ⟨start, inside, path⟩ := ih member
      rcases List.mem_append.mp inside with pushed | older
      · exact ⟨head, by simp, .head (List.mem_reverse.mp pushed) path⟩
      · exact ⟨start, by simp [older], path⟩

/-- A traversal from an empty visited set visits exactly what the stack reaches. -/
theorem mem_iff (visits : Visits next stack [] order) {node : α} :
    node ∈ order ↔
      ∃ start ∈ stack, Relation.ReflTransGen (fun a b => b ∈ next a) start node := by
  constructor
  · exact visits.reachable_of_mem
  · rintro ⟨start, inside, path⟩
    induction path with
    | refl => simpa using visits.covers_stack inside
    | tail _ adjacent ih => simpa using visits.covers_next ih adjacent

end Visits

end Nook.Lib
