import Nook.Replication.CausalGraphOrder

set_option autoImplicit false

namespace Nook.Replication

open Nook.Lib Relation

variable {Id : Type} [LinearOrder Id]

/-- How a causal graph was built. -/
inductive Run (Id : Type) where
  | new
  | insert (run : Run Id) (id : Id) (parents : List Id)
  | quarantine (run : Run Id) (id : Id) (reason : String)
  | union (left right : Run Id)

namespace Run

def graph : Run Id → CausalGraph Id
  | new => .new
  | insert run id parents => (run.graph.insert id parents).graph
  | quarantine run id reason => run.graph.quarantine id reason
  | union left right => left.graph.union right.graph

/-- The (id, normalized parent set) pairs that were inserted along the way. -/
def inserted : Run Id → Set (Id × List Id)
  | new => ∅
  | insert run id parents => {(id, normalizeParents parents)} ∪ run.inserted
  | quarantine run _ _ => run.inserted
  | union left right => left.inserted ∪ right.inserted

/-- The (id, reason) pairs that were quarantined along the way. -/
def rejected : Run Id → Set (Id × String)
  | new => ∅
  | insert run _ _ => run.rejected
  | quarantine run id reason => {(id, reason)} ∪ run.rejected
  | union left right => left.rejected ∪ right.rejected

/-- The operations of the second run, carried out on the graph of the first. -/
def andThen (first : Run Id) : Run Id → Run Id
  | new => first
  | insert run id parents => insert (first.andThen run) id parents
  | quarantine run id reason => quarantine (first.andThen run) id reason
  | union left right => union (first.andThen left) right

theorem wellFormed (run : Run Id) : run.graph.WellFormed := by
  induction run with
  | new => exact CausalGraph.new_wellFormed
  | insert run id parents ih => exact CausalGraph.insert_wellFormed ih id parents
  | quarantine run id reason ih => exact CausalGraph.quarantine_wellFormed ih id reason
  | union left right ih _ => exact CausalGraph.union_wellFormed ih right.graph

/-- Every reachable graph is ordered: each applicable id once, after all its parents. -/
theorem topologicalOrder_complete (run : Run Id) :
    ∃ order, run.graph.topologicalOrder = .ok order ∧
      order.Nodup ∧ (∀ id, id ∈ order ↔ id ∈ run.graph.applicableIds) ∧
        ∀ earlier id later, order = earlier ++ id :: later →
          ∀ parent ∈ run.graph.parentsOf id, parent ∈ earlier := by
  obtain ⟨order, sorted, extension⟩ := CausalGraph.topologicalOrder_extension run.wellFormed
  refine ⟨order, sorted, extension.nodup, ?_, ?_⟩
  · intro id
    rw [extension.mem_iff, CausalGraph.mem_applicableIds]
  · intro earlier id later split parent edge
    subst split
    have applicable := (extension.mem_iff id).mp (by simp)
    have path : run.graph.Ancestor parent id := .single edge
    have listed := (extension.mem_iff parent).mpr
      (applicable.ancestor run.wellFormed path.to_reflTransGen)
    rw [List.mem_append, List.mem_cons] at listed
    rcases listed with before | same | after
    · exact before
    · exact absurd (same ▸ path) (applicable.acyclic run.wellFormed)
    · exact absurd path (extension.not_before_of_split.2 after)

end Run

end Nook.Replication
