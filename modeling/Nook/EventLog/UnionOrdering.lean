import Nook.EventLog.GraphOrdering
import Nook.EventLog.UnionInvariant

set_option autoImplicit false

namespace Nook.EventLog

open Nook.Lib Nook.Replication

section Union

variable [External] [Storage]

/-- After an accepted union the log orders exactly when it has at most one applicable
root; with more roots the ordering refuses them. -/
theorem unionRemote_orders_iff (store : LocalEventStore) (request : LocalRemoteUnion)
    (outcome : LocalRemoteUnionOutcome) (accepted : store.unionRemote request = .ok outcome) :
    ∃ graph, outcome.store.loadGraph request.storeId = .ok graph ∧
      ((∃ order, graph.topologicalOrder = .ok order) ↔ graph.rootCount ≤ 1) ∧
      (¬graph.rootCount ≤ 1 → graph.topologicalOrder = .error .multipleGenesisRoots) := by
  obtain ⟨_, _, _, _, _, _, rest, run⟩ := unionRemote_run accepted
  obtain ⟨events, _, inserted⟩ := LocalGraphProjection.build_ok _ run.rest_ok
  obtain ⟨indexed, settled⟩ := EventGraph.settled_insertAll events.intoValues inserted
  exact ⟨rest, run.loads, settled.topologicalOrder_ok_iff indexed,
    settled.topologicalOrder_error indexed⟩

end Union

namespace TestSupport

theorem unionRemote_orders_iff_rotation :
    ∃ outcome graph,
      (storeOf ['g']).unionRemote ⟨[tagRecord 'r', tagRecord 'c'], storeName⟩ = .ok outcome ∧
      outcome.store.loadGraph storeName = .ok graph ∧
      ((∃ order, graph.topologicalOrder = .ok order) ↔ graph.rootCount ≤ 1) := by
  obtain ⟨outcome, accepted⟩ := exists_of_isOk (show
    ((storeOf ['g']).unionRemote ⟨[tagRecord 'r', tagRecord 'c'], storeName⟩).isOk = true from
    by decide +kernel)
  obtain ⟨graph, loaded, orders, _⟩ := unionRemote_orders_iff (storeOf ['g'])
    ⟨[tagRecord 'r', tagRecord 'c'], storeName⟩ outcome accepted
  exact ⟨outcome, graph, accepted, loaded, orders⟩

/-- A batch that holds a second genesis is accepted into a log that orders, and the log
no longer orders. -/
theorem unionRemote_admits_second_genesis :
    ∃ before outcome after,
      (storeOf ['g']).loadGraph storeName = .ok before ∧
      before.topologicalOrder = .ok [eventId 'g'] ∧
      (storeOf ['g']).unionRemote ⟨[tagRecord 'h'], storeName⟩ = .ok outcome ∧
      outcome.store.loadGraph storeName = .ok after ∧
      after.topologicalOrder = .error .multipleGenesisRoots := by
  obtain ⟨before, loaded, orders⟩ := exists_of_passes ((storeOf ['g']).loadGraph storeName)
    (fun graph => decide (graph.topologicalOrder = .ok [eventId 'g'])) (by decide +kernel)
  obtain ⟨outcome, accepted, refuses⟩ := exists_of_passes
    ((storeOf ['g']).unionRemote ⟨[tagRecord 'h'], storeName⟩)
    (fun outcome => passes (outcome.store.loadGraph storeName) fun graph =>
      decide (graph.topologicalOrder = .error .multipleGenesisRoots)) (by decide +kernel)
  obtain ⟨after, reloaded, refused⟩ := exists_of_passes _ _ refuses
  exact ⟨before, outcome, after, loaded, of_decide_eq_true orders, accepted, reloaded,
    of_decide_eq_true refused⟩

end TestSupport

end Nook.EventLog
