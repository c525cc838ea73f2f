import Nook.EventLog.CleanGraph
import Nook.EventLog.UnionInvariant
import Nook.Lib.Steps

set_option autoImplicit false

namespace Nook.EventLog

open Nook.Lib Nook.Replication

variable [External] [Storage]

/-! ### What a loaded store holds -/

namespace EventGraph

variable {graph : EventGraph} {expectedStoreId : Str}

omit [Storage] in
theorem ValidFor.insert {event : VaultEvent} {insertion : EventGraphInsertion}
    (valid : graph.ValidFor expectedStoreId) (wellFormed : graph.causal.WellFormed)
    (inserted : graph.insert event expectedStoreId = .ok insertion) :
    insertion.graph.ValidFor expectedStoreId := by
  have computed := inserted
  unfold EventGraph.insert at computed
  split at computed
  · cases computed
  · cases computed
    exact valid
  · cases computed
    exact valid
  · rename_i id admitted
    obtain ⟨⟨_, named⟩, fresh⟩ := admission_insert admitted
    obtain ⟨enveloped, settled, passed, same⟩ :=
      insert_fresh (validateEnvelope_id named) fresh inserted
    subst same
    have spec := (quarantineRejected_spec (wellFormed_recordEvent wellFormed id event)).1
    rw [passed] at spec
    intro other content found
    change settled.events[other]? = some content at found
    rw [show settled.events = (graph.recordEvent id event).events from spec.events_eq,
      events_recordEvent] at found
    split at found
    · rename_i itself
      cases found
      exact itself ▸ enveloped
    · exact valid other content found

omit [Storage] in
theorem validFor_insertAll {events : List VaultEvent} {final : EventGraph}
    (valid : graph.ValidFor expectedStoreId) (wellFormed : graph.causal.WellFormed)
    (accepted : graph.insertAll expectedStoreId events = .ok final) :
    final.ValidFor expectedStoreId := by
  induction events generalizing graph with
  | nil =>
    cases accepted
    exact valid
  | cons head tail ih =>
    obtain ⟨middle, first, rest⟩ := bind_eq_ok.mp accepted
    obtain ⟨insertion, inserted, same⟩ := bind_eq_ok.mp first
    cases same
    have next := (inserted_insert wellFormed head expectedStoreId).wellFormed wellFormed
    rw [inserted] at next
    exact ih (valid.insert wellFormed inserted) next rest

end EventGraph

namespace LocalEventStore

variable {store : LocalEventStore} {storeId : Str} {graph : EventGraph}

/-- A store that loads can be read row by row. -/
theorem loadGraph_reads (loaded : store.loadGraph storeId = .ok graph) :
    ∃ events, Reads store.row events := by
  refine ⟨store.replica.events.filterMap fun _ bytes =>
    (VaultEvent.parseEventStorageBytes bytes).toOption, ?_⟩
  intro id
  rw [Std.ExtTreeMap.getElem?_filterMap']
  unfold row
  cases stored : store.replica.events[id]? with
  | none => rfl
  | some bytes =>
    have known : id ∈ store.eventIds := by
      unfold eventIds ReplicaStore.eventIds
      rw [Std.ExtTreeMap.mem_keys, BTreeMap.mem_iff_getElem?]
      exact ⟨bytes, stored⟩
    obtain ⟨_, _, step⟩ := foldlM_step loaded known
    obtain ⟨read, held, step⟩ := bind_eq_ok.mp step
    obtain ⟨event, parsed, _⟩ := bind_eq_ok.mp step
    rw [storedBytes_eq, row, stored] at held
    cases held
    rw [Option.mapM_some, parsed]
    simp [parsed, Except.toOption]

/-- What the graph of a loaded store records, when its rows are filed under their ids. -/
theorem loadGraph_judged (filed : store.Filed) (loaded : store.loadGraph storeId = .ok graph) :
    graph.Judged ∧ Reads store.row graph.events ∧ graph.ValidFor storeId := by
  obtain ⟨events, reads⟩ := loadGraph_reads loaded
  rw [store.loadGraph_eq storeId reads, mapError_eq_ok] at loaded
  obtain ⟨judged, same⟩ := EventGraph.judged_of_events (fun id event found => by
    obtain ⟨bytes, stored, parsed⟩ := reads.of_event found
    exact filed id bytes event stored parsed) loaded
  refine ⟨judged, same ▸ reads, EventGraph.validFor_insertAll ?_ CausalGraph.new_wellFormed loaded⟩
  simp [EventGraph.ValidFor, EventGraph.new]

/-- A store whose rows are the events of a clean graph loads as that graph. -/
structure Loads (store : LocalEventStore) (storeId : Str) (graph : EventGraph) : Prop where
  filed : store.Filed
  loaded : store.loadGraph storeId = .ok graph
  clean : graph.Clean

namespace Loads

variable (loads : store.Loads storeId graph)
include loads

theorem reads : Reads store.row graph.events := (loadGraph_judged loads.filed loads.loaded).2.1

theorem valid : graph.ValidFor storeId := (loadGraph_judged loads.filed loads.loaded).2.2

theorem mem_events (id : EventId) : id ∈ graph.events ↔ store.row id ≠ none := by
  rw [loads.reads.mem_iff, Option.ne_none_iff_exists']

end Loads

theorem loads_of_reads (clean : graph.Clean) (valid : graph.ValidFor storeId)
    (reads : Reads store.row graph.events) :
    ∃ final, store.Loads storeId final ∧ final.events = graph.events ∧
      final.heads = graph.heads := by
  obtain ⟨final, inserted, finalClean, same⟩ := clean.insertAll valid
  refine ⟨final, ⟨?_, ?_, finalClean⟩, same, ?_⟩
  · intro id bytes event stored parsed
    obtain ⟨read, held, found⟩ := reads.of_row stored
    rw [parsed] at held
    cases held
    obtain ⟨_, _, enveloped⟩ := valid id event found
    exact EventGraph.validateEnvelope_id enveloped
  · rw [store.loadGraph_eq storeId reads, inserted]
    rfl
  · exact (finalClean.toJudged.agrees clean.toJudged same).heads_eq

/-- Storing a new event on all heads of a clean store: the store stays clean and the
event is its only head. -/
theorem Loads.stored (loads : store.Loads storeId graph) {id : EventId} {event : VaultEvent}
    {next : EventGraph} (appended : EventGraph.Appended graph id event next)
    (valid : next.ValidFor storeId) {bytes : EventStorageBytes}
    (parsed : VaultEvent.parseEventStorageBytes bytes = .ok event) {after : LocalEventStore}
    (rows : ∀ other, after.row other =
      (store.row other).or (if id = other then some bytes else none)) :
    ∃ final, after.Loads storeId final ∧ final.events = next.events ∧ final.heads = [id] := by
  have absent : store.row id = none := by
    by_contra stored
    have known := (loads.mem_events id).mpr stored
    exact (BTreeMap.not_mem_iff_getElem? _ _).mpr appended.fresh known
  have reads : Reads after.row next.events := by
    intro other
    rw [rows, appended.getElem?_events]
    by_cases same : id = other
    · rw [if_pos same, if_pos same, ← same, absent, Option.none_or, Option.mapM_some, parsed]
      rfl
    · rw [if_neg same, if_neg same, Option.or_none]
      exact loads.reads other
  obtain ⟨final, finalLoads, same, heads⟩ := loads_of_reads appended.next_clean valid reads
  exact ⟨final, finalLoads, same, heads.trans appended.heads_eq⟩

end LocalEventStore

end Nook.EventLog
