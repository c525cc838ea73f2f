import Nook.EventDb.Frontier
import Nook.Vault.EventSessionWhole

set_option autoImplicit false

namespace Nook.EventDb

open Nook.Lib Nook.Replication Nook.EventLog Nook.Vault Frontier Relation

variable [External] [Storage]

/-- The stored log loads as a clean graph, and its heads are those of the graph. -/
structure StoredLog.Whole (log : StoredLog) (storeId : Str) (graph : EventGraph) : Prop where
  consistent : log.load.Consistent
  loads : log.load.localStore.Loads storeId graph
  heads_eq : log.storedHeads = graph.heads.map Text.asStr

/-- A supplied copy of an event: its id and its bytes, which read back as the event. -/
structure Copy where
  entry : EventBytes
  event : VaultEvent
  named : event.id = .ok entry.eventId
  parsed : VaultEvent.parseEventStorageBytes entry.bytes = .ok event

namespace Copy

def recorded (copy : Copy) : EventId × VaultEvent := (copy.entry.eventId, copy.event)

theorem of_supplied {copies : List Copy} {id : EventId} {bytes : EventStorageBytes}
    (found : TransactionEvents.supplied (copies.map Copy.entry) id = some bytes) :
    ∃ copy ∈ copies, copy.entry.eventId = id ∧ copy.entry.bytes = bytes := by
  induction copies with
  | nil => cases found
  | cons head tail ih =>
    rw [List.map_cons, TransactionEvents.supplied] at found
    cases later : TransactionEvents.supplied (tail.map Copy.entry) id with
    | some own =>
      rw [later, Option.some_or] at found
      cases found
      obtain ⟨copy, member, same⟩ := ih later
      exact ⟨copy, List.mem_cons_of_mem _ member, same⟩
    | none =>
      rw [later, Option.none_or] at found
      split at found
      · rename_i itself
        cases found
        exact ⟨head, by simp, itself, rfl⟩
      · cases found

theorem supplied_eq_none {copies : List Copy} {id : EventId} :
    TransactionEvents.supplied (copies.map Copy.entry) id = none ↔
      ∀ copy ∈ copies, copy.entry.eventId ≠ id := by
  induction copies with
  | nil => simp [TransactionEvents.supplied]
  | cons head tail ih =>
    rw [List.map_cons, TransactionEvents.supplied, Option.or_eq_none_iff, ih]
    by_cases itself : head.entry.eventId = id
    · simp [itself]
    · simp [itself]

end Copy

/-! ### A committed append -/

omit [External] [Storage] in
theorem commit_ok {prepared : PreparedEventAppend} {after : StoredLog}
    (committed : prepared.commit = .ok after) :
    ∃ written, prepared.entries.foldlM TransactionEvents.put prepared.transaction = .ok written ∧
      after.load.events = written.events ∧
      (∀ rawId, rawId ∈ after.load.ids ↔ rawId ∈ written.ids) ∧
      after.storedHeads = prepared.graph.heads.map Text.asStr := by
  obtain ⟨written, folded, same⟩ := bind_eq_ok.mp committed
  cases same
  exact ⟨written, folded, rfl, by simp [StoredLog.load], rfl⟩

omit [Storage] in
/-- A commit leaves the stored rows with the supplied copies in place. -/
theorem rows_commit {prepared : PreparedEventAppend} {after : StoredLog}
    (consistent : prepared.transaction.Consistent)
    (named : ∀ entry ∈ prepared.entries, EventId.parse entry.eventId.asStr = .ok entry.eventId)
    (committed : prepared.commit = .ok after) :
    after.load.Consistent ∧ ∀ id, after.load.localStore.row id =
      (prepared.transaction.withCopies prepared.entries).row id := by
  obtain ⟨written, folded, events, ids, _⟩ := commit_ok committed
  obtain ⟨writtenConsistent, rows⟩ := consistent.putAll named folded
  have afterConsistent : after.load.Consistent := by
    have rearranged := writtenConsistent.of_ids ids
    rw [← events] at rearranged
    exact rearranged
  refine ⟨afterConsistent, fun id => ?_⟩
  rw [afterConsistent.row_localStore, events, ← writtenConsistent.row_localStore, rows,
    consistent.row_withCopies, consistent.row_localStore]

theorem loadGraph_congr {left right : LocalEventStore} {storeId : Str}
    (same : ∀ id, left.row id = right.row id) : left.loadGraph storeId = right.loadGraph storeId := by
  have events : left.replica.events = right.replica.events := Std.ExtTreeMap.ext_getElem? same
  unfold LocalEventStore.loadGraph LocalEventStore.eventIds ReplicaStore.eventIds
  rw [events]
  congr 1
  funext graph id
  unfold LocalEventStore.loadEvent
  rw [LocalEventStore.storedBytes_eq, LocalEventStore.storedBytes_eq, same]

namespace StoredLog

/-- The supplied events with the stored ones, whose ids are to tell them apart. -/
def eventsWith (log : StoredLog) (copies : List Copy) : List VaultEvent :=
  storedEvents log.load.localStore ++ copies.map Copy.event

/-- What leaves the verdicts of the log alone: the supplied copies are all new, or no event
is rejected in the stored log with the copies in place of those it has. -/
def Undisturbed (log : StoredLog) (storeId : Str) (entries : List EventBytes) : Prop :=
  (∀ entry ∈ entries, log.load.localStore.row entry.eventId = none) ∨
    ∃ graph, (log.load.withCopies entries).loadGraph storeId = .ok graph ∧
      ∀ id, id ∉ graph.quarantined

/-- Copies that are the stored ones leave the log alone. -/
theorem undisturbed_of_stored {log : StoredLog} {storeId : Str} {graph : EventGraph}
    (whole : log.Whole storeId graph) {copies : List Copy}
    (stored : ∀ copy ∈ copies,
      log.load.localStore.row copy.entry.eventId = some copy.entry.bytes) :
    log.Undisturbed storeId (copies.map Copy.entry) := by
  have rows : ∀ id, (log.load.withCopies (copies.map Copy.entry)).row id =
      log.load.localStore.row id := by
    intro id
    rw [whole.consistent.row_withCopies, ← whole.consistent.row_localStore]
    cases found : TransactionEvents.supplied (copies.map Copy.entry) id with
    | none => rw [Option.none_or]
    | some bytes =>
      obtain ⟨copy, member, own, same⟩ := Copy.of_supplied found
      rw [Option.some_or, ← own, stored copy member, same]
  exact Or.inr ⟨graph, (loadGraph_congr rows).trans whole.loads.loaded, whole.loads.clean.admitted⟩

end StoredLog

namespace StoredLog.Whole

variable {log after : StoredLog} {storeId : Str} {graph : EventGraph} {copies : List Copy}

/-- What the rows with the supplied copies hold. -/
theorem row_withCopies (whole : log.Whole storeId graph) {id : EventId} {bytes : EventStorageBytes}
    (stored : (log.load.withCopies (copies.map Copy.entry)).row id = some bytes) :
    (∃ copy ∈ copies, copy.entry.eventId = id ∧ copy.entry.bytes = bytes) ∨
      (∀ copy ∈ copies, copy.entry.eventId ≠ id) ∧ log.load.localStore.row id = some bytes := by
  rw [whole.consistent.row_withCopies, ← whole.consistent.row_localStore] at stored
  cases found : TransactionEvents.supplied (copies.map Copy.entry) id with
  | some own =>
    rw [found, Option.some_or] at stored
    cases stored
    exact Or.inl (Copy.of_supplied found)
  | none =>
    rw [found, Option.none_or] at stored
    exact Or.inr ⟨Copy.supplied_eq_none.mp found, stored⟩

theorem filed_withCopies (whole : log.Whole storeId graph) (copies : List Copy) :
    (log.load.withCopies (copies.map Copy.entry)).Filed := by
  intro id bytes event stored parsed
  rcases whole.row_withCopies stored with ⟨copy, _, own, same⟩ | ⟨_, held⟩
  · rw [← same, copy.parsed] at parsed
    cases parsed
    exact own ▸ copy.named
  · exact whole.loads.filed id bytes event held parsed

theorem mem_events (whole : log.Whole storeId graph) {next : EventGraph}
    (supplies : Supplies graph storeId (copies.map Copy.recorded) next) {id : EventId}
    {event : VaultEvent} (found : next.events[id]? = some event) :
    event ∈ log.eventsWith copies ∧ event.id = .ok id := by
  rcases supplies.source id event found with before | supplied
  · obtain ⟨bytes, stored, parsed⟩ := whole.loads.reads.of_event before
    exact ⟨List.mem_append_left _ (VaultEventSession.mem_storedEvents stored parsed),
      whole.loads.filed id bytes event stored parsed⟩
  · obtain ⟨copy, member, same⟩ := List.mem_map.mp supplied
    cases same
    exact ⟨List.mem_append_right _ (List.mem_map_of_mem member), copy.named⟩

/-- The rows with the supplied copies make a graph of the shape that was admitted. -/
theorem parents_eq (whole : log.Whole storeId graph) {next final : EventGraph}
    (supplies : Supplies graph storeId (copies.map Copy.recorded) next)
    (bind : IdsBind (log.eventsWith copies)) (indexed : final.Indexed)
    (reads : Reads (log.load.withCopies (copies.map Copy.entry)).row final.events) :
    final.causal.parents = next.causal.parents := by
  refine parents_congr indexed supplies.clean.indexed fun id => ?_
  cases stored : (log.load.withCopies (copies.map Copy.entry)).row id with
  | none =>
    rw [reads.of_no_row stored]
    rw [whole.consistent.row_withCopies, Option.or_eq_none_iff, ← whole.consistent.row_localStore,
      Copy.supplied_eq_none] at stored
    cases found : next.events[id]? with
    | none => rfl
    | some event =>
      rcases supplies.source id event found with before | supplied
      · rw [whole.loads.reads.of_no_row stored.2] at before
        cases before
      · obtain ⟨copy, member, same⟩ := List.mem_map.mp supplied
        exact absurd (congrArg Prod.fst same) (stored.1 copy member)
  | some bytes =>
    obtain ⟨event, parsed, finalFound⟩ := reads.of_row stored
    rw [finalFound]
    rcases whole.row_withCopies stored with ⟨copy, member, own, same⟩ | ⟨_, held⟩
    · rw [← same, copy.parsed] at parsed
      cases parsed
      have recorded := supplies.recorded copy.recorded (List.mem_map_of_mem member)
      obtain ⟨existing, found⟩ := (BTreeMap.mem_iff_getElem? _ _).mp recorded
      obtain ⟨inside, named⟩ := whole.mem_events supplies found
      have key : copy.recorded.1 = id := own
      rw [key] at found named
      rw [found, Option.map_some, Option.map_some]
      congr 1
      refine bind copy.event (List.mem_append_right _ (List.mem_map_of_mem member)) existing inside ?_
      rw [copy.named, own, named]
    · obtain ⟨read, readBack, before⟩ := whole.loads.reads.of_row held
      rw [parsed] at readBack
      cases readBack
      rw [supplies.grows id event before]

/-- Copies that are all new, under distinct ids, make exactly the admitted events. -/
theorem reads_of_fresh (whole : log.Whole storeId graph) {next : EventGraph}
    (supplies : Supplies graph storeId (copies.map Copy.recorded) next)
    (fresh : ∀ copy ∈ copies, log.load.localStore.row copy.entry.eventId = none)
    (distinct : ∀ copy ∈ copies, ∀ other ∈ copies,
      copy.entry.eventId = other.entry.eventId → copy.event = other.event) :
    Reads (log.load.withCopies (copies.map Copy.entry)).row next.events := by
  intro id
  cases stored : (log.load.withCopies (copies.map Copy.entry)).row id with
  | none =>
    rw [Option.mapM_none]
    rw [whole.consistent.row_withCopies, Option.or_eq_none_iff, ← whole.consistent.row_localStore,
      Copy.supplied_eq_none] at stored
    cases found : next.events[id]? with
    | none => rfl
    | some event =>
      rcases supplies.source id event found with before | supplied
      · rw [whole.loads.reads.of_no_row stored.2] at before
        cases before
      · obtain ⟨copy, member, same⟩ := List.mem_map.mp supplied
        exact absurd (congrArg Prod.fst same) (stored.1 copy member)
  | some bytes =>
    rw [Option.mapM_some]
    rcases whole.row_withCopies stored with ⟨copy, member, own, same⟩ | ⟨apart, held⟩
    · rw [← same, copy.parsed]
      have recorded := supplies.recorded copy.recorded (List.mem_map_of_mem member)
      obtain ⟨existing, found⟩ := (BTreeMap.mem_iff_getElem? _ _).mp recorded
      have key : copy.recorded.1 = id := own
      rw [key] at found
      have equal : existing = copy.event := by
        rcases supplies.source id existing found with before | supplied
        · have absent := fresh copy member
          rw [own] at absent
          rw [whole.loads.reads.of_no_row absent] at before
          cases before
        · obtain ⟨other, otherMem, sameOther⟩ := List.mem_map.mp supplied
          cases sameOther
          exact distinct other otherMem copy member own.symm
      rw [found, equal]
      rfl
    · obtain ⟨read, readBack, before⟩ := whole.loads.reads.of_row held
      rw [readBack, supplies.grows id read before]
      rfl

theorem committed (digests : DigestText) (whole : log.Whole storeId graph) (copies : List Copy)
    (prepared : PreparedEventAppend) (transaction : prepared.transaction = log.load)
    (entries : prepared.entries = copies.map Copy.entry)
    (supplies : Supplies graph storeId (copies.map Copy.recorded) prepared.graph)
    (bind : IdsBind (log.eventsWith copies))
    (distinct : (∀ copy ∈ copies, log.load.localStore.row copy.entry.eventId = none) →
      ∀ copy ∈ copies, ∀ other ∈ copies,
        copy.entry.eventId = other.entry.eventId → copy.event = other.event)
    (undisturbed : log.Undisturbed storeId (copies.map Copy.entry))
    (done : prepared.commit = .ok after) :
    ∃ final, after.Whole storeId final ∧ final.causal.parents = prepared.graph.causal.parents := by
  obtain ⟨consistent, rows⟩ := rows_commit (transaction ▸ whole.consistent) (fun entry member => by
    rw [entries] at member
    obtain ⟨copy, _, same⟩ := List.mem_map.mp member
    exact same ▸ parse_of_id digests copy.named) done
  rw [transaction, entries] at rows
  obtain ⟨_, _, _, _, heads⟩ := commit_ok done
  have loads : ∃ final, after.load.localStore.Loads storeId final ∧
      Reads (log.load.withCopies (copies.map Copy.entry)).row final.events := by
    rcases undisturbed with fresh | ⟨final, loaded, admitted⟩
    · have allFresh : ∀ copy ∈ copies, log.load.localStore.row copy.entry.eventId = none :=
        fun copy member => fresh copy.entry (List.mem_map_of_mem member)
      have reads := whole.reads_of_fresh supplies allFresh (distinct allFresh)
      have afterReads : Reads after.load.localStore.row prepared.graph.events := fun id => by
        rw [rows]
        exact reads id
      obtain ⟨final, loads, same, _⟩ :=
        LocalEventStore.loads_of_reads supplies.clean supplies.valid afterReads
      exact ⟨final, loads, same ▸ reads⟩
    · have filed := whole.filed_withCopies copies
      obtain ⟨judged, reads, _⟩ := LocalEventStore.loadGraph_judged filed loaded
      refine ⟨final, ⟨?_, ?_, judged, admitted⟩, reads⟩
      · intro id bytes event stored parsed
        rw [rows] at stored
        exact filed id bytes event stored parsed
      · rw [loadGraph_congr rows, loaded]
  obtain ⟨final, finalLoads, reads⟩ := loads
  have same := whole.parents_eq supplies bind finalLoads.clean.indexed reads
  refine ⟨final, ⟨consistent, finalLoads, ?_⟩, same⟩
  rw [heads, heads_congr finalLoads.clean supplies.clean same]

/-! ### The three transactions -/

theorem append (digests : DigestText) (whole : log.Whole storeId graph) {request : EventAppend}
    (serialized : VaultEvent.parseEventStorageBytes request.bytes = .ok request.event)
    (accepted : log.append storeId request = .ok after) :
    ∃ copy : Copy, copy.event = request.event ∧ copy.entry.bytes = request.bytes ∧
      (copy.entry.eventId ∈ graph.events ∨
        ∀ head, head ∈ graph.heads ↔ head ∈ request.event.body.parents) ∧
      ∃ next, Supplies graph storeId [copy.recorded] next ∧
        (IdsBind (log.eventsWith [copy]) → log.Undisturbed storeId [copy.entry] →
          ∃ final, after.Whole storeId final ∧ final.causal.parents = next.causal.parents) := by
  obtain ⟨prepared, admitted, done⟩ := bind_eq_ok.mp accepted
  obtain ⟨loaded, same, admitted⟩ := bind_eq_ok.mp admitted
  rw [mapError_eq_ok, whole.loads.loaded] at same
  cases same
  obtain ⟨⟨next, eventId⟩, inserted, same⟩ := bind_eq_ok.mp admitted
  cases same
  obtain ⟨named, placed, supplies⟩ :=
    VaultAppendGraph.insert_ok ⟨graph, storeId⟩ whole.loads.clean whole.loads.valid inserted
  let copy : Copy := ⟨⟨eventId, request.bytes⟩, request.event, named, serialized⟩
  refine ⟨copy, rfl, rfl, placed, next.graph, supplies, fun bind undisturbed => ?_⟩
  refine whole.committed digests [copy] ⟨log.load, next.graph, [copy.entry]⟩ rfl rfl supplies bind ?_
    undisturbed done
  intro _ left leftMem right rightMem _
  rw [List.mem_singleton.mp leftMem, List.mem_singleton.mp rightMem]

theorem appendEpochPair (digests : DigestText) (whole : log.Whole storeId graph)
    {request : EpochPairAppend}
    (serialized : VaultEvent.parseEventStorageBytes request.trigger.bytes = .ok request.trigger.event)
    (checkpointSerialized : VaultEvent.parseEventStorageBytes request.checkpoint.bytes =
      .ok request.checkpoint.event)
    (accepted : log.appendEpochPair storeId request = .ok after) :
    ∃ trigger checkpoint : Copy, trigger.event = request.trigger.event ∧
      trigger.entry.bytes = request.trigger.bytes ∧
      checkpoint.event = request.checkpoint.event ∧
      checkpoint.entry.bytes = request.checkpoint.bytes ∧
      ∃ next, Supplies graph storeId [trigger.recorded, checkpoint.recorded] next ∧
        (IdsBind (log.eventsWith [trigger, checkpoint]) →
          log.Undisturbed storeId [trigger.entry, checkpoint.entry] →
          ∃ final, after.Whole storeId final ∧ final.causal.parents = next.causal.parents) := by
  obtain ⟨prepared, admitted, done⟩ := bind_eq_ok.mp accepted
  obtain ⟨loaded, same, admitted⟩ := bind_eq_ok.mp admitted
  rw [mapError_eq_ok, whole.loads.loaded] at same
  cases same
  obtain ⟨⟨next, triggerId, checkpointId⟩, inserted, same⟩ := bind_eq_ok.mp admitted
  cases same
  obtain ⟨named, checkpointNamed, linked, appends, supplies⟩ :=
    VaultAppendGraph.insertPair_ok ⟨graph, storeId⟩ whole.loads.clean whole.loads.valid inserted
  let trigger : Copy :=
    ⟨⟨triggerId, request.trigger.bytes⟩, request.trigger.event, named, serialized⟩
  let checkpoint : Copy := ⟨⟨checkpointId, request.checkpoint.bytes⟩, request.checkpoint.event,
    checkpointNamed, checkpointSerialized⟩
  refine ⟨trigger, checkpoint, rfl, rfl, rfl, rfl, next.graph, supplies, ?_⟩
  intro bind undisturbed
  refine whole.committed digests [trigger, checkpoint]
    ⟨log.load, next.graph, [trigger.entry, checkpoint.entry]⟩ rfl rfl supplies bind ?_
    undisturbed done
  -- A new trigger is not its own checkpoint: it would be its own parent.
  intro fresh
  have apart : triggerId ≠ checkpointId := by
    intro same
    have unrecorded : triggerId ∉ graph.events := by
      rw [whole.loads.mem_events, not_not]
      exact fresh trigger (by simp)
    obtain ⟨middle, appended⟩ := appends unrecorded
    have parents := bind trigger.event (by simp [StoredLog.eventsWith]) checkpoint.event (by simp [StoredLog.eventsWith])
      (by rw [trigger.named, checkpoint.named]; exact congrArg Except.ok same)
    have own : triggerId ∈ request.trigger.event.body.parents := by
      rw [← mem_normalizeParents]
      change triggerId ∈ normalizeParents trigger.event.body.parents
      rw [parents, mem_normalizeParents]
      change triggerId ∈ request.checkpoint.event.body.parents
      rw [linked]
      exact List.mem_singleton_self triggerId
    refine appended.childless triggerId ?_
    rw [appended.judged.indexed.edge_iff, EventGraph.bodyParents_of_get appended.own]
    exact own
  intro left leftMem right rightMem same
  simp only [List.mem_cons, List.not_mem_nil, or_false] at leftMem rightMem
  rcases leftMem with rfl | rfl
  · rcases rightMem with rfl | rfl
    · rfl
    · exact absurd same apart
  · rcases rightMem with rfl | rfl
    · exact absurd same.symm apart
    · rfl

/-- An accepted pair is stored whole. -/
theorem stored_appendEpochPair (digests : DigestText) (whole : log.Whole storeId graph)
    {request : EpochPairAppend} (accepted : log.appendEpochPair storeId request = .ok after) :
    ∃ triggerId checkpointId, request.trigger.event.id = .ok triggerId ∧
      request.checkpoint.event.id = .ok checkpointId ∧
      after.load.localStore.row triggerId ≠ none ∧
      after.load.localStore.row checkpointId ≠ none := by
  obtain ⟨prepared, admitted, done⟩ := bind_eq_ok.mp accepted
  obtain ⟨loaded, same, admitted⟩ := bind_eq_ok.mp admitted
  rw [mapError_eq_ok, whole.loads.loaded] at same
  cases same
  obtain ⟨⟨next, triggerId, checkpointId⟩, inserted, same⟩ := bind_eq_ok.mp admitted
  cases same
  obtain ⟨named, checkpointNamed, _⟩ :=
    VaultAppendGraph.insertPair_ok ⟨graph, storeId⟩ whole.loads.clean whole.loads.valid inserted
  obtain ⟨_, rows⟩ := rows_commit whole.consistent (by
    intro entry member
    simp only [List.mem_cons, List.not_mem_nil, or_false] at member
    rcases member with rfl | rfl
    · exact parse_of_id digests named
    · exact parse_of_id digests checkpointNamed) done
  have stored : ∀ id, id = triggerId ∨ id = checkpointId →
      after.load.localStore.row id ≠ none := by
    intro id either
    rw [rows, whole.consistent.row_withCopies]
    simp only [TransactionEvents.supplied, Option.none_or]
    by_cases last : checkpointId = id
    · simp [last]
    · have first : triggerId = id := (either.resolve_right fun same => last same.symm).symm
      simp [last, first]
  exact ⟨triggerId, checkpointId, named, checkpointNamed, stored _ (Or.inl rfl), stored _ (Or.inr rfl)⟩

/-- A commit leaves the heads of the log exactly when the copies leave its verdicts alone. -/
theorem heads_iff_undisturbed (digests : DigestText) (whole : log.Whole storeId graph)
    (copies : List Copy) (prepared : PreparedEventAppend)
    (transaction : prepared.transaction = log.load)
    (entries : prepared.entries = copies.map Copy.entry)
    (supplies : Supplies graph storeId (copies.map Copy.recorded) prepared.graph)
    (bind : IdsBind (log.eventsWith copies))
    (distinct : (∀ copy ∈ copies, log.load.localStore.row copy.entry.eventId = none) →
      ∀ copy ∈ copies, ∀ other ∈ copies,
        copy.entry.eventId = other.entry.eventId → copy.event = other.event)
    (done : prepared.commit = .ok after) :
    (∃ final, after.load.localStore.loadGraph storeId = .ok final ∧
      after.storedHeads = final.heads.map Text.asStr) ↔
      log.Undisturbed storeId (copies.map Copy.entry) := by
  constructor
  · rintro ⟨final, loaded, heads⟩
    obtain ⟨_, rows⟩ := rows_commit (transaction ▸ whole.consistent) (fun entry member => by
      rw [entries] at member
      obtain ⟨copy, _, same⟩ := List.mem_map.mp member
      exact same ▸ parse_of_id digests copy.named) done
    rw [transaction, entries] at rows
    obtain ⟨_, _, _, _, storedHeads⟩ := commit_ok done
    rw [loadGraph_congr rows] at loaded
    obtain ⟨judged, reads, _⟩ :=
      LocalEventStore.loadGraph_judged (whole.filed_withCopies copies) loaded
    have parents := whole.parents_eq supplies bind judged.indexed reads
    have edges : prepared.graph.causal.Edge = final.causal.Edge := by
      funext parent child
      unfold CausalGraph.Edge CausalGraph.parentsOf
      rw [parents]
    refine Or.inr ⟨final, loaded, fun id rejected => ?_⟩
    -- A head above the rejected event is rejected with it, and no head of the loaded graph.
    have recorded : id ∈ prepared.graph.events := by
      rw [← supplies.clean.indexed.known_iff, ← parents, judged.indexed.known_iff]
      exact judged.recorded_of_quarantined rejected
    obtain ⟨head, member, path⟩ := supplies.clean.exists_head recorded
    obtain ⟨root, cause, below⟩ := (judged.quarantined_iff id).mp rejected
    unfold CausalGraph.AncestorOrSelf at path
    rw [edges] at path
    have gone : head ∈ final.causal.quarantined :=
      (judged.quarantined_iff head).mpr ⟨root, cause, below.trans path⟩
    have listed : head.asStr ∈ final.heads.map Text.asStr := by
      rw [← heads, storedHeads]
      exact List.mem_map_of_mem member
    obtain ⟨same, inside, equal⟩ := List.mem_map.mp listed
    have kept := (List.mem_filter.mp inside).2
    rw [Text.asStr_injective equal, Bool.and_eq_true, Bool.not_eq_true', ← Bool.not_eq_true,
      Std.ExtTreeMap.contains_iff_mem] at kept
    exact kept.1 gone
  · intro undisturbed
    obtain ⟨final, finalWhole, _⟩ := whole.committed digests copies prepared transaction entries
      supplies bind distinct undisturbed done
    exact ⟨final, finalWhole.loads.loaded, finalWhole.heads_eq⟩

end StoredLog.Whole

/-! ### Union -/

section Union

variable {store : LocalEventStore} {request : LocalRemoteUnion} {outcome : LocalRemoteUnionOutcome}
  {prepared : Nook.EventLog.PreparedRemoteUnion} {hidden : BTreeSet EventId}
  {whole part rest graph : EventGraph}
  (settlement : Settlement store request outcome prepared hidden whole part rest)
  (loads : store.Loads request.storeId graph)

include settlement loads

/-- A stored event is dropped exactly when it is excluded. -/
theorem kept_iff {id : EventId} (recorded : id ∈ graph.events) :
    id ∈ rest.events ↔ id ∉ prepared.excluded := by
  have reads := (LocalEventStore.loadGraph_judged settlement.filed settlement.rest_ok).2.1
  obtain ⟨bytes, stored⟩ := Option.ne_none_iff_exists'.mp ((loads.mem_events id).mp recorded)
  rw [reads.mem_iff, settlement.row_eq]
  by_cases excluded : id ∈ prepared.excluded
  · simp [excluded]
  · simp [excluded, stored]

/-- A stored event that stays is as it was. -/
theorem kept_eq {id : EventId} (recorded : id ∈ graph.events) (kept : id ∈ rest.events) :
    rest.events[id]? = graph.events[id]? := by
  have reads := (LocalEventStore.loadGraph_judged settlement.filed settlement.rest_ok).2.1
  refine reads.getElem?_eq loads.reads ?_
  obtain ⟨bytes, stored⟩ := Option.ne_none_iff_exists'.mp ((loads.mem_events id).mp recorded)
  rw [settlement.row_eq, if_neg ((kept_iff settlement loads recorded).mp kept), stored,
    Option.some_or]

/-- The parent of an event that stays, stays. -/
theorem kept_parent {parent child : EventId} (edge : graph.causal.Edge parent child)
    (recorded : parent ∈ graph.events) (kept : child ∈ rest.events) :
    parent ∈ rest.events ∧ rest.causal.Edge parent child := by
  have childRecorded : child ∈ graph.events :=
    (loads.clean.indexed.known_iff child).mp edge.known
  have same := kept_eq settlement loads childRecorded kept
  obtain ⟨event, found⟩ := (BTreeMap.mem_iff_getElem? _ _).mp kept
  have parents : parent ∈ event.body.parents := by
    rw [loads.clean.indexed.edge_iff, EventGraph.bodyParents_of_get (same ▸ found)] at edge
    exact edge
  have restEdge : rest.causal.Edge parent child := by
    rw [settlement.rest_judged.indexed.edge_iff, EventGraph.bodyParents_of_get found]
    exact parents
  refine ⟨?_, restEdge⟩
  rw [kept_iff settlement loads recorded]
  intro excluded
  have partEdge : part.causal.Edge parent child := by
    have partFound := settlement.rest_events child
    rw [found, if_neg ((kept_iff settlement loads childRecorded).mp kept)] at partFound
    rw [settlement.part_judged.indexed.edge_iff, EventGraph.bodyParents_of_get partFound.symm]
    exact parents
  refine (kept_iff settlement loads childRecorded).mp kept ((settlement.mem_excluded child).mpr ?_)
  rcases (settlement.mem_excluded parent).mp excluded with rejected | incomplete
  · left
    obtain ⟨root, cause, path⟩ := (settlement.part_judged.quarantined_iff parent).mp rejected
    exact (settlement.part_judged.quarantined_iff child).mpr ⟨root, cause, path.tail partEdge⟩
  · right
    obtain ⟨trigger, starts, uncommitted, path⟩ := incomplete
    exact ⟨trigger, starts, uncommitted, path.tail partEdge⟩

theorem kept_ancestor {ancestor id : EventId} (path : graph.causal.Ancestor ancestor id)
    (recorded : ancestor ∈ graph.events) (kept : id ∈ rest.events) :
    rest.causal.Ancestor ancestor id := by
  have stays : ∀ start, TransGen graph.causal.Edge start id → start ∈ graph.events →
      start ∈ rest.events ∧ rest.causal.Ancestor start id := by
    intro start path
    induction path using TransGen.head_induction_on with
    | single edge =>
      intro startRecorded
      obtain ⟨startKept, restEdge⟩ := kept_parent settlement loads edge startRecorded kept
      exact ⟨startKept, .single restEdge⟩
    | head edge _ ih =>
      intro startRecorded
      obtain ⟨middleKept, rest⟩ := ih ((loads.clean.indexed.known_iff _).mp edge.known)
      obtain ⟨startKept, restEdge⟩ := kept_parent settlement loads edge startRecorded middleKept
      exact ⟨startKept, .head restEdge rest⟩
  exact (stays ancestor path recorded).2

/-- What stays of an ordered set after a union is ordered. -/
theorem ordered_settlement {ids : Set EventId} (ordered : Ordered graph ids) :
    Ordered rest {id | id ∈ ids ∧ id ∈ rest.events} where
  recorded _ member := member.2
  comparable left leftMem right rightMem apart :=
    (ordered.comparable left leftMem.1 right rightMem.1 apart).imp
      (fun path => kept_ancestor settlement loads path (ordered.recorded left leftMem.1) rightMem.2)
      (fun path => kept_ancestor settlement loads path (ordered.recorded right rightMem.1) leftMem.2)

end Union

omit [External] [Storage] in
@[simp] theorem StoredLog.events_load (log : StoredLog) : log.load.events = log.events := by
  unfold StoredLog.load
  split
  · rfl
  · rfl

omit [External] [Storage] in
theorem mem_eventIds (store : LocalEventStore) (id : EventId) :
    id ∈ store.eventIds ↔ store.row id ≠ none := by
  unfold LocalEventStore.eventIds ReplicaStore.eventIds LocalEventStore.row
  rw [Std.ExtTreeMap.mem_keys, BTreeMap.mem_iff_getElem?, Option.ne_none_iff_exists']

/-- The rows after the commit of a union are those of the united store. -/
theorem rows_union (digests : DigestText) {transaction : TransactionEvents}
    (consistent : transaction.Consistent) {store : LocalEventStore} (filed : store.Filed)
    {storeId : Str} {graph : EventGraph} (loaded : store.loadGraph storeId = .ok graph)
    (kept : ∀ id, transaction.localStore.row id ≠ none → store.row id ≠ none →
      store.row id = transaction.localStore.row id)
    {written : BTreeMap Str String}
    (wrote : store.eventIds.foldlM (transaction.putAdmitted store) transaction.events = .ok written)
    {ids : List Str} (accepted : ∀ rawId, rawId ∈ ids ↔ ∃ id ∈ store.eventIds, id.asStr = rawId)
    {after : TransactionEvents} (afterIds : ∀ rawId, rawId ∈ after.ids ↔ rawId ∈ ids)
    (afterEvents : ∀ rawId : Str, after.events[rawId]? =
      if rawId ∈ transaction.removed ids then none else written[rawId]?) :
    after.Consistent ∧ ∀ id, after.localStore.row id = store.row id := by
  obtain ⟨new, old⟩ := TransactionEvents.putAdmitted_foldlM store store.eventIds wrote
  have removed_iff : ∀ rawId, rawId ∈ transaction.removed ids ↔
      rawId ∈ transaction.ids ∧ rawId ∉ ids := by
    intro rawId
    simp [TransactionEvents.removed]
  have rows : ∀ id, (after.events[id.asStr]?).map textBytes = store.row id := by
    intro id
    have named : id.asStr ∈ ids ↔ store.row id ≠ none := by
      rw [accepted, ← mem_eventIds]
      constructor
      · rintro ⟨other, member, same⟩
        exact Text.asStr_injective same ▸ member
      · exact fun member => ⟨id, member, rfl⟩
    rw [afterEvents]
    by_cases listed : id.asStr ∈ transaction.ids
    · have stored : transaction.localStore.row id ≠ none := by
        rw [ne_eq, consistent.row_eq_none, not_not]
        exact listed
      by_cases inside : id.asStr ∈ ids
      · rw [if_neg fun gone => ((removed_iff _).mp gone).2 inside,
          old id.asStr (fun _ _ _ => listed), ← consistent.row_localStore]
        exact (kept id stored (named.mp inside)).symm
      · rw [if_pos ((removed_iff _).mpr ⟨listed, inside⟩), Option.map_none]
        exact (not_not.mp fun present => inside (named.mpr present)).symm
    · rw [if_neg fun gone => listed ((removed_iff _).mp gone).1]
      by_cases inside : id.asStr ∈ ids
      · exact new id ((mem_eventIds store id).mpr (named.mp inside)) listed
      · rw [old id.asStr fun other member same =>
          absurd ((accepted _).mpr ⟨other, member, same⟩) inside]
        rw [consistent.listed, BTreeMap.not_mem_iff_getElem?] at listed
        rw [listed, Option.map_none]
        exact (not_not.mp fun present => inside (named.mpr present)).symm
  obtain ⟨events, reads⟩ := LocalEventStore.loadGraph_reads loaded
  have afterConsistent : after.Consistent := by
    constructor
    · intro rawId
      rw [afterIds, BTreeMap.mem_iff_getElem?, ← Option.ne_none_iff_exists']
      constructor
      · intro inside
        obtain ⟨id, member, same⟩ := (accepted rawId).mp inside
        intro absent
        have row := rows id
        rw [same, absent, Option.map_none] at row
        exact (mem_eventIds store id).mp member row.symm
      · intro present
        by_contra outside
        rw [afterEvents] at present
        by_cases listed : rawId ∈ transaction.ids
        · rw [if_pos ((removed_iff _).mpr ⟨listed, outside⟩)] at present
          exact present rfl
        · rw [if_neg fun gone => listed ((removed_iff _).mp gone).1, old rawId fun other member same =>
            absurd ((accepted _).mpr ⟨other, member, same⟩) outside] at present
          rw [consistent.listed, BTreeMap.not_mem_iff_getElem?] at listed
          exact present listed
    · intro rawId inside
      obtain ⟨id, member, same⟩ := (accepted rawId).mp ((afterIds rawId).mp inside)
      obtain ⟨bytes, stored⟩ := Option.ne_none_iff_exists'.mp ((mem_eventIds store id).mp member)
      obtain ⟨event, parsed, _⟩ := reads.of_row stored
      exact ⟨id, same ▸ parse_of_id digests (filed id bytes event stored parsed), same⟩
  exact ⟨afterConsistent, fun id => (afterConsistent.row_localStore id).trans (rows id)⟩

theorem StoredLog.Whole.union (digests : DigestText) {log after : StoredLog} {storeId : Str}
    {graph : EventGraph} (whole : log.Whole storeId graph)
    {remoteEvents : List (EventId × EventStorageBytes)}
    (accepted : log.unionRemote storeId remoteEvents = .ok after) :
    ∃ final, after.Whole storeId final ∧
      ∀ ids, Ordered graph ids → Ordered final {id | id ∈ ids ∧ id ∈ final.events} := by
  obtain ⟨outcome, united, accepted⟩ := bind_eq_ok.mp accepted
  obtain ⟨_, _, accepted⟩ := bind_eq_ok.mp accepted
  obtain ⟨_, _, accepted⟩ := bind_eq_ok.mp accepted
  obtain ⟨_, _, accepted⟩ := bind_eq_ok.mp accepted
  obtain ⟨written, wrote, same⟩ := bind_eq_ok.mp accepted
  rw [mapError_eq_ok] at united
  obtain ⟨prepared, hidden, all, part, rest, settlement⟩ :=
    unionRemote_settlement whole.loads.filed united
  rw [← log.events_load] at wrote
  have kept : ∀ id, log.load.localStore.row id ≠ none → outcome.store.row id ≠ none →
      outcome.store.row id = log.load.localStore.row id := by
    intro id stored present
    have row := settlement.row_eq id
    obtain ⟨bytes, found⟩ := Option.ne_none_iff_exists'.mp stored
    split at row
    · exact absurd row present
    · rw [row, found, Option.some_or]
  have listed : ∀ rawId, rawId ∈ sorted (outcome.store.eventIds.map Text.asStr) ↔
      ∃ id ∈ outcome.store.eventIds, id.asStr = rawId := fun rawId => by
    rw [mem_sorted, List.mem_map]
  have afterIds : ∀ rawId, rawId ∈ after.load.ids ↔
      rawId ∈ sorted (outcome.store.eventIds.map Text.asStr) := fun rawId => by
    rw [← Except.ok.inj same]
    exact mem_sorted _ rawId
  have afterEvents : ∀ rawId : Str, after.load.events[rawId]? =
      if rawId ∈ log.load.removed (sorted (outcome.store.eventIds.map Text.asStr)) then none
      else written[rawId]? := fun rawId => by
    have erased := BTreeMap.getElem?_foldl_erase
      (log.load.removed (sorted (outcome.store.eventIds.map Text.asStr))) written rawId
    rw [← Except.ok.inj same, StoredLog.events_load]
    by_cases gone : rawId ∈ log.load.removed (sorted (outcome.store.eventIds.map Text.asStr))
    · rw [if_pos gone] at erased ⊢
      exact erased
    · rw [if_neg gone] at erased ⊢
      exact erased
  obtain ⟨consistent, rows⟩ := rows_union digests whole.consistent settlement.filed
    settlement.rest_ok kept wrote listed afterIds afterEvents
  obtain ⟨_, reads, valid⟩ := LocalEventStore.loadGraph_judged settlement.filed settlement.rest_ok
  have clean : rest.Clean := ⟨settlement.rest_judged, settlement.not_quarantined⟩
  have afterReads : Reads after.load.localStore.row rest.events := fun id => by
    rw [rows]
    exact reads id
  obtain ⟨final, loads, finalEvents, finalHeads⟩ :=
    LocalEventStore.loads_of_reads clean valid afterReads
  have parents : rest.causal.parents = final.causal.parents :=
    parents_congr clean.indexed loads.clean.indexed fun id => by rw [finalEvents]
  refine ⟨final, ⟨consistent, loads, ?_⟩, fun ids ordered => ?_⟩
  · rw [finalHeads, ← settlement.heads_eq, ← Except.ok.inj same]
    rfl
  · rw [finalEvents]
    exact (ordered_settlement settlement whole.loads ordered).congr clean.indexed
      loads.clean.indexed parents

end Nook.EventDb
