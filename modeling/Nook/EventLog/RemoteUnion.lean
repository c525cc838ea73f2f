import Nook.EventLog.StoreProjection

set_option autoImplicit false

namespace Nook.EventLog

open Nook.Lib Nook.Replication

/-! ### Records by id -/

theorem recordBytes_cons (record : EventId × EventStorageBytes)
    (records : List (EventId × EventStorageBytes)) (id : EventId) :
    recordBytes (record :: records) id =
      if record.1 = id then some record.2 else recordBytes records id := by
  unfold recordBytes
  by_cases same : record.1 = id
  · rw [if_pos same, List.find?_cons_of_pos (by simpa using same)]
    rfl
  · rw [if_neg same, List.find?_cons_of_neg (by simpa using same)]

theorem recordBytes_append (left right : List (EventId × EventStorageBytes)) (id : EventId) :
    recordBytes (left ++ right) id = (recordBytes left id).or (recordBytes right id) := by
  unfold recordBytes
  rw [List.find?_append, Option.map_or]

theorem recordBytes_filter (keep : EventId → Bool) (records : List (EventId × EventStorageBytes))
    (id : EventId) :
    recordBytes (records.filter fun record => keep record.1) id =
      if keep id then recordBytes records id else none := by
  induction records with
  | nil => simp [recordBytes]
  | cons head tail ih =>
    rw [List.filter_cons, recordBytes_cons]
    by_cases same : head.1 = id
    · by_cases kept : keep id
      · rw [if_pos (same ▸ kept), recordBytes_cons, if_pos same, if_pos same, if_pos kept]
      · rw [if_neg (same ▸ kept), ih, if_neg kept, if_neg kept]
    · rw [if_neg same]
      by_cases kept : keep head.1
      · rw [if_pos kept, recordBytes_cons, if_neg same, ih]
      · rw [if_neg kept, ih]

theorem recordBytes_eq_none (records : List (EventId × EventStorageBytes)) (id : EventId) :
    recordBytes records id = none ↔ id ∉ records.map Prod.fst := by
  unfold recordBytes
  rw [Option.map_eq_none_iff, List.find?_eq_none, List.mem_map]
  constructor
  · rintro none ⟨record, member, same⟩
    exact none record member (by simpa using same)
  · intro none record member same
    exact none ⟨record, member, by simpa using same⟩

namespace LocalEventStore

variable (store : LocalEventStore)

theorem getBytes_eq_unknownEvent (id : EventId) :
    store.getBytes id = .unknownEvent ↔ store.row id = none := by
  unfold getBytes ReplicaStore.getBytes row
  cases store.replica.events[id]? <;> simp

/-- The additions so far, with the set of their ids. -/
def Collected (state : List (EventId × EventStorageBytes) × BTreeSet EventId) : Prop :=
  (∀ id, id ∈ state.2 ↔ id ∈ state.1.map Prod.fst) ∧ (state.1.map Prod.fst).Nodup

theorem addVisible_foldl (visible : List (EventId × EventStorageBytes))
    (state : List (EventId × EventStorageBytes) × BTreeSet EventId) (collected : Collected state) :
    Collected (visible.foldl store.addVisible state) ∧
      ∀ id, recordBytes (visible.foldl store.addVisible state).1 id =
        (recordBytes state.1 id).or (if store.row id = none then recordBytes visible id else none) := by
  induction visible generalizing state with
  | nil =>
    refine ⟨collected, fun id => ?_⟩
    simp [recordBytes]
  | cons head tail ih =>
    rw [List.foldl_cons]
    obtain ⟨ids, nodup⟩ := collected
    by_cases known : store.getBytes head.1 ≠ .unknownEvent ∨ state.2.contains head.1 = true
    · have same : store.addVisible state head = state := if_pos known
      rw [same]
      refine ⟨(ih state ⟨ids, nodup⟩).1, fun id => ?_⟩
      rw [(ih state ⟨ids, nodup⟩).2 id, recordBytes_cons]
      by_cases named : head.1 = id
      · rw [named, ne_eq, getBytes_eq_unknownEvent, Std.ExtTreeSet.contains_iff_mem, ids] at known
        rcases known with stored | added
        · rw [if_neg stored, if_neg stored]
        · cases found : recordBytes state.1 id with
          | none => exact absurd added ((recordBytes_eq_none _ _).mp found)
          | some bytes => rfl
      · rw [if_neg named]
    · have grown : store.addVisible state head =
          (state.1 ++ [head], state.2.insert head.1) := if_neg known
      rw [not_or, Classical.not_not, getBytes_eq_unknownEvent, Std.ExtTreeSet.contains_iff_mem,
        ids] at known
      have next : Collected (state.1 ++ [head], state.2.insert head.1) := by
        refine ⟨fun id => ?_, ?_⟩
        · rw [Std.ExtTreeSet.mem_insert, compare_eq_iff_eq, ids, List.map_append, List.mem_append,
            List.map_singleton, List.mem_singleton, or_comm, eq_comm]
        · rw [List.map_append, List.map_singleton, List.nodup_append]
          exact ⟨nodup, List.nodup_singleton _, fun left member right last => by
            rw [List.mem_singleton.mp last]
            rintro rfl
            exact known.2 member⟩
      rw [grown]
      refine ⟨(ih _ next).1, fun id => ?_⟩
      rw [(ih _ next).2 id, recordBytes_append, recordBytes_cons, recordBytes_cons]
      by_cases named : head.1 = id
      · have fresh : recordBytes state.1 id = none := (recordBytes_eq_none _ _).mpr (named ▸ known.2)
        have unstored : store.row id = none := named ▸ known.1
        rw [if_pos named, if_pos named, if_pos unstored, if_pos unstored, fresh]
        rfl
      · rw [if_neg named, if_neg named]
        simp [recordBytes]

/-- The new records: the first visible record of each id that is not stored. -/
theorem newRecords_spec (visible : List (EventId × EventStorageBytes)) :
    ((store.newRecords visible).map Prod.fst).Nodup ∧
      ∀ id, recordBytes (store.newRecords visible) id =
        if store.row id = none then recordBytes visible id else none := by
  obtain ⟨collected, found⟩ := store.addVisible_foldl visible ([], ∅) ⟨by simp, by simp⟩
  refine ⟨collected.2, fun id => ?_⟩
  unfold newRecords
  rw [found id]
  rfl

/-- The rows of the graph of stored and new records. -/
theorem newRecords_row {visible records : List (EventId × EventStorageBytes)}
    {hidden : BTreeSet EventId} (gated : ∀ id, recordBytes visible id =
      if id ∈ hidden then none else recordBytes records id) (id : EventId) :
    (store.row id).or (recordBytes (store.newRecords visible) id) =
      (store.row id).or (if id ∈ hidden then none else recordBytes records id) := by
  rw [(store.newRecords_spec visible).2, gated]
  cases store.row id <;> rfl

theorem commitAddition_foldl (additions : List (EventId × EventStorageBytes))
    (imported : List EventId) (id : EventId) :
    let result := additions.foldl PreparedRemoteUnion.commitAddition (store, imported)
    result.1.row id = (store.row id).or (recordBytes additions id) ∧
      result.1.replica.outbox = store.replica.outbox ∧
      result.2 = imported ++ additions.map Prod.fst := by
  induction additions generalizing store imported with
  | nil => simp [recordBytes]
  | cons head tail ih =>
    obtain ⟨row, outbox, ids⟩ := ih (store.putEvent head.1 head.2) (imported ++ [head.1])
    refine ⟨?_, ?_, ?_⟩
    · refine row.trans ?_
      have put : (store.putEvent head.1 head.2).row id =
          (store.row id).or (if head.1 = id then some head.2 else none) :=
        store.replica.events_putEvent head.1 head.2 id
      rw [put, recordBytes_cons, Option.or_assoc]
      by_cases named : head.1 = id <;> simp [named]
    · exact outbox.trans (store.replica.outbox_putEvent head.1 head.2)
    · refine ids.trans ?_
      simp

end LocalEventStore

namespace PreparedRemoteUnion

variable (prepared : PreparedRemoteUnion)

theorem row_commit (id : EventId) :
    prepared.commit.store.row id =
      (if id ∈ prepared.excluded then none else prepared.localStore.row id).or
        (recordBytes prepared.additions id) := by
  have rows := LocalEventStore.commitAddition_foldl
    ⟨prepared.localStore.replica.excludingEvents prepared.excluded⟩ prepared.additions [] id
  have excluding : LocalEventStore.row
      ⟨prepared.localStore.replica.excludingEvents prepared.excluded⟩ id =
        if id ∈ prepared.excluded then none else prepared.localStore.row id :=
    prepared.localStore.replica.events_excludingEvents prepared.excluded id
  rw [← excluding]
  exact rows.1

theorem imported_commit : prepared.commit.imported = prepared.additions.map Prod.fst :=
  (LocalEventStore.commitAddition_foldl
    ⟨prepared.localStore.replica.excludingEvents prepared.excluded⟩ prepared.additions [] ⟨[]⟩).2.2

theorem queued_commit (providerId : Str) (id : EventId) :
    prepared.commit.store.replica.queued providerId id =
      if id ∈ prepared.excluded then none
      else prepared.localStore.replica.queued providerId id := by
  have outbox := (LocalEventStore.commitAddition_foldl
    ⟨prepared.localStore.replica.excludingEvents prepared.excluded⟩ prepared.additions [] id).2.1
  refine Eq.trans ?_ (prepared.localStore.replica.queued_excludingEvents prepared.excluded
    providerId id)
  exact congrArg (fun outbox => (outbox[providerId]?).bind fun entries => entries[id]?) outbox

end PreparedRemoteUnion

/-! ### What a union computes -/

variable [Storage]

theorem parseRecord_fst {records : List (EventId × EventStorageBytes)}
    {parsed : List ((EventId × EventStorageBytes) × VaultEvent)}
    (read : records.mapM LocalEventStore.parseRecord = .ok parsed) : parsed.map Prod.fst = records := by
  apply map_of_mapM_eq_ok _ read
  intro record _ made
  obtain ⟨event, _, pair⟩ := bind_eq_ok.mp made
  cases pair
  rfl

variable [External]

/-- A graph of filed rows is judged and records what the rows hold. -/
theorem LocalGraphProjection.build_judged {projection : LocalGraphProjection} {graph : EventGraph}
    (built : projection.build = .ok graph)
    (filed : ∀ id bytes event, projection.row id = some bytes →
      VaultEvent.parseEventStorageBytes bytes = .ok event → event.id = .ok id) :
    graph.Judged ∧ graph.Filed ∧ Reads projection.row graph.events := by
  obtain ⟨events, reads, inserted⟩ := projection.build_ok built
  have named : ∀ (id : EventId) (event : VaultEvent), events[id]? = some event →
      event.id = .ok id := by
    intro id event found
    obtain ⟨bytes, stored, parsed⟩ := reads.of_event found
    exact filed id bytes event stored parsed
  obtain ⟨judged, same⟩ := EventGraph.judged_of_events named inserted
  refine ⟨judged, ?_, same ▸ reads⟩
  intro id event found
  rw [same] at found
  exact named id event found

/-- A union with what it computes: the graph of all rows, the graph without the hidden
new records, and the graph that is left. -/
structure Settlement (store : LocalEventStore) (request : LocalRemoteUnion)
    (outcome : LocalRemoteUnionOutcome) (prepared : PreparedRemoteUnion)
    (hidden : BTreeSet EventId) (whole part rest : EventGraph) : Prop where
  prepared_ok : PreparedRemoteUnion.prepare store request = .ok prepared
  whole_ok : (LocalGraphProjection.mk store request.remoteEvents request.storeId ∅).build = .ok whole
  rest_ok : outcome.store.loadGraph request.storeId = .ok rest
  whole_judged : whole.Judged
  part_judged : part.Judged
  rest_judged : rest.Judged
  rest_filed : rest.Filed
  mem_hidden : ∀ id, id ∈ hidden ↔ whole.Incomplete id
  part_events : ∀ id : EventId, part.events[id]? =
    if store.row id = none ∧ id ∈ hidden then none else whole.events[id]?
  rest_events : ∀ id : EventId, rest.events[id]? =
    if id ∈ prepared.excluded then none else part.events[id]?
  mem_excluded : ∀ id, id ∈ prepared.excluded ↔ id ∈ part.quarantined ∨ part.Incomplete id
  heads_eq : outcome.heads = rest.heads.map Text.asStr
  imported_nodup : outcome.imported.Nodup
  mem_imported : ∀ id, id ∈ outcome.imported ↔ outcome.store.row id ≠ none ∧ store.row id = none
  row_eq : ∀ id, outcome.store.row id =
    if id ∈ prepared.excluded then none
    else (store.row id).or (if id ∈ hidden then none else recordBytes request.remoteEvents id)
  queued_eq : ∀ providerId id, outcome.store.replica.queued providerId id =
    if id ∈ prepared.excluded then none else store.replica.queued providerId id
  filed : outcome.store.Filed

theorem checkRemote_id {expectedStore : StoreId} {record : EventId × EventStorageBytes}
    (checked : PreparedRemoteUnion.checkRemote expectedStore record = .ok ()) {event : VaultEvent}
    (parsed : VaultEvent.parseEventStorageBytes record.2 = .ok event) : event.id = .ok record.1 := by
  obtain ⟨read, remote, checked⟩ := bind_eq_ok.mp checked
  have same : read = event := by
    rw [VaultEvent.parseRemoteEventStorageBytes, mapError_eq_ok, parsed] at remote
    exact (Except.ok.inj remote).symm
  subst same
  obtain ⟨own, named, checked⟩ := bind_eq_ok.mp checked
  obtain ⟨_, matching, _⟩ := bind_eq_ok.mp checked
  rw [ensure_eq_ok, decide_eq_true_iff] at matching
  rw [named, matching]

/-- The gate takes the incomplete events of the graph of all rows out of the batch. -/
theorem visibilityGatedRemoteEvents_ok {store : LocalEventStore}
    {remoteEvents visible : List (EventId × EventStorageBytes)} {storeId : Str}
    (gated : store.visibilityGatedRemoteEvents remoteEvents storeId = .ok visible) :
    ∃ whole hidden, (LocalGraphProjection.mk store remoteEvents storeId ∅).build = .ok whole ∧
      whole.incompleteSecurityTransitionEvents = .ok hidden ∧
      ∀ id, recordBytes visible id = if id ∈ hidden then none else recordBytes remoteEvents id := by
  obtain ⟨whole, built, gated⟩ := bind_eq_ok.mp gated
  obtain ⟨hidden, computed, gated⟩ := bind_eq_ok.mp gated
  obtain ⟨parsed, read, same⟩ := bind_eq_ok.mp gated
  refine ⟨whole, hidden, built, computed, fun id => ?_⟩
  have kept : visible = remoteEvents.filter fun record => !hidden.contains record.1 := by
    rw [← parseRecord_fst read, List.filter_map]
    exact (Except.ok.inj same).symm
  rw [kept, recordBytes_filter fun id => !hidden.contains id]
  by_cases gone : id ∈ hidden
  · rw [if_pos gone, if_neg (by simp only [BTreeMap.not_contains_iff]; exact not_not_intro gone)]
  · rw [if_neg gone, if_pos ((BTreeMap.not_contains_iff _ _).mpr gone)]

omit [External] [Storage] in
theorem row_mk (store : LocalEventStore) (records : List (EventId × EventStorageBytes))
    (storeId : Str) (excluded : BTreeSet EventId) (id : EventId) :
    (LocalGraphProjection.mk store records storeId excluded).row id =
      if id ∈ excluded then none else (store.row id).or (recordBytes records id) := rfl

/-- Every row of the union, stored or received, is filed under its id. -/
theorem filed_whole {store : LocalEventStore} {records : List (EventId × EventStorageBytes)}
    {expectedStore : StoreId} (filed : store.Filed)
    (checked : records.forM (PreparedRemoteUnion.checkRemote expectedStore) = .ok ())
    {id : EventId} {bytes : EventStorageBytes} {event : VaultEvent}
    (row : (store.row id).or (recordBytes records id) = some bytes)
    (parsed : VaultEvent.parseEventStorageBytes bytes = .ok event) : event.id = .ok id := by
  cases stored : store.row id with
  | some own =>
    rw [stored, Option.some_or] at row
    cases row
    exact filed id _ event stored parsed
  | none =>
    rw [stored, Option.none_or] at row
    unfold recordBytes at row
    obtain ⟨record, found, same⟩ := Option.map_eq_some_iff.mp row
    have named : record.1 = id := by simpa using List.find?_some found
    subst same
    rw [← named]
    exact checkRemote_id (forM_eq_ok.mp checked record (List.mem_of_find?_eq_some found)) parsed

/-- The steps of an accepted union, in the order in which they are taken. -/
structure UnionRun (store : LocalEventStore) (request : LocalRemoteUnion)
    (outcome : LocalRemoteUnionOutcome) (prepared : PreparedRemoteUnion)
    (visible : List (EventId × EventStorageBytes)) (hidden incomplete : BTreeSet EventId)
    (whole part rest : EventGraph) : Prop where
  prepared_ok : PreparedRemoteUnion.prepare store request = .ok prepared
  checked : ∃ expectedStore,
    request.remoteEvents.forM (PreparedRemoteUnion.checkRemote expectedStore) = .ok ()
  whole_ok : (LocalGraphProjection.mk store request.remoteEvents request.storeId ∅).build = .ok whole
  hidden_ok : whole.incompleteSecurityTransitionEvents = .ok hidden
  visible_row : ∀ id, recordBytes visible id =
    if id ∈ hidden then none else recordBytes request.remoteEvents id
  part_ok : (LocalGraphProjection.mk store (store.newRecords visible) request.storeId ∅).build =
    .ok part
  incomplete_ok : part.incompleteSecurityTransitionEvents = .ok incomplete
  excluded_eq : prepared.excluded =
    (Std.ExtTreeSet.ofList part.quarantined.keys compare).insertMany incomplete.toList
  rest_ok : (LocalGraphProjection.mk store (store.newRecords visible) request.storeId
    prepared.excluded).build = .ok rest
  local_eq : prepared.localStore = store
  additions_eq : prepared.additions =
    (store.newRecords visible).filter fun record => !prepared.excluded.contains record.1
  heads_eq : prepared.heads = rest.heads.map Text.asStr
  outcome_eq : outcome = prepared.commit

theorem unionRemote_run {store : LocalEventStore} {request : LocalRemoteUnion}
    {outcome : LocalRemoteUnionOutcome} (accepted : store.unionRemote request = .ok outcome) :
    ∃ prepared visible hidden incomplete whole part rest,
      UnionRun store request outcome prepared visible hidden incomplete whole part rest := by
  obtain ⟨prepared, preparedOk, committed⟩ := bind_eq_ok.mp accepted
  have computed := mapError_eq_ok.mp preparedOk
  obtain ⟨expectedStore, _, computed⟩ := bind_eq_ok.mp computed
  obtain ⟨_, checked, computed⟩ := bind_eq_ok.mp computed
  obtain ⟨visible, gated, computed⟩ := bind_eq_ok.mp computed
  obtain ⟨part, partBuilt, computed⟩ := bind_eq_ok.mp computed
  obtain ⟨incomplete, incompleteOk, computed⟩ := bind_eq_ok.mp computed
  obtain ⟨rest, restBuilt, computed⟩ := bind_eq_ok.mp computed
  obtain ⟨whole, hidden, wholeBuilt, hiddenOk, visibleRows⟩ := visibilityGatedRemoteEvents_ok gated
  cases computed
  exact ⟨_, visible, hidden, incomplete, whole, part, rest, preparedOk, ⟨expectedStore, checked⟩,
    wholeBuilt, hiddenOk, visibleRows, partBuilt, incompleteOk, rfl, restBuilt, rfl, rfl, rfl,
    (Except.ok.inj committed).symm⟩

namespace UnionRun

variable {store : LocalEventStore} {request : LocalRemoteUnion} {outcome : LocalRemoteUnionOutcome}
  {prepared : PreparedRemoteUnion} {visible : List (EventId × EventStorageBytes)}
  {hidden incomplete : BTreeSet EventId} {whole part rest : EventGraph}
  (run : UnionRun store request outcome prepared visible hidden incomplete whole part rest)

include run

theorem row_eq (id : EventId) :
    outcome.store.row id = if id ∈ prepared.excluded then none
      else (store.row id).or (recordBytes (store.newRecords visible) id) := by
  rw [run.outcome_eq, PreparedRemoteUnion.row_commit, run.local_eq, run.additions_eq,
    recordBytes_filter fun id => !prepared.excluded.contains id]
  by_cases gone : id ∈ prepared.excluded
  · rw [if_pos gone, if_pos gone, if_neg fun kept => (BTreeMap.not_contains_iff _ _).mp kept gone]
    rfl
  · rw [if_neg gone, if_neg gone, if_pos ((BTreeMap.not_contains_iff _ _).mpr gone)]

/-- The store of the outcome loads as the accepted graph. -/
theorem loads : outcome.store.loadGraph request.storeId = .ok rest := by
  obtain ⟨events, reads, inserted⟩ := LocalGraphProjection.build_ok _ run.rest_ok
  have sameReads : Reads outcome.store.row events := fun id => by
    rw [run.row_eq]
    exact reads id
  rw [LocalEventStore.loadGraph_eq _ _ sameReads, inserted]
  rfl

theorem filed_row (filed : store.Filed) {id : EventId} {bytes : EventStorageBytes}
    {event : VaultEvent}
    (row : (store.row id).or (recordBytes (store.newRecords visible) id) = some bytes)
    (parsed : VaultEvent.parseEventStorageBytes bytes = .ok event) : event.id = .ok id := by
  obtain ⟨expectedStore, checked⟩ := run.checked
  have whole : (store.row id).or (recordBytes request.remoteEvents id) = some bytes := by
    rw [store.newRecords_row run.visible_row] at row
    cases stored : store.row id with
    | some own => rwa [stored] at row
    | none =>
      rw [stored, Option.none_or] at row
      rw [Option.none_or]
      split at row
      · cases row
      · exact row
  exact filed_whole filed checked whole parsed

theorem settlement (filed : store.Filed) :
    Settlement store request outcome prepared hidden whole part rest := by
  have partRow := store.newRecords_row run.visible_row
  obtain ⟨expectedStore, checked⟩ := run.checked
  obtain ⟨wholeJudged, wholeFiled, wholeReads⟩ := LocalGraphProjection.build_judged run.whole_ok
    (fun id bytes event row parsed => filed_whole filed checked (by simpa [row_mk] using row) parsed)
  obtain ⟨partJudged, partFiled, partReads⟩ := LocalGraphProjection.build_judged run.part_ok
    (fun id bytes event row parsed => run.filed_row filed (by simpa [row_mk] using row) parsed)
  obtain ⟨restJudged, restFiled, restReads⟩ := LocalGraphProjection.build_judged run.rest_ok (by
    intro id bytes event row parsed
    rw [row_mk] at row
    split at row
    · cases row
    · exact run.filed_row filed row parsed)
  refine ⟨run.prepared_ok, run.whole_ok, run.loads, wholeJudged, partJudged, restJudged, restFiled,
    wholeJudged.mem_incompleteSecurityTransitionEvents wholeFiled run.hidden_ok,
    ?part_events, ?rest_events, ?mem_excluded, ?heads, ?nodup, ?imported, ?row, ?queued, ?filed⟩
  case part_events =>
    intro id
    by_cases hides : store.row id = none ∧ id ∈ hidden
    · rw [if_pos hides]
      exact partReads.of_no_row (by rw [row_mk, partRow, hides.1, if_pos hides.2]; simp)
    · rw [if_neg hides]
      refine partReads.getElem?_eq wholeReads ?_
      rw [row_mk, row_mk, partRow]
      cases stored : store.row id with
      | some bytes => rfl
      | none => rw [if_neg fun member => hides ⟨stored, member⟩]
  case rest_events =>
    intro id
    by_cases member : id ∈ prepared.excluded
    · rw [if_pos member]
      exact restReads.of_no_row (by rw [row_mk, if_pos member])
    · rw [if_neg member]
      refine restReads.getElem?_eq partReads ?_
      rw [row_mk, row_mk, if_neg member, if_neg (by simp)]
  case mem_excluded =>
    intro id
    rw [run.excluded_eq, Std.ExtTreeSet.mem_insertMany_list, Std.ExtTreeSet.mem_ofList,
      List.contains_iff_mem, List.contains_iff_mem, Std.ExtTreeMap.mem_keys,
      Std.ExtTreeSet.mem_toList,
      partJudged.mem_incompleteSecurityTransitionEvents partFiled run.incomplete_ok]
  case heads => exact run.outcome_eq ▸ run.heads_eq
  case nodup =>
    rw [run.outcome_eq, PreparedRemoteUnion.imported_commit, run.additions_eq]
    exact (store.newRecords_spec visible).1.sublist (List.Sublist.map _ List.filter_sublist)
  case imported =>
    intro id
    have imported : outcome.imported = prepared.additions.map Prod.fst := by
      rw [run.outcome_eq, PreparedRemoteUnion.imported_commit]
    rw [imported, ← Decidable.not_not (p := id ∈ _), ← recordBytes_eq_none, run.additions_eq,
      recordBytes_filter fun id => !prepared.excluded.contains id, run.row_eq]
    by_cases member : id ∈ prepared.excluded
    · rw [if_pos member, if_neg fun kept => (BTreeMap.not_contains_iff _ _).mp kept member]
      simp
    · rw [if_neg member, if_pos ((BTreeMap.not_contains_iff _ _).mpr member),
        (store.newRecords_spec visible).2]
      cases store.row id <;> simp
  case row =>
    intro id
    rw [run.row_eq, partRow]
  case queued =>
    intro providerId id
    rw [run.outcome_eq, PreparedRemoteUnion.queued_commit, run.local_eq]
  case filed =>
    intro id bytes event row parsed
    rw [run.row_eq] at row
    split at row
    · cases row
    · exact run.filed_row filed row parsed

end UnionRun

theorem unionRemote_settlement {store : LocalEventStore} {request : LocalRemoteUnion}
    {outcome : LocalRemoteUnionOutcome} (filed : store.Filed)
    (accepted : store.unionRemote request = .ok outcome) :
    ∃ prepared hidden whole part rest,
      Settlement store request outcome prepared hidden whole part rest := by
  obtain ⟨prepared, _, hidden, _, whole, part, rest, run⟩ := unionRemote_run accepted
  exact ⟨prepared, hidden, whole, part, rest, run.settlement filed⟩

end Nook.EventLog
