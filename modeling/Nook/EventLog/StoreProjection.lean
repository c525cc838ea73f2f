import Nook.EventLog.SecurityTransition

set_option autoImplicit false

namespace Nook.EventLog

open Nook.Lib Nook.Replication

variable [Storage]

/-- The events are what the rows hold; every row can be read. -/
def Reads (rows : EventId → Option EventStorageBytes) (events : BTreeMap EventId VaultEvent) :
    Prop :=
  ∀ id : EventId, (rows id).mapM VaultEvent.parseEventStorageBytes = .ok events[id]?

/-- The first record under an id. -/
def recordBytes (records : List (EventId × EventStorageBytes)) (id : EventId) :
    Option EventStorageBytes :=
  (records.find? (·.1 = id)).map Prod.snd

section Reading

variable {rows other : EventId → Option EventStorageBytes} {events : BTreeMap EventId VaultEvent}

theorem Reads.getElem?_eq {otherEvents : BTreeMap EventId VaultEvent} (reads : Reads rows events)
    (otherReads : Reads other otherEvents) {id : EventId} (same : rows id = other id) :
    events[id]? = otherEvents[id]? := by
  have left := reads id
  rw [same, otherReads id] at left
  exact (Except.ok.inj left).symm

theorem Reads.of_row {id : EventId} {bytes : EventStorageBytes} (reads : Reads rows events)
    (stored : rows id = some bytes) :
    ∃ event, VaultEvent.parseEventStorageBytes bytes = .ok event ∧ events[id]? = some event := by
  have row := reads id
  rw [stored, Option.mapM_some] at row
  obtain ⟨event, parsed, same⟩ := bind_eq_ok.mp row
  exact ⟨event, parsed, (Except.ok.inj same).symm⟩

theorem Reads.of_no_row {id : EventId} (reads : Reads rows events) (absent : rows id = none) :
    events[id]? = none := by
  have row := reads id
  rw [absent] at row
  exact (Except.ok.inj row).symm

theorem Reads.of_event {id : EventId} {event : VaultEvent} (reads : Reads rows events)
    (found : events[id]? = some event) :
    ∃ bytes, rows id = some bytes ∧ VaultEvent.parseEventStorageBytes bytes = .ok event := by
  cases stored : rows id with
  | none =>
    rw [reads.of_no_row stored] at found
    cases found
  | some bytes =>
    obtain ⟨read, parsed, same⟩ := reads.of_row stored
    rw [same] at found
    cases found
    exact ⟨bytes, rfl, parsed⟩

theorem Reads.mem_iff (reads : Reads rows events) (id : EventId) :
    id ∈ events ↔ ∃ bytes, rows id = some bytes := by
  rw [BTreeMap.mem_iff_getElem?]
  constructor
  · rintro ⟨event, found⟩
    obtain ⟨bytes, stored, _⟩ := reads.of_event found
    exact ⟨bytes, stored⟩
  · rintro ⟨bytes, stored⟩
    obtain ⟨event, _, found⟩ := reads.of_row stored
    exact ⟨event, found⟩

end Reading

namespace LocalEventStore

variable (store : LocalEventStore)

/-- The stored bytes under an id. -/
def row (id : EventId) : Option EventStorageBytes := store.replica.events[id]?

omit [Storage] in
theorem storedBytes_eq (id : EventId) :
    store.storedBytes id = match store.row id with
      | some bytes => .ok bytes
      | none => .error (.missingEvent id.asStr) := by
  unfold storedBytes getBytes ReplicaStore.getBytes row
  cases store.replica.events[id]? <;> rfl

end LocalEventStore

namespace LocalGraphProjection

variable (projection : LocalGraphProjection)

/-- The row a projection reads under an id: the stored one before a received one. -/
def row (id : EventId) : Option EventStorageBytes :=
  if id ∈ projection.excluded then none
  else (projection.localStore.row id).or (recordBytes projection.remote id)

theorem readLocal_foldlM (ids : List EventId) {start events : BTreeMap EventId VaultEvent}
    (folded : ids.foldlM projection.readLocal start = .ok events) (id : EventId) :
    (if id ∈ ids ∧ id ∉ projection.excluded then
      (projection.localStore.storedBytes id >>= VaultEvent.parseEventStorageBytes).map some
    else .ok start[id]?) = .ok events[id]? := by
  induction ids generalizing start with
  | nil =>
    cases folded
    simp
  | cons head tail ih =>
    obtain ⟨middle, first, rest⟩ := bind_eq_ok.mp folded
    have later := ih rest
    by_cases excluded : head ∈ projection.excluded
    · have same : start = middle := by
        unfold readLocal at first
        rw [if_pos (Std.ExtTreeSet.contains_iff_mem.mpr excluded)] at first
        exact Except.ok.inj first
      subst same
      rw [← later]
      by_cases named : id = head
      · subst named
        simp [excluded]
      · simp [named]
    · unfold readLocal at first
      rw [if_neg (by rwa [Std.ExtTreeSet.contains_iff_mem])] at first
      obtain ⟨bytes, stored, first⟩ := bind_eq_ok.mp first
      obtain ⟨event, parsed, same⟩ := bind_eq_ok.mp first
      cases same
      rw [← later]
      by_cases named : id = head
      · subst named
        have read : (projection.localStore.storedBytes id >>=
            VaultEvent.parseEventStorageBytes) = .ok event := bind_eq_ok.mpr ⟨bytes, stored, parsed⟩
        rw [if_pos ⟨List.mem_cons_self, excluded⟩, read, BTreeMap.getElem?_insert_eq, if_pos rfl]
        simp [Except.map]
      · rw [BTreeMap.getElem?_insert_eq, if_neg (Ne.symm named)]
        simp [named]

theorem readRemote_foldlM (records : List (EventId × EventStorageBytes))
    {start events : BTreeMap EventId VaultEvent}
    (folded : records.foldlM projection.readRemote start = .ok events) (id : EventId) :
    (if id ∈ projection.excluded ∨ id ∈ start then .ok start[id]?
    else (recordBytes records id).mapM VaultEvent.parseEventStorageBytes) = .ok events[id]? := by
  induction records generalizing start with
  | nil =>
    cases folded
    by_cases known : id ∈ projection.excluded ∨ id ∈ events
    · rw [if_pos known]
    · rw [if_neg known,
        (BTreeMap.not_mem_iff_getElem? events id).mp fun member => known (Or.inr member)]
      rfl
  | cons head tail ih =>
    obtain ⟨middle, first, rest⟩ := bind_eq_ok.mp folded
    have later := ih rest
    have skipped : id ≠ head.1 → recordBytes (head :: tail) id = recordBytes tail id := by
      intro apart
      unfold recordBytes
      rw [List.find?_cons_of_neg (by simpa using apart.symm)]
    unfold readRemote at first
    by_cases known : head.1 ∈ projection.excluded ∨ head.1 ∈ start
    · rw [if_pos (by simpa [Std.ExtTreeSet.contains_iff_mem] using known)] at first
      cases first
      rw [← later]
      by_cases named : id = head.1
      · rw [named, if_pos known, if_pos known]
      · rw [skipped named]
    · rw [if_neg (by simpa [Std.ExtTreeSet.contains_iff_mem] using known)] at first
      obtain ⟨event, parsed, same⟩ := bind_eq_ok.mp first
      cases same
      rw [← later]
      by_cases named : id = head.1
      · have bytes : recordBytes (head :: tail) id = some head.2 := by
          unfold recordBytes
          rw [List.find?_cons_of_pos (by simpa using named.symm)]
          rfl
        rw [if_neg (named ▸ known), bytes, Option.mapM_some, parsed,
          if_pos (Or.inr (by rw [BTreeMap.mem_insert_eq]; exact Or.inl named.symm)),
          BTreeMap.getElem?_insert_eq, if_pos named.symm]
        rfl
      · have mem_iff : id ∈ start.insert head.1 event ↔ id ∈ start := by
          rw [BTreeMap.mem_insert_eq]
          exact or_iff_right (Ne.symm named)
        rw [skipped named, BTreeMap.getElem?_insert_eq, if_neg (Ne.symm named)]
        simp only [mem_iff]

theorem reads_events {events : BTreeMap EventId VaultEvent}
    (computed : projection.events = .ok events) : Reads projection.row events := by
  intro id
  obtain ⟨stored, first, rest⟩ := bind_eq_ok.mp computed
  have localRow := projection.readLocal_foldlM _ first id
  have remoteRow := projection.readRemote_foldlM _ rest id
  have known : id ∈ projection.localStore.eventIds ↔
      ∃ bytes, projection.localStore.row id = some bytes := by
    unfold LocalEventStore.eventIds ReplicaStore.eventIds
    rw [Std.ExtTreeMap.mem_keys, BTreeMap.mem_iff_getElem?]
    rfl
  have empty : (∅ : BTreeMap EventId VaultEvent)[id]? = none := Std.ExtTreeMap.getElem?_empty
  rw [empty, LocalEventStore.storedBytes_eq] at localRow
  unfold row
  by_cases excluded : id ∈ projection.excluded
  · rw [if_pos (Or.inl excluded)] at remoteRow
    rw [if_neg (fun both => both.2 excluded)] at localRow
    rw [if_pos excluded, ← remoteRow, ← Except.ok.inj localRow]
    rfl
  · rw [if_neg excluded]
    cases found : projection.localStore.row id with
    | none =>
      have missing : id ∉ projection.localStore.eventIds := by simp [known, found]
      rw [if_neg fun both => missing both.1] at localRow
      have absent := (BTreeMap.not_mem_iff_getElem? stored id).mpr (Except.ok.inj localRow).symm
      rw [if_neg (not_or.mpr ⟨excluded, absent⟩)] at remoteRow
      rw [Option.none_or, remoteRow]
    | some bytes =>
      rw [if_pos ⟨known.mpr ⟨bytes, found⟩, excluded⟩, found] at localRow
      rw [Option.some_or, Option.mapM_some]
      have read : (VaultEvent.parseEventStorageBytes bytes).map some = .ok stored[id]? := localRow
      cases parsed : VaultEvent.parseEventStorageBytes bytes with
      | error =>
        rw [parsed] at read
        cases read
      | ok event =>
        rw [parsed] at read
        have present : stored[id]? = some event := (Except.ok.inj read).symm
        rw [if_pos (Or.inr (BTreeMap.mem_of_getElem? present)), present] at remoteRow
        rw [← remoteRow]
        rfl

end LocalGraphProjection

variable [External]

namespace LocalEventStore

variable (store : LocalEventStore)

/-- Each row holds the event of its id, as the persistence layer checks when it loads a store. -/
def Filed : Prop :=
  ∀ id bytes event, store.row id = some bytes →
    VaultEvent.parseEventStorageBytes bytes = .ok event → event.id = .ok id

theorem filed_of_rows (checked : (store.replica.events.toList.all fun row =>
    passes (VaultEvent.parseEventStorageBytes row.2) fun event => decide (event.id = .ok row.1)) =
      true) : store.Filed := by
  intro id bytes event stored parsed
  have member := Std.ExtTreeMap.mem_toList_iff_getElem?_eq_some.mpr stored
  have named := List.all_eq_true.mp checked (id, bytes) member
  rw [parsed] at named
  exact of_decide_eq_true named

/-- Loading the store inserts what its rows hold, in the order of the ids. -/
theorem loadGraph_eq (storeId : Str) {events : BTreeMap EventId VaultEvent}
    (reads : Reads store.row events) :
    store.loadGraph storeId =
      (EventGraph.new.insertAll storeId events.intoValues).mapError EventGraphRejection.cause := by
  have ids : store.eventIds = events.keys := by
    refine BTreeMap.keys_congr fun id => ?_
    rw [reads.mem_iff, BTreeMap.mem_iff_getElem?]
    rfl
  unfold loadGraph EventGraph.insertAll
  rw [ids, ← foldlM_mapError, ← Std.ExtTreeMap.map_fst_toList_eq_keys, BTreeMap.intoValues,
    List.foldlM_map, List.foldlM_map]
  apply foldlM_congr_mem
  intro entry member graph
  have found := Std.ExtTreeMap.mem_toList_iff_getElem?_eq_some.mp member
  obtain ⟨bytes, stored, parsed⟩ := reads.of_event found
  unfold loadEvent
  rw [storedBytes_eq, stored]
  show (do
    let event ← VaultEvent.parseEventStorageBytes bytes
    let insertion ← (graph.insert event storeId).mapError EventGraphRejection.cause
    return insertion.graph) = _
  rw [parsed]
  show (do
    let insertion ← (graph.insert entry.2 storeId).mapError EventGraphRejection.cause
    return insertion.graph) = _
  cases graph.insert entry.2 storeId <;> rfl

end LocalEventStore

theorem LocalGraphProjection.build_ok (projection : LocalGraphProjection) {graph : EventGraph} (built : projection.build = .ok graph) :
    ∃ events, Reads projection.row events ∧
      EventGraph.new.insertAll projection.storeId events.intoValues = .ok graph := by
  obtain ⟨events, computed, inserted⟩ := bind_eq_ok.mp built
  exact ⟨events, projection.reads_events computed, mapError_eq_ok.mp inserted⟩

namespace EventGraph

omit [Storage] in
/-- Inserting events that are each filed under their own id records exactly them. -/
theorem judged_of_events {events : BTreeMap EventId VaultEvent} {storeId : Str} {graph : EventGraph}
    (filed : ∀ (id : EventId) (event : VaultEvent), events[id]? = some event → event.id = .ok id)
    (inserted : new.insertAll storeId events.intoValues = .ok graph) :
    graph.Judged ∧ graph.events = events := by
  have single : ∀ left ∈ events.intoValues, ∀ right ∈ events.intoValues, left.id = right.id →
      left = right := by
    intro left first right second same
    obtain ⟨leftId, leftFound⟩ := (BTreeMap.mem_intoValues events left).mp first
    obtain ⟨rightId, rightFound⟩ := (BTreeMap.mem_intoValues events right).mp second
    rw [filed leftId left leftFound, filed rightId right rightFound] at same
    cases same
    rw [leftFound] at rightFound
    exact Option.some.inj rightFound
  obtain ⟨judged, records⟩ := judged_insertAll (fun left first right second same => by
    rw [single left first right second same]) inserted
  refine ⟨judged, BTreeMap.ext fun id => Option.ext fun event => ?_⟩
  constructor
  · intro found
    obtain ⟨member, named⟩ := records.1 id event found
    obtain ⟨own, ownFound⟩ := (BTreeMap.mem_intoValues events event).mp member
    rw [filed own event ownFound] at named
    cases named
    exact ownFound
  · intro found
    have member := (BTreeMap.mem_intoValues events event).mpr ⟨id, found⟩
    obtain ⟨own, existing, named, ownFound⟩ := records.2 event member
    rw [filed id event found] at named
    cases named
    obtain ⟨existingMember, existingNamed⟩ := records.1 id existing ownFound
    rw [ownFound, single existing existingMember event member
      (existingNamed.trans (filed id event found).symm)]

end EventGraph

end Nook.EventLog
