import Nook.EventLog.RemoteUnion

set_option autoImplicit false

namespace Nook.EventLog

open Nook.Lib Nook.Replication Relation

/-- The ids of the rows of a store. -/
def LocalEventStore.stored (store : LocalEventStore) : Set EventId := { id | store.row id ≠ none }

section Union

variable [External] [Storage]

namespace Settlement

variable {store : LocalEventStore} {request : LocalRemoteUnion} {outcome : LocalRemoteUnionOutcome}
  {prepared : PreparedRemoteUnion} {hidden : BTreeSet EventId} {whole part rest : EventGraph}
  (settlement : Settlement store request outcome prepared hidden whole part rest)

include settlement

/-- Hiding new records takes the incomplete events that are not stored. -/
theorem first : settlement.whole_judged.transitions.Restricts settlement.part_judged.transitions
    (settlement.whole_judged.transitions.withheld \ store.stored) := by
  refine settlement.whole_judged.restricts settlement.part_judged (fun id => ?_)
    fun id applicable => ?_
  · rw [settlement.part_events]
    split
    · exact Or.inr rfl
    · exact Or.inl rfl
  · have known := (settlement.whole_judged.indexed.known_iff id).mp applicable.1.known
    rw [BTreeMap.mem_iff_getElem?, settlement.part_events, Set.mem_sdiff,
      settlement.whole_judged.mem_withheld, ← settlement.mem_hidden]
    show _ ↔ ¬(id ∈ hidden ∧ ¬store.row id ≠ none)
    by_cases hides : store.row id = none ∧ id ∈ hidden
    · simp [hides]
    · rw [if_neg hides, ← BTreeMap.mem_iff_getElem?]
      refine iff_of_true known fun both => hides ⟨Classical.not_not.mp both.2, both.1⟩

/-- The exclusion takes the incomplete events. -/
theorem second : settlement.part_judged.transitions.Restricts settlement.rest_judged.transitions
    settlement.part_judged.transitions.withheld := by
  refine settlement.part_judged.restricts settlement.rest_judged (fun id => ?_)
    fun id applicable => ?_
  · rw [settlement.rest_events]
    split
    · exact Or.inr rfl
    · exact Or.inl rfl
  · have known := (settlement.part_judged.indexed.known_iff id).mp applicable.1.known
    rw [BTreeMap.mem_iff_getElem?, settlement.rest_events, settlement.part_judged.mem_withheld]
    have excluded_iff : id ∈ prepared.excluded ↔ part.Incomplete id := by
      rw [settlement.mem_excluded]
      exact or_iff_right applicable.2
    by_cases excluded : id ∈ prepared.excluded
    · simp [excluded, excluded_iff.mp excluded]
    · rw [if_neg excluded, ← BTreeMap.mem_iff_getElem?]
      exact iff_of_true known fun incomplete => excluded (excluded_iff.mpr incomplete)

/-- What is applicable after a union, in terms of the graph of all rows. -/
theorem applicable_iff (id : EventId) :
    rest.causal.Applicable id ↔ whole.causal.Applicable id ∧ ¬whole.Incomplete id ∧
      ∀ trigger, whole.Dangling store.stored trigger → ¬whole.causal.AncestorOrSelf trigger id := by
  have settled := Obligations.mem_settled_iff settlement.first settlement.second id
  simp only [settlement.whole_judged.mem_withheld, settlement.whole_judged.dangling_iff] at settled
  exact settled

theorem events_eq {id : EventId} (known : id ∈ rest.events) : rest.events[id]? = whole.events[id]? := by
  obtain ⟨event, found⟩ := (BTreeMap.mem_iff_getElem? _ _).mp known
  have left := settlement.rest_events id
  have right := settlement.part_events id
  rw [found] at left
  split at left
  · cases left
  rw [← left] at right
  split at right
  · cases right
  · rw [found, right]

/-- Nothing is rejected after a union. -/
theorem not_quarantined (id : EventId) : id ∉ rest.quarantined := by
  intro rejected
  have known := settlement.rest_judged.recorded_of_quarantined rejected
  obtain ⟨event, found⟩ := (BTreeMap.mem_iff_getElem? _ _).mp known
  rw [settlement.rest_events] at found
  split at found
  · cases found
  rename_i kept
  refine kept ((settlement.mem_excluded id).mpr (Or.inl ?_))
  refine settlement.part_judged.quarantined_of_extends settlement.rest_judged ?_ rejected
  intro other event found
  rw [settlement.rest_events] at found
  split at found
  · cases found
  · exact found

end Settlement

/-- Each trigger that stays has a checkpoint that stays: one that is neither incomplete
nor a dangling trigger itself. -/
def EventGraph.CommitmentsStay (graph : EventGraph) (kept : Set EventId) : Prop :=
  ∀ trigger, graph.Trigger trigger → ¬graph.Incomplete trigger →
    (∀ lost, graph.Dangling kept lost → ¬graph.causal.AncestorOrSelf lost trigger) →
    ∃ checkpoint, graph.CommittedBy trigger checkpoint ∧ ¬graph.Incomplete checkpoint ∧
      ¬graph.Dangling kept checkpoint

/-- What a union promises of the store it returns. -/
structure SoundUnion (store : LocalEventStore) (prepared : PreparedRemoteUnion)
    (outcome : LocalRemoteUnionOutcome) (graph : EventGraph) : Prop where
  not_quarantined : ∀ id, id ∉ graph.quarantined
  committed : ∀ trigger, graph.Trigger trigger → ∃ checkpoint, graph.CommittedBy trigger checkpoint
  heads_eq : outcome.heads = graph.heads.map Text.asStr
  imported_nodup : outcome.imported.Nodup
  mem_imported : ∀ id, id ∈ outcome.imported ↔ id ∈ outcome.store.stored ∧ id ∉ store.stored
  row_eq : ∀ id ∈ store.stored, id ∈ outcome.store.stored → outcome.store.row id = store.row id
  queued_eq : ∀ providerId id, outcome.store.replica.queued providerId id =
    if id ∈ prepared.excluded then none else store.replica.queued providerId id

/-- An accepted union keeps its promises exactly when no trigger loses all its checkpoints. -/
theorem unionRemote_sound_iff (store : LocalEventStore) (request : LocalRemoteUnion)
    (outcome : LocalRemoteUnionOutcome) (filed : store.Filed)
    (accepted : store.unionRemote request = .ok outcome) :
    ∃ prepared whole graph, PreparedRemoteUnion.prepare store request = .ok prepared ∧
      (LocalGraphProjection.mk store request.remoteEvents request.storeId ∅).build = .ok whole ∧
      outcome.store.loadGraph request.storeId = .ok graph ∧
      (SoundUnion store prepared outcome graph ↔ whole.CommitmentsStay store.stored) := by
  obtain ⟨prepared, hidden, whole, part, rest, settlement⟩ := unionRemote_settlement filed accepted
  refine ⟨prepared, whole, rest, settlement.prepared_ok, settlement.whole_ok, settlement.rest_ok, ?_⟩
  have met := Obligations.met_iff settlement.first settlement.second
  simp only [settlement.whole_judged.mem_withheld, settlement.whole_judged.dangling_iff] at met
  have stays : whole.CommitmentsStay store.stored ↔ settlement.rest_judged.transitions.Met := by
    rw [met]
    constructor
    · intro stays trigger applicable complete starts clear
      obtain ⟨checkpoint, committed, unhidden, sound⟩ :=
        stays trigger ⟨applicable, starts⟩ complete clear
      exact ⟨checkpoint, committed.1, committed.2, unhidden, sound⟩
    · intro stays trigger starts complete clear
      obtain ⟨checkpoint, applicable, commits, unhidden, sound⟩ :=
        stays trigger starts.1 complete starts.2 clear
      exact ⟨checkpoint, ⟨applicable, commits⟩, unhidden, sound⟩
  rw [stays]
  constructor
  · intro sound trigger applicable starts
    obtain ⟨checkpoint, committed⟩ := sound.committed trigger ⟨applicable, starts⟩
    exact ⟨checkpoint, committed.1, committed.2⟩
  · intro met
    refine ⟨settlement.not_quarantined, fun trigger starts => ?_, settlement.heads_eq,
      settlement.imported_nodup, fun id => ?_, fun id stored kept => ?_, settlement.queued_eq⟩
    · obtain ⟨checkpoint, applicable, commits⟩ := met trigger starts.1 starts.2
      exact ⟨checkpoint, applicable, commits⟩
    · rw [settlement.mem_imported]
      exact and_congr_right fun _ => Classical.not_not.symm
    · have row := settlement.row_eq id
      by_cases excluded : id ∈ prepared.excluded
      · rw [if_pos excluded] at row
        exact absurd row kept
      · obtain ⟨bytes, found⟩ := Option.ne_none_iff_exists'.mp stored
        rw [row, if_neg excluded, found, Option.some_or]

end Union

namespace TestSupport

/-- A version-2 checkpoint of the revocation `r` that revokes one more device. -/
def revokingCheckpoint : VaultEvent :=
  let event := signed 'k' '1' [eventId 'r'] (eventId 'r')
    [.epochCheckpoint [] ⟨[]⟩ .legacyRetain .unnamed, .deviceRevoked (device '3')]
  { event with body := { event.body with schemaVersion := VaultEventSchemaVersion.v2 } }

def rotation : List VaultEvent :=
  [genesis 'g' '1', genesis 'h' '2',
    signed 'r' '1' [eventId 'g'] (eventId 'g') [.deviceRevoked (device '2')],
    signed 'c' '1' [eventId 'r'] (eventId 'r') [.epochCheckpoint [] ⟨[]⟩ (.replace []) .unnamed],
    revokingCheckpoint]

/-- Stored events are their tags. -/
scoped instance storage : Storage where
  yamlFromStr text :=
    match rotation.find? fun event => event.body.createdAt.asStr.head? = text.head? with
    | some event => .ok event
    | none => .error "unknown tag"
  utf8Error _ := "invalid utf-8 sequence"

def tagRecord (tag : Char) : EventId × EventStorageBytes := (eventId tag, [tag.toNat.toUInt8])

def storeOf (tags : List Char) : LocalEventStore :=
  tags.foldl (fun store tag => store.putEvent (tagRecord tag).1 (tagRecord tag).2) .new

theorem filed_storeOf_genesis : (storeOf ['g']).Filed :=
  LocalEventStore.filed_of_rows _ (by decide +kernel)

/-- A genesis joined by a revocation with its checkpoint. -/
theorem unionRemote_sound_iff_rotation :
    ∃ outcome prepared graph, ∃ whole : EventGraph,
      (storeOf ['g']).unionRemote ⟨[tagRecord 'r', tagRecord 'c'], storeName⟩ = .ok outcome ∧
      outcome.imported = [eventId 'r', eventId 'c'] ∧
      (SoundUnion (storeOf ['g']) prepared outcome graph ↔
        whole.CommitmentsStay (storeOf ['g']).stored) := by
  obtain ⟨outcome, accepted, imported⟩ := exists_of_passes
    ((storeOf ['g']).unionRemote ⟨[tagRecord 'r', tagRecord 'c'], storeName⟩)
    (fun outcome => decide (outcome.imported = [eventId 'r', eventId 'c'])) (by decide +kernel)
  obtain ⟨prepared, whole, graph, _, _, _, sound⟩ := unionRemote_sound_iff (storeOf ['g'])
    ⟨[tagRecord 'r', tagRecord 'c'], storeName⟩ outcome filed_storeOf_genesis accepted
  exact ⟨outcome, prepared, graph, whole, accepted, of_decide_eq_true imported, sound⟩

theorem unionRemote_drops_checkpoint :
    ∃ outcome prepared graph,
      (storeOf ['g', 'r', 'k']).unionRemote ⟨[], storeName⟩ = .ok outcome ∧
      PreparedRemoteUnion.prepare (storeOf ['g', 'r', 'k']) ⟨[], storeName⟩ = .ok prepared ∧
      outcome.store.loadGraph storeName = .ok graph ∧
      ¬SoundUnion (storeOf ['g', 'r', 'k']) prepared outcome graph := by
  obtain ⟨prepared, preparedOk, checked⟩ := exists_of_passes
    (PreparedRemoteUnion.prepare (storeOf ['g', 'r', 'k']) ⟨[], storeName⟩)
    (fun prepared => passes (prepared.commit.store.loadGraph storeName) fun graph =>
      decide (graph.Trigger (eventId 'r')) &&
        !decide (∃ checkpoint, graph.CommittedBy (eventId 'r') checkpoint)) (by decide +kernel)
  obtain ⟨graph, loaded, uncommitted⟩ := exists_of_passes _ _ checked
  rw [Bool.and_eq_true, Bool.not_eq_true', decide_eq_true_iff, decide_eq_false_iff_not] at uncommitted
  refine ⟨prepared.commit, prepared, graph, ?_, preparedOk, loaded, fun sound => ?_⟩
  · unfold LocalEventStore.unionRemote
    rw [preparedOk]
    rfl
  · exact uncommitted.2 (sound.committed (eventId 'r') uncommitted.1)

end TestSupport

end Nook.EventLog
