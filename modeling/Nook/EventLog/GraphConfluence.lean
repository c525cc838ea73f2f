import Nook.EventLog.GraphQuarantine
import Nook.EventLog.TestSupport
import Nook.Replication.CausalGraphOrder

set_option autoImplicit false

namespace Nook.EventLog

open Nook.Lib Nook.Replication Relation

namespace EventGraph

variable [External] {graph other : EventGraph}

/-- The verdict on the content of a recorded event with a recorded causal past is to reject it. -/
def Refused (graph : EventGraph) (id : EventId) : Prop :=
  graph.causal.Present id ∧ ∃ event reason, graph.events[id]? = some event ∧
    graph.classifyEvent event = .ok (.quarantine reason)

omit [External] in
/-- Below a present event a larger graph has no further ancestors. -/
theorem ancestorOrSelf_of_extends (indexed : graph.Indexed) (otherIndexed : other.Indexed)
    (grows : ∀ (id : EventId) (event : VaultEvent), graph.events[id]? = some event →
      other.events[id]? = some event) {ancestor id : EventId} (present : graph.causal.Present id)
    (path : other.causal.AncestorOrSelf ancestor id) : graph.causal.AncestorOrSelf ancestor id := by
  induction path using ReflTransGen.head_induction_on with
  | refl => exact .refl
  | @head parent child edge _ ih =>
    obtain ⟨event, found⟩ := (BTreeMap.mem_iff_getElem? _ _).mp
      ((indexed.known_iff child).mp (present child ih))
    refine .head ((indexed.edge_iff parent child).mpr ?_) ih
    rw [otherIndexed.edge_iff, bodyParents_of_get (grows child event found)] at edge
    rwa [bodyParents_of_get found]

/-- A refused event stays refused when more events are recorded. -/
theorem Refused.extend (indexed : graph.Indexed) (otherIndexed : other.Indexed)
    (grows : ∀ (id : EventId) (event : VaultEvent), graph.events[id]? = some event →
      other.events[id]? = some event) {id : EventId} (refused : graph.Refused id) :
    other.Refused id := by
  obtain ⟨present, event, reason, found, verdict⟩ := refused
  have recorded : ∀ ancestor, graph.causal.AncestorOrSelf ancestor id →
      ∃ event, graph.events[ancestor]? = some event := fun ancestor path =>
    (BTreeMap.mem_iff_getElem? _ _).mp ((indexed.known_iff ancestor).mp (present ancestor path))
  have same : graph.SamePast other event.body.parents := by
    intro ancestor member
    obtain ⟨parent, inside, path⟩ := (indexed.mem_pastOrder _ _).mp member
    have edge : graph.causal.Edge parent id := by
      rwa [indexed.edge_iff, bodyParents_of_get found]
    obtain ⟨older, olderFound⟩ := recorded ancestor (path.tail edge)
    rw [olderFound, grows ancestor older olderFound]
  refine ⟨?_, event, reason, grows id event found, same.classifyEvent_eq ▸ verdict⟩
  intro ancestor path
  have oldPath := ancestorOrSelf_of_extends indexed otherIndexed grows present path
  obtain ⟨older, olderFound⟩ := recorded ancestor oldPath
  exact (otherIndexed.known_iff ancestor).mpr
    (BTreeMap.mem_of_getElem? (grows ancestor older olderFound))

/-- A graph whose rejections are all accounted for by its events alone. -/
structure Judged (graph : EventGraph) : Prop where
  indexed : graph.Indexed
  settled : graph.Settled
  roots : ∀ root ∈ graph.causal.quarantineRoots, graph.Refused root

/-- Which ids are quarantined, with no reference to the order of the verdicts. -/
theorem Judged.quarantined_iff (judged : graph.Judged) (id : EventId) :
    id ∈ graph.quarantined ↔
      ∃ root, (graph.Refused root ∨ graph.causal.Ancestor root root) ∧
        graph.causal.AncestorOrSelf root id := by
  have wellFormed := judged.indexed.wellFormed
  show id ∈ graph.causal.quarantined ↔ _
  rw [wellFormed.quarantined_iff]
  constructor
  · rintro ⟨root, rejected | cyclic, path⟩
    · exact ⟨root, Or.inl (judged.roots root rejected), path⟩
    · exact ⟨root, Or.inr ((wellFormed.cyclic_iff root).mp cyclic), path⟩
  · rintro ⟨root, refused | cyclic, path⟩
    · have rejected : root ∈ graph.causal.quarantined := by
        by_contra admitted
        obtain ⟨present, event, reason, found, verdict⟩ := refused
        have retained := judged.settled root (BTreeMap.mem_of_getElem? found)
        have kept := judged.indexed.retain_verdict retained ⟨present, admitted⟩ found
        rw [kept] at verdict
        cases verdict
      obtain ⟨origin, reason, before⟩ := (wellFormed.quarantined_iff root).mp rejected
      exact ⟨origin, reason, before.trans path⟩
    · exact ⟨root, Or.inr ((wellFormed.cyclic_iff root).mpr cyclic), path⟩

theorem judged_new : Judged new where
  indexed := indexed_new
  settled := by
    intro id member
    simp [new] at member
  roots := by simp [new, CausalGraph.new]

/-- Recording an event under a free id and settling keeps every rejection accounted for. -/
theorem Judged.record {event : VaultEvent} {next : EventGraph} (judged : graph.Judged)
    {id : EventId} (fresh : graph.events[id]? = none)
    (steps : Quarantined (graph.recordEvent id event) next) (settled : next.Settled) :
    next.Judged := by
  have recorded := judged.indexed.recordEvent fresh event
  have grown : ∀ (known : EventId) (old : VaultEvent), graph.events[known]? = some old →
      (graph.recordEvent id event).events[known]? = some old := by
    intro known old found
    have apart : id ≠ known := fun same => by simp [same, found] at fresh
    show (graph.events.insert id event)[known]? = some old
    rw [BTreeMap.getElem?_insert_eq, if_neg apart]
    exact found
  refine ⟨steps.indexed recorded, settled, ?_⟩
  clear settled
  -- The rejected content is refused in the recorded graph already, so in every later one.
  have base : ∀ root ∈ (graph.recordEvent id event).causal.quarantineRoots,
      (graph.recordEvent id event).Refused root := by
    intro root member
    rw [quarantineRoots_recordEvent judged.indexed fresh] at member
    exact (judged.roots root member).extend judged.indexed recorded grown
  induction steps with
  | refl => exact base
  | @tail middle last before step ih =>
    have middleIndexed := Quarantined.indexed before recorded
    have lastIndexed := Quarantined.indexed (before.tail step) recorded
    have keeps : ∀ root, middle.Refused root → last.Refused root := fun root refused =>
      refused.extend middleIndexed lastIndexed (by simp [step.events_eq])
    intro root member
    cases step with
    | @reject rejected reason verdict =>
      apply keeps
      have entry : rejected = root ∨ root ∈ middle.causal.quarantineRoots :=
        (mem_mergeQuarantineReason _ _ _ _).mp member
      rcases entry with rfl | old
      · obtain ⟨present, content, found, refused⟩ := middleIndexed.quarantine_verdict verdict
        exact ⟨present, content, reason, found, refused⟩
      · exact ih root old

/-- Events with one id have one content: no two of them collide under SHA-256. -/
def CollisionFree (events : List VaultEvent) : Prop :=
  ∀ left ∈ events, ∀ right ∈ events, left.id = right.id →
    left.body.toCanonicalBytes = right.body.toCanonicalBytes

instance (events : List VaultEvent) : Decidable (CollisionFree events) :=
  inferInstanceAs (Decidable (∀ left ∈ events, ∀ right ∈ events, left.id = right.id →
    left.body.toCanonicalBytes = right.body.toCanonicalBytes))

/-- The recorded events are those of the list, each under its own id. -/
def Records (graph : EventGraph) (events : List VaultEvent) : Prop :=
  (∀ (id : EventId) (event : VaultEvent), graph.events[id]? = some event →
    event ∈ events ∧ event.id = .ok id) ∧
  ∀ event ∈ events, ∃ id existing, event.id = .ok id ∧ graph.events[id]? = some existing

/-- An accepted insertion of an event that collides with no earlier one. -/
theorem Judged.insert {past : List VaultEvent} {event : VaultEvent} {expectedStoreId : Str}
    {insertion : EventGraphInsertion} (judged : graph.Judged) (records : graph.Records past)
    (collisionFree : CollisionFree (past ++ [event]))
    (accepted : graph.insert event expectedStoreId = .ok insertion) :
    insertion.graph.Judged ∧ insertion.graph.Records (past ++ [event]) := by
  have widen : ∀ (id : EventId) (old : VaultEvent), graph.events[id]? = some old →
      old ∈ past ++ [event] ∧ old.id = .ok id := fun id old found =>
    ⟨List.mem_append_left _ (records.1 id old found).1, (records.1 id old found).2⟩
  have outcome := accepted_insert judged.indexed.wellFormed accepted
  generalize insertion.graph = next at outcome ⊢
  cases outcome with
  | @recorded id _ identified fresh steps settled =>
    refine ⟨judged.record fresh steps settled, ?_, ?_⟩
    · intro other recorded found
      rw [steps.events_eq] at found
      change (graph.events.insert id event)[other]? = some recorded at found
      rw [BTreeMap.getElem?_insert_eq] at found
      split at found
      · rename_i same
        cases found
        exact ⟨by simp, same ▸ identified⟩
      · exact widen other recorded found
    · intro other member
      rw [steps.events_eq]
      show ∃ known existing, other.id = .ok known ∧
        (graph.events.insert id event)[known]? = some existing
      simp only [BTreeMap.getElem?_insert_eq]
      rcases List.mem_append.mp member with old | new
      · obtain ⟨known, existing, otherIdentified, found⟩ := records.2 other old
        refine ⟨known, existing, otherIdentified, ?_⟩
        rw [if_neg]
        · exact found
        · rintro rfl
          rw [fresh] at found
          cases found
      · rw [List.mem_singleton.mp new]
        exact ⟨id, event, identified, if_pos rfl⟩
  | duplicate identified found =>
    refine ⟨judged, widen, ?_⟩
    intro other member
    rcases List.mem_append.mp member with old | new
    · exact records.2 other old
    · rw [List.mem_singleton.mp new]
      exact ⟨_, _, identified, found⟩
  | @conflict id existing _ identified found apart =>
    obtain ⟨member, existingIdentified⟩ := widen id existing found
    exact absurd (collisionFree existing member event (by simp)
      (existingIdentified.trans identified.symm)) apart

/-- A run of accepted insertions ends judged, with exactly the inserted events. -/
theorem Judged.insertAll {expectedStoreId : Str} {final : EventGraph} (events : List VaultEvent)
    {graph : EventGraph} {past : List VaultEvent} (judged : graph.Judged)
    (records : graph.Records past) (collisionFree : CollisionFree (past ++ events))
    (accepted : graph.insertAll expectedStoreId events = .ok final) :
    final.Judged ∧ final.Records (past ++ events) := by
  induction events generalizing graph past with
  | nil =>
    cases accepted
    rw [List.append_nil]
    exact ⟨judged, records⟩
  | cons head tail ih =>
    obtain ⟨middle, first, rest⟩ := bind_eq_ok.mp accepted
    obtain ⟨insertion, inserted, same⟩ := bind_eq_ok.mp first
    cases same
    have split : past ++ head :: tail = past ++ [head] ++ tail := by simp
    rw [split] at collisionFree ⊢
    obtain ⟨middleJudged, middleRecords⟩ := judged.insert records (by
      intro left first right second
      exact collisionFree left (List.mem_append_left _ first) right
        (List.mem_append_left _ second)) inserted
    exact ih middleJudged middleRecords collisionFree rest

theorem records_new : Records new [] := ⟨by simp [new], by simp⟩

theorem judged_insertAll {expectedStoreId : Str} {events : List VaultEvent}
    (collisionFree : CollisionFree events)
    (accepted : new.insertAll expectedStoreId events = .ok graph) :
    graph.Judged ∧ graph.Records events :=
  judged_new.insertAll events records_new collisionFree accepted

/-- Two judged graphs with the same events reject the same ids. -/
theorem Judged.agrees (judged : graph.Judged) (otherJudged : other.Judged)
    (same : graph.events = other.events) : graph.causal.Agrees other.causal := by
  have parents : graph.causal.parents = other.causal.parents := by
    apply Std.ExtTreeMap.ext_getElem?
    intro id
    rw [judged.indexed.parents_eq, otherJudged.indexed.parents_eq, same]
  have refused : ∀ id, graph.Refused id ↔ other.Refused id := fun id =>
    ⟨fun refused => refused.extend judged.indexed otherJudged.indexed (by simp [same]),
      fun refused => refused.extend otherJudged.indexed judged.indexed (by simp [same])⟩
  refine ⟨parents, fun id => ?_⟩
  have left := judged.quarantined_iff id
  have right := otherJudged.quarantined_iff id
  rw [CausalGraph.ancestor_congr parents, CausalGraph.ancestorOrSelf_congr parents] at left
  simp only [refused] at left
  exact left.trans right.symm

theorem topologicalOrder_congr (same : graph.events = other.events)
    (agrees : graph.causal.Agrees other.causal) : graph.topologicalOrder = other.topologicalOrder := by
  have past : ∀ parents, graph.SamePast other parents := fun _ id _ => by rw [same]
  have validated : graph.validateAuthorizations = other.validateAuthorizations := by
    unfold validateAuthorizations applicableEvents
    rw [agrees.applicableIds_eq, same]
    dsimp only
    congr 1
    funext _
    congr 1
    funext event
    rw [(past event.body.parents).validateEpochCheckpointStructure_eq,
      (past event.body.parents).validateEventActorAuthorized_eq]
  unfold topologicalOrder
  rw [validated, agrees.topologicalOrder_eq]

theorem topologicalOrder_extension (wellFormed : graph.causal.WellFormed) {order : List EventId}
    (ordered : graph.topologicalOrder = .ok order) : graph.causal.Extension order := by
  obtain ⟨found, causal, extension⟩ := CausalGraph.topologicalOrder_extension wellFormed
  unfold topologicalOrder at ordered
  obtain ⟨_, _, ordered⟩ := bind_eq_ok.mp ordered
  rw [causal] at ordered
  cases ordered
  exact extension

/-- Inserting a set of events with distinct ids, in any two orders that are
accepted throughout, ends with the same verdicts and the same derived order. -/
theorem insertAll_confluent (expectedStoreId : Str) (events reordered : List VaultEvent)
    (perm : events.Perm reordered) (distinct : (events.map VaultEvent.id).Nodup)
    (left right : EventGraph) (first : new.insertAll expectedStoreId events = .ok left)
    (second : new.insertAll expectedStoreId reordered = .ok right) :
    (∀ id, id ∈ left.quarantined ↔ id ∈ right.quarantined) ∧
      left.causal.applicableIds = right.causal.applicableIds ∧
      left.heads = right.heads ∧ left.topologicalOrder = right.topologicalOrder := by
  have single : ∀ left ∈ events, ∀ right ∈ events, left.id = right.id → left = right :=
    fun _ first _ second same => List.inj_on_of_nodup_map distinct first second same
  have collisionFree : CollisionFree events := fun left first right second same => by
    rw [single left first right second same]
  obtain ⟨leftJudged, leftRecords⟩ := judged_insertAll collisionFree first
  obtain ⟨rightJudged, rightRecords⟩ := judged_insertAll (fun left first right second =>
    collisionFree left (perm.mem_iff.mpr first) right (perm.mem_iff.mpr second)) second
  have lookup : ∀ (graph : EventGraph) (list : List VaultEvent), events.Perm list →
      graph.Records list → ∀ id event, graph.events[id]? = some event ↔
        event ∈ events ∧ event.id = .ok id := by
    intro graph list listPerm records id event
    constructor
    · intro found
      obtain ⟨member, identified⟩ := records.1 id event found
      exact ⟨listPerm.mem_iff.mpr member, identified⟩
    · rintro ⟨member, identified⟩
      obtain ⟨known, existing, sameId, found⟩ := records.2 event (listPerm.mem_iff.mp member)
      obtain ⟨existingMember, existingIdentified⟩ := records.1 known existing found
      rw [identified] at sameId
      cases sameId
      rw [found, single existing (listPerm.mem_iff.mpr existingMember) event member
        (existingIdentified.trans identified.symm)]
  have same : left.events = right.events := by
    apply Std.ExtTreeMap.ext_getElem?
    intro id
    apply Option.ext
    intro event
    rw [lookup left events (.refl _) leftRecords, lookup right reordered perm rightRecords]
  have agrees := leftJudged.agrees rightJudged same
  exact ⟨agrees.quarantined_iff, agrees.applicableIds_eq, agrees.heads_eq,
    topologicalOrder_congr same agrees⟩

end EventGraph

namespace TestSupport

/-- A member clears the vault next to an event of a stranger. -/
def forkedEvents : List VaultEvent :=
  [genesis 'g' '1',
    signed 'a' '1' [eventId 'g'] (eventId 'g') [.vaultCleared],
    signed 'b' '2' [eventId 'g'] (eventId 'g') [.vaultCleared]]

open EventGraph in
theorem insertAll_confluent_forkedEvents :
    ∃ left right : EventGraph, EventGraph.new.insertAll storeName forkedEvents = .ok left ∧
      EventGraph.new.insertAll storeName forkedEvents.reverse = .ok right ∧
      left.heads = right.heads ∧ left.topologicalOrder = right.topologicalOrder := by
  have accepted : ∀ events ∈ [forkedEvents, forkedEvents.reverse],
      (EventGraph.new.insertAll storeName events).isOk = true := by decide +kernel
  obtain ⟨left, first⟩ := exists_of_isOk (accepted forkedEvents (by simp))
  obtain ⟨right, second⟩ := exists_of_isOk (accepted forkedEvents.reverse (by simp))
  have same := insertAll_confluent storeName forkedEvents forkedEvents.reverse
    (List.reverse_perm forkedEvents).symm (by decide +kernel) left right first second
  exact ⟨left, right, first, second, same.2.2.1, same.2.2.2⟩

end TestSupport

end Nook.EventLog
