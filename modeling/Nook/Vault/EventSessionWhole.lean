import Nook.Vault.EventSessionRun

set_option autoImplicit false

namespace Nook.Vault

open Nook.Lib Nook.Replication Nook.EventLog

variable [External] [Storage] [EventWriter] [VaultEpochCrypto]

namespace VaultEventSession

/-- The store loads as a clean graph and the heads are the heads of that graph. -/
structure WholeOn (session : VaultEventSession) (graph : EventGraph) : Prop where
  loads : session.store.Loads session.storeId graph
  mem_heads : ∀ head, head ∈ session.heads ↔ head ∈ graph.heads.map Text.asStr

/-! ### Building an event on the heads -/

omit [VaultEpochCrypto] in
/-- An event that the session builds on parsed parents reads back and has these parents. -/
theorem buildEvent_ok (faithful : FaithfulEncoding) {session : VaultEventSession}
    {parents : EventResult (List EventId)} {keyEpoch : EventResult EventId} {createdAt : Str}
    {operations : List VaultOperation} {event : VaultEvent} {bytes : EventStorageBytes}
    (built : session.buildEvent parents keyEpoch createdAt operations = .ok (event, bytes)) :
    VaultEvent.parseEventStorageBytes bytes = .ok event ∧
      ∃ ids, parents = .ok ids ∧ event.body.parents = normalizeParents ids := by
  obtain ⟨storeId, _, built⟩ := bind_eq_ok.mp built
  obtain ⟨actorId, _, built⟩ := bind_eq_ok.mp built
  obtain ⟨epoch, _, built⟩ := bind_eq_ok.mp built
  obtain ⟨timestamp, _, built⟩ := bind_eq_ok.mp built
  obtain ⟨ids, parsed, built⟩ := bind_eq_ok.mp built
  have made := mapError_eq_ok.mp built
  exact ⟨faithful.reads_back _ event bytes made, ids, mapError_eq_ok.mp parsed,
    AppendEventInput.parents_build made⟩

omit [VaultEpochCrypto] in
/-- The heads of a whole session are parents of what it builds on its heads. -/
theorem WholeOn.onHeads (faithful : FaithfulEncoding) {session : VaultEventSession}
    {graph : EventGraph} (whole : session.WholeOn graph) {ids : List EventId}
    (observed : ObservedHeads.asParents <$> ObservedHeads.parse session.heads = .ok ids)
    {head : EventId} (member : head ∈ graph.heads) : head ∈ normalizeParents ids := by
  cases parsed : ObservedHeads.parse session.heads with
  | error cause =>
    rw [parsed] at observed
    cases observed
  | ok heads =>
    rw [parsed] at observed
    cases observed
    obtain ⟨read, collected, same⟩ := bind_eq_ok.mp parsed
    cases same
    have raw : head.asStr ∈ session.heads :=
      (whole.mem_heads head.asStr).mpr (List.mem_map_of_mem member)
    obtain ⟨own, inside, parses⟩ := mapM_step collected raw
    obtain ⟨content, found⟩ := (BTreeMap.mem_iff_getElem? _ _).mp
      ((whole.loads.clean.mem_heads head).mp member).1
    obtain ⟨bytes, stored, readBack⟩ := whole.loads.reads.of_event found
    obtain ⟨body, _, digest⟩ := bind_eq_ok.mp (whole.loads.filed head bytes content stored readBack)
    cases digest
    rw [faithful.parse_digest body own parses] at inside
    unfold ObservedHeads.fromEventIds
    rw [normalizeParents_idem, mem_normalizeParents]
    exact inside

/-! ### Publishing one event -/

omit [EventWriter] [VaultEpochCrypto] in
/-- What an accepted preparation of a new event computes. -/
theorem prepareEvent_ok {session : VaultEventSession} {candidate next : SessionCandidate}
    {event : VaultEvent} {bytes : EventStorageBytes} {id : EventId}
    (ran : session.prepareEvent candidate (event, bytes) = .ok next)
    (named : event.id = .ok id) (absent : session.store.row id = none) :
    ∃ graph insertion, session.candidateGraph candidate.graph = .ok graph ∧
      graph.insert event session.storeId = .ok insertion ∧
      (∀ reason, insertion.status ≠ .quarantined reason) ∧
      next = ⟨some insertion.graph, candidate.prepared ++ [⟨id, bytes⟩]⟩ := by
  obtain ⟨own, same, ran⟩ := bind_eq_ok.mp ran
  rw [mapError_eq_ok, named] at same
  cases same
  rw [(session.store.getBytes_eq_unknownEvent id).mpr absent] at ran
  obtain ⟨graph, loaded, ran⟩ := bind_eq_ok.mp ran
  obtain ⟨insertion, inserted, ran⟩ := bind_eq_ok.mp ran
  refine ⟨graph, insertion, loaded, mapError_eq_ok.mp inserted, ?_, ?_⟩
  · intro reason rejected
    rw [rejected] at ran
    cases ran
  · split at ran
    · cases ran
    · cases ran
      rfl

omit [EventWriter] [VaultEpochCrypto] in
theorem prepareEvent_prepared {session : VaultEventSession} {candidate next : SessionCandidate}
    {built : VaultEvent × EventStorageBytes} (ran : session.prepareEvent candidate built = .ok next) :
    ∃ id, built.1.id = .ok id ∧ next.prepared = candidate.prepared ++ [⟨id, built.2⟩] := by
  obtain ⟨id, named, ran⟩ := bind_eq_ok.mp ran
  refine ⟨id, mapError_eq_ok.mp named, ?_⟩
  split at ran
  · cases ran
    rfl
  · obtain ⟨graph, _, ran⟩ := bind_eq_ok.mp ran
    obtain ⟨insertion, _, ran⟩ := bind_eq_ok.mp ran
    split at ran
    · cases ran
    · cases ran
      rfl

omit [VaultEpochCrypto] in
theorem prepareAppend_ok {session : VaultEventSession} {input : VaultEventAppend}
    {prepared : List PreparedSessionEvent} {eventId : EventId}
    (ran : session.prepareAppend input = .ok (prepared, eventId)) :
    ∃ event bytes, session.appendedEvent input = .ok (event, bytes) ∧ event.id = .ok eventId ∧
      session.preparePublication [(event, bytes)] = .ok prepared ∧
      prepared = [⟨eventId, bytes⟩] := by
  obtain ⟨⟨event, bytes⟩, made, ran⟩ := bind_eq_ok.mp ran
  obtain ⟨id, named, ran⟩ := bind_eq_ok.mp ran
  obtain ⟨published, prepares, same⟩ := bind_eq_ok.mp ran
  cases same
  refine ⟨event, bytes, made, mapError_eq_ok.mp named, prepares, ?_⟩
  obtain ⟨candidate, folded, same⟩ := bind_eq_ok.mp prepares
  cases same
  obtain ⟨next, first, done⟩ := bind_eq_ok.mp folded
  cases done
  obtain ⟨own, ownNamed, listed⟩ := prepareEvent_prepared first
  rw [mapError_eq_ok, ownNamed] at named
  cases named
  exact listed

theorem prepareRotation_ok {session : VaultEventSession} {input : VaultSecurityEpochRotationInput}
    {prepared : List PreparedSessionEvent} {triggerId : EventId}
    (ran : session.prepareRotation input = .ok (prepared, triggerId)) :
    ∃ pair checkpointId, session.epochPair input = .ok pair ∧ pair.triggerId = triggerId ∧
      pair.trigger.1.id = .ok triggerId ∧ pair.checkpoint.1.id = .ok checkpointId ∧
      session.preparePublication [pair.trigger, pair.checkpoint] = .ok prepared ∧
      prepared = [⟨triggerId, pair.trigger.2⟩, ⟨checkpointId, pair.checkpoint.2⟩] := by
  obtain ⟨pair, paired, ran⟩ := bind_eq_ok.mp ran
  obtain ⟨published, prepares, same⟩ := bind_eq_ok.mp ran
  cases same
  have named : pair.trigger.1.id = .ok pair.triggerId := by
    obtain ⟨_, _, made⟩ := bind_eq_ok.mp paired
    obtain ⟨_, _, made⟩ := bind_eq_ok.mp made
    obtain ⟨_, named, made⟩ := bind_eq_ok.mp made
    obtain ⟨_, _, same⟩ := bind_eq_ok.mp made
    cases same
    exact mapError_eq_ok.mp named
  obtain ⟨candidate, folded, same⟩ := bind_eq_ok.mp prepares
  cases same
  obtain ⟨middle, first, folded⟩ := bind_eq_ok.mp folded
  obtain ⟨next, second, done⟩ := bind_eq_ok.mp folded
  cases done
  obtain ⟨own, ownNamed, firstListed⟩ := prepareEvent_prepared first
  obtain ⟨checkpointId, checkpointNamed, listed⟩ := prepareEvent_prepared second
  rw [named] at ownNamed
  cases ownNamed
  rw [firstListed] at listed
  exact ⟨pair, checkpointId, paired, rfl, named, checkpointNamed, prepares, listed⟩

omit [External] [Storage] [EventWriter] [VaultEpochCrypto] in
theorem row_publishEvent (destination : EventPublicationDestination) (session : VaultEventSession)
    (event : PreparedSessionEvent) (other : EventId) :
    (publishEvent destination session event).store.row other =
      (session.store.row other).or (if event.eventId = other then some event.bytes else none) := by
  unfold publishEvent
  cases destination with
  | localOnly => exact session.store.replica.events_putEvent event.eventId event.bytes other
  | provider providerId =>
    refine ((session.store.queueOutbox providerId event.eventId event.bytes).replica.events_putEvent
      event.eventId event.bytes other).trans ?_
    unfold LocalEventStore.queueOutbox LocalEventStore.row
    rw [ReplicaStore.events_queueOutbox]

omit [External] [Storage] [EventWriter] [VaultEpochCrypto] in
theorem queued_publishEvent (destination : EventPublicationDestination)
    (session : VaultEventSession) (event : PreparedSessionEvent) (providerId : Str) (id : EventId) :
    (publishEvent destination session event).store.replica.queued providerId id =
      (session.store.replica.queued providerId id).or
        (if (providerId, id) ∈ destination.owes [event.eventId] then some event.bytes
        else none) := by
  unfold publishEvent
  cases destination with
  | localOnly =>
    simp only [EventPublicationDestination.owes, List.not_mem_nil, if_false, Option.or_none]
    unfold ReplicaStore.queued LocalEventStore.putEvent
    rw [ReplicaStore.outbox_putEvent]
  | provider own =>
    have queued := session.store.replica.queued_queueOutbox own providerId event.eventId id
      event.bytes
    simp only [EventPublicationDestination.owes, List.map_cons, List.map_nil, List.mem_singleton,
      Prod.mk.injEq]
    unfold ReplicaStore.queued LocalEventStore.putEvent
    rw [ReplicaStore.outbox_putEvent]
    refine queued.trans ?_
    by_cases same : own = providerId ∧ event.eventId = id
    · rw [if_pos same, if_pos ⟨same.1.symm, same.2.symm⟩]
      rfl
    · rw [if_neg same, if_neg fun other => same ⟨other.1.symm, other.2.symm⟩]
      rfl

/-! ### Appending and rotating -/

omit [External] [EventWriter] [VaultEpochCrypto] in
theorem mem_storedEvents {store : LocalEventStore} {id : EventId} {bytes : EventStorageBytes}
    {event : VaultEvent} (stored : store.row id = some bytes)
    (parsed : VaultEvent.parseEventStorageBytes bytes = .ok event) : event ∈ storedEvents store := by
  refine List.mem_filterMap.mpr ⟨(id, bytes), ?_, ?_⟩
  · exact Std.ExtTreeMap.mem_toList_iff_getElem?_eq_some.mpr stored
  · dsimp only
    rw [parsed]
    rfl

/-- A published event on the heads of a whole session, ready to be stored. -/
structure Publishes (session : VaultEventSession) (graph : EventGraph) (id : EventId)
    (event : VaultEvent) (bytes : EventStorageBytes) (next : EventGraph) : Prop where
  appended : EventGraph.Appended graph id event next
  valid : next.ValidFor session.storeId
  parsed : VaultEvent.parseEventStorageBytes bytes = .ok event

omit [EventWriter] [VaultEpochCrypto] in
/-- Publishing an event leaves a whole session with the event as its head. -/
theorem Publishes.publish {session : VaultEventSession} {graph next : EventGraph} {id : EventId}
    {event : VaultEvent} {bytes : EventStorageBytes}
    (publishes : Publishes session graph id event bytes next)
    (loads : session.store.Loads session.storeId graph)
    (destination : EventPublicationDestination) :
    ∃ final, (publishEvent destination session ⟨id, bytes⟩).WholeOn final ∧
      final.events = next.events := by
  obtain ⟨final, finalLoads, same, heads⟩ := loads.stored publishes.appended publishes.valid
    publishes.parsed (row_publishEvent destination session ⟨id, bytes⟩)
  refine ⟨final, ⟨finalLoads, ?_⟩, same⟩
  intro head
  rw [heads]
  rfl

omit [EventWriter] [VaultEpochCrypto] in
/-- A new event that a clean candidate graph admits on all its heads. -/
theorem publishes_of_prepared {session : VaultEventSession} {graph : EventGraph}
    {candidate next : SessionCandidate} (clean : graph.Clean) (valid : graph.ValidFor session.storeId)
    (judgedOn : session.candidateGraph candidate.graph = .ok graph) {event : VaultEvent}
    {bytes : EventStorageBytes} {id : EventId} (named : event.id = .ok id)
    (parsed : VaultEvent.parseEventStorageBytes bytes = .ok event)
    (onHeads : ∀ head ∈ graph.heads, head ∈ event.body.parents)
    (distinct : ∀ existing, graph.events[id]? = some existing →
      normalizeParents existing.body.parents = normalizeParents event.body.parents)
    (recorded : ∀ other, session.store.row other ≠ none → other ∈ graph.events)
    (ran : session.prepareEvent candidate (event, bytes) = .ok next) :
    ∃ after, Publishes session graph id event bytes after ∧
      next = ⟨some after, candidate.prepared ++ [⟨id, bytes⟩]⟩ := by
  have fresh : graph.events[id]? = none := by
    refine clean.fresh_of_heads fun existing found head member => ?_
    rw [← mem_normalizeParents, distinct existing found, mem_normalizeParents]
    exact onHeads head member
  have absent : session.store.row id = none := by
    by_contra stored
    exact (BTreeMap.not_mem_iff_getElem? _ _).mpr fresh (recorded id stored)
  obtain ⟨own, insertion, loaded, inserted, admitted, same⟩ := prepareEvent_ok ran named absent
  rw [judgedOn] at loaded
  cases loaded
  exact ⟨insertion.graph, ⟨clean.appended named fresh onHeads inserted admitted,
    valid.insert clean.indexed.wellFormed inserted, parsed⟩, same⟩

omit [EventWriter] [VaultEpochCrypto] in
theorem WholeOn.distinct {session : VaultEventSession} {graph : EventGraph}
    (whole : session.WholeOn graph) {built : List VaultEvent}
    (free : IdsBind (storedEvents session.store ++ built)) {event existing : VaultEvent}
    (member : event ∈ built) {id : EventId} (named : event.id = .ok id)
    (found : graph.events[id]? = some existing) :
    normalizeParents existing.body.parents = normalizeParents event.body.parents := by
  obtain ⟨bytes, stored, parsed⟩ := whole.loads.reads.of_event found
  refine free existing (List.mem_append_left _ (mem_storedEvents stored parsed)) event
    (List.mem_append_right _ member) ?_
  rw [whole.loads.filed id bytes existing stored parsed, named]

omit [VaultEpochCrypto] in
/-- The first event that a whole session builds on its heads and prepares. -/
theorem WholeOn.publishes (faithful : FaithfulEncoding) {session : VaultEventSession}
    {graph : EventGraph} (whole : session.WholeOn graph) {keyEpoch : EventResult EventId}
    {createdAt : Str} {operations : List VaultOperation} {event : VaultEvent}
    {bytes : EventStorageBytes}
    (made : session.buildEvent (ObservedHeads.asParents <$> ObservedHeads.parse session.heads)
      keyEpoch createdAt operations = .ok (event, bytes))
    {built : List VaultEvent} (free : IdsBind (storedEvents session.store ++ built))
    (member : event ∈ built) {id : EventId} (named : event.id = .ok id)
    {next : SessionCandidate} (ran : session.prepareEvent ⟨none, []⟩ (event, bytes) = .ok next) :
    ∃ after, Publishes session graph id event bytes after ∧
      next = ⟨some after, [⟨id, bytes⟩]⟩ := by
  obtain ⟨parsed, ids, observed, parents⟩ := buildEvent_ok faithful made
  refine publishes_of_prepared whole.loads.clean whole.loads.valid ?_ named parsed ?_ ?_ ?_ ran
  · show (session.store.loadGraph session.storeId).mapError VaultError.event = _
    rw [whole.loads.loaded]
    rfl
  · intro head head_mem
    rw [parents]
    exact whole.onHeads faithful observed head_mem
  · exact fun existing found => whole.distinct free member named found
  · exact fun other stored => (whole.loads.mem_events other).mpr stored

/-- A session stays whole through an accepted append. -/
theorem WholeOn.append (faithful : FaithfulEncoding) {session : VaultEventSession}
    {graph : EventGraph} (whole : session.WholeOn graph) {input : VaultEventAppend}
    (free : IdsBind (storedEvents session.store ++ session.built (.append input)))
    {prepared : List PreparedSessionEvent} {eventId : EventId}
    (ran : session.prepareAppend input = .ok (prepared, eventId)) :
    ∃ final, (session.publish prepared input.destination).WholeOn final := by
  obtain ⟨event, bytes, made, named, prepares, listed⟩ := prepareAppend_ok ran
  obtain ⟨candidate, folded, _⟩ := bind_eq_ok.mp prepares
  obtain ⟨next, first, _⟩ := bind_eq_ok.mp folded
  have built : session.built (.append input) = [event] := by
    simp only [VaultEventSession.built, made]
  rw [built] at free
  obtain ⟨after, publishes, _⟩ := whole.publishes faithful made free (List.mem_singleton_self _)
    named first
  obtain ⟨final, finalWhole, _⟩ := publishes.publish whole.loads input.destination
  rw [listed]
  exact ⟨final, finalWhole⟩

/-- A session stays whole through an accepted rotation. -/
theorem WholeOn.rotate (faithful : FaithfulEncoding) {session : VaultEventSession}
    {graph : EventGraph} (whole : session.WholeOn graph) {input : VaultSecurityEpochRotationInput}
    (free : IdsBind (storedEvents session.store ++ session.built (.rotate input)))
    {prepared : List PreparedSessionEvent} {triggerId : EventId}
    (ran : session.prepareRotation input = .ok (prepared, triggerId)) :
    ∃ final, (session.publish prepared input.destination).WholeOn final := by
  obtain ⟨pair, checkpointId, paired, identified, named, checkpointNamed, prepares, listed⟩ :=
    prepareRotation_ok ran
  have built : session.built (.rotate input) = [pair.trigger.1, pair.checkpoint.1] := by
    simp only [VaultEventSession.built, paired]
  rw [built] at free
  obtain ⟨operation, _, paired⟩ := bind_eq_ok.mp paired
  obtain ⟨⟨trigger, bytes⟩, made, paired⟩ := bind_eq_ok.mp paired
  obtain ⟨id, _, paired⟩ := bind_eq_ok.mp paired
  obtain ⟨⟨checkpoint, checkpointBytes⟩, alsoMade, paired⟩ := bind_eq_ok.mp paired
  cases paired
  cases identified
  obtain ⟨candidate, folded, _⟩ := bind_eq_ok.mp prepares
  obtain ⟨middle, first, folded⟩ := bind_eq_ok.mp folded
  obtain ⟨next, second, _⟩ := bind_eq_ok.mp folded
  obtain ⟨after, publishes, same⟩ := whole.publishes faithful made free (by simp) named first
  subst same
  obtain ⟨final, finalWhole, finalEvents⟩ := publishes.publish whole.loads input.destination
  -- The checkpoint is judged on the graph that holds the trigger, whose one head it is.
  obtain ⟨parsed, ids, observed, parents⟩ := buildEvent_ok faithful alsoMade
  cases observed
  have bound : ∀ existing, after.events[checkpointId]? = some existing →
      normalizeParents existing.body.parents = normalizeParents checkpoint.body.parents := by
    intro existing found
    rw [publishes.appended.getElem?_events] at found
    split at found
    · rename_i both
      cases found
      refine free trigger (by simp) checkpoint (by simp) ?_
      rw [named, checkpointNamed, both]
    · exact whole.distinct free (by simp) checkpointNamed found
  obtain ⟨last, alsoPublishes, _⟩ := publishes_of_prepared publishes.appended.next_clean
    publishes.valid rfl checkpointNamed parsed (by
      intro head member
      rw [publishes.appended.heads_eq] at member
      rw [parents, mem_normalizeParents]
      exact member) bound (by
      intro other stored
      obtain ⟨content, found⟩ := (BTreeMap.mem_iff_getElem? _ _).mp
        ((whole.loads.mem_events other).mpr stored)
      exact BTreeMap.mem_of_getElem? (publishes.appended.grows other content found)) second
  have onFinal : Publishes (publishEvent input.destination session ⟨id, bytes⟩) final
      checkpointId checkpoint checkpointBytes last :=
    ⟨alsoPublishes.appended.of_events finalWhole.loads.clean finalEvents, alsoPublishes.valid,
      alsoPublishes.parsed⟩
  obtain ⟨committed, committedWhole, _⟩ := onFinal.publish finalWhole.loads input.destination
  rw [listed]
  exact ⟨committed, committedWhole⟩

/-! ### Union and flush -/

omit [EventWriter] [VaultEpochCrypto] in
/-- A session is whole after an accepted union. -/
theorem WholeOn.union {session joined : VaultEventSession} {graph : EventGraph}
    (whole : session.WholeOn graph) {remoteEvents : List (EventId × EventStorageBytes)}
    (accepted : session.unionRemote remoteEvents = .ok joined) : ∃ final, joined.WholeOn final := by
  unfold unionRemote at accepted
  cases ran : session.store.unionRemote ⟨remoteEvents, session.storeId⟩ with
  | error rejected =>
    rw [ran] at accepted
    cases accepted
  | ok outcome =>
    rw [ran] at accepted
    cases accepted
    obtain ⟨_, _, _, _, rest, settlement⟩ := unionRemote_settlement whole.loads.filed ran
    refine ⟨rest, ⟨settlement.filed, settlement.rest_ok, settlement.rest_judged,
      settlement.not_quarantined⟩, ?_⟩
    intro head
    show head ∈ outcome.heads ↔ _
    rw [settlement.heads_eq]

omit [EventWriter] [VaultEpochCrypto] in
theorem unionRemote_refused {session : VaultEventSession}
    {remoteEvents : List (EventId × EventStorageBytes)} {rejection : VaultEventSessionRejection}
    (refused : session.unionRemote remoteEvents = .error rejection) :
    rejection.session = session := by
  unfold unionRemote at refused
  cases ran : session.store.unionRemote ⟨remoteEvents, session.storeId⟩ with
  | ok outcome =>
    rw [ran] at refused
    cases refused
  | error rejected =>
    rw [ran] at refused
    cases refused
    unfold LocalEventStore.unionRemote PreparedRemoteUnion.prepare at ran
    cases computed : PreparedRemoteUnion.prepared session.store
      ⟨remoteEvents, session.storeId⟩ with
    | ok prepared =>
      rw [computed] at ran
      cases ran
    | error cause =>
      rw [computed] at ran
      cases ran
      rfl

omit [External] [Storage] [EventWriter] [VaultEpochCrypto] in
/-- A flush moves the entries of one outbox, and changes nothing else. -/
theorem flushEntry_foldl (providerId : Str) (entries : List (EventId × EventStorageBytes))
    (flushed : VaultOutboxFlushed) :
    let result := entries.foldl (flushEntry providerId) flushed
    result.session = { flushed.session with store := result.session.store } ∧
      (∀ id, result.session.store.row id = flushed.session.store.row id) ∧
      (∀ other id, other ≠ providerId → result.session.store.replica.queued other id =
        flushed.session.store.replica.queued other id) ∧
      ∀ id, result.remote.row id = (flushed.remote.row id).or (recordBytes entries id) := by
  induction entries generalizing flushed with
  | nil => simp [recordBytes]
  | cons head tail ih =>
    obtain ⟨same, rows, queued, remote⟩ := ih (flushEntry providerId flushed head)
    refine ⟨same, ?_, ?_, ?_⟩
    · intro id
      refine (rows id).trans ?_
      unfold flushEntry LocalEventStore.dequeueOutbox LocalEventStore.row
      rw [ReplicaStore.events_dequeueOutbox]
    · intro other id apart
      refine (queued other id apart).trans ?_
      refine (flushed.session.store.replica.queued_dequeueOutbox providerId other head.1 id).trans ?_
      rw [if_neg fun both => apart both.1.symm]
    · intro id
      refine (remote id).trans ?_
      have put : (flushEntry providerId flushed head).remote.row id =
          (flushed.remote.row id).or (if head.1 = id then some head.2 else none) := by
        unfold flushEntry
        dsimp only
        by_cases unknown : flushed.remote.getBytes head.1 = .unknownEvent
        · rw [if_pos unknown]
          exact flushed.remote.replica.events_putEvent head.1 head.2 id
        · rw [if_neg unknown]
          by_cases own : head.1 = id
          · rw [LocalEventStore.getBytes_eq_unknownEvent, own] at unknown
            obtain ⟨bytes, found⟩ := Option.ne_none_iff_exists'.mp unknown
            rw [found, Option.some_or]
          · rw [if_neg own, Option.or_none]
      rw [put, recordBytes_cons, Option.or_assoc]
      by_cases own : head.1 = id
      · simp [own]
      · simp [own]

omit [EventWriter] [VaultEpochCrypto] in
theorem WholeOn.flush {session : VaultEventSession} {graph : EventGraph}
    (whole : session.WholeOn graph) (providerId : Str) (remote : LocalEventStore) :
    ∃ final, (session.flushOutboxToRemote providerId remote).session.WholeOn final := by
  obtain ⟨same, rows, _⟩ := flushEntry_foldl providerId (session.store.pendingOutbox providerId)
    ⟨session, remote⟩
  have reads : Reads (session.flushOutboxToRemote providerId remote).session.store.row
      graph.events := fun id => by
    rw [show (session.flushOutboxToRemote providerId remote).session.store.row id =
      session.store.row id from rows id]
    exact whole.loads.reads id
  obtain ⟨final, loads, _, heads⟩ :=
    LocalEventStore.loads_of_reads whole.loads.clean whole.loads.valid reads
  refine ⟨final, ?_⟩
  change (List.foldl (flushEntry providerId) ⟨session, remote⟩ _).session.WholeOn final
  rw [same]
  refine ⟨loads, fun head => ?_⟩
  rw [heads]
  exact whole.mem_heads head

end VaultEventSession

end Nook.Vault
