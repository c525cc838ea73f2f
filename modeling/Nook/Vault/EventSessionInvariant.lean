import Nook.EventLog.Canonical
import Nook.Vault.EventSessionWhole
import Nook.EventLog.TestSupport

set_option autoImplicit false

namespace Nook.Vault

open Nook.Lib Nook.Replication Nook.EventLog

variable [External] [Storage] [EventWriter] [VaultEpochCrypto]

namespace VaultEventSession

omit [External] [Storage] [EventWriter] [VaultEpochCrypto] in
theorem row_publish (destination : EventPublicationDestination)
    (prepared : List PreparedSessionEvent) (session : VaultEventSession) (id : EventId)
    (holds : id ∈ prepared.map PreparedSessionEvent.eventId ∨ session.store.row id ≠ none) :
    (session.publish prepared destination).store.row id ≠ none := by
  induction prepared generalizing session with
  | nil => exact holds.resolve_left (by simp)
  | cons head tail ih =>
    apply ih
    rw [row_publishEvent]
    rcases holds with published | stored
    · rcases List.mem_cons.mp published with own | later
      · simp [own]
      · exact Or.inl later
    · obtain ⟨bytes, found⟩ := Option.ne_none_iff_exists'.mp stored
      simp [found]

omit [External] [Storage] [EventWriter] [VaultEpochCrypto] in
theorem queued_publish (destination : EventPublicationDestination)
    (prepared : List PreparedSessionEvent) (session : VaultEventSession) (providerId : Str)
    (id : EventId)
    (holds : (providerId, id) ∈ destination.owes (prepared.map PreparedSessionEvent.eventId) ∨
      session.store.replica.queued providerId id ≠ none) :
    (session.publish prepared destination).store.replica.queued providerId id ≠ none := by
  induction prepared generalizing session with
  | nil =>
    refine holds.resolve_left ?_
    cases destination with
    | localOnly => simp [EventPublicationDestination.owes]
    | provider own => simp [EventPublicationDestination.owes]
  | cons head tail ih =>
    apply ih
    rw [queued_publishEvent]
    rcases holds with owed | queued
    · cases destination with
      | localOnly => cases owed
      | provider own =>
        rcases List.mem_cons.mp owed with now | later
        · have published : (providerId, id) ∈
              (EventPublicationDestination.provider own).owes [head.eventId] := by
            simp [EventPublicationDestination.owes, now]
          simp [published]
        · exact Or.inl later
    · obtain ⟨bytes, found⟩ := Option.ne_none_iff_exists'.mp queued
      simp [found]

omit [EventWriter] [VaultEpochCrypto] in
/-- A union takes only entries of events it takes from the store. -/
theorem queued_unionRemote {session joined : VaultEventSession} {graph : EventGraph}
    (whole : session.WholeOn graph) {remoteEvents : List (EventId × EventStorageBytes)}
    (accepted : session.unionRemote remoteEvents = .ok joined) (providerId : Str) (id : EventId)
    (kept : joined.store.row id ≠ none) :
    joined.store.replica.queued providerId id = session.store.replica.queued providerId id := by
  unfold unionRemote at accepted
  cases ran : session.store.unionRemote ⟨remoteEvents, session.storeId⟩ with
  | error rejected =>
    rw [ran] at accepted
    cases accepted
  | ok outcome =>
    rw [ran] at accepted
    cases accepted
    obtain ⟨prepared, _, _, _, _, settlement⟩ := unionRemote_settlement whole.loads.filed ran
    refine (settlement.queued_eq providerId id).trans ?_
    rw [if_neg]
    intro excluded
    refine kept ((settlement.row_eq id).trans ?_)
    rw [if_pos excluded]

end VaultEventSession

namespace SessionRun

open VaultEventSession

/-- The session is whole and its outboxes hold what is owed. -/
structure Sound (run : SessionRun) : Prop where
  whole : ∃ graph, run.session.WholeOn graph
  queued : ∀ entry ∈ run.owed, run.session.store.replica.queued entry.1 entry.2 ≠ none

theorem mem_owed_step {run : SessionRun} {action : SessionAction} {entry : Str × EventId}
    (owed : entry ∈ (run.step action).owed) :
    (entry ∈ run.owed ∨ entry ∈ action.destination.owes (run.session.published action)) ∧
      (run.session.perform action).store.row entry.2 ≠ none ∧
      ∀ providerId remote, action = .flush providerId remote → entry.1 ≠ providerId := by
  unfold SessionRun.step at owed
  obtain ⟨due, stored⟩ := List.mem_filter.mp owed
  rw [decide_eq_true_iff, ne_eq, LocalEventStore.getBytes_eq_unknownEvent] at stored
  cases action with
  | flush own remote =>
    obtain ⟨due, apart⟩ := List.mem_filter.mp due
    refine ⟨List.mem_append.mp due, stored, ?_⟩
    intro providerId _ same
    cases same
    exact of_decide_eq_true apart
  | append input => exact ⟨List.mem_append.mp due, stored, fun _ _ same => by cases same⟩
  | rotate input => exact ⟨List.mem_append.mp due, stored, fun _ _ same => by cases same⟩
  | union remoteEvents => exact ⟨List.mem_append.mp due, stored, fun _ _ same => by cases same⟩

omit [External] [Storage] [EventWriter] [VaultEpochCrypto] in
theorem owes_nil (destination : EventPublicationDestination) (entry : Str × EventId) :
    entry ∉ destination.owes [] := by
  cases destination with
  | localOnly => simp [EventPublicationDestination.owes]
  | provider own => simp [EventPublicationDestination.owes]

/-- A refused operation owes nothing and leaves the session as it is. -/
theorem Sound.refused {run : SessionRun} (sound : run.Sound) {action : SessionAction}
    (unchanged : run.session.perform action = run.session)
    (nothing : run.session.published action = []) : (run.step action).Sound := by
  constructor
  · show ∃ graph, (run.session.perform action).WholeOn graph
    rw [unchanged]
    exact sound.whole
  · intro entry owed
    obtain ⟨before | now, _⟩ := mem_owed_step owed
    · show (run.session.perform action).store.replica.queued entry.1 entry.2 ≠ none
      rw [unchanged]
      exact sound.queued entry before
    · rw [nothing] at now
      exact absurd now (owes_nil _ entry)

/-- An accepted publication fills the outbox of its destination. -/
theorem Sound.publishes {run : SessionRun} (sound : run.Sound) {action : SessionAction}
    {prepared : List PreparedSessionEvent}
    (whole : ∃ graph, (run.session.perform action).WholeOn graph)
    (store : (run.session.perform action).store =
      (run.session.publish prepared action.destination).store)
    (ids : run.session.published action = prepared.map PreparedSessionEvent.eventId) :
    (run.step action).Sound := by
  refine ⟨whole, fun entry owed => ?_⟩
  obtain ⟨due, _⟩ := mem_owed_step owed
  show (run.session.perform action).store.replica.queued entry.1 entry.2 ≠ none
  rw [store]
  apply queued_publish
  rcases due with before | now
  · exact Or.inr (sound.queued entry before)
  · exact Or.inl (ids ▸ now)

/-- One operation, accepted or refused, keeps the session whole and the outboxes filled. -/
theorem Sound.step (faithful : FaithfulEncoding) {run : SessionRun} (sound : run.Sound)
    {action : SessionAction}
    (free : IdsBind (storedEvents run.session.store ++ run.session.built action)) :
    (run.step action).Sound := by
  obtain ⟨graph, whole⟩ := sound.whole
  cases action with
  | append input =>
    cases ran : run.session.prepareAppend input with
    | error cause =>
      apply sound.refused
      · simp only [perform, appendOperations, ran]
      · simp only [published, ran]
    | ok result =>
      have session : run.session.perform (.append input) =
          run.session.publish result.1 input.destination := by
        simp only [perform, appendOperations, ran]
      apply sound.publishes
      · rw [session]
        exact whole.append faithful free ran
      · rw [session]
        rfl
      · simp only [published, ran]
  | rotate input =>
    cases ran : run.session.prepareRotation input with
    | error cause =>
      apply sound.refused
      · simp only [perform, rotateSecurityEpoch, ran]
      · simp only [published, ran]
    | ok result =>
      have session : run.session.perform (.rotate input) =
          { run.session.publish result.1 input.destination with keyEpoch := result.2.asStr } := by
        simp only [perform, rotateSecurityEpoch, ran]
      obtain ⟨final, finalWhole⟩ := whole.rotate faithful free ran
      apply sound.publishes
      · rw [session]
        exact ⟨final, finalWhole.loads, finalWhole.mem_heads⟩
      · rw [session]
        rfl
      · simp only [published, ran]
  | union remoteEvents =>
    cases ran : run.session.unionRemote remoteEvents with
    | error rejection =>
      apply sound.refused
      · simp only [perform, ran]
        exact unionRemote_refused ran
      · rfl
    | ok joined =>
      have session : run.session.perform (.union remoteEvents) = joined := by
        simp only [perform, ran]
      constructor
      · show ∃ graph, (run.session.perform (.union remoteEvents)).WholeOn graph
        rw [session]
        exact whole.union ran
      · intro entry owed
        obtain ⟨due, kept, _⟩ := mem_owed_step owed
        show (run.session.perform (.union remoteEvents)).store.replica.queued entry.1 entry.2 ≠ none
        rw [session] at kept ⊢
        rw [queued_unionRemote whole ran entry.1 entry.2 kept]
        exact sound.queued entry (due.resolve_right (owes_nil _ entry))
  | flush providerId remote =>
    constructor
    · exact whole.flush providerId remote
    · intro entry owed
      obtain ⟨due, _, apart⟩ := mem_owed_step owed
      obtain ⟨_, _, queued, _⟩ := flushEntry_foldl providerId
        (run.session.store.pendingOutbox providerId) ⟨run.session, remote⟩
      have same := queued entry.1 entry.2 (apart providerId remote rfl)
      show ((run.session.store.pendingOutbox providerId).foldl (flushEntry providerId)
        ⟨run.session, remote⟩).session.store.replica.queued entry.1 entry.2 ≠ none
      rw [same]
      exact sound.queued entry (due.resolve_right (owes_nil _ entry))

theorem Sound.after (faithful : FaithfulEncoding) (actions : List SessionAction) {run : SessionRun}
    (sound : run.Sound) (free : CollisionFreeRun run.session actions) :
    (run.after actions).Sound := by
  induction actions generalizing run with
  | nil => exact sound
  | cons action actions ih => exact ih (sound.step faithful free.1) free.2

end SessionRun

/-! ### What a session keeps -/

/-- The store holds one genesis that its graph admits. -/
def HoldsGenesis (session : VaultEventSession) : Prop :=
  ∃ id bytes event graph,
    (∀ other, session.store.row other = if other = id then some bytes else none) ∧
    VaultEvent.parseEventStorageBytes bytes = .ok event ∧ event.id = .ok id ∧
    event.body.parents = [] ∧ session.store.loadGraph session.storeId = .ok graph ∧
    id ∉ graph.quarantined

/-- What holds of a session and of every operation on it. -/
structure Kept (run : SessionRun) : Prop where
  heads : ∃ graph, run.session.store.loadGraph run.session.storeId = .ok graph ∧
    ∀ head, head ∈ run.session.heads ↔ head ∈ graph.heads.map Text.asStr
  append_refused : ∀ input rejection, run.session.appendOperations input = .error rejection →
    rejection.session = run.session
  rotation_refused : ∀ input rejection, run.session.rotateSecurityEpoch input = .error rejection →
    rejection.session = run.session
  appended : ∀ input done, run.session.appendOperations input = .ok done →
    done.session.store.getBytes done.eventId ≠ .unknownEvent
  rotated : ∀ input done, run.session.rotateSecurityEpoch input = .ok done →
    ∃ pair triggerId checkpointId, run.session.epochPair input = .ok pair ∧
      pair.trigger.1.id = .ok triggerId ∧ pair.checkpoint.1.id = .ok checkpointId ∧
      done.session.store.getBytes triggerId ≠ .unknownEvent ∧
      done.session.store.getBytes checkpointId ≠ .unknownEvent
  queued : ∀ entry ∈ run.owed, ∃ bytes,
    (entry.2, bytes) ∈ run.session.store.pendingOutbox entry.1
  flushed : ∀ entry ∈ run.owed, ∀ remote,
    (run.session.flushOutboxToRemote entry.1 remote).remote.getBytes entry.2 ≠ .unknownEvent

namespace VaultEventSession

omit [VaultEpochCrypto] in
/-- An accepted append stores its event. -/
theorem stored_appendOperations {session : VaultEventSession} {input : VaultEventAppend}
    {done : VaultEventAppended} (accepted : session.appendOperations input = .ok done) :
    done.session.store.getBytes done.eventId ≠ .unknownEvent := by
  unfold appendOperations at accepted
  cases ran : session.prepareAppend input with
  | error cause =>
    rw [ran] at accepted
    cases accepted
  | ok result =>
    rw [ran] at accepted
    cases accepted
    obtain ⟨event, bytes, _, _, _, listed⟩ := prepareAppend_ok ran
    rw [ne_eq, LocalEventStore.getBytes_eq_unknownEvent]
    apply row_publish
    left
    simp [listed]

/-- An accepted rotation stores its trigger and its checkpoint. -/
theorem stored_rotateSecurityEpoch {session : VaultEventSession}
    {input : VaultSecurityEpochRotationInput} {done : VaultEpochRotated}
    (accepted : session.rotateSecurityEpoch input = .ok done) :
    ∃ pair triggerId checkpointId, session.epochPair input = .ok pair ∧
      pair.trigger.1.id = .ok triggerId ∧ pair.checkpoint.1.id = .ok checkpointId ∧
      done.session.store.getBytes triggerId ≠ .unknownEvent ∧
      done.session.store.getBytes checkpointId ≠ .unknownEvent := by
  unfold rotateSecurityEpoch at accepted
  cases ran : session.prepareRotation input with
  | error cause =>
    rw [ran] at accepted
    cases accepted
  | ok result =>
    rw [ran] at accepted
    cases accepted
    obtain ⟨pair, checkpointId, paired, _, named, checkpointNamed, _, listed⟩ :=
      prepareRotation_ok ran
    refine ⟨pair, result.2, checkpointId, paired, named, checkpointNamed, ?_, ?_⟩
    · rw [ne_eq, LocalEventStore.getBytes_eq_unknownEvent]
      apply row_publish
      left
      simp [listed]
    · rw [ne_eq, LocalEventStore.getBytes_eq_unknownEvent]
      apply row_publish
      left
      simp [listed]

omit [External] [Storage] [EventWriter] [VaultEpochCrypto] in
/-- After a flush the remote store holds every event that was queued for its provider. -/
theorem flushed_of_queued {session : VaultEventSession} {providerId : Str} {id : EventId}
    (queued : session.store.replica.queued providerId id ≠ none) (remote : LocalEventStore) :
    (session.flushOutboxToRemote providerId remote).remote.getBytes id ≠ .unknownEvent := by
  obtain ⟨bytes, found⟩ := Option.ne_none_iff_exists'.mp queued
  have pending : (id, bytes) ∈ session.store.pendingOutbox providerId :=
    (session.store.replica.mem_pendingOutbox providerId id bytes).mpr found
  obtain ⟨_, _, _, rows⟩ :=
    flushEntry_foldl providerId (session.store.pendingOutbox providerId) ⟨session, remote⟩
  rw [ne_eq, LocalEventStore.getBytes_eq_unknownEvent]
  change ((session.store.pendingOutbox providerId).foldl (flushEntry providerId)
    ⟨session, remote⟩).remote.row id ≠ none
  rw [rows id]
  have recorded : recordBytes (session.store.pendingOutbox providerId) id ≠ none := by
    rw [ne_eq, recordBytes_eq_none, not_not]
    exact List.mem_map_of_mem pending
  cases held : remote.row id with
  | none => simpa [held] using recorded
  | some other => simp

end VaultEventSession

open VaultEventSession in
theorem SessionRun.Sound.kept {run : SessionRun} (sound : run.Sound) : Kept run := by
  obtain ⟨graph, whole⟩ := sound.whole
  constructor
  case heads => exact ⟨graph, whole.loads.loaded, whole.mem_heads⟩
  case append_refused =>
    intro input rejection refused
    unfold appendOperations at refused
    split at refused
    · cases refused
    · cases refused
      rfl
  case rotation_refused =>
    intro input rejection refused
    unfold rotateSecurityEpoch at refused
    split at refused
    · cases refused
    · cases refused
      rfl
  case appended => exact fun input done => stored_appendOperations
  case rotated => exact fun input done => stored_rotateSecurityEpoch
  case queued =>
    intro entry owed
    obtain ⟨bytes, found⟩ := Option.ne_none_iff_exists'.mp (sound.queued entry owed)
    exact ⟨bytes, (run.session.store.replica.mem_pendingOutbox entry.1 entry.2 bytes).mpr found⟩
  case flushed => exact fun entry owed => flushed_of_queued (sound.queued entry owed)

omit [EventWriter] [VaultEpochCrypto] in
/-- A session on one genesis, whose heads were set from its graph, is whole. -/
theorem HoldsGenesis.whole {before session : VaultEventSession} (genesis : HoldsGenesis before)
    (set : before.setHeadsFromGraph = .ok session) : ∃ graph, session.WholeOn graph := by
  obtain ⟨id, bytes, event, graph, rows, parsed, named, root, loaded, admitted⟩ := genesis
  unfold VaultEventSession.setHeadsFromGraph at set
  rw [loaded] at set
  cases set
  have filed : before.store.Filed := by
    intro other content read stored readBack
    rw [rows other] at stored
    split at stored
    · rename_i same
      cases stored
      rw [parsed] at readBack
      cases readBack
      rw [named, same]
    · cases stored
  obtain ⟨judged, reads, _⟩ := LocalEventStore.loadGraph_judged filed loaded
  refine ⟨graph, ⟨filed, loaded, judged, ?_⟩, fun head => Iff.rfl⟩
  intro other rejected
  obtain ⟨content, found⟩ :=
    (BTreeMap.mem_iff_getElem? _ _).mp (judged.recorded_of_quarantined rejected)
  obtain ⟨held, stored, _⟩ := reads.of_event found
  rw [rows other] at stored
  split at stored
  · rename_i same
    exact admitted (same ▸ rejected)
  · cases stored

/-- In every run of a session on one genesis the heads are those of the stored log, a refused
append or rotation changes nothing and an accepted one is stored whole, and what was published
to a provider waits in its outbox until a flush hands it over. -/
theorem session_whole (faithful : FaithfulEncoding) {before session : VaultEventSession}
    (genesis : HoldsGenesis before) (set : before.setHeadsFromGraph = .ok session)
    (actions : List SessionAction) (free : CollisionFreeRun session actions) :
    Kept ((SessionRun.mk session []).after actions) := by
  have sound : (SessionRun.mk session []).Sound :=
    ⟨genesis.whole set, fun entry owed => absurd owed (List.not_mem_nil)⟩
  exact (sound.after faithful actions free).kept

end Nook.Vault

namespace Nook.Vault.TestSupport

open Nook.Lib Nook.EventLog

open Nook.EventLog.TestSupport (hexBytes hexEncode digest eventId device storeName signed genesis
  secret tagRecord)

/-! The third-party operations of a run: an event's text is its tag, an epoch checkpoint
has the tag `k`, and no digest text has a blank. -/

scoped instance sessionExternal : External where
  canonicalJson body := .ok
    (if body.operations.any VaultOperation.isEpochCheckpoint then digest 'k'
    else body.createdAt.asStr)
  sha256Base64Url body := body.filter fun char => !isWhitespace char
  sha256Hex := hexEncode
  urlSafeNoPadDecode _ := some (List.replicate 32 0)
  hexDecode text := hexBytes text
  isVerifyingKey _ := true
  ed25519Verify _ _ _ := true

/-- The events that the run writes, under their tags. -/
def written : List (Char × VaultEvent) :=
  [('g', genesis 'g' '1'),
    ('2', signed '2' '1' [eventId 'g'] (eventId 'g') [.secretCreated (secret 's' [])]),
    ('3', signed '3' '1' [eventId '2'] (eventId 'g') [.deviceRevoked (device '2')]),
    ('k', signed '3' '1' [eventId '3'] (eventId '3')
      [.epochCheckpoint [] ⟨[]⟩ (.replace []) .unnamed])]

scoped instance sessionStorage : Storage where
  yamlFromStr text :=
    match written.find? fun entry => text.head? = some entry.1 with
    | some entry => .ok entry.2
    | none => .error "unknown tag"
  utf8Error _ := "invalid utf-8 sequence"

def writtenTag (event : VaultEvent) : Except String Str :=
  match written.find? fun entry => event = entry.2 with
  | some entry => .ok [entry.1]
  | none => .error "unknown event"

scoped instance sessionWriter : EventWriter where
  hexEncode := hexEncode
  yamlToString := writtenTag

scoped instance sessionCrypto : VaultEpochCrypto where
  reencryptSecrets _ _ _ := .ok []
  reencryptName _ _ _ := .ok .unnamed
  membersCheckpointHash _ _ := .ok ⟨[]⟩

def session : VaultEventSession where
  store := LocalEventStore.new.putEvent (tagRecord 'g').1 (tagRecord 'g').2
  storeId := storeName
  heads := [(eventId 'g').asStr]
  keyEpoch := (eventId 'g').asStr
  signing := ⟨List.replicate 32 17, fun _ => ⟨"ed25519:".toList ++ List.replicate 128 '0'⟩⟩
  signingSeed := []

/-- A secret for a provider, a local rotation, a flush to the provider and an empty union. -/
def actions : List SessionAction :=
  [.append ⟨[.secretCreated (secret 's' [])], digest '2', .provider "drive".toList⟩,
    .rotate ⟨.deviceRevoked (device '2'), ⟨[], []⟩, [], [], [], [], .unnamed, digest '3', .localOnly⟩,
    .flush "drive".toList .new, .union []]

theorem parse_sessionDigest (body : CanonicalEventBodyBytes) (id : EventId)
    (parsed : EventId.parse (EventId.fromBodyBytes body).asStr = .ok id) :
    id = EventId.fromBodyBytes body := by
  have kept : trim (EventId.fromBodyBytes body).asStr = (EventId.fromBodyBytes body).asStr := by
    apply trim_of_no_whitespace
    intro char member
    rcases List.mem_append.mp member with lead | rest
    · have plain : "sha256u:".toList.all fun char => !isWhitespace char := by decide
      simpa using List.all_eq_true.mp plain char lead
    · have filtered : char ∈ body.filter fun char => !isWhitespace char := rest
      simpa using (List.mem_filter.mp filtered).2
  unfold EventId.parse at parsed
  rw [kept] at parsed
  have stripped : stripPrefix (EventId.fromBodyBytes body).asStr "sha256u:".toList =
      some (External.sha256Base64Url body) := by
    unfold stripPrefix startsWith EventId.fromBodyBytes
    rw [if_pos (List.isPrefixOf_iff_prefix.mpr (List.prefix_append _ _)), List.drop_left]
  dsimp only at parsed
  rw [stripped] at parsed
  dsimp only at parsed
  split at parsed
  · cases parsed
  · split at parsed
    · cases parsed
    · split at parsed
      · cases parsed
      · cases parsed
        rfl

theorem reads_back_written : ∀ entry ∈ written,
    passes entry.2.serializeEventStorageYaml (fun bytes =>
      decide (VaultEvent.parseEventStorageBytes bytes = .ok entry.2)) = true := by
  decide +kernel

theorem faithful : FaithfulEncoding := by
  constructor
  case parse_digest => exact parse_sessionDigest
  case reads_back =>
    intro input event bytes built
    obtain ⟨_, _, built⟩ := bind_eq_ok.mp built
    obtain ⟨_, _, built⟩ := bind_eq_ok.mp built
    obtain ⟨signed, _, built⟩ := bind_eq_ok.mp built
    obtain ⟨stored, serialized, same⟩ := bind_eq_ok.mp built
    cases same
    cases found : written.find? fun entry => event = entry.2 with
    | none =>
      have refused : event.serializeEventStorageYaml = .error (.eventSerialize "unknown event") := by
        have failed : EventWriter.yamlToString event = .error "unknown event" := by
          show writtenTag event = _
          unfold writtenTag
          rw [found]
        unfold VaultEvent.serializeEventStorageYaml
        rw [failed]
        rfl
      rw [refused] at serialized
      cases serialized
    | some entry =>
      have same : event = entry.2 := by simpa using List.find?_some found
      have reads := reads_back_written entry (List.mem_of_find?_eq_some found)
      rw [← same, serialized] at reads
      exact of_decide_eq_true reads

theorem holdsGenesis : HoldsGenesis session := by
  obtain ⟨graph, loaded, admitted⟩ := exists_of_passes (session.store.loadGraph session.storeId)
    (fun graph => decide (eventId 'g' ∉ graph.quarantined)) (by decide +kernel)
  refine ⟨eventId 'g', (tagRecord 'g').2, genesis 'g' '1', graph, ?_, by decide +kernel,
    by decide +kernel, rfl, loaded, of_decide_eq_true admitted⟩
  intro other
  refine (LocalEventStore.new.replica.events_putEvent _ _ other).trans ?_
  simp only [eq_comm]
  rfl

theorem setHeads_session : session.setHeadsFromGraph = .ok session := by
  obtain ⟨graph, loaded, heads⟩ := exists_of_passes (session.store.loadGraph session.storeId)
    (fun graph => decide (graph.heads.map Text.asStr = session.heads)) (by decide +kernel)
  unfold VaultEventSession.setHeadsFromGraph
  rw [loaded]
  dsimp only
  rw [of_decide_eq_true heads]

theorem session_whole_flushed :
    ((SessionRun.mk session []).after actions).session.heads = [(eventId 'k').asStr] ∧
      Kept ((SessionRun.mk session []).after actions) := by
  refine ⟨by decide +kernel, ?_⟩
  exact session_whole faithful holdsGenesis setHeads_session actions (by decide +kernel)

end Nook.Vault.TestSupport
