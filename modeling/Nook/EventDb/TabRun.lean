import Nook.EventDb.StoredLogWhole
import Nook.Vault.EventSessionInvariant

set_option autoImplicit false

namespace Nook.EventDb

open Nook.Lib Nook.Replication Nook.EventLog Nook.Vault Frontier

variable [External] [Storage]

/-! ### Runs of transactions of any number of tabs -/

/-- One transaction. What it supplies was built by some tab on heads read at any time before. -/
inductive TabAction where
  | append (request : EventAppend)
  | appendEpochPair (request : EpochPairAppend)
  | unionRemote (remoteEvents : List (EventId × EventStorageBytes))

namespace TabAction

def requests : TabAction → List EventAppend
  | append request => [request]
  | appendEpochPair request => [request.trigger, request.checkpoint]
  | unionRemote _ => []

omit [Storage] in
/-- The rows that an append puts. -/
def entries (action : TabAction) : List EventBytes :=
  action.requests.filterMap fun request =>
    match request.event.id with
    | .ok id => some ⟨id, request.bytes⟩
    | .error _ => none

omit [External] in
/-- The bytes of a request are the storage bytes of its event. -/
def Serialized (action : TabAction) : Prop :=
  ∀ request ∈ action.requests,
    VaultEvent.parseEventStorageBytes request.bytes = .ok request.event

end TabAction

namespace StoredLog

def transact (log : StoredLog) (storeId : Str) : TabAction → NookResult StoredLog
  | .append request => log.append storeId request
  | .appendEpochPair request => log.appendEpochPair storeId request
  | .unionRemote remoteEvents => log.unionRemote storeId remoteEvents

/-- The log after a transaction, committed or failed. -/
def perform (log : StoredLog) (storeId : Str) (action : TabAction) : StoredLog :=
  match log.transact storeId action with
  | .ok after => after
  | .error _ => log

end StoredLog

/-- The stored log with the events that an append stored and that are stored ever since. -/
structure TabRun where
  log : StoredLog
  appended : List EventId

namespace TabRun

def step (storeId : Str) (run : TabRun) (action : TabAction) : TabRun :=
  let log := run.log.perform storeId action
  let added := (action.entries.map EventBytes.eventId).filter fun id =>
    run.log.load.localStore.getBytes id = .unknownEvent
  ⟨log, (run.appended ++ added).filter fun id => log.load.localStore.getBytes id ≠ .unknownEvent⟩

def after (storeId : Str) (run : TabRun) (actions : List TabAction) : TabRun :=
  actions.foldl (step storeId) run

end TabRun

/-- Along a run no supplied event collides with another or with a stored one. -/
def CollisionFreeTabs (storeId : Str) (log : StoredLog) : List TabAction → Prop
  | [] => True
  | action :: actions =>
    IdsBind (storedEvents log.load.localStore ++ action.requests.map EventAppend.event) ∧
      CollisionFreeTabs storeId (log.perform storeId action) actions

/-- Along a run no committed transaction replaces a stored copy by one, with its parents in
another order, that leaves an event of the log rejected. -/
def UndisturbedTabs (storeId : Str) (log : StoredLog) : List TabAction → Prop
  | [] => True
  | action :: actions =>
    (∀ after, log.transact storeId action = .ok after →
      log.Undisturbed storeId action.entries) ∧
      UndisturbedTabs storeId (log.perform storeId action) actions

/-! ### The invariant of a run -/

namespace TabRun

/-- The log is whole, and what the tabs appended is causally ordered. -/
def Sound (storeId : Str) (run : TabRun) : Prop :=
  ∃ graph, run.log.Whole storeId graph ∧ Ordered graph {id | id ∈ run.appended}

variable {storeId : Str} {run : TabRun}

theorem mem_appended_step {action : TabAction} {id : EventId} :
    id ∈ (run.step storeId action).appended ↔
      (id ∈ run.appended ∨ id ∈ action.entries.map EventBytes.eventId ∧
        run.log.load.localStore.row id = none) ∧
      (run.log.perform storeId action).load.localStore.row id ≠ none := by
  unfold step
  simp only [List.mem_filter, List.mem_append, decide_eq_true_eq, ne_eq,
    LocalEventStore.getBytes_eq_unknownEvent]

/-- A failed transaction leaves the run as it is. -/
theorem Sound.failed (sound : run.Sound storeId) {action : TabAction} {cause : NookError}
    (fails : run.log.transact storeId action = .error cause) : (run.step storeId action).Sound storeId := by
  obtain ⟨graph, whole, ordered⟩ := sound
  have same : run.log.perform storeId action = run.log := by
    unfold StoredLog.perform
    rw [fails]
  refine ⟨graph, ?_, ordered.mono fun id member => ?_⟩
  · show (run.log.perform storeId action).Whole storeId graph
    rw [same]
    exact whole
  · obtain ⟨before | ⟨_, absent⟩, present⟩ := mem_appended_step.mp member
    · exact before
    · rw [same] at present
      exact absurd absent present

/-- A committed append adds its event to the ordered ones, when it is new. -/
theorem sound_of_committed {action : TabAction} {after : StoredLog}
    (done : run.log.transact storeId action = .ok after) {graph next final : EventGraph}
    (whole : run.log.Whole storeId graph) (ordered : Ordered graph {id | id ∈ run.appended})
    (copies : List Copy) (entries : action.entries = copies.map Copy.entry)
    (supplies : Supplies graph storeId (copies.map Copy.recorded) next)
    (finalWhole : after.Whole storeId final) (same : final.causal.parents = next.causal.parents) :
    (run.step storeId action).Sound storeId := by
  have performed : run.log.perform storeId action = after := by
    unfold StoredLog.perform
    rw [done]
  refine ⟨final, ?_, ?_⟩
  · show (run.log.perform storeId action).Whole storeId final
    rw [performed]
    exact finalWhole
  · refine ((supplies.ordered _ ordered).congr supplies.clean.indexed finalWhole.loads.clean.indexed
      same.symm).mono fun id member => ?_
    obtain ⟨before | ⟨supplied, absent⟩, _⟩ := mem_appended_step.mp member
    · exact Or.inl before
    · right
      constructor
      · rw [entries] at supplied
        simpa [Copy.recorded] using supplied
      · rw [whole.loads.mem_events, not_not]
        exact absent

theorem Sound.step (digests : DigestText) (sound : run.Sound storeId) {action : TabAction}
    (serialized : action.Serialized)
    (free : IdsBind (storedEvents run.log.load.localStore ++ action.requests.map EventAppend.event))
    (undisturbed : ∀ after, run.log.transact storeId action = .ok after →
      run.log.Undisturbed storeId action.entries) :
    (run.step storeId action).Sound storeId := by
  cases done : run.log.transact storeId action with
  | error cause => exact sound.failed done
  | ok after =>
    obtain ⟨graph, whole, ordered⟩ := sound
    have quiet := undisturbed after done
    cases action with
    | append request =>
      obtain ⟨copy, same, bytes, _, next, supplies, commits⟩ :=
        whole.append digests (serialized request (by simp [TabAction.requests])) done
      have entries : (TabAction.append request).entries = [copy.entry] := by
        simp only [TabAction.entries, TabAction.requests, List.filterMap_cons, List.filterMap_nil,
          ← same, ← bytes, copy.named]
      rw [entries] at quiet
      obtain ⟨final, finalWhole, parents⟩ := commits (by
        rw [StoredLog.eventsWith, List.map_cons, List.map_nil, same]
        exact free) quiet
      exact sound_of_committed done whole ordered [copy] entries supplies finalWhole parents
    | appendEpochPair request =>
      obtain ⟨trigger, checkpoint, same, bytes, alsoSame, alsoBytes, next, supplies, commits⟩ :=
        whole.appendEpochPair digests (serialized request.trigger (by simp [TabAction.requests]))
          (serialized request.checkpoint (by simp [TabAction.requests])) done
      have entries : (TabAction.appendEpochPair request).entries =
          [trigger.entry, checkpoint.entry] := by
        simp only [TabAction.entries, TabAction.requests, List.filterMap_cons, List.filterMap_nil,
          ← same, ← bytes, ← alsoSame, ← alsoBytes, trigger.named, checkpoint.named]
      rw [entries] at quiet
      obtain ⟨final, finalWhole, parents⟩ := commits (by
        rw [StoredLog.eventsWith, List.map_cons, List.map_cons, List.map_nil, same, alsoSame]
        exact free) quiet
      exact sound_of_committed done whole ordered [trigger, checkpoint] entries supplies finalWhole
        parents
    | unionRemote remoteEvents =>
      obtain ⟨final, finalWhole, stays⟩ := whole.union digests done
      have performed : run.log.perform storeId (.unionRemote remoteEvents) = after := by
        unfold StoredLog.perform
        rw [done]
      refine ⟨final, ?_, (stays _ ordered).mono fun id member => ?_⟩
      · show (run.log.perform storeId (.unionRemote remoteEvents)).Whole storeId final
        rw [performed]
        exact finalWhole
      · obtain ⟨before | ⟨supplied, _⟩, present⟩ := mem_appended_step.mp member
        · rw [performed] at present
          exact ⟨before, (finalWhole.loads.mem_events id).mpr present⟩
        · cases supplied

theorem Sound.after (digests : DigestText) (actions : List TabAction) (sound : run.Sound storeId)
    (serialized : ∀ action ∈ actions, action.Serialized)
    (free : CollisionFreeTabs storeId run.log actions)
    (undisturbed : UndisturbedTabs storeId run.log actions) :
    (run.after storeId actions).Sound storeId := by
  induction actions generalizing run with
  | nil => exact sound
  | cons action actions ih =>
    exact ih (sound.step digests (serialized action (by simp)) free.1 undisturbed.1)
      (fun other member => serialized other (by simp [member])) free.2 undisturbed.2

end TabRun

/-! ### What the transactions keep -/

/-- What holds of the stored log of a run and of every transaction on it. -/
structure Kept (storeId : Str) (run : TabRun) : Prop where
  heads : ∃ graph, run.log.load.localStore.loadGraph storeId = .ok graph ∧
    run.log.storedHeads = graph.heads.map Text.asStr ∧
    (∀ left ∈ run.appended, ∀ right ∈ run.appended, graph.areConcurrent left right = false) ∧
    ∀ left ∈ run.appended, ∀ right ∈ run.appended,
      graph.isAncestor left right = true ∨ graph.isAncestor right left = true
  failed : ∀ action cause, run.log.transact storeId action = .error cause →
    run.log.perform storeId action = run.log
  on_heads : ∀ request after, run.log.append storeId request = .ok after →
    ∃ id, request.event.id = .ok id ∧ (run.log.load.localStore.getBytes id ≠ .unknownEvent ∨
      ∀ parent : EventId, parent.asStr ∈ run.log.storedHeads ↔ parent ∈ request.event.body.parents)
  pair_stored : ∀ request after, run.log.appendEpochPair storeId request = .ok after →
    ∃ triggerId checkpointId, request.trigger.event.id = .ok triggerId ∧
      request.checkpoint.event.id = .ok checkpointId ∧
      after.load.localStore.getBytes triggerId ≠ .unknownEvent ∧
      after.load.localStore.getBytes checkpointId ≠ .unknownEvent

/-- An accepted append is of a stored event, or names the stored heads as its parents. -/
theorem onHeads_append {log after : StoredLog} {storeId : Str} {graph : EventGraph}
    (whole : log.Whole storeId graph) {request : EventAppend}
    (accepted : log.append storeId request = .ok after) :
    ∃ id, request.event.id = .ok id ∧ (log.load.localStore.getBytes id ≠ .unknownEvent ∨
      ∀ parent : EventId, parent.asStr ∈ log.storedHeads ↔ parent ∈ request.event.body.parents) := by
  obtain ⟨prepared, admitted, _⟩ := bind_eq_ok.mp accepted
  obtain ⟨loaded, same, admitted⟩ := bind_eq_ok.mp admitted
  rw [mapError_eq_ok, whole.loads.loaded] at same
  cases same
  obtain ⟨⟨next, eventId⟩, inserted, _⟩ := bind_eq_ok.mp admitted
  obtain ⟨named, placed, _⟩ :=
    VaultAppendGraph.insert_ok ⟨graph, storeId⟩ whole.loads.clean whole.loads.valid inserted
  refine ⟨eventId, named, placed.imp (fun recorded => ?_) fun onHeads parent => ?_⟩
  · rw [ne_eq, LocalEventStore.getBytes_eq_unknownEvent]
    exact (whole.loads.mem_events eventId).mp recorded
  · rw [whole.heads_eq, ← onHeads parent, List.mem_map]
    constructor
    · rintro ⟨head, member, same⟩
      exact Text.asStr_injective same ▸ member
    · exact fun member => ⟨parent, member, rfl⟩

theorem TabRun.Sound.kept (digests : DigestText) {storeId : Str} {run : TabRun}
    (sound : run.Sound storeId) : Kept storeId run := by
  obtain ⟨graph, whole, ordered⟩ := sound
  have comparable : ∀ left ∈ run.appended, ∀ right ∈ run.appended,
      graph.causal.AncestorOrSelf left right ∨ graph.causal.AncestorOrSelf right left := by
    intro left leftMem right rightMem
    by_cases same : left = right
    · exact Or.inl (same ▸ .refl)
    · exact (ordered.comparable left leftMem right rightMem same).imp
        Relation.TransGen.to_reflTransGen Relation.TransGen.to_reflTransGen
  constructor
  case heads =>
    refine ⟨graph, whole.loads.loaded, whole.heads_eq, ?_, ?_⟩
    · intro left leftMem right rightMem
      show graph.causal.areConcurrent left right = false
      rw [← Bool.not_eq_true, CausalGraph.areConcurrent_iff]
      rintro ⟨notBefore, notAfter, _⟩
      exact (comparable left leftMem right rightMem).elim notBefore notAfter
    · intro left leftMem right rightMem
      exact (comparable left leftMem right rightMem).imp
        (CausalGraph.isAncestor_iff left right).mpr (CausalGraph.isAncestor_iff right left).mpr
  case failed =>
    intro action cause fails
    unfold StoredLog.perform
    rw [fails]
  case on_heads => exact fun request after accepted => onHeads_append whole accepted
  case pair_stored =>
    intro request after accepted
    obtain ⟨triggerId, checkpointId, named, checkpointNamed, trigger, checkpoint⟩ :=
      whole.stored_appendEpochPair digests accepted
    refine ⟨triggerId, checkpointId, named, checkpointNamed, ?_, ?_⟩
    · rwa [ne_eq, LocalEventStore.getBytes_eq_unknownEvent]
    · rwa [ne_eq, LocalEventStore.getBytes_eq_unknownEvent]

theorem StoredLog.whole_empty (storeId : Str) : StoredLog.empty.Whole storeId EventGraph.new where
  consistent := ⟨by simp [StoredLog.load, StoredLog.empty], by simp [StoredLog.load, StoredLog.empty]⟩
  loads := {
    filed := by
      intro id bytes event stored _
      cases stored
    loaded := rfl
    clean := EventGraph.clean_new }
  heads_eq := rfl

/-- As long as no transaction replaces a stored copy by one that leaves an event rejected, the
tabs of a browser keep its log whole: what they append is never concurrent, an append is on the
stored heads or of a stored event, a pair is stored whole, a failed transaction changes nothing,
and the stored heads are those of the stored log. -/
theorem tabs_keep_log (digests : DigestText) {log : StoredLog} {storeId : Str} {graph : EventGraph}
    (whole : log.Whole storeId graph) (actions : List TabAction)
    (serialized : ∀ action ∈ actions, action.Serialized)
    (free : CollisionFreeTabs storeId log actions)
    (undisturbed : UndisturbedTabs storeId log actions) :
    Kept storeId ((TabRun.mk log []).after storeId actions) := by
  have sound : (TabRun.mk log []).Sound storeId := by
    refine ⟨graph, whole, ?_, ?_⟩
    · intro id member
      cases member
    · intro left member
      cases member
  exact (sound.after digests actions serialized free undisturbed).kept digests

end Nook.EventDb

namespace Nook.EventDb.TestSupport

open Nook.Lib Nook.EventLog

open Nook.EventLog.TestSupport (hexBytes hexEncode digest eventId device storeName signed genesis
  publicKey tagRecord)

/-! Tabs of a device whose second approval, for another key, is concurrent with its first.
An event is stored as its tag, and `E` is the tag of the copy of `e` with reversed parents. -/

def digestText (body : Str) : Str :=
  if body.all (fun char => !isWhitespace char) && utf8Len body = 43 then body else digest 'A'

scoped instance tabExternal : External where
  canonicalJson body := .ok
    (if body.operations.any VaultOperation.isEpochCheckpoint then digest 'k'
    else body.createdAt.asStr)
  sha256Base64Url := digestText
  sha256Hex := hexEncode
  urlSafeNoPadDecode _ := some (List.replicate 32 0)
  hexDecode text := hexBytes text
  isVerifyingKey _ := true
  ed25519Verify _ _ _ := true

def approval (tag digit : Char) : VaultEvent :=
  signed tag '1' [eventId 'k'] (eventId 'r')
    [.joinApproved (device '2') ⟨[]⟩ (publicKey digit) ⟨[]⟩ ⟨[]⟩ ⟨[]⟩]

def cleared (tag digit : Char) (parents : List EventId) : VaultEvent :=
  signed tag digit parents (eventId 'r') [.vaultCleared]

def logged : List (Char × VaultEvent) :=
  [('g', genesis 'g' '1'),
    ('r', signed 'r' '1' [eventId 'g'] (eventId 'g') [.deviceRevoked (device '2')]),
    ('k', signed 'k' '1' [eventId 'r'] (eventId 'r')
      [.epochCheckpoint [] ⟨[]⟩ (.replace []) .unnamed]),
    ('a', approval 'a' '2'), ('b', approval 'b' '3'),
    ('e', cleared 'e' '2' [eventId 'a', eventId 'b']),
    ('E', cleared 'e' '2' [eventId 'b', eventId 'a']),
    ('n', cleared 'n' '1' [eventId 'a', eventId 'b'])]

def loggedEvent (text : Str) : Except String VaultEvent :=
  match logged.find? fun entry => text.head? = some entry.1 with
  | some entry => .ok entry.2
  | none => .error "unknown tag"

scoped instance tabStorage : Storage where
  yamlFromStr := loggedEvent
  utf8Error _ := "invalid utf-8 sequence"

/-- The request of a tab that appends an event on the heads `a` and `b`. -/
def appendOf (tag digit : Char) : TabAction :=
  .append ⟨cleared tag digit [eventId 'a', eventId 'b'], [tag.toNat.toUInt8]⟩

def approvals : TabAction := .unionRemote (['g', 'r', 'k', 'a', 'b'].map tagRecord)

def reversed : TabAction := .unionRemote [(eventId 'e', ['E'.toNat.toUInt8])]

/-- A tab appends the event that another replica delivered with its parents reversed: the
row is replaced, and the stored head is rejected when the log is loaded. -/
theorem reappended_event_rejected :
    ∃ after graph,
      ((TabRun.mk .empty []).after storeName [approvals, reversed]).log.transact storeName
        (appendOf 'e' '2') = .ok after ∧
      after.load.localStore.loadGraph storeName = .ok graph ∧
      after.storedHeads = [(eventId 'e').asStr] ∧ graph.heads = [eventId 'a', eventId 'b'] ∧
      eventId 'e' ∈ graph.quarantined := by
  obtain ⟨after, committed, checked⟩ := exists_of_passes
    (((TabRun.mk .empty []).after storeName [approvals, reversed]).log.transact storeName
      (appendOf 'e' '2'))
    (fun after => passes (after.load.localStore.loadGraph storeName) fun graph =>
      decide (after.storedHeads = [(eventId 'e').asStr]) &&
        decide (graph.heads = [eventId 'a', eventId 'b']) &&
        decide (eventId 'e' ∈ graph.quarantined)) (by decide +kernel)
  obtain ⟨graph, loaded, found⟩ := exists_of_passes _ _ checked
  rw [Bool.and_eq_true, Bool.and_eq_true, decide_eq_true_iff, decide_eq_true_iff,
    decide_eq_true_iff] at found
  exact ⟨after, graph, committed, loaded, found.1.1, found.1.2, found.2⟩

theorem digestText_digest : DigestText := by
  intro body
  have blank : ∀ char ∈ digestText body, isWhitespace char = false := by
    intro char member
    unfold digestText at member
    split at member
    · rename_i plain
      rw [Bool.and_eq_true] at plain
      simpa using List.all_eq_true.mp plain.1 char member
    · have plain : (digest 'A').all fun char => !isWhitespace char := by decide
      simpa using List.all_eq_true.mp plain char member
  have length : utf8Len (digestText body) = 43 := by
    unfold digestText
    split
    · rename_i plain
      rw [Bool.and_eq_true, decide_eq_true_iff] at plain
      exact plain.2
    · decide
  have kept : trim (EventId.fromBodyBytes body).asStr = (EventId.fromBodyBytes body).asStr := by
    apply trim_of_no_whitespace
    intro char member
    rcases List.mem_append.mp member with lead | rest
    · have plain : "sha256u:".toList.all fun char => !isWhitespace char := by decide
      simpa using List.all_eq_true.mp plain char lead
    · exact blank char rest
  have stripped : stripPrefix (EventId.fromBodyBytes body).asStr "sha256u:".toList =
      some (digestText body) := by
    unfold stripPrefix startsWith EventId.fromBodyBytes
    rw [if_pos (List.isPrefixOf_iff_prefix.mpr (List.prefix_append _ _)), List.drop_left]
    rfl
  unfold EventId.parse
  dsimp only
  rw [kept, stripped]
  dsimp only
  rw [if_neg (not_not.mpr length)]
  rfl

/-- A transaction that supplies new events, or copies under which nothing is rejected. -/
def disturbsNothing (log : StoredLog) (entries : List EventBytes) : Bool :=
  entries.all (fun entry => log.load.localStore.row entry.eventId = none) ||
    passes ((log.load.withCopies entries).loadGraph storeName) fun graph => graph.quarantined.isEmpty

theorem undisturbed_of_check {log : StoredLog} {entries : List EventBytes}
    (checked : disturbsNothing log entries = true) : log.Undisturbed storeName entries := by
  unfold disturbsNothing at checked
  rcases Bool.or_eq_true _ _ ▸ checked with fresh | clean
  · left
    simpa using fresh
  · right
    obtain ⟨graph, loaded, empty⟩ := exists_of_passes _ _ clean
    refine ⟨graph, loaded, fun id rejected => ?_⟩
    rw [Std.ExtTreeMap.isEmpty_iff] at empty
    rw [empty] at rejected
    simp at rejected

/-- A remote batch, a new event on its heads, and the same event once more. -/
def tabActions : List TabAction := [approvals, appendOf 'n' '1', appendOf 'n' '1']

theorem tabs_keep_log_again :
    ((TabRun.mk .empty []).after storeName tabActions).appended = [eventId 'n'] ∧
      Kept storeName ((TabRun.mk .empty []).after storeName tabActions) := by
  refine ⟨by decide +kernel, ?_⟩
  refine tabs_keep_log digestText_digest (StoredLog.whole_empty storeName) tabActions ?_ ?_ ?_
  · intro action member
    simp only [tabActions, List.mem_cons, List.not_mem_nil, or_false] at member
    rcases member with rfl | rfl | rfl
    · intro request inside
      cases inside
    · intro request inside
      rw [List.mem_singleton.mp inside]
      decide +kernel
    · intro request inside
      rw [List.mem_singleton.mp inside]
      decide +kernel
  · exact ⟨by decide +kernel, by decide +kernel, by decide +kernel, trivial⟩
  · exact ⟨fun _ _ => undisturbed_of_check (by decide +kernel),
      fun _ _ => undisturbed_of_check (by decide +kernel),
      fun _ _ => undisturbed_of_check (by decide +kernel), trivial⟩

end Nook.EventDb.TestSupport
