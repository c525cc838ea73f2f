import Nook.EventLog.ProjectionConflicts

set_option autoImplicit false

namespace Nook.EventLog

open Nook.Lib Nook.Replication Relation

/-- The initial epoch has no rotation checkpoint; rotated epochs name their commit. -/
inductive EpochCheckpoint where
  | unrotated
  | committed (checkpoint : EventId)
  deriving DecidableEq

namespace EventGraph

/-- Collect an event with a checkpoint operation, which must directly commit its epoch. -/
def collectCheckpoint (graph : EventGraph) (checkpoints : List EventId) (id : EventId) :
    EventResult (List EventId) :=
  match graph.events[id]? with
  | none => .error (.missingEvent id.asStr)
  | some event =>
    if !event.body.operations.any VaultOperation.isEpochCheckpoint then .ok checkpoints
    else if event.body.parents ≠ [event.body.keyEpoch] then
      .error (.invalidEpochCheckpointStructure "checkpoint does not directly commit its key epoch")
    else .ok (checkpoints ++ [id])

/-- The checkpoints that no other checkpoint has seen. -/
def currentCheckpoints (graph : EventGraph) (checkpoints : List EventId) : List EventId :=
  checkpoints.filter fun candidate =>
    !checkpoints.any fun other => candidate != other && graph.isAncestor candidate other

variable [External]

/-- Select the checkpoint that commits the projection's current rotated epoch. -/
def currentEpochCheckpoint (graph : EventGraph) : EventResult EpochCheckpoint := do
  let order ← graph.topologicalOrder
  let checkpoints ← order.foldlM graph.collectCheckpoint []
  match graph.currentCheckpoints checkpoints with
  | [] => return .unrotated
  | [checkpoint] => return .committed checkpoint
  | _ =>
    throw (.invalidEpochCheckpointStructure "multiple concurrent epoch checkpoints remain")

/-- The applied event that comes last in the topological order is written under the epoch. -/
def LastWrittenUnder (graph : EventGraph) (epoch : KeyEpoch) : Prop :=
  ∃ order last event, graph.topologicalOrder = .ok order ∧ order.getLast? = some last ∧
    graph.events[last]? = some event ∧ EventId.parse event.body.keyEpoch.asStr = .ok epoch

variable {graph : EventGraph} {order : List EventId}

omit [External] in
theorem collectCheckpoint_subset {checkpoints collected : List EventId}
    (ran : order.foldlM graph.collectCheckpoint checkpoints = .ok collected)
    (within : ∀ id ∈ checkpoints, id ∈ graph.events) : ∀ id ∈ collected, id ∈ graph.events := by
  induction order generalizing checkpoints with
  | nil =>
    cases ran
    exact within
  | cons head tail ih =>
    rw [List.foldlM_cons] at ran
    obtain ⟨next, step, rest⟩ := bind_eq_ok.mp ran
    apply ih rest
    unfold collectCheckpoint at step
    split at step
    · cases step
    · rename_i event found
      split at step
      · cases step
        exact within
      · split at step
        · cases step
        · cases step
          intro id member
          rcases List.mem_append.mp member with earlier | last
          · exact within id earlier
          · rw [List.mem_singleton.mp last]
            exact BTreeMap.mem_of_getElem? found

/-- The selected checkpoint is a recorded event. -/
theorem currentEpochCheckpoint_recorded {checkpoint : EventId}
    (committed : graph.currentEpochCheckpoint = .ok (.committed checkpoint)) :
    ∃ event, graph.events[checkpoint]? = some event := by
  unfold currentEpochCheckpoint at committed
  obtain ⟨order, _, committed⟩ := bind_eq_ok.mp committed
  obtain ⟨checkpoints, collected, committed⟩ := bind_eq_ok.mp committed
  rw [← BTreeMap.mem_iff_getElem?]
  apply collectCheckpoint_subset collected (by simp)
  split at committed
  · cases committed
  · rename_i selected
    cases committed
    have member : checkpoint ∈ graph.currentCheckpoints checkpoints := by simp [selected]
    exact (List.mem_filter.mp member).1
  · cases committed

theorem Valid.keyEpoch_parses (valid : graph.Valid) {id : EventId} {event : VaultEvent}
    (found : graph.events[id]? = some event) :
    ∃ epoch, EventId.parse event.body.keyEpoch.asStr = .ok epoch := by
  obtain ⟨_, enveloped⟩ := valid id event found
  unfold VaultEvent.validateEnvelope at enveloped
  simp only [bind_eq_ok] at enveloped
  obtain ⟨_, _, _, _, _, _, _, _, _, _, _, parsed, _⟩ := enveloped
  exact discard_eq_ok parsed

end EventGraph

namespace ProjectionState

variable [External] {graph : EventGraph} {storeId : StoreId}

theorem epoch_updateEpoch {state : ProjectionState} {id : EventId} {body : VaultEventBody}
    {epoch : KeyEpoch} (parsed : EventId.parse body.keyEpoch.asStr = .ok epoch) :
    (state.updateEpoch id body).projection.epoch = .current epoch := by
  unfold updateEpoch
  rw [parsed]
  dsimp only
  split
  · assumption
  · rfl

/-- After an event, whatever came before it, the epoch is the one it is written under. -/
theorem epoch_event (valid : graph.Valid) {state next : ProjectionState} {id : EventId}
    (stepped : event graph storeId state id = .ok next) :
    ∃ content epoch, graph.events[id]? = some content ∧
      EventId.parse content.body.keyEpoch.asStr = .ok epoch ∧
      next.projection.epoch = .current epoch := by
  unfold event at stepped
  cases found : graph.events[id]? with
  | none =>
    rw [found] at stepped
    cases stepped
  | some content =>
    obtain ⟨epoch, parsed⟩ := valid.keyEpoch_parses found
    rw [found] at stepped
    dsimp only at stepped
    rw [valid.supported id content found] at stepped
    split at stepped
    · cases stepped
    · rw [if_neg (by simp)] at stepped
      cases stepped
      exact ⟨content, epoch, rfl, parsed, epoch_updateEpoch parsed⟩

/-- After a run of events the epoch is the one the last of them is written under. -/
theorem epoch_foldlM (valid : graph.Valid) {earlier : List EventId} {last : EventId}
    {start state : ProjectionState}
    (ran : (earlier ++ [last]).foldlM (event graph storeId) start = .ok state) :
    ∃ content epoch, graph.events[last]? = some content ∧
      EventId.parse content.body.keyEpoch.asStr = .ok epoch ∧
      state.projection.epoch = .current epoch := by
  rw [List.foldlM_append] at ran
  obtain ⟨before, _, final⟩ := bind_eq_ok.mp ran
  rw [List.foldlM_cons] at final
  obtain ⟨next, stepped, done⟩ := bind_eq_ok.mp final
  cases done
  exact epoch_event valid stepped

end ProjectionState

namespace EventGraph

variable [External] {graph : EventGraph}

/-- An applicable event that no applicable event descends from. -/
def Tip (graph : EventGraph) (id : EventId) : Prop :=
  graph.causal.Applicable id ∧
    ∀ other, graph.causal.Applicable other → ¬graph.causal.Ancestor id other

omit [External] in
/-- The last event of a topological order is a tip. -/
theorem tip_of_getLast? (wellFormed : graph.causal.WellFormed) {order : List EventId}
    (extension : graph.causal.Extension order) {last : EventId}
    (ends : order.getLast? = some last) : graph.Tip last := by
  obtain ⟨earlier, rfl⟩ := List.getLast?_eq_some_iff.mp ends
  have applicable := (extension.mem_iff last).mp (by simp)
  refine ⟨applicable, ?_⟩
  intro other inside path
  rcases List.mem_append.mp ((extension.mem_iff other).mpr inside) with before | same
  · exact (List.pairwise_append.mp extension.sorted).2.2 other before last (by simp) path
  · rw [List.mem_singleton.mp same] at path
    exact applicable.acyclic wellFormed path

/-- Events that end under one epoch on every branch end under it in the topological order. -/
theorem lastWrittenUnder_of_tips (indexed : graph.Indexed) {order : List EventId}
    (ordered : graph.topologicalOrder = .ok order) (applied : order ≠ []) {epoch : KeyEpoch}
    (written : ∀ (id : EventId) event, graph.Tip id → graph.events[id]? = some event →
      EventId.parse event.body.keyEpoch.asStr = .ok epoch) : graph.LastWrittenUnder epoch := by
  have ends := List.getLast?_eq_some_getLast applied
  have tip := tip_of_getLast? indexed.wellFormed
    (topologicalOrder_extension indexed.wellFormed ordered) ends
  obtain ⟨event, found⟩ := (BTreeMap.mem_iff_getElem? _ _).mp
    ((indexed.known_iff _).mp tip.1.1.known)
  exact ⟨order, _, event, ordered, ends, found, written _ event tip found⟩

end EventGraph

namespace VaultProjection

variable [External] {graph : EventGraph} {projection : VaultProjection}

end VaultProjection

namespace TestSupport

/-- A rotation and its checkpoint, beside the join requests of two devices. -/
def joiningEvents : List VaultEvent :=
  [genesis 'g' '1',
    signed 'r' '1' [eventId 'g'] (eventId 'g') [.deviceRevoked (device 'd')],
    halfSeenCheckpoint,
    signed 'a' '2' [eventId 'g'] (eventId 'g')
      [.joinRequested (device 'a') ⟨[]⟩ (publicKey '2') ⟨[]⟩],
    signed 'z' '3' [eventId 'a'] (eventId 'g')
      [.joinRequested (device 'b') ⟨[]⟩ (publicKey '3') ⟨[]⟩]]

end TestSupport

end Nook.EventLog
