import Nook.EventLog.AuthorizationScan
import Nook.EventLog.GraphQuarantine

set_option autoImplicit false

namespace Nook.EventLog

open Nook.Lib Nook.Replication Relation

namespace EventGraph

variable [External] {graph start next : EventGraph} {ids : List EventId} {changed : Bool}

/-- A recorded event that needs the authority its causal past gives, where that
past approves or enrols a key that names no actor. -/
def Undecidable (graph : EventGraph) (id : EventId) : Prop :=
  ∃ event, graph.events[id]? = some event ∧ graph.causal.Applicable id ∧
    (∀ reason, graph.validateEpochCheckpointStructure event ≠
      .error (.invalidEpochCheckpointStructure reason)) ∧
    event.body.parents.isEmpty = false ∧ graph.isSelfSignedMembershipEvent event = .ok false ∧
    ¬graph.PastKeysParse event.body.parents

/-- The turns of the quarantine passes from `start`: the graph at a turn, the ids
its pass has left, and whether that pass has rejected an event. -/
inductive Turn (start : EventGraph) : EventGraph → List EventId → Bool → Prop
  | first : Turn start start start.events.keys false
  | retain {graph : EventGraph} {id : EventId} {ids : List EventId} {changed : Bool}
      (turn : Turn start graph (id :: ids) changed)
      (verdict : graph.classifyEventQuarantine id = .ok .retain) : Turn start graph ids changed
  | quarantine {graph : EventGraph} {id : EventId} {ids : List EventId} {changed : Bool}
      {reason : String} (turn : Turn start graph (id :: ids) changed)
      (verdict : graph.classifyEventQuarantine id = .ok (.quarantine reason)) :
      Turn start { graph with causal := graph.causal.quarantine id reason } ids true
  | again {graph : EventGraph} (turn : Turn start graph [] true) :
      Turn start graph graph.events.keys false

/-- The passes come to an event on which they reach no verdict. -/
def MeetsUndecidable (start : EventGraph) : Prop :=
  ∃ graph id ids changed, Turn start graph (id :: ids) changed ∧ graph.Undecidable id

/-! ### The verdict that fails -/

theorem classifyEventActorQuarantine_error_iff {event : VaultEvent} {storeId : StoreId}
    {id : EventId} (valid : event.validateEnvelope storeId = .ok id) :
    (∃ cause, graph.classifyEventActorQuarantine event = .error cause) ↔
      event.body.parents.isEmpty = false ∧ graph.isSelfSignedMembershipEvent event = .ok false ∧
        ¬graph.PastKeysParse event.body.parents := by
  obtain ⟨own, signed⟩ := isSelfSignedMembershipEvent_ok valid
  unfold classifyEventActorQuarantine validateEventActorAuthorized
  by_cases root : event.body.parents.isEmpty = true
  · simp [root, pure, Except.pure]
  rw [Bool.not_eq_true] at root
  rw [root, signed]
  cases own with
  | true => simp [pure, Except.pure, bind, Except.bind]
  | false =>
    rw [← authorizedActorsBefore_ok_iff]
    cases collected : graph.authorizedActorsBefore event with
    | error cause =>
      have other := authorizedActorsBefore_error collected
      cases cause <;> simp_all [bind, Except.bind]
    | ok actors =>
      by_cases listed : actors.contains event.body.actorId = true
      · simp [bind, Except.bind, ensure, listed]
      · simp [bind, Except.bind, ensure, listed]

theorem classifyEvent_error_iff {event : VaultEvent} {storeId : StoreId} {id : EventId}
    (valid : event.validateEnvelope storeId = .ok id) :
    (∃ cause, graph.classifyEvent event = .error cause) ↔
      (∀ reason, graph.validateEpochCheckpointStructure event ≠
        .error (.invalidEpochCheckpointStructure reason)) ∧
      event.body.parents.isEmpty = false ∧ graph.isSelfSignedMembershipEvent event = .ok false ∧
        ¬graph.PastKeysParse event.body.parents := by
  rw [← classifyEventActorQuarantine_error_iff valid]
  unfold classifyEvent
  split
  · rename_i reason refused
    simp [refused]
  · rename_i sound
    simpa using fun _ _ => sound

/-- The verdict on a recorded event fails exactly when the event is undecidable. -/
theorem Indexed.classifyEventQuarantine_error_iff (indexed : graph.Indexed) (valid : graph.Valid)
    {id : EventId} (recorded : id ∈ graph.events) :
    (∃ cause, graph.classifyEventQuarantine id = .error cause) ↔ graph.Undecidable id := by
  obtain ⟨event, found⟩ := (BTreeMap.mem_iff_getElem? _ _).mp recorded
  obtain ⟨_, enveloped⟩ := valid id event found
  by_cases applicable : graph.causal.Applicable id
  · rw [indexed.classifyEventQuarantine_eq applicable found, classifyEvent_error_iff enveloped]
    simp [Undecidable, found, applicable]
  · rw [indexed.retain_of_not_applicable applicable found]
    simp [Undecidable, applicable]

/-! ### The passes, turn by turn -/

theorem Turn.quarantined (turn : Turn start graph ids changed) : Quarantined start graph := by
  induction turn with
  | first => exact .refl
  | retain _ _ ih => exact ih
  | quarantine _ verdict ih => exact ih.tail (.reject verdict)
  | again _ ih => exact ih

theorem Turn.recorded (turn : Turn start graph ids changed) : ∀ id ∈ ids, id ∈ graph.events := by
  induction turn with
  | first => exact fun id => Std.ExtTreeMap.mem_keys.mp
  | retain _ _ ih => exact fun id member => ih id (List.mem_cons_of_mem _ member)
  | quarantine _ _ ih => exact fun id member => ih id (List.mem_cons_of_mem _ member)
  | again _ _ => exact fun id => Std.ExtTreeMap.mem_keys.mp

/-- A pass takes its turns one after another, up to its end or to a verdict that fails. -/
theorem Turn.pass (turn : Turn start graph ids changed) :
    (∀ next after, graph.quarantinePass changed ids = .ok (next, after) →
      Turn start next [] after) ∧
    ∀ rejection, graph.quarantinePass changed ids = .error rejection →
      ∃ id rest after, Turn start rejection.graph (id :: rest) after ∧
        rejection.graph.classifyEventQuarantine id = .error rejection.cause := by
  induction ids generalizing graph changed with
  | nil => simpa [quarantinePass] using turn
  | cons id ids ih =>
    unfold quarantinePass
    split
    · rename_i verdict
      exact ih (turn.retain verdict)
    · rename_i reason verdict
      exact ih (turn.quarantine verdict)
    · rename_i cause verdict
      refine ⟨by simp, ?_⟩
      intro rejection same
      cases same
      exact ⟨id, ids, changed, turn, verdict⟩

/-- What the passes still answer at a turn. -/
def rest (graph : EventGraph) (changed : Bool) (ids : List EventId) :
    Except EventGraphRejection EventGraph :=
  match graph.quarantinePass changed ids with
  | .error rejection => .error rejection
  | .ok (next, true) => next.quarantineRejectedApplicableEvents
  | .ok (next, false) => .ok next

theorem quarantineRejected_eq_rest (wellFormed : graph.causal.WellFormed) :
    graph.quarantineRejectedApplicableEvents = graph.rest false graph.events.keys := by
  unfold quarantineRejectedApplicableEvents rest
  cases pass : graph.quarantinePass false graph.events.keys with
  | error rejection => simp only [runLoop, quarantineRound, pass, Option.getD_some]
  | ok outcome =>
    obtain ⟨next, changed⟩ := outcome
    cases changed with
    | false => simp only [runLoop, quarantineRound, pass, Option.getD_some]
    | true =>
      have again : quarantineRound graph = .again next := by simp only [quarantineRound, pass]
      have steps := quarantineRound_again again
      have fewer := admittedCount_lt_of_steps steps wellFormed
      have bound := graph.admittedCount_le
      have same : next.events = graph.events := Quarantined.events_eq steps.to_reflTransGen
      have after : next.causal.WellFormed := Quarantined.wellFormed steps.to_reflTransGen wellFormed
      obtain ⟨_, result, _, _, ran⟩ :=
        runLoop_quarantineRound after (show next.admittedCount < graph.events.size by omega)
      have first : runLoop quarantineRound (graph.events.size + 1) graph = some result := by
        simp only [runLoop, again, ran]
      rw [first]
      simp only [quarantineRejectedApplicableEvents, same, runLoop_succ _ ran, Option.getD_some]

/-- The answer of the passes is the same at every turn. -/
theorem Turn.rest_eq (turn : Turn start graph ids changed) (wellFormed : start.causal.WellFormed) :
    start.quarantineRejectedApplicableEvents = graph.rest changed ids := by
  induction turn with
  | first => exact quarantineRejected_eq_rest wellFormed
  | retain _ verdict ih =>
    rw [ih]
    simp only [rest, quarantinePass, verdict]
  | quarantine _ verdict ih =>
    rw [ih]
    simp only [rest, quarantinePass, verdict]
  | again turn ih =>
    rw [ih, ← quarantineRejected_eq_rest (turn.quarantined.wellFormed wellFormed)]
    rfl

/-- The passes fail exactly when one of their turns falls on an undecidable event. -/
theorem quarantineRejected_error_iff (indexed : start.Indexed) (valid : start.Valid) :
    (∃ rejection, start.quarantineRejectedApplicableEvents = .error rejection) ↔
      start.MeetsUndecidable := by
  have decided : ∀ {graph id ids changed}, Turn start graph (id :: ids) changed →
      ((∃ cause, graph.classifyEventQuarantine id = .error cause) ↔ graph.Undecidable id) := by
    intro graph id ids changed turn
    have steps := turn.quarantined
    apply (steps.indexed indexed).classifyEventQuarantine_error_iff
    · intro other event found
      rw [steps.events_eq] at found
      exact valid other event found
    · exact turn.recorded id (List.mem_cons_self ..)
  constructor
  · rintro ⟨rejection, failed⟩
    obtain ⟨last, turn, leaves⟩ := runLoop_some quarantineRound
      (fun state => Turn start state state.events.keys false) (by
        intro state next turn again
        unfold quarantineRound at again
        split at again
        · cases again
        · rename_i after pass
          injection again with same
          subst same
          exact (turn.pass.1 _ true pass).again
        · cases again)
      _ start .first (.error rejection) (by
        unfold quarantineRejectedApplicableEvents at failed
        cases ran : runLoop quarantineRound (start.events.size + 1) start with
        | none => simp [ran] at failed
        | some result => simpa [ran] using failed)
    unfold quarantineRound at leaves
    split at leaves
    · rename_i refusal pass
      obtain ⟨id, ids, changed, turn, failed⟩ := turn.pass.2 refusal pass
      exact ⟨_, id, ids, changed, turn, (decided turn).mp ⟨_, failed⟩⟩
    · cases leaves
    · cases leaves
  · rintro ⟨graph, id, ids, changed, turn, undecidable⟩
    obtain ⟨cause, failed⟩ := (decided turn).mpr undecidable
    rw [turn.rest_eq indexed.wellFormed]
    simp only [rest, quarantinePass, failed]
    exact ⟨_, rfl⟩

/-- An event to record is valid for the expected store, under an id that is free. -/
theorem admission_insert_iff (graph : EventGraph) (event : VaultEvent) (expectedStoreId : Str)
    (id : EventId) :
    graph.admission event expectedStoreId = .ok (.insert id) ↔
      ∃ storeId, StoreId.parse expectedStoreId = .ok storeId ∧
        event.validateEnvelope storeId = .ok id ∧ graph.events[id]? = none := by
  constructor
  · intro admitted
    have fresh := (admission_insert admitted).2
    unfold admission at admitted
    obtain ⟨storeId, parsed, admitted⟩ := bind_eq_ok.mp admitted
    obtain ⟨other, enveloped, admitted⟩ := bind_eq_ok.mp admitted
    refine ⟨storeId, mapError_eq_ok.mp parsed, ?_, fresh⟩
    split at admitted
    · obtain ⟨_, _, admitted⟩ := bind_eq_ok.mp admitted
      obtain ⟨_, _, admitted⟩ := bind_eq_ok.mp admitted
      split at admitted <;> cases admitted
    · cases admitted
      exact enveloped
  · rintro ⟨storeId, parsed, enveloped, fresh⟩
    unfold admission
    rw [bind_eq_ok]
    refine ⟨storeId, mapError_eq_ok.mpr parsed, ?_⟩
    rw [bind_eq_ok]
    refine ⟨id, enveloped, ?_⟩
    rw [fresh]
    rfl

/-- A refused insertion hands the graph back unchanged exactly when the passes
over the graph with a new event recorded come to no undecidable event. -/
theorem insert_rejection_iff (indexed : graph.Indexed) (valid : graph.Valid) (event : VaultEvent)
    (expectedStoreId : Str) :
    (∀ rejection, graph.insert event expectedStoreId = .error rejection →
      rejection.graph = graph) ↔
      ∀ storeId id, StoreId.parse expectedStoreId = .ok storeId →
        event.validateEnvelope storeId = .ok id → graph.events[id]? = none →
        ¬(graph.recordEvent id event).MeetsUndecidable := by
  constructor
  · intro unchanged storeId id parsed enveloped fresh meets
    have admitted := (admission_insert_iff graph event expectedStoreId id).mpr
      ⟨storeId, parsed, enveloped, fresh⟩
    have recordedValid : (graph.recordEvent id event).Valid :=
      (Inserted.recorded ⟨storeId, enveloped⟩ fresh .refl).valid valid
    obtain ⟨rejection, failed⟩ := (quarantineRejected_error_iff (indexed.recordEvent fresh event)
      recordedValid).mpr meets
    have refused : graph.insert event expectedStoreId = .error rejection := by
      simp only [insert, admitted, failed]
      rfl
    have carried := (quarantineRejected_spec (wellFormed_recordEvent indexed.wellFormed id event)).1
    rw [failed] at carried
    have kept : rejection.graph.events = graph.events.insert id event := carried.events_eq
    have present : rejection.graph.events[id]? = some event := by
      rw [kept, BTreeMap.getElem?_insert_eq, if_pos rfl]
    rw [unchanged rejection refused, fresh] at present
    cases present
  · intro decided rejection refused
    unfold insert at refused
    split at refused
    · cases refused
      rfl
    · cases refused
    · cases refused
    · rename_i id admitted
      obtain ⟨storeId, parsed, enveloped, fresh⟩ :=
        (admission_insert_iff graph event expectedStoreId id).mp admitted
      rcases bind_eq_error.mp refused with failed | ⟨_, _, impossible⟩
      · have recordedValid : (graph.recordEvent id event).Valid :=
          (Inserted.recorded ⟨storeId, enveloped⟩ fresh .refl).valid valid
        exact absurd ((quarantineRejected_error_iff (indexed.recordEvent fresh event)
          recordedValid).mp ⟨rejection, failed⟩) (decided storeId id parsed enveloped fresh)
      · cases impossible

end EventGraph

end Nook.EventLog
