import Nook.EventLog.GraphPast

set_option autoImplicit false

namespace Nook.EventLog

open Nook.Lib Nook.Replication Relation

namespace EventGraph

variable {graph next : EventGraph}

theorem indexed_new : new.Indexed where
  wellFormed := CausalGraph.new_wellFormed
  parents_eq := by simp [new, CausalGraph.new]

theorem Indexed.quarantine (indexed : graph.Indexed) (id : EventId) (reason : String) :
    Indexed { graph with causal := graph.causal.quarantine id reason } where
  wellFormed := CausalGraph.quarantine_wellFormed indexed.wellFormed id reason
  parents_eq := indexed.parents_eq

theorem Indexed.fresh (indexed : graph.Indexed) {id : EventId} (fresh : graph.events[id]? = none) :
    id ∉ graph.causal.parents := by
  rw [indexed.known_iff, BTreeMap.not_mem_iff_getElem?]
  exact fresh

theorem parents_recordEvent (indexed : graph.Indexed) {id : EventId}
    (fresh : graph.events[id]? = none) (event : VaultEvent) :
    (graph.recordEvent id event).causal.parents =
      graph.causal.parents.insert id (normalizeParents event.body.parents) := by
  unfold recordEvent
  dsimp only
  rw [CausalGraph.insert_unknown id event.body.parents (indexed.fresh fresh)]
  rfl

theorem quarantineRoots_recordEvent (indexed : graph.Indexed) {id : EventId}
    (fresh : graph.events[id]? = none) (event : VaultEvent) :
    (graph.recordEvent id event).causal.quarantineRoots = graph.causal.quarantineRoots := by
  unfold recordEvent
  dsimp only
  rw [CausalGraph.insert_unknown id event.body.parents (indexed.fresh fresh)]
  rfl

theorem Indexed.recordEvent (indexed : graph.Indexed) {id : EventId}
    (fresh : graph.events[id]? = none) (event : VaultEvent) :
    (graph.recordEvent id event).Indexed where
  wellFormed := CausalGraph.insert_wellFormed indexed.wellFormed id event.body.parents
  parents_eq := by
    intro other
    rw [parents_recordEvent indexed fresh event]
    unfold EventGraph.recordEvent
    dsimp only
    rw [BTreeMap.getElem?_insert_eq, BTreeMap.getElem?_insert_eq, indexed.parents_eq]
    split <;> rfl

/-- Rejected ids stay rejected. -/
theorem mem_quarantined_quarantine (wellFormed : graph.causal.WellFormed) (id other : EventId)
    (reason : String) :
    other ∈ (graph.causal.quarantine id reason).quarantined ↔
      graph.causal.AncestorOrSelf id other ∨ other ∈ graph.causal.quarantined :=
  CausalGraph.mem_quarantined_quarantine wellFormed id other reason

theorem wellFormed_recordEvent (wellFormed : graph.causal.WellFormed) (id : EventId)
    (event : VaultEvent) : (graph.recordEvent id event).causal.WellFormed :=
  CausalGraph.insert_wellFormed wellFormed id event.body.parents

/-- Events recorded under one id have the same parents, as content addressing has it. -/
def SameParents (left right : EventGraph) : Prop :=
  ∀ (id : EventId) (event other : VaultEvent), left.events[id]? = some event →
    right.events[id]? = some other →
      normalizeParents event.body.parents = normalizeParents other.body.parents

theorem Indexed.union {left right : EventGraph} (first : left.Indexed) (second : right.Indexed)
    (same : left.SameParents right) : (left.union right).Indexed where
  wellFormed := CausalGraph.union_wellFormed first.wellFormed _
  parents_eq := by
    intro id
    show (left.causal.union right.causal).parents[id]? =
      ((left.events.insertAbsent right.events.toList)[id]?).map _
    rw [CausalGraph.parents_union _ second.wellFormed, first.parents_eq,
      second.parents_eq, BTreeMap.getElem?_insertAbsent, BTreeMap.find?_toList]
    · cases left.events[id]? <;> rfl
    · intro id parents other found otherFound
      rw [first.parents_eq, Option.map_eq_some_iff] at found
      rw [second.parents_eq, Option.map_eq_some_iff] at otherFound
      obtain ⟨event, recorded, rfl⟩ := found
      obtain ⟨otherEvent, otherRecorded, rfl⟩ := otherFound
      exact same id event otherEvent recorded otherRecorded

variable [External]

/-! ### The quarantine passes -/

/-- One rejection by a pass. -/
inductive QuarantineStep : EventGraph → EventGraph → Prop
  | reject {graph : EventGraph} {id : EventId} {reason : String}
      (verdict : graph.classifyEventQuarantine id = .ok (.quarantine reason)) :
      QuarantineStep graph { graph with causal := graph.causal.quarantine id reason }

/-- Some rejections by passes. -/
def Quarantined : EventGraph → EventGraph → Prop := ReflTransGen QuarantineStep

/-- No pass changes the graph any more. -/
def Settled (graph : EventGraph) : Prop :=
  ∀ id ∈ graph.events, graph.classifyEventQuarantine id = .ok .retain

/-- A rejecting verdict is on a recorded event that is not rejected yet. -/
theorem quarantine_verdict {id : EventId} {reason : String}
    (verdict : graph.classifyEventQuarantine id = .ok (.quarantine reason)) :
    id ∉ graph.causal.quarantined ∧ id ∈ graph.events := by
  unfold classifyEventQuarantine at verdict
  split at verdict
  · cases verdict
  rename_i admitted
  rw [Std.ExtTreeMap.contains_iff_mem] at admitted
  split at verdict
  · cases verdict
  rename_i event found
  exact ⟨admitted, BTreeMap.mem_of_getElem? found⟩

/-- What a rejecting verdict tells about the content of the event. -/
theorem Indexed.quarantine_verdict (indexed : graph.Indexed) {id : EventId} {reason : String}
    (verdict : graph.classifyEventQuarantine id = .ok (.quarantine reason)) :
    graph.causal.Present id ∧ ∃ event, graph.events[id]? = some event ∧
      graph.classifyEvent event = .ok (.quarantine reason) := by
  unfold classifyEventQuarantine at verdict
  split at verdict
  · cases verdict
  rename_i admitted
  rw [Std.ExtTreeMap.contains_iff_mem] at admitted
  split at verdict
  · cases verdict
  rename_i event found
  have parents : graph.causal.parents[id]? = some (normalizeParents event.body.parents) := by
    rw [indexed.parents_eq, found, Option.map_some]
  split at verdict
  · cases verdict
  rename_i present
  split at verdict
  · rename_i rejected
    obtain ⟨parent, member, inside⟩ := List.any_eq_true.mp rejected
    rw [Std.ExtTreeMap.contains_iff_mem, indexed.wellFormed.quarantined_iff] at inside
    obtain ⟨root, reason, path⟩ := inside
    have edge : graph.causal.Edge parent id :=
      (CausalGraph.edge_iff _ _ _).mpr ⟨_, parents, (mem_normalizeParents _ _).mpr member⟩
    exact absurd ((indexed.wellFormed.quarantined_iff id).mpr ⟨root, reason, path.tail edge⟩) admitted
  · refine ⟨?_, event, found, verdict⟩
    rw [Bool.not_eq_true', Bool.not_eq_false, CausalGraph.ancestorIdsPresent_iff] at present
    intro ancestor path
    rcases CausalGraph.ancestorOrSelf_cases path with rfl | ⟨parent, edge, path⟩
    · exact BTreeMap.mem_of_getElem? parents
    · rw [CausalGraph.parentsOf_known _ parents, mem_normalizeParents] at edge
      exact present ancestor parent edge path

/-- The verdict on an applicable event is the verdict on its content. -/
theorem Indexed.classifyEventQuarantine_eq (indexed : graph.Indexed) {id : EventId}
    (applicable : graph.causal.Applicable id) {event : VaultEvent}
    (found : graph.events[id]? = some event) :
    graph.classifyEventQuarantine id = graph.classifyEvent event := by
  have parents : graph.causal.parents[id]? = some (normalizeParents event.body.parents) := by
    rw [indexed.parents_eq, found, Option.map_some]
  have edge : ∀ parent ∈ event.body.parents, graph.causal.Edge parent id := fun parent member =>
    (CausalGraph.edge_iff _ _ _).mpr ⟨_, parents, (mem_normalizeParents _ _).mpr member⟩
  have present : graph.causal.ancestorIdsPresent event.body.parents = true := by
    rw [CausalGraph.ancestorIdsPresent_iff]
    intro ancestor parent member path
    exact applicable.1 ancestor (path.tail (edge parent member))
  unfold classifyEventQuarantine
  rw [if_neg (by simpa using applicable.2), found]
  dsimp only
  rw [present, Bool.not_true, if_neg Bool.false_ne_true, if_neg]
  rw [List.any_eq_true]
  rintro ⟨parent, member, rejected⟩
  have applicableParent := applicable.ancestor indexed.wellFormed
    (ReflTransGen.single (edge parent member))
  exact applicableParent.2 (Std.ExtTreeMap.contains_iff_mem.mp rejected)

/-- A retaining verdict on an applicable event is a retaining verdict on its content. -/
theorem Indexed.retain_verdict (indexed : graph.Indexed) {id : EventId}
    (verdict : graph.classifyEventQuarantine id = .ok .retain)
    (applicable : graph.causal.Applicable id) {event : VaultEvent}
    (found : graph.events[id]? = some event) : graph.classifyEvent event = .ok .retain := by
  rw [← indexed.classifyEventQuarantine_eq applicable found]
  exact verdict

/-- A recorded event that is not applicable keeps its place. -/
theorem Indexed.retain_of_not_applicable (indexed : graph.Indexed) {id : EventId}
    (waiting : ¬graph.causal.Applicable id) {event : VaultEvent}
    (found : graph.events[id]? = some event) :
    graph.classifyEventQuarantine id = .ok .retain := by
  unfold classifyEventQuarantine
  rw [found]
  split
  · rfl
  rename_i admitted
  have absent : ¬graph.causal.Present id := fun present =>
    waiting ⟨present, by simpa using admitted⟩
  have parents : graph.causal.parents[id]? = some (normalizeParents event.body.parents) := by
    rw [indexed.parents_eq, found, Option.map_some]
  dsimp only
  rw [if_pos]
  rw [Bool.not_eq_true', ← Bool.not_eq_true, CausalGraph.ancestorIdsPresent_iff]
  intro present
  apply absent
  intro ancestor path
  rcases CausalGraph.ancestorOrSelf_cases path with rfl | ⟨parent, edge, path⟩
  · exact BTreeMap.mem_of_getElem? parents
  · rw [CausalGraph.parentsOf_known _ parents, mem_normalizeParents] at edge
    exact present ancestor parent edge path

/-- A graph is settled when the content of every applicable event is retained. -/
theorem Indexed.settled_iff (indexed : graph.Indexed) :
    graph.Settled ↔ ∀ (id : EventId) (event : VaultEvent), graph.causal.Applicable id →
      graph.events[id]? = some event → graph.classifyEvent event = .ok .retain := by
  constructor
  · intro settled id event applicable found
    exact indexed.retain_verdict (settled id (BTreeMap.mem_of_getElem? found)) applicable found
  · intro retained id recorded
    obtain ⟨event, found⟩ := (BTreeMap.mem_iff_getElem? _ _).mp recorded
    by_cases applicable : graph.causal.Applicable id
    · rw [indexed.classifyEventQuarantine_eq applicable found]
      exact retained id event applicable found
    · exact indexed.retain_of_not_applicable applicable found

theorem QuarantineStep.events_eq (step : QuarantineStep graph next) : next.events = graph.events := by
  cases step
  rfl

theorem QuarantineStep.parents_eq (step : QuarantineStep graph next) :
    next.causal.parents = graph.causal.parents := by
  cases step
  rfl

theorem QuarantineStep.wellFormed (step : QuarantineStep graph next)
    (wellFormed : graph.causal.WellFormed) : next.causal.WellFormed := by
  cases step
  exact CausalGraph.quarantine_wellFormed wellFormed _ _

/-- The recorded events that are not rejected. -/
def admittedCount (graph : EventGraph) : Nat :=
  (graph.events.keys.filter fun id => !graph.causal.quarantined.contains id).length

theorem QuarantineStep.admittedCount_lt (step : QuarantineStep graph next)
    (wellFormed : graph.causal.WellFormed) : next.admittedCount < graph.admittedCount := by
  cases step with
  | @reject id reason verdict =>
    obtain ⟨admitted, recorded⟩ := quarantine_verdict verdict
    have rejected := mem_quarantined_quarantine wellFormed id
    apply length_filter_lt id
    · intro other
      simp only [Bool.not_eq_true', ← Bool.not_eq_true, Std.ExtTreeMap.contains_iff_mem, rejected]
      tauto
    · exact Std.ExtTreeMap.mem_keys.mpr recorded
    · simpa [← Bool.not_eq_true] using admitted
    · simpa using (rejected id reason).mpr (Or.inl .refl)

theorem Quarantined.wellFormed (steps : Quarantined graph next)
    (wellFormed : graph.causal.WellFormed) : next.causal.WellFormed := by
  induction steps with
  | refl => exact wellFormed
  | tail _ step ih => exact step.wellFormed ih

theorem Quarantined.events_eq (steps : Quarantined graph next) : next.events = graph.events := by
  induction steps with
  | refl => rfl
  | tail _ step ih => rw [step.events_eq, ih]

theorem Quarantined.parents_eq (steps : Quarantined graph next) :
    next.causal.parents = graph.causal.parents := by
  induction steps with
  | refl => rfl
  | tail _ step ih => rw [step.parents_eq, ih]

theorem Quarantined.indexed (steps : Quarantined graph next) (indexed : graph.Indexed) :
    next.Indexed where
  wellFormed := steps.wellFormed indexed.wellFormed
  parents_eq := by
    rw [steps.parents_eq, steps.events_eq]
    exact indexed.parents_eq

/-- What a pass from `graph` may answer. -/
def PassOutcome (graph : EventGraph) (changed : Bool) (ids : List EventId) :
    Except EventGraphRejection (EventGraph × Bool) → Prop
  | .error rejection => Quarantined graph rejection.graph
  | .ok (next, true) => (changed = true ∧ Quarantined graph next) ∨ TransGen QuarantineStep graph next
  | .ok (next, false) => changed = false ∧ next = graph ∧
      ∀ id ∈ ids, graph.classifyEventQuarantine id = .ok .retain

/-- A pass rejects step by step; one that changes nothing found nothing to reject. -/
theorem quarantinePass_outcome (graph : EventGraph) (changed : Bool) (ids : List EventId) :
    PassOutcome graph changed ids (graph.quarantinePass changed ids) := by
  induction ids generalizing graph changed with
  | nil => cases changed <;> simp [quarantinePass, PassOutcome, Quarantined, ReflTransGen.refl]
  | cons id ids ih =>
    unfold quarantinePass
    split
    · rename_i verdict
      have rest := ih graph changed
      generalize graph.quarantinePass changed ids = outcome at rest ⊢
      match outcome with
      | .error rejection => exact rest
      | .ok (next, true) => exact rest
      | .ok (next, false) =>
        refine ⟨rest.1, rest.2.1, ?_⟩
        intro other member
        rcases List.mem_cons.mp member with rfl | member
        · exact verdict
        · exact rest.2.2 other member
    · rename_i reason verdict
      have step : QuarantineStep graph _ := .reject verdict
      have rest := ih { graph with causal := graph.causal.quarantine id reason } true
      generalize quarantinePass _ true ids = outcome at rest ⊢
      match outcome with
      | .error rejection => exact ReflTransGen.head step rest
      | .ok (next, true) =>
        right
        rcases rest with ⟨_, later⟩ | later
        · exact TransGen.head' step later
        · exact TransGen.head step later
      | .ok (next, false) => exact absurd rest.1 (by decide)
    · exact ReflTransGen.refl

theorem admittedCount_lt_of_steps (steps : TransGen QuarantineStep graph next)
    (wellFormed : graph.causal.WellFormed) : next.admittedCount < graph.admittedCount := by
  induction steps using TransGen.head_induction_on with
  | single step => exact step.admittedCount_lt wellFormed
  | head step _ ih =>
    exact Nat.lt_trans (ih (step.wellFormed wellFormed)) (step.admittedCount_lt wellFormed)

/-- The graph an insertion leaves, accepted or not. -/
def carriedGraph : Except EventGraphRejection EventGraph → EventGraph
  | .ok graph => graph
  | .error rejection => rejection.graph

omit [External] in
theorem admittedCount_le (graph : EventGraph) : graph.admittedCount ≤ graph.events.size := by
  have bound := List.length_filter_le (fun id => !graph.causal.quarantined.contains id)
    graph.events.keys
  rw [Std.ExtTreeMap.length_keys] at bound
  exact bound

theorem quarantineRound_again (again : quarantineRound graph = .again next) :
    TransGen QuarantineStep graph next := by
  have outcome := quarantinePass_outcome graph false graph.events.keys
  unfold quarantineRound at again
  split at again
  · cases again
  · rename_i after pass
    injection again with same
    subst same
    rw [pass] at outcome
    rcases outcome with ⟨impossible, _⟩ | steps
    · cases impossible
    · exact steps
  · cases again

/-- With as many rounds as there are events to reject, the loop leaves. -/
theorem runLoop_quarantineRound (wellFormed : graph.causal.WellFormed) {fuel : Nat}
    (enough : graph.admittedCount < fuel) :
    ∃ last result, Quarantined graph last ∧ quarantineRound last = .done result ∧
      runLoop quarantineRound fuel graph = some result := by
  apply runLoop_rule quarantineRound (Quarantined graph) admittedCount _ fuel graph .refl enough
  intro state next reached again
  have steps := quarantineRound_again again
  exact ⟨reached.trans steps.to_reflTransGen,
    admittedCount_lt_of_steps steps (reached.wellFormed wellFormed)⟩

/-- The fixpoint loop rejects step by step, and ends settled unless a verdict fails. -/
theorem quarantineRejected_spec (wellFormed : graph.causal.WellFormed) :
    Quarantined graph (carriedGraph graph.quarantineRejectedApplicableEvents) ∧
      ∀ settled, graph.quarantineRejectedApplicableEvents = .ok settled → settled.Settled := by
  obtain ⟨last, result, reached, leaves, ran⟩ :=
    runLoop_quarantineRound wellFormed (Nat.lt_succ_of_le graph.admittedCount_le)
  have same : graph.quarantineRejectedApplicableEvents = result := by
    unfold quarantineRejectedApplicableEvents
    rw [ran, Option.getD_some]
  have outcome := quarantinePass_outcome last false last.events.keys
  rw [same]
  unfold quarantineRound at leaves
  split at leaves
  · rename_i rejection pass
    injection leaves with same
    subst same
    rw [pass] at outcome
    exact ⟨reached.trans outcome, fun _ impossible => by cases impossible⟩
  · cases leaves
  · rename_i settled pass
    injection leaves with same
    subst same
    rw [pass] at outcome
    obtain ⟨_, rfl, retained⟩ := outcome
    refine ⟨reached, ?_⟩
    intro other equal
    injection equal with equal
    subst equal
    intro id member
    exact retained id (Std.ExtTreeMap.mem_keys.mpr member)

/-! ### What an insertion leaves -/

/-- The graphs an insertion can leave, by the way it went. -/
inductive Inserted (graph : EventGraph) (event : VaultEvent) : EventGraph → Prop
  | unchanged : Inserted graph event graph
  | conflict (id : EventId) (reason : String) :
      Inserted graph event { graph with causal := graph.causal.quarantine id reason }
  | recorded {id : EventId} {next : EventGraph}
      (valid : ∃ storeId, event.validateEnvelope storeId = .ok id)
      (fresh : graph.events[id]? = none)
      (steps : Quarantined (graph.recordEvent id event) next) : Inserted graph event next

theorem Inserted.wellFormed {event : VaultEvent} (inserted : Inserted graph event next)
    (wellFormed : graph.causal.WellFormed) : next.causal.WellFormed := by
  cases inserted with
  | unchanged => exact wellFormed
  | conflict id reason => exact CausalGraph.quarantine_wellFormed wellFormed id reason
  | recorded _ _ steps => exact steps.wellFormed (wellFormed_recordEvent wellFormed _ event)

theorem Inserted.indexed {event : VaultEvent} (inserted : Inserted graph event next)
    (indexed : graph.Indexed) : next.Indexed := by
  cases inserted with
  | unchanged => exact indexed
  | conflict id reason => exact indexed.quarantine id reason
  | recorded _ fresh steps => exact steps.indexed (indexed.recordEvent fresh event)

theorem validateEnvelope_id {event : VaultEvent} {storeId : StoreId} {id : EventId}
    (valid : event.validateEnvelope storeId = .ok id) : event.id = .ok id := by
  unfold VaultEvent.validateEnvelope at valid
  simp only [bind_eq_ok] at valid
  obtain ⟨_, _, _, _, _, _, _, _, _, _, _, _, _, _, identified⟩ := valid
  exact identified

theorem validateEnvelope_supported {event : VaultEvent} {storeId : StoreId} {id : EventId}
    (valid : event.validateEnvelope storeId = .ok id) :
    event.body.schemaVersion.isSupported = true := by
  unfold VaultEvent.validateEnvelope at valid
  obtain ⟨_, version, _⟩ := bind_eq_ok.mp valid
  exact (ensure_eq_ok _ _).mp version

/-- A valid event is signed with a key that names an actor. -/
theorem validateEnvelope_actor {event : VaultEvent} {storeId : StoreId} {id : EventId}
    (valid : event.validateEnvelope storeId = .ok id) :
    ∃ actor, SigningIdentity.actorIdForPublicKeyHex event.body.actorSigningPublicKey.asStr =
      .ok actor := by
  unfold VaultEvent.validateEnvelope at valid
  simp only [bind_eq_ok] at valid
  obtain ⟨_, _, _, _, _, _, _, _, _, _, _, _, _, signature, _⟩ := valid
  unfold VaultEvent.validateActorSignature at signature
  simp only [bind_eq_ok] at signature
  obtain ⟨_, _, verifyingKey, parsed, actor, named, _⟩ := signature
  exact ⟨actor, bind_eq_ok.mpr ⟨verifyingKey, parsed, named⟩⟩

theorem operationIsSelfSigned_ok {event : VaultEvent} {storeId : StoreId} {id : EventId}
    (valid : event.validateEnvelope storeId = .ok id) (key : DeviceSigningPublicKey) :
    ∃ own, operationIsSelfSigned event key = .ok own := by
  obtain ⟨actor, named⟩ := validateEnvelope_actor valid
  unfold operationIsSelfSigned
  by_cases missing : key.isEmpty
  · rw [if_pos missing]
    exact ⟨false, rfl⟩
  · rw [if_neg missing]
    by_cases foreign : event.body.actorSigningPublicKey ≠ key
    · rw [if_pos foreign]
      exact ⟨false, rfl⟩
    · rw [if_neg foreign, ← not_ne_iff.mp foreign, named]
      exact ⟨_, rfl⟩

/-- On a valid event the self-signed membership check reaches a verdict. -/
theorem isSelfSignedMembershipEvent_ok {event : VaultEvent} {storeId : StoreId} {id : EventId}
    (valid : event.validateEnvelope storeId = .ok id) :
    ∃ own, graph.isSelfSignedMembershipEvent event = .ok own := by
  have scanned : ∀ (operations : List VaultOperation) (requested approved : Bool),
      ∃ seen, selfSignedMembership event requested approved operations = .ok seen := by
    intro operations
    induction operations with
    | nil => exact fun _ _ => ⟨_, rfl⟩
    | cons head tail ih =>
      intro requested approved
      have keyed : ∀ (key : DeviceSigningPublicKey) (requested approved : Bool),
          ∃ seen, (do
            if !(← operationIsSelfSigned event key) then return none
            selfSignedMembership event requested approved tail) = .ok seen := by
        intro key requested approved
        obtain ⟨own, signed⟩ := operationIsSelfSigned_ok valid key
        rw [signed]
        cases own with
        | true => exact ih requested approved
        | false => exact ⟨none, rfl⟩
      cases head with
      | joinRequested _ _ key _ => exact keyed key true approved
      | joinApproved _ _ key => exact keyed key requested true
      | _ => exact ⟨none, rfl⟩
  unfold isSelfSignedMembershipEvent
  by_cases empty : event.body.operations.isEmpty
  · rw [if_pos empty]
    exact ⟨false, rfl⟩
  · obtain ⟨seen, found⟩ := scanned event.body.operations false false
    rw [if_neg empty, found]
    cases seen with
    | none => exact ⟨false, rfl⟩
    | some seen =>
      by_cases sentinel : (seen.2 && graph.ancestryHasSentinelArchitectureEvidence event) = true
      · exact ⟨false, by simp only [bind, Except.bind, sentinel]; rfl⟩
      · exact ⟨_, by simp only [bind, Except.bind, sentinel]; rfl⟩

/-- A new event is recorded only under an id that is free. -/
theorem admission_ok {event : VaultEvent} {expectedStoreId : Str} {verdict : EventGraphAdmission}
    (admitted : graph.admission event expectedStoreId = .ok verdict) :
    ∃ id, (∃ storeId, event.validateEnvelope storeId = .ok id) ∧
      ((graph.events[id]? = none ∧ verdict = .insert id) ∨
        ∃ existing, graph.events[id]? = some existing ∧
          (verdict = .duplicate ∨ (verdict = .conflict id ∧
            existing.body.toCanonicalBytes ≠ event.body.toCanonicalBytes))) := by
  unfold admission at admitted
  obtain ⟨storeId, _, admitted⟩ := bind_eq_ok.mp admitted
  obtain ⟨id, valid, admitted⟩ := bind_eq_ok.mp admitted
  refine ⟨id, ⟨storeId, valid⟩, ?_⟩
  split at admitted
  · rename_i existing found
    obtain ⟨bytes, encoded, admitted⟩ := bind_eq_ok.mp admitted
    obtain ⟨other, otherEncoded, admitted⟩ := bind_eq_ok.mp admitted
    refine Or.inr ⟨existing, found, ?_⟩
    split at admitted
    · cases admitted
      exact Or.inl rfl
    · rename_i apart
      cases admitted
      right
      refine ⟨rfl, ?_⟩
      rw [encoded, otherEncoded]
      simpa using apart
  · rename_i fresh
    cases admitted
    exact Or.inl ⟨fresh, rfl⟩

theorem admission_insert {event : VaultEvent} {expectedStoreId : Str} {id : EventId}
    (admitted : graph.admission event expectedStoreId = .ok (.insert id)) :
    (∃ storeId, event.validateEnvelope storeId = .ok id) ∧ graph.events[id]? = none := by
  obtain ⟨found, valid, ⟨fresh, same⟩ | ⟨_, _, same | ⟨same, _⟩⟩⟩ := admission_ok admitted
  · injection same with same
    subst same
    exact ⟨valid, fresh⟩
  · cases same
  · cases same

/-- The graph of an insertion, accepted or not. -/
def insertedGraph : Except EventGraphRejection EventGraphInsertion → EventGraph
  | .ok insertion => insertion.graph
  | .error rejection => rejection.graph

theorem inserted_insert (wellFormed : graph.causal.WellFormed) (event : VaultEvent)
    (expectedStoreId : Str) :
    Inserted graph event (insertedGraph (graph.insert event expectedStoreId)) := by
  unfold insert
  split
  · exact .unchanged
  · exact .unchanged
  · exact .conflict _ _
  · rename_i id admitted
    obtain ⟨valid, fresh⟩ := admission_insert admitted
    apply Inserted.recorded valid fresh
    have spec := (quarantineRejected_spec (wellFormed_recordEvent wellFormed id event)).1
    cases settled : (graph.recordEvent id event).quarantineRejectedApplicableEvents with
    | error rejection => rwa [settled] at spec
    | ok next => rwa [settled] at spec

/-- What an accepted insertion does: record a new event and settle, or nothing
for an event that is recorded, or reject an id whose recorded content differs. -/
inductive Accepted (graph : EventGraph) (event : VaultEvent) : EventGraph → Prop
  | recorded {id : EventId} {next : EventGraph} (identified : event.id = .ok id)
      (fresh : graph.events[id]? = none)
      (steps : Quarantined (graph.recordEvent id event) next) (settled : next.Settled) :
      Accepted graph event next
  | duplicate {id : EventId} {existing : VaultEvent} (identified : event.id = .ok id)
      (found : graph.events[id]? = some existing) : Accepted graph event graph
  | conflict {id : EventId} {existing : VaultEvent} (reason : String)
      (identified : event.id = .ok id) (found : graph.events[id]? = some existing)
      (apart : existing.body.toCanonicalBytes ≠ event.body.toCanonicalBytes) :
      Accepted graph event { graph with causal := graph.causal.quarantine id reason }

theorem accepted_insert (wellFormed : graph.causal.WellFormed) {event : VaultEvent}
    {expectedStoreId : Str} {insertion : EventGraphInsertion}
    (accepted : graph.insert event expectedStoreId = .ok insertion) :
    Accepted graph event insertion.graph := by
  unfold insert at accepted
  split at accepted
  · cases accepted
  · rename_i admitted
    cases accepted
    obtain ⟨id, ⟨_, valid⟩, ⟨_, same⟩ | ⟨existing, found, _⟩⟩ := admission_ok admitted
    · cases same
    · exact .duplicate (validateEnvelope_id valid) found
  · rename_i eventId admitted
    cases accepted
    obtain ⟨id, ⟨_, valid⟩, ⟨_, same⟩ | ⟨existing, found, same | ⟨same, apart⟩⟩⟩ :=
      admission_ok admitted
    · cases same
    · cases same
    · injection same with same
      subst same
      exact .conflict _ (validateEnvelope_id valid) found apart
  · rename_i id admitted
    obtain ⟨⟨_, valid⟩, fresh⟩ := admission_insert admitted
    obtain ⟨next, settled, same⟩ := bind_eq_ok.mp accepted
    cases same
    have spec := quarantineRejected_spec (wellFormed_recordEvent wellFormed id event)
    rw [settled] at spec
    exact .recorded (validateEnvelope_id valid) fresh spec.1 (spec.2 next rfl)

/-! ### Reachable graphs -/

/-- Graphs reached from the empty one by accepted and refused insertions, and by
the unions that `joinable` admits. -/
inductive Reachable (joinable : EventGraph → EventGraph → Prop) : EventGraph → Prop
  | new : Reachable joinable new
  | inserted {graph : EventGraph} (event : VaultEvent) (expectedStoreId : Str)
      (before : Reachable joinable graph) :
      Reachable joinable (insertedGraph (graph.insert event expectedStoreId))
  | union {left right : EventGraph} (first : Reachable joinable left)
      (second : Reachable joinable right) (joins : joinable left right) :
      Reachable joinable (left.union right)

theorem Reachable.wellFormed {joinable : EventGraph → EventGraph → Prop}
    (reachable : Reachable joinable graph) : graph.causal.WellFormed := by
  induction reachable with
  | new => exact CausalGraph.new_wellFormed
  | inserted event expectedStoreId _ ih =>
    exact (inserted_insert ih event expectedStoreId).wellFormed ih
  | union _ _ _ ih _ => exact CausalGraph.union_wellFormed ih _

theorem Reachable.indexed (reachable : Reachable SameParents graph) : graph.Indexed := by
  induction reachable with
  | new => exact indexed_new
  | inserted event expectedStoreId _ ih =>
    exact (inserted_insert ih.wellFormed event expectedStoreId).indexed ih
  | union _ _ joins first second => exact first.union second joins

/-- Every recorded event passed the validation of its envelope under its id. -/
def Valid (graph : EventGraph) : Prop :=
  ∀ (id : EventId) (event : VaultEvent), graph.events[id]? = some event →
    ∃ storeId, event.validateEnvelope storeId = .ok id

theorem Inserted.valid {event : VaultEvent} (inserted : Inserted graph event next)
    (valid : graph.Valid) : next.Valid := by
  cases inserted with
  | unchanged => exact valid
  | conflict => exact valid
  | recorded accepted _ steps =>
    intro other content found
    rw [steps.events_eq] at found
    change (graph.events.insert _ event)[other]? = some content at found
    rw [BTreeMap.getElem?_insert_eq] at found
    split at found
    · rename_i same
      cases found
      exact same ▸ accepted
    · exact valid other content found

theorem Reachable.valid {joinable : EventGraph → EventGraph → Prop}
    (reachable : Reachable joinable graph) : graph.Valid := by
  induction reachable with
  | new => simp [Valid, EventGraph.new]
  | inserted event expectedStoreId before ih =>
    exact (inserted_insert before.wellFormed event expectedStoreId).valid ih
  | @union left right _ _ _ first second =>
    intro id event found
    change (left.events.insertAbsent right.events.toList)[id]? = some event at found
    rw [BTreeMap.getElem?_insertAbsent, BTreeMap.find?_toList, Option.or_eq_some_iff] at found
    rcases found with own | ⟨_, joined⟩
    · exact first id event own
    · exact second id event joined

/-- Every recorded event has a schema version that the validation supports. -/
def Supported (graph : EventGraph) : Prop :=
  ∀ (id : EventId) (event : VaultEvent), graph.events[id]? = some event →
    event.body.schemaVersion.isSupported = true

theorem Valid.supported (valid : graph.Valid) : graph.Supported := by
  intro id event found
  obtain ⟨_, enveloped⟩ := valid id event found
  exact validateEnvelope_supported enveloped

theorem Reachable.supported {joinable : EventGraph → EventGraph → Prop}
    (reachable : Reachable joinable graph) : graph.Supported :=
  reachable.valid.supported

theorem Reachable.insertAll {joinable : EventGraph → EventGraph → Prop} {expectedStoreId : Str}
    (events : List VaultEvent) {graph final : EventGraph} (reachable : Reachable joinable graph)
    (accepted : graph.insertAll expectedStoreId events = .ok final) : Reachable joinable final := by
  induction events generalizing graph with
  | nil =>
    cases accepted
    exact reachable
  | cons head tail ih =>
    obtain ⟨middle, first, rest⟩ := bind_eq_ok.mp accepted
    obtain ⟨insertion, inserted, same⟩ := bind_eq_ok.mp first
    cases same
    have next := reachable.inserted head expectedStoreId
    rw [inserted] at next
    exact ih next rest

end EventGraph

end Nook.EventLog
