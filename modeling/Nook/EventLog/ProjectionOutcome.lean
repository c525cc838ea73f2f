import Nook.EventLog.ProjectionFold

set_option autoImplicit false

namespace Nook.EventLog

open Nook.Lib Nook.Replication Relation

variable {graph : EventGraph} {order : List EventId} {storeId : StoreId}

namespace ProjectionState

/-- The observed parts of the state after a fold over an order of events. -/
structure Folded (graph : EventGraph) (order : List EventId) (state : ProjectionState) :
    Prop where
  cell : ∀ secretId, state.projection.cell secretId =
    Register.run (graph.secretEffect secretId) order none
  vaultName : state.projection.vaultName =
    (order.reverse.findSome? graph.givenName).getD .unnamed
  replacements : ∀ oldId, (state.replacementsByOld[oldId]?).getD [] =
    Journal.run (graph.resolvesReplacements oldId) (graph.replacementsSince oldId) order []
  securityEvents : ∀ id : EventId, state.securityEvents[id]? =
    if id ∈ order then graph.securityReason id else none

theorem foldl_reason (graph : EventGraph) (id : EventId) (order : List EventId)
    (nodup : order.Nodup) :
    order.foldl (fun reason other =>
        if other = id then (graph.operationsOf other).foldl nextReason reason else reason) none =
      if id ∈ order then graph.securityReason id else none := by
  induction order using List.reverseRecOn with
  | nil => rfl
  | append_singleton order last ih =>
    obtain ⟨nodup, _, fresh⟩ := List.nodup_append.mp nodup
    rw [List.foldl_append, ih nodup, List.foldl_cons, List.foldl_nil]
    by_cases same : last = id
    · subst same
      have absent : last ∉ order := fun member => fresh last member last (by simp) rfl
      rw [if_pos rfl, if_neg absent, if_pos (by simp), foldl_nextReason]
      rfl
    · have apart : id ≠ last := Ne.symm same
      simp [same, apart]

end ProjectionState

namespace VaultProjection

open ProjectionState

/-! ### Live secrets -/

theorem getElem?_liveSecrets (projection : VaultProjection) (secretId : SecretId) :
    (projection.liveSecrets graph)[secretId.asStr]? =
      Register.shown graph.isAncestor (projection.cell secretId) := by
  unfold liveSecrets cell
  rw [BTreeMap.getElem?_foldl_entries projection.secrets Text.asStr Text.asStr_injective
    (fun entry => entry.2.isLive graph) (fun entry => entry.2.record)]
  cases projection.secrets[secretId]? with
  | none => rfl
  | some secret =>
    obtain ⟨record, identityFingerprint, fingerprint, createdBy, lifecycle, origin⟩ := secret
    cases lifecycle with
    | live => rfl
    | deleted deletedBy =>
      show (if !graph.isAncestor createdBy deletedBy then some record else none) =
        if graph.isAncestor createdBy deletedBy then none else some record
      cases graph.isAncestor createdBy deletedBy with
      | true => rfl
      | false => rfl

/-! ### Replacement conflicts -/

theorem getElem?_detectReplacementConflicts (replacementsByOld : ReplacementsByOld)
    (oldId : SecretId) :
    (detectReplacementConflicts graph replacementsByOld)[oldId]? =
      (replacementsByOld[oldId]?).bind fun entries =>
        if hasConcurrent graph entries && 1 < entries.length then
          some ⟨oldId, candidates entries⟩
        else none :=
  BTreeMap.getElem?_foldl_entries replacementsByOld id Function.injective_id
    (fun entry => hasConcurrent graph entry.2 && 1 < entry.2.length)
    (fun entry => SecretReplacementConflict.mk entry.1 (candidates entry.2)) oldId

/-- Two concurrent events among the entries are two entries. -/
theorem hasConcurrent_iff (entries : List (EventId × SecretId)) :
    (hasConcurrent graph entries && 1 < entries.length) = true ↔
      ∃ a b left right, (a, left) ∈ entries ∧ (b, right) ∈ entries ∧
        graph.areConcurrent a b = true := by
  simp only [hasConcurrent, Bool.and_eq_true, List.any_eq_true, List.mem_map, Prod.exists,
    exists_and_right, exists_eq_right, bne_iff_ne, decide_eq_true_iff]
  constructor
  · rintro ⟨⟨a, ⟨left, first⟩, b, ⟨right, second⟩, _, concurrent⟩, _⟩
    exact ⟨a, b, left, right, first, second, concurrent⟩
  · rintro ⟨a, b, left, right, first, second, concurrent⟩
    have apart : a ≠ b := by
      rintro rfl
      exact ((CausalGraph.areConcurrent_iff a a).mp concurrent).1 .refl
    refine ⟨⟨a, ⟨left, first⟩, b, ⟨right, second⟩, apart, concurrent⟩, ?_⟩
    match entries, first, second with
    | [], first, _ => cases first
    | [entry], first, second =>
      rw [List.mem_singleton] at first second
      exact absurd (congrArg Prod.fst (first.trans second.symm)) apart
    | _ :: _ :: _, _, _ => simp

/-- The replacements of an old id that stand at the end of an order. -/
def replacementJournal (graph : EventGraph) (order : List EventId) (oldId : SecretId) :
    List (EventId × SecretId) :=
  Journal.run (graph.resolvesReplacements oldId) (graph.replacementsSince oldId) order []

theorem replacementConflict_of_folded {state : ProjectionState} (folded : Folded graph order state)
    (oldId : SecretId) :
    ((state.finish graph).replacementConflicts)[oldId]? =
      if hasConcurrent graph (replacementJournal graph order oldId) &&
          1 < (replacementJournal graph order oldId).length then
        some ⟨oldId, candidates (replacementJournal graph order oldId)⟩
      else none := by
  unfold replacementJournal
  rw [← folded.replacements oldId]
  show (detectReplacementConflicts graph state.replacementsByOld)[oldId]? = _
  rw [getElem?_detectReplacementConflicts]
  cases state.replacementsByOld[oldId]? with
  | none => rfl
  | some entries => rfl

/-- The candidate of an event is the last of its entries. -/
theorem getElem?_candidates (entries : List (EventId × SecretId)) (id : EventId) :
    (candidates entries)[id]? = (entries.reverse.find? (·.1 = id)).map Prod.snd := by
  have found := BTreeMap.getElem?_foldl_insert (fun _ : EventId × SecretId => true) Prod.fst
    Prod.snd entries ∅ id
  simpa [candidates] using found

/-! ### Security conflicts -/

theorem conflict_symm (left right : EpochRotationReason) :
    left.concurrentEpochRotationsConflict right = right.concurrentEpochRotationsConflict left := by
  cases left <;> cases right <;> rfl

theorem areConcurrent_symm (left right : EventId) :
    graph.areConcurrent left right = graph.areConcurrent right left := by
  rw [Bool.eq_iff_iff]
  show graph.causal.areConcurrent left right = true ↔ graph.causal.areConcurrent right left = true
  rw [CausalGraph.areConcurrent_iff, CausalGraph.areConcurrent_iff]
  tauto

/-- Two recorded reasons that are reported when their events are concurrent. -/
def Reported (graph : EventGraph) (left right : EventId × EpochRotationReason) : Prop :=
  graph.areConcurrent left.1 right.1 = true ∧
    left.2.concurrentEpochRotationsConflict right.2 = true

theorem reported_symm {left right : EventId × EpochRotationReason}
    (reported : Reported graph left right) : Reported graph right left :=
  ⟨areConcurrent_symm left.1 right.1 ▸ reported.1, conflict_symm left.2 right.2 ▸ reported.2⟩

theorem securityConflictPairs_nil_iff (events : List (EventId × EpochRotationReason)) :
    securityConflictPairs graph events = [] ↔
      events.Pairwise fun left right => ¬Reported graph left right := by
  induction events with
  | nil => exact iff_of_true rfl .nil
  | cons left later ih =>
    rw [List.pairwise_cons, ← ih]
    rw [securityConflictPairs, securityConflictsWith, List.append_eq_nil_iff,
      List.filterMap_eq_nil_iff]
    refine and_congr_left' ?_
    apply forall₂_congr
    intro right _
    unfold Reported
    rw [← Bool.and_eq_true]
    cases graph.areConcurrent left.1 right.1 && left.2.concurrentEpochRotationsConflict right.2 with
    | true => simp
    | false => simp

/-- A security conflict is reported exactly when two concurrent events have conflicting reasons. -/
theorem securityConflicts_ne_nil_iff {state : ProjectionState} (folded : Folded graph order state) :
    (state.finish graph).securityConflicts ≠ [] ↔
      ∃ a ∈ order, ∃ b ∈ order, ∃ left right, graph.securityReason a = some left ∧
        graph.securityReason b = some right ∧ Reported graph (a, left) (b, right) := by
  have entry_iff : ∀ id reason, (id, reason) ∈ state.securityEvents.toList ↔
      id ∈ order ∧ graph.securityReason id = some reason := by
    intro id reason
    rw [Std.ExtTreeMap.mem_toList_iff_getElem?_eq_some, folded.securityEvents]
    by_cases member : id ∈ order
    · simp [member]
    · simp [member]
  show securityConflictPairs graph state.securityEvents.toList ≠ [] ↔ _
  rw [ne_eq, securityConflictPairs_nil_iff]
  constructor
  · intro conflicting
    by_contra none
    apply conflicting
    apply List.pairwise_of_forall_mem_list
    rintro ⟨a, left⟩ first ⟨b, right⟩ second reported
    obtain ⟨inside, leftReason⟩ := (entry_iff a left).mp first
    obtain ⟨alsoInside, rightReason⟩ := (entry_iff b right).mp second
    exact none ⟨a, inside, b, alsoInside, left, right, leftReason, rightReason, reported⟩
  · rintro ⟨a, first, b, second, left, right, leftReason, rightReason, reported⟩ pairwise
    have apart : (a, left) ≠ (b, right) := by
      rintro same
      have concurrent := reported.1
      rw [(Prod.mk.inj same).1] at concurrent
      exact ((CausalGraph.areConcurrent_iff b b).mp concurrent).1 .refl
    have symmetric : Std.Symm fun left right => ¬Reported graph left right :=
      ⟨fun _ _ free reported => free (reported_symm reported)⟩
    exact pairwise.forall ((entry_iff a left).mpr ⟨first, leftReason⟩)
      ((entry_iff b right).mpr ⟨second, rightReason⟩) apart reported

end VaultProjection

variable [External]

/-! ### The fold over an order -/

namespace ProjectionState

/-- The event is recorded for the projected store. -/
def Projectable (graph : EventGraph) (storeId : StoreId) (id : EventId) : Prop :=
  ∃ event, graph.events[id]? = some event ∧ event.body.storeId = storeId

theorem event_ok_iff (state : ProjectionState) (id : EventId) :
    (∃ next, event graph storeId state id = .ok next) ↔ Projectable graph storeId id := by
  unfold event Projectable
  cases graph.events[id]? with
  | none => simp
  | some content =>
    dsimp only
    by_cases foreign : content.body.storeId ≠ storeId
    · rw [if_pos foreign]
      simp [foreign]
    · rw [if_neg foreign]
      refine iff_of_true ?_ ⟨content, rfl, not_ne_iff.mp foreign⟩
      split
      · exact ⟨_, rfl⟩
      · exact ⟨_, rfl⟩

/-- One supported event applies its operations, up to the epoch bookkeeping. -/
theorem applied_event (supported : graph.Supported) {state next : ProjectionState} {id : EventId}
    (stepped : event graph storeId state id = .ok next) :
    Applied (graph.operationsOf id) id state next := by
  unfold event at stepped
  unfold EventGraph.operationsOf
  cases found : graph.events[id]? with
  | none =>
    rw [found] at stepped
    cases stepped
  | some content =>
    rw [found] at stepped
    dsimp only at stepped ⊢
    rw [supported id content found] at stepped
    split at stepped
    · cases stepped
    · rw [if_neg (by simp)] at stepped
      injection stepped with same
      subst same
      have applied := applied_operations id state content.body.operations
      generalize content.body.operations.foldl (ProjectionState.operation id) state = middle
        at applied
      unfold updateEpoch
      split
      · exact applied
      · split
        · exact applied
        · exact ⟨applied.cell, applied.vaultName, applied.replacements, applied.securityEvents⟩

theorem folded (supported : graph.Supported) (nodup : order.Nodup) {state : ProjectionState}
    (ran : order.foldlM (event graph storeId) (start storeId) = .ok state) :
    Folded graph order state where
  cell secretId := by
    refine foldlM_observe (fun state => state.projection.cell secretId) _ order ?_ ran
    intro id _ before after stepped
    rw [(applied_event supported stepped).cell, EventGraph.secretEffect, CellEffect.apply_combine]
  vaultName := by
    rw [← foldl_lastWrite]
    refine foldlM_observe (fun state => state.projection.vaultName) _ order ?_ ran
    intro id _ before after stepped
    exact (applied_event supported stepped).vaultName
  replacements oldId := by
    refine foldlM_observe (fun state => (state.replacementsByOld[oldId]?).getD []) _ order ?_ ran
    intro id _ before after stepped
    exact (applied_event supported stepped).replacements oldId
  securityEvents id := by
    rw [← foldl_reason graph id order nodup]
    refine foldlM_observe (fun state => state.securityEvents[id]?) _ order ?_ ran
    intro other _ before after stepped
    exact (applied_event supported stepped).securityEvents id

end ProjectionState

namespace VaultProjection

open ProjectionState

/-- A projection along an order is the end of the fold over it. -/
theorem fromOrder_folded (supported : graph.Supported) (nodup : order.Nodup)
    {projection : VaultProjection} (projected : fromOrder graph storeId order = .ok projection) :
    ∃ state, Folded graph order state ∧ projection = state.finish graph := by
  unfold fromOrder at projected
  obtain ⟨state, ran, same⟩ := bind_eq_ok.mp projected
  injection same with same
  exact ⟨state, folded supported nodup ran, same.symm⟩

theorem fromOrder_ok_iff (order : List EventId) :
    (∃ projection, fromOrder graph storeId order = .ok projection) ↔
      ∀ id ∈ order, Projectable graph storeId id := by
  have ran : ∀ (order : List EventId) (state : ProjectionState),
      (∃ last, order.foldlM (event graph storeId) state = .ok last) ↔
        ∀ id ∈ order, Projectable graph storeId id := by
    intro order
    induction order with
    | nil => exact fun state => iff_of_true ⟨state, rfl⟩ (by simp)
    | cons id order ih =>
      intro state
      simp only [List.foldlM_cons, bind_eq_ok, List.forall_mem_cons]
      constructor
      · rintro ⟨last, next, stepped, rest⟩
        exact ⟨(event_ok_iff state id).mp ⟨next, stepped⟩, (ih next).mp ⟨last, rest⟩⟩
      · rintro ⟨here, rest⟩
        obtain ⟨next, stepped⟩ := (event_ok_iff state id).mpr here
        obtain ⟨last, ran⟩ := (ih next).mpr rest
        exact ⟨last, next, stepped, ran⟩
  rw [← ran order (start storeId)]
  unfold fromOrder
  simp only [bind_eq_ok]
  constructor
  · rintro ⟨_, state, folded, _⟩
    exact ⟨state, folded⟩
  · rintro ⟨state, folded⟩
    exact ⟨_, state, folded, rfl⟩

/-- The projection of a graph is the one along its topological order. -/
theorem fromGraph_eq {storeName : Str} {projection : VaultProjection}
    (ordered : graph.topologicalOrder = .ok order)
    (projected : fromGraph graph storeName = .ok projection) :
    ∃ storeId, StoreId.parse storeName = .ok storeId ∧
      fromOrder graph storeId order = .ok projection := by
  unfold fromGraph at projected
  obtain ⟨storeId, parsed, projected⟩ := bind_eq_ok.mp projected
  rw [ordered] at projected
  exact ⟨storeId, mapError_eq_ok.mp parsed, projected⟩

end VaultProjection

end Nook.EventLog
