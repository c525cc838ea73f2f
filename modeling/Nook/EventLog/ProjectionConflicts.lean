import Nook.EventLog.ProjectionOutcome
import Nook.EventLog.TestSupport

set_option autoImplicit false

namespace Nook.EventLog

open Nook.Lib Nook.Replication Relation

namespace EventGraph

variable {graph : EventGraph} {order : List EventId} {oldId : SecretId}

/-! ### Concurrent replacements -/

/-- The new ids by which an event replaces a secret. -/
def replacements (graph : EventGraph) (oldId : SecretId) (id : EventId) : List SecretId :=
  (graph.operationsOf id).flatMap (VaultOperation.replacement oldId)

theorem replacementsSince_subset {id : EventId} {newId : SecretId}
    (member : newId ∈ graph.replacementsSince oldId id) : newId ∈ graph.replacements oldId id := by
  unfold replacementsSince at member
  unfold replacements
  generalize graph.operationsOf id = operations at member ⊢
  induction operations using List.reverseRecOn with
  | nil => cases member
  | append_singleton operations operation ih =>
    rw [List.foldl_append, List.foldl_cons, List.foldl_nil, List.mem_append] at member
    rw [List.flatMap_append, List.mem_append]
    rcases member with earlier | own
    · split at earlier
      · cases earlier
      · exact Or.inl (ih earlier)
    · exact Or.inr (by simpa using own)

/-- The replacements by the event stand at the end of the order: none of its
own resolutions and no later one of the secret follows them. -/
structure Stands (graph : EventGraph) (order : List EventId) (oldId : SecretId) (id : EventId) :
    Prop where
  since : graph.replacementsSince oldId id ≠ []
  unresolved : ∀ later, [id, later].Sublist order → graph.resolvesReplacements oldId later = false

theorem mem_replacementJournal (nodup : order.Nodup) (id : EventId) (newId : SecretId) :
    (id, newId) ∈ VaultProjection.replacementJournal graph order oldId ↔
      id ∈ order ∧ newId ∈ graph.replacementsSince oldId id ∧
        ∀ later, [id, later].Sublist order → graph.resolvesReplacements oldId later = false :=
  Journal.mem_run nodup id newId

theorem stands_iff (nodup : order.Nodup) {id : EventId} (member : id ∈ order) :
    graph.Stands order oldId id ↔
      ∃ newId, (id, newId) ∈ VaultProjection.replacementJournal graph order oldId := by
  simp only [mem_replacementJournal nodup]
  constructor
  · intro stands
    obtain ⟨newId, inside⟩ := List.exists_mem_of_ne_nil _ stands.since
    exact ⟨newId, member, inside, stands.unresolved⟩
  · rintro ⟨newId, _, inside, unresolved⟩
    exact ⟨List.ne_nil_of_mem inside, unresolved⟩

/-- Two applicable concurrent events replace one secret at the end of the order. -/
def ReplacementFork (graph : EventGraph) (order : List EventId) : Prop :=
  ∃ oldId, ∃ a ∈ order, ∃ b ∈ order, graph.Stands order oldId a ∧ graph.Stands order oldId b ∧
    graph.areConcurrent a b = true

/-! ### Access rotations and mutations -/

/-- The last operation of the event that starts an epoch revokes a device. -/
def RotatesAccess (graph : EventGraph) (id : EventId) : Prop :=
  (graph.operationsOf id).reverse.findSome? VaultOperation.epochStart = some .deviceRevoked

/-- The event starts no epoch, and it does more than join requests and checkpoints. -/
def MutatesVault (graph : EventGraph) (id : EventId) : Prop :=
  (graph.operationsOf id).reverse.findSome? VaultOperation.epochStart = none ∧
    ∃ operation ∈ graph.operationsOf id, ProjectionState.mutationReason operation ≠ none

/-- One of two concurrent events rotates access and the other one rotates it or mutates. -/
def SecurityFork (graph : EventGraph) (a b : EventId) : Prop :=
  graph.areConcurrent a b = true ∧ graph.RotatesAccess a ∧
    (graph.RotatesAccess b ∨ graph.MutatesVault b)

theorem securityReason_rotates_iff (id : EventId) :
    graph.securityReason id = some .deviceRevoked ↔ graph.RotatesAccess id := by
  unfold securityReason RotatesAccess
  have mutations : (graph.operationsOf id).findSome? ProjectionState.mutationReason ≠
      some .deviceRevoked := by
    intro found
    obtain ⟨operation, _, reason⟩ := List.exists_of_findSome?_eq_some found
    cases operation <;> cases reason
  rw [Option.or_eq_some_iff]
  constructor
  · rintro (starts | ⟨_, reason⟩)
    · exact starts
    · exact absurd reason mutations
  · exact Or.inl

theorem securityReason_mutates_iff (id : EventId) :
    (∃ reason, graph.securityReason id = some reason ∧ reason.mutatesAccess = true) ↔
      graph.MutatesVault id := by
  unfold securityReason MutatesVault
  have starts : ∀ reason,
      (graph.operationsOf id).reverse.findSome? VaultOperation.epochStart = some reason →
        reason.mutatesAccess = false := by
    intro reason found
    obtain ⟨operation, _, start⟩ := List.exists_of_findSome?_eq_some found
    cases operation <;> cases start <;> rfl
  have mutations : ∀ reason,
      (graph.operationsOf id).findSome? ProjectionState.mutationReason = some reason →
        reason.mutatesAccess = true := by
    intro reason found
    obtain ⟨operation, _, mutates⟩ := List.exists_of_findSome?_eq_some found
    cases operation <;> cases mutates <;> rfl
  have some_iff : (∃ operation ∈ graph.operationsOf id,
      ProjectionState.mutationReason operation ≠ none) ↔
        ∃ reason, (graph.operationsOf id).findSome? ProjectionState.mutationReason =
          some reason := by
    rw [← Option.isSome_iff_exists, List.findSome?_isSome_iff]
    simp only [Option.isSome_iff_ne_none]
  rw [some_iff]
  cases started : (graph.operationsOf id).reverse.findSome? VaultOperation.epochStart with
  | some reason =>
    have other := starts reason started
    simp [other]
  | none =>
    simp only [Option.none_or, true_and]
    constructor
    · rintro ⟨reason, found, _⟩
      exact ⟨reason, found⟩
    · rintro ⟨reason, found⟩
      exact ⟨reason, found, mutations reason found⟩

/-- Two events have conflicting reasons exactly when they fork the rotation of access. -/
theorem reported_iff (a b : EventId) :
    (∃ left right, graph.securityReason a = some left ∧ graph.securityReason b = some right ∧
        VaultProjection.Reported graph (a, left) (b, right)) ↔
      graph.SecurityFork a b ∨ graph.SecurityFork b a := by
  have rotates : ∀ (id : EventId) (reason : EpochRotationReason),
      graph.securityReason id = some reason → reason.rotatesAccess = true →
        graph.RotatesAccess id := by
    intro id reason found rotating
    cases reason with
    | deviceRevoked => exact (securityReason_rotates_iff id).mp found
    | _ => cases rotating
  have mutates : ∀ (id : EventId) (reason : EpochRotationReason),
      graph.securityReason id = some reason → reason.mutatesAccess = true →
        graph.MutatesVault id :=
    fun id reason found mutating => (securityReason_mutates_iff id).mp ⟨reason, found, mutating⟩
  have forked : ∀ a b, graph.SecurityFork a b → ∃ left right,
      graph.securityReason a = some left ∧ graph.securityReason b = some right ∧
        VaultProjection.Reported graph (a, left) (b, right) := by
    rintro a b ⟨concurrent, first, second⟩
    rw [← securityReason_rotates_iff] at first
    rcases second with rotating | mutating
    · exact ⟨_, _, first, (securityReason_rotates_iff b).mpr rotating, concurrent, rfl⟩
    · obtain ⟨reason, found, mutates⟩ := (securityReason_mutates_iff b).mpr mutating
      refine ⟨_, reason, first, found, concurrent, ?_⟩
      simp [EpochRotationReason.concurrentEpochRotationsConflict,
        EpochRotationReason.rotatesAccess, mutates]
  constructor
  · rintro ⟨left, right, first, second, concurrent, conflict⟩
    have swapped : graph.areConcurrent b a = true := by
      rw [VaultProjection.areConcurrent_symm]
      exact concurrent
    simp only [EpochRotationReason.concurrentEpochRotationsConflict, Bool.or_eq_true,
      Bool.and_eq_true] at conflict
    rcases conflict with ⟨rotating, other⟩ | ⟨rotating, other⟩
    · exact Or.inl ⟨concurrent, rotates a left first rotating,
        other.imp (rotates b right second) (mutates b right second)⟩
    · exact Or.inr ⟨swapped, rotates b right second rotating,
        Or.inr (mutates a left first other)⟩
  · rintro (forward | backward)
    · exact forked a b forward
    · obtain ⟨left, right, first, second, reported⟩ := forked b a backward
      exact ⟨right, left, second, first, VaultProjection.reported_symm reported⟩

end EventGraph

/-! ### What the projection reports -/

namespace VaultProjection

open ProjectionState

variable {graph : EventGraph} {order : List EventId}

theorem reported_replacement_iff (oldId : SecretId) :
    (∃ conflict, (if hasConcurrent graph (replacementJournal graph order oldId) &&
          1 < (replacementJournal graph order oldId).length then
        some (SecretReplacementConflict.mk oldId
          (candidates (replacementJournal graph order oldId)))
      else none) = some conflict) ↔
      ∃ a b left right, (a, left) ∈ replacementJournal graph order oldId ∧
        (b, right) ∈ replacementJournal graph order oldId ∧ graph.areConcurrent a b = true := by
  rw [← hasConcurrent_iff]
  split
  · rename_i reported
    exact iff_of_true ⟨_, rfl⟩ reported
  · rename_i free
    exact iff_of_false (by simp) free

theorem hasBlockingConflicts_iff {state : ProjectionState} (folded : Folded graph order state)
    (nodup : order.Nodup) :
    (state.finish graph).hasBlockingConflicts = true ↔
      graph.ReplacementFork order ∨ ∃ a ∈ order, ∃ b ∈ order, graph.SecurityFork a b := by
  have replaced : (state.finish graph).replacementConflicts.isEmpty = false ↔
      graph.ReplacementFork order := by
    rw [← Bool.not_eq_true, Std.ExtTreeMap.isEmpty_iff, Std.ExtTreeMap.eq_empty_iff_forall_not_mem]
    push Not
    unfold EventGraph.ReplacementFork
    apply exists_congr
    intro oldId
    rw [BTreeMap.mem_iff_getElem?, replacementConflict_of_folded folded, reported_replacement_iff]
    constructor
    · rintro ⟨a, b, left, right, first, second, concurrent⟩
      have inside : a ∈ order := ((EventGraph.mem_replacementJournal nodup a left).mp first).1
      have alsoInside : b ∈ order := ((EventGraph.mem_replacementJournal nodup b right).mp second).1
      exact ⟨a, inside, b, alsoInside, (EventGraph.stands_iff nodup inside).mpr ⟨left, first⟩,
        (EventGraph.stands_iff nodup alsoInside).mpr ⟨right, second⟩, concurrent⟩
    · rintro ⟨a, inside, b, alsoInside, first, second, concurrent⟩
      obtain ⟨left, entry⟩ := (EventGraph.stands_iff nodup inside).mp first
      obtain ⟨right, other⟩ := (EventGraph.stands_iff nodup alsoInside).mp second
      exact ⟨a, b, left, right, entry, other, concurrent⟩
  have rotated : (state.finish graph).securityConflicts.isEmpty = false ↔
      ∃ a ∈ order, ∃ b ∈ order, graph.SecurityFork a b := by
    have security := securityConflicts_ne_nil_iff folded
    simp only [EventGraph.reported_iff] at security
    rw [← Bool.not_eq_true, List.isEmpty_iff, ← ne_eq, security]
    constructor
    · rintro ⟨a, inside, b, alsoInside, forward | backward⟩
      · exact ⟨a, inside, b, alsoInside, forward⟩
      · exact ⟨b, alsoInside, a, inside, backward⟩
    · rintro ⟨a, inside, b, alsoInside, fork⟩
      exact ⟨a, inside, b, alsoInside, Or.inl fork⟩
  unfold hasBlockingConflicts
  rw [Bool.or_eq_true, Bool.not_eq_true', Bool.not_eq_true', replaced, rotated]

variable [External] {projection : VaultProjection}

/-- The projection of a reachable graph is the end of a fold over its topological order. -/
theorem fromGraph_folded {joinable : EventGraph → EventGraph → Prop}
    (reachable : EventGraph.Reachable joinable graph) {storeName : Str} (ordered : graph.topologicalOrder = .ok order)
    (projected : fromGraph graph storeName = .ok projection) :
    graph.causal.Extension order ∧
      ∃ state, Folded graph order state ∧ projection = state.finish graph := by
  have extension := EventGraph.topologicalOrder_extension reachable.wellFormed ordered
  obtain ⟨storeId, _, ran⟩ := fromGraph_eq ordered projected
  exact ⟨extension, fromOrder_folded reachable.supported extension.nodup ran⟩

/-- The projection reports the old id with the new ids of both events. -/
def Surfaces (projection : VaultProjection) (graph : EventGraph) (oldId : SecretId)
    (a b : EventId) : Prop :=
  ∃ conflict, projection.replacementConflicts[oldId]? = some conflict ∧
    (∀ newId ∈ graph.replacements oldId a, conflict.candidates[a]? = some newId) ∧
    ∀ newId ∈ graph.replacements oldId b, conflict.candidates[b]? = some newId

/-- A resolution of the secret has seen both events. -/
def JointlyResolved (graph : EventGraph) (oldId : SecretId) (a b : EventId) : Prop :=
  ∃ resolution, graph.causal.Applicable resolution ∧
    graph.resolvesReplacements oldId resolution = true ∧
    graph.causal.Ancestor a resolution ∧ graph.causal.Ancestor b resolution

/-- The event replaces the secret by one new id only. -/
def ReplacesOnce (graph : EventGraph) (oldId : SecretId) (id : EventId) : Prop :=
  ∀ newId ∈ graph.replacements oldId id, ∀ other ∈ graph.replacements oldId id, newId = other

omit [External] in
/-- What the candidates say of an event is its replacement that stands at the end. -/
theorem candidate_iff (nodup : order.Nodup) {oldId : SecretId} {id : EventId}
    (member : id ∈ order) (replaces : graph.replacements oldId id ≠ []) :
    (∀ newId ∈ graph.replacements oldId id,
        (candidates (replacementJournal graph order oldId))[id]? = some newId) ↔
      graph.Stands order oldId id ∧ ReplacesOnce graph oldId id := by
  rw [EventGraph.stands_iff nodup member, getElem?_candidates]
  constructor
  · intro listed
    obtain ⟨newId, inside⟩ := List.exists_mem_of_ne_nil _ replaces
    obtain ⟨entry, found, _⟩ := Option.map_eq_some_iff.mp (listed newId inside)
    have same := List.find?_some found
    rw [decide_eq_true_iff] at same
    refine ⟨⟨entry.2, ?_⟩, ?_⟩
    · rw [← same]
      exact List.mem_reverse.mp (List.mem_of_find?_eq_some found)
    · intro first left second right
      exact Option.some.inj ((listed first left).symm.trans (listed second right))
  · rintro ⟨⟨standing, stands⟩, once⟩ newId inside
    cases found : (replacementJournal graph order oldId).reverse.find? (·.1 = id) with
    | none =>
      rw [List.find?_eq_none] at found
      simpa using found _ (List.mem_reverse.mpr stands)
    | some entry =>
      have same := List.find?_some found
      rw [decide_eq_true_iff] at same
      have listed : (id, entry.2) ∈ replacementJournal graph order oldId := by
        rw [← same]
        exact List.mem_reverse.mp (List.mem_of_find?_eq_some found)
      have since := ((EventGraph.mem_replacementJournal nodup id entry.2).mp listed).2.1
      rw [Option.map_some, once entry.2 (EventGraph.replacementsSince_subset since) newId inside]

/-- Two concurrent replacements of a secret that no resolution has seen both
surface, with their new ids, exactly when they stand at the end of the
topological order and each names one new id. -/
theorem concurrent_replacements_surface_iff
    (reachable : EventGraph.Reachable (fun _ _ => True) graph) {storeName : Str}
    (ordered : graph.topologicalOrder = .ok order)
    (projected : fromGraph graph storeName = .ok projection) {oldId : SecretId} {a b : EventId}
    (first : graph.causal.Applicable a) (second : graph.causal.Applicable b)
    (concurrent : graph.areConcurrent a b = true) (firstReplaces : graph.replacements oldId a ≠ [])
    (secondReplaces : graph.replacements oldId b ≠ []) :
    (¬JointlyResolved graph oldId a b → projection.Surfaces graph oldId a b) ↔
      JointlyResolved graph oldId a b ∨
        (graph.Stands order oldId a ∧ ReplacesOnce graph oldId a) ∧
          graph.Stands order oldId b ∧ ReplacesOnce graph oldId b := by
  obtain ⟨extension, state, folded, rfl⟩ := fromGraph_folded reachable ordered projected
  have nodup := extension.nodup
  have inside : a ∈ order := (extension.mem_iff a).mpr first
  have alsoInside : b ∈ order := (extension.mem_iff b).mpr second
  have surfaces_iff : (state.finish graph).Surfaces graph oldId a b ↔
      (graph.Stands order oldId a ∧ ReplacesOnce graph oldId a) ∧
        graph.Stands order oldId b ∧ ReplacesOnce graph oldId b := by
    rw [← candidate_iff nodup inside firstReplaces, ← candidate_iff nodup alsoInside secondReplaces]
    unfold Surfaces
    rw [replacementConflict_of_folded folded]
    constructor
    · rintro ⟨conflict, found, listed⟩
      split at found
      · cases found
        exact listed
      · cases found
    · intro listed
      have standing := (candidate_iff nodup inside firstReplaces).mp listed.1
      have alsoStanding := (candidate_iff nodup alsoInside secondReplaces).mp listed.2
      obtain ⟨left, entry⟩ := (EventGraph.stands_iff nodup inside).mp standing.1
      obtain ⟨right, other⟩ := (EventGraph.stands_iff nodup alsoInside).mp alsoStanding.1
      rw [if_pos ((hasConcurrent_iff _).mpr ⟨a, b, left, right, entry, other, concurrent⟩)]
      exact ⟨_, rfl, listed⟩
  rw [surfaces_iff]
  exact or_iff_not_imp_left.symm

/-! ### Rotations with their checkpoint -/

/-- The events of a rotation: a revocation and the checkpoint that commits it. -/
structure Rotation (graph : EventGraph) (trigger checkpoint : EventId) : Prop where
  applicable : graph.causal.Applicable trigger ∧ graph.causal.Applicable checkpoint
  revokes : ∃ deviceId, .deviceRevoked deviceId ∈ graph.operationsOf trigger
  commits : ∃ event, graph.events[checkpoint]? = some event ∧ event.body.parents = [trigger] ∧
    event.body.keyEpoch = trigger ∧ event.body.operations.any VaultOperation.isEpochCheckpoint

/-- An event besides a rotation and its past that does more than request joins. -/
structure OtherMutation (graph : EventGraph) (trigger checkpoint mutation : EventId) : Prop where
  applicable : graph.causal.Applicable mutation
  apart : mutation ≠ trigger ∧ mutation ≠ checkpoint
  notPast : ¬graph.causal.Ancestor mutation trigger ∧ ¬graph.causal.Ancestor mutation checkpoint
  mutates : ∃ operation ∈ graph.operationsOf mutation,
    ∀ deviceId encryptionKey signingKey label,
      operation ≠ .joinRequested deviceId encryptionKey signingKey label

omit [External] in
/-- An event besides the rotation is concurrent with a part of it unless it has
seen the checkpoint. -/
theorem concurrent_rotation_iff (indexed : graph.Indexed) {trigger checkpoint mutation : EventId}
    (rotation : Rotation graph trigger checkpoint)
    (other : OtherMutation graph trigger checkpoint mutation) :
    (graph.areConcurrent mutation trigger = true ∨ graph.areConcurrent mutation checkpoint = true) ↔
      ¬graph.causal.Ancestor checkpoint mutation := by
  obtain ⟨content, found, parents, _⟩ := rotation.commits
  have committed : graph.causal.Edge trigger checkpoint := by
    rw [indexed.edge_iff, EventGraph.bodyParents_of_get found, parents]
    exact List.mem_singleton_self trigger
  have known := other.applicable.1.known
  show graph.causal.areConcurrent mutation trigger = true ∨
    graph.causal.areConcurrent mutation checkpoint = true ↔ _
  rw [CausalGraph.areConcurrent_iff, CausalGraph.areConcurrent_iff]
  constructor
  · rintro (⟨_, unseen, _⟩ | ⟨_, unseen, _⟩) path
    · exact unseen (path.to_reflTransGen.head committed)
    · exact unseen path.to_reflTransGen
  · intro unseen
    refine Or.inr ⟨?_, ?_, known, rotation.applicable.2.1.known⟩
    · intro path
      rcases reflTransGen_iff_eq_or_transGen.mp path with same | strict
      · exact other.apart.2 same.symm
      · exact other.notPast.2 strict
    · intro path
      rcases reflTransGen_iff_eq_or_transGen.mp path with same | strict
      · exact other.apart.2 same
      · exact unseen strict

end VaultProjection

namespace TestSupport

/-- Two replacements of a secret, and a resolution that has seen the first one only. -/
def halfResolvedEvents : List VaultEvent :=
  [genesis 'g' '1',
    signed 'a' '1' [eventId 'g'] (eventId 'g') [.secretReplaced (secretId 's') (secret 't' [])],
    signed 'b' '1' [eventId 'g'] (eventId 'g') [.secretReplaced (secretId 's') (secret 'u' [])],
    signed 'c' '1' [eventId 'a'] (eventId 'g')
      [.secretConflictResolved (secretId 's') (secretId 't') []]]

open EventGraph in
theorem half_resolved_fork_lost :
    ∃ graph projection, EventGraph.new.insertAll storeName halfResolvedEvents = .ok graph ∧
      VaultProjection.fromGraph graph storeName = .ok projection ∧
      graph.causal.Applicable (eventId 'a') ∧ graph.causal.Applicable (eventId 'b') ∧
      graph.areConcurrent (eventId 'a') (eventId 'b') = true ∧
      graph.replacements (secretId 's') (eventId 'a') ≠ [] ∧
      graph.replacements (secretId 's') (eventId 'b') ≠ [] ∧
      ¬VaultProjection.JointlyResolved graph (secretId 's') (eventId 'a') (eventId 'b') ∧
      ¬projection.Surfaces graph (secretId 's') (eventId 'a') (eventId 'b') := by
  obtain ⟨graph, accepted, checked⟩ := exists_of_passes
    (EventGraph.new.insertAll storeName halfResolvedEvents)
    (fun graph => passes (VaultProjection.fromGraph graph storeName) fun projection =>
      decide (eventId 'a' ∈ graph.causal.applicableIds ∧
        eventId 'b' ∈ graph.causal.applicableIds ∧
        graph.areConcurrent (eventId 'a') (eventId 'b') = true ∧
        graph.replacements (secretId 's') (eventId 'a') ≠ [] ∧
        graph.replacements (secretId 's') (eventId 'b') ≠ [] ∧
        (∀ resolution ∈ graph.causal.applicableIds,
          graph.resolvesReplacements (secretId 's') resolution = true →
            graph.causal.isAncestor (eventId 'b') resolution = false) ∧
        secretId 's' ∉ projection.replacementConflicts)) (by decide +kernel)
  obtain ⟨projection, projected, checked⟩ := exists_of_passes _ _ checked
  rw [decide_eq_true_iff, CausalGraph.mem_applicableIds, CausalGraph.mem_applicableIds] at checked
  obtain ⟨first, second, concurrent, firstReplaces, secondReplaces, unseen, missing⟩ := checked
  refine ⟨graph, projection, accepted, projected, first, second, concurrent, firstReplaces,
    secondReplaces, ?_, ?_⟩
  · rintro ⟨resolution, applicable, resolves, _, path⟩
    have seen := (CausalGraph.isAncestor_iff_eq_or _ _).mpr (Or.inr path)
    rw [unseen resolution ((CausalGraph.mem_applicableIds _).mpr applicable) resolves] at seen
    cases seen
  · rintro ⟨conflict, found, _⟩
    exact missing (BTreeMap.mem_of_getElem? found)

open EventGraph VaultProjection in
theorem concurrent_replacements_surface_iff_halfResolved :
    ∃ graph order projection, EventGraph.new.insertAll storeName halfResolvedEvents = .ok graph ∧
      ((¬JointlyResolved graph (secretId 's') (eventId 'a') (eventId 'b') →
          Surfaces projection graph (secretId 's') (eventId 'a') (eventId 'b')) ↔
        JointlyResolved graph (secretId 's') (eventId 'a') (eventId 'b') ∨
          (graph.Stands order (secretId 's') (eventId 'a') ∧
            ReplacesOnce graph (secretId 's') (eventId 'a')) ∧
          graph.Stands order (secretId 's') (eventId 'b') ∧
            ReplacesOnce graph (secretId 's') (eventId 'b')) := by
  obtain ⟨graph, accepted, checked⟩ := exists_of_passes
    (EventGraph.new.insertAll storeName halfResolvedEvents)
    (fun graph => graph.topologicalOrder.isOk && (fromGraph graph storeName).isOk &&
      decide (eventId 'a' ∈ graph.causal.applicableIds ∧
        eventId 'b' ∈ graph.causal.applicableIds ∧
        graph.areConcurrent (eventId 'a') (eventId 'b') = true ∧
        graph.replacements (secretId 's') (eventId 'a') ≠ [] ∧
        graph.replacements (secretId 's') (eventId 'b') ≠ [])) (by decide +kernel)
  rw [Bool.and_eq_true, Bool.and_eq_true, decide_eq_true_iff, CausalGraph.mem_applicableIds,
    CausalGraph.mem_applicableIds] at checked
  obtain ⟨⟨ordered, projected⟩, first, second, concurrent, firstReplaces, secondReplaces⟩ := checked
  obtain ⟨order, ordered⟩ := exists_of_isOk ordered
  obtain ⟨projection, projected⟩ := exists_of_isOk projected
  exact ⟨graph, order, projection, accepted, concurrent_replacements_surface_iff
    (Reachable.new.insertAll halfResolvedEvents accepted) ordered projected first second concurrent
    firstReplaces secondReplaces⟩

def halfSeenCheckpoint : VaultEvent :=
  signed 'k' '1' [eventId 'r'] (eventId 'r') [.epochCheckpoint [] ⟨[]⟩ (.replace []) .unnamed]

/-- A revocation, its checkpoint, and a secret created by a member who has seen
the revocation but not the checkpoint. -/
def halfSeenRotationEvents : List VaultEvent :=
  [genesis 'g' '1',
    signed 'r' '1' [eventId 'g'] (eventId 'g') [.deviceRevoked (device 'd')],
    halfSeenCheckpoint,
    signed 'm' '1' [eventId 'r'] (eventId 'g') [.secretCreated (secret 's' [])]]

open EventGraph VaultProjection in
theorem halfSeenRotation_accepted :
    ∃ graph order projection,
      EventGraph.new.insertAll storeName halfSeenRotationEvents = .ok graph ∧
      graph.topologicalOrder = .ok order ∧ fromGraph graph storeName = .ok projection ∧
      Rotation graph (eventId 'r') (eventId 'k') ∧
      OtherMutation graph (eventId 'r') (eventId 'k') (eventId 'm') ∧
      graph.areConcurrent (eventId 'm') (eventId 'k') = true ∧
      projection.hasBlockingConflicts = false := by
  obtain ⟨graph, accepted, checked⟩ := exists_of_passes
    (EventGraph.new.insertAll storeName halfSeenRotationEvents)
    (fun graph => graph.topologicalOrder.isOk &&
      passes (fromGraph graph storeName) fun projection =>
        decide (eventId 'r' ∈ graph.causal.applicableIds ∧
          eventId 'k' ∈ graph.causal.applicableIds ∧ eventId 'm' ∈ graph.causal.applicableIds ∧
          graph.events[eventId 'k']? = some halfSeenCheckpoint ∧
          .deviceRevoked (device 'd') ∈ graph.operationsOf (eventId 'r') ∧
          .secretCreated (secret 's' []) ∈ graph.operationsOf (eventId 'm') ∧
          graph.causal.isAncestor (eventId 'm') (eventId 'r') = false ∧
          graph.causal.isAncestor (eventId 'm') (eventId 'k') = false ∧
          graph.areConcurrent (eventId 'm') (eventId 'k') = true ∧
          projection.hasBlockingConflicts = false)) (by decide +kernel)
  rw [Bool.and_eq_true] at checked
  obtain ⟨order, ordered⟩ := exists_of_isOk checked.1
  obtain ⟨projection, projected, checked⟩ := exists_of_passes _ _ checked.2
  simp only [decide_eq_true_eq, CausalGraph.mem_applicableIds] at checked
  obtain ⟨trigger, checkpoint, mutation, recorded, revokes, creates, notTrigger, notCheckpoint,
    concurrent, free⟩ := checked
  have unseen : ∀ id, graph.causal.isAncestor (eventId 'm') id = false →
      ¬graph.causal.Ancestor (eventId 'm') id := by
    intro id apart path
    rw [(CausalGraph.isAncestor_iff_eq_or _ _).mpr (Or.inr path)] at apart
    cases apart
  refine ⟨graph, order, projection, accepted, ordered, projected,
    ⟨⟨trigger, checkpoint⟩, ⟨_, revokes⟩, _, recorded, rfl, rfl, rfl⟩,
    ⟨mutation, by decide, ⟨unseen _ notTrigger, unseen _ notCheckpoint⟩,
      _, creates, ?_⟩, concurrent, free⟩
  intro deviceId encryptionKey signingKey label same
  cases same

end TestSupport

end Nook.EventLog
