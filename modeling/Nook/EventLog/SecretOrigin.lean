import Nook.EventLog.ProjectionConflicts

set_option autoImplicit false

namespace Nook.EventLog

open Nook.Lib Nook.Replication

/-! ### What an operation records as the origin of a secret -/

/-- The entry an operation leaves of a secret, if it writes or removes one. -/
def VaultOperation.originWrite (secretId : SecretId) :
    VaultOperation → Option (Option ProjectedSecretOrigin)
  | .vaultImported _ secrets =>
    if secrets.any (·.id = secretId) then some (some .created) else none
  | .epochCheckpoint secrets _ _ _ =>
    some (if secrets.any (·.id = secretId) then some .created else none)
  | .secretCreated secret => if secret.id = secretId then some (some .created) else none
  | .secretReplaced oldId newSecret =>
    if newSecret.id = secretId then some (some (.replacement oldId)) else none
  | .vaultCleared => some none
  | _ => none

/-- The version that a version replaced, if it replaced one. -/
def ProjectedSecretOrigin.replaced : ProjectedSecretOrigin → Option SecretId
  | .created => none
  | .replacement oldId => some oldId

namespace EventGraph

/-- The entry an event leaves of a secret: the last one its operations leave. -/
def originWrite (graph : EventGraph) (secretId : SecretId) (id : EventId) :
    Option (Option (EventId × ProjectedSecretOrigin)) :=
  ((graph.operationsOf id).reverse.findSome? (VaultOperation.originWrite secretId)).map
    (·.map (Prod.mk id))

/-- The last write of a secret along an order that no clearing or checkpoint removed. -/
def lastWrite (graph : EventGraph) (order : List EventId) (secretId : SecretId) :
    Option (EventId × ProjectedSecretOrigin) :=
  (order.reverse.findSome? (graph.originWrite secretId)).getD none

/-- The replaced versions of the secret lead back to one that was created,
imported or carried forward, through writes that stand at the end of the order. -/
inductive Traceable (graph : EventGraph) (order : List EventId) : SecretId → Prop
  | created {secretId : SecretId} {id : EventId}
      (written : graph.lastWrite order secretId = some (id, .created)) :
      Traceable graph order secretId
  | replaced {secretId oldId : SecretId} {id : EventId}
      (written : graph.lastWrite order secretId = some (id, .replacement oldId))
      (older : Traceable graph order oldId) : Traceable graph order secretId

/-- A write that stands is one that an operation of an event of the order makes. -/
theorem lastWrite_spec {graph : EventGraph} {order : List EventId} {secretId : SecretId}
    {id : EventId} {origin : ProjectedSecretOrigin}
    (written : graph.lastWrite order secretId = some (id, origin)) :
    id ∈ order ∧ ∃ operation ∈ graph.operationsOf id,
      operation.originWrite secretId = some (some origin) := by
  unfold lastWrite at written
  cases found : order.reverse.findSome? (graph.originWrite secretId) with
  | none =>
    rw [found] at written
    cases written
  | some entry =>
    rw [found] at written
    obtain ⟨writer, member, wrote⟩ := List.exists_of_findSome?_eq_some found
    obtain ⟨left, leaves, same⟩ := Option.map_eq_some_iff.mp wrote
    obtain ⟨operation, inside, last⟩ := List.exists_of_findSome?_eq_some leaves
    rw [Option.getD_some] at written
    rw [written] at same
    obtain ⟨_, kept, same⟩ := Option.map_eq_some_iff.mp same
    cases same
    rw [kept] at last
    exact ⟨List.mem_reverse.mp member, operation, List.mem_reverse.mp inside, last⟩

end EventGraph

/-! ### The fold keeps the last write -/

namespace VaultProjection

variable (projection : VaultProjection) (eventId : EventId) (secretId : SecretId)

/-- The writer and the origin of an entry. -/
def written : Option (EventId × ProjectedSecretOrigin) :=
  (projection.secrets[secretId]?).map fun entry => (entry.createdBy, entry.origin)

theorem written_insertSecret (secret : EncryptedSecretPayload) (origin : ProjectedSecretOrigin) :
    (projection.insertSecret eventId secret origin).written secretId =
      if secret.id = secretId then some (eventId, origin) else projection.written secretId := by
  unfold written insertSecret
  dsimp only
  rw [BTreeMap.getElem?_insert_eq]
  split
  · rfl
  · rfl

theorem written_deleteSecret (deleted : SecretId) :
    (deleteSecret eventId projection deleted).written secretId = projection.written secretId := by
  unfold written deleteSecret
  cases found : projection.secrets[deleted]? with
  | none => rfl
  | some entry =>
    dsimp only
    rw [BTreeMap.getElem?_insert_eq]
    by_cases same : deleted = secretId
    · rw [if_pos same, ← same, found]
      rfl
    · rw [if_neg same]

theorem written_deleteSecrets (rejected : List SecretId) :
    (rejected.foldl (deleteSecret eventId) projection).written secretId =
      projection.written secretId := by
  induction rejected generalizing projection with
  | nil => rfl
  | cons deleted rejected ih => rw [List.foldl_cons, ih, written_deleteSecret]

theorem written_insertCreated (secrets : List EncryptedSecretPayload) :
    (secrets.foldl (insertCreated eventId) projection).written secretId =
      if secrets.any (·.id = secretId) then some (eventId, .created)
      else projection.written secretId := by
  induction secrets generalizing projection with
  | nil => rfl
  | cons secret secrets ih =>
    rw [List.foldl_cons, ih]
    unfold insertCreated
    rw [written_insertSecret, List.any_cons]
    by_cases same : secret.id = secretId
    · simp [same]
    · simp [same]

theorem written_applyOperation (replacementsByOld : ReplacementsByOld)
    (operation : VaultOperation) :
    (projection.applyOperation eventId replacementsByOld operation).1.written secretId =
      ((operation.originWrite secretId).map (·.map (Prod.mk eventId))).getD
        (projection.written secretId) := by
  cases operation with
  | vaultImported _ secrets =>
    refine (written_insertCreated projection eventId secretId secrets).trans ?_
    unfold VaultOperation.originWrite
    by_cases listed : secrets.any (·.id = secretId)
    · simp [listed]
    · simp [listed]
  | epochCheckpoint secrets _ _ vaultName =>
    refine (written_insertCreated { projection with
      secrets := ∅, vaultName := projectedName vaultName } eventId secretId secrets).trans ?_
    unfold VaultOperation.originWrite
    by_cases listed : secrets.any (·.id = secretId)
    · simp [listed]
    · simp [listed, written]
  | secretCreated secret =>
    refine (written_insertSecret projection eventId secretId secret .created).trans ?_
    unfold VaultOperation.originWrite
    by_cases same : secret.id = secretId
    · simp [same]
    · simp [same]
  | secretDeleted deleted => exact written_deleteSecret projection eventId secretId deleted
  | secretReplaced oldId newSecret =>
    refine (written_insertSecret _ eventId secretId newSecret (.replacement oldId)).trans ?_
    rw [written_deleteSecret]
    unfold VaultOperation.originWrite
    by_cases same : newSecret.id = secretId
    · simp [same]
    · simp [same]
  | secretConflictResolved _ _ rejected =>
    exact written_deleteSecrets projection eventId secretId rejected
  | vaultCleared => simp [applyOperation, written, VaultOperation.originWrite]
  | _ => rfl

end VaultProjection

namespace ProjectionState

variable {graph : EventGraph} {storeId : StoreId} (secretId : SecretId)

theorem written_operations (id : EventId) (state : ProjectionState)
    (operations : List VaultOperation) :
    (operations.foldl (ProjectionState.operation id) state).projection.written secretId =
      ((operations.reverse.findSome? (VaultOperation.originWrite secretId)).map
        (·.map (Prod.mk id))).getD (state.projection.written secretId) := by
  induction operations using List.reverseRecOn with
  | nil => rfl
  | append_singleton operations operation ih =>
    rw [List.foldl_append, List.foldl_cons, List.foldl_nil, (operation_applied id _ operation).1,
      VaultProjection.written_applyOperation, ih, List.reverse_append, List.findSome?_append]
    cases written : operation.originWrite secretId with
    | none => simp [written]
    | some origin => simp [written]

variable [External]

theorem secrets_updateEpoch (state : ProjectionState) (id : EventId) (body : VaultEventBody) :
    (state.updateEpoch id body).projection.secrets = state.projection.secrets := by
  unfold updateEpoch
  split
  · rfl
  · split
    · rfl
    · rfl

theorem written_event (supported : graph.Supported) {state next : ProjectionState} {id : EventId}
    (stepped : event graph storeId state id = .ok next) :
    next.projection.written secretId =
      (graph.originWrite secretId id).getD (state.projection.written secretId) := by
  unfold event at stepped
  unfold EventGraph.originWrite EventGraph.operationsOf
  cases found : graph.events[id]? with
  | none =>
    rw [found] at stepped
    cases stepped
  | some content =>
    rw [found] at stepped
    dsimp only at stepped ⊢
    rw [supported id content found] at stepped
    split at stepped
    · cases stepped
    · rw [if_neg (by simp)] at stepped
      cases stepped
      unfold VaultProjection.written
      rw [secrets_updateEpoch]
      exact written_operations secretId id state content.body.operations

/-- The entries at the end of the fold are the last writes that stand. -/
theorem written_foldlM (supported : graph.Supported) {order : List EventId}
    {state : ProjectionState} (ran : order.foldlM (event graph storeId) (start storeId) = .ok state) :
    state.projection.written secretId = graph.lastWrite order secretId := by
  refine (foldlM_observe (fun state => state.projection.written secretId)
    (fun value id => (graph.originWrite secretId id).getD value) order ?_ ran).trans ?_
  · intro id _ before after stepped
    exact written_event secretId supported stepped
  · have empty : (start storeId).projection.written secretId = none := by
      simp [start, VaultProjection.default, VaultProjection.written]
    rw [empty, foldl_lastWrite]
    rfl

end ProjectionState

/-- The projected entries are the last writes that stand. -/
theorem VaultProjection.written_fromGraph [External] {graph : EventGraph}
    (supported : graph.Supported) {order : List EventId}
    (ordered : graph.topologicalOrder = .ok order) {storeName : Str} {projection : VaultProjection}
    (projected : fromGraph graph storeName = .ok projection) (secretId : SecretId) :
    projection.written secretId = graph.lastWrite order secretId := by
  obtain ⟨storeId, _, ran⟩ := fromGraph_eq ordered projected
  obtain ⟨state, folded, same⟩ := bind_eq_ok.mp ran
  cases same
  exact ProjectionState.written_foldlM secretId supported folded

end Nook.EventLog
