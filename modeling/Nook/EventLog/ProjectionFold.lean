import Nook.EventLog.Projection
import Nook.EventLog.GraphConfluence
import Nook.Lib.Journal
import Nook.Lib.Register

set_option autoImplicit false

namespace Nook.EventLog

open Nook.Lib Nook.Replication Relation

/-! ### What one operation does to one secret, to the name and to one history -/

namespace VaultOperation

def insertEffect (secretId : SecretId) (secret : EncryptedSecretPayload) :
    CellEffect StoredSecretRecord :=
  if secret.id = secretId then .write secret.toStored false else .keep

def deleteEffect (secretId deleted : SecretId) : CellEffect StoredSecretRecord :=
  if deleted = secretId then .mark else .keep

/-- The effects of an operation on the entry of a secret, in order. -/
def secretEffects (secretId : SecretId) : VaultOperation → List (CellEffect StoredSecretRecord)
  | vaultImported _ secrets => secrets.map (insertEffect secretId)
  | epochCheckpoint secrets _ _ _ => .clear :: secrets.map (insertEffect secretId)
  | secretCreated secret => [insertEffect secretId secret]
  | secretDeleted deleted => [deleteEffect secretId deleted]
  | secretReplaced oldId newSecret => [deleteEffect secretId oldId, insertEffect secretId newSecret]
  | secretConflictResolved _ _ rejectedSecretIds => rejectedSecretIds.map (deleteEffect secretId)
  | vaultCleared => [.clear]
  | _ => []

/-- The name that an operation gives the vault. -/
def givenName : VaultOperation → Option ProjectedVaultName
  | vaultNamed name => some (.named name)
  | epochCheckpoint _ _ _ vaultName => some (VaultProjection.projectedName vaultName)
  | _ => none

/-- The operation resolves the replacements of a secret. -/
def resolves (oldId : SecretId) : VaultOperation → Bool
  | secretConflictResolved resolved _ _ => resolved = oldId
  | _ => false

/-- The new id that the operation replaces a secret by. -/
def replacement (oldId : SecretId) : VaultOperation → List SecretId
  | secretReplaced replaced newSecret => if replaced = oldId then [newSecret.id] else []
  | _ => []

def epochStart (operation : VaultOperation) : Option EpochRotationReason :=
  match operation.operationStartsEpoch with
  | .rotated reason => some reason
  | .unchanged => none

end VaultOperation

def ProjectedSecretLifecycle.deletedBy : ProjectedSecretLifecycle → Option EventId
  | live => none
  | deleted deletedBy => some deletedBy

/-- The record with who wrote it and who deleted it last. -/
def ProjectedSecret.cell (secret : ProjectedSecret) : Cell StoredSecretRecord EventId :=
  ⟨secret.record, secret.createdBy, secret.lifecycle.deletedBy⟩

/-! ### What one event does -/

namespace EventGraph

def operationsOf (graph : EventGraph) (id : EventId) : List VaultOperation :=
  match graph.events[id]? with
  | some event => event.body.operations
  | none => []

def secretEffect (graph : EventGraph) (secretId : SecretId) (id : EventId) :
    CellEffect StoredSecretRecord :=
  CellEffect.combine ((graph.operationsOf id).flatMap (VaultOperation.secretEffects secretId))

/-- The last name that an event gives the vault. -/
def givenName (graph : EventGraph) (id : EventId) : Option ProjectedVaultName :=
  (graph.operationsOf id).reverse.findSome? VaultOperation.givenName

def nameEffect (graph : EventGraph) (id : EventId) : CellEffect ProjectedVaultName :=
  match graph.givenName id with
  | some name => .write name false
  | none => .keep

def resolvesReplacements (graph : EventGraph) (oldId : SecretId) (id : EventId) : Bool :=
  (graph.operationsOf id).any (VaultOperation.resolves oldId)

/-- The replacements of a secret that an event makes after its own last resolution of them. -/
def replacementsSince (graph : EventGraph) (oldId : SecretId) (id : EventId) : List SecretId :=
  (graph.operationsOf id).foldl (fun since operation =>
    (if operation.resolves oldId then [] else since) ++ operation.replacement oldId) []

/-- The reason of the last operation that starts an epoch, else of the first that mutates. -/
def securityReason (graph : EventGraph) (id : EventId) : Option EpochRotationReason :=
  ((graph.operationsOf id).reverse.findSome? VaultOperation.epochStart).or
    ((graph.operationsOf id).findSome? ProjectionState.mutationReason)

end EventGraph

/-! ### One operation -/

namespace VaultProjection

variable (projection : VaultProjection) (eventId : EventId) (secretId : SecretId)

/-- The entry of a secret as a cell. -/
def cell (projection : VaultProjection) (secretId : SecretId) :
    Option (Cell StoredSecretRecord EventId) :=
  (projection.secrets[secretId]?).map ProjectedSecret.cell

theorem cell_insertSecret (secret : EncryptedSecretPayload) (origin : ProjectedSecretOrigin) :
    (projection.insertSecret eventId secret origin).cell secretId =
      (VaultOperation.insertEffect secretId secret).apply eventId (projection.cell secretId) := by
  unfold cell insertSecret VaultOperation.insertEffect
  dsimp only
  rw [BTreeMap.getElem?_insert_eq]
  split
  · rfl
  · rfl

theorem cell_deleteSecret (deleted : SecretId) :
    (deleteSecret eventId projection deleted).cell secretId =
      (VaultOperation.deleteEffect secretId deleted).apply eventId (projection.cell secretId) := by
  unfold cell deleteSecret VaultOperation.deleteEffect
  by_cases same : deleted = secretId
  · subst same
    cases found : projection.secrets[deleted]? with
    | none => simp [found, CellEffect.apply]
    | some entry =>
      simp [CellEffect.apply, ProjectedSecret.cell, ProjectedSecretLifecycle.deletedBy]
  · cases found : projection.secrets[deleted]? with
    | none => simp [same, CellEffect.apply]
    | some entry => simp [BTreeMap.getElem?_insert_eq, same, CellEffect.apply]

theorem cell_insertCreated (secrets : List EncryptedSecretPayload) :
    (secrets.foldl (insertCreated eventId) projection).cell secretId =
      (secrets.map (VaultOperation.insertEffect secretId)).foldl
        (fun cell effect => effect.apply eventId cell) (projection.cell secretId) := by
  induction secrets generalizing projection with
  | nil => rfl
  | cons secret secrets ih =>
    rw [List.foldl_cons, ih, List.map_cons, List.foldl_cons]
    congr 1
    exact cell_insertSecret projection eventId secretId secret .created

theorem cell_deleteSecrets (rejected : List SecretId) :
    (rejected.foldl (deleteSecret eventId) projection).cell secretId =
      (rejected.map (VaultOperation.deleteEffect secretId)).foldl
        (fun cell effect => effect.apply eventId cell) (projection.cell secretId) := by
  induction rejected generalizing projection with
  | nil => rfl
  | cons deleted rejected ih =>
    rw [List.foldl_cons, ih, List.map_cons, List.foldl_cons, cell_deleteSecret]

theorem cell_applyOperation (replacementsByOld : ReplacementsByOld) (operation : VaultOperation) :
    (projection.applyOperation eventId replacementsByOld operation).1.cell secretId =
      (operation.secretEffects secretId).foldl (fun cell effect => effect.apply eventId cell)
        (projection.cell secretId) := by
  cases operation with
  | vaultImported _ secrets => exact cell_insertCreated projection eventId secretId secrets
  | epochCheckpoint secrets _ _ vaultName =>
    exact cell_insertCreated { projection with
      secrets := ∅, vaultName := projectedName vaultName } eventId secretId secrets
  | secretCreated secret => exact cell_insertSecret projection eventId secretId secret .created
  | secretDeleted deleted => exact cell_deleteSecret projection eventId secretId deleted
  | secretReplaced oldId newSecret =>
    show ((deleteSecret eventId projection oldId).insertSecret eventId newSecret _).cell _ = _
    rw [cell_insertSecret, cell_deleteSecret]
    rfl
  | secretConflictResolved _ _ rejected =>
    exact cell_deleteSecrets projection eventId secretId rejected
  | _ => rfl

theorem vaultName_insertCreated (secrets : List EncryptedSecretPayload) :
    (secrets.foldl (insertCreated eventId) projection).vaultName = projection.vaultName := by
  induction secrets generalizing projection with
  | nil => rfl
  | cons secret secrets ih =>
    rw [List.foldl_cons, ih]
    rfl

theorem vaultName_deleteSecret (deleted : SecretId) :
    (deleteSecret eventId projection deleted).vaultName = projection.vaultName := by
  unfold deleteSecret
  split
  · rfl
  · rfl

theorem vaultName_deleteSecrets (rejected : List SecretId) :
    (rejected.foldl (deleteSecret eventId) projection).vaultName = projection.vaultName := by
  induction rejected generalizing projection with
  | nil => rfl
  | cons deleted rejected ih => rw [List.foldl_cons, ih, vaultName_deleteSecret]

theorem vaultName_applyOperation (replacementsByOld : ReplacementsByOld)
    (operation : VaultOperation) :
    (projection.applyOperation eventId replacementsByOld operation).1.vaultName =
      operation.givenName.getD projection.vaultName := by
  cases operation with
  | vaultImported _ secrets => exact vaultName_insertCreated projection eventId secrets
  | epochCheckpoint secrets _ _ vaultName => exact vaultName_insertCreated _ eventId secrets
  | secretDeleted deleted => exact vaultName_deleteSecret projection eventId deleted
  | secretReplaced oldId newSecret => exact vaultName_deleteSecret projection eventId oldId
  | secretConflictResolved _ _ rejected => exact vaultName_deleteSecrets projection eventId rejected
  | _ => rfl

theorem replacements_applyOperation (replacementsByOld : ReplacementsByOld) (oldId : SecretId)
    (operation : VaultOperation) :
    (((projection.applyOperation eventId replacementsByOld operation).2)[oldId]?).getD [] =
      (if operation.resolves oldId then [] else (replacementsByOld[oldId]?).getD []) ++
        (operation.replacement oldId).map (Prod.mk eventId) := by
  cases operation with
  | secretReplaced replaced newSecret =>
    show ((replacementsByOld.insert replaced _)[oldId]?).getD [] = _
    rw [BTreeMap.getElem?_insert_eq]
    by_cases same : replaced = oldId
    · simp [same, VaultOperation.resolves, VaultOperation.replacement]
    · simp [same, VaultOperation.resolves, VaultOperation.replacement]
  | secretConflictResolved resolved _ _ =>
    show ((replacementsByOld.erase resolved)[oldId]?).getD [] = _
    rw [Std.ExtTreeMap.getElem?_erase]
    by_cases same : resolved = oldId
    · simp [same, VaultOperation.resolves, VaultOperation.replacement]
    · simp [same, VaultOperation.resolves, VaultOperation.replacement]
  | _ => simp [applyOperation, VaultOperation.resolves, VaultOperation.replacement]

end VaultProjection

/-! ### One event -/

namespace ProjectionState

/-- The recorded reason of an event after one more of its operations. -/
def nextReason (reason : Option EpochRotationReason) (operation : VaultOperation) :
    Option EpochRotationReason :=
  operation.epochStart.or (reason.or (mutationReason operation))

theorem operation_applied (id : EventId) (state : ProjectionState) (operation : VaultOperation) :
    (ProjectionState.operation id state operation).projection =
        (state.projection.applyOperation id state.replacementsByOld operation).1 ∧
      (ProjectionState.operation id state operation).replacementsByOld =
        (state.projection.applyOperation id state.replacementsByOld operation).2 := by
  have transition : (state.recordTransition id operation).projection = state.projection ∧
      (state.recordTransition id operation).replacementsByOld = state.replacementsByOld := by
    unfold recordTransition
    split
    · exact ⟨rfl, rfl⟩
    · exact ⟨rfl, rfl⟩
  have mutation : ∀ state : ProjectionState,
      (state.recordMutation id operation).projection = state.projection ∧
        (state.recordMutation id operation).replacementsByOld = state.replacementsByOld := by
    intro state
    unfold recordMutation
    split
    · exact ⟨rfl, rfl⟩
    · exact ⟨rfl, rfl⟩
  unfold ProjectionState.operation
  dsimp only
  rw [(mutation _).1, (mutation _).2, transition.1, transition.2]
  exact ⟨rfl, rfl⟩

theorem securityEvents_operation (id other : EventId) (state : ProjectionState)
    (operation : VaultOperation) :
    (ProjectionState.operation id state operation).securityEvents[other]? =
      if id = other then nextReason state.securityEvents[other]? operation
      else state.securityEvents[other]? := by
  have kept : (ProjectionState.operation id state operation).securityEvents =
      ((state.recordTransition id operation).recordMutation id operation).securityEvents := rfl
  rw [kept]
  unfold recordMutation recordTransition nextReason VaultOperation.epochStart
  cases operation.operationStartsEpoch with
  | rotated reason =>
    cases mutationReason operation with
    | none =>
      show (state.securityEvents.insert id reason)[other]? = _
      rw [BTreeMap.getElem?_insert_eq]
      rfl
    | some mutation =>
      have recorded : (state.securityEvents.insert id reason).contains id = true := by simp
      show (orInsert (state.securityEvents.insert id reason) id mutation)[other]? = _
      unfold orInsert
      rw [if_pos recorded, BTreeMap.getElem?_insert_eq]
      rfl
  | unchanged =>
    cases mutationReason operation with
    | none => simp
    | some mutation =>
      show (orInsert state.securityEvents id mutation)[other]? = _
      unfold orInsert
      split
      · rename_i recorded
        split
        · rename_i same
          subst same
          rw [Std.ExtTreeMap.contains_iff_mem, BTreeMap.mem_iff_getElem?] at recorded
          obtain ⟨reason, found⟩ := recorded
          rw [found]
          rfl
        · rfl
      · rename_i fresh
        rw [BTreeMap.getElem?_insert_eq]
        split
        · rename_i same
          subst same
          rw [Std.ExtTreeMap.contains_iff_mem, BTreeMap.not_mem_iff_getElem?] at fresh
          rw [fresh]
          rfl
        · rfl

theorem foldl_nextReason (operations : List VaultOperation) :
    operations.foldl nextReason none =
      (operations.reverse.findSome? VaultOperation.epochStart).or
        (operations.findSome? mutationReason) := by
  induction operations using List.reverseRecOn with
  | nil => rfl
  | append_singleton operations operation ih =>
    rw [List.foldl_append, List.foldl_cons, List.foldl_nil, ih, List.reverse_append,
      List.findSome?_append, List.findSome?_append]
    unfold nextReason
    cases starts : operation.epochStart with
    | some reason => simp [starts]
    | none =>
      have last : [operation].findSome? mutationReason = mutationReason operation := by
        cases mutates : mutationReason operation with
        | none => simp [mutates]
        | some reason => simp [mutates]
      simp [starts, last, Option.or_assoc]

/-- What a fold over the operations of one event does to every observed part of the state. -/
structure Applied (operations : List VaultOperation) (id : EventId)
    (state next : ProjectionState) : Prop where
  cell : ∀ secretId, next.projection.cell secretId =
    (operations.flatMap (VaultOperation.secretEffects secretId)).foldl
      (fun cell effect => effect.apply id cell) (state.projection.cell secretId)
  vaultName : next.projection.vaultName =
    (operations.reverse.findSome? VaultOperation.givenName).getD state.projection.vaultName
  replacements : ∀ oldId, (next.replacementsByOld[oldId]?).getD [] =
    (if operations.any (VaultOperation.resolves oldId) then []
      else (state.replacementsByOld[oldId]?).getD []) ++
    (operations.foldl (fun since operation =>
      (if operation.resolves oldId then [] else since) ++
        operation.replacement oldId) []).map (Prod.mk id)
  securityEvents : ∀ other, next.securityEvents[other]? =
    if id = other then operations.foldl nextReason state.securityEvents[other]?
    else state.securityEvents[other]?

theorem applied_operations (id : EventId) (state : ProjectionState)
    (operations : List VaultOperation) :
    Applied operations id state (operations.foldl (ProjectionState.operation id) state) := by
  induction operations using List.reverseRecOn with
  | nil => exact ⟨fun _ => rfl, rfl, by simp, by simp⟩
  | append_singleton operations operation ih =>
    rw [List.foldl_append, List.foldl_cons, List.foldl_nil]
    generalize operations.foldl (ProjectionState.operation id) state = middle at ih ⊢
    have applied := operation_applied id middle operation
    refine ⟨?_, ?_, ?_, ?_⟩
    · intro secretId
      rw [applied.1, VaultProjection.cell_applyOperation, ih.cell, List.flatMap_append,
        List.foldl_append]
      simp
    · rw [applied.1, VaultProjection.vaultName_applyOperation, ih.vaultName, List.reverse_append,
        List.findSome?_append]
      cases given : operation.givenName with
      | none => simp [given]
      | some name => simp [given]
    · intro oldId
      rw [applied.2, VaultProjection.replacements_applyOperation, ih.replacements,
        List.foldl_append, List.any_append]
      by_cases resolving : operation.resolves oldId
      · simp [resolving]
      · simp [resolving]
    · intro other
      rw [securityEvents_operation, ih.securityEvents, List.foldl_append]
      by_cases same : id = other
      · simp [same]
      · simp [same]

end ProjectionState

end Nook.EventLog
