import Nook.EventLog.ProjectionOutcome
import Nook.EventLog.TestSupport

set_option autoImplicit false

namespace Nook.EventLog

open Nook.Lib Nook.Replication Relation

namespace VaultOperation

/-- The operation tombstones a secret. -/
def deletes (secretId : SecretId) : VaultOperation → Bool
  | secretDeleted deleted => deleted = secretId
  | secretReplaced oldId _ => oldId = secretId
  | secretConflictResolved _ _ rejectedSecretIds => rejectedSecretIds.contains secretId
  | _ => false

theorem mark_mem_secretEffects (secretId : SecretId) (operation : VaultOperation) :
    CellEffect.mark ∈ operation.secretEffects secretId ↔ operation.deletes secretId = true := by
  have inserts : ∀ secret : EncryptedSecretPayload,
      insertEffect secretId secret ≠ CellEffect.mark := by
    intro secret
    unfold insertEffect
    split
    · simp
    · simp
  have tombstones : ∀ deleted : SecretId,
      deleteEffect secretId deleted = CellEffect.mark ↔ deleted = secretId := by
    intro deleted
    unfold deleteEffect
    by_cases same : deleted = secretId
    · simp [same]
    · simp [same]
  cases operation with
  | vaultImported _ secrets => simp [secretEffects, deletes, inserts]
  | epochCheckpoint secrets => simp [secretEffects, deletes, inserts]
  | secretCreated secret => simp [secretEffects, deletes, (inserts secret).symm]
  | secretDeleted deleted =>
    simp [secretEffects, deletes, eq_comm (a := CellEffect.mark), tombstones]
  | secretReplaced oldId newSecret =>
    simp [secretEffects, deletes, eq_comm (a := CellEffect.mark), tombstones, inserts]
  | secretConflictResolved _ _ rejected => simp [secretEffects, deletes, tombstones]
  | _ => simp [secretEffects, deletes]

end VaultOperation

namespace EventGraph

variable {graph : EventGraph} {order : List EventId} {secretId : SecretId}

/-- The event deletes, replaces or rejects the secret. -/
def deletesSecret (graph : EventGraph) (secretId : SecretId) (id : EventId) : Bool :=
  (graph.operationsOf id).any (VaultOperation.deletes secretId)

/-- An event that does not write the entry of a secret marks it exactly when it deletes it. -/
theorem secretEffect_marks_iff {id : EventId}
    (unwritten : (graph.secretEffect secretId id).writes = false) :
    (graph.secretEffect secretId id).marks = true ↔ graph.deletesSecret secretId id = true := by
  unfold secretEffect at unwritten ⊢
  rw [CellEffect.combine_marks _ unwritten, List.mem_flatMap]
  simp only [VaultOperation.mark_mem_secretEffects, deletesSecret, List.any_eq_true]

/-- No later event of the order deletes the secret. -/
structure LastDeletion (graph : EventGraph) (order : List EventId) (secretId : SecretId)
    (id : EventId) : Prop where
  inside : id ∈ order
  deletes : graph.deletesSecret secretId id = true
  last : ∀ later, [id, later].Sublist order → graph.deletesSecret secretId later = false

theorem LastDeletion.unique {first second : EventId}
    (left : graph.LastDeletion order secretId first)
    (right : graph.LastDeletion order secretId second) : first = second := by
  by_contra apart
  rcases pair_sublist_total apart order left.inside right.inside with ahead | behind
  · have deletes := right.deletes
    rw [left.last second ahead] at deletes
    cases deletes
  · have deletes := left.deletes
    rw [right.last first behind] at deletes
    cases deletes

end EventGraph

namespace VaultProjection

variable [External] {graph : EventGraph} {order : List EventId} {projection : VaultProjection}

/-- The entry of a secret was written by its creator, and nothing behind the
creator in the order writes it again. -/
theorem created_split (reachable : EventGraph.Reachable (fun _ _ => True) graph)
    {storeName : Str} (ordered : graph.topologicalOrder = .ok order)
    (projected : fromGraph graph storeName = .ok projection) {secretId : SecretId}
    {secret : ProjectedSecret} (entry : projection.secrets[secretId]? = some secret) :
    ∃ earlier later, order = earlier ++ secret.createdBy :: later ∧
      (∀ id ∈ later, (graph.secretEffect secretId id).writes = false) ∧
        ∀ mark, Register.lastMark (graph.secretEffect secretId) later = some mark →
          secret.cell.mark = some mark := by
  have extension := EventGraph.topologicalOrder_extension reachable.wellFormed ordered
  obtain ⟨storeId, _, ran⟩ := fromGraph_eq ordered projected
  obtain ⟨state, folded, same⟩ := fromOrder_folded reachable.supported extension.nodup ran
  have cell : projection.cell secretId = Register.run (graph.secretEffect secretId) order none := by
    rw [same]
    exact folded.cell secretId
  have present : projection.cell secretId = some secret.cell := by
    unfold VaultProjection.cell
    rw [entry]
    rfl
  exact Register.split_of_run (cell.symm.trans present)

omit [External] in
/-- A secret with a deletion mark is hidden when the mark is after its creation. -/
theorem hidden_iff_of_mark {secretId : SecretId} {secret : ProjectedSecret}
    (entry : projection.secrets[secretId]? = some secret) {mark : EventId}
    (marked : secret.cell.mark = some mark) (apart : secret.createdBy ≠ mark) :
    secretId.asStr ∉ projection.liveSecrets graph ↔
      graph.causal.Ancestor secret.createdBy mark := by
  have present : projection.cell secretId = some secret.cell := by
    unfold VaultProjection.cell
    rw [entry]
    rfl
  have reach : graph.causal.isAncestor secret.createdBy mark = true ↔ _ :=
    CausalGraph.isAncestor_iff_eq_or _ _
  rw [BTreeMap.not_mem_iff_getElem?, getElem?_liveSecrets, present]
  unfold Register.shown
  rw [Option.bind_some, marked]
  show (if graph.causal.isAncestor secret.createdBy mark then none else _) = none ↔ _
  by_cases reached : graph.causal.isAncestor secret.createdBy mark
  · rw [if_pos reached]
    exact iff_of_true rfl ((reach.mp reached).resolve_left apart)
  · rw [if_neg reached]
    exact iff_of_false (by simp) fun path => reached (reach.mpr (Or.inr path))

omit [External] in
/-- Behind the last writer the last mark is the last deletion of the whole order. -/
theorem lastDeletion_of_split {earlier later front back : List EventId} {secretId : SecretId}
    {creator final : EventId} (extension : graph.causal.Extension (earlier ++ creator :: later))
    (last : ∀ id ∈ later, (graph.secretEffect secretId id).writes = false)
    (split : later = front ++ final :: back)
    (marks : (graph.secretEffect secretId final).marks = true)
    (unmarked : ∀ id ∈ back, (graph.secretEffect secretId id).marks = false) :
    graph.LastDeletion (earlier ++ creator :: later) secretId final := by
  have inLater : final ∈ later := by simp [split]
  refine ⟨by simp [inLater], (EventGraph.secretEffect_marks_iff (last final inLater)).mp marks, ?_⟩
  intro other follows
  have shape : earlier ++ creator :: later = (earlier ++ creator :: front) ++ final :: back := by
    simp [split]
  have nodup := extension.nodup
  rw [shape] at follows nodup
  have inBack := (pair_sublist_split nodup).mp follows
  have unwritten := last other (by simp [split, inBack])
  rw [← Bool.not_eq_true, ← EventGraph.secretEffect_marks_iff unwritten, unmarked other inBack]
  exact Bool.false_ne_true

/-- A secret with a deletion after its creation is hidden exactly when the last
deletion of it in the topological order is after its creation. -/
theorem deleted_secret_hidden_iff (reachable : EventGraph.Reachable (fun _ _ => True) graph)
    {storeName : Str} (ordered : graph.topologicalOrder = .ok order)
    (projected : fromGraph graph storeName = .ok projection) {secretId : SecretId}
    {secret : ProjectedSecret} (entry : projection.secrets[secretId]? = some secret)
    {deletion : EventId} (applicable : graph.causal.Applicable deletion)
    (after : graph.causal.Ancestor secret.createdBy deletion)
    (deletes : graph.deletesSecret secretId deletion = true) :
    secretId.asStr ∉ projection.liveSecrets graph ↔
      ∃ last, graph.LastDeletion order secretId last ∧
        graph.causal.Ancestor secret.createdBy last := by
  have wellFormed := reachable.wellFormed
  have extension := EventGraph.topologicalOrder_extension wellFormed ordered
  -- The creator is the last writer, so the deletions after it only mark its entry.
  obtain ⟨earlier, later, shape, last, marked⟩ := created_split reachable ordered projected entry
  subst shape
  have apart : secret.createdBy ≠ deletion := by
    intro same
    rw [← same] at after applicable
    exact applicable.acyclic wellFormed after
  have behind := extension.mem_later after apart applicable
  have marks : (graph.secretEffect secretId deletion).marks = true :=
    (EventGraph.secretEffect_marks_iff (last deletion behind)).mpr deletes
  rcases split_last (fun id => (graph.secretEffect secretId id).marks) later with
    unmarked | ⟨front, final, back, split, finalMarks, finalLast⟩
  · rw [unmarked deletion behind] at marks
    cases marks
  · have isLast := lastDeletion_of_split extension last split finalMarks finalLast
    have mark : secret.cell.mark = some final := by
      apply marked
      rw [split]
      exact Register.lastMark_of_split finalMarks finalLast
    have distinct : secret.createdBy ≠ final := (extension.ne_of_split.2 (by simp [split])).symm
    rw [hidden_iff_of_mark entry mark distinct]
    constructor
    · exact fun path => ⟨final, isLast, path⟩
    · rintro ⟨other, otherLast, path⟩
      rwa [otherLast.unique isLast] at path

end VaultProjection

namespace TestSupport

/-- A secret is created again and deleted, while a longer branch deletes the first creation. -/
def redeletedEvents : List VaultEvent :=
  [signed 'g' '1' [] (eventId 'g') [.vaultImported ⟨[]⟩ [secret 's' []]],
    signed 'c' '1' [eventId 'g'] (eventId 'g') [.secretCreated (secret 's' ['1'])],
    signed 'd' '1' [eventId 'c'] (eventId 'g') [.secretDeleted (secretId 's')],
    signed 'x' '1' [eventId 'g'] (eventId 'g') [.secretCreated (secret 't' [])],
    signed 'y' '1' [eventId 'x'] (eventId 'g') [.secretCreated (secret 'u' [])],
    signed 'z' '1' [eventId 'y'] (eventId 'g') [.secretDeleted (secretId 's')]]

open EventGraph in
theorem redeleted_secret_live :
    ∃ graph projection creation, EventGraph.new.insertAll storeName redeletedEvents = .ok graph ∧
      VaultProjection.fromGraph graph storeName = .ok projection ∧
      projection.secrets[secretId 's']? = some creation ∧
      graph.causal.Applicable (eventId 'd') ∧
      graph.causal.Ancestor creation.createdBy (eventId 'd') ∧
      graph.deletesSecret (secretId 's') (eventId 'd') = true ∧
      (secretId 's').asStr ∈ projection.liveSecrets graph := by
  obtain ⟨graph, accepted, checked⟩ := exists_of_passes
    (EventGraph.new.insertAll storeName redeletedEvents)
    (fun graph => passes (VaultProjection.fromGraph graph storeName) fun projection =>
      decide ((projection.secrets[secretId 's']?).map (·.createdBy) = some (eventId 'c') ∧
        eventId 'd' ∈ graph.causal.applicableIds ∧
        graph.causal.isAncestor (eventId 'c') (eventId 'd') = true ∧
        graph.deletesSecret (secretId 's') (eventId 'd') = true ∧
        (secretId 's').asStr ∈ projection.liveSecrets graph)) (by decide +kernel)
  obtain ⟨projection, projected, checked⟩ := exists_of_passes _ _ checked
  rw [decide_eq_true_iff, Option.map_eq_some_iff, CausalGraph.mem_applicableIds,
    CausalGraph.isAncestor_iff_eq_or] at checked
  obtain ⟨⟨creation, entry, created⟩, applicable, path, deletes, live⟩ := checked
  exact ⟨graph, projection, creation, accepted, projected, entry, applicable,
    created ▸ path.resolve_left (by decide), deletes, live⟩

open EventGraph in
theorem deleted_secret_hidden_iff_redeleted :
    ∃ graph order projection creation,
      EventGraph.new.insertAll storeName redeletedEvents = .ok graph ∧
      ((secretId 's').asStr ∉ VaultProjection.liveSecrets projection graph ↔
        ∃ last, graph.LastDeletion order (secretId 's') last ∧
          graph.causal.Ancestor (ProjectedSecret.createdBy creation) last) := by
  obtain ⟨graph, accepted, checked⟩ := exists_of_passes
    (EventGraph.new.insertAll storeName redeletedEvents)
    (fun graph => graph.topologicalOrder.isOk &&
      passes (VaultProjection.fromGraph graph storeName) fun projection =>
        decide ((projection.secrets[secretId 's']?).map (·.createdBy) = some (eventId 'c') ∧
          eventId 'd' ∈ graph.causal.applicableIds ∧
          graph.causal.isAncestor (eventId 'c') (eventId 'd') = true ∧
          graph.deletesSecret (secretId 's') (eventId 'd') = true)) (by decide +kernel)
  rw [Bool.and_eq_true] at checked
  obtain ⟨order, ordered⟩ := exists_of_isOk checked.1
  obtain ⟨projection, projected, checked⟩ := exists_of_passes _ _ checked.2
  rw [decide_eq_true_iff, Option.map_eq_some_iff, CausalGraph.mem_applicableIds,
    CausalGraph.isAncestor_iff_eq_or] at checked
  obtain ⟨⟨creation, entry, created⟩, applicable, path, deletes⟩ := checked
  exact ⟨graph, order, projection, creation, accepted, VaultProjection.deleted_secret_hidden_iff
    (Reachable.new.insertAll redeletedEvents accepted) ordered projected entry applicable
    (created ▸ path.resolve_left (by decide)) deletes⟩

end TestSupport

end Nook.EventLog
