import Nook.Auth.ReconciliationMarker

set_option autoImplicit false

namespace Nook.Auth

open Nook.Lib Nook.EventLog

/-! ### The stored marker of one vault -/

structure ReconciliationIntent where
  previousKeyEpoch : IdentityVaultEventId
  previousCheckpoint : IdentityVaultEventId
  planEnvelope : AgeArmoredCiphertext

inductive VerifiedPreviousEpoch where
  | unverified
  | verified (previousKeyEpoch : IdentityVaultEventId)

structure EpochObservation where
  observed : IdentityVaultDekEpoch
  verifiedPreviousKeyEpoch : VerifiedPreviousEpoch
  committedEventIds : List IdentityVaultEventId
  checkpointAncestors : List IdentityVaultEventId

inductive ReconciliationCleanup where
  | noMarker
  | consumeExact (marker : Str)
  deriving DecidableEq

structure IdentityEpochResolution where
  update : IdentityVaultDekEpochUpdate
  consumedMarker : ReconciliationCleanup

/-- The marker a rotation begins with. -/
def ReconciliationIntent.proposed (storeId : StoreId) (intent : ReconciliationIntent) :
    PendingIdentityReconciliation :=
  ⟨storeId, intent.previousKeyEpoch, intent.previousCheckpoint, .prepared intent.planEnvelope⟩

/-- The marker store of one vault. Each operation is one transaction over the stored text. -/
structure IdentityReconciliationStore where
  storeId : StoreId

namespace IdentityReconciliationStore

variable [JsonText]

def anotherVault : ReconciliationError :=
  .indexedDb "Identity reconciliation marker names another vault."

/-- The text stored by `mark`. -/
def mark (store : IdentityReconciliationStore) (input : ReconciliationIntent) :
    Option Str → ReconciliationResult Str
  | none => .ok (input.proposed store.storeId).encode
  | some raw => do
    if (← PendingIdentityReconciliation.decode raw) = input.proposed store.storeId then
      return raw
    else
      .error (.indexedDb "Another security epoch rotation is already pending.")

def deleteIf (predicate : Str → ReconciliationResult Bool) :
    Option Str → ReconciliationResult (Option Str)
  | none => .ok none
  | some raw => do
    if ← predicate raw then return none else return some raw

/-- Whether a marker is still prepared for a plan. -/
def preparedFor (store : IdentityReconciliationStore) (expected : AgeArmoredCiphertext)
    (pending : PendingIdentityReconciliation) : Bool :=
  pending.storeId = store.storeId ∧ pending.progress = .prepared expected

def abort (store : IdentityReconciliationStore) (expectedPlanEnvelope : AgeArmoredCiphertext) :
    Option Str → ReconciliationResult (Option Str) :=
  deleteIf fun raw => do
    return store.preparedFor expectedPlanEnvelope (← PendingIdentityReconciliation.decode raw)

def clearConsumed (consumedMarker : Str) : Option Str → ReconciliationResult (Option Str) :=
  deleteIf fun raw => .ok (raw = consumedMarker)

def update (store : IdentityReconciliationStore) (update : ReconciliationUpdate) :
    Option Str → ReconciliationResult Str
  | none => .error (.indexedDb "Identity reconciliation marker disappeared.")
  | some raw => do
    let pending ← PendingIdentityReconciliation.decode raw
    if pending.storeId = store.storeId then
      return (← update.apply pending).encode
    else
      .error anotherVault

/-- The answer without a marker. -/
def resolveUnmarked (input : EpochObservation) : IdentityEpochResolution :=
  match input.verifiedPreviousKeyEpoch, input.observed with
  | .verified previousKeyEpoch, .known keyEpoch checkpoint =>
    ⟨.rotate previousKeyEpoch input.checkpointAncestors keyEpoch checkpoint, .noMarker⟩
  | _, observed => ⟨.observe observed input.checkpointAncestors, .noMarker⟩

/-- The answer for a marker of this vault and a known epoch. -/
def resolvePending (input : EpochObservation) (raw : Str)
    (pending : PendingIdentityReconciliation) (observedEpoch observedCheckpoint :
      IdentityVaultEventId) : ReconciliationResult IdentityEpochResolution :=
  match pending.progress with
  | .prepared _ | .epochCommitted _ _ =>
    .error (.indexedDb
      "Security epoch rotation must resume before identity reconciliation.")
  | .committed keyEpoch checkpoint =>
    if keyEpoch ∉ input.committedEventIds ∨ checkpoint ∉ input.committedEventIds ∨
        checkpoint ≠ observedCheckpoint ∧ checkpoint ∉ input.checkpointAncestors then
      .error (.indexedDb
        "Committed security epoch checkpoint is absent from verified history.")
    else
      .ok ⟨.rotate pending.previousKeyEpoch input.checkpointAncestors observedEpoch
        observedCheckpoint, .consumeExact raw⟩

def resolve (store : IdentityReconciliationStore) (input : EpochObservation) :
    Option Str → ReconciliationResult IdentityEpochResolution
  | none => .ok (resolveUnmarked input)
  | some raw => do
    let pending ← PendingIdentityReconciliation.decode raw
    if pending.storeId ≠ store.storeId then
      .error anotherVault
    else
      match input.observed with
      | .known keyEpoch checkpoint => resolvePending input raw pending keyEpoch checkpoint
      | .legacyUnknown =>
        .error (.indexedDb "Event-log reconciliation cannot use an unknown epoch.")

end IdentityReconciliationStore

/-! ### The stored directory -/

/-- The stored text of the directory, as it is decoded. -/
inductive StoredIdentityDirectory where
  | missingKey
  | malformed
  | stored (directory : IdentityDirectory)

def StoredIdentityDirectory.loadDirectoryForWrite :
    StoredIdentityDirectory → ReconciliationResult IdentityDirectory
  | missingKey => .ok .new
  | malformed => .error .directoryDecode
  | stored directory =>
    match directory.validate with
    | .ok _ => .ok directory
    | .error cause => .error (.database cause)

/-- The directory of an update, stored once it is validated. -/
def updateIdentityDirectory {α : Type}
    (update : IdentityDirectory → ReconciliationResult (IdentityDirectory × α))
    (current : StoredIdentityDirectory) : ReconciliationResult (StoredIdentityDirectory × α) := do
  let (directory, value) ← update (← current.loadDirectoryForWrite)
  match directory.validate with
  | .ok _ => return (.stored directory, value)
  | .error cause => .error (.database cause)

/-- A resolution on its way through the directory. -/
structure ResolvedIdentityPersistence where
  resolution : IdentityEpochResolution
  storeId : StoreId
  appKey : AppKey
  label : Str
  secretsEnvelope : AgeArmoredCiphertext
  membersEnvelope : AgeArmoredCiphertext
  authorizedAuthIds : List AuthKeyId

/-- A resolution whose directory is stored. -/
structure PersistedIdentityReconciliation where
  storeId : StoreId
  record : IdentityRecord
  consumedMarker : ReconciliationCleanup

namespace ResolvedIdentityPersistence

variable [Age]

def legacyImport (resolved : ResolvedIdentityPersistence) : DirectoryLegacyVaultImport where
  label := resolved.label
  appKey := resolved.appKey
  storeId := resolved.storeId
  reconciliation := ⟨resolved.secretsEnvelope, resolved.membersEnvelope,
    resolved.resolution.update, resolved.authorizedAuthIds⟩

/-- The directory with the vault, and the record of the identity that holds it. -/
def importInto (resolved : ResolvedIdentityPersistence) (generated : MultiDeviceResult IdentityId)
    (entropy : Entropy) (directory : IdentityDirectory) :
    ReconciliationResult (IdentityDirectory × IdentityRecord) :=
  match directory.importLegacyVault resolved.legacyImport generated entropy with
  | .error rejected => .error (.database rejected.cause)
  | .ok resolvedIdentity =>
    match resolvedIdentity.directory.identities.find? fun record =>
        record.identityId = resolvedIdentity.identityId with
    | some record => .ok (resolvedIdentity.directory, record)
    | none => .error .importedIdentityDisappeared

def persist (resolved : ResolvedIdentityPersistence) (generated : MultiDeviceResult IdentityId)
    (entropy : Entropy) (current : StoredIdentityDirectory) :
    ReconciliationResult (StoredIdentityDirectory × PersistedIdentityReconciliation) := do
  let (written, record) ← updateIdentityDirectory (resolved.importInto generated entropy) current
  return (written, ⟨resolved.storeId, record, resolved.resolution.consumedMarker⟩)

end ResolvedIdentityPersistence

/-- The stored marker once the marker of a reconciliation is cleared. -/
def PersistedIdentityReconciliation.complete (persisted : PersistedIdentityReconciliation)
    (current : Option Str) : ReconciliationResult (Option Str) :=
  match persisted.consumedMarker with
  | .consumeExact marker => IdentityReconciliationStore.clearConsumed marker current
  | .noMarker => .ok current

/-! ### What each operation does to the marker -/

namespace IdentityReconciliationStore

variable [JsonText] {store : IdentityReconciliationStore} {raw stored : Str}

/-- A marker is only marked again with the very rotation it was marked with, still prepared. -/
theorem mark_some_eq_ok {input : ReconciliationIntent} :
    store.mark input (some raw) = .ok stored ↔ stored = raw ∧
      PendingIdentityReconciliation.decode raw = .ok (input.proposed store.storeId) := by
  unfold mark
  constructor
  · intro marked
    obtain ⟨pending, read, marked⟩ := bind_eq_ok.mp marked
    by_cases same : pending = input.proposed store.storeId
    · rw [if_pos same] at marked
      cases marked
      exact ⟨rfl, by rw [read, same]⟩
    · rw [if_neg same] at marked
      cases marked
  · intro marked
    rw [marked.1]
    exact bind_eq_ok.mpr ⟨_, marked.2, if_pos rfl⟩

omit [JsonText] in
theorem deleteIf_eq_ok {predicate : Str → ReconciliationResult Bool} {after : Option Str} :
    deleteIf predicate (some raw) = .ok after ↔ ∃ delete, predicate raw = .ok delete ∧
      after = if delete then none else some raw := by
  unfold deleteIf
  constructor
  · intro ran
    obtain ⟨delete, decided, ran⟩ := bind_eq_ok.mp ran
    refine ⟨delete, decided, ?_⟩
    cases delete with
    | true =>
      cases ran
      rfl
    | false =>
      cases ran
      rfl
  · intro ran
    obtain ⟨delete, decided, same⟩ := ran
    refine bind_eq_ok.mpr ⟨delete, decided, ?_⟩
    rw [same]
    cases delete with
    | true => rfl
    | false => rfl

/-- Aborting deletes the marker of this vault that is still prepared for the plan, and keeps
every other. -/
theorem abort_eq_ok {plan : AgeArmoredCiphertext} {after : Option Str} :
    store.abort plan (some raw) = .ok after ↔ ∃ pending,
      PendingIdentityReconciliation.decode raw = .ok pending ∧
        after = if store.preparedFor plan pending then none else some raw := by
  unfold abort
  rw [deleteIf_eq_ok]
  constructor
  · intro ran
    obtain ⟨delete, decided, same⟩ := ran
    obtain ⟨pending, read, made⟩ := bind_eq_ok.mp decided
    cases made
    exact ⟨pending, read, same⟩
  · intro ran
    obtain ⟨pending, read, same⟩ := ran
    exact ⟨_, bind_eq_ok.mpr ⟨pending, read, rfl⟩, same⟩

omit [JsonText] in
theorem clearConsumed_some {marker : Str} :
    clearConsumed marker (some raw) = .ok (if raw = marker then none else some raw) := by
  unfold clearConsumed
  rw [deleteIf_eq_ok]
  refine ⟨_, rfl, ?_⟩
  by_cases same : raw = marker
  · simp [same]
  · simp [same]

theorem update_eq_ok {update : ReconciliationUpdate} :
    store.update update (some raw) = .ok stored ↔ ∃ pending next,
      PendingIdentityReconciliation.decode raw = .ok pending ∧ pending.storeId = store.storeId ∧
        update.apply pending = .ok next ∧ stored = next.encode := by
  unfold IdentityReconciliationStore.update
  constructor
  · intro updated
    obtain ⟨pending, read, updated⟩ := bind_eq_ok.mp updated
    by_cases own : pending.storeId = store.storeId
    · rw [if_pos own] at updated
      obtain ⟨next, applied, made⟩ := bind_eq_ok.mp updated
      cases made
      exact ⟨pending, next, read, own, applied, rfl⟩
    · rw [if_neg own] at updated
      cases updated
  · intro updated
    obtain ⟨pending, next, read, own, applied, same⟩ := updated
    refine bind_eq_ok.mpr ⟨pending, read, ?_⟩
    rw [if_pos own, same]
    exact bind_eq_ok.mpr ⟨next, applied, rfl⟩

/-- The state of marker and history in which a resolution answers while a marker is stored. -/
structure Resolvable (store : IdentityReconciliationStore) (input : EpochObservation)
    (pending : PendingIdentityReconciliation) (keyEpoch checkpoint observedEpoch
      observedCheckpoint : IdentityVaultEventId) : Prop where
  own : pending.storeId = store.storeId
  committed : pending.progress = .committed keyEpoch checkpoint
  observed : input.observed = .known observedEpoch observedCheckpoint
  epochKnown : keyEpoch ∈ input.committedEventIds
  checkpointKnown : checkpoint ∈ input.committedEventIds
  reached : checkpoint = observedCheckpoint ∨ checkpoint ∈ input.checkpointAncestors

omit [JsonText] in
theorem resolvePending_eq_ok {input : EpochObservation} {pending : PendingIdentityReconciliation}
    {observedEpoch observedCheckpoint : IdentityVaultEventId}
    {resolution : IdentityEpochResolution} :
    resolvePending input raw pending observedEpoch observedCheckpoint = .ok resolution ↔
      ∃ keyEpoch checkpoint, pending.progress = .committed keyEpoch checkpoint ∧
        keyEpoch ∈ input.committedEventIds ∧ checkpoint ∈ input.committedEventIds ∧
        (checkpoint = observedCheckpoint ∨ checkpoint ∈ input.checkpointAncestors) ∧
        resolution = ⟨.rotate pending.previousKeyEpoch input.checkpointAncestors observedEpoch
          observedCheckpoint, .consumeExact raw⟩ := by
  unfold resolvePending
  cases reached : pending.progress with
  | prepared planEnvelope => simp
  | epochCommitted keyEpoch planEnvelope => simp
  | committed keyEpoch checkpoint =>
    dsimp only
    by_cases absent : keyEpoch ∉ input.committedEventIds ∨ checkpoint ∉ input.committedEventIds ∨
        checkpoint ≠ observedCheckpoint ∧ checkpoint ∉ input.checkpointAncestors
    · rw [if_pos absent]
      constructor
      · intro resolved
        cases resolved
      · intro resolved
        obtain ⟨own, other, same, epochKnown, checkpointKnown, known, _⟩ := resolved
        cases same
        tauto
    · rw [if_neg absent]
      simp only [not_or, not_and_or, not_not, ne_eq] at absent
      constructor
      · intro resolved
        cases resolved
        exact ⟨keyEpoch, checkpoint, rfl, absent.1, absent.2.1, absent.2.2, rfl⟩
      · intro resolved
        obtain ⟨_, _, _, _, _, _, same⟩ := resolved
        rw [same]

/-- With a marker stored a resolution answers only once it is committed, in the verified
history, and before what was observed. -/
theorem resolve_some_eq_ok {input : EpochObservation} {resolution : IdentityEpochResolution} :
    store.resolve input (some raw) = .ok resolution ↔
      ∃ pending keyEpoch checkpoint observedEpoch observedCheckpoint,
        PendingIdentityReconciliation.decode raw = .ok pending ∧
          store.Resolvable input pending keyEpoch checkpoint observedEpoch observedCheckpoint ∧
          resolution = ⟨.rotate pending.previousKeyEpoch input.checkpointAncestors observedEpoch
            observedCheckpoint, .consumeExact raw⟩ := by
  unfold resolve
  constructor
  · intro resolved
    obtain ⟨pending, read, resolved⟩ := bind_eq_ok.mp resolved
    by_cases own : pending.storeId = store.storeId
    · rw [if_neg (not_not.mpr own)] at resolved
      cases observed : input.observed with
      | legacyUnknown =>
        rw [observed] at resolved
        cases resolved
      | known observedEpoch observedCheckpoint =>
        rw [observed] at resolved
        obtain ⟨keyEpoch, checkpoint, committed, epochKnown, checkpointKnown, reached, same⟩ :=
          resolvePending_eq_ok.mp resolved
        exact ⟨pending, keyEpoch, checkpoint, observedEpoch, observedCheckpoint, read,
          ⟨own, committed, observed, epochKnown, checkpointKnown, reached⟩, same⟩
    · rw [if_pos own] at resolved
      cases resolved
  · intro resolved
    obtain ⟨pending, keyEpoch, checkpoint, observedEpoch, observedCheckpoint, read, can, same⟩ :=
      resolved
    refine bind_eq_ok.mpr ⟨pending, read, ?_⟩
    rw [if_neg (not_not.mpr can.own), can.observed]
    exact resolvePending_eq_ok.mpr ⟨keyEpoch, checkpoint, can.committed, can.epochKnown,
      can.checkpointKnown, can.reached, same⟩

/-- A resolution names a marker to consume only when it read that marker. -/
theorem resolve_consumes {input : EpochObservation} {resolution : IdentityEpochResolution}
    {current : Option Str} {marker : Str} (resolved : store.resolve input current = .ok resolution)
    (consumes : resolution.consumedMarker = .consumeExact marker) : current = some marker := by
  cases current with
  | none =>
    cases resolved
    unfold resolveUnmarked at consumes
    split at consumes
    · cases consumes
    · cases consumes
  | some raw =>
    obtain ⟨_, _, _, _, _, _, _, same⟩ := resolve_some_eq_ok.mp resolved
    rw [same] at consumes
    cases consumes
    rfl

end IdentityReconciliationStore

theorem ResolvedIdentityPersistence.persist_eq_ok [Age] {resolved : ResolvedIdentityPersistence}
    {generated : MultiDeviceResult IdentityId} {entropy : Entropy}
    {current written : StoredIdentityDirectory} {persisted : PersistedIdentityReconciliation}
    (ran : resolved.persist generated entropy current = .ok (written, persisted)) :
    persisted.consumedMarker = resolved.resolution.consumedMarker ∧
      ∃ directory, written = .stored directory ∧ directory.validate = .ok () ∧
        ∃ before, current.loadDirectoryForWrite = .ok before ∧
          resolved.importInto generated entropy before = .ok (directory, persisted.record) := by
  unfold persist at ran
  obtain ⟨⟨stored, record⟩, updated, made⟩ := bind_eq_ok.mp ran
  cases made
  refine ⟨rfl, ?_⟩
  unfold updateIdentityDirectory at updated
  obtain ⟨before, loaded, updated⟩ := bind_eq_ok.mp updated
  obtain ⟨⟨directory, value⟩, imported, updated⟩ := bind_eq_ok.mp updated
  cases valid : directory.validate with
  | ok _ =>
    simp only [valid] at updated
    cases updated
    exact ⟨directory, rfl, valid, before, loaded, imported⟩
  | error cause =>
    simp only [valid] at updated
    cases updated

end Nook.Auth
