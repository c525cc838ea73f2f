import Nook.Auth.ReconciliationStore
import Nook.Auth.VaultGrantRun

set_option autoImplicit false

namespace Nook.Auth

open Nook.Lib Nook.EventLog

/-! ### Tabs over one marker -/

structure LegacyVaultIdentityInput where
  appKey : AppKey
  secretsEnvelope : AgeArmoredCiphertext
  membersEnvelope : AgeArmoredCiphertext
  observation : EpochObservation
  authorizedAuthIds : List AuthKeyId
  label : Str

def LegacyVaultIdentityInput.persistence (input : LegacyVaultIdentityInput) (storeId : StoreId)
    (resolution : IdentityEpochResolution) : ResolvedIdentityPersistence where
  resolution
  storeId
  appKey := input.appKey
  label := input.label
  secretsEnvelope := input.secretsEnvelope
  membersEnvelope := input.membersEnvelope
  authorizedAuthIds := input.authorizedAuthIds

/-- What a tab holds between two of its storage steps. -/
inductive ReconciliationContinuation where
  | epochCommitted (keyEpoch : IdentityVaultEventId)
  | resolved (resolved : ResolvedIdentityPersistence)
  | persisted (persisted : PersistedIdentityReconciliation)

/-- The storage, and the continuations of all tabs. -/
structure ReconciliationWorld where
  marker : Option Str
  directory : StoredIdentityDirectory
  tabs : List ReconciliationContinuation

/-- One storage step of some tab. A number names the continuation that the step consumes, and
a crash loses one without a step. -/
inductive ReconciliationStep where
  | mark (input : ReconciliationIntent)
  | abort (planEnvelope : AgeArmoredCiphertext)
  | commitEpoch (keyEpoch : IdentityVaultEventId)
  | commitCheckpoint (tab : Nat) (checkpoint : IdentityVaultEventId)
  | resolve (input : LegacyVaultIdentityInput)
  | persist (tab : Nat) (generated : MultiDeviceResult IdentityId) (entropy : Entropy)
  | complete (tab : Nat)
  | crash (tab : Nat)
  | otherWrite (directory : StoredIdentityDirectory)

namespace ReconciliationWorld

def without (world : ReconciliationWorld) (tab : Nat) : ReconciliationWorld :=
  { world with tabs := world.tabs.eraseIdx tab }

@[simp] theorem without_marker (world : ReconciliationWorld) (tab : Nat) :
    (world.without tab).marker = world.marker := rfl

@[simp] theorem without_tabs (world : ReconciliationWorld) (tab : Nat) :
    (world.without tab).tabs = world.tabs.eraseIdx tab := rfl

/-- The world after a transaction, which leaves it as it was when it is refused. -/
def settle (world : ReconciliationWorld) :
    ReconciliationResult ReconciliationWorld → ReconciliationWorld × ReconciliationResult Unit
  | .ok next => (next, .ok ())
  | .error cause => (world, .error cause)

variable [JsonText] [Age]

omit [JsonText] [Age] in
@[simp] theorem settle_error {α : Type} (world : ReconciliationWorld) (cause : ReconciliationError)
    (next : α → ReconciliationResult ReconciliationWorld) :
    world.settle (Except.error cause >>= next) = (world, .error cause) := rfl

omit [JsonText] [Age] in
@[simp] theorem settle_ok {α : Type} (world : ReconciliationWorld) (value : α)
    (next : α → ReconciliationWorld) :
    world.settle (Except.ok value >>= fun value => pure (next value)) = (next value, .ok ()) := rfl

/-- A step, and its answer. A step of a continuation that is not there does nothing. -/
def perform (store : IdentityReconciliationStore) (world : ReconciliationWorld) :
    ReconciliationStep → ReconciliationWorld × ReconciliationResult Unit
  | .mark input => world.settle do
    return { world with marker := some (← store.mark input world.marker) }
  | .abort planEnvelope => world.settle do
    return { world with marker := ← store.abort planEnvelope world.marker }
  | .commitEpoch keyEpoch => world.settle do
    return { world with
      marker := some (← store.update (.epoch keyEpoch) world.marker)
      tabs := world.tabs ++ [.epochCommitted keyEpoch] }
  | .commitCheckpoint tab checkpoint =>
    match world.tabs[tab]? with
    | some (.epochCommitted keyEpoch) => (world.without tab).settle do
      return { world.without tab with
        marker := some (← store.update (.checkpoint keyEpoch checkpoint) world.marker) }
    | _ => (world, .ok ())
  | .resolve input => world.settle do
    let resolution ← store.resolve input.observation world.marker
    return { world with
      tabs := world.tabs ++ [.resolved (input.persistence store.storeId resolution)] }
  | .persist tab generated entropy =>
    match world.tabs[tab]? with
    | some (.resolved resolved) => (world.without tab).settle do
      let (directory, persisted) ← resolved.persist generated entropy world.directory
      return { world.without tab with
        directory
        tabs := world.tabs.eraseIdx tab ++ [.persisted persisted] }
    | _ => (world, .ok ())
  | .complete tab =>
    match world.tabs[tab]? with
    | some (.persisted persisted) => (world.without tab).settle do
      return { world.without tab with marker := ← persisted.complete world.marker }
    | _ => (world, .ok ())
  | .crash tab => (world.without tab, .ok ())
  | .otherWrite directory => ({ world with directory }, .ok ())

/-- The world after a run of steps. -/
def run (store : IdentityReconciliationStore) (world : ReconciliationWorld)
    (steps : List ReconciliationStep) : ReconciliationWorld :=
  steps.foldl (fun world step => (world.perform store step).1) world

/-- The marker stored is a given one. -/
def Marks (world : ReconciliationWorld) (pending : PendingIdentityReconciliation) : Prop :=
  ∃ raw, world.marker = some raw ∧ PendingIdentityReconciliation.decode raw = .ok pending

/-- At no time of a run is the marker missing. -/
def StaysMarked (store : IdentityReconciliationStore) (world : ReconciliationWorld)
    (steps : List ReconciliationStep) : Prop :=
  ∀ before, before <+: steps → (world.run store before).marker.isSome = true

end ReconciliationWorld

/-- The values a step hands to the store are as their types promise them. -/
def ReconciliationStep.Sound (store : IdentityReconciliationStore) : ReconciliationStep → Prop
  | mark input => (input.proposed store.storeId).Sound
  | commitEpoch keyEpoch => keyEpoch.IsParsed
  | commitCheckpoint _ checkpoint => checkpoint.IsParsed
  | _ => True

/-- A later state of one marker. -/
structure PendingIdentityReconciliation.Continues (pending next : PendingIdentityReconciliation) :
    Prop where
  storeId : next.storeId = pending.storeId
  previousKeyEpoch : next.previousKeyEpoch = pending.previousKeyEpoch
  previousCheckpoint : next.previousCheckpoint = pending.previousCheckpoint
  progress : pending.progress.Advances next.progress

theorem PendingIdentityReconciliation.Continues.refl (pending : PendingIdentityReconciliation) :
    pending.Continues pending :=
  ⟨rfl, rfl, rfl, .same _⟩

theorem PendingIdentityReconciliation.Continues.trans
    {first second third : PendingIdentityReconciliation} (before : first.Continues second)
    (after : second.Continues third) : first.Continues third :=
  ⟨after.storeId.trans before.storeId, after.previousKeyEpoch.trans before.previousKeyEpoch,
    after.previousCheckpoint.trans before.previousCheckpoint, before.progress.trans after.progress⟩

/-- The values of an update are as their types promise them. -/
def ReconciliationUpdate.Sound : ReconciliationUpdate → Prop
  | epoch keyEpoch => keyEpoch.IsParsed
  | checkpoint _ committed => committed.IsParsed

/-- An update stores sound values only: the key epoch of a checkpoint is the marker's own. -/
theorem ReconciliationUpdate.sound_applyProgress {update : ReconciliationUpdate}
    {progress after : PendingIdentityReconciliationProgress} (values : update.Sound)
    (sound : progress.Sound) (applied : update.applyProgress progress = .ok after) :
    after.Sound := by
  cases update with
  | epoch expected =>
    cases progress with
    | prepared planEnvelope =>
      cases applied
      exact ⟨values, sound⟩
    | epochCommitted keyEpoch planEnvelope =>
      simp only [applyProgress] at applied
      split at applied
      · cases applied
        exact sound
      · cases applied
    | committed keyEpoch checkpoint => cases applied
  | checkpoint expected committed =>
    cases progress with
    | prepared planEnvelope => cases applied
    | epochCommitted keyEpoch planEnvelope =>
      simp only [applyProgress] at applied
      split at applied
      · cases applied
        exact ⟨sound.1, values⟩
      · cases applied
    | committed keyEpoch checkpoint =>
      simp only [applyProgress] at applied
      split at applied
      · cases applied
        exact sound
      · cases applied

theorem ReconciliationUpdate.continues_apply {update : ReconciliationUpdate}
    {pending next : PendingIdentityReconciliation} (applied : update.apply pending = .ok next) :
    pending.Continues next := by
  obtain ⟨progress, moved, same⟩ := apply_eq_ok.mp applied
  rw [same]
  exact ⟨rfl, rfl, rfl, advances_applyProgress moved⟩

/-! ### What one step does to the marker -/

namespace ReconciliationWorld

variable [JsonText] [Age] {store : IdentityReconciliationStore} {world : ReconciliationWorld}
  {raw : Str} {step : ReconciliationStep}

/-- The ways a step leaves a stored marker. -/
inductive MarkerStep (store : IdentityReconciliationStore) (world : ReconciliationWorld)
    (raw : Str) (step : ReconciliationStep) : Option Str → Prop where
  | kept : MarkerStep store world raw step (some raw)
  | updated (update : ReconciliationUpdate) (pending next : PendingIdentityReconciliation)
      (values : step.Sound store → update.Sound)
      (read : PendingIdentityReconciliation.decode raw = .ok pending)
      (applied : update.apply pending = .ok next) :
      MarkerStep store world raw step (some next.encode)
  | aborted (plan : AgeArmoredCiphertext) (pending : PendingIdentityReconciliation)
      (aborts : step = .abort plan)
      (read : PendingIdentityReconciliation.decode raw = .ok pending)
      (prepared : store.preparedFor plan pending = true) : MarkerStep store world raw step none
  | consumed (tab : Nat) (persisted : PersistedIdentityReconciliation)
      (completes : step = .complete tab) (held : world.tabs[tab]? = some (.persisted persisted))
      (consumes : persisted.consumedMarker = .consumeExact raw) :
      MarkerStep store world raw step none

omit [Age] in
theorem markerStep_update {update : ReconciliationUpdate} {stored : Str}
    (values : step.Sound store → update.Sound)
    (updated : store.update update (some raw) = .ok stored) :
    MarkerStep store world raw step (some stored) := by
  obtain ⟨pending, next, read, _, applied, same⟩ :=
    IdentityReconciliationStore.update_eq_ok.mp updated
  rw [same]
  exact .updated update pending next values read applied

theorem markerStep_perform (store : IdentityReconciliationStore)
    (marked : world.marker = some raw) (step : ReconciliationStep) :
    MarkerStep store world raw step (world.perform store step).1.marker := by
  have stays : MarkerStep store world raw step world.marker := by
    rw [marked]
    exact .kept
  cases step with
  | mark input =>
    cases ran : store.mark input world.marker with
    | error cause => simpa only [perform, ran, settle_error] using stays
    | ok stored =>
      rw [marked] at ran
      simp only [perform, marked, ran, settle_ok]
      rw [(IdentityReconciliationStore.mark_some_eq_ok.mp ran).1]
      exact .kept
  | abort plan =>
    cases ran : store.abort plan world.marker with
    | error cause => simpa only [perform, ran, settle_error] using stays
    | ok after =>
      rw [marked] at ran
      obtain ⟨pending, read, same⟩ := IdentityReconciliationStore.abort_eq_ok.mp ran
      simp only [perform, marked, ran, settle_ok]
      by_cases prepared : store.preparedFor plan pending = true
      · rw [same, if_pos prepared]
        exact .aborted plan pending rfl read prepared
      · rw [same, if_neg prepared]
        exact .kept
  | commitEpoch keyEpoch =>
    cases ran : store.update (.epoch keyEpoch) world.marker with
    | error cause => simpa only [perform, ran, settle_error] using stays
    | ok stored =>
      rw [marked] at ran
      simp only [perform, marked, ran, settle_ok]
      exact markerStep_update id ran
  | commitCheckpoint tab checkpoint =>
    simp only [perform]
    split
    · rename_i keyEpoch _
      cases ran : store.update (.checkpoint keyEpoch checkpoint) world.marker with
      | error cause => simpa only [ran, settle_error, without_marker] using stays
      | ok stored =>
        rw [marked] at ran
        simp only [settle_ok]
        exact markerStep_update id ran
    · exact stays
  | resolve input =>
    cases ran : store.resolve input.observation world.marker with
    | error cause => simpa only [perform, ran, settle_error] using stays
    | ok resolution => simpa only [perform, ran, settle_ok] using stays
  | persist tab generated entropy =>
    simp only [perform]
    split
    · rename_i resolved _
      cases ran : resolved.persist generated entropy world.directory with
      | error cause => simpa only [ran, settle_error, without_marker] using stays
      | ok written => simpa only [ran, settle_ok, without_marker] using stays
    · exact stays
  | complete tab =>
    simp only [perform]
    split
    · rename_i persisted held
      cases consumed : persisted.consumedMarker with
      | noMarker =>
        simpa only [PersistedIdentityReconciliation.complete, consumed, settle_ok] using stays
      | consumeExact marker =>
        simp only [PersistedIdentityReconciliation.complete, consumed, marked, settle_ok,
          IdentityReconciliationStore.clearConsumed_some]
        by_cases same : raw = marker
        · rw [if_pos same]
          exact .consumed tab persisted rfl held (by rw [consumed, same])
        · rw [if_neg same]
          exact .kept
    · exact stays
  | crash tab => exact stays
  | otherWrite directory => exact stays

/-- A marker is kept by every step, or moved on. -/
theorem Marks.perform {pending : PendingIdentityReconciliation} (marks : world.Marks pending)
    (readsBack : ∀ pending : PendingIdentityReconciliation, pending.Sound →
      pending.toJson.ReadsBack) (sound : step.Sound store)
    (stays : (world.perform store step).1.marker.isSome = true) :
    ∃ next, (world.perform store step).1.Marks next ∧ pending.Continues next := by
  obtain ⟨raw, marked, read⟩ := marks
  have shape := markerStep_perform store marked step
  revert shape
  generalize after : (world.perform store step).1.marker = marker at stays
  intro shape
  cases shape with
  | kept => exact ⟨pending, ⟨raw, after, read⟩, .refl pending⟩
  | updated update own next values found applied =>
    rw [read] at found
    cases found
    have continues := ReconciliationUpdate.continues_apply applied
    obtain ⟨progress, moved, same⟩ := ReconciliationUpdate.apply_eq_ok.mp applied
    have before := PendingIdentityReconciliation.sound_of_decode read
    have nextSound : next.Sound := by
      rw [same]
      exact ⟨before.storeId, before.previousKeyEpoch, before.previousCheckpoint,
        ReconciliationUpdate.sound_applyProgress (values sound) before.progress moved⟩
    exact ⟨next, ⟨_, after, PendingIdentityReconciliation.decode_encode nextSound
      (readsBack next nextSound)⟩, continues⟩
  | aborted => cases stays
  | consumed => cases stays

/-! ### Runs -/

@[simp] theorem run_nil (world : ReconciliationWorld) : world.run store [] = world := rfl

theorem run_append (world : ReconciliationWorld) (before after : List ReconciliationStep) :
    world.run store (before ++ after) = (world.run store before).run store after := by
  unfold run
  exact List.foldl_append

theorem run_concat (world : ReconciliationWorld) (steps : List ReconciliationStep)
    (step : ReconciliationStep) :
    world.run store (steps ++ [step]) = ((world.run store steps).perform store step).1 :=
  run_append world steps [step]

/-- Until it is deleted a marker is kept, or moved on. -/
theorem Marks.run {pending : PendingIdentityReconciliation} (marks : world.Marks pending)
    (readsBack : ∀ pending : PendingIdentityReconciliation, pending.Sound →
      pending.toJson.ReadsBack) {steps : List ReconciliationStep}
    (sound : ∀ step ∈ steps, step.Sound store) (stays : world.StaysMarked store steps) :
    ∃ next, (world.run store steps).Marks next ∧ pending.Continues next := by
  induction steps using List.reverseRecOn with
  | nil => exact ⟨pending, marks, .refl pending⟩
  | append_singleton steps step ih =>
    have earlier : world.StaysMarked store steps := fun before shorter =>
      stays before (shorter.trans (List.prefix_append steps [step]))
    obtain ⟨next, marksNext, continues⟩ :=
      ih (fun own member => sound own (List.mem_append_left _ member)) earlier
    have last := stays (steps ++ [step]) (List.prefix_refl _)
    rw [run_concat] at last ⊢
    obtain ⟨final, marksFinal, later⟩ :=
      marksNext.perform readsBack (sound step (by simp)) last
    exact ⟨final, marksFinal, continues.trans later⟩

/-! ### Where a continuation comes from -/

/-- A resolution of the run read a marker, and names it for its cleanup. -/
def ResolvedIn (store : IdentityReconciliationStore) (start : ReconciliationWorld)
    (steps : List ReconciliationStep) (resolved : ResolvedIdentityPersistence) (marker : Str) :
    Prop :=
  ∃ before input after, steps = before ++ .resolve input :: after ∧
    (start.run store before).marker = some marker ∧
    store.resolve input.observation (some marker) = .ok resolved.resolution

/-- A reconciliation of the run wrote its directory, for a resolution that read a marker. -/
def PersistedIn (store : IdentityReconciliationStore) (start : ReconciliationWorld)
    (steps : List ReconciliationStep) (persisted : PersistedIdentityReconciliation)
    (marker : Str) : Prop :=
  ∃ before tab generated entropy after resolved directory,
    steps = before ++ .persist tab generated entropy :: after ∧
    (start.run store before).tabs[tab]? = some (.resolved resolved) ∧
    resolved.persist generated entropy (start.run store before).directory =
      .ok (.stored directory, persisted) ∧
    ResolvedIn store start before resolved marker

/-- A continuation that would delete a marker comes from the steps that it has to come from. -/
def Traced (store : IdentityReconciliationStore) (start : ReconciliationWorld)
    (steps : List ReconciliationStep) : ReconciliationContinuation → Prop
  | .epochCommitted _ => True
  | .resolved resolved => ∀ marker, resolved.resolution.consumedMarker = .consumeExact marker →
    ResolvedIn store start steps resolved marker
  | .persisted persisted => ∀ marker, persisted.consumedMarker = .consumeExact marker →
    PersistedIn store start steps persisted marker

variable {start : ReconciliationWorld} {steps : List ReconciliationStep}

theorem Traced.concat {continuation : ReconciliationContinuation}
    (traced : Traced store start steps continuation) (step : ReconciliationStep) :
    Traced store start (steps ++ [step]) continuation := by
  cases continuation with
  | epochCommitted keyEpoch => trivial
  | resolved resolved =>
    intro marker consumes
    obtain ⟨before, input, after, same, rest⟩ := traced marker consumes
    exact ⟨before, input, after ++ [step], by simp [same], rest⟩
  | persisted persisted =>
    intro marker consumes
    obtain ⟨before, tab, generated, entropy, after, resolved, directory, same, rest⟩ :=
      traced marker consumes
    exact ⟨before, tab, generated, entropy, after ++ [step], resolved, directory, by simp [same],
      rest⟩

theorem traced_run (fresh : start.tabs = []) :
    ∀ continuation ∈ (start.run store steps).tabs, Traced store start steps continuation := by
  induction steps using List.reverseRecOn with
  | nil =>
    rw [run_nil, fresh]
    simp
  | append_singleton steps step ih =>
    have before : ∀ continuation ∈ (start.run store steps).tabs,
        Traced store start (steps ++ [step]) continuation :=
      fun continuation member => (ih continuation member).concat step
    have fewer : ∀ tab, ∀ continuation ∈ (start.run store steps).tabs.eraseIdx tab,
        Traced store start (steps ++ [step]) continuation :=
      fun tab continuation member => before continuation (List.mem_of_mem_eraseIdx member)
    have grown : ∀ {tabs : List ReconciliationContinuation} {own : ReconciliationContinuation},
        (∀ continuation ∈ tabs, Traced store start (steps ++ [step]) continuation) →
          Traced store start (steps ++ [step]) own →
            ∀ continuation ∈ tabs ++ [own], Traced store start (steps ++ [step]) continuation := by
      intro tabs own others traced continuation member
      rcases List.mem_append.mp member with earlier | last
      · exact others continuation earlier
      · rw [List.mem_singleton.mp last]
        exact traced
    rw [run_concat]
    generalize reached : start.run store steps = world at before fewer ih
    cases step with
    | mark input =>
      cases ran : store.mark input world.marker with
      | error cause => simpa only [perform, ran, settle_error] using before
      | ok stored => simpa only [perform, ran, settle_ok] using before
    | abort plan =>
      cases ran : store.abort plan world.marker with
      | error cause => simpa only [perform, ran, settle_error] using before
      | ok after => simpa only [perform, ran, settle_ok] using before
    | commitEpoch keyEpoch =>
      cases ran : store.update (.epoch keyEpoch) world.marker with
      | error cause => simpa only [perform, ran, settle_error] using before
      | ok stored =>
        simp only [perform, ran, settle_ok]
        exact grown before trivial
    | commitCheckpoint tab checkpoint =>
      simp only [perform]
      split
      · rename_i keyEpoch _
        cases ran : store.update (.checkpoint keyEpoch checkpoint) world.marker with
        | error cause => simpa only [ran, settle_error, without_tabs] using fewer tab
        | ok stored => simpa only [ran, settle_ok, without_tabs] using fewer tab
      · exact before
    | resolve input =>
      cases ran : store.resolve input.observation world.marker with
      | error cause => simpa only [perform, ran, settle_error] using before
      | ok resolution =>
        simp only [perform, ran, settle_ok]
        refine grown before fun marker consumes => ?_
        have marked := IdentityReconciliationStore.resolve_consumes ran consumes
        refine ⟨steps, input, [], rfl, by rw [reached, marked], ?_⟩
        rw [← marked]
        exact ran
    | persist tab generated entropy =>
      simp only [perform]
      split
      · rename_i resolved held
        cases ran : resolved.persist generated entropy world.directory with
        | error cause => simpa only [ran, settle_error, without_tabs] using fewer tab
        | ok outcome =>
          obtain ⟨written, persisted⟩ := outcome
          simp only [settle_ok]
          refine grown (fewer tab) fun marker consumes => ?_
          obtain ⟨same, directory, stored, _⟩ := ResolvedIdentityPersistence.persist_eq_ok ran
          have own := ih (.resolved resolved) (List.mem_of_getElem? held) marker
            (by rw [← same, consumes])
          refine ⟨steps, tab, generated, entropy, [], resolved, directory, rfl, ?_, ?_, own⟩
          · rw [reached, held]
          · rw [reached, ran, stored]
      · exact before
    | complete tab =>
      simp only [perform]
      split
      · rename_i persisted _
        cases ran : persisted.complete world.marker with
        | error cause => simpa only [ran, settle_error, without_tabs] using fewer tab
        | ok after => simpa only [ran, settle_ok, without_tabs] using fewer tab
      · exact before
    | crash tab => exact fewer tab
    | otherWrite directory => exact before

/-- The marker of a cleanup was committed when it was resolved, for this vault. -/
theorem ResolvedIn.committed {resolved : ResolvedIdentityPersistence} {marker : Str}
    (traced : ResolvedIn store start steps resolved marker) :
    ∃ pending keyEpoch checkpoint, PendingIdentityReconciliation.decode marker = .ok pending ∧
      pending.storeId = store.storeId ∧ pending.progress = .committed keyEpoch checkpoint := by
  obtain ⟨_, _, _, _, _, ran⟩ := traced
  obtain ⟨pending, keyEpoch, checkpoint, _, _, read, can, _⟩ :=
    IdentityReconciliationStore.resolve_some_eq_ok.mp ran
  exact ⟨pending, keyEpoch, checkpoint, read, can.own, can.committed⟩

theorem PersistedIn.committed {persisted : PersistedIdentityReconciliation} {marker : Str}
    (traced : PersistedIn store start steps persisted marker) :
    ∃ pending keyEpoch checkpoint, PendingIdentityReconciliation.decode marker = .ok pending ∧
      pending.storeId = store.storeId ∧ pending.progress = .committed keyEpoch checkpoint := by
  obtain ⟨_, _, _, _, _, _, _, _, _, _, resolved⟩ := traced
  exact resolved.committed

/-- The two ways a marker is deleted. -/
inductive DeletedBy (store : IdentityReconciliationStore) (start : ReconciliationWorld)
    (steps : List ReconciliationStep) (raw : Str) : ReconciliationStep → Prop where
  | abort (plan : AgeArmoredCiphertext) (pending : PendingIdentityReconciliation)
      (read : PendingIdentityReconciliation.decode raw = .ok pending)
      (own : pending.storeId = store.storeId) (prepared : pending.progress = .prepared plan) :
      DeletedBy store start steps raw (.abort plan)
  | complete (tab : Nat) (persisted : PersistedIdentityReconciliation)
      (pending : PendingIdentityReconciliation) (keyEpoch checkpoint : IdentityVaultEventId)
      (held : (start.run store steps).tabs[tab]? = some (.persisted persisted))
      (written : PersistedIn store start steps persisted raw)
      (read : PendingIdentityReconciliation.decode raw = .ok pending)
      (own : pending.storeId = store.storeId)
      (committed : pending.progress = .committed keyEpoch checkpoint) :
      DeletedBy store start steps raw (.complete tab)

theorem deletedBy_of_none (fresh : start.tabs = []) {raw : Str} {step : ReconciliationStep}
    (marked : (start.run store steps).marker = some raw)
    (deleted : (start.run store (steps ++ [step])).marker = none) :
    DeletedBy store start steps raw step := by
  have shape := markerStep_perform store marked step
  rw [← run_concat, deleted] at shape
  cases shape with
  | aborted plan pending aborts read prepared =>
    rw [aborts]
    unfold IdentityReconciliationStore.preparedFor at prepared
    obtain ⟨own, still⟩ := of_decide_eq_true prepared
    exact .abort plan pending read own still
  | consumed tab persisted completes held consumes =>
    rw [completes]
    have written := traced_run fresh (.persisted persisted) (List.mem_of_getElem? held) raw consumes
    obtain ⟨pending, keyEpoch, checkpoint, read, own, committed⟩ := written.committed
    exact .complete tab persisted pending keyEpoch checkpoint held written read own committed

/-- Marking succeeds beside a marker exactly when that is the proposed rotation, still prepared,
and then changes nothing. -/
theorem mark_answer (store : IdentityReconciliationStore) {raw : Str}
    (marked : world.marker = some raw) (input : ReconciliationIntent) :
    ((world.perform store (.mark input)).2 = .ok () ↔
      PendingIdentityReconciliation.decode raw = .ok (input.proposed store.storeId)) ∧
    (world.perform store (.mark input)).1 = world := by
  cases ran : store.mark input (some raw) with
  | error cause =>
    rw [← marked] at ran
    simp only [perform, ran, settle_error, and_true, reduceCtorEq, false_iff]
    intro read
    rw [marked, IdentityReconciliationStore.mark_some_eq_ok.mpr ⟨rfl, read⟩] at ran
    cases ran
  | ok stored =>
    have own := IdentityReconciliationStore.mark_some_eq_ok.mp ran
    rw [← marked] at ran
    simp only [perform, ran, settle_ok, own.2, true_and]
    rw [own.1, ← marked]

/-- Once it succeeds, marking leaves the proposed rotation behind. -/
theorem marks_of_mark {input : ReconciliationIntent}
    (readsBack : ∀ pending : PendingIdentityReconciliation, pending.Sound →
      pending.toJson.ReadsBack) (sound : (input.proposed store.storeId).Sound)
    (answered : (world.perform store (.mark input)).2 = .ok ()) :
    (world.perform store (.mark input)).1.Marks (input.proposed store.storeId) := by
  cases marked : world.marker with
  | none =>
    refine ⟨(input.proposed store.storeId).encode, ?_,
      PendingIdentityReconciliation.decode_encode sound (readsBack _ sound)⟩
    simp only [perform, marked, IdentityReconciliationStore.mark, settle_ok]
  | some raw =>
    have own := mark_answer store marked input
    exact ⟨raw, by rw [own.2, marked], own.1.mp answered⟩

/-- A pending rotation is not lost, swapped or consumed early: what is marked is kept until it
is deleted, with its progress moving on only; beside it only the same rotation is marked; it is
deleted by an abort for its own plan while it is prepared, or after a directory write for the
committed marker with exactly its bytes; and it is resolved only once it is committed, in the
verified history and not after what was observed. -/
theorem pending_rotation_kept (readsBack : ∀ pending : PendingIdentityReconciliation,
      pending.Sound → pending.toJson.ReadsBack)
    {steps : List ReconciliationStep} (sound : ∀ step ∈ steps, step.Sound store)
    (fresh : start.tabs = []) :
    (∀ before after pending, before ++ after = steps → (start.run store before).Marks pending →
      (start.run store before).StaysMarked store after →
        ∃ next, (start.run store steps).Marks next ∧ pending.Continues next) ∧
    (∀ before input after, before ++ .mark input :: after = steps →
      ((start.run store before).perform store (.mark input)).2 = .ok () →
        (start.run store (before ++ [.mark input])).Marks (input.proposed store.storeId)) ∧
    (∀ raw input, (start.run store steps).marker = some raw →
      (((start.run store steps).perform store (.mark input)).2 = .ok () ↔
        PendingIdentityReconciliation.decode raw = .ok (input.proposed store.storeId))) ∧
    (∀ raw step, (start.run store steps).marker = some raw →
      (start.run store (steps ++ [step])).marker = none →
        DeletedBy store start steps raw step) ∧
    (∀ raw input resolution, (start.run store steps).marker = some raw →
      store.resolve input (start.run store steps).marker = .ok resolution →
        ∃ pending keyEpoch checkpoint observedEpoch observedCheckpoint,
          PendingIdentityReconciliation.decode raw = .ok pending ∧
          store.Resolvable input pending keyEpoch checkpoint observedEpoch observedCheckpoint ∧
          resolution.consumedMarker = .consumeExact raw) := by
  refine ⟨?_, ?_, ?_, ?_, ?_⟩
  · intro before after pending whole marks stays
    have later : ∀ step ∈ after, step.Sound store := fun step member =>
      sound step (by rw [← whole]; exact List.mem_append_right _ member)
    rw [← whole, run_append]
    exact marks.run readsBack later stays
  · intro before input after whole answered
    have own : (input.proposed store.storeId).Sound := sound (.mark input) (by simp [← whole])
    rw [run_concat]
    exact marks_of_mark readsBack own answered
  · intro raw input marked
    exact (mark_answer store marked input).1
  · intro raw step marked deleted
    exact deletedBy_of_none fresh marked deleted
  · intro raw input resolution marked resolved
    rw [marked] at resolved
    obtain ⟨pending, keyEpoch, checkpoint, observedEpoch, observedCheckpoint, read, can, same⟩ :=
      IdentityReconciliationStore.resolve_some_eq_ok.mp resolved
    exact ⟨pending, keyEpoch, checkpoint, observedEpoch, observedCheckpoint, read, can,
      by rw [same]⟩

end ReconciliationWorld

end Nook.Auth

namespace Nook.Auth.TestSupport

open Nook.Lib Nook.EventLog

/-! Markers as they are written, with a plan that needs no escapes. -/

def quoted (name : String) : Str := "\",\"".toList ++ name.toList ++ "\":\"".toList

def markerLead : Str := "\x7b\"storeId\":\"".toList

def kindLead : Str := "\",\"progress\":\x7b\"kind\":\"".toList

def markerClose : Str := "\"\x7d\x7d".toList

/-- The field behind a lead, up to the next quote, and what follows. -/
def markerField (lead text : Str) : Option (Str × Str) :=
  (stripPrefix text lead).map fun rest => (rest.takeWhile (· ≠ '"'), rest.dropWhile (· ≠ '"'))

def lastField (name : String) (text : Str) : Option Json :=
  (stripPrefix text (quoted name)).map fun rest => .text (rest.take (rest.length - 3))

def progressText : List (String × Json) → Str
  | [(_, .text kind), (name, .text value)] => kind ++ (quoted name ++ (value ++ markerClose))
  | [(_, .text kind), (name, .text value), (last, .text ending)] =>
    kind ++ (quoted name ++ (value ++ (quoted last ++ (ending ++ markerClose))))
  | _ => []

def progressFields (kind rest : Str) : Option (List (String × Json)) :=
  if kind = "prepared".toList then
    (lastField "plan_envelope" rest).map fun plan => [("kind", .text kind), ("plan_envelope", plan)]
  else
    let last := if kind = "epoch-committed".toList then "plan_envelope" else "checkpoint"
    (markerField (quoted "key_epoch") rest).bind fun (keyEpoch, rest) =>
      (lastField last rest).map fun ending =>
        [("kind", .text kind), ("key_epoch", .text keyEpoch), (last, ending)]

@[reducible] def markerJson : JsonText where
  print
    | .object [(_, .text storeId), (_, .text keyEpoch), (_, .text checkpoint),
        (_, .object progress)] =>
      markerLead ++ (storeId ++ (quoted "previousKeyEpoch" ++ (keyEpoch ++
        (quoted "previousCheckpoint" ++ (checkpoint ++ (kindLead ++ progressText progress))))))
    | _ => "null".toList
  parse text :=
    (markerField markerLead text).bind fun (storeId, rest) =>
    (markerField (quoted "previousKeyEpoch") rest).bind fun (keyEpoch, rest) =>
    (markerField (quoted "previousCheckpoint") rest).bind fun (checkpoint, rest) =>
    (markerField kindLead rest).bind fun (kind, rest) =>
    (progressFields kind rest).map fun progress => .object [("storeId", .text storeId),
      ("previousKeyEpoch", .text keyEpoch), ("previousCheckpoint", .text checkpoint),
      ("progress", .object progress)]

attribute [local instance] markerJson

theorem markerField_append {value : Str} (lead : Str) (free : '"' ∉ value) {rest : Str}
    (quote : rest.head? = some '"') :
    markerField lead (lead ++ (value ++ rest)) = some (value, rest) := by
  have kept : ∀ char ∈ value, (decide (char ≠ '"')) = true := by
    intro char member
    exact decide_eq_true fun same => free (same ▸ member)
  have stripped : stripPrefix (lead ++ (value ++ rest)) lead = some (value ++ rest) :=
    stripPrefix_eq_some.mpr rfl
  obtain ⟨tail, same⟩ := List.head?_eq_some_iff.mp quote
  unfold markerField
  rw [stripped, Option.map_some, List.takeWhile_append_of_pos kept,
    List.dropWhile_append_of_pos kept, same]
  simp

theorem head?_quoted (name : String) (rest : Str) : (quoted name ++ rest).head? = some '"' := by
  simp [quoted]

theorem lastField_append (name : String) (value : Str) :
    lastField name (quoted name ++ (value ++ markerClose)) = some (.text value) := by
  have stripped : stripPrefix (quoted name ++ (value ++ markerClose)) (quoted name) =
      some (value ++ markerClose) := stripPrefix_eq_some.mpr rfl
  have closing : markerClose.length = 3 := rfl
  unfold lastField
  rw [stripped, Option.map_some, List.length_append, closing, Nat.add_sub_cancel, List.take_left]

theorem quote_free_of_isParsed {id : IdentityVaultEventId} (parsed : id.IsParsed) :
    '"' ∉ id.asStr := by
  unfold IdentityVaultEventId.IsParsed IdentityVaultEventId.parse? at parsed
  simp only at parsed
  split at parsed
  · rename_i digest stripped
    split at parsed
    · rename_i valid
      have whole := stripPrefix_eq_some.mp stripped
      have same : trim id.asStr = id.asStr := congrArg IdentityVaultEventId.asStr
        (Option.some.inj parsed)
      rw [← same, whole]
      intro member
      rcases List.mem_append.mp member with lead | inside
      · exact absurd lead (by decide)
      · have safe : ∀ char ∈ digest, isUrlSafe char = true := List.all_eq_true.mp valid.2
        exact not_mem_of_isUrlSafe safe (by decide) inside
    · cases parsed
  · cases parsed

/-- The tail of a marker's text is read back. -/
theorem progressFields_progressText {progress : PendingIdentityReconciliationProgress}
    (sound : progress.Sound) : ∃ kind fields rest, progress.toJson = .object fields ∧
      progressText fields = kind ++ rest ∧ '"' ∉ kind ∧ rest.head? = some '"' ∧
      progressFields kind rest = some fields := by
  cases progress with
  | prepared planEnvelope =>
    refine ⟨"prepared".toList, [("kind", .text "prepared".toList),
      ("plan_envelope", .text planEnvelope.asStr)],
      quoted "plan_envelope" ++ (planEnvelope.asStr ++ markerClose), rfl, rfl, by decide,
      head?_quoted _ _, ?_⟩
    unfold progressFields
    rw [if_pos rfl, lastField_append, Option.map_some]
  | epochCommitted keyEpoch planEnvelope =>
    refine ⟨"epoch-committed".toList, [("kind", .text "epoch-committed".toList),
      ("key_epoch", .text keyEpoch.asStr), ("plan_envelope", .text planEnvelope.asStr)],
      quoted "key_epoch" ++ (keyEpoch.asStr ++ (quoted "plan_envelope" ++
        (planEnvelope.asStr ++ markerClose))), rfl, rfl, by decide, head?_quoted _ _, ?_⟩
    unfold progressFields
    rw [if_neg (by decide), if_pos rfl,
      markerField_append _ (quote_free_of_isParsed sound.1) (head?_quoted _ _), Option.bind_some]
    dsimp only
    rw [lastField_append, Option.map_some]
  | committed keyEpoch checkpoint =>
    refine ⟨"committed".toList, [("kind", .text "committed".toList),
      ("key_epoch", .text keyEpoch.asStr), ("checkpoint", .text checkpoint.asStr)],
      quoted "key_epoch" ++ (keyEpoch.asStr ++ (quoted "checkpoint" ++
        (checkpoint.asStr ++ markerClose))), rfl, rfl, by decide, head?_quoted _ _, ?_⟩
    unfold progressFields
    rw [if_neg (by decide), if_neg (by decide),
      markerField_append _ (quote_free_of_isParsed sound.1) (head?_quoted _ _), Option.bind_some]
    dsimp only
    rw [lastField_append, Option.map_some]

/-- Every sound marker is read back from its text. -/
theorem readsBack_markerJson (pending : PendingIdentityReconciliation) (sound : pending.Sound) :
    pending.toJson.ReadsBack := by
  obtain ⟨storeId, previousKeyEpoch, previousCheckpoint, progress⟩ := pending
  obtain ⟨kind, fields, rest, object, text, kindFree, quote, read⟩ :=
    progressFields_progressText sound.progress
  have storeFree : '"' ∉ storeId.asStr :=
    not_mem_of_isUrlSafe (StoreId.isUrlSafe_of_parsed sound.storeId) (by decide)
  have whole : (PendingIdentityReconciliation.mk storeId previousKeyEpoch previousCheckpoint
      progress).toJson = .object [("storeId", .text storeId.asStr),
        ("previousKeyEpoch", .text previousKeyEpoch.asStr),
        ("previousCheckpoint", .text previousCheckpoint.asStr), ("progress", .object fields)] := by
    rw [← object]
    rfl
  have printed : JsonText.print (PendingIdentityReconciliation.mk storeId previousKeyEpoch
      previousCheckpoint progress).toJson = markerLead ++ (storeId.asStr ++
        (quoted "previousKeyEpoch" ++ (previousKeyEpoch.asStr ++ (quoted "previousCheckpoint" ++
          (previousCheckpoint.asStr ++ (kindLead ++ (kind ++ rest))))))) := by
    rw [whole, ← text]
    rfl
  unfold Json.ReadsBack
  rw [printed, whole]
  show (markerField _ _).bind _ = _
  rw [markerField_append _ storeFree (head?_quoted _ _), Option.bind_some]
  dsimp only
  rw [markerField_append _ (quote_free_of_isParsed sound.previousKeyEpoch) (head?_quoted _ _),
    Option.bind_some]
  dsimp only
  rw [markerField_append _ (quote_free_of_isParsed sound.previousCheckpoint) rfl, Option.bind_some]
  dsimp only
  rw [markerField_append _ kindFree quote, Option.bind_some]
  dsimp only
  rw [read, Option.map_some]

def eventIdOf (fill : Char) : IdentityVaultEventId :=
  ⟨"sha256u:".toList ++ List.replicate 43 fill⟩

def laptopStore : IdentityReconciliationStore := ⟨storeId⟩

def rotationPlan : AgeArmoredCiphertext := ⟨"-----BEGIN AGE ENCRYPTED FILE-----".toList⟩

def rotationIntent : ReconciliationIntent := ⟨eventIdOf 'a', eventIdOf 'b', rotationPlan⟩

/-- A rotation that a tab takes up to its checkpoint. -/
def rotationSteps : List ReconciliationStep :=
  [.mark rotationIntent, .commitEpoch (eventIdOf 'c'), .commitCheckpoint 0 (eventIdOf 'd')]

def emptyWorld : ReconciliationWorld := ⟨none, .missingKey, []⟩

theorem sound_rotationSteps : ∀ step ∈ rotationSteps, step.Sound laptopStore := by
  intro step member
  simp only [rotationSteps, List.mem_cons, List.not_mem_nil, or_false] at member
  rcases member with rfl | rfl | rfl
  · have armored : IsArmored rotationPlan := by decide +kernel
    exact ⟨by decide +kernel, by decide +kernel, by decide +kernel, armored⟩
  · show (eventIdOf 'c').IsParsed
    decide +kernel
  · show (eventIdOf 'd').IsParsed
    decide +kernel

theorem pending_rotation_kept_laptop : ∃ next,
    (emptyWorld.run laptopStore rotationSteps).Marks next ∧
      (rotationIntent.proposed storeId).Continues next := by
  have fresh : emptyWorld.tabs = [] := rfl
  have kept := ReconciliationWorld.pending_rotation_kept readsBack_markerJson sound_rotationSteps
    fresh
  have marks := kept.2.1 [] rotationIntent _ rfl rfl
  refine kept.1 [.mark rotationIntent] _ _ rfl marks fun before short => ?_
  have listed := (List.mem_inits _ _).mpr short
  simp only [List.inits, List.map_cons, List.map_nil, List.mem_cons,
    List.not_mem_nil, or_false] at listed
  rcases listed with rfl | rfl | rfl
  · decide +kernel
  · decide +kernel
  · decide +kernel

end Nook.Auth.TestSupport
