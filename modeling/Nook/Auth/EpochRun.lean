import Nook.Auth.EpochOrder
import Nook.Auth.VaultGrantRun

set_option autoImplicit false

namespace Nook.Auth

open Nook.Lib Nook.EventLog

/-- A vault epoch update as it reaches a record, with the randomness of its seals. -/
structure EpochArrival where
  request : IdentityLegacyVaultReconciliation
  entropy : Entropy

namespace IdentityRecord

section

variable [Age]

/-- The record after one update; a refused one hands its record back. -/
def arrive (record : IdentityRecord) (arrival : EpochArrival) : IdentityRecord :=
  match record.reconcileLegacyVaultMember arrival.request arrival.entropy with
  | .ok next => next
  | .error rejection => rejection.identity

def afterArrivals (record : IdentityRecord) (arrivals : List EpochArrival) : IdentityRecord :=
  arrivals.foldl arrive record

/-- The epochs of the updates that are accepted, in order. -/
def acceptedEpochs : IdentityRecord → List EpochArrival → List IdentityVaultDekEpoch
  | _, [] => []
  | record, arrival :: later =>
    match record.reconcileLegacyVaultMember arrival.request arrival.entropy with
    | .ok next => arrival.request.reconciliation.epochUpdate.committedEpoch ::
        next.acceptedEpochs later
    | .error rejection => rejection.identity.acceptedEpochs later

variable {record next : IdentityRecord} {storeId : StoreId} {grant : IdentityVaultDek}
  {graph : EventGraph} {arrivals : List EpochArrival}

/-- Where a run of updates leaves a grant: at the last accepted epoch, which every epoch
accepted before precedes. -/
structure LatestEpoch (graph : EventGraph) (record : IdentityRecord) (grant : IdentityVaultDek)
    (arrivals : List EpochArrival) (last : IdentityVaultDek) : Prop where
  stored : (record.acceptedEpochs arrivals).getLastD grant.keyEpoch = last.keyEpoch
  latest : ∀ epoch ∈ grant.keyEpoch :: record.acceptedEpochs arrivals,
    epoch.Precedes graph last.keyEpoch

theorem latestEpoch_of_arrivals (opens : Age.Opens) (distinct : record.memberIds.Nodup)
    (held : record.vaultDek storeId = some grant)
    (truthful : ∀ arrival ∈ arrivals, arrival.request.storeId = storeId ∧
      arrival.request.reconciliation.epochUpdate.Truthful graph) :
    (record.afterArrivals arrivals).members = record.members ∧
      ∃ last, (record.afterArrivals arrivals).vaultDek storeId = some last ∧
        LatestEpoch graph record grant arrivals last := by
  induction arrivals generalizing record grant with
  | nil =>
    refine ⟨rfl, grant, held, rfl, fun epoch listed => ?_⟩
    rw [List.mem_singleton.mp listed]
    exact .refl graph _
  | cons arrival later ih =>
    obtain ⟨named, honest⟩ := truthful arrival (by simp)
    have rest : ∀ other ∈ later, other.request.storeId = storeId ∧
        other.request.reconciliation.epochUpdate.Truthful graph :=
      fun other inside => truthful other (by simp [inside])
    cases step : record.reconcileLegacyVaultMember arrival.request arrival.entropy with
    | error rejection =>
      have same : rejection.identity = record := rejecting_eq_error step
      have unmoved : record.arrive arrival = record := by
        unfold arrive
        rw [step]
        exact same
      have unlisted : record.acceptedEpochs (arrival :: later) = record.acceptedEpochs later := by
        simp only [acceptedEpochs, step, same]
      obtain ⟨members, last, heldLast, epochs⟩ := ih distinct held rest
      have run : record.afterArrivals (arrival :: later) = record.afterArrivals later :=
        congrArg (fun start => later.foldl arrive start) unmoved
      rw [run]
      exact ⟨members, last, heldLast, unlisted ▸ epochs.stored, unlisted ▸ epochs.latest⟩
    | ok next =>
      have moved : record.arrive arrival = next := by
        unfold arrive
        rw [step]
      have listed : record.acceptedEpochs (arrival :: later) =
          arrival.request.reconciliation.epochUpdate.committedEpoch :: next.acceptedEpochs later := by
        simp only [acceptedEpochs, step]
      obtain ⟨members, _, before, after, heldBefore, follows, heldAfter⟩ :=
        reconcileLegacyVaultMember_current opens distinct step
      rw [named] at heldBefore heldAfter
      rw [held] at heldBefore
      cases heldBefore
      have distinct' : next.memberIds.Nodup := by
        unfold memberIds
        rwa [members]
      obtain ⟨kept, last, heldLast, epochs⟩ := ih distinct' heldAfter rest
      have run : record.afterArrivals (arrival :: later) = next.afterArrivals later :=
        congrArg (fun start => later.foldl arrive start) moved
      have committed := IdentityVaultDekEpoch.next_eq_ok follows
      rw [run]
      refine ⟨kept.trans members, last, heldLast, ?_, ?_⟩
      · rw [listed, List.getLastD_cons, ← committed]
        exact epochs.stored
      · rw [listed, ← committed]
        intro epoch inside
        rcases List.mem_cons.mp inside with rfl | inside
        · exact (IdentityVaultDekEpoch.Precedes.next honest follows).trans
            (epochs.latest _ (by simp))
        · exact epochs.latest epoch inside

/-- The stored epoch of a vault only moves along the events of the vault, whatever updates
arrive in whatever order; after each accepted one its replay changes nothing. -/
theorem vault_epoch_never_moves_back (opens : Age.Opens) (distinct : record.memberIds.Nodup)
    (held : record.vaultDek storeId = some grant)
    (truthful : ∀ arrival ∈ arrivals, arrival.request.storeId = storeId ∧
      arrival.request.reconciliation.epochUpdate.Truthful graph) :
    ∃ last, (record.afterArrivals arrivals).vaultDek storeId = some last ∧
      LatestEpoch graph record grant arrivals last ∧
      (∀ update epoch, update.Truthful graph → last.nextEpoch update = .ok epoch →
        epoch = update.committedEpoch ∧ last.keyEpoch.Precedes graph epoch) ∧
      (∀ request entropy next,
        (record.afterArrivals arrivals).reconcileLegacyVaultMember request entropy = .ok next ∨
          (record.afterArrivals arrivals).vaultDek request.storeId = none ∧
            (record.afterArrivals arrivals).importLegacyVault request entropy = .ok next →
        next.ReportsCurrent request ∧
          ∀ again, next.reconcileLegacyVaultMember request again = .ok next) := by
  obtain ⟨members, last, heldLast, epochs⟩ := latestEpoch_of_arrivals opens distinct held truthful
  have distinct' : (record.afterArrivals arrivals).memberIds.Nodup := by
    unfold memberIds
    rwa [members]
  refine ⟨last, heldLast, epochs, ?_, ?_⟩
  · intro update epoch honest follows
    exact ⟨IdentityVaultDekEpoch.next_eq_ok follows, .next honest follows⟩
  · intro request entropy next accepted
    have current : next.ReportsCurrent request := by
      rcases accepted with reconciled | ⟨unheld, imported⟩
      · exact (reconcileLegacyVaultMember_current opens distinct' reconciled).2.1
      · exact importLegacyVault_current opens distinct' unheld imported
    exact ⟨current, current.again⟩

end

end IdentityRecord

end Nook.Auth

namespace Nook.Auth.TestSupport

open Nook.Lib Nook.EventLog

theorem opens_clearAge : Age.Opens := by
  intro identity plaintext entropy sealed made
  cases made
  have stripped : stripPrefix ((Age.toPublic identity).asStr ++ ' ' :: plaintext)
      ("age1".toList ++ identity ++ [' ']) = some plaintext :=
    stripPrefix_eq_some.mpr (by simp [Age.toPublic])
  simp only [Age.openIdentityBytes, stripped]

def observedEpoch : IdentityVaultDekEpoch :=
  .known ⟨"sha256u:epoch".toList⟩ ⟨"sha256u:checkpoint".toList⟩

/-- The laptop observes a first checkpoint of its vault. -/
def observation : EpochArrival :=
  ⟨⟨laptop, storeId, { observed laptop with
    epochUpdate := .observe observedEpoch [⟨"sha256u:checkpoint".toList⟩] }⟩, fun _ => []⟩

theorem vault_epoch_never_moves_back_observed : ∃ record last, imported = .ok record ∧
    (record.afterArrivals [observation]).vaultDek storeId = some last ∧
      last.keyEpoch = observedEpoch := by
  obtain ⟨record, done, holds⟩ := exists_of_passes imported
    (fun record => decide record.memberIds.Nodup && (record.vaultDek storeId).isSome &&
      decide (record.acceptedEpochs [observation] = [observedEpoch])) (by decide)
  simp only [Bool.and_eq_true, decide_eq_true_eq, Option.isSome_iff_exists] at holds
  obtain ⟨⟨distinct, grant, held⟩, accepted⟩ := holds
  have truthful : ∀ arrival ∈ [observation], arrival.request.storeId = storeId ∧
      arrival.request.reconciliation.epochUpdate.Truthful EventGraph.new := by
    intro arrival inside
    rw [List.mem_singleton.mp inside]
    refine ⟨rfl, fun id listed => ?_⟩
    rw [List.mem_singleton.mp listed]
    exact (EventGraph.new.causal.isAncestor_iff _ _).mpr .refl
  obtain ⟨last, heldLast, epochs, _⟩ :=
    IdentityRecord.vault_epoch_never_moves_back opens_clearAge distinct held truthful
  refine ⟨record, last, done, heldLast, ?_⟩
  rw [← epochs.stored, accepted]
  rfl

end Nook.Auth.TestSupport
