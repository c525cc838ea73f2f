import Nook.IdentityControl.RevokedHolders

set_option autoImplicit false

namespace Nook.IdentityControl

open Nook.Lib Nook.Replication Nook.EventLog Relation

namespace IdentityControlLog

variable {log : IdentityControlLog}

/-- An operation of a recorded event registers or rewraps the vault at the epoch. -/
def SetsEpoch (log : IdentityControlLog) (id : EventId) (storeId : StoreId) (keyEpoch : EventId) :
    Prop :=
  ∃ event, log.events[id]? = some event ∧ ∃ operation ∈ event.body.operations,
    operation.keyEpochOf storeId = some keyEpoch

variable {ordered : List (EventId × IdentityEvent)}

/-- No operation belongs to an event that comes before the event of an earlier one. -/
theorem Ordered.pairwise_operations (listing : log.Ordered ordered)
    (wellFormed : log.causal.WellFormed) :
    (operationsOf ordered).Pairwise fun earlier later =>
      ¬log.causal.Ancestor later.1.1 earlier.1.1 := by
  unfold operationsOf
  rw [List.pairwise_flatMap]
  constructor
  · intro entry listed
    rw [List.pairwise_map]
    apply List.pairwise_of_forall
    intro _ _
    exact ((listing.mem_iff entry.1 entry.2).mp listed).1.acyclic wellFormed
  · have sorted := listing.extension.sorted
    rw [List.pairwise_map] at sorted
    apply sorted.imp
    intro earlier later apart first inFirst second inSecond
    obtain ⟨_, _, same⟩ := List.mem_map.mp inFirst
    obtain ⟨_, _, other⟩ := List.mem_map.mp inSecond
    rw [← same, ← other]
    exact apart

/-- Where the epoch that was set last was set. -/
theorem exists_last_keyEpoch {done : List AppliedOperation} {storeId : StoreId}
    {keyEpoch : EventId}
    (last : (done.filterMap fun step => step.2.keyEpochOf storeId).getLast? = some keyEpoch) :
    ∃ before step after, done = before ++ step :: after ∧
      step.2.keyEpochOf storeId = some keyEpoch ∧
        ∀ other ∈ after, other.2.keyEpochOf storeId = none := by
  rw [List.getLast?_filterMap, List.findSome?_eq_some_iff] at last
  obtain ⟨after, step, before, split, sets, rest⟩ := last
  refine ⟨before.reverse, step, after.reverse, ?_, sets, ?_⟩
  · rw [← List.reverse_reverse done, split]
    simp
  · intro other listed
    exact rest other (List.mem_reverse.mp listed)

/-- The operation that sets an epoch last belongs to an event that no other that
sets one comes after. -/
theorem Ordered.exists_latest (listing : log.Ordered ordered)
    (wellFormed : log.causal.WellFormed) {storeId : StoreId} {keyEpoch : EventId}
    (last : ((operationsOf ordered).filterMap fun step => step.2.keyEpochOf storeId).getLast? =
      some keyEpoch) :
    ∃ id, log.causal.Applicable id ∧ log.SetsEpoch id storeId keyEpoch ∧
      ∀ other epoch, log.causal.Applicable other → log.SetsEpoch other storeId epoch →
        ¬log.causal.Ancestor id other := by
  obtain ⟨before, step, after, split, sets, rest⟩ := exists_last_keyEpoch last
  have sorted := listing.pairwise_operations wellFormed
  have member : step ∈ operationsOf ordered := by simp [split]
  obtain ⟨inside, operation⟩ := (mem_operationsOf ordered step).mp member
  obtain ⟨applicable, recorded⟩ := (listing.mem_iff step.1.1 step.1.2).mp inside
  refine ⟨step.1.1, applicable, ⟨step.1.2, recorded, step.2, operation, sets⟩, ?_⟩
  intro other epoch otherApplicable ⟨event, found, granting, listed, grants⟩ path
  have otherMember : ((other, event), granting) ∈ operationsOf ordered :=
    (mem_operationsOf ordered _).mpr
      ⟨(listing.mem_iff other event).mpr ⟨otherApplicable, found⟩, listed⟩
  rw [split] at sorted otherMember
  rcases List.mem_append.mp otherMember with earlier | later
  · exact (List.pairwise_append.mp sorted).2.2 _ earlier step List.mem_cons_self path
  · rcases List.mem_cons.mp later with same | later
    · rw [← same] at path
      exact otherApplicable.acyclic wellFormed path
    · have absent := rest _ later
      rw [grants] at absent
      cases absent

variable [IdentityExternal]

/-- The current epoch of a projected vault is the one set last by the applicable events
in their order, so an epoch is not current when each event that sets it comes before
one that sets another. -/
theorem currentKeyEpoch_latest (reachable : log.Reachable) {state : IdentityControlState}
    (projected : IdentityControlState.project log = .ok state) {storeId : StoreId}
    {vault : IdentityControlVault} (found : state.vault storeId = some vault) :
    (∃ ordered, log.orderedApplicableEvents = .ok ordered ∧
      ((operationsOf ordered).filterMap fun step => step.2.keyEpochOf storeId).getLast? =
        some vault.currentKeyEpoch) ∧
    ∀ id keyEpoch superseded, log.causal.Applicable id → log.SetsEpoch id storeId keyEpoch →
      (∀ other, log.causal.Applicable other → log.SetsEpoch other storeId superseded →
        log.causal.Ancestor other id) → vault.currentKeyEpoch ≠ superseded := by
  have sound := reachable.sound
  obtain ⟨ordered, accumulator, active, projects⟩ := sound.projects
  have held := ((projects.vault_eq_some projected storeId vault).mp found).2
  have last := projects.vaultRecords.current storeId
  rw [(VaultAccumulator.project_eq_some held).2.2, eq_comm] at last
  refine ⟨⟨ordered, projects.sorted, last⟩, ?_⟩
  intro id keyEpoch superseded applicable sets before same
  rw [same] at last
  obtain ⟨latest, latestApplicable, latestSets, unfollowed⟩ :=
    projects.listing.exists_latest sound.indexed.wellFormed last
  exact unfollowed id keyEpoch applicable sets (before latest latestApplicable latestSets)

end IdentityControlLog

namespace TestSupport

open Nook.EventLog.TestSupport

def rewrap (epoch : Char) : IdentityControlOperation :=
  .vaultDekGranted heldVault (eventId epoch) [⟨(keys '1').appId, ⟨[]⟩, ⟨[]⟩⟩]

/-- A vault at the epoch `e` that rotates to `f`. -/
def rotatedEvents : List IdentityEvent :=
  [founded 'g' '1', signed 'a' '1' ['g'] [approve '2'], signed 'v' '1' ['a'] [registerFor '1'],
    signed 'b' '1' ['v'] [rewrap 'f']]

/-- A rewrap at `e` by a device that has not seen the rotation. -/
def rewrapped : IdentityEvent := signed 'c' '2' ['v'] [rewrap 'e']

/-- Whether an operation sets the epoch of the vault or hands out an envelope of it. -/
def touches (epoch : EventId) (operation : IdentityControlOperation) : Bool :=
  operation.keyEpochOf heldVault = some epoch ||
    operation.vaultEnvelopes.any fun envelope => envelope.1 = (heldVault, epoch)

theorem currentKeyEpoch_rotated : ∃ log state vault,
    (IdentityControlLog.new identityId).insertAll rotatedEvents = .ok log ∧
    IdentityControlState.project log = .ok state ∧ state.vault heldVault = some vault ∧
    vault.currentKeyEpoch ≠ eventId 'e' := by
  obtain ⟨log, built, checked⟩ := exists_of_passes
    ((IdentityControlLog.new identityId).insertAll rotatedEvents)
    (fun log => passes (IdentityControlState.project log) fun state =>
      decide ((state.vault heldVault).isSome = true ∧ eventId 'b' ∈ log.causal.applicableIds ∧
        log.events[eventId 'b']? = some (signed 'b' '1' ['v'] [rewrap 'f']) ∧
        log.causal.isAncestor (eventId 'v') (eventId 'b') = true ∧
        onlyIn log [eventId 'v'] (touches (eventId 'e')) = true))
    (by decide +kernel)
  obtain ⟨state, projected, checked⟩ := exists_of_passes _ _ checked
  obtain ⟨present, applicable, recorded, path, only⟩ := of_decide_eq_true checked
  obtain ⟨vault, found⟩ := Option.isSome_iff_exists.mp present
  refine ⟨log, state, vault, built, projected, found, ?_⟩
  apply (IdentityControlLog.currentKeyEpoch_latest
    ((IdentityControlLog.Reachable.new identityId).insertAll built) projected found).2
    (eventId 'b') (eventId 'f') (eventId 'e') ((CausalGraph.mem_applicableIds _).mp applicable)
  · exact ⟨_, recorded, rewrap 'f', List.mem_singleton_self _, by
      simp [rewrap, IdentityControlOperation.keyEpochOf]⟩
  · intro other _ ⟨event, otherFound, operation, listed, sets⟩
    have sole := mem_of_onlyIn only otherFound listed (by simp [touches, sets])
    rw [List.mem_singleton.mp sole]
    exact ((CausalGraph.isAncestor_iff_eq_or _ _).mp path).resolve_left (by decide)

/-- The rewrap at the old epoch is beside the rotation, and listed after it. -/
theorem currentKeyEpoch_fallsBack : ∃ log state vault,
    (IdentityControlLog.new identityId).insertAll (rotatedEvents ++ [rewrapped]) = .ok log ∧
    IdentityControlState.project log = .ok state ∧ state.vault heldVault = some vault ∧
    vault.currentKeyEpoch = eventId 'e' ∧
    log.causal.Applicable (eventId 'b') ∧ log.SetsEpoch (eventId 'b') heldVault (eventId 'f') ∧
    log.causal.Applicable (eventId 'v') ∧ log.SetsEpoch (eventId 'v') heldVault (eventId 'e') ∧
    log.causal.Ancestor (eventId 'v') (eventId 'b') ∧
    ∀ other, (log.SetsEpoch other heldVault (eventId 'e') ∨
      ∃ appId, log.Grants other heldVault (eventId 'e') appId) →
        ¬log.causal.Ancestor (eventId 'b') other := by
  obtain ⟨log, built, checked⟩ := exists_of_passes
    ((IdentityControlLog.new identityId).insertAll (rotatedEvents ++ [rewrapped]))
    (fun log => passes (IdentityControlState.project log) fun state =>
      decide ((state.vault heldVault).map IdentityControlVault.currentKeyEpoch =
          some (eventId 'e') ∧
        eventId 'b' ∈ log.causal.applicableIds ∧ eventId 'v' ∈ log.causal.applicableIds ∧
        log.events[eventId 'b']? = some (signed 'b' '1' ['v'] [rewrap 'f']) ∧
        log.events[eventId 'v']? = some (signed 'v' '1' ['a'] [registerFor '1']) ∧
        log.causal.isAncestor (eventId 'v') (eventId 'b') = true ∧
        log.causal.isAncestor (eventId 'b') (eventId 'v') = false ∧
        log.causal.isAncestor (eventId 'b') (eventId 'c') = false ∧
        onlyIn log [eventId 'v', eventId 'c'] (touches (eventId 'e')) = true))
    (by decide +kernel)
  obtain ⟨state, projected, checked⟩ := exists_of_passes _ _ checked
  obtain ⟨current, rotation, registration, rotated, registered, path, unregistered, apart, only⟩ :=
    of_decide_eq_true checked
  obtain ⟨vault, found, epoch⟩ := Option.map_eq_some_iff.mp current
  refine ⟨log, state, vault, built, projected, found, epoch,
    (CausalGraph.mem_applicableIds _).mp rotation, ?_,
    (CausalGraph.mem_applicableIds _).mp registration, ?_, ?_, ?_⟩
  · exact ⟨_, rotated, rewrap 'f', List.mem_singleton_self _, by
      simp [rewrap, IdentityControlOperation.keyEpochOf]⟩
  · exact ⟨_, registered, registerFor '1', List.mem_singleton_self _, by
      simp [registerFor, IdentityControlOperation.keyEpochOf]⟩
  · exact ((CausalGraph.isAncestor_iff_eq_or _ _).mp path).resolve_left (by decide)
  · intro other old follows
    have inside : other ∈ [eventId 'v', eventId 'c'] := by
      rcases old with ⟨event, otherFound, operation, listed, sets⟩ |
        ⟨_, event, otherFound, operation, listed, envelope, handed, same, _⟩
      · exact mem_of_onlyIn only otherFound listed (by simp [touches, sets])
      · apply mem_of_onlyIn only otherFound listed
        unfold touches
        rw [Bool.or_eq_true, List.any_eq_true]
        exact Or.inr ⟨envelope, handed, decide_eq_true same⟩
    have reaches := (CausalGraph.isAncestor_iff_eq_or (eventId 'b') other).mpr (Or.inr follows)
    rcases List.mem_cons.mp inside with same | same
    · rw [same, unregistered] at reaches
      cases reaches
    · rw [List.mem_singleton.mp same, apart] at reaches
      cases reaches

end TestSupport

end Nook.IdentityControl
