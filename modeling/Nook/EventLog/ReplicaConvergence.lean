import Nook.EventLog.UnionInvariant

set_option autoImplicit false

namespace Nook.EventLog

open Nook.Lib Nook.Replication Relation

namespace LocalEventStore

/-- All stored records, in the order of their ids. -/
def records (store : LocalEventStore) : List (EventId × EventStorageBytes) :=
  store.replica.events.toList

theorem recordBytes_records (store : LocalEventStore) (id : EventId) :
    recordBytes store.records id = store.row id :=
  BTreeMap.find?_toList store.replica.events id

end LocalEventStore

section Exchange

variable [Storage]

/-- Rows of one id hold one event. -/
def SameEvents (left right : LocalEventStore) : Prop :=
  ∀ id leftBytes rightBytes, left.row id = some leftBytes → right.row id = some rightBytes →
    VaultEvent.parseEventStorageBytes leftBytes = VaultEvent.parseEventStorageBytes rightBytes

theorem sameEvents_of_rows {left right : LocalEventStore}
    (checked : (left.records.all fun record => (right.row record.1).all fun bytes =>
      decide (VaultEvent.parseEventStorageBytes record.2 =
        VaultEvent.parseEventStorageBytes bytes)) = true) : SameEvents left right := by
  intro id leftBytes rightBytes inLeft inRight
  have member : (id, leftBytes) ∈ left.records := Std.ExtTreeMap.mem_toList_iff_getElem?_eq_some.mpr inLeft
  have equal := List.all_eq_true.mp checked (id, leftBytes) member
  rw [inRight] at equal
  exact of_decide_eq_true equal

variable [External]

/-- Both sides of an exchange gate on one graph. -/
theorem exchange_whole_eq {left right : LocalEventStore} {storeId : Str}
    {leftWhole rightWhole : EventGraph}
    (same : SameEvents left right)
    (leftOk : (LocalGraphProjection.mk left right.records storeId ∅).build = .ok leftWhole)
    (rightOk : (LocalGraphProjection.mk right left.records storeId ∅).build = .ok rightWhole) :
    leftWhole = rightWhole := by
  obtain ⟨leftEvents, leftReads, leftInserted⟩ := LocalGraphProjection.build_ok _ leftOk
  obtain ⟨rightEvents, rightReads, rightInserted⟩ := LocalGraphProjection.build_ok _ rightOk
  have events : leftEvents = rightEvents := by
    apply BTreeMap.ext
    intro id
    have leftRow := leftReads id
    have rightRow := rightReads id
    rw [row_mk, if_neg (by simp), LocalEventStore.recordBytes_records] at leftRow rightRow
    cases inLeft : left.row id with
    | none =>
      rw [inLeft, Option.none_or] at leftRow
      rw [inLeft, Option.or_none, leftRow] at rightRow
      exact Except.ok.inj rightRow
    | some leftBytes =>
      rw [inLeft, Option.some_or] at leftRow
      cases inRight : right.row id with
      | none =>
        rw [inRight, inLeft, Option.none_or, leftRow] at rightRow
        exact Except.ok.inj rightRow
      | some rightBytes =>
        rw [inRight, Option.some_or, Option.mapM_some,
          ← same id leftBytes rightBytes inLeft inRight, ← Option.mapM_some, leftRow] at rightRow
        exact Except.ok.inj rightRow
  rw [events, rightInserted] at leftInserted
  exact (Except.ok.inj leftInserted).symm

/-- After an exchange both replicas apply the same events exactly when each trigger that
dangles on one side is at or after one that dangles on the other. -/
theorem exchange_converges_iff (left right : LocalEventStore) (storeId : Str)
    (leftFiled : left.Filed) (rightFiled : right.Filed) (same : SameEvents left right)
    (leftOutcome rightOutcome : LocalRemoteUnionOutcome)
    (leftAccepted : left.unionRemote ⟨right.records, storeId⟩ = .ok leftOutcome)
    (rightAccepted : right.unionRemote ⟨left.records, storeId⟩ = .ok rightOutcome) :
    ∃ whole leftGraph rightGraph,
      (LocalGraphProjection.mk left right.records storeId ∅).build = .ok whole ∧
      leftOutcome.store.loadGraph storeId = .ok leftGraph ∧
      rightOutcome.store.loadGraph storeId = .ok rightGraph ∧
      (leftGraph.applicableEvents = rightGraph.applicableEvents ↔
        (∀ trigger, whole.Dangling left.stored trigger →
          ∃ earlier, whole.Dangling right.stored earlier ∧
            whole.causal.AncestorOrSelf earlier trigger) ∧
        ∀ trigger, whole.Dangling right.stored trigger →
          ∃ earlier, whole.Dangling left.stored earlier ∧
            whole.causal.AncestorOrSelf earlier trigger) := by
  obtain ⟨_, _, whole, _, leftGraph, leftSide⟩ := unionRemote_settlement leftFiled leftAccepted
  obtain ⟨_, _, otherWhole, _, rightGraph, rightSide⟩ :=
    unionRemote_settlement rightFiled rightAccepted
  have one : whole = otherWhole :=
    exchange_whole_eq same leftSide.whole_ok rightSide.whole_ok
  subst one
  refine ⟨whole, leftGraph, rightGraph, leftSide.whole_ok, leftSide.rest_ok, rightSide.rest_ok, ?_⟩
  have settled := Obligations.settled_eq_iff leftSide.first leftSide.second rightSide.first
    rightSide.second
  simp only [leftSide.whole_judged.dangling_iff] at settled
  refine Iff.trans ?_ settled
  rw [Set.ext_iff]
  have found : ∀ id, leftGraph.causal.Applicable id → rightGraph.causal.Applicable id →
      leftGraph.events[id]? = rightGraph.events[id]? := by
    intro id inLeft inRight
    rw [leftSide.events_eq ((leftSide.rest_judged.indexed.known_iff id).mp inLeft.1.known),
      rightSide.events_eq ((rightSide.rest_judged.indexed.known_iff id).mp inRight.1.known)]
  constructor
  · intro equal id
    have moves : ∀ {mine other : EventGraph}, mine.Judged → mine.Filed → other.Filed →
        mine.applicableEvents = other.applicableEvents →
        mine.causal.Applicable id → other.causal.Applicable id := by
      intro mine other judged mineFiled otherFiled equal applicable
      obtain ⟨event, recorded⟩ := (BTreeMap.mem_iff_getElem? _ _).mp
        ((judged.indexed.known_iff id).mp applicable.1.known)
      have member := (EventGraph.mem_applicableEvents event).mpr ⟨id, applicable, recorded⟩
      rw [equal] at member
      obtain ⟨own, ownApplicable, ownRecorded⟩ := (EventGraph.mem_applicableEvents event).mp member
      have named := otherFiled own event ownRecorded
      rw [mineFiled id event recorded] at named
      cases named
      exact ownApplicable
    exact ⟨moves leftSide.rest_judged leftSide.rest_filed rightSide.rest_filed equal,
      moves rightSide.rest_judged rightSide.rest_filed leftSide.rest_filed equal.symm⟩
  · intro equal
    unfold EventGraph.applicableEvents
    rw [CausalGraph.applicableIds_congr equal]
    refine List.filterMap_congr fun id member => ?_
    have inRight := (CausalGraph.mem_applicableIds id).mp member
    exact found id ((equal id).mpr inRight) inRight

end Exchange

namespace TestSupport

theorem exchange_converges_iff_rotation :
    ∃ leftGraph rightGraph whole : EventGraph,
      (leftGraph.applicableEvents = rightGraph.applicableEvents ↔
        (∀ trigger, whole.Dangling (storeOf ['g', 'r']).stored trigger →
          ∃ earlier, whole.Dangling (storeOf ['g', 'c']).stored earlier ∧
            whole.causal.AncestorOrSelf earlier trigger) ∧
        ∀ trigger, whole.Dangling (storeOf ['g', 'c']).stored trigger →
          ∃ earlier, whole.Dangling (storeOf ['g', 'r']).stored earlier ∧
            whole.causal.AncestorOrSelf earlier trigger) := by
  have filed : ∀ tags ∈ [['g', 'r'], ['g', 'c']], (storeOf tags).Filed := fun tags member =>
    LocalEventStore.filed_of_rows _ (by revert tags; decide +kernel)
  obtain ⟨leftOutcome, leftAccepted⟩ := exists_of_isOk (show
    ((storeOf ['g', 'r']).unionRemote ⟨(storeOf ['g', 'c']).records, storeName⟩).isOk = true from
    by decide +kernel)
  obtain ⟨rightOutcome, rightAccepted⟩ := exists_of_isOk (show
    ((storeOf ['g', 'c']).unionRemote ⟨(storeOf ['g', 'r']).records, storeName⟩).isOk = true from
    by decide +kernel)
  obtain ⟨whole, leftGraph, rightGraph, _, _, _, converges⟩ := exchange_converges_iff
    (storeOf ['g', 'r']) (storeOf ['g', 'c']) storeName (filed _ (by simp)) (filed _ (by simp))
    (sameEvents_of_rows (by decide +kernel)) leftOutcome rightOutcome leftAccepted rightAccepted
  exact ⟨leftGraph, rightGraph, whole, converges⟩

/-- The side that stores the revoking checkpoint keeps the revocation, the other side loses it. -/
theorem exchange_diverges :
    ∃ leftOutcome rightOutcome leftGraph rightGraph,
      (storeOf ['g', 'r', 'k']).Filed ∧ (storeOf ['g', 'r']).Filed ∧
      SameEvents (storeOf ['g', 'r', 'k']) (storeOf ['g', 'r']) ∧
      (storeOf ['g', 'r', 'k']).unionRemote ⟨(storeOf ['g', 'r']).records, storeName⟩ =
        .ok leftOutcome ∧
      (storeOf ['g', 'r']).unionRemote ⟨(storeOf ['g', 'r', 'k']).records, storeName⟩ =
        .ok rightOutcome ∧
      leftOutcome.store.loadGraph storeName = .ok leftGraph ∧
      rightOutcome.store.loadGraph storeName = .ok rightGraph ∧
      leftGraph.causal.applicableIds = [eventId 'g', eventId 'r'] ∧
      rightGraph.causal.applicableIds = [eventId 'g'] := by
  have filed : ∀ tags ∈ [['g', 'r', 'k'], ['g', 'r']], (storeOf tags).Filed := fun tags member =>
    LocalEventStore.filed_of_rows _ (by revert tags; decide +kernel)
  obtain ⟨leftOutcome, leftAccepted, left⟩ := exists_of_passes
    ((storeOf ['g', 'r', 'k']).unionRemote ⟨(storeOf ['g', 'r']).records, storeName⟩)
    (fun outcome => passes (outcome.store.loadGraph storeName) fun graph =>
      decide (graph.causal.applicableIds = [eventId 'g', eventId 'r'])) (by decide +kernel)
  obtain ⟨rightOutcome, rightAccepted, right⟩ := exists_of_passes
    ((storeOf ['g', 'r']).unionRemote ⟨(storeOf ['g', 'r', 'k']).records, storeName⟩)
    (fun outcome => passes (outcome.store.loadGraph storeName) fun graph =>
      decide (graph.causal.applicableIds = [eventId 'g'])) (by decide +kernel)
  obtain ⟨leftGraph, leftLoaded, leftIds⟩ := exists_of_passes _ _ left
  obtain ⟨rightGraph, rightLoaded, rightIds⟩ := exists_of_passes _ _ right
  exact ⟨leftOutcome, rightOutcome, leftGraph, rightGraph, filed _ (by simp), filed _ (by simp),
    sameEvents_of_rows (by decide +kernel), leftAccepted, rightAccepted, leftLoaded, rightLoaded,
    of_decide_eq_true leftIds, of_decide_eq_true rightIds⟩

end TestSupport

end Nook.EventLog
