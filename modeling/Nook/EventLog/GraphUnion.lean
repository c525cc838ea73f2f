import Nook.EventLog.GraphRestriction
import Nook.Replication.CausalGraphSemilattice

set_option autoImplicit false

namespace Nook.EventLog

open Nook.Lib Nook.Replication Relation

namespace EventGraph

variable [External] {left right inserted : EventGraph}

/-- The union is what insertion of the same events builds. -/
structure UnionAgrees (left right inserted : EventGraph) : Prop where
  events : (left.union right).events = inserted.events
  quarantined : ∀ id, id ∈ (left.union right).quarantined ↔ id ∈ inserted.quarantined
  applicable : (left.union right).causal.applicableIds = inserted.causal.applicableIds
  heads : (left.union right).heads = inserted.heads
  ordered : ∀ order, inserted.topologicalOrder = .ok order →
    ∃ order, (left.union right).topologicalOrder = .ok order

/-- A refused event whose past is complete in neither graph alone is below an
event that one of them rejects already, or below a cycle. -/
def JudgedApart (left right inserted : EventGraph) : Prop :=
  ∀ id, inserted.Refused id → ¬left.causal.Present id → ¬right.causal.Present id →
    ∃ ancestor, inserted.causal.AncestorOrSelf ancestor id ∧
      (ancestor ∈ left.quarantined ∨ ancestor ∈ right.quarantined ∨
        inserted.causal.Ancestor ancestor ancestor)

/-- Two judged graphs and the judged graph of the events of both. -/
structure Joined (left right inserted : EventGraph) : Prop where
  leftJudged : left.Judged
  rightJudged : right.Judged
  judged : inserted.Judged
  lookup : ∀ id : EventId, inserted.events[id]? = (left.events[id]?).or right.events[id]?
  extendsRight : inserted.Extends right

namespace Joined

variable (joined : Joined left right inserted)
include joined

theorem extendsLeft : inserted.Extends left := by
  intro id event found
  rw [joined.lookup, found]
  rfl

omit [External] joined in
theorem events_union (left right : EventGraph) (id : EventId) :
    (left.union right).events[id]? = (left.events[id]?).or right.events[id]? := by
  show (left.events.insertAbsent right.events.toList)[id]? = _
  rw [BTreeMap.getElem?_insertAbsent, BTreeMap.find?_toList]

theorem sameParents : left.SameParents right := by
  intro id event other found otherFound
  have same := joined.extendsLeft id event found
  rw [joined.extendsRight id other otherFound] at same
  injection same with same
  rw [same]

theorem indexed : (left.union right).Indexed :=
  joined.leftJudged.indexed.union joined.rightJudged.indexed joined.sameParents

theorem events_eq : (left.union right).events = inserted.events := by
  apply BTreeMap.ext
  intro id
  rw [events_union, joined.lookup]

theorem parents_eq : (left.union right).causal.parents = inserted.causal.parents := by
  apply BTreeMap.ext
  intro id
  rw [joined.indexed.parents_eq, joined.judged.indexed.parents_eq, joined.events_eq]

/-- The union rejects what is below a rejection of either graph or below a cycle. -/
theorem quarantined_union (id : EventId) :
    id ∈ (left.union right).quarantined ↔
      ∃ ancestor, inserted.causal.AncestorOrSelf ancestor id ∧
        (ancestor ∈ left.quarantined ∨ ancestor ∈ right.quarantined ∨
          inserted.causal.Ancestor ancestor ancestor) := by
  have roots : ∀ root, root ∈ (left.union right).causal.quarantineRoots ↔
      root ∈ left.causal.quarantineRoots ∨ root ∈ right.causal.quarantineRoots := by
    apply mem_quarantineRoots_union joined.rightJudged.indexed.wellFormed
    intro id first second found otherFound
    rw [joined.leftJudged.indexed.parents_eq, Option.map_eq_some_iff] at found
    rw [joined.rightJudged.indexed.parents_eq, Option.map_eq_some_iff] at otherFound
    obtain ⟨event, recorded, rfl⟩ := found
    obtain ⟨other, otherRecorded, rfl⟩ := otherFound
    exact joined.sameParents id event other recorded otherRecorded
  have cyclic := joined.indexed.wellFormed.cyclic_iff
  rw [CausalGraph.ancestor_congr joined.parents_eq] at cyclic
  -- A root of one graph is rejected there.
  have own : ∀ {graph : EventGraph}, graph.Judged → ∀ root ∈ graph.causal.quarantineRoots,
      root ∈ graph.quarantined := fun judged root member =>
    (judged.indexed.wellFormed.quarantined_iff root).mpr ⟨root, Or.inl member, .refl⟩
  -- What one graph rejects is below a root of it, or below a cycle.
  have origin : ∀ {graph : EventGraph}, graph.Judged → inserted.Extends graph →
      ∀ ancestor ∈ graph.quarantined, ∃ root, inserted.causal.AncestorOrSelf root ancestor ∧
        (root ∈ graph.causal.quarantineRoots ∨ inserted.causal.Ancestor root root) := by
    intro graph judged larger ancestor rejected
    obtain ⟨root, cause, path⟩ := (judged.indexed.wellFormed.quarantined_iff ancestor).mp rejected
    refine ⟨root, ancestorOrSelf_extend joined.judged.indexed judged.indexed larger path, ?_⟩
    rcases cause with rooted | around
    · exact Or.inl rooted
    · exact Or.inr (TransGen.mono (edge_extend joined.judged.indexed judged.indexed larger) _ _
        ((judged.indexed.wellFormed.cyclic_iff root).mp around))
  show id ∈ (left.union right).causal.quarantined ↔ _
  rw [joined.indexed.wellFormed.quarantined_iff,
    CausalGraph.ancestorOrSelf_congr joined.parents_eq]
  constructor
  · rintro ⟨root, rooted | around, path⟩
    · refine ⟨root, path, ?_⟩
      rcases (roots root).mp rooted with first | second
      · exact Or.inl (own joined.leftJudged root first)
      · exact Or.inr (Or.inl (own joined.rightJudged root second))
    · exact ⟨root, path, Or.inr (Or.inr ((cyclic root).mp around))⟩
  · rintro ⟨ancestor, path, first | second | around⟩
    · obtain ⟨root, before, rooted | around⟩ :=
        origin joined.leftJudged joined.extendsLeft ancestor first
      · exact ⟨root, Or.inl ((roots root).mpr (Or.inl rooted)), before.trans path⟩
      · exact ⟨root, Or.inr ((cyclic root).mpr around), before.trans path⟩
    · obtain ⟨root, before, rooted | around⟩ :=
        origin joined.rightJudged joined.extendsRight ancestor second
      · exact ⟨root, Or.inl ((roots root).mpr (Or.inr rooted)), before.trans path⟩
      · exact ⟨root, Or.inr ((cyclic root).mpr around), before.trans path⟩
    · exact ⟨ancestor, Or.inr ((cyclic ancestor).mpr around), path⟩

theorem judgedApart_iff :
    JudgedApart left right inserted ↔
      ∀ id, id ∈ (left.union right).quarantined ↔ id ∈ inserted.quarantined := by
  constructor
  · intro apart id
    rw [joined.quarantined_union, joined.judged.quarantined_iff]
    constructor
    · -- Either graph's rejections are rejections of the larger one.
      have carried : ∀ ancestor, ancestor ∈ inserted.quarantined →
          inserted.causal.AncestorOrSelf ancestor id →
            ∃ root, (inserted.Refused root ∨ inserted.causal.Ancestor root root) ∧
              inserted.causal.AncestorOrSelf root id := by
        intro ancestor rejected path
        obtain ⟨root, cause, before⟩ := (joined.judged.quarantined_iff ancestor).mp rejected
        exact ⟨root, cause, before.trans path⟩
      rintro ⟨ancestor, path, first | second | around⟩
      · exact carried ancestor
          (joined.judged.quarantined_of_extends joined.leftJudged joined.extendsLeft first) path
      · exact carried ancestor
          (joined.judged.quarantined_of_extends joined.rightJudged joined.extendsRight second) path
      · exact ⟨ancestor, Or.inr around, path⟩
    · rintro ⟨root, refused | around, path⟩
      · have single : ∀ {graph : EventGraph}, graph.Judged → inserted.Extends graph →
            graph.causal.Present root → root ∈ graph.quarantined := fun judged larger present =>
          (judged.quarantined_iff root).mpr ⟨root, Or.inl ((refused_iff_of_extends
            joined.judged.indexed judged.indexed larger present).mpr refused), .refl⟩
        by_cases first : left.causal.Present root
        · exact ⟨root, path, Or.inl (single joined.leftJudged joined.extendsLeft first)⟩
        · by_cases second : right.causal.Present root
          · exact ⟨root, path, Or.inr (Or.inl (single joined.rightJudged joined.extendsRight second))⟩
          · obtain ⟨ancestor, before, cause⟩ := apart root refused first second
            exact ⟨ancestor, before.trans path, cause⟩
      · exact ⟨root, path, Or.inr (Or.inr around)⟩
  · intro same id refused _ _
    apply (joined.quarantined_union id).mp
    exact (same id).mpr ((joined.judged.quarantined_iff id).mpr ⟨id, Or.inl refused, .refl⟩)

theorem unionAgrees_iff : UnionAgrees left right inserted ↔ JudgedApart left right inserted := by
  rw [joined.judgedApart_iff]
  constructor
  · exact fun agrees => agrees.quarantined
  · intro same
    have agrees : (left.union right).causal.Agrees inserted.causal := ⟨joined.parents_eq, same⟩
    exact ⟨joined.events_eq, same, agrees.applicableIds_eq, agrees.heads_eq,
      fun order ordered => ⟨order, (topologicalOrder_congr joined.events_eq agrees).trans ordered⟩⟩

end Joined

/-- Two graphs that insertion built, and one that insertion of the events of both built. -/
theorem joined_insertAll {expectedStoreId : Str} {lefts rights all : List VaultEvent}
    (leftBuilt : new.insertAll expectedStoreId lefts = .ok left)
    (rightBuilt : new.insertAll expectedStoreId rights = .ok right)
    (built : new.insertAll expectedStoreId all = .ok inserted)
    (single : ∀ first ∈ all, ∀ second ∈ all, first.id = second.id → first = second)
    (both : ∀ event, event ∈ all ↔ event ∈ lefts ∨ event ∈ rights) :
    Joined left right inserted := by
  have collisionFree : ∀ events : List VaultEvent, (∀ event ∈ events, event ∈ all) →
      CollisionFree events := fun events inside first firstIn second secondIn same => by
    rw [single first (inside first firstIn) second (inside second secondIn) same]
  have leftInside : ∀ event ∈ lefts, event ∈ all := fun event member =>
    (both event).mpr (Or.inl member)
  have rightInside : ∀ event ∈ rights, event ∈ all := fun event member =>
    (both event).mpr (Or.inr member)
  obtain ⟨leftJudged, leftRecords⟩ := judged_insertAll (collisionFree lefts leftInside) leftBuilt
  obtain ⟨rightJudged, rightRecords⟩ :=
    judged_insertAll (collisionFree rights rightInside) rightBuilt
  obtain ⟨judged, records⟩ := judged_insertAll (collisionFree all fun _ member => member) built
  have lookup : ∀ {graph : EventGraph} {events : List VaultEvent}, graph.Records events →
      (∀ event ∈ events, event ∈ all) → ∀ (id : EventId) event,
        graph.events[id]? = some event ↔ event ∈ events ∧ event.id = .ok id := by
    intro graph events recorded inside id event
    constructor
    · exact recorded.1 id event
    · intro ⟨member, identified⟩
      obtain ⟨known, existing, sameId, found⟩ := recorded.2 event member
      obtain ⟨existingMember, existingId⟩ := recorded.1 known existing found
      rw [identified] at sameId
      injection sameId with sameId
      subst sameId
      rw [found, single existing (inside existing existingMember) event (inside event member)
        (existingId.trans identified.symm)]
  have leftLookup := lookup leftRecords leftInside
  have rightLookup := lookup rightRecords rightInside
  have allLookup := lookup records fun _ member => member
  refine ⟨leftJudged, rightJudged, judged, ?_, ?_⟩
  · intro id
    apply Option.ext
    intro event
    rw [allLookup, both, Option.or_eq_some_iff, leftLookup, rightLookup]
    constructor
    · rintro ⟨first | second, identified⟩
      · exact Or.inl ⟨first, identified⟩
      · cases found : left.events[id]? with
        | none => exact Or.inr ⟨rfl, second, identified⟩
        | some other =>
          obtain ⟨member, otherId⟩ := (leftLookup id other).mp found
          rw [← single other (leftInside other member) event (rightInside event second)
            (otherId.trans identified.symm)]
          exact Or.inl ⟨member, otherId⟩
    · rintro (⟨first, identified⟩ | ⟨_, second, identified⟩)
      · exact ⟨Or.inl first, identified⟩
      · exact ⟨Or.inr second, identified⟩
  · intro id event found
    obtain ⟨member, identified⟩ := (rightLookup id event).mp found
    exact (allLookup id event).mpr ⟨rightInside event member, identified⟩

/-- The union of two graphs that insertion built is the graph that insertion of
all their events builds exactly when it has no verdict to make up for. -/
theorem union_agrees_iff {expectedStoreId : Str} {lefts rights all : List VaultEvent}
    (leftBuilt : new.insertAll expectedStoreId lefts = .ok left)
    (rightBuilt : new.insertAll expectedStoreId rights = .ok right)
    (built : new.insertAll expectedStoreId all = .ok inserted)
    (single : ∀ first ∈ all, ∀ second ∈ all, first.id = second.id → first = second)
    (both : ∀ event, event ∈ all ↔ event ∈ lefts ∨ event ∈ rights) :
    UnionAgrees left right inserted ↔ JudgedApart left right inserted :=
  (joined_insertAll leftBuilt rightBuilt built single both).unionAgrees_iff

end EventGraph

namespace TestSupport

/-- An event of a stranger, whose parent the other graph has. -/
def stranger : VaultEvent := signed 'b' '2' [eventId 'g'] (eventId 'g') [.vaultCleared]

open EventGraph in
theorem union_agrees_iff_forked :
    ∃ left right inserted, EventGraph.new.insertAll storeName [genesis 'g' '1'] = .ok left ∧
      EventGraph.new.insertAll storeName [genesis 'g' '1', stranger] = .ok right ∧
      EventGraph.new.insertAll storeName ([genesis 'g' '1'] ++ [genesis 'g' '1', stranger]) =
        .ok inserted ∧ (UnionAgrees left right inserted ↔ JudgedApart left right inserted) := by
  have accepted : ∀ events ∈ [[genesis 'g' '1'], [genesis 'g' '1', stranger],
      [genesis 'g' '1'] ++ [genesis 'g' '1', stranger]],
        (EventGraph.new.insertAll storeName events).isOk = true := by decide +kernel
  obtain ⟨left, leftBuilt⟩ := exists_of_isOk (accepted _ List.mem_cons_self)
  obtain ⟨right, rightBuilt⟩ := exists_of_isOk (accepted _ (.tail _ List.mem_cons_self))
  obtain ⟨inserted, built⟩ := exists_of_isOk (accepted _ (.tail _ (.tail _ List.mem_cons_self)))
  exact ⟨left, right, inserted, leftBuilt, rightBuilt, built, union_agrees_iff leftBuilt rightBuilt
    built (by decide +kernel) fun _ => List.mem_append⟩

/-- The union takes the stranger's event for applicable, and cannot be ordered. -/
theorem union_keeps_stranger :
    ∃ left right inserted, EventGraph.new.insertAll storeName [genesis 'g' '1'] = .ok left ∧
      EventGraph.new.insertAll storeName [stranger] = .ok right ∧
      EventGraph.new.insertAll storeName [genesis 'g' '1', stranger] = .ok inserted ∧
      eventId 'b' ∈ (left.union right).causal.applicableIds ∧
      eventId 'b' ∉ inserted.causal.applicableIds ∧
      inserted.topologicalOrder = .ok [eventId 'g'] ∧
      (left.union right).topologicalOrder = .error (.unauthorizedActor (actor '2').asStr) := by
  obtain ⟨left, leftBuilt, checked⟩ := exists_of_passes
    (EventGraph.new.insertAll storeName [genesis 'g' '1'])
    (fun left => passes (EventGraph.new.insertAll storeName [stranger]) fun right =>
      passes (EventGraph.new.insertAll storeName [genesis 'g' '1', stranger]) fun inserted =>
        decide (eventId 'b' ∈ (left.union right).causal.applicableIds) &&
          decide (eventId 'b' ∉ inserted.causal.applicableIds) &&
          decide (inserted.topologicalOrder = .ok [eventId 'g']) &&
          decide ((left.union right).topologicalOrder =
            .error (.unauthorizedActor (actor '2').asStr)))
    (by decide +kernel)
  obtain ⟨right, rightBuilt, checked⟩ := exists_of_passes _ _ checked
  obtain ⟨inserted, built, checked⟩ := exists_of_passes _ _ checked
  simp only [Bool.and_eq_true, decide_eq_true_eq] at checked
  obtain ⟨⟨⟨kept, rejected⟩, ordered⟩, failed⟩ := checked
  exact ⟨left, right, inserted, leftBuilt, rightBuilt, built, kept, rejected, ordered, failed⟩

end TestSupport

end Nook.EventLog
