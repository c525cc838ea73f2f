import Nook.EventDb.StoredRows

set_option autoImplicit false

namespace Nook.EventDb

open Nook.Lib Nook.Replication Nook.EventLog Relation

variable [External]

/-! ### What an admitted event does to a clean graph -/

namespace Frontier

variable {graph next : EventGraph} {id : EventId} {event : VaultEvent}

/-- An event that was admitted is a new one on all heads, or was recorded before. -/
def Admits (graph : EventGraph) (id : EventId) (event : VaultEvent) (next : EventGraph) : Prop :=
  EventGraph.Appended graph id event next ∨ id ∈ graph.events ∧ next = graph

theorem contains_iff (clean : graph.Clean) (id : EventId) :
    graph.contains id = true ↔ id ∈ graph.events := by
  rw [← clean.indexed.known_iff]
  exact Std.ExtTreeMap.contains_iff_mem

/-- The insertion of a recorded event that is not rejected changes nothing. -/
theorem insert_recorded {existing : VaultEvent} (named : event.id = .ok id)
    (found : graph.events[id]? = some existing) {storeId : Str} {insertion : EventGraphInsertion}
    (inserted : graph.insert event storeId = .ok insertion)
    (kept : ∀ reason, insertion.status ≠ .quarantined reason) : insertion.graph = graph := by
  unfold EventGraph.insert at inserted
  split at inserted
  · cases inserted
  · cases inserted
    rfl
  · cases inserted
    exact absurd rfl (kept _)
  · rename_i own admitted
    obtain ⟨⟨store, valid⟩, fresh⟩ := EventGraph.admission_insert admitted
    have same := EventGraph.validateEnvelope_id valid
    rw [named] at same
    cases same
    rw [found] at fresh
    cases fresh

theorem admits_of_insert (clean : graph.Clean) (named : event.id = .ok id)
    (frontier : id ∈ graph.events ∨ ∀ head ∈ graph.heads, head ∈ event.body.parents)
    {storeId : Str} {insertion : EventGraphInsertion}
    (inserted : graph.insert event storeId = .ok insertion)
    (kept : ∀ reason, insertion.status ≠ .quarantined reason) :
    Admits graph id event insertion.graph := by
  cases found : graph.events[id]? with
  | some existing =>
    rw [insert_recorded named found inserted kept]
    exact Or.inr ⟨BTreeMap.mem_of_getElem? found, rfl⟩
  | none =>
    have onHeads := frontier.resolve_left ((BTreeMap.not_mem_iff_getElem? _ _).mpr found)
    exact Or.inl (clean.appended named found onHeads inserted kept)

namespace Admits

theorem clean (admits : Admits graph id event next) (clean : graph.Clean) : next.Clean := by
  rcases admits with appended | ⟨_, same⟩
  · exact appended.next_clean
  · exact same ▸ clean

theorem recorded (admits : Admits graph id event next) : id ∈ next.events := by
  rcases admits with appended | ⟨recorded, same⟩
  · exact BTreeMap.mem_of_getElem? appended.own
  · exact same ▸ recorded

theorem extends_graph (admits : Admits graph id event next) : next.Extends graph := by
  rcases admits with appended | ⟨_, same⟩
  · exact appended.grows
  · subst same
    exact fun _ _ found => found

end Admits

/-! ### Ordered events, and what a list of admitted events adds -/

/-- The ids are recorded, and any two of them causally ordered. -/
structure Ordered (graph : EventGraph) (ids : Set EventId) : Prop where
  recorded : ∀ id ∈ ids, id ∈ graph.events
  comparable : ∀ left ∈ ids, ∀ right ∈ ids, left ≠ right →
    graph.causal.Ancestor left right ∨ graph.causal.Ancestor right left

omit [External] in
theorem Ordered.mono {ids fewer : Set EventId} (ordered : Ordered graph ids)
    (less : ∀ id ∈ fewer, id ∈ ids) : Ordered graph fewer where
  recorded id member := ordered.recorded id (less id member)
  comparable left leftMem right rightMem :=
    ordered.comparable left (less left leftMem) right (less right rightMem)

/-- A new event on all heads is after all ordered events. -/
theorem Ordered.admits {ids : Set EventId} (ordered : Ordered graph ids)
    (admits : Admits graph id event next) :
    Ordered next {other | other ∈ ids ∨ other = id ∧ other ∉ graph.events} := by
  rcases admits with appended | ⟨recorded, same⟩
  · have grown : ∀ {older other}, graph.causal.Ancestor older other →
        next.causal.Ancestor older other := fun path =>
      TransGen.mono (EventGraph.edge_extend appended.judged.indexed appended.clean.indexed
        appended.grows) _ _ path
    have after : ∀ other ∈ ids, next.causal.Ancestor other id := fun other member =>
      appended.ancestor (ordered.recorded other member)
    constructor
    · rintro other (before | ⟨itself, _⟩)
      · obtain ⟨content, found⟩ :=
          (BTreeMap.mem_iff_getElem? _ _).mp (ordered.recorded other before)
        exact BTreeMap.mem_of_getElem? (appended.grows other content found)
      · exact itself ▸ BTreeMap.mem_of_getElem? appended.own
    · rintro left (leftBefore | ⟨leftNew, _⟩) right (rightBefore | ⟨rightNew, _⟩) apart
      · exact (ordered.comparable left leftBefore right rightBefore apart).imp grown grown
      · exact Or.inl (rightNew ▸ after left leftBefore)
      · exact Or.inr (leftNew ▸ after right rightBefore)
      · exact absurd (leftNew.trans rightNew.symm) apart
  · subst same
    refine ordered.mono ?_
    rintro other (before | ⟨itself, absent⟩)
    · exact before
    · exact absurd (itself ▸ recorded) absent

/-- The graph after the admission of a list of events. -/
structure Supplies (graph : EventGraph) (storeId : Str) (events : List (EventId × VaultEvent))
    (next : EventGraph) : Prop where
  clean : next.Clean
  valid : next.ValidFor storeId
  grows : next.Extends graph
  source : ∀ (id : EventId) (event : VaultEvent), next.events[id]? = some event →
    graph.events[id]? = some event ∨ (id, event) ∈ events
  recorded : ∀ entry ∈ events, entry.1 ∈ next.events
  ordered : ∀ ids, Ordered graph ids →
    Ordered next {id | id ∈ ids ∨ id ∈ events.map Prod.fst ∧ id ∉ graph.events}

theorem Admits.supplies (admits : Admits graph id event next) (clean : graph.Clean) {storeId : Str}
    (valid : next.ValidFor storeId) : Supplies graph storeId [(id, event)] next where
  clean := admits.clean clean
  valid := valid
  grows := admits.extends_graph
  source other content found := by
    rcases admits with appended | ⟨_, same⟩
    · rw [appended.getElem?_events] at found
      split at found
      · rename_i itself
        cases found
        exact Or.inr (by simp [itself])
      · exact Or.inl found
    · exact Or.inl (same ▸ found)
  recorded := by simpa using admits.recorded
  ordered ids ordered := by simpa using ordered.admits admits

theorem Supplies.trans {middle : EventGraph} {storeId : Str}
    {events others : List (EventId × VaultEvent)} (first : Supplies graph storeId events middle)
    (second : Supplies middle storeId others next) :
    Supplies graph storeId (events ++ others) next where
  clean := second.clean
  valid := second.valid
  grows id event found := second.grows id event (first.grows id event found)
  source id event found := by
    rcases second.source id event found with before | supplied
    · exact (first.source id event before).imp_right fun inside => by simp [inside]
    · exact Or.inr (by simp [supplied])
  recorded entry member := by
    rcases List.mem_append.mp member with before | later
    · obtain ⟨event, found⟩ := (BTreeMap.mem_iff_getElem? _ _).mp (first.recorded entry before)
      exact BTreeMap.mem_of_getElem? (second.grows entry.1 event found)
    · exact second.recorded entry later
  ordered ids ordered := by
    refine (second.ordered _ (first.ordered ids ordered)).mono ?_
    rintro id (before | ⟨inside, absent⟩)
    · exact Or.inl (Or.inl before)
    · rw [List.map_append, List.mem_append] at inside
      by_cases supplied : id ∈ events.map Prod.fst
      · exact Or.inl (Or.inr ⟨supplied, absent⟩)
      · refine Or.inr ⟨inside.resolve_left supplied, fun recorded => ?_⟩
        obtain ⟨event, found⟩ := (BTreeMap.mem_iff_getElem? _ _).mp recorded
        rcases first.source id event found with old | new
        · exact absent (BTreeMap.mem_of_getElem? old)
        · exact supplied (List.mem_map_of_mem new)

/-! ### Graphs of one shape -/

variable {left right : EventGraph}

theorem heads_congr (leftClean : left.Clean) (rightClean : right.Clean)
    (same : left.causal.parents = right.causal.parents) : left.heads = right.heads := by
  have leftKept : ∀ id, left.causal.quarantined.contains id = false := fun id => by
    rw [← Bool.not_eq_true, Std.ExtTreeMap.contains_iff_mem]
    exact leftClean.admitted id
  have rightKept : ∀ id, right.causal.quarantined.contains id = false := fun id => by
    rw [← Bool.not_eq_true, Std.ExtTreeMap.contains_iff_mem]
    exact rightClean.admitted id
  have parents : left.causal.parentsOf = right.causal.parentsOf := by
    funext id
    unfold CausalGraph.parentsOf
    rw [same]
  simp only [EventGraph.heads, CausalGraph.heads, leftKept, rightKept, same, parents]

omit [External] in
theorem Ordered.congr (leftIndexed : left.Indexed) (rightIndexed : right.Indexed)
    (same : left.causal.parents = right.causal.parents) {ids : Set EventId}
    (ordered : Ordered left ids) : Ordered right ids := by
  have edges : left.causal.Edge = right.causal.Edge := by
    funext parent child
    unfold CausalGraph.Edge CausalGraph.parentsOf
    rw [same]
  constructor
  · intro id member
    rw [← rightIndexed.known_iff, ← same, leftIndexed.known_iff]
    exact ordered.recorded id member
  · have comparable := ordered.comparable
    unfold CausalGraph.Ancestor at comparable ⊢
    rw [← edges]
    exact comparable

omit [External] in
/-- Events with the same ids and parent sets make one shape. -/
theorem parents_congr (leftIndexed : left.Indexed) (rightIndexed : right.Indexed)
    (same : ∀ id : EventId, (left.events[id]?).map (fun event => normalizeParents event.body.parents) =
      (right.events[id]?).map fun event => normalizeParents event.body.parents) :
    left.causal.parents = right.causal.parents := by
  apply Std.ExtTreeMap.ext_getElem?
  intro id
  rw [leftIndexed.parents_eq, rightIndexed.parents_eq, same]

end Frontier

/-! ### The checks of an append and of a pair -/

namespace VaultAppendGraph

open Frontier

variable {graph : VaultAppendGraph} {event : VaultEvent} {id : EventId}

theorem admitEvent_ok {refusing unresolved : String} {next : VaultAppendGraph}
    (admitted : graph.admitEvent refusing unresolved event = .ok next) :
    ∃ insertion, graph.graph.insert event graph.storeId = .ok insertion ∧
      (∀ reason, insertion.status ≠ .quarantined reason) ∧
      next = ⟨insertion.graph, graph.storeId⟩ := by
  unfold admitEvent at admitted
  split at admitted
  · cases admitted
  · rename_i insertion inserted
    refine ⟨insertion, inserted, ?_⟩
    split at admitted
    · rename_i status
      cases admitted
      exact ⟨fun reason => by simp [status], rfl⟩
    · rename_i status
      cases admitted
      exact ⟨fun reason => by simp [status], rfl⟩
    · cases admitted
    · cases admitted

omit [External] in
theorem onHeads_of_sorted (same : sorted graph.graph.heads = sorted event.body.parents)
    (head : EventId) : head ∈ graph.graph.heads ↔ head ∈ event.body.parents := by
  rw [← mem_sorted, same, mem_sorted]

/-- An accepted append names exactly the heads as its parents, unless it is recorded. -/
theorem insert_ok (graph : VaultAppendGraph) (clean : graph.graph.Clean)
    (valid : graph.graph.ValidFor graph.storeId) {next : VaultAppendGraph}
    (accepted : graph.insert event = .ok (next, id)) :
    event.id = .ok id ∧
      (id ∈ graph.graph.events ∨ ∀ head, head ∈ graph.graph.heads ↔ head ∈ event.body.parents) ∧
      Supplies graph.graph graph.storeId [(id, event)] next.graph := by
  obtain ⟨own, named, accepted⟩ := bind_eq_ok.mp accepted
  obtain ⟨_, frontier, accepted⟩ := bind_eq_ok.mp accepted
  obtain ⟨admitted, checked, accepted⟩ := bind_eq_ok.mp accepted
  cases accepted
  rw [mapError_eq_ok] at named
  have placed : id ∈ graph.graph.events ∨
      ∀ head, head ∈ graph.graph.heads ↔ head ∈ event.body.parents := by
    rw [require_eq_ok, Bool.or_eq_true, decide_eq_true_iff, contains_iff clean] at frontier
    exact frontier.imp_right onHeads_of_sorted
  obtain ⟨insertion, inserted, kept, same⟩ := admitEvent_ok checked
  subst same
  have admits := admits_of_insert clean named
    (placed.imp_right fun same head => (same head).mp) inserted kept
  exact ⟨named, placed, admits.supplies clean (valid.insert clean.indexed.wellFormed inserted)⟩

/-- An accepted pair records its trigger and then its checkpoint, each as a single append would. -/
theorem insertPair_ok (graph : VaultAppendGraph) (clean : graph.graph.Clean)
    (valid : graph.graph.ValidFor graph.storeId) {request : EpochPairAppend} {next : VaultAppendGraph} {triggerId checkpointId : EventId}
    (accepted : graph.insertPair request = .ok (next, triggerId, checkpointId)) :
    request.trigger.event.id = .ok triggerId ∧ request.checkpoint.event.id = .ok checkpointId ∧
      request.checkpoint.event.body.parents = [triggerId] ∧
      (triggerId ∉ graph.graph.events →
        ∃ middle, EventGraph.Appended graph.graph triggerId request.trigger.event middle) ∧
      Supplies graph.graph graph.storeId
        [(triggerId, request.trigger.event), (checkpointId, request.checkpoint.event)]
        next.graph := by
  obtain ⟨trigger, named, accepted⟩ := bind_eq_ok.mp accepted
  obtain ⟨checkpoint, checkpointNamed, accepted⟩ := bind_eq_ok.mp accepted
  obtain ⟨_, linked, accepted⟩ := bind_eq_ok.mp accepted
  obtain ⟨_, frontier, accepted⟩ := bind_eq_ok.mp accepted
  obtain ⟨last, folded, accepted⟩ := bind_eq_ok.mp accepted
  obtain ⟨_, _, accepted⟩ := bind_eq_ok.mp accepted
  obtain ⟨_, _, accepted⟩ := bind_eq_ok.mp accepted
  cases accepted
  obtain ⟨middle, first, folded⟩ := bind_eq_ok.mp folded
  obtain ⟨final, second, done⟩ := bind_eq_ok.mp folded
  cases done
  rw [mapError_eq_ok] at named checkpointNamed
  rw [require_eq_ok, Bool.and_eq_true, decide_eq_true_iff] at linked
  obtain ⟨insertion, inserted, kept, same⟩ := admitEvent_ok first
  subst same
  obtain ⟨lastInsertion, lastInserted, lastKept, same⟩ := admitEvent_ok second
  subst same
  have middleValid := valid.insert clean.indexed.wellFormed inserted
  have compose : Admits graph.graph triggerId request.trigger.event insertion.graph →
      (∀ head ∈ insertion.graph.heads,
        head ∈ request.checkpoint.event.body.parents) ∨ checkpointId ∈ insertion.graph.events →
      Supplies graph.graph graph.storeId
        [(triggerId, request.trigger.event), (checkpointId, request.checkpoint.event)]
        lastInsertion.graph := by
    intro admits placed
    have middleClean := admits.clean clean
    exact (admits.supplies clean middleValid).trans
      ((admits_of_insert middleClean checkpointNamed placed.symm lastInserted lastKept).supplies
        middleClean (middleValid.insert middleClean.indexed.wellFormed lastInserted))
  refine ⟨named, checkpointNamed, linked.1, ?_⟩
  unfold checkPairFrontier at frontier
  by_cases recorded : triggerId ∈ graph.graph.events
  · -- A recorded trigger leaves the graph as it is; the checkpoint finds its head there.
    rw [(contains_iff clean triggerId).mpr recorded, Bool.not_true, if_neg Bool.false_ne_true,
      require_eq_ok, Bool.or_eq_true, decide_eq_true_iff, contains_iff clean] at frontier
    refine ⟨absurd recorded, ?_⟩
    obtain ⟨existing, found⟩ := (BTreeMap.mem_iff_getElem? _ _).mp recorded
    have same := insert_recorded named found inserted kept
    apply compose (admits_of_insert clean named (Or.inl recorded) inserted kept)
    rw [same]
    refine frontier.symm.imp_left ?_
    intro alone head member
    rw [alone] at member
    rw [linked.1]
    exact member
  · have unknown : graph.graph.contains triggerId = false := by
      rw [← Bool.not_eq_true, contains_iff clean]
      exact recorded
    rw [unknown, Bool.not_false, if_pos rfl, require_eq_ok, decide_eq_true_iff] at frontier
    have admits := admits_of_insert clean named
      (Or.inr fun head => (onHeads_of_sorted frontier head).mp) inserted kept
    have appended := admits.resolve_right fun before => recorded before.1
    refine ⟨fun _ => ⟨_, appended⟩, compose admits (Or.inl ?_)⟩
    intro head member
    rw [appended.heads_eq] at member
    rw [linked.1]
    exact member

end VaultAppendGraph

end Nook.EventDb
