import Nook.EventLog.StoreProjection
import Nook.EventLog.HeadVisibility

set_option autoImplicit false

namespace Nook.EventLog

open Nook.Lib Nook.Replication Relation

namespace EventGraph

variable [External] {graph next : EventGraph} {id : EventId} {event : VaultEvent}

/-- A judged graph in which no recorded event is rejected. -/
structure Clean (graph : EventGraph) : Prop extends graph.Judged where
  admitted : ∀ id, id ∉ graph.quarantined

theorem clean_new : Clean new where
  toJudged := judged_new
  admitted := by simp [quarantined, new, CausalGraph.new]

namespace Clean

theorem acyclic (clean : graph.Clean) (id : EventId) : ¬graph.causal.Ancestor id id := fun cyclic =>
  clean.admitted id ((clean.quarantined_iff id).mpr ⟨id, Or.inr cyclic, .refl⟩)

theorem edge_iff (clean : graph.Clean) (found : graph.events[id]? = some event)
    (parent : EventId) : graph.causal.Edge parent id ↔ parent ∈ event.body.parents := by
  rw [clean.indexed.edge_iff, bodyParents_of_get found]

/-- The heads are the recorded events that no event names as a parent. -/
theorem mem_heads (clean : graph.Clean) (id : EventId) :
    id ∈ graph.heads ↔ id ∈ graph.events ∧ ∀ child, ¬graph.causal.Edge id child := by
  have kept : ∀ id, id ∉ graph.causal.quarantined := clean.admitted
  rw [← clean.indexed.known_iff]
  simp only [EventGraph.heads, CausalGraph.heads, List.mem_filter, Std.ExtTreeMap.mem_keys,
    Bool.and_eq_true, Bool.not_eq_true', ← Bool.not_eq_true, Std.ExtTreeMap.contains_iff_mem,
    List.contains_iff_mem, List.mem_flatMap, not_exists, not_and]
  constructor
  · rintro ⟨known, _, childless⟩
    exact ⟨known, fun child edge => childless child ⟨edge.known, kept child⟩ edge⟩
  · rintro ⟨known, childless⟩
    exact ⟨known, kept id, fun child _ => childless child⟩

/-- Every recorded event is in the past of a head. -/
theorem exists_head (clean : graph.Clean) (recorded : id ∈ graph.events) :
    ∃ head ∈ graph.heads, graph.causal.AncestorOrSelf id head :=
  CausalGraph.exists_head_of_kept clean.indexed.wellFormed
    ((clean.indexed.known_iff id).mpr recorded) (clean.admitted id)

/-- An event on all heads is not recorded under its id yet. -/
theorem fresh_of_heads (clean : graph.Clean)
    (onHeads : ∀ existing, graph.events[id]? = some existing →
      ∀ head ∈ graph.heads, head ∈ existing.body.parents) : graph.events[id]? = none := by
  cases found : graph.events[id]? with
  | none => rfl
  | some existing =>
    obtain ⟨head, member, path⟩ := clean.exists_head (BTreeMap.mem_of_getElem? found)
    have edge := (clean.edge_iff found head).mpr (onHeads existing found head member)
    exact absurd (TransGen.tail' path edge) (clean.acyclic id)

end Clean

/-! ### An event on all heads -/

/-- A clean graph before and after a new event on all its heads, which is not rejected. -/
structure Appended (graph : EventGraph) (id : EventId) (event : VaultEvent) (next : EventGraph) :
    Prop where
  clean : graph.Clean
  fresh : graph.events[id]? = none
  onHeads : ∀ head ∈ graph.heads, head ∈ event.body.parents
  judged : next.Judged
  events_eq : next.events = graph.events.insert id event
  retained : id ∉ next.quarantined

namespace Appended

variable (appended : Appended graph id event next)
include appended

theorem getElem?_events (other : EventId) :
    next.events[other]? = if id = other then some event else graph.events[other]? := by
  rw [appended.events_eq]
  exact BTreeMap.getElem?_insert_eq graph.events id other event

theorem own : next.events[id]? = some event := by
  rw [appended.getElem?_events, if_pos rfl]

theorem grows : next.Extends graph := by
  intro other content found
  rw [appended.getElem?_events, if_neg]
  · exact found
  · rintro rfl
    rw [appended.fresh] at found
    cases found

theorem recorded_before {other : EventId} (apart : other ≠ id) (recorded : other ∈ next.events) :
    other ∈ graph.events := by
  obtain ⟨content, found⟩ := (BTreeMap.mem_iff_getElem? _ _).mp recorded
  rw [appended.getElem?_events, if_neg (Ne.symm apart)] at found
  exact BTreeMap.mem_of_getElem? found

theorem edge_head {head : EventId} (member : head ∈ graph.heads) : next.causal.Edge head id := by
  rw [appended.judged.indexed.edge_iff, bodyParents_of_get appended.own]
  exact appended.onHeads head member

/-- Every earlier event is an ancestor of the new one. -/
theorem ancestor {other : EventId} (recorded : other ∈ graph.events) :
    next.causal.Ancestor other id := by
  obtain ⟨head, member, path⟩ := appended.clean.exists_head recorded
  exact TransGen.tail' (ancestorOrSelf_extend appended.judged.indexed appended.clean.indexed
    appended.grows path) (appended.edge_head member)

/-- No event names the new one as a parent: it would be on a cycle through a head. -/
theorem childless (child : EventId) : ¬next.causal.Edge id child := by
  intro edge
  have cyclic : next.causal.Ancestor id id := by
    by_cases itself : child = id
    · exact .single (itself ▸ edge)
    · have recorded := (appended.judged.indexed.known_iff child).mp edge.known
      exact .head edge (appended.ancestor (appended.recorded_before itself recorded))
  exact appended.retained ((appended.judged.quarantined_iff id).mpr ⟨id, Or.inr cyclic, .refl⟩)

theorem edge_before {parent child : EventId} (apart : child ≠ id)
    (edge : next.causal.Edge parent child) : graph.causal.Edge parent child := by
  have recorded := (appended.judged.indexed.known_iff child).mp edge.known
  exact (edge_iff_of_extends appended.judged.indexed appended.clean.indexed appended.grows
    (appended.recorded_before apart recorded) parent).mpr edge

/-- The order among the earlier events is as it was. -/
theorem ancestor_before {older other : EventId} (apart : other ≠ id)
    (path : next.causal.Ancestor older other) : graph.causal.Ancestor older other := by
  induction path with
  | single edge => exact .single (appended.edge_before apart edge)
  | @tail middle other before edge ih =>
    have inner : middle ≠ id := by
      rintro rfl
      exact appended.childless other edge
    exact (ih inner).tail (appended.edge_before apart edge)

/-- The past of an earlier event was recorded before if it is now. -/
theorem present_before {other : EventId} (apart : other ≠ id)
    (present : next.causal.Present other) : graph.causal.Present other := by
  rw [present_iff_of_extends appended.judged.indexed appended.clean.indexed appended.grows]
  intro older path
  have distinct : older ≠ id := by
    rintro rfl
    rcases ReflTransGen.cases_head path with itself | ⟨child, edge, _⟩
    · exact apart itself.symm
    · exact appended.childless child edge
  exact appended.recorded_before distinct
    ((appended.judged.indexed.known_iff older).mp (present older path))

/-- The new event makes no other one rejected. -/
theorem next_clean : next.Clean := by
  refine ⟨appended.judged, ?_⟩
  intro other rejected
  obtain ⟨root, cause, path⟩ := (appended.judged.quarantined_iff other).mp rejected
  have apart : root ≠ id := by
    rintro rfl
    exact appended.retained ((appended.judged.quarantined_iff root).mpr ⟨root, cause, .refl⟩)
  rcases cause with refused | cyclic
  · have before := (refused_iff_of_extends appended.judged.indexed appended.clean.indexed
      appended.grows (appended.present_before apart refused.1)).mpr refused
    exact appended.clean.admitted root
      ((appended.clean.quarantined_iff root).mpr ⟨root, Or.inl before, .refl⟩)
  · exact appended.clean.acyclic root (appended.ancestor_before apart cyclic)

/-- The new event is the only head. -/
theorem heads_eq : next.heads = [id] := by
  have nodup : next.heads.Nodup := Std.ExtTreeMap.nodup_keys.filter _
  refine List.perm_singleton.mp ((List.perm_ext_iff_of_nodup nodup (List.nodup_singleton id)).mpr ?_)
  intro other
  rw [appended.next_clean.mem_heads, List.mem_singleton]
  constructor
  · rintro ⟨recorded, alone⟩
    by_contra apart
    obtain ⟨child, edge, _⟩ :=
      TransGen.head'_iff.mp (appended.ancestor (appended.recorded_before apart recorded))
    exact alone child edge
  · rintro rfl
    exact ⟨BTreeMap.mem_of_getElem? appended.own, appended.childless⟩

omit appended in
/-- What is appended to a graph is appended to any other clean graph of the same events. -/
theorem of_events {other : EventGraph} (appended : Appended graph id event next)
    (clean : other.Clean) (same : other.events = graph.events) : Appended other id event next where
  clean := clean
  fresh := same ▸ appended.fresh
  onHeads := by
    have heads : other.heads = graph.heads :=
      (clean.toJudged.agrees appended.clean.toJudged same).heads_eq
    exact heads ▸ appended.onHeads
  judged := appended.judged
  events_eq := same ▸ appended.events_eq
  retained := appended.retained

end Appended

/-- What an accepted insertion of a new event computes. -/
theorem insert_fresh {expectedStoreId : Str} {insertion : EventGraphInsertion}
    (named : event.id = .ok id) (fresh : graph.events[id]? = none)
    (inserted : graph.insert event expectedStoreId = .ok insertion) :
    (∃ storeId, (StoreId.parse expectedStoreId) = .ok storeId ∧
      event.validateEnvelope storeId = .ok id) ∧
    ∃ settled, (graph.recordEvent id event).quarantineRejectedApplicableEvents = .ok settled ∧
      insertion = ⟨settled, settled.insertStatus id (graph.causal.insert id event.body.parents).status⟩ := by
  unfold insert at inserted
  cases admitted : graph.admission event expectedStoreId with
  | error cause =>
    rw [admitted] at inserted
    cases inserted
  | ok verdict =>
    have judged := admitted
    unfold admission at judged
    obtain ⟨storeId, parsed, judged⟩ := bind_eq_ok.mp judged
    obtain ⟨own, valid, judged⟩ := bind_eq_ok.mp judged
    have same := validateEnvelope_id valid
    rw [named] at same
    cases same
    rw [fresh] at judged
    cases judged
    rw [admitted] at inserted
    obtain ⟨settled, passed, result⟩ := bind_eq_ok.mp inserted
    cases result
    exact ⟨⟨storeId, mapError_eq_ok.mp parsed, valid⟩, settled, passed, rfl⟩

/-- A new event on all heads that is inserted and not rejected. -/
theorem Clean.appended (clean : graph.Clean) {expectedStoreId : Str}
    {insertion : EventGraphInsertion} (named : event.id = .ok id)
    (fresh : graph.events[id]? = none)
    (onHeads : ∀ head ∈ graph.heads, head ∈ event.body.parents)
    (inserted : graph.insert event expectedStoreId = .ok insertion)
    (admitted : ∀ reason, insertion.status ≠ .quarantined reason) :
    Appended graph id event insertion.graph := by
  obtain ⟨_, settled, passed, same⟩ := insert_fresh named fresh inserted
  subst same
  have spec := quarantineRejected_spec
    (wellFormed_recordEvent clean.indexed.wellFormed id event)
  rw [passed] at spec
  have steps : Quarantined (graph.recordEvent id event) settled := spec.1
  refine ⟨clean, fresh, onHeads, clean.toJudged.record fresh steps (spec.2 settled rfl),
    steps.events_eq, ?_⟩
  intro rejected
  obtain ⟨reason, found⟩ := (BTreeMap.mem_iff_getElem? _ _).mp rejected
  refine admitted reason ?_
  unfold insertStatus
  rw [show settled.causal.quarantined[id]? = some reason from found]

/-! ### Inserting the events of a clean graph in any order -/

/-- Every recorded event passed the validation of its envelope for the store. -/
def ValidFor (graph : EventGraph) (expectedStoreId : Str) : Prop :=
  ∀ (id : EventId) (event : VaultEvent), graph.events[id]? = some event →
    ∃ storeId, StoreId.parse expectedStoreId = .ok storeId ∧
      event.validateEnvelope storeId = .ok id

/-- A part of a clean graph that records one more event of it is clean. -/
theorem Clean.recordEvent_part {part : EventGraph} (clean : graph.Clean) (partClean : part.Clean)
    (larger : graph.Extends part) (recorded : graph.events[id]? = some event)
    (fresh : part.events[id]? = none) :
    (part.recordEvent id event).Clean ∧ graph.Extends (part.recordEvent id event) := by
  have nextIndexed := partClean.indexed.recordEvent fresh event
  have nextLarger : graph.Extends (part.recordEvent id event) := by
    intro other content found
    rw [events_recordEvent] at found
    split at found
    · rename_i same
      cases found
      exact same ▸ recorded
    · exact larger other content found
  have settled : (part.recordEvent id event).Settled := by
    rw [nextIndexed.settled_iff]
    intro other content applicable found
    have present : graph.causal.Present other := by
      intro ancestor path
      have inside := (present_iff_of_extends clean.indexed nextIndexed nextLarger other).mp
        applicable.1 ancestor path
      obtain ⟨older, olderFound⟩ := (BTreeMap.mem_iff_getElem? _ _).mp inside
      exact (clean.indexed.known_iff ancestor).mpr
        (BTreeMap.mem_of_getElem? (nextLarger ancestor older olderFound))
    have whole := nextLarger other content found
    rw [(samePast_of_extends nextIndexed nextLarger applicable.1 found).classifyEvent_eq]
    exact clean.indexed.retain_verdict (clean.settled other (BTreeMap.mem_of_getElem? whole))
      ⟨present, clean.admitted other⟩ whole
  have judged := partClean.toJudged.record fresh ReflTransGen.refl settled
  exact ⟨⟨judged, fun other rejected => clean.admitted other
    (clean.toJudged.quarantined_of_extends judged nextLarger rejected)⟩, nextLarger⟩

/-- An event of a clean graph goes into a part of it without a rejection. -/
theorem Clean.insert_part {part : EventGraph} (clean : graph.Clean) (partClean : part.Clean)
    (larger : graph.Extends part) {expectedStoreId : Str} (valid : graph.ValidFor expectedStoreId)
    (recorded : graph.events[id]? = some event) :
    ∃ insertion, part.insert event expectedStoreId = .ok insertion ∧ insertion.graph.Clean ∧
      graph.Extends insertion.graph ∧ insertion.graph.Extends part ∧
      insertion.graph.events[id]? = some event := by
  obtain ⟨storeId, parsed, enveloped⟩ := valid id event recorded
  cases found : part.events[id]? with
  | some existing =>
    have same : existing = event := by
      have both := larger id existing found
      rw [recorded] at both
      exact (Option.some.inj both).symm
    subst same
    have admitted : part.admission existing expectedStoreId = .ok .duplicate := by
      obtain ⟨bytes, encoded, _⟩ := bind_eq_ok.mp (validateEnvelope_id enveloped)
      unfold admission
      rw [parsed, Except.mapError]
      simp only [bind, Except.bind, enveloped, found, encoded]
      rfl
    have inserted : part.insert existing expectedStoreId = .ok ⟨part, .duplicate⟩ := by
      unfold insert
      rw [admitted]
    exact ⟨_, inserted, partClean, larger, fun _ _ old => old, found⟩
  | none =>
    have admitted : part.admission event expectedStoreId = .ok (.insert id) := by
      unfold admission
      rw [parsed, Except.mapError]
      simp only [bind, Except.bind, enveloped, found]
      rfl
    obtain ⟨nextClean, nextLarger⟩ := clean.recordEvent_part partClean larger recorded found
    have inserted : part.insert event expectedStoreId = .ok ⟨part.recordEvent id event,
        (part.recordEvent id event).insertStatus id
          (part.causal.insert id event.body.parents).status⟩ := by
      unfold insert
      rw [admitted]
      dsimp only
      rw [nextClean.settled.quarantineRejected_eq]
      rfl
    have own : (part.recordEvent id event).events[id]? = some event := by
      rw [events_recordEvent, if_pos rfl]
    exact ⟨_, inserted, nextClean, nextLarger, extends_recordEvent found, own⟩

/-- The events of a clean graph, inserted in any order, make a clean graph of them. -/
theorem Clean.insertAll_part {part : EventGraph} (clean : graph.Clean) (partClean : part.Clean)
    (larger : graph.Extends part) {expectedStoreId : Str} (valid : graph.ValidFor expectedStoreId)
    (events : List VaultEvent)
    (recorded : ∀ event ∈ events, ∃ id : EventId, graph.events[id]? = some event) :
    ∃ final, part.insertAll expectedStoreId events = .ok final ∧ final.Clean ∧
      graph.Extends final ∧ final.Extends part ∧
      ∀ event ∈ events, ∃ id : EventId, final.events[id]? = some event := by
  induction events generalizing part with
  | nil => exact ⟨part, rfl, partClean, larger, fun _ _ old => old, by simp⟩
  | cons head tail ih =>
    obtain ⟨headId, headFound⟩ := recorded head (by simp)
    obtain ⟨insertion, inserted, middleClean, middleLarger, grown, own⟩ :=
      clean.insert_part partClean larger valid headFound
    obtain ⟨final, rest, finalClean, finalLarger, kept, covers⟩ := ih middleClean middleLarger
      fun event member => recorded event (by simp [member])
    refine ⟨final, ?_, finalClean, finalLarger, ?_, ?_⟩
    · exact bind_eq_ok.mpr ⟨insertion.graph, bind_eq_ok.mpr ⟨insertion, inserted, rfl⟩, rest⟩
    · exact fun id event old => kept id event (grown id event old)
    · intro event member
      rcases List.mem_cons.mp member with same | later
      · exact ⟨headId, same ▸ kept headId head own⟩
      · exact covers event later

theorem Clean.insertAll (clean : graph.Clean) {expectedStoreId : Str}
    (valid : graph.ValidFor expectedStoreId) :
    ∃ final, new.insertAll expectedStoreId graph.events.intoValues = .ok final ∧ final.Clean ∧
      final.events = graph.events := by
  obtain ⟨final, inserted, finalClean, larger, _, covers⟩ := clean.insertAll_part clean_new
    (by simp [Extends, new]) valid graph.events.intoValues fun event member =>
      (BTreeMap.mem_intoValues graph.events event).mp member
  refine ⟨final, inserted, finalClean, BTreeMap.ext fun id => Option.ext fun event => ?_⟩
  constructor
  · exact fun found => larger id event found
  · intro found
    obtain ⟨other, held⟩ := covers event ((BTreeMap.mem_intoValues graph.events event).mpr
      ⟨id, found⟩)
    obtain ⟨_, _, enveloped⟩ := valid id event found
    obtain ⟨_, _, otherEnveloped⟩ := valid other event (larger other event held)
    have same := (validateEnvelope_id enveloped).symm.trans (validateEnvelope_id otherEnveloped)
    cases same
    exact held

end EventGraph

end Nook.EventLog
