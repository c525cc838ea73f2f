import Nook.IdentityControl.Contested
import Nook.IdentityControl.Projection

set_option autoImplicit false

namespace Nook.IdentityControl

open Nook.Lib Nook.Replication Nook.EventLog Relation

namespace IdentityControlLog

variable [IdentityExternal] {whole log : IdentityControlLog} {id : EventId}

/-- Joins are compared over the recorded events alone. -/
theorem Part.outbids_eq (within : Part log whole) (complete : log.events = whole.events) :
    log.Outbids = whole.Outbids := by
  have issued : log.issuedInvite = whole.issuedInvite := by
    unfold issuedInvite ancestry bodyParentCount bodyParents
    rw [complete]
  have holds : log.inviteJoinHolds = whole.inviteJoinHolds := by
    funext event
    unfold inviteJoinHolds
    rw [issued, within.identity]
  funext other id
  unfold Outbids
  rw [complete, holds]

/-- A rejection leaves accepted what was. -/
theorem QuarantineStep.accepts {next : IdentityControlLog} (step : QuarantineStep log next)
    (indexed : log.Indexed) (enveloped : log.Enveloped) (applicable : next.causal.Applicable id)
    (accepted : log.verdict id = none) : next.verdict id = none := by
  obtain ⟨identity, events, _⟩ := step.frame
  have within : Part next log := ⟨identity, fun _ _ found => events ▸ found,
    Quarantined.indexed (.single step) indexed, indexed⟩
  have present := applicable.1
  obtain ⟨unrefused, unbid, uncountered⟩ :=
    (enveloped.accepts_iff indexed (within.present present)).mp accepted
  apply ((within.enveloped enveloped).accepts_iff within.partIndexed present).mpr
  refine ⟨?_, ?_, ?_⟩
  · rwa [within.pastRefused_iff enveloped present]
  · rwa [within.outbids_eq events, events]
  · intro revocation listed counters
    rw [CausalGraph.mem_applicableIds] at listed
    rw [within.counters_iff enveloped present listed.1] at counters
    exact uncountered revocation ((CausalGraph.mem_applicableIds revocation).mpr
      (step.applicable indexed.wellFormed listed)) counters

/-- A log on the way to the whole record: what it has rejected is below something doomed. -/
structure Justified (whole log : IdentityControlLog) : Prop where
  within : Part log whole
  roots : ∀ root ∈ log.causal.quarantineRoots, ∃ cause, whole.causal.AncestorOrSelf cause root ∧
    whole.Doomed cause

theorem Justified.exists_doomed (justified : Justified whole log)
    (rejected : id ∈ log.causal.quarantined) :
    ∃ cause, whole.causal.AncestorOrSelf cause id ∧ whole.Doomed cause := by
  have wellFormed := justified.within.partIndexed.wellFormed
  obtain ⟨root, why, path⟩ := (wellFormed.quarantined_iff id).mp rejected
  have below := ReflTransGen.mono justified.within.edge _ _ path
  rcases why with member | cyclic
  · obtain ⟨cause, before, doomed⟩ := justified.roots root member
    exact ⟨cause, before.trans below, doomed⟩
  · rw [wellFormed.cyclic_iff] at cyclic
    exact ⟨root, below, Or.inl (TransGen.mono justified.within.edge _ _ cyclic)⟩

theorem Justified.reject (justified : Justified whole log) {reason : String}
    (present : log.causal.Present id) (rejected : log.verdict id = some reason)
    (caused : ∃ cause, whole.causal.AncestorOrSelf cause id ∧ whole.Doomed cause) :
    Justified whole { log with causal := log.causal.quarantine id reason } := by
  have step : QuarantineStep log { log with causal := log.causal.quarantine id reason } :=
    .reject present rejected
  constructor
  · exact ⟨justified.within.identity, justified.within.recorded,
      Quarantined.indexed (.single step) justified.within.partIndexed, justified.within.indexed⟩
  · intro root member
    change root ∈ mergeQuarantineReason _ _ _ at member
    rcases (mem_mergeQuarantineReason _ _ _ _).mp member with rfl | old
    · exact caused
    · exact justified.roots root old

theorem Justified.recordEvent (justified : Justified whole log) {event : IdentityEvent}
    (fresh : log.events[id]? = none) (delivered : whole.events[id]? = some event) :
    Justified whole (log.recordEvent id event) := by
  have within := justified.within
  constructor
  · refine ⟨within.identity, ?_, within.partIndexed.recordEvent fresh event, within.indexed⟩
    intro other found recorded
    rw [events_recordEvent] at recorded
    split at recorded
    · rename_i same
      rw [← same, delivered, recorded]
    · exact within.recorded other found recorded
  · rw [within.partIndexed.quarantineRoots_recordEvent fresh event]
    exact justified.roots

theorem insert_delivered (wellFormed : log.causal.WellFormed) {event : IdentityEvent}
    {insertion : IdentityControlInsertion} (accepted : log.insert event = .ok insertion) :
    (∃ id, event.validateEnvelope log.identityId = .ok id ∧ id ∈ insertion.log.events) ∧
      ∀ id ∈ log.events, id ∈ insertion.log.events := by
  unfold IdentityControlLog.insert at accepted
  split at accepted
  · cases accepted
  rename_i id valid
  split at accepted
  · rename_i recorded
    injection accepted with same
    rw [← same]
    exact ⟨⟨id, valid, Std.ExtTreeMap.contains_iff_mem.mp recorded⟩, fun _ known => known⟩
  split at accepted
  · cases accepted
  injection accepted with same
  rw [← same]
  have events : (log.recordEvent id event).quarantineUnauthorized.events =
      log.events.insert id event :=
    events_quarantineUnauthorized (CausalGraph.insert_wellFormed wellFormed id event.body.parents)
  dsimp only
  rw [events]
  exact ⟨⟨id, valid, Std.ExtTreeMap.mem_insert_self⟩, fun other known =>
    (BTreeMap.mem_insert_eq _ _ _ _).mpr (Or.inr known)⟩

/-- Two applicable events meet when a pass has accepted all it came to before the second. -/
theorem Justified.meets (justified : Justified whole log) (enveloped : whole.Enveloped)
    (applicable : log.causal.Applicable id) {revocation : EventId}
    (standing : log.causal.Applicable revocation)
    (judged : ∀ earlier, earlier < id → log.causal.Applicable earlier →
      log.verdict earlier = none) : whole.Meets revocation id := by
  have within := justified.within
  have indexed := within.partIndexed
  have joint : ∀ earlier, whole.JointPast revocation id earlier → log.causal.Applicable earlier := by
    intro earlier below
    rcases below with path | path
    · exact standing.ancestor indexed.wellFormed
        ((within.ancestorOrSelf_iff standing.1 earlier).mpr path)
    · exact applicable.ancestor indexed.wellFormed
        ((within.ancestorOrSelf_iff applicable.1 earlier).mpr path)
  refine ⟨within.present standing.1, ?_⟩
  intro earlier _ below
  have kept := joint earlier below
  constructor
  · rw [← within.ancestor_iff kept.1]
    exact kept.acyclic indexed.wellFormed
  · intro lower
    obtain ⟨unrefused, unbid, uncountered⟩ :=
      ((within.enveloped enveloped).accepts_iff indexed kept.1).mp (judged earlier lower kept)
    rw [within.pastRefused_iff enveloped kept.1] at unrefused
    refine ⟨unrefused, ?_⟩
    intro other _ otherBelow
    have otherKept := joint other otherBelow
    rw [← within.outbids_iff kept.1 otherKept.1, ← within.counters_iff enveloped kept.1 otherKept.1]
    constructor
    · exact unbid other (Std.ExtTreeMap.mem_keys.mpr
        ((indexed.known_iff other).mp otherKept.1.known))
    · exact uncountered other ((CausalGraph.mem_applicableIds other).mpr otherKept)

section Convergent

variable (enveloped : whole.Enveloped) (convergent : whole.Convergent)
include enveloped convergent

/-- What a pass rejects is below something doomed. -/
theorem Justified.cause (justified : Justified whole log) {reason : String}
    (present : log.causal.Present id) (rejected : log.verdict id = some reason)
    (judged : ∀ earlier, earlier < id → log.causal.Applicable earlier →
      log.verdict earlier = none) :
    ∃ cause, whole.causal.AncestorOrSelf cause id ∧ whole.Doomed cause := by
  have within := justified.within
  have wholly := within.present present
  by_cases gone : id ∈ log.causal.quarantined
  · exact justified.exists_doomed gone
  have contest : whole.Contested id →
      ∃ cause, whole.causal.AncestorOrSelf cause id ∧ whole.Doomed cause := by
    intro contested
    obtain ⟨cause, _, path, doomed⟩ :=
      convergent id (Std.ExtTreeMap.mem_keys.mpr wholly.known) contested
    exact ⟨cause, path, doomed⟩
  have refused : ¬log.verdict id = none := by simp [rejected]
  rw [(within.enveloped enveloped).accepts_iff within.partIndexed present] at refused
  by_cases past : log.PastRefused id
  · exact ⟨id, .refl, Or.inr (Or.inl ((within.pastRefused_iff enveloped present).mp past))⟩
  by_cases outbid : ∃ other, log.Outbids other id
  · obtain ⟨other, outbids⟩ := outbid
    exact contest ⟨wholly, Or.inl (within.rivalled outbids)⟩
  have countered : ∃ revocation ∈ log.causal.applicableIds, log.Counters revocation id := by
    by_contra uncountered
    exact refused ⟨past, fun other _ outbids => outbid ⟨other, outbids⟩,
      fun revocation listed counters => uncountered ⟨revocation, listed, counters⟩⟩
  obtain ⟨revocation, listed, counters⟩ := countered
  rw [CausalGraph.mem_applicableIds] at listed
  exact contest ⟨wholly, Or.inr ⟨revocation,
    Std.ExtTreeMap.mem_keys.mpr (within.present listed.1).known,
    (within.counters_iff enveloped present listed.1).mp counters,
    justified.meets enveloped ⟨present, gone⟩ listed judged⟩⟩

theorem Justified.pass (justified : Justified whole log) (changed : Bool) (ids : List EventId)
    (sorted : ids.Pairwise (· < ·)) (present : ∀ id ∈ ids, log.causal.Present id)
    (judged : ∀ id, log.causal.Applicable id → id ∉ ids → log.verdict id = none) :
    Justified whole (log.quarantinePass changed ids).1 := by
  induction ids generalizing log changed with
  | nil => exact justified
  | cons id ids ih =>
    obtain ⟨first, rest⟩ := List.pairwise_cons.mp sorted
    have shown := present id List.mem_cons_self
    have later : ∀ other ∈ ids, log.causal.Present other := fun other member =>
      present other (List.mem_cons_of_mem _ member)
    unfold quarantinePass
    split
    · rename_i accepted
      apply ih justified changed rest later
      intro other applicable fresh
      by_cases same : other = id
      · rw [same, accepted]
      · exact judged other applicable (by simp [same, fresh])
    · rename_i reason rejected
      have caused := justified.cause enveloped convergent shown rejected (by
        intro earlier before applicable
        apply judged earlier applicable
        intro member
        rcases List.mem_cons.mp member with rfl | member
        · exact lt_irrefl earlier before
        · exact lt_asymm before (first earlier member))
      have step : QuarantineStep log { log with causal := log.causal.quarantine id reason } :=
        .reject shown rejected
      apply ih (justified.reject shown rejected caused) true rest later
      intro other applicable fresh
      obtain ⟨before, apart⟩ := (CausalGraph.applicable_quarantine
        justified.within.partIndexed.wellFormed id other reason).mp applicable
      apply step.accepts justified.within.partIndexed (justified.within.enveloped enveloped)
        applicable
      apply judged other before
      rw [List.mem_cons, not_or]
      exact ⟨fun same => apart (same ▸ .refl), fresh⟩

theorem Justified.quarantineUnauthorized (justified : Justified whole log) :
    Justified whole log.quarantineUnauthorized := by
  have pass : ∀ state, Justified whole state →
      Justified whole (state.quarantinePass false state.causal.applicableIds).1 := by
    intro state holds
    apply holds.pass enveloped convergent false _ (CausalGraph.pairwise_applicableIds _)
    · exact fun id member => ((CausalGraph.mem_applicableIds id).mp member).1
    · intro id applicable absent
      exact absurd ((CausalGraph.mem_applicableIds id).mpr applicable) absent
  unfold IdentityControlLog.quarantineUnauthorized
  cases ran : runLoop quarantineRound (log.causal.applicableIds.length + 1) log with
  | none => exact justified
  | some result =>
    obtain ⟨last, holds, leaves⟩ := runLoop_some quarantineRound (Justified whole) (by
      intro state next holds again
      have after := pass state holds
      unfold quarantineRound at again
      split at again
      · rename_i ran
        injection again with same
        rw [ran] at after
        exact same ▸ after
      · cases again) _ log justified result ran
    have after := pass last holds
    unfold quarantineRound at leaves
    split at leaves
    · cases leaves
    · rename_i ran
      injection leaves with same
      rw [ran] at after
      exact same ▸ after

theorem Justified.insert (justified : Justified whole log) {event : IdentityEvent}
    {insertion : IdentityControlInsertion} (accepted : log.insert event = .ok insertion)
    (delivered : ∀ id : EventId, event.validateEnvelope whole.identityId = .ok id →
      whole.events[id]? = some event) : Justified whole insertion.log := by
  have inserted := inserted_insert accepted
  generalize insertion.log = next at inserted ⊢
  cases inserted with
  | duplicate => exact justified
  | recorded id valid fresh =>
    rw [justified.within.identity] at valid
    exact (justified.recordEvent fresh (delivered id valid)).quarantineUnauthorized enveloped
      convergent

/-- A run keeps what it finds and records what it is given. -/
theorem Justified.insertAll (justified : Justified whole log) {events : List IdentityEvent}
    {last : IdentityControlLog} (accepted : log.insertAll events = .ok last)
    (delivered : ∀ event ∈ events, ∀ id : EventId,
      event.validateEnvelope whole.identityId = .ok id → whole.events[id]? = some event) :
    Justified whole last ∧ (∀ id ∈ log.events, id ∈ last.events) ∧
      ∀ event ∈ events, ∃ id, event.validateEnvelope whole.identityId = .ok id ∧
        id ∈ last.events := by
  induction events generalizing log with
  | nil =>
    cases accepted
    exact ⟨justified, fun _ known => known, by simp⟩
  | cons event events ih =>
    unfold IdentityControlLog.insertAll at accepted
    rw [List.foldlM_cons] at accepted
    obtain ⟨middle, first, rest⟩ := bind_eq_ok.mp accepted
    obtain ⟨insertion, inserted, same⟩ := bind_eq_ok.mp first
    cases same
    have next := justified.insert enveloped convergent inserted (delivered event List.mem_cons_self)
    obtain ⟨⟨id, valid, recorded⟩, kept⟩ :=
      insert_delivered justified.within.partIndexed.wellFormed inserted
    obtain ⟨final, keeps, records⟩ := ih next rest fun other member =>
      delivered other (List.mem_cons_of_mem _ member)
    rw [justified.within.identity] at valid
    refine ⟨final, fun id known => keeps id (kept id known), ?_⟩
    intro other member
    rcases List.mem_cons.mp member with rfl | member
    · exact ⟨id, valid, keeps id recorded⟩
    · exact records other member

end Convergent

/-! ### The whole record -/

/-- The log with the event recorded, if it is valid and new, and nothing judged. -/
def record (log : IdentityControlLog) (event : IdentityEvent) : IdentityControlLog :=
  match event.validateEnvelope log.identityId with
  | .error _ => log
  | .ok id => if log.events.contains id then log else log.recordEvent id event

/-- The valid events of a list with their causal order, and no verdict on them. -/
def recordAll (identityId : IdentityId) (events : List IdentityEvent) : IdentityControlLog :=
  events.foldl record (.new identityId)

/-- The log holds the valid events of the list, indexed, and rejects none. -/
structure Records (log : IdentityControlLog) (identityId : IdentityId)
    (events : List IdentityEvent) : Prop where
  identity : log.identityId = identityId
  indexed : log.Indexed
  listed : ∀ (id : EventId) event, log.events[id]? = some event →
    event ∈ events ∧ event.validateEnvelope identityId = .ok id
  recorded : ∀ event ∈ events, ∀ id : EventId, event.validateEnvelope identityId = .ok id →
    id ∈ log.events

theorem Records.record {identityId : IdentityId} {past : List IdentityEvent}
    (records : log.Records identityId past) (event : IdentityEvent) :
    (log.record event).Records identityId (past ++ [event]) := by
  have widen : ∀ (id : EventId) other, log.events[id]? = some other →
      other ∈ past ++ [event] ∧ other.validateEnvelope identityId = .ok id := fun id other found =>
    ⟨List.mem_append_left _ (records.listed id other found).1, (records.listed id other found).2⟩
  have skip : (∀ id : EventId, event.validateEnvelope identityId = .ok id → id ∈ log.events) →
      log.Records identityId (past ++ [event]) := by
    intro known
    refine ⟨records.identity, records.indexed, widen, ?_⟩
    intro other member
    rcases List.mem_append.mp member with old | new
    · exact records.recorded other old
    · rw [List.mem_singleton.mp new]
      exact known
  unfold IdentityControlLog.record
  rw [records.identity]
  split
  · rename_i invalid
    apply skip
    intro id valid
    rw [invalid] at valid
    cases valid
  rename_i id valid
  split
  · rename_i present
    apply skip
    intro other same
    rw [valid] at same
    cases same
    exact Std.ExtTreeMap.contains_iff_mem.mp present
  rename_i absent
  rw [Std.ExtTreeMap.contains_iff_mem, BTreeMap.not_mem_iff_getElem?] at absent
  refine ⟨records.identity, records.indexed.recordEvent absent event, ?_, ?_⟩
  · intro other found recorded
    rw [events_recordEvent] at recorded
    split at recorded
    · rename_i same
      cases recorded
      exact ⟨by simp, same ▸ valid⟩
    · exact widen other found recorded
  · intro other member otherId otherValid
    show otherId ∈ log.events.insert id event
    rw [BTreeMap.mem_insert_eq]
    rcases List.mem_append.mp member with old | new
    · exact Or.inr (records.recorded other old otherId otherValid)
    · rw [List.mem_singleton.mp new, valid] at otherValid
      injection otherValid with same
      exact Or.inl same

theorem records_recordAll (identityId : IdentityId) (events : List IdentityEvent) :
    (recordAll identityId events).Records identityId events := by
  have run : ∀ (rest past : List IdentityEvent) (log : IdentityControlLog),
      log.Records identityId past → (rest.foldl record log).Records identityId (past ++ rest) := by
    intro rest
    induction rest with
    | nil =>
      intro past log records
      rwa [List.append_nil]
    | cons event rest ih =>
      intro past log records
      rw [List.append_cons]
      exact ih _ _ (records.record event)
  refine run events [] (.new identityId) ⟨rfl, (sound_new identityId).indexed, ?_, ?_⟩
  · intro id event found
    simp [new] at found
  · intro event member
    cases member

/-- The event that the list has under an id is the one recorded under it. -/
theorem Records.lookup {identityId : IdentityId} {events : List IdentityEvent}
    (records : log.Records identityId events)
    (single : ∀ event ∈ events, ∀ other ∈ events, event.id = other.id → event = other)
    {event : IdentityEvent} (member : event ∈ events)
    (valid : event.validateEnvelope identityId = .ok id) : log.events[id]? = some event := by
  obtain ⟨other, found⟩ :=
    (BTreeMap.mem_iff_getElem? _ _).mp (records.recorded event member id valid)
  obtain ⟨listed, otherValid⟩ := records.listed id other found
  have same := single event member other listed
    ((IdentityEvent.validateEnvelope_ok valid).2.trans
      (IdentityEvent.validateEnvelope_ok otherValid).2.symm)
  rw [found, same]

/-! ### The rejected ids of a complete log -/

omit [IdentityExternal] in
theorem Part.parents_eq (within : Part log whole) (complete : log.events = whole.events) :
    log.causal.parents = whole.causal.parents := by
  apply Std.ExtTreeMap.ext_getElem?
  intro id
  rw [within.partIndexed.parents_eq, within.indexed.parents_eq, complete]

omit [IdentityExternal] in
theorem isAncestor_congr (same : log.causal.parents = whole.causal.parents) :
    log.causal.isAncestor = whole.causal.isAncestor := by
  funext ancestor descendant
  rw [Bool.eq_iff_iff, CausalGraph.isAncestor_iff, CausalGraph.isAncestor_iff,
    CausalGraph.ancestorOrSelf_congr same]

/-- A log that has everything and accepts what is left rejects what is doomed. -/
theorem Justified.rejects_doomed (justified : Justified whole log) (enveloped : whole.Enveloped)
    (settled : ∀ id, log.causal.Applicable id → log.verdict id = none)
    (complete : log.events = whole.events) (doomed : whole.Doomed id) :
    id ∈ log.causal.quarantined := by
  have within := justified.within
  have parents := within.parents_eq complete
  have wellFormed := within.partIndexed.wellFormed
  have present_iff := CausalGraph.present_congr parents
  by_contra kept
  have accepted : log.causal.Present id → ¬log.PastRefused id ∧
      (∀ other ∈ log.events.keys, ¬log.Outbids other id) ∧
        ∀ revocation ∈ log.causal.applicableIds, ¬log.Counters revocation id := fun present =>
    ((within.enveloped enveloped).accepts_iff within.partIndexed present).mp
      (settled id ⟨present, kept⟩)
  rcases doomed with cyclic | refused | ⟨present, doomed⟩
  · apply kept
    rw [← CausalGraph.ancestor_congr parents, ← wellFormed.cyclic_iff] at cyclic
    exact (wellFormed.quarantined_iff id).mpr ⟨id, Or.inr cyclic, .refl⟩
  · have present := (present_iff id).mpr refused.1
    exact (accepted present).1 ((within.pastRefused_iff enveloped present).mpr refused)
  rw [← present_iff] at present
  obtain ⟨_, unbid, uncountered⟩ := accepted present
  rcases doomed with ⟨other, known, outbids⟩ | ⟨revocation, _, counters, firm⟩
  · rw [← within.outbids_eq complete] at outbids
    rw [Std.ExtTreeMap.mem_keys, within.indexed.known_iff, ← complete] at known
    exact unbid other (Std.ExtTreeMap.mem_keys.mpr known) outbids
  · have standing := (present_iff revocation).mpr firm.1
    have applicable : log.causal.Applicable revocation := by
      refine ⟨standing, ?_⟩
      intro rejected
      obtain ⟨cause, path, fallen⟩ := justified.exists_doomed rejected
      exact firm.not_doomed within.indexed path fallen
    rw [← within.counters_iff enveloped present standing] at counters
    exact uncountered revocation ((CausalGraph.mem_applicableIds revocation).mpr applicable) counters

theorem Justified.quarantined_iff (justified : Justified whole log) (enveloped : whole.Enveloped)
    (settled : ∀ id, log.causal.Applicable id → log.verdict id = none)
    (complete : log.events = whole.events) (id : EventId) :
    id ∈ log.causal.quarantined ↔
      ∃ cause, whole.causal.AncestorOrSelf cause id ∧ whole.Doomed cause := by
  constructor
  · exact justified.exists_doomed
  · intro ⟨cause, path, doomed⟩
    have wellFormed := justified.within.partIndexed.wellFormed
    have rejected := justified.rejects_doomed enveloped settled complete doomed
    obtain ⟨root, why, before⟩ := (wellFormed.quarantined_iff cause).mp rejected
    rw [← CausalGraph.ancestorOrSelf_congr (justified.within.parents_eq complete)] at path
    exact (wellFormed.quarantined_iff id).mpr ⟨root, why, before.trans path⟩

end IdentityControlLog

/-! ### The projection sees the recorded events and the rejected ids -/

section Projection

open IdentityControlLog

variable [IdentityExternal] {log other : IdentityControlLog} (events : log.events = other.events)
  (agrees : log.causal.Agrees other.causal)
include events agrees

theorem effectiveMembers_congr : log.effectiveMembers = other.effectiveMembers := by
  have ancestor := isAncestor_congr agrees.parents_eq
  have history : log.eventHistory = other.eventHistory := by
    unfold eventHistory
    rw [events]
  have admission : log.admitApproval = other.admitApproval := by
    unfold admitApproval survives
    rw [ancestor]
  unfold effectiveMembers membershipHistory
  rw [history, admission]

omit [IdentityExternal] in
theorem applicableHeads_congr : log.applicableHeads = other.applicableHeads := by
  unfold applicableHeads
  rw [agrees.applicableIds_eq, events]

theorem IdentityControlState.project_congr (identity : log.identityId = other.identityId) :
    IdentityControlState.project log = IdentityControlState.project other := by
  have ancestor : log.isAncestor = other.isAncestor := isAncestor_congr agrees.parents_eq
  have ordered : log.orderedApplicableEvents = other.orderedApplicableEvents := by
    unfold orderedApplicableEvents
    rw [agrees.topologicalOrder_eq, events]
  unfold project ProjectionAccumulator.pendingJoins ProjectionAccumulator.deniedJoins
  rw [ordered, effectiveMembers_congr events agrees, applicableHeads_congr events agrees, ancestor,
    identity]

end Projection

namespace IdentityControlLog

variable [IdentityExternal]

/-- A complete delivery of the recorded events, in whatever order. -/
theorem Records.delivered {identityId : IdentityId} {first events : List IdentityEvent}
    {whole log : IdentityControlLog} (records : whole.Records identityId first)
    (single : ∀ event ∈ first, ∀ other ∈ first, event.id = other.id → event = other)
    (sameSet : ∀ event, event ∈ first ↔ event ∈ events) (convergent : whole.Convergent)
    (built : (new identityId).insertAll events = .ok log) :
    Justified whole log ∧ log.events = whole.events := by
  have enveloped : whole.Enveloped := fun id event found =>
    (IdentityEvent.validateEnvelope_ok (records.listed id event found).2).1
  have start : Justified whole (new identityId) := by
    constructor
    · refine ⟨records.identity.symm, ?_, (sound_new identityId).indexed, records.indexed⟩
      intro id event found
      simp [new] at found
    · simp [new, CausalGraph.new]
  obtain ⟨justified, _, recorded⟩ := start.insertAll enveloped convergent built (by
    intro event member id valid
    rw [records.identity] at valid
    exact records.lookup single ((sameSet event).mpr member) valid)
  refine ⟨justified, ?_⟩
  apply Std.ExtTreeMap.ext_getElem?
  intro id
  apply Option.ext
  intro event
  constructor
  · exact justified.within.recorded id event
  · intro found
    obtain ⟨member, valid⟩ := records.listed id event found
    obtain ⟨other, otherValid, known⟩ := recorded event ((sameSet event).mp member)
    rw [records.identity, valid] at otherValid
    injection otherValid with same
    rw [← same] at known
    obtain ⟨kept, lookup⟩ := (BTreeMap.mem_iff_getElem? _ _).mp known
    rw [justified.within.recorded id kept lookup] at found
    rw [lookup, found]

/-- Delivered in two orders, a convergent set of events leaves the same applicable
events and the same state. -/
theorem insertAll_convergent {identityId : IdentityId} {first second : List IdentityEvent}
    {left right : IdentityControlLog}
    (leftBuilt : (new identityId).insertAll first = .ok left)
    (rightBuilt : (new identityId).insertAll second = .ok right)
    (sameSet : ∀ event, event ∈ first ↔ event ∈ second)
    (single : ∀ event ∈ first, ∀ other ∈ first, event.id = other.id → event = other)
    (convergent : (recordAll identityId first).Convergent) :
    left.causal.applicableIds = right.causal.applicableIds ∧
      IdentityControlState.project left = IdentityControlState.project right := by
  have records := records_recordAll identityId first
  have enveloped : (recordAll identityId first).Enveloped := fun id event found =>
    (IdentityEvent.validateEnvelope_ok (records.listed id event found).2).1
  obtain ⟨leftJustified, leftComplete⟩ :=
    records.delivered single (fun _ => Iff.rfl) convergent leftBuilt
  obtain ⟨rightJustified, rightComplete⟩ := records.delivered single sameSet convergent rightBuilt
  have leftSettled := ((Reachable.new identityId).insertAll leftBuilt).sound.settled
  have rightSettled := ((Reachable.new identityId).insertAll rightBuilt).sound.settled
  have parents := (leftJustified.within.parents_eq leftComplete).trans
    (rightJustified.within.parents_eq rightComplete).symm
  have agrees : left.causal.Agrees right.causal := by
    refine ⟨parents, fun id => ?_⟩
    rw [leftJustified.quarantined_iff enveloped leftSettled leftComplete,
      rightJustified.quarantined_iff enveloped rightSettled rightComplete]
  exact ⟨agrees.applicableIds_eq, IdentityControlState.project_congr
    (leftComplete.trans rightComplete.symm) agrees
    (leftJustified.within.identity.trans rightJustified.within.identity.symm)⟩

end IdentityControlLog

namespace TestSupport

open Nook.EventLog.TestSupport IdentityControlLog

def passphraseEvents : List IdentityEvent :=
  [founded 'g' '1', signed 'h' '1' ['g'] [addRecovery '9'], signed 'x' '9' ['h'] [approve '3']]

/-- A passphrase approves an app while the founder removes it; the app goes on to
approve another. -/
def removedBesideEvents : List IdentityEvent :=
  passphraseEvents ++ [signed 'v' '1' ['h'] [revoke '9'], signed 'w' '3' ['x'] [approve '4']]

theorem insertAll_convergent_removedBesideEvents :
    ∃ left right, (new identityId).insertAll removedBesideEvents = .ok left ∧
      (new identityId).insertAll removedBesideEvents.reverse = .ok right ∧
      left.causal.applicableIds = right.causal.applicableIds ∧
      IdentityControlState.project left = IdentityControlState.project right := by
  have accepted : ∀ events ∈ [removedBesideEvents, removedBesideEvents.reverse],
      ((new identityId).insertAll events).isOk = true := by decide +kernel
  obtain ⟨left, leftBuilt⟩ := exists_of_isOk (accepted removedBesideEvents (by simp))
  obtain ⟨right, rightBuilt⟩ := exists_of_isOk (accepted removedBesideEvents.reverse (by simp))
  exact ⟨left, right, leftBuilt, rightBuilt, insertAll_convergent leftBuilt rightBuilt
    (fun _ => List.mem_reverse.symm) (by decide +kernel) (by decide +kernel)⟩

/-- A passphrase approves an app and removes itself, one beside the other, and the
founder removes it after the approval: each removal refuses what the other builds on. -/
def selfRemoval : IdentityEvent := signed 'i' '9' ['h'] [revoke '9']

def lateRemoval : IdentityEvent := signed 'v' '1' ['x'] [revoke '9']

/-- Which of two removals is delivered first decides whether the app is a member. -/
theorem insertAll_diverges : ∃ left right leftState rightState,
    (new identityId).insertAll (passphraseEvents ++ [selfRemoval, lateRemoval]) = .ok left ∧
    (new identityId).insertAll (passphraseEvents ++ [lateRemoval, selfRemoval]) = .ok right ∧
    (passphraseEvents ++ [selfRemoval, lateRemoval]).Perm
      (passphraseEvents ++ [lateRemoval, selfRemoval]) ∧
    (∀ event ∈ passphraseEvents ++ [selfRemoval, lateRemoval],
      ∀ other ∈ passphraseEvents ++ [selfRemoval, lateRemoval],
        event.id = other.id → event = other) ∧
    (passphraseEvents ++ [selfRemoval, lateRemoval]).countP (fun event => event.body.isGenesis) = 1 ∧
    IdentityControlState.project left = .ok leftState ∧
    IdentityControlState.project right = .ok rightState ∧
    left.causal.applicableIds ≠ right.causal.applicableIds ∧ leftState ≠ rightState := by
  obtain ⟨left, leftBuilt, leftChecked⟩ := exists_of_passes
    ((new identityId).insertAll (passphraseEvents ++ [selfRemoval, lateRemoval]))
    (fun log => decide (log.causal.applicableIds = ['g', 'h', 'i'].map eventId) &&
      passes (IdentityControlState.project log) fun state => state.members.length = 1)
    (by decide +kernel)
  obtain ⟨right, rightBuilt, rightChecked⟩ := exists_of_passes
    ((new identityId).insertAll (passphraseEvents ++ [lateRemoval, selfRemoval]))
    (fun log => decide (log.causal.applicableIds = ['g', 'h', 'v', 'x'].map eventId) &&
      passes (IdentityControlState.project log) fun state => state.members.length = 2)
    (by decide +kernel)
  rw [Bool.and_eq_true, decide_eq_true_iff] at leftChecked rightChecked
  obtain ⟨leftState, leftProjected, alone⟩ := exists_of_passes _ _ leftChecked.2
  obtain ⟨rightState, rightProjected, joined⟩ := exists_of_passes _ _ rightChecked.2
  rw [decide_eq_true_iff] at alone joined
  refine ⟨left, right, leftState, rightState, leftBuilt, rightBuilt, ?_, by decide +kernel,
    by decide +kernel, leftProjected, rightProjected, ?_, ?_⟩
  · exact (List.Perm.swap lateRemoval selfRemoval []).append_left passphraseEvents
  · rw [leftChecked.1, rightChecked.1]
    decide +kernel
  · intro same
    rw [same, joined] at alone
    cases alone

end TestSupport

end Nook.IdentityControl
