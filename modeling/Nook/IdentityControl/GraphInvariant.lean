import Nook.IdentityControl.Envelope
import Nook.Replication.CausalGraphOrder

set_option autoImplicit false

namespace Nook.IdentityControl

open Nook.Lib Nook.Replication Nook.EventLog Relation

namespace IdentityControlLog

variable {log next : IdentityControlLog}

/-- The causal index holds exactly the recorded events with their parents. -/
structure Indexed (log : IdentityControlLog) : Prop where
  wellFormed : log.causal.WellFormed
  parents_eq : ∀ id : EventId, log.causal.parents[id]? =
    (log.events[id]?).map fun event => normalizeParents event.body.parents

theorem Indexed.known_iff (indexed : log.Indexed) (id : EventId) :
    id ∈ log.causal.parents ↔ id ∈ log.events := by
  rw [BTreeMap.mem_iff_getElem?, BTreeMap.mem_iff_getElem?]
  simp only [indexed.parents_eq, Option.map_eq_some_iff]
  constructor
  · intro ⟨_, event, found, _⟩
    exact ⟨event, found⟩
  · intro ⟨event, found⟩
    exact ⟨_, event, found, rfl⟩

theorem Indexed.edge_iff (indexed : log.Indexed) (parent child : EventId) :
    log.causal.Edge parent child ↔ parent ∈ log.bodyParents child := by
  unfold CausalGraph.Edge CausalGraph.parentsOf bodyParents
  rw [indexed.parents_eq]
  cases log.events[child]? with
  | none => simp
  | some event => simp [mem_normalizeParents]

theorem Indexed.recorded (indexed : log.Indexed) {id : EventId} (present : log.causal.Present id) :
    ∃ event, log.events[id]? = some event :=
  (BTreeMap.mem_iff_getElem? _ _).mp ((indexed.known_iff id).mp present.known)

/-- The ancestry of a parent list is what the parents reach, and themselves. -/
theorem Indexed.mem_ancestry (indexed : log.Indexed) (parents : List EventId) (id : EventId) :
    id ∈ log.ancestry parents ↔ ∃ parent ∈ parents, log.causal.AncestorOrSelf id parent := by
  have visits : Visits log.bodyParents parents.reverse []
      (visitFrom log.bodyParents (parents.length + log.bodyParentCount) parents.reverse []) := by
    apply visitFrom_visits log.bodyParents log.events.keys Std.ExtTreeMap.nodup_keys
    · intro id absent
      rw [Std.ExtTreeMap.mem_keys, BTreeMap.not_mem_iff_getElem?] at absent
      simp only [bodyParents, absent]
    · simp [pendingPushes, bodyParentCount]
  have edges : (fun child parent => parent ∈ log.bodyParents child) =
      Function.swap log.causal.Edge := by
    funext child parent
    exact propext (indexed.edge_iff parent child).symm
  have swap : ∀ start, ReflTransGen (Function.swap log.causal.Edge) start id ↔
      log.causal.AncestorOrSelf id start := fun start => reflTransGen_swap
  unfold ancestry
  rw [Std.ExtTreeSet.mem_ofList, List.contains_iff_mem, visits.mem_iff, edges]
  simp only [List.mem_reverse, swap]

/-- Below the parents of a recorded event lie its ancestors. -/
theorem Indexed.mem_ancestry_parents (indexed : log.Indexed) {id : EventId} {event : IdentityEvent}
    (found : log.events[id]? = some event) (ancestor : EventId) :
    ancestor ∈ log.ancestry event.body.parents ↔ log.causal.Ancestor ancestor id := by
  rw [indexed.mem_ancestry, CausalGraph.ancestor_iff]
  apply exists_congr
  intro parent
  have edge := indexed.edge_iff parent id
  simp only [bodyParents, found] at edge
  rw [← edge]
  rfl

variable [IdentityExternal]

/-! ### The quarantine passes -/

/-- One rejection by a pass: of a candidate, which is present. -/
inductive QuarantineStep : IdentityControlLog → IdentityControlLog → Prop
  | reject {log : IdentityControlLog} {id : EventId} {reason : String}
      (present : log.causal.Present id) (rejected : log.verdict id = some reason) :
      QuarantineStep log { log with causal := log.causal.quarantine id reason }

/-- Some rejections by passes. -/
def Quarantined : IdentityControlLog → IdentityControlLog → Prop := ReflTransGen QuarantineStep

theorem QuarantineStep.frame (step : QuarantineStep log next) :
    next.identityId = log.identityId ∧ next.events = log.events ∧
      next.causal.parents = log.causal.parents := by
  cases step
  exact ⟨rfl, rfl, rfl⟩

theorem Quarantined.frame (steps : Quarantined log next) :
    next.identityId = log.identityId ∧ next.events = log.events ∧
      next.causal.parents = log.causal.parents := by
  induction steps with
  | refl => exact ⟨rfl, rfl, rfl⟩
  | tail _ step ih =>
    obtain ⟨identity, events, parents⟩ := step.frame
    exact ⟨identity.trans ih.1, events.trans ih.2.1, parents.trans ih.2.2⟩

theorem QuarantineStep.wellFormed (step : QuarantineStep log next)
    (wellFormed : log.causal.WellFormed) : next.causal.WellFormed := by
  cases step with
  | reject => exact CausalGraph.quarantine_wellFormed wellFormed _ _

theorem Quarantined.wellFormed (steps : Quarantined log next)
    (wellFormed : log.causal.WellFormed) : next.causal.WellFormed := by
  induction steps with
  | refl => exact wellFormed
  | tail _ step ih => exact step.wellFormed ih

theorem Quarantined.indexed (steps : Quarantined log next) (indexed : log.Indexed) :
    next.Indexed where
  wellFormed := steps.wellFormed indexed.wellFormed
  parents_eq := by
    rw [steps.frame.2.2, steps.frame.2.1]
    exact indexed.parents_eq

theorem QuarantineStep.applicable (step : QuarantineStep log next)
    (wellFormed : log.causal.WellFormed) {id : EventId} (applicable : next.causal.Applicable id) :
    log.causal.Applicable id := by
  cases step with
  | reject =>
    exact ((CausalGraph.applicable_quarantine wellFormed _ _ _).mp applicable).1

theorem Quarantined.applicable (steps : Quarantined log next) (wellFormed : log.causal.WellFormed)
    {id : EventId} (applicable : next.causal.Applicable id) : log.causal.Applicable id := by
  induction steps with
  | refl => exact applicable
  | tail steps step ih => exact ih (step.applicable (Quarantined.wellFormed steps wellFormed) applicable)

/-- A pass that changes nothing found nothing to reject; one that changes something
starts with a rejection on the log it was given. -/
def PassOutcome (log : IdentityControlLog) (changed : Bool) (ids : List EventId) :
    IdentityControlLog × Bool → Prop
  | (next, true) => (changed = true ∧ Quarantined log next) ∨
      ∃ id ∈ ids, ∃ reason, log.verdict id = some reason ∧
        Quarantined { log with causal := log.causal.quarantine id reason } next
  | (next, false) => changed = false ∧ next = log ∧ ∀ id ∈ ids, log.verdict id = none

theorem quarantinePass_outcome (log : IdentityControlLog) (changed : Bool) (ids : List EventId)
    (present : ∀ id ∈ ids, log.causal.Present id) :
    PassOutcome log changed ids (log.quarantinePass changed ids) := by
  induction ids generalizing log changed with
  | nil => cases changed <;> simp [quarantinePass, PassOutcome, Quarantined, ReflTransGen.refl]
  | cons id ids ih =>
    unfold quarantinePass
    split
    · rename_i accepted
      have rest := ih log changed fun other member => present other (List.mem_cons_of_mem _ member)
      generalize log.quarantinePass changed ids = outcome at rest ⊢
      match outcome with
      | (next, true) =>
        rcases rest with already | ⟨other, member, reason, rejected, steps⟩
        · exact Or.inl already
        · exact Or.inr ⟨other, List.mem_cons_of_mem _ member, reason, rejected, steps⟩
      | (next, false) =>
        refine ⟨rest.1, rest.2.1, ?_⟩
        intro other member
        rcases List.mem_cons.mp member with rfl | member
        · exact accepted
        · exact rest.2.2 other member
    · rename_i reason rejected
      have rest := ih { log with causal := log.causal.quarantine id reason } true
        fun other member => present other (List.mem_cons_of_mem _ member)
      generalize quarantinePass _ true ids = outcome at rest ⊢
      match outcome with
      | (next, true) =>
        refine Or.inr ⟨id, List.mem_cons_self, reason, rejected, ?_⟩
        rcases rest with ⟨_, steps⟩ | ⟨other, member, why, found, steps⟩
        · exact steps
        · exact ReflTransGen.head
            (.reject (present other (List.mem_cons_of_mem _ member)) found) steps
      | (next, false) => exact absurd rest.1 (by decide)

/-- The loop rejects step by step, and ends when every applicable event is accepted. -/
theorem quarantineUnauthorized_spec (wellFormed : log.causal.WellFormed) :
    Quarantined log log.quarantineUnauthorized ∧
      ∀ id, log.quarantineUnauthorized.causal.Applicable id →
        log.quarantineUnauthorized.verdict id = none := by
  have outcome : ∀ state : IdentityControlLog, PassOutcome state false state.causal.applicableIds
      (state.quarantinePass false state.causal.applicableIds) := fun state =>
    quarantinePass_outcome state false _ fun id member =>
      ((CausalGraph.mem_applicableIds id).mp member).1
  have step : ∀ state next, Quarantined log state → quarantineRound state = .again next →
      Quarantined log next ∧ next.causal.applicableIds.length < state.causal.applicableIds.length := by
    intro state next reached again
    have found := outcome state
    unfold quarantineRound at again
    split at again
    · rename_i after pass
      injection again with same
      subst same
      rw [pass] at found
      rcases found with ⟨impossible, _⟩ | ⟨id, member, reason, rejected, steps⟩
      · cases impossible
      · have applicable := (CausalGraph.mem_applicableIds id).mp member
        have formed := reached.wellFormed wellFormed
        have first : QuarantineStep state _ := .reject applicable.1 rejected
        have lost : ∀ other, after.causal.Applicable other → state.causal.Applicable other ∧
            ¬state.causal.AncestorOrSelf id other := fun other kept =>
          (CausalGraph.applicable_quarantine formed _ _ _).mp
            (Quarantined.applicable steps (first.wellFormed formed) kept)
        refine ⟨reached.trans (ReflTransGen.head first steps), ?_⟩
        exact CausalGraph.length_applicableIds_lt (fun other kept => (lost other kept).1) applicable
          fun kept => (lost id kept).2 .refl
    · cases again
  obtain ⟨last, result, reached, leaves, ran⟩ := runLoop_rule quarantineRound (Quarantined log)
    (fun state => state.causal.applicableIds.length) step _ log .refl (Nat.lt_succ_self _)
  have same : log.quarantineUnauthorized = result := by
    unfold quarantineUnauthorized
    rw [ran, Option.getD_some]
  have found := outcome last
  unfold quarantineRound at leaves
  split at leaves
  · cases leaves
  · rename_i settled pass
    injection leaves with equal
    rw [pass] at found
    rw [same, ← equal, found.2.1]
    exact ⟨reached, fun id applicable =>
      found.2.2 id ((CausalGraph.mem_applicableIds id).mpr applicable)⟩

/-! ### Reachable logs -/

omit [IdentityExternal] in
theorem genesisId_eq_none (log : IdentityControlLog) :
    log.genesisId = none ↔
      ∀ (id : EventId) event, log.events[id]? = some event → event.body.isGenesis = false := by
  unfold genesisId
  rw [Option.map_eq_none_iff, List.find?_eq_none]
  simp only [Prod.forall, Std.ExtTreeMap.mem_toList_iff_getElem?_eq_some, Bool.not_eq_true]

omit [IdentityExternal] in
theorem Indexed.fresh (indexed : log.Indexed) {id : EventId} (fresh : log.events[id]? = none) :
    id ∉ log.causal.parents := by
  rw [indexed.known_iff, BTreeMap.not_mem_iff_getElem?]
  exact fresh

omit [IdentityExternal] in
theorem events_recordEvent (log : IdentityControlLog) (id other : EventId) (event : IdentityEvent) :
    (log.recordEvent id event).events[other]? =
      if id = other then some event else log.events[other]? := by
  unfold recordEvent
  dsimp only
  rw [BTreeMap.getElem?_insert_eq]

omit [IdentityExternal] in
theorem Indexed.recordEvent (indexed : log.Indexed) {id : EventId}
    (fresh : log.events[id]? = none) (event : IdentityEvent) : (log.recordEvent id event).Indexed where
  wellFormed := CausalGraph.insert_wellFormed indexed.wellFormed id event.body.parents
  parents_eq := by
    intro other
    rw [events_recordEvent]
    unfold IdentityControlLog.recordEvent
    dsimp only
    rw [CausalGraph.insert_unknown id event.body.parents (indexed.fresh fresh)]
    show (log.causal.parents.insert id _)[other]? = _
    rw [BTreeMap.getElem?_insert_eq, indexed.parents_eq]
    split <;> rfl

omit [IdentityExternal] in
theorem Indexed.quarantineRoots_recordEvent (indexed : log.Indexed) {id : EventId}
    (fresh : log.events[id]? = none) (event : IdentityEvent) :
    (log.recordEvent id event).causal.quarantineRoots = log.causal.quarantineRoots := by
  unfold IdentityControlLog.recordEvent
  dsimp only
  rw [CausalGraph.insert_unknown id event.body.parents (indexed.fresh fresh)]
  rfl

/-- What an accepted insertion leaves: the same log, or the log with the new
event and the rejections that follow. -/
inductive Inserted (log : IdentityControlLog) (event : IdentityEvent) : IdentityControlLog → Prop
  | duplicate (id : EventId) (recorded : id ∈ log.events) : Inserted log event log
  | recorded (id : EventId) (valid : event.validateEnvelope log.identityId = .ok id)
      (fresh : log.events[id]? = none)
      (single : event.body.isGenesis = true → log.genesisId = none) :
      Inserted log event (log.recordEvent id event).quarantineUnauthorized

theorem inserted_insert {event : IdentityEvent} {insertion : IdentityControlInsertion}
    (accepted : log.insert event = .ok insertion) : Inserted log event insertion.log := by
  unfold insert at accepted
  split at accepted
  · cases accepted
  rename_i id valid
  split at accepted
  · rename_i recorded
    injection accepted with same
    rw [← same]
    exact .duplicate id (Std.ExtTreeMap.contains_iff_mem.mp recorded)
  rename_i absent
  split at accepted
  · cases accepted
  rename_i single
  injection accepted with same
  rw [← same]
  apply Inserted.recorded id valid
  · rwa [Std.ExtTreeMap.contains_iff_mem, BTreeMap.not_mem_iff_getElem?] at absent
  · intro root
    simpa [root] using single

theorem events_quarantineUnauthorized (wellFormed : log.causal.WellFormed) :
    log.quarantineUnauthorized.events = log.events :=
  (quarantineUnauthorized_spec wellFormed).1.frame.2.1

/-- A log that some sequence of accepted insertions builds. -/
inductive Reachable : IdentityControlLog → Prop
  | new (identityId : IdentityId) : Reachable (.new identityId)
  | insert {log : IdentityControlLog} {event : IdentityEvent} {insertion : IdentityControlInsertion}
      (reachable : Reachable log) (accepted : log.insert event = .ok insertion) :
      Reachable insertion.log

theorem Reachable.insertAll {events : List IdentityEvent} (reachable : log.Reachable)
    (accepted : log.insertAll events = .ok next) : next.Reachable := by
  induction events generalizing log with
  | nil =>
    cases accepted
    exact reachable
  | cons event events ih =>
    unfold IdentityControlLog.insertAll at accepted
    rw [List.foldlM_cons] at accepted
    obtain ⟨middle, first, rest⟩ := bind_eq_ok.mp accepted
    obtain ⟨insertion, inserted, same⟩ := bind_eq_ok.mp first
    cases same
    exact ih (reachable.insert inserted) rest

/-- What holds of a log after every insertion: it records valid envelopes under
their ids, one genesis at most, no genesis is rejected, and no applicable event
has a reason to be. -/
structure Sound (log : IdentityControlLog) : Prop where
  indexed : log.Indexed
  valid : ∀ (id : EventId) event, log.events[id]? = some event →
    event.validateEnvelope log.identityId = .ok id
  single : ∀ (id other : EventId) event another, log.events[id]? = some event →
    log.events[other]? = some another → event.body.isGenesis = true →
      another.body.isGenesis = true → id = other
  roots : ∀ id ∈ log.causal.quarantineRoots, ∃ event, log.events[id]? = some event ∧
    event.body.isGenesis = false
  settled : ∀ id, log.causal.Applicable id → log.verdict id = none

/-- Every recorded event passed the envelope checks. -/
def Enveloped (log : IdentityControlLog) : Prop :=
  ∀ (id : EventId) event, log.events[id]? = some event → event.Enveloped

theorem verdict_genesis {id : EventId} {event : IdentityEvent} (found : log.events[id]? = some event)
    (root : event.body.isGenesis = true) : log.verdict id = none := by
  unfold verdict unauthorizedReason
  rw [found]
  dsimp only
  rw [root, Bool.true_or, if_pos rfl]

theorem QuarantineStep.roots (step : QuarantineStep log next) (indexed : log.Indexed)
    (roots : ∀ id ∈ log.causal.quarantineRoots, ∃ event, log.events[id]? = some event ∧
      event.body.isGenesis = false) :
    ∀ id ∈ next.causal.quarantineRoots, ∃ event, next.events[id]? = some event ∧
      event.body.isGenesis = false := by
  cases step with
  | @reject rejectedId reason present rejected =>
    intro id member
    change id ∈ mergeQuarantineReason _ _ _ at member
    rcases (mem_mergeQuarantineReason _ _ _ _).mp member with rfl | old
    · obtain ⟨event, found⟩ := indexed.recorded present
      refine ⟨event, found, ?_⟩
      rw [← Bool.not_eq_true]
      intro root
      rw [verdict_genesis found root] at rejected
      cases rejected
    · exact roots id old

theorem Quarantined.roots (steps : Quarantined log next) (indexed : log.Indexed)
    (roots : ∀ id ∈ log.causal.quarantineRoots, ∃ event, log.events[id]? = some event ∧
      event.body.isGenesis = false) :
    ∀ id ∈ next.causal.quarantineRoots, ∃ event, next.events[id]? = some event ∧
      event.body.isGenesis = false := by
  induction steps with
  | refl => exact roots
  | tail steps step ih => exact step.roots (Quarantined.indexed steps indexed) ih

theorem sound_new (identityId : IdentityId) : (new identityId).Sound where
  indexed := {
    wellFormed := CausalGraph.new_wellFormed
    parents_eq := by simp [new, CausalGraph.new] }
  valid := by simp [new]
  single := by simp [new]
  roots := by simp [new, CausalGraph.new]
  settled := by
    intro id applicable
    have known := applicable.1.known
    simp [new, CausalGraph.new] at known

theorem Sound.recorded (sound : log.Sound) {id : EventId} {event : IdentityEvent}
    (valid : event.validateEnvelope log.identityId = .ok id) (fresh : log.events[id]? = none)
    (single : event.body.isGenesis = true → log.genesisId = none) :
    (log.recordEvent id event).quarantineUnauthorized.Sound := by
  have indexed := sound.indexed.recordEvent fresh event
  obtain ⟨steps, settled⟩ := quarantineUnauthorized_spec indexed.wellFormed
  obtain ⟨identity, events, _⟩ := steps.frame
  have lookup : ∀ other : EventId, (log.recordEvent id event).quarantineUnauthorized.events[other]? =
      if id = other then some event else log.events[other]? := by
    intro other
    rw [events, events_recordEvent]
  have rootless : ∀ (other : EventId) found, log.events[other]? = some found →
      event.body.isGenesis = true → found.body.isGenesis = false := by
    intro other found recorded root
    exact (genesisId_eq_none log).mp (single root) other found recorded
  constructor
  · exact steps.indexed indexed
  · intro other found recorded
    rw [lookup] at recorded
    rw [identity]
    split at recorded
    · rename_i same
      injection recorded with equal
      rw [← same, ← equal]
      exact valid
    · exact sound.valid other found recorded
  · intro left right first second leftFound rightFound leftRoot rightRoot
    rw [lookup] at leftFound rightFound
    split at leftFound <;> split at rightFound
    · rename_i same other
      rw [← same, ← other]
    · injection leftFound with equal
      rw [rootless right second rightFound (equal ▸ leftRoot)] at rightRoot
      cases rightRoot
    · injection rightFound with equal
      rw [rootless left first leftFound (equal ▸ rightRoot)] at leftRoot
      cases leftRoot
    · exact sound.single left right first second leftFound rightFound leftRoot rightRoot
  · apply steps.roots indexed
    intro other member
    rw [sound.indexed.quarantineRoots_recordEvent fresh event] at member
    obtain ⟨found, recorded, branch⟩ := sound.roots other member
    refine ⟨found, ?_, branch⟩
    rw [events_recordEvent, if_neg, recorded]
    rintro rfl
    rw [fresh] at recorded
    cases recorded
  · exact settled

theorem Reachable.sound (reachable : log.Reachable) : log.Sound := by
  induction reachable with
  | new identityId => exact sound_new identityId
  | insert _ accepted ih =>
    have inserted := inserted_insert accepted
    generalize IdentityControlInsertion.log _ = next at inserted ⊢
    cases inserted with
    | duplicate => exact ih
    | recorded id valid fresh single => exact ih.recorded valid fresh single

namespace Sound

variable (sound : log.Sound)
include sound

theorem enveloped : log.Enveloped := fun id event found =>
  (IdentityEvent.validateEnvelope_ok (sound.valid id event found)).1

/-- A genesis is applicable from its insertion on. -/
theorem genesis_applicable {id : EventId} {event : IdentityEvent}
    (found : log.events[id]? = some event) (root : event.body.isGenesis = true) :
    log.causal.Applicable id := by
  have orphan : ∀ parent, ¬log.causal.Edge parent id := by
    intro parent edge
    rw [sound.indexed.edge_iff] at edge
    simp only [bodyParents, found] at edge
    rw [List.isEmpty_iff.mp root] at edge
    cases edge
  have known : id ∈ log.causal.parents :=
    (sound.indexed.known_iff id).mpr (BTreeMap.mem_of_getElem? found)
  constructor
  · intro ancestor path
    rcases ReflTransGen.cases_tail path with rfl | ⟨parent, _, edge⟩
    · exact known
    · exact absurd edge (orphan parent)
  · intro rejected
    obtain ⟨origin, why, path⟩ := (sound.indexed.wellFormed.quarantined_iff id).mp rejected
    rcases ReflTransGen.cases_tail path with rfl | ⟨parent, _, edge⟩
    · rcases why with member | cyclic
      · obtain ⟨other, recorded, branch⟩ := sound.roots id member
        rw [found] at recorded
        injection recorded with same
        rw [← same, root] at branch
        cases branch
      · obtain ⟨parent, _, edge⟩ :=
          TransGen.tail'_iff.mp ((sound.indexed.wellFormed.cyclic_iff id).mp cyclic)
        exact orphan parent edge
    · exact orphan parent edge

end Sound

/-! ### Accepted events -/

/-- The ways an event can have no reason to be rejected. -/
inductive Accepted (log : IdentityControlLog) (id : EventId) (event : IdentityEvent) : Prop
  | exempt (open_ : (event.body.isGenesis || event.isSelfSignedJoinRequest) = true)
  | join (closed : (event.body.isGenesis || event.isSelfSignedJoinRequest) = false)
      (joins : event.inviteJoin.isSome = true) (kept : log.inviteJoinRejection id event = none)
  | signed (closed : (event.body.isGenesis || event.isSelfSignedJoinRequest) = false)
      (unjoined : event.inviteJoin.isSome = false) (members : BTreeMap AppId EffectiveMember)
      (found : log.effectiveMembers (log.ancestry event.body.parents) = .ok members)
      (signer : isMemberActor members event.body.actorId = true)
      (allowed : memberActionRejection event members = none)
      (unrevoked : log.revokedRecoveryRejection id event members = .ok none)

theorem verdict_eq_none {id : EventId} {event : IdentityEvent}
    (found : log.events[id]? = some event) : log.verdict id = none ↔ log.Accepted id event := by
  have reason : log.verdict id = none ↔ log.unauthorizedReason id = .ok none := by
    unfold verdict
    split <;> simp_all
  rw [reason]
  unfold unauthorizedReason
  rw [found]
  dsimp only
  constructor
  · intro accepted
    split at accepted
    · rename_i exempt
      exact .exempt exempt
    rename_i closed
    rw [Bool.not_eq_true] at closed
    split at accepted
    · rename_i joins
      injection accepted with kept
      exact .join closed joins kept
    rename_i unjoined
    rw [Bool.not_eq_true] at unjoined
    obtain ⟨members, effective, accepted⟩ := bind_eq_ok.mp accepted
    split at accepted
    · rename_i signer
      split at accepted
      · cases accepted
      · rename_i allowed
        exact .signed closed unjoined members effective signer allowed accepted
    · cases accepted
  · intro accepted
    cases accepted with
    | exempt exempt => rw [if_pos exempt]
    | join closed joins kept => rw [closed, if_neg (by decide), if_pos joins, kept]
    | signed closed unjoined members effective signer allowed unrevoked =>
      rw [closed, if_neg (by decide), unjoined, if_neg (by decide), effective]
      show (if isMemberActor members event.body.actorId = true then _ else _) = _
      rw [if_pos signer, allowed]
      exact unrevoked

theorem Sound.accepted (sound : log.Sound) {id : EventId} (applicable : log.causal.Applicable id)
    {event : IdentityEvent} (found : log.events[id]? = some event) : log.Accepted id event :=
  (verdict_eq_none found).mp (sound.settled id applicable)

omit [IdentityExternal] in
theorem isMemberActor_iff (members : BTreeMap AppId EffectiveMember) (actor : AuthKeyId) :
    isMemberActor members actor = true ↔
      ∃ (appId : AppId) (entry : EffectiveMember), members[appId]? = some entry ∧
        actor ∈ entry.actors := by
  unfold isMemberActor
  simp only [List.any_eq_true, BTreeMap.mem_intoValues, Std.ExtTreeSet.contains_iff_mem]
  constructor
  · intro ⟨entry, ⟨appId, found⟩, member⟩
    exact ⟨appId, entry, found, member⟩
  · intro ⟨appId, entry, found, member⟩
    exact ⟨entry, ⟨appId, found⟩, member⟩

end IdentityControlLog

end Nook.IdentityControl
