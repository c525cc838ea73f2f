import Nook.IdentityControl.AppendedPast

set_option autoImplicit false

namespace Nook.IdentityControl

open Nook.Lib Nook.Replication Nook.EventLog Relation

namespace IdentityEvent

/-- An operation of the event revokes the app. -/
def Revokes (event : IdentityEvent) (appId : AppId) : Prop :=
  ∃ operation ∈ event.body.operations, operation.revokes = some appId

/-- An operation of the event admits the member in the role. -/
def Admits (event : IdentityEvent) (member : IdentityMemberKeys) (role : MemberRole) : Prop :=
  ∃ operation ∈ event.body.operations, operation.admits = some (member, role)

end IdentityEvent

/-- No app is admitted both as an app key and as a recovery passphrase. -/
def OneRole (events : List IdentityEvent) : Prop :=
  ∀ event ∈ events, ∀ other ∈ events, ∀ member otherMember role otherRole,
    event.Admits member role → other.Admits otherMember otherRole →
      member.appId = otherMember.appId → role = otherRole

/-- Installations with a log each, and the events they have appended between them. -/
structure Network (Replica : Type) where
  logs : Replica → IdentityControlLog
  events : List IdentityEvent

/-- One step of an installation. -/
inductive Action (Replica : Type) where
  | append (replica : Replica) (event : IdentityEvent)
  | deliver (replica : Replica) (event : IdentityEvent)

variable {Replica : Type} [DecidableEq Replica]

section Model

variable [IdentitySealing]

/-- The log after an event arrives; a refused event leaves it as it was. -/
def IdentityControlLog.receive (log : IdentityControlLog) (event : IdentityEvent) :
    IdentityControlLog :=
  match log.insert event with
  | .ok insertion => insertion.log
  | .error rejection => rejection.log

namespace Network

def receive (net : Network Replica) (replica : Replica) (event : IdentityEvent) :
    Replica → IdentityControlLog :=
  Function.update net.logs replica ((net.logs replica).receive event)

def append (net : Network Replica) (replica : Replica) (event : IdentityEvent) : Network Replica :=
  ⟨net.receive replica event, net.events ++ [event]⟩

def deliver (net : Network Replica) (replica : Replica) (event : IdentityEvent) : Network Replica :=
  ⟨net.receive replica event, net.events⟩

/-- An installation appends what the builders make of its own projected state, or
receives any event appended before, as often and in whichever order. -/
inductive Step : Network Replica → Action Replica → Network Replica → Prop
  | append {net : Network Replica} {replica : Replica} {state : IdentityControlState}
      {signing : IdentityEventSigning} {event : IdentityEvent}
      (projected : IdentityControlState.project (net.logs replica) = .ok state)
      (built : state.Built event.body.operations)
      (signed : (net.logs replica).buildAppend event.body.operations signing = .ok event) :
      Step net (.append replica event) (net.append replica event)
  | deliver {net : Network Replica} {replica : Replica} {event : IdentityEvent}
      (sent : event ∈ net.events) :
      Step net (.deliver replica event) (net.deliver replica event)

/-- The networks that a founded identity reaches by steps that `allowed` admits. -/
inductive Run (allowed : Network Replica → Action Replica → Prop) : Network Replica → Prop
  | founded {identityId : IdentityId} {founder : IdentityMemberKeys}
      {signing : IdentityEventSigning} {genesis : IdentityEvent}
      (signed : IdentityEvent.genesis identityId founder signing = .ok genesis) :
      Run allowed ⟨fun _ => .new identityId, [genesis]⟩
  | step {net next : Network Replica} {action : Action Replica} (run : Run allowed net)
      (step : net.Step action next) (admitted : allowed net action) : Run allowed next

end Network

/-- Another app-key member stays: the event does not revoke it, and its author
builds on every event that does. -/
def LeavesAppKey (events : List IdentityEvent) (log : IdentityControlLog)
    (state : IdentityControlState) (event : IdentityEvent) : Prop :=
  ∃ member ∈ state.appMembers, ¬event.Revokes member.keys.appId ∧
    ∀ other ∈ events, other.Revokes member.keys.appId →
      ∃ id, other.id = .ok id ∧ log.causal.Applicable id

/-- Whoever revokes an app key leaves another one, and no app is admitted both as
an app key and as a recovery passphrase. -/
def Action.Careful (net : Network Replica) : Action Replica → Prop
  | .append replica event => (∀ state appId,
      IdentityControlState.project (net.logs replica) = .ok state → event.Revokes appId →
        (∃ member ∈ state.appMembers, member.keys.appId = appId) →
          LeavesAppKey net.events (net.logs replica) state event) ∧
      OneRole (net.events ++ [event])
  | .deliver .. => True

end Model

/-! ### What a log receives -/

section Received

variable [IdentityExternal] {log : IdentityControlLog}

/-- The log is built by insertions of the events. -/
structure Sent (events : List IdentityEvent) (log : IdentityControlLog) : Prop where
  reachable : log.Reachable
  recorded : ∀ (id : EventId) event, log.events[id]? = some event → event ∈ events

theorem Sent.mono {events more : List IdentityEvent} (sent : Sent events log)
    (grown : events ⊆ more) : Sent more log :=
  ⟨sent.reachable, fun id event found => grown (sent.recorded id event found)⟩

theorem Sent.sameBodies {events : List IdentityEvent} {other : IdentityControlLog}
    (sent : Sent events log) (otherSent : Sent events other)
    (single : ∀ event ∈ events, ∀ second ∈ events, event.id = second.id →
      event.body = second.body) : log.SameBodies other := by
  intro id event otherEvent found otherFound
  have named := (IdentityEvent.validateEnvelope_ok (sent.reachable.sound.valid id event found)).2
  have otherNamed := (IdentityEvent.validateEnvelope_ok
    (otherSent.reachable.sound.valid id otherEvent otherFound)).2
  exact single event (sent.recorded id event found) otherEvent
    (otherSent.recorded id otherEvent otherFound) (named.trans otherNamed.symm)

end Received

variable [IdentitySealing] {log : IdentityControlLog}

theorem Sent.receive {events : List IdentityEvent} (sent : Sent events log) {event : IdentityEvent}
    (member : event ∈ events) : Sent events (log.receive event) := by
  unfold IdentityControlLog.receive
  cases accepted : log.insert event with
  | ok insertion =>
    dsimp only
    refine ⟨sent.reachable.insert accepted, ?_⟩
    have inserted := IdentityControlLog.inserted_insert accepted
    generalize insertion.log = next at inserted
    cases inserted with
    | duplicate => exact sent.recorded
    | recorded id valid fresh _ =>
      have indexed := sent.reachable.sound.indexed.recordEvent fresh event
      intro other found recorded
      rw [IdentityControlLog.events_quarantineUnauthorized indexed.wellFormed,
        IdentityControlLog.events_recordEvent] at recorded
      split at recorded
      · injection recorded with same
        exact same ▸ member
      · exact sent.recorded other found recorded
  | error rejection =>
    have same : rejection.log = log := by
      unfold IdentityControlLog.insert at accepted
      split at accepted
      · cases accepted
        rfl
      · split at accepted
        · cases accepted
        · split at accepted
          · cases accepted
            rfl
          · cases accepted
    dsimp only
    rw [same]
    exact sent

/-! ### Where an event comes from -/

/-- The event was appended to a log of earlier events, and leaves an app key. -/
structure AppendedTo (before : List IdentityEvent) (event : IdentityEvent)
    (log : IdentityControlLog) (state : IdentityControlState) : Prop where
  sent : Sent before log
  projected : IdentityControlState.project log = .ok state
  parents : event.body.parents = log.applicableHeads
  built : state.Built event.body.operations
  leaves : ∀ appId, event.Revokes appId →
    (∃ member ∈ state.appMembers, member.keys.appId = appId) → LeavesAppKey before log state event

/-- What holds of a network whose installations were careful. -/
structure Network.Sound (net : Network Replica) : Prop where
  logs : ∀ replica, Sent net.events (net.logs replica)
  appended : ∀ before event after, net.events = before ++ event :: after →
    (∃ founder, event.body.operations = [.identityCreated founder]) ∨
      ∃ log state, AppendedTo before event log state
  oneRole : OneRole net.events

theorem Network.Sound.receive {net : Network Replica} (sound : net.Sound) (replica : Replica)
    {event : IdentityEvent} {events : List IdentityEvent} (grown : net.events ⊆ events)
    (member : event ∈ events) (other : Replica) : Sent events (net.receive replica event other) := by
  unfold Network.receive
  by_cases same : other = replica
  · subst same
    rw [Function.update_self]
    exact ((sound.logs other).mono grown).receive member
  · rw [Function.update_of_ne same]
    exact (sound.logs other).mono grown

theorem Network.Sound.step {net next : Network Replica} {action : Action Replica}
    (sound : net.Sound) (step : net.Step action next) (careful : action.Careful net) :
    next.Sound := by
  cases step with
  | @append replica state signing event projected built signed =>
    obtain ⟨leaves, oneRole⟩ := careful
    refine ⟨?_, ?_, oneRole⟩
    · exact sound.receive replica (List.subset_append_left _ _)
        (List.mem_append_right net.events List.mem_cons_self)
    · intro before added after split
      change net.events ++ [event] = before ++ added :: after at split
      rcases List.eq_nil_or_concat after with rfl | ⟨rest, last, rfl⟩
      · obtain ⟨sameBefore, sameEvent⟩ := List.append_inj' split rfl
        injection sameEvent with sameEvent
        subst sameBefore sameEvent
        exact Or.inr ⟨net.logs replica, state, sound.logs replica, projected,
          (IdentityControlLog.buildAppend_ok signed).1, built, fun appId => leaves state appId projected⟩
      · rw [List.concat_eq_append, ← List.cons_append, ← List.append_assoc] at split
        exact sound.appended before added rest (List.append_inj' split rfl).1
  | @deliver replica event sent =>
    exact ⟨sound.receive replica (List.Subset.refl _) sent, sound.appended, sound.oneRole⟩

theorem Network.Run.sound {net : Network Replica} (run : Network.Run Action.Careful net) :
    net.Sound := by
  induction run with
  | @founded identityId founder signing genesis signed =>
    have operations : genesis.body.operations = [.identityCreated founder] := by
      obtain ⟨_, _, made⟩ := bind_eq_ok.mp signed
      obtain ⟨_, _, made⟩ := bind_eq_ok.mp made
      obtain ⟨_, _, made⟩ := bind_eq_ok.mp made
      obtain ⟨_, _, made⟩ := bind_eq_ok.mp made
      cases made
      rfl
    refine ⟨fun _ => ⟨.new identityId, by simp [IdentityControlLog.new]⟩, ?_, ?_⟩
    · intro before event after split
      left
      change [genesis] = before ++ event :: after at split
      have member : event ∈ [genesis] := by
        rw [split]
        exact List.mem_append_right before List.mem_cons_self
      rw [List.mem_singleton.mp member]
      exact ⟨founder, operations⟩
    · intro event member other otherMember keys otherKeys role otherRole admits otherAdmits _
      rw [List.mem_singleton.mp member] at admits
      rw [List.mem_singleton.mp otherMember] at otherAdmits
      obtain ⟨operation, listed, admitting⟩ := admits
      obtain ⟨otherOperation, otherListed, otherAdmitting⟩ := otherAdmits
      rw [operations, List.mem_singleton] at listed otherListed
      subst listed otherListed
      cases admitting
      cases otherAdmitting
      rfl
  | step _ step careful ih => exact ih.step step careful

/-! ### The app key that stays -/

namespace IdentityControlLog

omit [DecidableEq Replica]

variable {state : IdentityControlState} {member : IdentityControlMember}

omit [IdentitySealing] in
theorem admits_iff {id : EventId} {event : IdentityEvent} (found : log.events[id]? = some event)
    (keys : IdentityMemberKeys) (role : MemberRole) :
    log.Admits id keys role ↔ event.Admits keys role := by
  constructor
  · intro ⟨recorded, same, operation, listed, admits⟩
    rw [found] at same
    injection same with same
    rw [same]
    exact ⟨operation, listed, admits⟩
  · intro ⟨operation, listed, admits⟩
    exact ⟨event, found, operation, listed, admits⟩

omit [IdentitySealing] in
theorem revokes_iff {id : EventId} {event : IdentityEvent} (found : log.events[id]? = some event)
    (appId : AppId) : log.Revokes id appId ↔ event.Revokes appId := by
  constructor
  · intro ⟨recorded, same, operation, listed, revokes⟩
    rw [found] at same
    injection same with same
    rw [same]
    exact ⟨operation, listed, revokes⟩
  · intro ⟨operation, listed, revokes⟩
    exact ⟨event, found, operation, listed, revokes⟩

/-- A projected member has an admission that counts, and is of the kind in which
some event admitted it. -/
theorem Sound.member_admitted (sound : log.Sound)
    (projected : IdentityControlState.project log = .ok state) (listed : member ∈ state.members) :
    (∃ id keys role, log.Survives log.causal.Applicable id keys role ∧
      keys.appId = member.keys.appId) ∧
    ∃ id keys role, log.Admits id keys role ∧ keys.appId = member.keys.appId ∧
      (member.kind.isRecovery = true ↔ role = .recovery) := by
  obtain ⟨ordered, accumulator, active, projects⟩ := sound.projects
  obtain ⟨kept, step, admission, origin⟩ := projects.projectedFrom projected listed
  refine ⟨(projects.effective.listed _).mp kept, ?_⟩
  obtain ⟨inside, operation⟩ :=
    (mem_operationsOf ordered step).mp (lastAdmission_eq_some origin.last).1
  have recorded := ((projects.listing.mem_iff step.1.1 step.1.2).mp inside).2
  refine ⟨step.1.1, admission.member, admission.kind.role, ⟨step.1.2, recorded, step.2, operation,
    IdentityControlOperation.admits_of_admission origin.found⟩, by rw [origin.keys], ?_⟩
  rw [origin.kind, IdentityMemberKind.isRecovery_iff]

/-- An app with an admission that counts, and with no other admissions than as an
app key, is an app-key member. -/
theorem Sound.appMember (sound : log.Sound)
    (projected : IdentityControlState.project log = .ok state) {id : EventId}
    {keys : IdentityMemberKeys} {role : MemberRole}
    (survives : log.Survives log.causal.Applicable id keys role)
    (asApp : ∀ other otherKeys otherRole, log.Admits other otherKeys otherRole →
      otherKeys.appId = keys.appId → otherRole = .app) :
    ∃ member ∈ state.appMembers, member.keys.appId = keys.appId := by
  obtain ⟨ordered, accumulator, active, projects⟩ := sound.projects
  obtain ⟨step, listed, _, admits⟩ := projects.listing.admission survives.inside survives.admits
  have here : step.admitsApp keys.appId = true := by simp [AppliedOperation.admitsApp, admits]
  have some : ((operationsOf ordered).filter fun step => step.admitsApp keys.appId) ≠ [] :=
    List.ne_nil_of_mem (List.mem_filter.mpr ⟨listed, here⟩)
  have kept : keys.appId ∈ active :=
    (projects.effective.listed keys.appId).mpr ⟨id, keys, role, survives, rfl⟩
  obtain ⟨member, inside, same⟩ := projects.exists_member sound projected
    (List.getLast?_eq_some_getLast some) kept
  refine ⟨member, (IdentityControlState.mem_appMembers member).mpr ⟨inside, ?_⟩, same⟩
  obtain ⟨_, other, otherKeys, otherRole, admitted, app, kind⟩ :=
    sound.member_admitted projected inside
  rw [asApp other otherKeys otherRole admitted (app.trans same)] at kind
  rw [← Bool.not_eq_true, kind]
  decide

omit [IdentitySealing] in
/-- An admission that counts in the log an event was appended to counts wherever
that event is applicable, unless a revocation comes from elsewhere. -/
theorem SameBodies.survives {other : IdentityControlLog} (same : log.SameBodies other)
    (indexed : log.Indexed) (otherIndexed : other.Indexed) {id : EventId} {event : IdentityEvent}
    (found : log.events[id]? = some event) (applicable : log.causal.Applicable id)
    (parents : event.body.parents = other.applicableHeads) {admission : EventId}
    {keys : IdentityMemberKeys} {role : MemberRole}
    (survives : other.Survives other.causal.Applicable admission keys role)
    (known : ∀ revocation, log.causal.Applicable revocation → log.Revokes revocation keys.appId →
      other.causal.Applicable revocation) :
    log.Survives log.causal.Applicable admission keys role := by
  have past := same.past_iff indexed otherIndexed found applicable.1 parents
  have below : ∀ ancestor, other.causal.Applicable ancestor → log.causal.Applicable ancestor :=
    fun ancestor inside =>
      applicable.ancestor indexed.wellFormed ((past ancestor).mpr inside).to_reflTransGen
  have inside := below admission survives.inside
  constructor
  · exact inside
  · obtain ⟨recorded, recordedFound, operation, listed, admits⟩ := survives.admits
    obtain ⟨own, ownFound⟩ := indexed.recorded inside.1
    refine ⟨own, ownFound, operation, ?_, admits⟩
    rw [same admission own recorded ownFound recordedFound]
    exact listed
  · intro revocation later revokes
    have there := known revocation later revokes
    obtain ⟨own, ownFound, operation, listed, revoking⟩ := revokes
    obtain ⟨recorded, recordedFound⟩ := otherIndexed.recorded there.1
    rw [same revocation own recorded ownFound recordedFound] at listed
    exact same.symm.ancestorOrSelf otherIndexed indexed survives.inside.1 inside.1
      (survives.follows revocation there ⟨recorded, recordedFound, operation, listed, revoking⟩)

end IdentityControlLog

/-- Some event admits the app as an app key. -/
def AdmitsApp (events : List IdentityEvent) (appId : AppId) : Prop :=
  ∃ event ∈ events, ∃ member, event.Admits member .app ∧ member.appId = appId

section Surviving

omit [DecidableEq Replica]

variable {net : Network Replica}

/-- A member that was admitted as an app key is one. -/
theorem Network.Sound.isAppMember (sound : net.Sound) (sent : Sent net.events log)
    {state : IdentityControlState} (projected : IdentityControlState.project log = .ok state)
    {member : IdentityControlMember} (listed : member ∈ state.members)
    (admitted : AdmitsApp net.events member.keys.appId) : member ∈ state.appMembers := by
  obtain ⟨admitting, sentAdmitting, asApp, admits, same⟩ := admitted
  obtain ⟨_, other, keys, role, otherAdmits, app, kind⟩ :=
    sent.reachable.sound.member_admitted projected listed
  obtain ⟨otherEvent, otherFound, how⟩ := otherAdmits
  have agrees := sound.oneRole admitting sentAdmitting otherEvent
    (sent.recorded other otherEvent otherFound) asApp keys .app role admits how
    (same.trans app.symm)
  refine (IdentityControlState.mem_appMembers member).mpr ⟨listed, ?_⟩
  rw [← agrees] at kind
  rw [← Bool.not_eq_true, kind]
  decide

/-- An app-key member has an admission that counts, and was admitted as an app key. -/
theorem Sent.appMember {events : List IdentityEvent} (sent : Sent events log)
    {state : IdentityControlState} (projected : IdentityControlState.project log = .ok state)
    {member : IdentityControlMember} (isApp : member ∈ state.appMembers) :
    (∃ id keys role, log.Survives log.causal.Applicable id keys role ∧
      keys.appId = member.keys.appId) ∧ AdmitsApp events member.keys.appId := by
  obtain ⟨listed, kind⟩ := (IdentityControlState.mem_appMembers member).mp isApp
  obtain ⟨survives, other, keys, role, admits, app, recovers⟩ :=
    sent.reachable.sound.member_admitted projected listed
  obtain ⟨event, found, how⟩ := admits
  refine ⟨survives, event, sent.recorded other event found, keys, ?_, app⟩
  cases role with
  | app => exact how
  | recovery =>
    rw [recovers.mpr rfl] at kind
    cases kind

/-- An applicable event that takes an app key away. -/
def Removal (events : List IdentityEvent) (log : IdentityControlLog) (event : IdentityEvent) : Prop :=
  ∃ id, log.events[id]? = some event ∧ log.causal.Applicable id ∧
    ∃ appId, event.Revokes appId ∧ AdmitsApp events appId

/-- While nobody took an app key away, the founder's counts. -/
theorem Sent.founder_survives {events : List IdentityEvent} (sent : Sent events log)
    {genesis : EventId} {founding : IdentityEvent} (found : log.events[genesis]? = some founding)
    (root : founding.body.isGenesis = true) (untouched : ¬∃ event ∈ events, Removal events log event) :
    ∃ id keys role, log.Survives log.causal.Applicable id keys role ∧
      AdmitsApp events keys.appId := by
  have logSound := sent.reachable.sound
  obtain ⟨founder, operations, _⟩ := (logSound.enveloped genesis founding found).genesis root
  have founds : founding.Admits founder .app :=
    ⟨.identityCreated founder, by rw [operations]; exact List.mem_singleton_self _, rfl⟩
  have admitted : AdmitsApp events founder.appId :=
    ⟨founding, sent.recorded genesis founding found, founder, founds, rfl⟩
  refine ⟨genesis, founder, .app, ⟨logSound.genesis_applicable found root,
    (IdentityControlLog.admits_iff found founder .app).mpr founds, ?_⟩, admitted⟩
  intro revocation later revokes
  obtain ⟨event, recorded⟩ := logSound.indexed.recorded later.1
  rw [IdentityControlLog.revokes_iff recorded] at revokes
  exact absurd ⟨event, sent.recorded revocation event recorded, revocation, recorded, later,
    founder.appId, revokes, admitted⟩ untouched

/-- Some app was admitted as an app key and still counts. -/
theorem Network.Sound.exists_surviving (sound : net.Sound)
    (single : ∀ event ∈ net.events, ∀ other ∈ net.events, event.id = other.id →
      event.body = other.body)
    (sent : Sent net.events log) {genesis : EventId} {founding : IdentityEvent}
    (found : log.events[genesis]? = some founding) (root : founding.body.isGenesis = true) :
    ∃ id keys role, log.Survives log.causal.Applicable id keys role ∧
      AdmitsApp net.events keys.appId := by
  have logSound := sent.reachable.sound
  by_cases some : ∃ event ∈ net.events, Removal net.events log event
  · obtain ⟨event, member, removal⟩ := some
    -- The last of them in the order of the appends, not of causality.
    obtain ⟨before, last, after, split, removal, rest⟩ :=
      exists_last_split (Removal net.events log) net.events member removal
    obtain ⟨id, recorded, applicable, appId, revokes, admitted⟩ := removal
    obtain ⟨operation, listed, revoking⟩ := revokes
    rcases sound.appended before last after split with ⟨other, sole⟩ | ⟨author, state, appended⟩
    · rw [sole, List.mem_singleton] at listed
      rw [listed] at revoking
      cases revoking
    · have authorSent : Sent net.events author := appended.sent.mono (by
        rw [split]
        exact List.subset_append_left _ _)
      have same := sent.sameBodies authorSent single
      -- What it revokes is an app key to its author, so another one stays.
      have appKey : ∃ member ∈ state.appMembers, member.keys.appId = appId := by
        obtain ⟨revoked, isMember⟩ := appended.built.revokes listed revoking
        obtain ⟨inside, named⟩ := IdentityControlState.member_mem isMember
        exact ⟨revoked, sound.isAppMember authorSent appended.projected inside (named ▸ admitted),
          named⟩
      obtain ⟨stays, isApp, unrevoked, builtOn⟩ :=
        appended.leaves appId ⟨operation, listed, revoking⟩ appKey
      obtain ⟨⟨admission, keys, role, survives, app⟩, asApp⟩ :=
        authorSent.appMember appended.projected isApp
      refine ⟨admission, keys, role, ?_, app ▸ asApp⟩
      apply same.survives logSound.indexed authorSent.reachable.sound.indexed recorded applicable
        appended.parents survives
      intro revocation later revokes
      obtain ⟨revokingEvent, revokingFound⟩ := logSound.indexed.recorded later.1
      rw [IdentityControlLog.revokes_iff revokingFound, app] at revokes
      have sentRevoking := sent.recorded revocation revokingEvent revokingFound
      have also : Removal net.events log revokingEvent :=
        ⟨revocation, revokingFound, later, stays.keys.appId, revokes, asApp⟩
      rw [split] at sentRevoking
      rcases List.mem_append.mp sentRevoking with earlierRevoking | notBefore
      · obtain ⟨named, identified, builds⟩ := builtOn revokingEvent earlierRevoking revokes
        have own := (IdentityEvent.validateEnvelope_ok
          (logSound.valid revocation revokingEvent revokingFound)).2
        rw [own] at identified
        injection identified with identified
        rwa [identified]
      · rcases List.mem_cons.mp notBefore with itself | afterwards
        · rw [itself] at revokes
          exact absurd revokes unrevoked
        · exact absurd also (rest revokingEvent afterwards)
  · exact sent.founder_survives found root some

end Surviving

end Nook.IdentityControl
