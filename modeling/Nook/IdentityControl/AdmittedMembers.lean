import Nook.IdentityControl.Projectable

set_option autoImplicit false

namespace Nook.IdentityControl

open Nook.Lib Nook.Replication Nook.EventLog Relation

/-- The admission of an app that a list of events puts last. -/
def lastAdmission (ordered : List (EventId × IdentityEvent)) (appId : AppId) :
    Option AppliedOperation :=
  ((operationsOf ordered).filter fun step => step.admitsApp appId).getLast?

theorem lastAdmission_eq_some {ordered : List (EventId × IdentityEvent)} {appId : AppId}
    {step : AppliedOperation} (last : lastAdmission ordered appId = some step) :
    step ∈ operationsOf ordered ∧ step.admitsApp appId = true :=
  List.mem_filter.mp (List.mem_of_getLast? last)

theorem LastAdmission.last {ordered : List (EventId × IdentityEvent)} {appId : AppId}
    {admitted : AdmittedMember} (last : LastAdmission (operationsOf ordered) appId admitted) :
    ∃ step admission, lastAdmission ordered appId = some step ∧
      step.2.admission step.1.2.body.actorId = some admission ∧ admission.member.appId = appId ∧
        admitted.Renames ⟨admission.member, step.1.1, admission.kind, admission.admittedBy⟩ := by
  obtain ⟨earlier, step, later, admission, split, found, app, renames, rest⟩ := last.split
  refine ⟨step, admission, ?_, found, app, renames⟩
  have here : step.admitsApp appId = true := by
    simp [AppliedOperation.admitsApp, IdentityControlOperation.admits_of_admission found, app]
  have others : later.filter (fun step => step.admitsApp appId) = [] := by
    rw [List.filter_eq_nil_iff]
    intro other listed
    rw [rest other listed]
    decide
  unfold lastAdmission
  rw [split, List.filter_append, List.filter_cons, if_pos here, others]
  exact List.getLast?_concat

theorem IdentityMemberKeys.signingActor_renamed [IdentityExternal] {renamed original : IdentityMemberKeys}
    (same : renamed = { original with label := renamed.label }) :
    renamed.signingActor = original.signingActor := by
  rw [same]
  rfl

namespace IdentityControlLog

variable {log : IdentityControlLog} [IdentityExternal]

/-- A projected member is an effective member as an event that still counts admitted it. -/
structure AsAdmitted (log : IdentityControlLog) (member : IdentityControlMember) : Prop where
  admission : ∃ keys role, log.Survives log.causal.Applicable member.approvedIn keys role ∧
    keys.appId = member.keys.appId
  effective : ∃ (active : BTreeMap AppId EffectiveMember) (entry : EffectiveMember),
    log.effectiveMembers (Std.ExtTreeSet.ofList log.causal.applicableIds compare) = .ok active ∧
      active[member.keys.appId]? = some entry ∧
      (∃ actor, member.keys.signingActor = .ok actor ∧ actor ∈ entry.actors) ∧
      (member.kind.isRecovery = true ↔ entry.role = .recovery)

/-- Of every app that still has an admission, the admission listed last follows
each revocation too, and is one as a recovery passphrase if any that counts is. -/
def LastAdmissionsSurvive (log : IdentityControlLog) : Prop :=
  ∀ ordered, log.orderedApplicableEvents = .ok ordered →
    ∀ (appId : AppId) step, lastAdmission ordered appId = some step →
      ∀ id keys role, log.Survives log.causal.Applicable id keys role → keys.appId = appId →
        (∀ revocation, log.causal.Applicable revocation → log.Revokes revocation appId →
          log.causal.AncestorOrSelf revocation step.1.1) ∧
        (role = .recovery → ∃ member, step.2.admits = some (member, .recovery))

variable {ordered : List (EventId × IdentityEvent)} {accumulator : ProjectionAccumulator}
  {active : BTreeMap AppId EffectiveMember} {state : IdentityControlState}
  {member : IdentityControlMember} {step : AppliedOperation} {admission : MemberAdmission}

/-- The admission a projected member was taken from. -/
structure ProjectedFrom (ordered : List (EventId × IdentityEvent)) (member : IdentityControlMember)
    (step : AppliedOperation) (admission : MemberAdmission) : Prop where
  last : lastAdmission ordered member.keys.appId = some step
  found : step.2.admission step.1.2.body.actorId = some admission
  keys : member.keys = { admission.member with label := member.keys.label }
  approvedIn : member.approvedIn = step.1.1
  kind : member.kind = admission.kind

theorem Projects.projectedFrom (projects : log.Projects ordered accumulator active)
    (projected : IdentityControlState.project log = .ok state) (listed : member ∈ state.members) :
    member.keys.appId ∈ active ∧ ∃ step admission, ProjectedFrom ordered member step admission := by
  obtain ⟨appId, admitted, lookup, kept, controlled⟩ :=
    (projects.members_iff projected member).mp listed
  obtain ⟨step, admission, last, found, app, renames⟩ :=
    (projects.records.admitted appId admitted lookup).last
  obtain ⟨approver, _, same⟩ := bind_eq_ok.mp controlled
  cases same
  have sameApp : admitted.keys.appId = appId := by
    rw [renames.keys]
    exact app
  exact ⟨sameApp ▸ kept, step, admission, sameApp ▸ last, found, renames.keys, renames.approvedIn,
    renames.kind⟩

/-- An app with a listed admission that is an effective member is projected. -/
theorem Projects.exists_member (sound : log.Sound) (projects : log.Projects ordered accumulator active)
    (projected : IdentityControlState.project log = .ok state) {appId : AppId}
    (last : lastAdmission ordered appId = some step) (kept : appId ∈ active) :
    ∃ member ∈ state.members, member.keys.appId = appId := by
  obtain ⟨listed, admits⟩ := lastAdmission_eq_some last
  cases lookup : accumulator.memberKeys[appId]? with
  | none =>
    rw [projects.records.unlisted appId lookup step listed] at admits
    cases admits
  | some admitted =>
    obtain ⟨_, _, _, _, app, renames⟩ := (projects.records.admitted appId admitted lookup).last
    obtain ⟨member, controlled⟩ :=
      sound.controlMember_ok projects.listing projects.records projects.signed lookup
    refine ⟨member, (projects.members_iff projected member).mpr
      ⟨appId, admitted, lookup, kept, controlled⟩, ?_⟩
    obtain ⟨approver, _, same⟩ := bind_eq_ok.mp controlled
    cases same
    rw [renames.keys]
    exact app

omit [IdentityExternal] in
theorem Ordered.ofList_eq (listing : log.Ordered ordered) :
    Std.ExtTreeSet.ofList (ordered.map Prod.fst) compare =
      Std.ExtTreeSet.ofList log.causal.applicableIds compare := by
  apply Std.ExtTreeSet.ext_mem
  intro id
  rw [Std.ExtTreeSet.mem_ofList, Std.ExtTreeSet.mem_ofList, List.contains_iff_mem,
    List.contains_iff_mem, listing.extension.mem_iff, CausalGraph.mem_applicableIds]

theorem ProjectedFrom.asAdmitted_iff (from_ : ProjectedFrom ordered member step admission)
    (sound : log.Sound) (projects : log.Projects ordered accumulator active)
    (kept : member.keys.appId ∈ active) :
    log.AsAdmitted member ↔
      (∀ revocation, log.causal.Applicable revocation → log.Revokes revocation member.keys.appId →
        log.causal.AncestorOrSelf revocation step.1.1) ∧
      ((∃ id keys, log.Survives log.causal.Applicable id keys .recovery ∧
          keys.appId = member.keys.appId) →
        ∃ keys, step.2.admits = some (keys, .recovery)) := by
  obtain ⟨listed, _⟩ := lastAdmission_eq_some from_.last
  obtain ⟨inside, operation⟩ := (mem_operationsOf ordered step).mp listed
  obtain ⟨applicable, recorded⟩ := (projects.listing.mem_iff step.1.1 step.1.2).mp inside
  have admits := IdentityControlOperation.admits_of_admission from_.found
  have sameApp : admission.member.appId = member.keys.appId := by rw [from_.keys]
  have recovers : member.kind.isRecovery = true ↔ ∃ keys, step.2.admits = some (keys, .recovery) := by
    rw [from_.kind, IdentityMemberKind.isRecovery_iff, admits]
    simp
  have survives : (∀ revocation, log.causal.Applicable revocation →
      log.Revokes revocation member.keys.appId → log.causal.AncestorOrSelf revocation step.1.1) →
        log.Survives log.causal.Applicable step.1.1 admission.member admission.kind.role := by
    intro follows
    exact ⟨applicable, ⟨step.1.2, recorded, step.2, operation, admits⟩, sameApp ▸ follows⟩
  obtain ⟨entry, lookup⟩ := (BTreeMap.mem_iff_getElem? _ _).mp kept
  have role := projects.effective.role member.keys.appId entry lookup
  constructor
  · intro asAdmitted
    obtain ⟨keys, role', counts, app⟩ := asAdmitted.admission
    rw [from_.approvedIn] at counts
    refine ⟨app ▸ counts.follows, ?_⟩
    intro strict
    obtain ⟨others, other, same, found, _, kind⟩ := asAdmitted.effective
    rw [← projects.listing.ofList_eq, projects.members] at same
    injection same with same
    rw [← same, lookup] at found
    injection found with found
    rw [← recovers, kind, ← found]
    exact role.mpr strict
  · intro ⟨follows, strict⟩
    have counts := survives follows
    constructor
    · exact ⟨admission.member, admission.kind.role, from_.approvedIn ▸ counts, sameApp⟩
    · obtain ⟨actor, signed⟩ :=
        (sound.enveloped step.1.1 step.1.2 recorded).admits step.2 operation _ _ admits
      refine ⟨active, entry, ?_, lookup, ⟨actor, ?_, ?_⟩, ?_⟩
      · rw [← projects.listing.ofList_eq]
        exact projects.members
      · rw [IdentityMemberKeys.signingActor_renamed from_.keys]
        exact signed
      · exact (projects.effective.actors _ entry lookup actor).mpr
          ⟨step.1.1, admission.member, _, counts, sameApp, signed⟩
      · rw [recovers, role]
        constructor
        · intro ⟨keys, asRecovery⟩
          rw [admits] at asRecovery
          injection asRecovery with pair
          injection pair with _ asRecovery
          exact ⟨step.1.1, admission.member, asRecovery ▸ counts, sameApp⟩
        · exact strict

/-- The projected members are the effective members as admitted exactly when the
admissions listed last are the ones that count. -/
theorem members_asAdmitted_iff (reachable : log.Reachable)
    (projected : IdentityControlState.project log = .ok state) :
    (∀ member ∈ state.members, log.AsAdmitted member) ↔ log.LastAdmissionsSurvive := by
  have sound := reachable.sound
  obtain ⟨ordered, accumulator, active, projects⟩ := sound.projects
  constructor
  · intro all others same appId step last id keys role survives app
    rw [projects.sorted] at same
    injection same with same
    rw [← same] at last
    have kept : appId ∈ active := (projects.effective.listed appId).mpr ⟨id, keys, role, survives, app⟩
    obtain ⟨member, listed, sameApp⟩ := projects.exists_member sound projected last kept
    obtain ⟨active', step', admission, from_⟩ := projects.projectedFrom projected listed
    have sameStep := from_.last
    rw [sameApp, last] at sameStep
    injection sameStep with sameStep
    obtain ⟨follows, strict⟩ :=
      (from_.asAdmitted_iff sound projects (sameApp ▸ kept)).mp (all member listed)
    rw [sameApp, ← sameStep] at follows
    refine ⟨follows, ?_⟩
    rintro rfl
    rw [sameStep]
    exact strict ⟨id, keys, survives, app.trans sameApp.symm⟩
  · intro survive member listed
    obtain ⟨kept, step, admission, from_⟩ := projects.projectedFrom projected listed
    obtain ⟨id, keys, role, survives, app⟩ := (projects.effective.listed _).mp kept
    have last := survive ordered projects.sorted _ step from_.last
    apply (from_.asAdmitted_iff sound projects kept).mpr
    refine ⟨(last id keys role survives app).1, ?_⟩
    intro ⟨strictId, strictKeys, strict, strictApp⟩
    exact (last strictId strictKeys .recovery strict strictApp).2 rfl

end IdentityControlLog

namespace TestSupport

open Nook.EventLog.TestSupport

theorem members_asAdmitted_iff_founded :
    ∃ log state, (IdentityControlLog.new identityId).insertAll [founded 'g' '1'] = .ok log ∧
      IdentityControlState.project log = .ok state ∧
      ((∀ member ∈ state.members, log.AsAdmitted member) ↔ log.LastAdmissionsSurvive) := by
  obtain ⟨log, built, checked⟩ := exists_of_passes
    ((IdentityControlLog.new identityId).insertAll [founded 'g' '1'])
    (fun log => (IdentityControlState.project log).isOk) (by decide +kernel)
  obtain ⟨state, projected⟩ := exists_of_isOk checked
  exact ⟨log, state, built, projected, IdentityControlLog.members_asAdmitted_iff
    ((IdentityControlLog.Reachable.new identityId).insertAll built) projected⟩

/-- A recovery passphrase that an app key approves keeps its role, but is
projected as an app key. -/
def reapprovedEvents : List IdentityEvent :=
  [founded 'g' '1', signed 'a' '1' ['g'] [addRecovery '2'], signed 'b' '1' ['a'] [approve '2']]

theorem reapproved_not_asAdmitted :
    ∃ log state, (IdentityControlLog.new identityId).insertAll reapprovedEvents = .ok log ∧
      IdentityControlState.project log = .ok state ∧
      ∃ member ∈ state.members, ¬log.AsAdmitted member := by
  obtain ⟨log, built, checked⟩ := exists_of_passes
    ((IdentityControlLog.new identityId).insertAll reapprovedEvents)
    (fun log => passes (IdentityControlState.project log) fun state =>
      passes (log.effectiveMembers (Std.ExtTreeSet.ofList log.causal.applicableIds compare))
        fun active => state.members.any fun member => !member.kind.isRecovery &&
          active[member.keys.appId]?.any fun entry => entry.role = .recovery)
    (by decide +kernel)
  obtain ⟨state, projected, checked⟩ := exists_of_passes _ _ checked
  obtain ⟨active, members, checked⟩ := exists_of_passes _ _ checked
  obtain ⟨member, listed, checked⟩ := List.any_eq_true.mp checked
  rw [Bool.and_eq_true, Bool.not_eq_true', Option.any_eq_true] at checked
  obtain ⟨kind, entry, lookup, role⟩ := checked
  refine ⟨log, state, built, projected, member, listed, ?_⟩
  intro asAdmitted
  obtain ⟨others, other, same, found, _, strict⟩ := asAdmitted.effective
  rw [members] at same
  injection same with same
  rw [← same, lookup] at found
  injection found with found
  rw [kind, ← found] at strict
  exact absurd (strict.mpr (of_decide_eq_true role)) (by decide)

end TestSupport

end Nook.IdentityControl
