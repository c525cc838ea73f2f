import Nook.IdentityControl.GraphInvariant

set_option autoImplicit false

namespace Nook.IdentityControl

open Nook.Lib Nook.Replication Nook.EventLog Relation

/-! ### Collected approvals -/

theorem MemberRole.join_eq_recovery (left right : MemberRole) :
    left.join right = .recovery ↔ left = .recovery ∨ right = .recovery := by
  cases left <;> cases right <;> decide

/-- The members stand for the approvals that were taken. -/
structure Collects (members : BTreeMap AppId EffectiveMember) (taken : MemberApproval → Prop) :
    Prop where
  listed : ∀ appId, appId ∈ members ↔ ∃ approval, taken approval ∧ approval.appId = appId
  actors : ∀ (appId : AppId) entry, members[appId]? = some entry → ∀ actor,
    actor ∈ entry.actors ↔ ∃ approval, taken approval ∧ approval.appId = appId ∧
      approval.actor = actor
  role : ∀ (appId : AppId) entry, members[appId]? = some entry →
    (entry.role = .recovery ↔ ∃ approval, taken approval ∧ approval.appId = appId ∧
      approval.role = .recovery)

theorem collects_empty : Collects ∅ fun _ => False := by
  constructor <;> simp

section Taking

variable {members : BTreeMap AppId EffectiveMember} {taken : MemberApproval → Prop}
  {approval : MemberApproval}

/-- One more approval says nothing of other apps. -/
theorem exists_taken_apart {appId : AppId} (apart : approval.appId ≠ appId)
    (P : MemberApproval → Prop) :
    (∃ other, (taken other ∨ other = approval) ∧ other.appId = appId ∧ P other) ↔
      ∃ other, taken other ∧ other.appId = appId ∧ P other := by
  apply exists_congr
  intro other
  constructor
  · rintro ⟨old | rfl, same, holds⟩
    · exact ⟨old, same, holds⟩
    · exact absurd same apart
  · intro ⟨old, same, holds⟩
    exact ⟨Or.inl old, same, holds⟩

theorem exists_taken_here (P : MemberApproval → Prop) :
    (∃ other, (taken other ∨ other = approval) ∧ other.appId = approval.appId ∧ P other) ↔
      (∃ other, taken other ∧ other.appId = approval.appId ∧ P other) ∨ P approval := by
  constructor
  · rintro ⟨other, old | rfl, same, holds⟩
    · exact Or.inl ⟨other, old, same, holds⟩
    · exact Or.inr holds
  · rintro (⟨other, old, same, holds⟩ | holds)
    · exact ⟨other, Or.inl old, same, holds⟩
    · exact ⟨approval, Or.inr rfl, rfl, holds⟩

theorem Collects.unlisted (collects : Collects members taken) {appId : AppId}
    (absent : members[appId]? = none) (P : MemberApproval → Prop) :
    ¬∃ other, taken other ∧ other.appId = appId ∧ P other := by
  intro ⟨other, old, same, _⟩
  exact (BTreeMap.not_mem_iff_getElem? _ _).mpr absent
    ((collects.listed appId).mpr ⟨other, old, same⟩)

/-- The keys taken for the app of an approval before it, if any. -/
theorem Collects.actors_getD (collects : Collects members taken) (approval : MemberApproval)
    (actor : AuthKeyId) :
    actor ∈ ((members[approval.appId]?).getD ⟨∅, approval.role⟩).actors ↔
      ∃ other, taken other ∧ other.appId = approval.appId ∧ other.actor = actor := by
  cases found : members[approval.appId]? with
  | some entry => exact collects.actors _ entry found actor
  | none => exact iff_of_false (by simp) (collects.unlisted found _)

theorem Collects.role_getD (collects : Collects members taken) (approval : MemberApproval) :
    ((members[approval.appId]?).getD ⟨∅, approval.role⟩).role.join approval.role = .recovery ↔
      (∃ other, taken other ∧ other.appId = approval.appId ∧ other.role = .recovery) ∨
        approval.role = .recovery := by
  rw [MemberRole.join_eq_recovery]
  cases found : members[approval.appId]? with
  | some entry => exact or_congr_left (collects.role _ entry found)
  | none =>
    have unlisted := collects.unlisted found fun other => other.role = .recovery
    simp only [Option.getD_none, or_self, unlisted, false_or]

/-- Taking one more approval adds its key and joins its role. -/
theorem Collects.insert (collects : Collects members taken) (approval : MemberApproval) :
    let member := (members[approval.appId]?).getD ⟨∅, approval.role⟩
    Collects (members.insert approval.appId
        ⟨member.actors.insert approval.actor, member.role.join approval.role⟩)
      fun other => taken other ∨ other = approval := by
  intro member
  constructor
  · intro appId
    rw [BTreeMap.mem_insert_eq, collects.listed]
    by_cases same : approval.appId = appId
    · subst same
      exact iff_of_true (Or.inl rfl) ⟨approval, Or.inr rfl, rfl⟩
    · have rest := @exists_taken_apart taken approval appId same fun _ => True
      simp only [and_true] at rest
      rw [rest]
      simp only [same, false_or]
  · intro appId entry found actor
    rw [BTreeMap.getElem?_insert_eq] at found
    by_cases same : approval.appId = appId
    · subst same
      rw [if_pos rfl] at found
      injection found with found
      rw [← found, exists_taken_here]
      show actor ∈ member.actors.insert approval.actor ↔ _
      rw [Std.ExtTreeSet.mem_insert, compare_eq_iff_eq, collects.actors_getD approval, or_comm]
    · rw [if_neg same] at found
      rw [exists_taken_apart same, collects.actors appId entry found]
  · intro appId entry found
    rw [BTreeMap.getElem?_insert_eq] at found
    by_cases same : approval.appId = appId
    · subst same
      rw [if_pos rfl] at found
      injection found with found
      rw [← found, exists_taken_here]
      exact collects.role_getD approval
    · rw [if_neg same] at found
      rw [exists_taken_apart same, collects.role appId entry found]

end Taking

namespace IdentityControlLog

variable {log : IdentityControlLog}

theorem collects_approvals (log : IdentityControlLog) (history : MembershipHistory)
    (approvals : List MemberApproval) :
    Collects (approvals.foldl (log.admitApproval history) ∅) fun approval =>
      approval ∈ approvals ∧ log.survives history approval = true := by
  induction approvals using List.reverseRecOn with
  | nil => simpa using collects_empty
  | append_singleton approvals approval ih =>
    rw [List.foldl_append]
    show Collects (log.admitApproval history _ approval) _
    unfold admitApproval
    by_cases survives : log.survives history approval = true
    · rw [if_pos survives]
      have grown := ih.insert approval
      have same : (fun other => (other ∈ approvals ∧ log.survives history other = true) ∨
          other = approval) = fun other => other ∈ approvals ++ [approval] ∧
            log.survives history other = true := by
        funext other
        rw [List.mem_append, List.mem_singleton]
        apply propext
        constructor
        · rintro (⟨old, kept⟩ | rfl)
          · exact ⟨Or.inl old, kept⟩
          · exact ⟨Or.inr rfl, survives⟩
        · rintro ⟨old | rfl, kept⟩
          · exact Or.inl ⟨old, kept⟩
          · exact Or.inr rfl
      rwa [same] at grown
    · rw [if_neg survives]
      have same : (fun other => other ∈ approvals ∧ log.survives history other = true) =
          fun other => other ∈ approvals ++ [approval] ∧ log.survives history other = true := by
        funext other
        rw [List.mem_append, List.mem_singleton]
        apply propext
        constructor
        · intro ⟨old, kept⟩
          exact ⟨Or.inl old, kept⟩
        · rintro ⟨old | rfl, kept⟩
          · exact ⟨old, kept⟩
          · exact absurd kept survives
      rwa [same] at ih

/-! ### Membership changes in a set of events -/

/-- An operation of a recorded event admits the member in the role. -/
def Admits (log : IdentityControlLog) (id : EventId) (member : IdentityMemberKeys)
    (role : MemberRole) : Prop :=
  ∃ event, log.events[id]? = some event ∧
    ∃ operation ∈ event.body.operations, operation.admits = some (member, role)

/-- An operation of a recorded event revokes the app. -/
def Revokes (log : IdentityControlLog) (id : EventId) (appId : AppId) : Prop :=
  ∃ event, log.events[id]? = some event ∧
    ∃ operation ∈ event.body.operations, operation.revokes = some appId

/-- An admission among the events that follows every revocation of the app among them. -/
structure Survives (log : IdentityControlLog) (within : EventId → Prop) (id : EventId)
    (member : IdentityMemberKeys) (role : MemberRole) : Prop where
  inside : within id
  admits : log.Admits id member role
  follows : ∀ revocation, within revocation → log.Revokes revocation member.appId →
    log.causal.AncestorOrSelf revocation id

variable [IdentityExternal]

/-- The members are those with a surviving admission, under their admitted keys
and the strictest of their roles. -/
structure Effective (log : IdentityControlLog) (within : EventId → Prop)
    (members : BTreeMap AppId EffectiveMember) : Prop where
  listed : ∀ appId, appId ∈ members ↔
    ∃ id member role, log.Survives within id member role ∧ member.appId = appId
  actors : ∀ (appId : AppId) entry, members[appId]? = some entry → ∀ actor,
    actor ∈ entry.actors ↔ ∃ id member role, log.Survives within id member role ∧
      member.appId = appId ∧ member.signingActor = .ok actor
  role : ∀ (appId : AppId) entry, members[appId]? = some entry →
    (entry.role = .recovery ↔ ∃ id member, log.Survives within id member .recovery ∧
      member.appId = appId)

/-- The approval that an operation of an event records. -/
def ApprovalOf (id : EventId) (operation : IdentityControlOperation) (approval : MemberApproval) :
    Prop :=
  approval.event = id ∧ ∃ member, operation.admits = some (member, approval.role) ∧
    approval.appId = member.appId ∧ member.signingActor = .ok approval.actor

theorem operation_history (id : EventId) (history : MembershipHistory)
    (operation : IdentityControlOperation) (named : ∀ member role,
      operation.admits = some (member, role) → ∃ actor, member.signingActor = .ok actor) :
    ∃ next, MembershipHistory.operation id history operation = .ok next ∧
      (∀ approval, approval ∈ next.approvals ↔
        approval ∈ history.approvals ∨ ApprovalOf id operation approval) ∧
      ∀ revocation, revocation ∈ next.revocations ↔
        revocation ∈ history.revocations ∨
          revocation.1 = id ∧ operation.revokes = some revocation.2 := by
  unfold MembershipHistory.operation
  cases admits : operation.admits with
  | some admitted =>
    obtain ⟨member, role⟩ := admitted
    obtain ⟨actor, signed⟩ := named member role admits
    dsimp only
    rw [signed]
    refine ⟨_, rfl, ?_, ?_⟩
    · intro approval
      rw [List.mem_append, List.mem_singleton]
      apply or_congr_right
      unfold ApprovalOf
      rw [admits]
      constructor
      · rintro rfl
        exact ⟨rfl, member, rfl, rfl, signed⟩
      · rintro ⟨same, other, equal, app, key⟩
        injection equal with equal
        injection equal with equal sameRole
        rw [← equal] at app key
        rw [signed] at key
        injection key with key
        cases approval
        simp_all
    · intro revocation
      have none : operation.revokes = none := by
        cases operation <;> first | rfl | cases admits
      simp [none]
  | none =>
    have unlisted : ∀ approval, ¬ApprovalOf id operation approval := by
      intro approval ⟨_, member, found, _⟩
      rw [admits] at found
      cases found
    dsimp only
    cases revokes : operation.revokes with
    | some appId =>
      refine ⟨_, rfl, by simp [unlisted], ?_⟩
      intro revocation
      rw [List.mem_append, List.mem_singleton]
      apply or_congr_right
      rw [Option.some.injEq, Prod.ext_iff]
      exact and_congr_right fun _ => eq_comm
    | none => exact ⟨_, rfl, by simp [unlisted], by simp⟩

theorem operations_history (id : EventId) (operations : List IdentityControlOperation)
    (history : MembershipHistory) (named : ∀ operation ∈ operations, ∀ member role,
      operation.admits = some (member, role) → ∃ actor, member.signingActor = .ok actor) :
    ∃ next, operations.foldlM (MembershipHistory.operation id) history = .ok next ∧
      (∀ approval, approval ∈ next.approvals ↔
        approval ∈ history.approvals ∨ ∃ operation ∈ operations, ApprovalOf id operation approval) ∧
      ∀ revocation, revocation ∈ next.revocations ↔
        revocation ∈ history.revocations ∨
          revocation.1 = id ∧ ∃ operation ∈ operations, operation.revokes = some revocation.2 := by
  induction operations generalizing history with
  | nil => exact ⟨history, rfl, by simp, by simp⟩
  | cons operation operations ih =>
    obtain ⟨middle, first, approvals, revocations⟩ :=
      operation_history id history operation (named operation List.mem_cons_self)
    obtain ⟨next, rest, restApprovals, restRevocations⟩ := ih middle
      fun other member => named other (List.mem_cons_of_mem _ member)
    refine ⟨next, ?_, ?_, ?_⟩
    · rw [List.foldlM_cons, first]
      exact rest
    · intro approval
      rw [restApprovals, approvals]
      simp only [List.mem_cons, exists_eq_or_imp]
      tauto
    · intro revocation
      rw [restRevocations, revocations]
      simp only [List.mem_cons, exists_eq_or_imp]
      tauto

/-- The later history has, besides the earlier one, the membership changes of the events. -/
structure Extends (log : IdentityControlLog) (inside : EventId → Prop)
    (earlier later : MembershipHistory) : Prop where
  approvals : ∀ approval, approval ∈ later.approvals ↔ approval ∈ earlier.approvals ∨
    inside approval.event ∧ ∃ member, log.Admits approval.event member approval.role ∧
      approval.appId = member.appId ∧ member.signingActor = .ok approval.actor
  revocations : ∀ revocation, revocation ∈ later.revocations ↔ revocation ∈ earlier.revocations ∨
    inside revocation.1 ∧ log.Revokes revocation.1 revocation.2

theorem Enveloped.eventHistory_spec (enveloped : log.Enveloped) (history : MembershipHistory)
    (id : EventId) : ∃ next, log.eventHistory history id = .ok next ∧
      log.Extends (fun other => other = id) history next := by
  unfold eventHistory
  cases found : log.events[id]? with
  | none =>
    refine ⟨history, rfl, ?_, ?_⟩
    · intro approval
      constructor
      · exact Or.inl
      · rintro (old | ⟨same, member, ⟨event, recorded, _⟩, _⟩)
        · exact old
        · rw [same, found] at recorded
          cases recorded
    · intro revocation
      constructor
      · exact Or.inl
      · rintro (old | ⟨same, event, recorded, _⟩)
        · exact old
        · rw [same, found] at recorded
          cases recorded
  | some event =>
    obtain ⟨next, collected, approvals, revocations⟩ := operations_history id
      event.body.operations history (enveloped id event found).admits
    refine ⟨next, collected, ?_, ?_⟩
    · intro approval
      rw [approvals]
      apply or_congr_right
      unfold ApprovalOf Admits
      constructor
      · rintro ⟨operation, listed, same, member, admits, app, key⟩
        exact ⟨same, member, ⟨event, same ▸ found, operation, listed, admits⟩, app, key⟩
      · rintro ⟨same, member, ⟨other, recorded, operation, listed, admits⟩, app, key⟩
        rw [same, found] at recorded
        injection recorded with equal
        exact ⟨operation, equal ▸ listed, same, member, admits, app, key⟩
    · intro revocation
      rw [revocations]
      apply or_congr_right
      apply and_congr_right
      intro same
      unfold Revokes
      rw [same, found]
      simp

theorem Enveloped.foldlM_eventHistory (enveloped : log.Enveloped) (ids : List EventId)
    (history : MembershipHistory) : ∃ next, ids.foldlM log.eventHistory history = .ok next ∧
      log.Extends (fun id => id ∈ ids) history next := by
  induction ids generalizing history with
  | nil => exact ⟨history, rfl, by simp, by simp⟩
  | cons id ids ih =>
    obtain ⟨middle, folded, first⟩ := enveloped.eventHistory_spec history id
    obtain ⟨next, rest, later⟩ := ih middle
    refine ⟨next, ?_, ?_, ?_⟩
    · rw [List.foldlM_cons, folded]
      exact rest
    · intro approval
      rw [later.approvals, first.approvals, List.mem_cons, or_assoc, ← or_and_right]
    · intro revocation
      rw [later.revocations, first.revocations, List.mem_cons, or_assoc, ← or_and_right]

/-- The history of a set of events lists its admissions and revocations. -/
theorem Enveloped.membershipHistory_spec (enveloped : log.Enveloped) (events : BTreeSet EventId) :
    ∃ history, log.membershipHistory events = .ok history ∧
      (∀ approval, approval ∈ history.approvals ↔ approval.event ∈ events ∧
        ∃ member, log.Admits approval.event member approval.role ∧
          approval.appId = member.appId ∧ member.signingActor = .ok approval.actor) ∧
      ∀ revocation, revocation ∈ history.revocations ↔
        revocation.1 ∈ events ∧ log.Revokes revocation.1 revocation.2 := by
  obtain ⟨history, folded, whole⟩ := enveloped.foldlM_eventHistory events.toList .empty
  refine ⟨history, folded, ?_, ?_⟩
  · intro approval
    rw [whole.approvals, Std.ExtTreeSet.mem_toList]
    simp [MembershipHistory.empty]
  · intro revocation
    rw [whole.revocations, Std.ExtTreeSet.mem_toList]
    simp [MembershipHistory.empty]

/-- Among validated events the effective members are always found. -/
theorem Enveloped.effectiveMembers_spec (enveloped : log.Enveloped) (events : BTreeSet EventId) :
    ∃ members, log.effectiveMembers events = .ok members ∧
      log.Effective (fun id => id ∈ events) members := by
  obtain ⟨history, found, approvals, revocations⟩ := enveloped.membershipHistory_spec events
  have collects := collects_approvals log history history.approvals
  -- A surviving approval is a surviving admission.
  have taken : ∀ approval : MemberApproval,
      (approval ∈ history.approvals ∧ log.survives history approval = true) ↔
        ∃ member, log.Survives (fun id => id ∈ events) approval.event member approval.role ∧
          approval.appId = member.appId ∧ member.signingActor = .ok approval.actor := by
    intro approval
    have follows : log.survives history approval = true ↔ ∀ revocation, revocation ∈ events →
        log.Revokes revocation approval.appId →
          log.causal.AncestorOrSelf revocation approval.event := by
      unfold survives
      simp only [List.all_eq_true, List.mem_filter, decide_eq_true_eq, and_imp, revocations,
        CausalGraph.isAncestor_iff, Prod.forall]
      constructor
      · intro holds revocation inside revokes
        exact holds revocation approval.appId inside revokes rfl
      · intro holds revocation appId inside revokes same
        exact holds revocation inside (same ▸ revokes)
    rw [approvals, follows]
    constructor
    · rintro ⟨⟨inside, member, admits, app, key⟩, follows⟩
      exact ⟨member, ⟨inside, admits, app ▸ follows⟩, app, key⟩
    · rintro ⟨member, survives, app, key⟩
      exact ⟨⟨survives.inside, member, survives.admits, app, key⟩, app ▸ survives.follows⟩
  -- Every surviving admission is listed under its signing actor.
  have listed : ∀ id member role, log.Survives (fun id => id ∈ events) id member role →
      ∃ actor, member.signingActor = .ok actor ∧ (⟨id, member.appId, actor, role⟩ ∈ history.approvals ∧
        log.survives history ⟨id, member.appId, actor, role⟩ = true) := by
    intro id member role survives
    obtain ⟨event, recorded, operation, inside, admits⟩ := survives.admits
    obtain ⟨actor, signed⟩ := (enveloped id event recorded).admits operation inside member role admits
    exact ⟨actor, signed, (taken ⟨id, member.appId, actor, role⟩).mpr ⟨member, survives, rfl, signed⟩⟩
  refine ⟨history.approvals.foldl (log.admitApproval history) ∅, ?_, ?_⟩
  · unfold effectiveMembers
    rw [found]
    rfl
  · constructor
    · intro appId
      rw [collects.listed]
      constructor
      · intro ⟨approval, kept, same⟩
        obtain ⟨member, survives, app, _⟩ := (taken approval).mp kept
        exact ⟨_, member, _, survives, app ▸ same⟩
      · intro ⟨id, member, role, survives, same⟩
        obtain ⟨actor, _, kept⟩ := listed id member role survives
        exact ⟨_, kept, same⟩
    · intro appId entry entryFound actor
      rw [collects.actors appId entry entryFound]
      constructor
      · intro ⟨approval, kept, same, key⟩
        obtain ⟨member, survives, app, signed⟩ := (taken approval).mp kept
        exact ⟨_, member, _, survives, app ▸ same, key ▸ signed⟩
      · intro ⟨id, member, role, survives, same, signed⟩
        obtain ⟨found, key, kept⟩ := listed id member role survives
        rw [signed] at key
        injection key with key
        exact ⟨_, kept, same, key.symm⟩
    · intro appId entry entryFound
      rw [collects.role appId entry entryFound]
      constructor
      · intro ⟨approval, kept, same, recovers⟩
        obtain ⟨member, survives, app, _⟩ := (taken approval).mp kept
        exact ⟨_, member, recovers ▸ survives, app ▸ same⟩
      · intro ⟨id, member, survives, same⟩
        obtain ⟨actor, _, kept⟩ := listed id member .recovery survives
        exact ⟨_, kept, same, rfl⟩

end IdentityControlLog

end Nook.IdentityControl
