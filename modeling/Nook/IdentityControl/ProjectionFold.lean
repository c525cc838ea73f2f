import Nook.IdentityControl.Membership
import Nook.IdentityControl.Projection

set_option autoImplicit false

namespace Nook.IdentityControl

open Nook.Lib Nook.Replication Nook.EventLog Relation

/-- An operation with the event it belongs to. -/
abbrev AppliedOperation := (EventId × IdentityEvent) × IdentityControlOperation

/-- The operations of a list of events, in order. -/
def operationsOf (ordered : List (EventId × IdentityEvent)) : List AppliedOperation :=
  ordered.flatMap fun entry => entry.2.body.operations.map (Prod.mk entry)

theorem mem_operationsOf (ordered : List (EventId × IdentityEvent)) (step : AppliedOperation) :
    step ∈ operationsOf ordered ↔ step.1 ∈ ordered ∧ step.2 ∈ step.1.2.body.operations := by
  simp only [operationsOf, List.mem_flatMap, List.mem_map]
  constructor
  · rintro ⟨entry, member, operation, listed, rfl⟩
    exact ⟨member, listed⟩
  · intro ⟨member, listed⟩
    exact ⟨step.1, member, step.2, listed, rfl⟩

namespace IdentityMemberKind

def role : IdentityMemberKind → MemberRole
  | app _ => .app
  | recovery _ => .recovery

theorem isRecovery_iff (kind : IdentityMemberKind) :
    kind.isRecovery = true ↔ kind.role = .recovery := by
  cases kind <;> simp [isRecovery, role]

end IdentityMemberKind

theorem IdentityControlOperation.admits_of_admission {operation : IdentityControlOperation}
    {actor : AuthKeyId} {admission : MemberAdmission}
    (found : operation.admission actor = some admission) :
    operation.admits = some (admission.member, admission.kind.role) := by
  cases operation <;> cases found <;> rfl

theorem IdentityControlOperation.admits_of_no_admission {operation : IdentityControlOperation}
    {actor : AuthKeyId} (unadmitting : operation.admission actor = none) :
    operation.admits = none := by
  cases operation <;> first | rfl | cases unadmitting

/-- The admission of an app by an operation. -/
def AppliedOperation.admitsApp (step : AppliedOperation) (appId : AppId) : Bool :=
  step.2.admits.any fun admitted => admitted.1.appId = appId

/-- Two admissions differ at most in the label that renames gave the member. -/
structure AdmittedMember.Renames (renamed original : AdmittedMember) : Prop where
  keys : renamed.keys = { original.keys with label := renamed.keys.label }
  approvedIn : renamed.approvedIn = original.approvedIn
  kind : renamed.kind = original.kind
  admittedBy : renamed.admittedBy = original.admittedBy

theorem AdmittedMember.Renames.refl (admitted : AdmittedMember) : admitted.Renames admitted :=
  ⟨rfl, rfl, rfl, rfl⟩

theorem AdmittedMember.Renames.trans {first second third : AdmittedMember}
    (upper : first.Renames second) (lower : second.Renames third) : first.Renames third where
  keys := by
    rw [upper.keys, lower.keys]
  approvedIn := upper.approvedIn.trans lower.approvedIn
  kind := upper.kind.trans lower.kind
  admittedBy := upper.admittedBy.trans lower.admittedBy

/-- The last admission of an app among some operations, as the fold records it. -/
structure LastAdmission (done : List AppliedOperation) (appId : AppId) (admitted : AdmittedMember) :
    Prop where
  split : ∃ (earlier : List AppliedOperation) (step : AppliedOperation)
    (later : List AppliedOperation) (admission : MemberAdmission),
    done = earlier ++ step :: later ∧
      step.2.admission step.1.2.body.actorId = some admission ∧ admission.member.appId = appId ∧
        admitted.Renames ⟨admission.member, step.1.1, admission.kind, admission.admittedBy⟩ ∧
          ∀ other ∈ later, other.admitsApp appId = false

theorem LastAdmission.append {done : List AppliedOperation} {appId : AppId}
    {original renamed : AdmittedMember} (last : LastAdmission done appId original)
    (renames : renamed.Renames original) {step : AppliedOperation}
    (other : step.admitsApp appId = false) : LastAdmission (done ++ [step]) appId renamed := by
  obtain ⟨earlier, admitting, later, admission, split, found, app, same, rest⟩ := last.split
  refine ⟨earlier, admitting, later ++ [step], admission, ?_, found, app, renames.trans same, ?_⟩
  · rw [split, List.append_assoc, List.cons_append]
  · intro candidate member
    rcases List.mem_append.mp member with old | new
    · exact rest candidate old
    · rw [List.mem_singleton.mp new]
      exact other

namespace ProjectionAccumulator

variable {accumulator : ProjectionAccumulator}

theorem foldl_grantDek_frame (member : IdentityMemberKeys) (grants : List IdentityVaultDekGrant)
    (accumulator : ProjectionAccumulator) :
    (grants.foldl (grantDek member) accumulator).memberKeys = accumulator.memberKeys ∧
      (grants.foldl (grantDek member) accumulator).signers = accumulator.signers ∧
        (grants.foldl (grantDek member) accumulator).created = accumulator.created := by
  induction grants generalizing accumulator with
  | nil => exact ⟨rfl, rfl, rfl⟩
  | cons grant grants ih => exact ih (grantDek member accumulator grant)

theorem applyOther_memberRenamed (accumulator : ProjectionAccumulator) (event : AppliedEvent)
    (appId : AppId) (label : MemberLabel) :
    accumulator.applyOther event (.memberRenamed appId label) =
      match accumulator.memberKeys[appId]? with
      | none => accumulator
      | some admitted =>
        { accumulator with
          memberKeys := accumulator.memberKeys.insert appId
            { admitted with keys := { admitted.keys with label := label } } } :=
  rfl

theorem applyOther_frame (accumulator : ProjectionAccumulator) (event : AppliedEvent)
    (operation : IdentityControlOperation) :
    (accumulator.applyOther event operation).signers = accumulator.signers ∧
      (accumulator.applyOther event operation).created = accumulator.created := by
  cases operation with
  | memberRenamed appId label =>
    rw [applyOther_memberRenamed]
    cases accumulator.memberKeys[appId]? <;> exact ⟨rfl, rfl⟩
  | _ => exact ⟨rfl, rfl⟩

/-- The members after are those before, under new labels. -/
def Renamed (before after : BTreeMap AppId AdmittedMember) : Prop :=
  ∀ appId : AppId, (before[appId]? = none ∧ after[appId]? = none) ∨
    ∃ original renamed, before[appId]? = some original ∧ after[appId]? = some renamed ∧
      renamed.Renames original

/-- An operation that admits nobody at most renames a member. -/
theorem memberKeys_applyOther (accumulator : ProjectionAccumulator) (event : AppliedEvent)
    (operation : IdentityControlOperation) :
    Renamed accumulator.memberKeys (accumulator.applyOther event operation).memberKeys := by
  intro appId
  have unchanged : ∀ map : BTreeMap AppId AdmittedMember, (map[appId]? = none ∧ map[appId]? = none) ∨
      ∃ original renamed, map[appId]? = some original ∧ map[appId]? = some renamed ∧
        renamed.Renames original := by
    intro map
    cases found : map[appId]? with
    | none => exact Or.inl ⟨rfl, rfl⟩
    | some admitted => exact Or.inr ⟨admitted, admitted, rfl, rfl, .refl admitted⟩
  cases operation with
  | memberRenamed renamedApp label =>
    rw [applyOther_memberRenamed]
    split
    · exact unchanged _
    · rename_i admitted found
      dsimp only
      rw [BTreeMap.getElem?_insert_eq]
      by_cases same : renamedApp = appId
      · subst same
        rw [if_pos rfl, found]
        exact Or.inr ⟨_, _, rfl, rfl, rfl, rfl, rfl, rfl⟩
      · rw [if_neg same]
        exact unchanged _
  | _ => exact unchanged _

/-- What the fold has recorded of the operations it went through. -/
structure Records (done : List AppliedOperation) (accumulator : ProjectionAccumulator) : Prop where
  created : accumulator.created = done.any fun step => step.2.isIdentityCreated
  admitted : ∀ (appId : AppId) admitted, accumulator.memberKeys[appId]? = some admitted →
    LastAdmission done appId admitted
  unlisted : ∀ appId : AppId, accumulator.memberKeys[appId]? = none →
    ∀ step ∈ done, step.admitsApp appId = false

variable [IdentityExternal]

/-- Every signing key the fold knows belongs to an app it has admitted, and it
knows the key of every admission. -/
structure Signed (done : List AppliedOperation) (accumulator : ProjectionAccumulator) : Prop where
  admitted : ∀ (actor : AuthKeyId) appId, accumulator.signers[actor]? = some appId →
    appId ∈ accumulator.memberKeys
  known : ∀ step ∈ done, ∀ member role actor, step.2.admits = some (member, role) →
    member.signingActor = .ok actor → actor ∈ accumulator.signers

def applyStep (accumulator : ProjectionAccumulator) (step : AppliedOperation) :
    EventResult ProjectionAccumulator :=
  apply ⟨step.1.1, step.1.2.body.createdAt, step.1.2.body.actorId⟩ accumulator step.2

theorem foldlM_applyEvent (ordered : List (EventId × IdentityEvent))
    (accumulator : ProjectionAccumulator) :
    ordered.foldlM applyEvent accumulator = (operationsOf ordered).foldlM applyStep accumulator := by
  induction ordered generalizing accumulator with
  | nil => rfl
  | cons entry ordered ih =>
    unfold operationsOf
    rw [List.foldlM_cons, List.flatMap_cons, List.foldlM_append, List.foldlM_map]
    show entry.2.body.operations.foldlM _ accumulator >>= _ = _
    congr 1
    funext next
    exact ih next

/-- The accumulator that an admission leaves. -/
theorem admitMember_ok (event : EventId) {admission : MemberAdmission} {actor : AuthKeyId}
    (signed : admission.member.signingActor = .ok actor) :
    ∃ next, accumulator.admitMember event admission = .ok next ∧
      next.created = accumulator.created ∧
      next.signers = accumulator.signers.insert actor admission.member.appId ∧
      next.memberKeys = accumulator.memberKeys.insert admission.member.appId
        ⟨admission.member, event, admission.kind, admission.admittedBy⟩ := by
  unfold admitMember
  dsimp only
  rw [signed]
  refine ⟨_, rfl, ?_⟩
  obtain ⟨members, signers, created⟩ := foldl_grantDek_frame admission.member admission.vaultDeks
    { accumulator with
      signers := accumulator.signers.insert actor admission.member.appId
      memberKeys := accumulator.memberKeys.insert admission.member.appId
        ⟨admission.member, event, admission.kind, admission.admittedBy⟩
      resolutions := accumulator.resolutions ++ [(event, admission.member.appId)] }
  exact ⟨created, signers, members⟩

section Step

variable {done : List AppliedOperation} {step : AppliedOperation} {next : ProjectionAccumulator}

omit [IdentityExternal] in
theorem Records.admit (records : Records done accumulator) {admission : MemberAdmission}
    (found : step.2.admission step.1.2.body.actorId = some admission)
    (created : next.created = (done ++ [step]).any fun step => step.2.isIdentityCreated)
    (members : next.memberKeys = accumulator.memberKeys.insert admission.member.appId
      ⟨admission.member, step.1.1, admission.kind, admission.admittedBy⟩) :
    Records (done ++ [step]) next := by
  have admits := IdentityControlOperation.admits_of_admission found
  have others : ∀ appId, admission.member.appId ≠ appId → step.admitsApp appId = false := by
    intro appId apart
    simp [AppliedOperation.admitsApp, admits, apart]
  constructor
  · exact created
  · intro appId admitted lookup
    rw [members, BTreeMap.getElem?_insert_eq] at lookup
    by_cases same : admission.member.appId = appId
    · rw [if_pos same] at lookup
      injection lookup with lookup
      exact ⟨done, step, [], admission, rfl, found, same, lookup ▸ .refl _, by simp⟩
    · rw [if_neg same] at lookup
      exact (records.admitted appId admitted lookup).append (.refl admitted) (others appId same)
  · intro appId lookup other member
    rw [members, BTreeMap.getElem?_insert_eq] at lookup
    split at lookup
    · cases lookup
    · rename_i apart
      rcases List.mem_append.mp member with old | new
      · exact records.unlisted appId lookup other old
      · rw [List.mem_singleton.mp new]
        exact others appId apart

theorem Signed.admit (signed : Signed done accumulator) {admission : MemberAdmission}
    {actor : AuthKeyId} (found : step.2.admission step.1.2.body.actorId = some admission)
    (signing : admission.member.signingActor = .ok actor)
    (signers : next.signers = accumulator.signers.insert actor admission.member.appId)
    (members : next.memberKeys = accumulator.memberKeys.insert admission.member.appId
      ⟨admission.member, step.1.1, admission.kind, admission.admittedBy⟩) :
    Signed (done ++ [step]) next := by
  constructor
  · intro signer appId lookup
    rw [signers, BTreeMap.getElem?_insert_eq] at lookup
    rw [members, BTreeMap.mem_insert_eq]
    split at lookup
    · injection lookup with same
      exact Or.inl same
    · exact Or.inr (signed.admitted signer appId lookup)
  · intro other member keys role signer admitted key
    rw [signers, BTreeMap.mem_insert_eq]
    rcases List.mem_append.mp member with old | new
    · exact Or.inr (signed.known other old keys role signer admitted key)
    · rw [List.mem_singleton.mp new, IdentityControlOperation.admits_of_admission found] at admitted
      injection admitted with admitted
      injection admitted with same
      rw [← same, signing] at key
      injection key with key
      exact Or.inl key

omit [IdentityExternal] in
theorem Records.rename (records : Records done accumulator)
    (found : step.2.admission step.1.2.body.actorId = none)
    (created : next.created = (done ++ [step]).any fun step => step.2.isIdentityCreated)
    (members : Renamed accumulator.memberKeys next.memberKeys) : Records (done ++ [step]) next := by
  have others : ∀ appId, step.admitsApp appId = false := by
    intro appId
    simp [AppliedOperation.admitsApp, IdentityControlOperation.admits_of_no_admission found]
  constructor
  · exact created
  · intro appId admitted lookup
    rcases members appId with ⟨_, absent⟩ | ⟨original, renamed, before, after, renames⟩
    · rw [absent] at lookup
      cases lookup
    · rw [after] at lookup
      injection lookup with same
      exact (records.admitted appId original before).append (same ▸ renames) (others appId)
  · intro appId lookup other member
    rcases members appId with ⟨absent, _⟩ | ⟨_, _, _, after, _⟩
    · rcases List.mem_append.mp member with old | new
      · exact records.unlisted appId absent other old
      · rw [List.mem_singleton.mp new]
        exact others appId
    · rw [after] at lookup
      cases lookup

theorem Signed.rename (signed : Signed done accumulator)
    (found : step.2.admission step.1.2.body.actorId = none)
    (signers : next.signers = accumulator.signers)
    (members : Renamed accumulator.memberKeys next.memberKeys) : Signed (done ++ [step]) next := by
  constructor
  · intro signer appId lookup
    rw [signers] at lookup
    obtain ⟨original, before⟩ :=
      (BTreeMap.mem_iff_getElem? _ _).mp (signed.admitted signer appId lookup)
    rcases members appId with ⟨absent, _⟩ | ⟨_, _, _, after, _⟩
    · rw [absent] at before
      cases before
    · exact BTreeMap.mem_of_getElem? after
  · intro other member keys role signer admitted key
    rw [signers]
    rcases List.mem_append.mp member with old | new
    · exact signed.known other old keys role signer admitted key
    · rw [List.mem_singleton.mp new, IdentityControlOperation.admits_of_no_admission found] at admitted
      cases admitted

end Step

theorem applyStep_records {done : List AppliedOperation} (records : Records done accumulator)
    (signed : Signed done accumulator) (step : AppliedOperation)
    (named : ∀ member role, step.2.admits = some (member, role) →
      ∃ actor, member.signingActor = .ok actor) :
    ∃ next, accumulator.applyStep step = .ok next ∧ Records (done ++ [step]) next ∧
      Signed (done ++ [step]) next := by
  -- Only the founding operation touches the flag first.
  have marked : ∃ begun : ProjectionAccumulator,
      (begun = if step.2.isIdentityCreated then { accumulator with created := true }
        else accumulator) ∧ begun.memberKeys = accumulator.memberKeys ∧
        begun.signers = accumulator.signers ∧
          begun.created = (done ++ [step]).any fun step => step.2.isIdentityCreated := by
    refine ⟨_, rfl, ?_⟩
    rw [List.any_append, ← records.created, List.any_cons, List.any_nil, Bool.or_false]
    cases step.2.isIdentityCreated <;> simp
  obtain ⟨begun, begins, sameMembers, sameSigners, created⟩ := marked
  unfold applyStep apply
  dsimp only
  rw [← begins]
  cases found : step.2.admission step.1.2.body.actorId with
  | some admission =>
    obtain ⟨actor, signing⟩ := named _ _ (IdentityControlOperation.admits_of_admission found)
    obtain ⟨next, ran, nextCreated, signers, members⟩ := begun.admitMember_ok step.1.1 signing
    rw [sameMembers] at members
    rw [sameSigners] at signers
    exact ⟨next, ran, records.admit found (nextCreated.trans created) members,
      signed.admit found signing signers members⟩
  | none =>
    let applied : AppliedEvent := ⟨step.1.1, step.1.2.body.createdAt, step.1.2.body.actorId⟩
    obtain ⟨signers, flag⟩ := begun.applyOther_frame applied step.2
    have members := begun.memberKeys_applyOther applied step.2
    rw [sameMembers] at members
    exact ⟨_, rfl, records.rename found (flag.trans created) members,
      signed.rename found (signers.trans sameSigners) members⟩

/-- The fold over validated events succeeds and records their admissions. -/
theorem foldlM_applyEvent_ok (ordered : List (EventId × IdentityEvent))
    (enveloped : ∀ entry ∈ ordered, entry.2.Enveloped) :
    ∃ result, ordered.foldlM applyEvent empty = .ok result ∧
      Records (operationsOf ordered) result ∧ Signed (operationsOf ordered) result := by
  rw [foldlM_applyEvent]
  apply foldlM_rule (fun done state => Records done state ∧ Signed done state)
  · constructor
    · constructor <;> simp [empty]
    · constructor <;> simp [empty]
  · intro before step state member holds
    obtain ⟨inside, listed⟩ := (mem_operationsOf ordered step).mp member
    exact applyStep_records holds.1 holds.2 step
      ((enveloped step.1 inside).admits step.2 listed)

end ProjectionAccumulator

end Nook.IdentityControl
