import Nook.IdentityControl.Projectable

set_option autoImplicit false

namespace Nook.IdentityControl

open Nook.Lib Nook.Replication Nook.EventLog Relation

/-- An envelope of a vault's key epoch. -/
abbrev VaultEnvelope := (StoreId × EventId) × MemberVaultDek

namespace IdentityControlOperation

/-- The envelopes an operation hands out, in order. -/
def vaultEnvelopes : IdentityControlOperation → List VaultEnvelope
  | vaultRegistered storeId keyEpoch recipients | vaultDekGranted storeId keyEpoch recipients =>
    recipients.map (Prod.mk (storeId, keyEpoch))
  | memberApproved member vaultDeks _ | memberJoinedByInvite _ member _ vaultDeks =>
    vaultDeks.map fun grant => ((grant.storeId, grant.keyEpoch),
      ⟨member.appId, grant.secretsKeyCiphertext, grant.membersKeyCiphertext⟩)
  | _ => []

/-- The epoch an operation makes a vault's current one. -/
def keyEpochOf (storeId : StoreId) : IdentityControlOperation → Option EventId
  | vaultRegistered granted keyEpoch _ | vaultDekGranted granted keyEpoch _ =>
    if granted = storeId then some keyEpoch else none
  | _ => none

def registers (storeId : StoreId) : IdentityControlOperation → Bool
  | vaultRegistered registered _ _ => registered = storeId
  | _ => false

theorem exists_keyEpochOf {storeId : StoreId} (operation : IdentityControlOperation)
    (registers : operation.registers storeId = true) :
    ∃ keyEpoch, operation.keyEpochOf storeId = some keyEpoch := by
  cases operation with
  | vaultRegistered registered keyEpoch recipients =>
    exact ⟨keyEpoch, if_pos (of_decide_eq_true registers)⟩
  | _ => cases registers

end IdentityControlOperation

/-- The envelope of an app that comes last among some. -/
def lastEnvelope (envelopes : List VaultEnvelope) (storeId : StoreId) (keyEpoch : EventId)
    (appId : AppId) : Option MemberVaultDek :=
  (envelopes.reverse.find? fun envelope =>
    envelope.1 = (storeId, keyEpoch) && envelope.2.appId = appId).map Prod.snd

section Last

variable {storeId : StoreId} {keyEpoch : EventId} {appId : AppId}

theorem lastEnvelope_append (earlier later : List VaultEnvelope) :
    lastEnvelope (earlier ++ later) storeId keyEpoch appId =
      (lastEnvelope later storeId keyEpoch appId).or
        (lastEnvelope earlier storeId keyEpoch appId) := by
  unfold lastEnvelope
  rw [List.reverse_append, List.find?_append, Option.map_or]

theorem lastEnvelope_singleton (envelope : VaultEnvelope) :
    lastEnvelope [envelope] storeId keyEpoch appId =
      if envelope.1 = (storeId, keyEpoch) ∧ envelope.2.appId = appId then some envelope.2
      else none := by
  unfold lastEnvelope
  by_cases same : envelope.1 = (storeId, keyEpoch) ∧ envelope.2.appId = appId
  · simp [same]
  · rw [if_neg same]
    simpa using same

theorem lastEnvelope_isSome (envelopes : List VaultEnvelope) :
    (lastEnvelope envelopes storeId keyEpoch appId).isSome = true ↔
      ∃ envelope ∈ envelopes, envelope.1 = (storeId, keyEpoch) ∧ envelope.2.appId = appId := by
  unfold lastEnvelope
  rw [Option.isSome_map, List.find?_isSome]
  simp only [List.mem_reverse, Bool.and_eq_true, decide_eq_true_eq]

theorem appId_of_lastEnvelope {envelopes : List VaultEnvelope} {dek : MemberVaultDek}
    (last : lastEnvelope envelopes storeId keyEpoch appId = some dek) : dek.appId = appId := by
  obtain ⟨envelope, found, same⟩ := Option.map_eq_some_iff.mp last
  have holds := List.find?_some found
  rw [Bool.and_eq_true, decide_eq_true_eq, decide_eq_true_eq] at holds
  rw [← same]
  exact holds.2

end Last

namespace ProjectionAccumulator

/-- The envelopes the fold holds for an epoch of a vault. -/
def epochDeks (accumulator : ProjectionAccumulator) (storeId : StoreId) (keyEpoch : EventId) :
    BTreeMap AppId MemberVaultDek :=
  ((accumulator.vaultOf storeId).epochs[keyEpoch]?).getD ∅

variable (accumulator : ProjectionAccumulator)

theorem vaultOf_insert (storeId other : StoreId) (vault : VaultAccumulator) :
    ({ accumulator with
        vaults := accumulator.vaults.insert storeId vault } : ProjectionAccumulator).vaultOf other =
      if storeId = other then vault else accumulator.vaultOf other := by
  unfold vaultOf
  dsimp only
  rw [BTreeMap.getElem?_insert_eq]
  split <;> rfl

/-- What one operation does to the vaults of the fold. -/
structure VaultEffect (operation : IdentityControlOperation) (before after : ProjectionAccumulator) :
    Prop where
  envelopes : ∀ storeId keyEpoch (appId : AppId), (after.epochDeks storeId keyEpoch)[appId]? =
    (lastEnvelope operation.vaultEnvelopes storeId keyEpoch appId).or
      (before.epochDeks storeId keyEpoch)[appId]?
  current : ∀ storeId, (after.vaultOf storeId).currentKeyEpoch =
    (operation.keyEpochOf storeId).or (before.vaultOf storeId).currentKeyEpoch
  registered : ∀ storeId, (after.vaultOf storeId).registeredIn.isSome =
    (operation.registers storeId || (before.vaultOf storeId).registeredIn.isSome)
  removed : ∀ storeId, storeId ∈ after.removedVaults ↔
    operation = .vaultRemoved storeId ∨ storeId ∈ before.removedVaults

theorem epochDeks_of_vaultOf {after : ProjectionAccumulator} {storeId : StoreId}
    (same : after.vaultOf storeId = accumulator.vaultOf storeId) (keyEpoch : EventId) :
    after.epochDeks storeId keyEpoch = accumulator.epochDeks storeId keyEpoch := by
  unfold epochDeks
  rw [same]

/-- Inserting some envelopes into a map leaves the last one of each app. -/
theorem getElem?_insert_recipients (recipients : List MemberVaultDek) (storeId : StoreId)
    (keyEpoch : EventId) (epoch : BTreeMap AppId MemberVaultDek) (appId : AppId) :
    (recipients.foldl (fun epoch recipient => epoch.insert recipient.appId recipient) epoch)[appId]? =
      (lastEnvelope (recipients.map (Prod.mk (storeId, keyEpoch))) storeId keyEpoch appId).or
        epoch[appId]? := by
  have inserted := BTreeMap.getElem?_foldl_insert (fun _ => true) MemberVaultDek.appId id recipients
    epoch appId
  simp only [if_true, Bool.true_and, id_eq] at inserted
  rw [inserted]
  unfold lastEnvelope
  congr 1
  rw [← List.map_reverse, List.find?_map, Option.map_map]
  simp [Function.comp_def]

theorem lastEnvelope_elsewhere {storeId other : StoreId} {keyEpoch epoch : EventId}
    (apart : (storeId, keyEpoch) ≠ (other, epoch)) (deks : List MemberVaultDek) (appId : AppId) :
    lastEnvelope (deks.map (Prod.mk (storeId, keyEpoch))) other epoch appId = none := by
  unfold lastEnvelope
  rw [Option.map_eq_none_iff, List.find?_eq_none]
  intro envelope listed
  obtain ⟨dek, _, same⟩ := List.mem_map.mp (List.mem_reverse.mp listed)
  rw [← same]
  simp [apart]

theorem vaultOf_grant (storeId other : StoreId) (keyEpoch : EventId)
    (recipients : List MemberVaultDek) :
    (accumulator.grant storeId keyEpoch recipients).vaultOf other =
      if storeId = other then
        { accumulator.vaultOf storeId with
          currentKeyEpoch := some keyEpoch
          epochs := (accumulator.vaultOf storeId).epochs.insert keyEpoch
            (recipients.foldl (fun epoch recipient => epoch.insert recipient.appId recipient)
              (((accumulator.vaultOf storeId).epochs[keyEpoch]?).getD ∅)) }
      else accumulator.vaultOf other :=
  accumulator.vaultOf_insert storeId other _

theorem epochDeks_grant (storeId other : StoreId) (keyEpoch epoch : EventId)
    (recipients : List MemberVaultDek) (appId : AppId) :
    ((accumulator.grant storeId keyEpoch recipients).epochDeks other epoch)[appId]? =
      (lastEnvelope (recipients.map (Prod.mk (storeId, keyEpoch))) other epoch appId).or
        (accumulator.epochDeks other epoch)[appId]? := by
  by_cases same : (storeId, keyEpoch) = (other, epoch)
  · cases same
    rw [← getElem?_insert_recipients]
    unfold epochDeks
    rw [vaultOf_grant, if_pos rfl]
    dsimp only
    rw [BTreeMap.getElem?_insert_eq, if_pos rfl, Option.getD_some]
  · rw [lastEnvelope_elsewhere same, Option.none_or]
    unfold epochDeks
    rw [vaultOf_grant]
    by_cases here : storeId = other
    · subst here
      have apart : keyEpoch ≠ epoch := fun equal => same (by rw [equal])
      rw [if_pos rfl]
      dsimp only
      rw [BTreeMap.getElem?_insert_eq, if_neg apart]
    · rw [if_neg here]

theorem vaultOf_registered (storeId other : StoreId) (event : EventId) :
    (accumulator.registered storeId event).vaultOf other =
      if storeId = other then { accumulator.vaultOf storeId with registeredIn := some event }
      else accumulator.vaultOf other :=
  accumulator.vaultOf_insert storeId other _

/-- The envelope of a new member in one of its grants. -/
def grantedDek (member : IdentityMemberKeys) (grant : IdentityVaultDekGrant) : MemberVaultDek :=
  ⟨member.appId, grant.secretsKeyCiphertext, grant.membersKeyCiphertext⟩

theorem vaultOf_grantDek (member : IdentityMemberKeys) (grant : IdentityVaultDekGrant)
    (other : StoreId) : (grantDek member accumulator grant).vaultOf other =
      if grant.storeId = other then
        { accumulator.vaultOf grant.storeId with
          epochs := (accumulator.vaultOf grant.storeId).epochs.insert grant.keyEpoch
            ((((accumulator.vaultOf grant.storeId).epochs[grant.keyEpoch]?).getD ∅).insert
              member.appId (grantedDek member grant)) }
      else accumulator.vaultOf other :=
  accumulator.vaultOf_insert grant.storeId other _

/-- A new member's grant adds the envelope that a grant to it alone would. -/
theorem epochDeks_grantDek (member : IdentityMemberKeys) (grant : IdentityVaultDekGrant)
    (storeId : StoreId) (keyEpoch : EventId) :
    (grantDek member accumulator grant).epochDeks storeId keyEpoch =
      (accumulator.grant grant.storeId grant.keyEpoch [grantedDek member grant]).epochDeks
        storeId keyEpoch := by
  unfold epochDeks
  rw [vaultOf_grantDek, vaultOf_grant]
  by_cases same : grant.storeId = storeId
  · rw [if_pos same, if_pos same]
    rfl
  · rw [if_neg same, if_neg same]

/-- What handing a new member its envelopes does to the vaults. -/
theorem foldl_grantDek_effect (member : IdentityMemberKeys) (grants : List IdentityVaultDekGrant)
    (accumulator : ProjectionAccumulator) :
    (∀ storeId keyEpoch (appId : AppId),
      ((grants.foldl (grantDek member) accumulator).epochDeks storeId keyEpoch)[appId]? =
        (lastEnvelope (grants.map fun grant =>
          ((grant.storeId, grant.keyEpoch), grantedDek member grant)) storeId keyEpoch appId).or
          (accumulator.epochDeks storeId keyEpoch)[appId]?) ∧
    (∀ storeId, ((grants.foldl (grantDek member) accumulator).vaultOf storeId).currentKeyEpoch =
        (accumulator.vaultOf storeId).currentKeyEpoch ∧
      ((grants.foldl (grantDek member) accumulator).vaultOf storeId).registeredIn =
        (accumulator.vaultOf storeId).registeredIn) ∧
    (grants.foldl (grantDek member) accumulator).removedVaults = accumulator.removedVaults := by
  induction grants generalizing accumulator with
  | nil => exact ⟨fun _ _ _ => rfl, fun _ => ⟨rfl, rfl⟩, rfl⟩
  | cons grant grants ih =>
    obtain ⟨envelopes, vaults, removed⟩ := ih (grantDek member accumulator grant)
    rw [List.foldl_cons]
    refine ⟨?_, ?_, removed⟩
    · intro storeId keyEpoch appId
      rw [envelopes, epochDeks_grantDek, epochDeks_grant, ← Option.or_assoc, ← lastEnvelope_append]
      rfl
    · intro storeId
      obtain ⟨current, registered⟩ := vaults storeId
      rw [current, registered, vaultOf_grantDek]
      by_cases same : grant.storeId = storeId
      · rw [if_pos same, same]
        exact ⟨rfl, rfl⟩
      · rw [if_neg same]
        exact ⟨rfl, rfl⟩

/-- An operation that touches no vault has no effect on them. -/
theorem VaultEffect.of_frame {operation : IdentityControlOperation}
    {before after : ProjectionAccumulator} (vaults : after.vaults = before.vaults)
    (removed : after.removedVaults = before.removedVaults) (none_ : operation.vaultEnvelopes = [])
    (uncurrent : ∀ storeId, operation.keyEpochOf storeId = none)
    (unregistered : ∀ storeId, operation.registers storeId = false)
    (kept : ∀ storeId, operation ≠ .vaultRemoved storeId) :
    VaultEffect operation before after := by
  have same : ∀ storeId, after.vaultOf storeId = before.vaultOf storeId := by
    intro storeId
    unfold vaultOf
    rw [vaults]
  constructor
  · intro storeId keyEpoch appId
    rw [none_, epochDeks_of_vaultOf before (same storeId)]
    rfl
  · intro storeId
    rw [uncurrent, same, Option.none_or]
  · intro storeId
    rw [unregistered, same, Bool.false_or]
  · intro storeId
    rw [removed]
    exact ⟨Or.inr, fun member => member.resolve_left (kept storeId)⟩

theorem vaultEffect_grant (storeId : StoreId) (keyEpoch : EventId)
    (recipients : List MemberVaultDek) :
    VaultEffect (.vaultDekGranted storeId keyEpoch recipients) accumulator
      (accumulator.grant storeId keyEpoch recipients) := by
  constructor
  · intro other epoch appId
    exact accumulator.epochDeks_grant storeId other keyEpoch epoch recipients appId
  · intro other
    rw [vaultOf_grant]
    unfold IdentityControlOperation.keyEpochOf
    by_cases same : storeId = other
    · simp [same]
    · simp [same]
  · intro other
    rw [vaultOf_grant]
    unfold IdentityControlOperation.registers
    by_cases same : storeId = other
    · simp [same]
    · simp [same]
  · intro other
    show other ∈ accumulator.removedVaults ↔ _
    simp

theorem vaultEffect_registered (storeId : StoreId) (keyEpoch : EventId)
    (recipients : List MemberVaultDek) (event : EventId) :
    VaultEffect (.vaultRegistered storeId keyEpoch recipients) accumulator
      ((accumulator.grant storeId keyEpoch recipients).registered storeId event) := by
  have granted := accumulator.vaultEffect_grant storeId keyEpoch recipients
  generalize accumulator.grant storeId keyEpoch recipients = next at granted
  have epochs : ∀ other, ((next.registered storeId event).vaultOf other).epochs =
      (next.vaultOf other).epochs := by
    intro other
    rw [vaultOf_registered]
    by_cases same : storeId = other
    · rw [if_pos same, same]
    · rw [if_neg same]
  constructor
  · intro other epoch appId
    unfold epochDeks
    rw [epochs]
    exact granted.envelopes other epoch appId
  · intro other
    have current := granted.current other
    rw [vaultOf_registered]
    by_cases same : storeId = other
    · subst same
      rw [if_pos rfl]
      exact current
    · rw [if_neg same]
      exact current
  · intro other
    have registered := granted.registered other
    rw [vaultOf_registered]
    unfold IdentityControlOperation.registers at registered ⊢
    by_cases same : storeId = other
    · simp [same]
    · rw [if_neg same, registered]
      simp [same]
  · intro other
    have removed := granted.removed other
    show other ∈ next.removedVaults ↔ _
    rw [removed]
    simp

theorem vaultEffect_removed (storeId : StoreId) :
    VaultEffect (.vaultRemoved storeId) accumulator
      { accumulator with removedVaults := accumulator.removedVaults.insert storeId } := by
  constructor
  · intro other epoch appId
    rfl
  · intro other
    rfl
  · intro other
    rfl
  · intro other
    show other ∈ accumulator.removedVaults.insert storeId ↔ _
    rw [Std.ExtTreeSet.mem_insert, compare_eq_iff_eq]
    simp

theorem vaultEffect_applyOther (event : AppliedEvent) {operation : IdentityControlOperation}
    (unadmitting : operation.admission event.actorId = none) :
    VaultEffect operation accumulator (accumulator.applyOther event operation) := by
  cases operation with
  | vaultRegistered storeId keyEpoch recipients =>
    exact accumulator.vaultEffect_registered storeId keyEpoch recipients event.id
  | vaultDekGranted storeId keyEpoch recipients =>
    exact accumulator.vaultEffect_grant storeId keyEpoch recipients
  | vaultRemoved storeId => exact accumulator.vaultEffect_removed storeId
  | identityCreated | memberApproved | memberJoinedByInvite | recoveryKeyAdded =>
    cases unadmitting
  | memberRenamed appId label =>
    rw [applyOther_memberRenamed]
    cases accumulator.memberKeys[appId]? <;> apply VaultEffect.of_frame <;>
      first | rfl | exact fun _ => rfl | nofun
  | _ => apply VaultEffect.of_frame <;> first | rfl | exact fun _ => rfl | nofun

variable [IdentityExternal]

theorem vaultEffect_admitMember {operation : IdentityControlOperation} {actorId : AuthKeyId}
    {admission : MemberAdmission} (found : operation.admission actorId = some admission)
    (event : EventId) {next : ProjectionAccumulator}
    (admitted : accumulator.admitMember event admission = .ok next) :
    VaultEffect operation accumulator next := by
  unfold admitMember at admitted
  obtain ⟨actor, _, same⟩ := bind_eq_ok.mp admitted
  cases same
  obtain ⟨envelopes, vaults, removed⟩ := foldl_grantDek_effect admission.member admission.vaultDeks
    { accumulator with
      signers := accumulator.signers.insert actor admission.member.appId
      memberKeys := accumulator.memberKeys.insert admission.member.appId
        ⟨admission.member, event, admission.kind, admission.admittedBy⟩
      resolutions := accumulator.resolutions ++ [(event, admission.member.appId)] }
  have handed : operation.vaultEnvelopes = admission.vaultDeks.map fun grant =>
      ((grant.storeId, grant.keyEpoch), grantedDek admission.member grant) := by
    cases operation <;> cases found <;> rfl
  have uncurrent : ∀ storeId, operation.keyEpochOf storeId = none := by
    intro storeId
    cases operation <;> cases found <;> rfl
  have unregistered : ∀ storeId, operation.registers storeId = false := by
    intro storeId
    cases operation <;> cases found <;> rfl
  have kept : ∀ storeId, operation ≠ .vaultRemoved storeId := by
    intro storeId
    cases operation <;> cases found <;> simp
  constructor
  · intro storeId keyEpoch appId
    rw [handed]
    exact envelopes storeId keyEpoch appId
  · intro storeId
    rw [uncurrent, Option.none_or]
    exact (vaults storeId).1
  · intro storeId
    rw [unregistered, Bool.false_or]
    exact congrArg Option.isSome (vaults storeId).2
  · intro storeId
    rw [removed]
    exact ⟨Or.inr, fun member => member.resolve_left (kept storeId)⟩

omit [IdentityExternal] in
theorem VaultEffect.of_vaults {operation : IdentityControlOperation}
    {before other after : ProjectionAccumulator} (effect : VaultEffect operation before after)
    (vaults : before.vaults = other.vaults) (removed : before.removedVaults = other.removedVaults) :
    VaultEffect operation other after := by
  have same : ∀ storeId, before.vaultOf storeId = other.vaultOf storeId := by
    intro storeId
    unfold vaultOf
    rw [vaults]
  constructor
  · intro storeId keyEpoch appId
    rw [effect.envelopes, epochDeks_of_vaultOf other (same storeId)]
  · intro storeId
    rw [effect.current, same]
  · intro storeId
    rw [effect.registered, same]
  · intro storeId
    rw [effect.removed, removed]

theorem vaultEffect_applyStep (step : AppliedOperation) {next : ProjectionAccumulator}
    (applied : accumulator.applyStep step = .ok next) : VaultEffect step.2 accumulator next := by
  unfold applyStep apply at applied
  dsimp only at applied
  -- The founding flag is not about vaults.
  have marked : ∃ begun : ProjectionAccumulator,
      (begun = if step.2.isIdentityCreated then { accumulator with created := true }
        else accumulator) ∧ begun.vaults = accumulator.vaults ∧
        begun.removedVaults = accumulator.removedVaults := by
    refine ⟨_, rfl, ?_⟩
    cases step.2.isIdentityCreated <;> exact ⟨rfl, rfl⟩
  obtain ⟨begun, begins, vaults, removed⟩ := marked
  rw [← begins] at applied
  cases found : step.2.admission step.1.2.body.actorId with
  | some admission =>
    rw [found] at applied
    exact (begun.vaultEffect_admitMember found step.1.1 applied).of_vaults vaults removed
  | none =>
    rw [found] at applied
    cases applied
    exact (begun.vaultEffect_applyOther _ found).of_vaults vaults removed

/-- What the fold holds of the vaults after the operations it went through. -/
structure VaultRecords (done : List AppliedOperation) (accumulator : ProjectionAccumulator) :
    Prop where
  envelopes : ∀ storeId keyEpoch (appId : AppId),
    (accumulator.epochDeks storeId keyEpoch)[appId]? =
      lastEnvelope (done.flatMap fun step => step.2.vaultEnvelopes) storeId keyEpoch appId
  current : ∀ storeId, (accumulator.vaultOf storeId).currentKeyEpoch =
    (done.filterMap fun step => step.2.keyEpochOf storeId).getLast?
  registered : ∀ storeId, (accumulator.vaultOf storeId).registeredIn.isSome =
    done.any fun step => step.2.registers storeId
  removed : ∀ storeId, storeId ∈ accumulator.removedVaults ↔
    ∃ step ∈ done, step.2 = .vaultRemoved storeId

omit [IdentityExternal] in
theorem vaultRecords_empty : VaultRecords [] empty := by
  constructor
  · intro storeId keyEpoch appId
    simp [epochDeks, vaultOf, empty, VaultAccumulator.empty, lastEnvelope]
  · intro storeId
    simp [vaultOf, empty, VaultAccumulator.empty]
  · intro storeId
    simp [vaultOf, empty, VaultAccumulator.empty]
  · intro storeId
    simp [empty]

omit [IdentityExternal] in
theorem VaultRecords.step {done : List AppliedOperation} {accumulator next : ProjectionAccumulator}
    (records : VaultRecords done accumulator) {step : AppliedOperation}
    (effect : VaultEffect step.2 accumulator next) : VaultRecords (done ++ [step]) next := by
  constructor
  · intro storeId keyEpoch appId
    rw [effect.envelopes, records.envelopes, List.flatMap_append, List.flatMap_singleton,
      lastEnvelope_append]
  · intro storeId
    rw [effect.current, records.current, List.filterMap_append, List.getLast?_append]
    cases keyEpoch : step.2.keyEpochOf storeId <;> simp [keyEpoch]
  · intro storeId
    rw [effect.registered, records.registered, List.any_append, List.any_cons, List.any_nil,
      Bool.or_false, Bool.or_comm]
  · intro storeId
    rw [effect.removed, records.removed]
    simp only [List.mem_append, List.mem_singleton, or_and_right, exists_or, exists_eq_left]
    exact or_comm

/-- The fold keeps every vault fact of the operations it went through. -/
theorem foldlM_applyEvent_vaultRecords {ordered : List (EventId × IdentityEvent)}
    {result : ProjectionAccumulator} (folded : ordered.foldlM applyEvent empty = .ok result) :
    VaultRecords (operationsOf ordered) result := by
  rw [foldlM_applyEvent] at folded
  exact foldlM_traces VaultRecords
    (fun before step state next records applied =>
      records.step (state.vaultEffect_applyStep step applied))
    (operationsOf ordered) [] vaultRecords_empty folded

end ProjectionAccumulator

end Nook.IdentityControl
