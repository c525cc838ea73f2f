import Nook.Vault.SecretHistory
import Nook.EventLog.TestSupport

set_option autoImplicit false

namespace Nook.Vault

open Nook.Lib Nook.Replication Nook.EventLog Nook.Auth

/-! ### The chain of replaced versions -/

/-- The version that each projected version replaced, if it replaced one. -/
def replacedVersion (secrets : BTreeMap SecretId ProjectedSecret) (secretId : SecretId) :
    Option (Option SecretId) :=
  (secrets[secretId]?).map fun secret => secret.origin.replaced

/-- The versions of an item from a first recorded one on, oldest first. -/
structure Revisions (secrets : BTreeMap SecretId ProjectedSecret) (rootId : SecretId)
    (secretId : SecretId) (revisions : List SecretId) : Prop where
  first : revisions.head? = some rootId
  current : revisions.getLast? = some secretId
  replaces : revisions.IsChain fun older newer =>
    ∃ secret, secrets[newer]? = some secret ∧ secret.origin = .replacement older
  distinct : revisions.Nodup

variable {secrets : BTreeMap SecretId ProjectedSecret} {secretId rootId : SecretId}
  {root current : ProjectedSecret}

theorem replacedVersion_root_iff : replacedVersion secrets secretId = some none ↔
    ∃ secret, secrets[secretId]? = some secret ∧ secret.origin = .created := by
  unfold replacedVersion
  rw [Option.map_eq_some_iff]
  refine exists_congr fun secret => and_congr_right' ?_
  cases secret.origin with
  | created => simp [ProjectedSecretOrigin.replaced]
  | replacement oldId => simp [ProjectedSecretOrigin.replaced]

theorem replacedVersion_child_iff {oldId : SecretId} :
    replacedVersion secrets secretId = some (some oldId) ↔
      ∃ secret, secrets[secretId]? = some secret ∧ secret.origin = .replacement oldId := by
  unfold replacedVersion
  rw [Option.map_eq_some_iff]
  refine exists_congr fun secret => and_congr_right' ?_
  cases secret.origin with
  | created => simp [ProjectedSecretOrigin.replaced]
  | replacement otherId => simp [ProjectedSecretOrigin.replaced]

/-- A lineage under the replacements lists the revisions of its last element. -/
theorem Revisions.of_lineage {revisions : List SecretId}
    (lineage : Lineage (replacedVersion secrets) rootId secretId revisions) :
    Revisions secrets rootId secretId revisions where
  first := lineage.head?
  current := lineage.getLast?
  replaces := lineage.isChain.imp fun _ _ replaced => replacedVersion_child_iff.mp replaced
  distinct := lineage.nodup

/-- The walk of the source is the walk to the root of the replacements. -/
theorem walk_ok_iff {steps : Nat} {secretId : SecretId} {current : ProjectedSecret}
    (shown : secrets[secretId]? = some current) :
    SecretHistoryRequest.walk secrets steps secretId current = .ok (rootId, root) ↔
      secrets[rootId]? = some root ∧
        rootFrom (replacedVersion secrets) steps secretId = some rootId := by
  cases origin : current.origin with
  | created =>
    have starts : replacedVersion secrets secretId = some none :=
      replacedVersion_root_iff.mpr ⟨current, shown, origin⟩
    unfold SecretHistoryRequest.walk rootFrom
    rw [origin, starts]
    simp only [Except.ok.injEq, Prod.mk.injEq, Option.some.injEq]
    constructor
    · rintro ⟨rfl, rfl⟩
      exact ⟨shown, rfl⟩
    · rintro ⟨found, rfl⟩
      rw [shown] at found
      cases found
      exact ⟨rfl, rfl⟩
  | replacement oldId =>
    have replaced : replacedVersion secrets secretId = some (some oldId) :=
      replacedVersion_child_iff.mpr ⟨current, shown, origin⟩
    unfold SecretHistoryRequest.walk rootFrom
    rw [origin, replaced]
    cases steps with
    | zero => simp
    | succ steps =>
      dsimp only
      cases older : secrets[oldId]? with
      | none => simp [rootFrom, replacedVersion, older]
      | some entry => exact walk_ok_iff older

/-- With a step for every version the walk finds the root of every item that has one. -/
theorem walk_size_iff (shown : secrets[secretId]? = some current) :
    SecretHistoryRequest.walk secrets secrets.size secretId current = .ok (rootId, root) ↔
      secrets[rootId]? = some root ∧
        ∃ revisions, Lineage (replacedVersion secrets) rootId secretId revisions := by
  rw [walk_ok_iff shown, ← Std.ExtTreeMap.length_keys, rootFrom_iff]
  intro id known
  rw [Std.ExtTreeMap.mem_keys, BTreeMap.mem_iff_getElem?]
  unfold replacedVersion at known
  cases found : secrets[id]? with
  | none => simp [found] at known
  | some secret => exact ⟨secret, rfl⟩

/-! ### The origin of a recorded version -/

/-- The operation that leaves a first version of a secret is one that tells its origin. -/
theorem originOf_of_originWrite {operation : VaultOperation}
    (written : operation.originWrite secretId = some (some .created)) :
    (originOf secretId operation).isSome := by
  cases operation with
  | vaultImported _ secrets =>
    by_cases listed : secrets.any (·.id = secretId)
    · simp only [originOf, listed, if_true, Option.isSome_some]
    · simp [VaultOperation.originWrite, listed] at written
  | epochCheckpoint secrets _ _ _ =>
    by_cases listed : secrets.any (·.id = secretId)
    · simp only [originOf, listed, if_true, Option.isSome_some]
    · simp [VaultOperation.originWrite, listed] at written
  | secretCreated secret =>
    by_cases same : secret.id = secretId
    · simp [originOf, same]
    · simp [VaultOperation.originWrite, same] at written
  | secretReplaced oldId newSecret =>
    by_cases same : newSecret.id = secretId
    · simp [VaultOperation.originWrite, same] at written
    · simp [VaultOperation.originWrite, same] at written
  | _ => cases written

theorem originOperation_ok {event : VaultEvent} {operation : VaultOperation}
    (member : operation ∈ event.body.operations)
    (written : operation.originWrite secretId = some (some .created)) :
    ∃ told, SecretHistoryRequest.originOperation event secretId = .ok told := by
  unfold SecretHistoryRequest.originOperation
  cases found : event.body.operations.reverse.findSome? (originOf secretId) with
  | some told => exact ⟨told, rfl⟩
  | none =>
    have silent := List.findSome?_eq_none_iff.mp found operation (List.mem_reverse.mpr member)
    have tells := originOf_of_originWrite written
    rw [silent] at tells
    cases tells

theorem derive_eq_ok {request : SecretHistoryRequest} {history : SecretHistory}
    (shown : request.secrets[request.secretId]? = some current) :
    request.derive = .ok history ↔ ∃ rootId root,
      SecretHistoryRequest.walk request.secrets request.secrets.size request.secretId current =
        .ok (rootId, root) ∧
      request.origin rootId root = .ok history.origin ∧
      request.revision rootId current = .ok history.revision := by
  unfold SecretHistoryRequest.derive
  rw [shown]
  dsimp only
  rw [bind_eq_ok, Prod.exists]
  refine exists_congr fun rootId => exists_congr fun root => and_congr_right' ?_
  dsimp only
  rw [bind_eq_ok]
  constructor
  · rintro ⟨origin, tells, derived⟩
    obtain ⟨revision, changed, same⟩ := bind_eq_ok.mp derived
    cases same
    exact ⟨tells, changed⟩
  · rintro ⟨tells, changed⟩
    exact ⟨_, tells, bind_eq_ok.mpr ⟨_, changed, rfl⟩⟩

/-! ### The history of a projected secret -/

/-- The request for the history of a secret in the projection of a graph. -/
def SecretHistoryRequest.ofGraph (graph : EventGraph) (order : List EventId)
    (projection : VaultProjection) (roster : List VaultMember)
    (localSigner : SecretHistoryLocalSigner) (secretId : SecretId) : SecretHistoryRequest where
  secrets := projection.secrets
  events := order.filterMap fun id => (graph.events[id]?).map (Prod.mk id)
  roster := roster
  localSigner := localSigner
  secretId := secretId

namespace SecretHistoryRequest

variable {graph : EventGraph} {order : List EventId} {projection : VaultProjection}
  (roster : List VaultMember) (localSigner : SecretHistoryLocalSigner) (secretId : SecretId)

theorem event_ofGraph {id : EventId} {event : VaultEvent} (member : id ∈ order)
    (recorded : graph.events[id]? = some event) :
    (ofGraph graph order projection roster localSigner secretId).event id = .ok event := by
  have found : (order.filterMap fun id => (graph.events[id]?).map (Prod.mk id)).findSome?
      (fun entry => if entry.1 = id then some entry.2 else none) = some event := by
    induction order with
    | nil => cases member
    | cons first order ih =>
      by_cases same : first = id
      · simp [same, recorded]
      · have later : id ∈ order := (List.mem_cons.mp member).resolve_left (Ne.symm same)
        cases other : graph.events[first]? with
        | none => simpa [other] using ih later
        | some content => simpa [other, same] using ih later
  unfold SecretHistoryRequest.event ofGraph
  dsimp only
  rw [found]

variable [External]

/-- Every projected version was written by an event of the order. -/
theorem event_createdBy (supported : graph.Supported)
    (ordered : graph.topologicalOrder = .ok order) {storeName : Str}
    (projected : VaultProjection.fromGraph graph storeName = .ok projection)
    {id : SecretId} {secret : ProjectedSecret} (shown : projection.secrets[id]? = some secret) :
    ∃ event, (ofGraph graph order projection roster localSigner secretId).event secret.createdBy
        = .ok event ∧
      ∃ operation ∈ event.body.operations, operation.originWrite id = some (some secret.origin) := by
  have written : graph.lastWrite order id = some (secret.createdBy, secret.origin) := by
    rw [← VaultProjection.written_fromGraph supported ordered projected]
    unfold VaultProjection.written
    rw [shown]
    rfl
  obtain ⟨member, operation, inside, wrote⟩ := EventGraph.lastWrite_spec written
  unfold EventGraph.operationsOf at inside
  cases recorded : graph.events[secret.createdBy]? with
  | none =>
    rw [recorded] at inside
    cases inside
  | some event =>
    rw [recorded] at inside
    exact ⟨event, event_ofGraph roster localSigner secretId member recorded,
      operation, inside, wrote⟩

/-- The event of a first version tells the origin of the item. -/
theorem origin_ok (supported : graph.Supported) (ordered : graph.topologicalOrder = .ok order)
    {storeName : Str} (projected : VaultProjection.fromGraph graph storeName = .ok projection)
    (shown : projection.secrets[rootId]? = some root) (first : root.origin = .created) :
    ∃ origin, (ofGraph graph order projection roster localSigner secretId).origin rootId root =
      .ok origin := by
  obtain ⟨event, found, operation, member, written⟩ :=
    event_createdBy roster localSigner secretId supported ordered projected shown
  rw [first] at written
  obtain ⟨told, tells⟩ := originOperation_ok member written
  cases told with
  | created => exact ⟨_, bind_eq_ok.mpr ⟨event, found, bind_eq_ok.mpr ⟨_, tells, rfl⟩⟩⟩
  | imported => exact ⟨_, bind_eq_ok.mpr ⟨event, found, bind_eq_ok.mpr ⟨_, tells, rfl⟩⟩⟩
  | carriedForward => exact ⟨_, bind_eq_ok.mpr ⟨event, found, bind_eq_ok.mpr ⟨_, tells, rfl⟩⟩⟩

theorem revision_ok (supported : graph.Supported) (ordered : graph.topologicalOrder = .ok order)
    {storeName : Str} (projected : VaultProjection.fromGraph graph storeName = .ok projection)
    (shown : projection.secrets[secretId]? = some current) :
    ∃ revision, (ofGraph graph order projection roster localSigner secretId).revision rootId
      current = .ok revision := by
  obtain ⟨event, found, _⟩ :=
    event_createdBy roster localSigner secretId supported ordered projected shown
  unfold revision
  split
  · exact ⟨_, rfl⟩
  · exact ⟨_, bind_eq_ok.mpr ⟨event, found, rfl⟩⟩

end SecretHistoryRequest

/-- A version leads back to a first one in the log when the projection holds its lineage. -/
theorem traceable_iff [External] {graph : EventGraph} (supported : graph.Supported)
    {order : List EventId} (ordered : graph.topologicalOrder = .ok order) {storeName : Str}
    {projection : VaultProjection}
    (projected : VaultProjection.fromGraph graph storeName = .ok projection) :
    graph.Traceable order secretId ↔ ∃ rootId revisions,
      Lineage (replacedVersion projection.secrets) rootId secretId revisions := by
  have write_iff : ∀ secretId id origin, graph.lastWrite order secretId = some (id, origin) ↔
      ∃ secret, projection.secrets[secretId]? = some secret ∧ secret.createdBy = id ∧
        secret.origin = origin := by
    intro secretId id origin
    rw [← VaultProjection.written_fromGraph supported ordered projected]
    unfold VaultProjection.written
    simp
  constructor
  · intro traceable
    induction traceable with
    | @created secretId id written =>
      obtain ⟨secret, shown, _, first⟩ := (write_iff _ _ _).mp written
      exact ⟨secretId, [secretId], .root (replacedVersion_root_iff.mpr ⟨secret, shown, first⟩)⟩
    | @replaced secretId oldId id written _ ih =>
      obtain ⟨rootId, revisions, older⟩ := ih
      obtain ⟨secret, shown, _, replaces⟩ := (write_iff _ _ _).mp written
      exact ⟨rootId, revisions ++ [secretId],
        .child (replacedVersion_child_iff.mpr ⟨secret, shown, replaces⟩) older⟩
  · rintro ⟨rootId, revisions, lineage⟩
    induction lineage with
    | root starts =>
      obtain ⟨secret, shown, first⟩ := replacedVersion_root_iff.mp starts
      exact .created ((write_iff _ _ _).mpr ⟨secret, shown, rfl, first⟩)
    | child from_parent _ ih =>
      obtain ⟨secret, shown, replaces⟩ := replacedVersion_child_iff.mp from_parent
      exact .replaced ((write_iff _ _ _).mpr ⟨secret, shown, rfl, replaces⟩) ih

/-- The history of a projected secret is derived, from its revisions, exactly when
its replaced versions lead back to a first one in the log. -/
theorem derive_ok_iff [External] {graph : EventGraph}
    (reachable : EventGraph.Reachable (fun _ _ => True) graph) {order : List EventId}
    (ordered : graph.topologicalOrder = .ok order) {storeName : Str} {projection : VaultProjection}
    (projected : VaultProjection.fromGraph graph storeName = .ok projection)
    (shown : projection.secrets[secretId]? = some current) (roster : List VaultMember)
    (localSigner : SecretHistoryLocalSigner) :
    (∃ history rootId root revisions,
        (SecretHistoryRequest.ofGraph graph order projection roster localSigner secretId).derive =
          .ok history ∧
        Revisions projection.secrets rootId secretId revisions ∧
        projection.secrets[rootId]? = some root ∧ root.origin = .created ∧
        (SecretHistoryRequest.ofGraph graph order projection roster localSigner secretId).origin
          rootId root = .ok history.origin) ↔
      graph.Traceable order secretId := by
  rw [traceable_iff reachable.supported ordered projected]
  constructor
  · rintro ⟨history, _, _, _, derived, _⟩
    obtain ⟨rootId, root, walked, _⟩ := (derive_eq_ok shown).mp derived
    obtain ⟨_, revisions, lineage⟩ := (walk_size_iff shown).mp walked
    exact ⟨rootId, revisions, lineage⟩
  · rintro ⟨rootId, revisions, lineage⟩
    obtain ⟨root, held, first⟩ := replacedVersion_root_iff.mp lineage.root_starts
    obtain ⟨origin, tells⟩ := SecretHistoryRequest.origin_ok roster localSigner secretId
      reachable.supported ordered projected held first
    obtain ⟨revision, changed⟩ := SecretHistoryRequest.revision_ok roster localSigner secretId
      reachable.supported ordered projected shown
    have walked := (walk_size_iff shown).mpr ⟨held, revisions, lineage⟩
    exact ⟨⟨origin, revision⟩, rootId, root, revisions,
      (derive_eq_ok shown).mpr ⟨rootId, root, walked, tells, changed⟩, .of_lineage lineage, held,
      first, tells⟩

end Nook.Vault

namespace Nook.EventLog.TestSupport

open Nook.Lib Nook.Vault

/-- A replacement beside a clearing of the vault that is applied before it. -/
def clearedReplacementEvents : List VaultEvent :=
  [genesis 'g' '1',
    signed 'c' '1' [eventId 'g'] (eventId 'g') [.secretCreated (secret 's' ['1'])],
    signed 'd' '1' [eventId 'c'] (eventId 'g') [.vaultCleared],
    signed 'e' '1' [eventId 'c'] (eventId 'g')
      [.secretReplaced (secretId 's') (secret 't' ['2'])]]

theorem cleared_replacement_underivable :
    ∃ graph order projection current,
      EventGraph.new.insertAll storeName clearedReplacementEvents = .ok graph ∧
      graph.topologicalOrder = .ok order ∧
      VaultProjection.fromGraph graph storeName = .ok projection ∧
      projection.hasBlockingConflicts = false ∧
      projection.secrets[secretId 't']? = some current ∧ current.isLive graph = true ∧
      (SecretHistoryRequest.ofGraph graph order projection [] .unavailable (secretId 't')).derive =
        .error .brokenReplacementChain := by
  obtain ⟨graph, accepted, checked⟩ := exists_of_passes
    (EventGraph.new.insertAll storeName clearedReplacementEvents)
    (fun graph => passes graph.topologicalOrder fun order =>
      passes (VaultProjection.fromGraph graph storeName) fun projection =>
        !projection.hasBlockingConflicts &&
        (projection.secrets[secretId 't']?).any (·.isLive graph) &&
        decide ((SecretHistoryRequest.ofGraph graph order projection [] .unavailable
          (secretId 't')).derive = .error .brokenReplacementChain)) (by decide +kernel)
  obtain ⟨order, ordered, checked⟩ := exists_of_passes _ _ checked
  obtain ⟨projection, projected, checked⟩ := exists_of_passes _ _ checked
  rw [Bool.and_eq_true, Bool.and_eq_true, Bool.not_eq_true', Option.any_eq_true] at checked
  obtain ⟨⟨free, current, shown, live⟩, broken⟩ := checked
  exact ⟨graph, order, projection, current, accepted, ordered, projected, free, shown, live,
    of_decide_eq_true broken⟩

theorem derive_ok_iff_clearedReplacement :
    ∃ (graph : EventGraph) (order : List EventId) (projection : VaultProjection),
      EventGraph.new.insertAll storeName clearedReplacementEvents = .ok graph ∧
      graph.topologicalOrder = .ok order ∧
      VaultProjection.fromGraph graph storeName = .ok projection ∧
      ¬graph.Traceable order (secretId 't') := by
  obtain ⟨graph, accepted, checked⟩ := exists_of_passes
    (EventGraph.new.insertAll storeName clearedReplacementEvents)
    (fun graph => passes graph.topologicalOrder fun order =>
      passes (VaultProjection.fromGraph graph storeName) fun projection =>
        (projection.secrets[secretId 't']?).isSome &&
        decide ((SecretHistoryRequest.ofGraph graph order projection [] .unavailable
          (secretId 't')).derive = .error .brokenReplacementChain)) (by decide +kernel)
  obtain ⟨order, ordered, checked⟩ := exists_of_passes _ _ checked
  obtain ⟨projection, projected, checked⟩ := exists_of_passes _ _ checked
  rw [Bool.and_eq_true, Option.isSome_iff_exists] at checked
  obtain ⟨⟨current, shown⟩, broken⟩ := checked
  refine ⟨graph, order, projection, accepted, ordered, projected, ?_⟩
  intro traceable
  obtain ⟨history, _, _, _, derived, _⟩ := (derive_ok_iff
    (EventGraph.Reachable.new.insertAll clearedReplacementEvents accepted) ordered projected shown []
    .unavailable).mpr traceable
  rw [of_decide_eq_true broken] at derived
  cases derived

end Nook.EventLog.TestSupport
