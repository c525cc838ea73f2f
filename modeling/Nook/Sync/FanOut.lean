import Nook.Lib.OrderedMap
import Nook.Sync.VaultSync

set_option autoImplicit false

namespace Nook.Sync

open Nook.Lib Nook.EventLog

section

variable [VaultText]

/-! ### One local store and every remote one -/

structure VaultSyncFanOut where
  localStore : MemoryVaultStore
  remotes : BTreeMap Str MemoryVaultStore

structure CompletedVaultFanOut where
  stores : VaultSyncFanOut
  actions : List (Str × VaultSyncAction)

structure RejectedVaultFanOut where
  stores : VaultSyncFanOut
  cause : VaultSyncError

abbrev FanOutResult := Except RejectedVaultFanOut CompletedVaultFanOut

namespace VaultSyncFanOut

/-- The remotes still pending, in the order of their ids. A refused pair leaves the loop with
every store that is left. -/
def runPending (localStore : MemoryVaultStore) (completed : BTreeMap Str MemoryVaultStore)
    (actions : List (Str × VaultSyncAction)) : List (Str × MemoryVaultStore) → FanOutResult
  | [] => .ok ⟨⟨localStore, completed⟩, actions⟩
  | (id, remote) :: pending =>
    match VaultSyncPair.prepare ⟨localStore, remote, .unknown⟩ with
    | .ok prepared =>
      let next := prepared.commit
      runPending next.localStore (completed.insert id next.remoteStore)
        (actions ++ [(id, next.action)]) pending
    | .error rejected =>
      .error ⟨⟨rejected.localStore, (completed.insert id rejected.remoteStore).insertMany pending⟩,
        rejected.cause⟩

def run (fanOut : VaultSyncFanOut) : FanOutResult :=
  runPending fanOut.localStore ∅ [] fanOut.remotes.toList

/-- The stores a run hands back, completed or not. -/
def storesOf : FanOutResult → VaultSyncFanOut
  | .ok completed => completed.stores
  | .error rejected => rejected.stores

/-- The ids of the pairs that are committed before one is refused. -/
def committedIds (localStore : MemoryVaultStore) : List (Str × MemoryVaultStore) → List Str
  | [] => []
  | (id, remote) :: pending =>
    match VaultSyncPair.prepare ⟨localStore, remote, .unknown⟩ with
    | .ok prepared => id :: committedIds prepared.commit.localStore pending
    | .error _ => []

/-- The two stores hold one content, up to surrounding white space. -/
def SameContent (left right : MemoryVaultStore) : Prop := trim left.blob = trim right.blob

instance (left right : MemoryVaultStore) : Decidable (SameContent left right) :=
  inferInstanceAs (Decidable (trim left.blob = trim right.blob))

/-- Every remote has the content of the local store, and another run finds nothing to do. -/
def Settled (fanOut : VaultSyncFanOut) : Prop :=
  (∀ entry ∈ fanOut.remotes.toList, SameContent entry.2 fanOut.localStore) ∧
    ∃ again, fanOut.run = .ok again ∧ ∀ action ∈ again.actions, action.2 = .unchanged

/-- The decision that a remote is newer than a store. -/
def adopts (store remote : MemoryVaultStore) : Bool :=
  match VaultSyncComparison.decide ⟨store.blob, remote.blob, .unknown⟩ with
  | .ok .adoptRemote => true
  | _ => false

def newer (store remote : MemoryVaultStore) : MemoryVaultStore :=
  if adopts store remote then remote else store

/-- No remote is newer than both the local store and the first remote in the order of ids. -/
def firstIsNewest (localStore : MemoryVaultStore) : List (Str × MemoryVaultStore) → Bool
  | [] => true
  | first :: later => later.all fun entry => !adopts (newer localStore first.2) entry.2

/-- The contents of all stores, of which no two collide under SHA-256. -/
def ContentsApart (fanOut : VaultSyncFanOut) : Prop :=
  ∀ left ∈ fanOut.localStore :: fanOut.remotes.toList.map Prod.snd,
    ∀ right ∈ fanOut.localStore :: fanOut.remotes.toList.map Prod.snd,
      VaultRevision.hashOf left.blob = VaultRevision.hashOf right.blob → SameContent left right

end VaultSyncFanOut

/-! ### How new a content is -/

/-- A blank content is older than every other one; others are ordered by their version. -/
def rank (store : MemoryVaultStore) : Nat :=
  if (trim store.blob).isEmpty then 0
  else
    match VaultRevision.fromStored (trim store.blob) with
    | .ok revision => revision.version.toNat + 1
    | .error _ => 1

namespace VaultSyncFanOut

theorem rank_congr {left right : MemoryVaultStore} (same : SameContent left right) :
    rank left = rank right := by
  unfold rank
  rw [same]

omit [VaultText] in
theorem byVersion_adopts {localRev remoteRev : VaultRevision}
    (newer : VaultSyncComparison.byVersion localRev remoteRev = .adoptRemote) :
    localRev.version < remoteRev.version := by
  unfold VaultSyncComparison.byVersion at newer
  by_cases less : localRev.version < remoteRev.version
  · exact less
  · rw [if_neg less] at newer
    split at newer
    · cases newer
    · split at newer <;> cases newer

omit [VaultText] in
theorem byVersion_unchanged {localRev remoteRev : VaultRevision}
    (settled : VaultSyncComparison.byVersion localRev remoteRev = .unchanged) :
    localRev.contentHash = remoteRev.contentHash := by
  unfold VaultSyncComparison.byVersion at settled
  by_cases same : localRev.contentHash = remoteRev.contentHash
  · exact same
  · rw [if_pos same] at settled
    split at settled
    · cases settled
    · split at settled <;> cases settled

theorem rank_lt_of_adopts {store remote : MemoryVaultStore}
    (decided : VaultSyncComparison.decide ⟨store.blob, remote.blob, .unknown⟩ =
      .ok .adoptRemote) : rank store < rank remote := by
  unfold VaultSyncComparison.decide at decided
  simp only at decided
  by_cases same : trim store.blob = trim remote.blob
  · rw [if_pos same] at decided
    cases decided
  · rw [if_neg same] at decided
    cases blankStore : (trim store.blob).isEmpty with
    | true =>
      have filled : (trim remote.blob).isEmpty = false := by
        by_contra blank
        rw [Bool.not_eq_false, List.isEmpty_iff] at blank
        rw [List.isEmpty_iff] at blankStore
        exact same (blankStore.trans blank.symm)
      unfold rank
      rw [if_pos blankStore, if_neg (by simp [filled])]
      split <;> omega
    | false =>
      simp only [blankStore, Bool.false_eq_true, false_and, if_false] at decided
      cases blankRemote : (trim remote.blob).isEmpty with
      | true =>
        rw [if_pos blankRemote] at decided
        cases decided
      | false =>
        rw [if_neg (by simp [blankRemote])] at decided
        obtain ⟨localRev, readLocal, decided⟩ := bind_eq_ok.mp decided
        obtain ⟨remoteRev, readRemote, decided⟩ := bind_eq_ok.mp decided
        obtain ⟨_, _, decided⟩ := bind_eq_ok.mp decided
        have older := byVersion_adopts (Except.ok.inj decided)
        unfold rank
        rw [if_neg (by simp [blankStore]), if_neg (by simp [blankRemote]), readLocal, readRemote]
        have less : localRev.version.toNat < remoteRev.version.toNat := UInt64.lt_iff_toNat_lt.mp older
        simp only
        omega

theorem rank_lt_of_pushes {store remote : MemoryVaultStore}
    (decided : VaultSyncComparison.decide ⟨store.blob, remote.blob, .unknown⟩ = .ok .pushLocal) :
    rank remote < rank store := by
  have turned := VaultSyncComparison.decide_swapped ⟨store.blob, remote.blob, .unknown⟩
  rw [decided] at turned
  apply rank_lt_of_adopts
  cases swapped : VaultSyncComparison.decide ⟨remote.blob, store.blob, .unknown⟩ with
  | error cause =>
    simp only [VaultSyncComparison.swapped, swapped, Except.toOption, Option.map_some] at turned
    cases turned
  | ok action =>
    simp only [VaultSyncComparison.swapped, swapped, Except.toOption, Option.map_some,
      VaultSyncAction.swapped, Option.some.injEq] at turned
    rw [turned]

theorem sameContent_of_unchanged {store remote : MemoryVaultStore}
    (apart : VaultRevision.hashOf store.blob = VaultRevision.hashOf remote.blob →
      SameContent store remote)
    (decided : VaultSyncComparison.decide ⟨store.blob, remote.blob, .unknown⟩ = .ok .unchanged) :
    SameContent store remote := by
  by_contra differ
  have notSame : ¬ trim store.blob = trim remote.blob := differ
  have filledStore : (trim store.blob).isEmpty = false := by
    by_contra blank
    rw [Bool.not_eq_false] at blank
    unfold VaultSyncComparison.decide at decided
    by_cases blankRemote : (trim remote.blob).isEmpty
    · rw [List.isEmpty_iff] at blank blankRemote
      exact notSame (blank.trans blankRemote.symm)
    · simp [notSame, blank, blankRemote] at decided
  have filledRemote : (trim remote.blob).isEmpty = false := by
    by_contra blank
    rw [Bool.not_eq_false] at blank
    unfold VaultSyncComparison.decide at decided
    simp [notSame, blank, filledStore] at decided
  obtain ⟨localRev, remoteRev, localHash, remoteHash, action⟩ :=
    VaultSyncComparison.decide_of_filled filledStore filledRemote notSame decided
  have hashes := byVersion_unchanged action.symm
  rw [localHash, remoteHash] at hashes
  exact differ (apart hashes)

/-! ### What a pass over some remotes does -/

/-- The committed pairs of some remotes, one after another, with the stores they leave. -/
inductive Commits : MemoryVaultStore → List (Str × MemoryVaultStore) → MemoryVaultStore →
    List (Str × MemoryVaultStore) → List (Str × VaultSyncAction) → Prop where
  | none (store : MemoryVaultStore) : Commits store [] store [] []
  | next {store after : MemoryVaultStore} {id : Str} {remote : MemoryVaultStore}
      {pending left : List (Str × MemoryVaultStore)} {actions : List (Str × VaultSyncAction)}
      {prepared : PreparedVaultSync}
      (ready : VaultSyncPair.prepare ⟨store, remote, .unknown⟩ = .ok prepared)
      (rest : Commits prepared.commit.localStore pending after left actions) :
      Commits store ((id, remote) :: pending) after ((id, prepared.commit.remoteStore) :: left)
        ((id, prepared.commit.action) :: actions)

variable {store after : MemoryVaultStore} {entries left : List (Str × MemoryVaultStore)}
  {actions : List (Str × VaultSyncAction)} {completed : BTreeMap Str MemoryVaultStore}

theorem Commits.ids (commits : Commits store entries after left actions) :
    left.map Prod.fst = entries.map Prod.fst := by
  induction commits with
  | none => rfl
  | next _ _ ih => rw [List.map_cons, List.map_cons, ih]

/-- A run commits the pairs before the first one that is refused, if one is. -/
theorem runPending_spec (store : MemoryVaultStore) (entries : List (Str × MemoryVaultStore)) :
    ∀ (completed : BTreeMap Str MemoryVaultStore) (earlier : List (Str × VaultSyncAction)),
      (∃ after left actions, Commits store entries after left actions ∧
        committedIds store entries = entries.map Prod.fst ∧
        runPending store completed earlier entries =
          .ok ⟨⟨after, completed.insertMany left⟩, earlier ++ actions⟩) ∨
      ∃ before id remote pending after left actions cause,
        entries = before ++ (id, remote) :: pending ∧ Commits store before after left actions ∧
        committedIds store entries = before.map Prod.fst ∧
        runPending store completed earlier entries =
          .error ⟨⟨after, completed.insertMany (left ++ (id, remote) :: pending)⟩, cause⟩ := by
  induction entries generalizing store with
  | nil =>
    intro completed earlier
    refine .inl ⟨store, [], [], .none store, rfl, ?_⟩
    rw [Std.ExtTreeMap.insertMany_nil, List.append_nil]
    rfl
  | cons entry pending ih =>
    intro completed earlier
    obtain ⟨id, remote⟩ := entry
    cases ready : VaultSyncPair.prepare ⟨store, remote, .unknown⟩ with
    | error rejected =>
      refine .inr ⟨[], id, remote, pending, store, [], [], rejected.cause, rfl, .none store, ?_, ?_⟩
      · simp only [committedIds, ready, List.map_nil]
      · have kept : rejected.localStore = store ∧ rejected.remoteStore = remote := by
          unfold VaultSyncPair.prepare at ready
          simp only at ready
          split at ready
          · cases ready
          · cases ready
            exact ⟨rfl, rfl⟩
        simp only [runPending, ready, kept, List.nil_append, Std.ExtTreeMap.insertMany_cons]
    | ok prepared =>
      simp only [runPending, committedIds, ready]
      rcases ih prepared.commit.localStore (completed.insert id prepared.commit.remoteStore)
          (earlier ++ [(id, prepared.commit.action)]) with
        ⟨after, left, actions, commits, ids, ran⟩ |
        ⟨before, failed, store', rest, after, left, actions, cause, split, commits, ids, ran⟩
      · refine .inl ⟨after, (id, prepared.commit.remoteStore) :: left,
          (id, prepared.commit.action) :: actions, .next ready commits, by rw [ids]; rfl, ?_⟩
        rw [ran, Std.ExtTreeMap.insertMany_cons, List.append_assoc]
        rfl
      · refine .inr ⟨(id, remote) :: before, failed, store', rest, after,
          (id, prepared.commit.remoteStore) :: left, (id, prepared.commit.action) :: actions,
          cause, by rw [split]; rfl, .next ready commits, by rw [ids]; rfl, ?_⟩
        rw [ran, List.cons_append, Std.ExtTreeMap.insertMany_cons]

/-! ### No store is lost -/

omit [VaultText] in
/-- What a filed list says about the map it was taken from. -/
theorem filed_keeps {remotes : BTreeMap Str MemoryVaultStore}
    {filed : List (Str × MemoryVaultStore)}
    (ids : filed.map Prod.fst = remotes.toList.map Prod.fst) (id : Str) :
    id ∈ (∅ : BTreeMap Str MemoryVaultStore).insertMany filed ↔ id ∈ remotes := by
  have distinct : (filed.map Prod.fst).Nodup := ids ▸ BTreeMap.nodup_fst_toList remotes
  rw [BTreeMap.mem_insertMany_empty distinct, ids, BTreeMap.mem_fst_toList]

theorem run_keeps (fanOut : VaultSyncFanOut) :
    (∀ id, id ∈ (storesOf fanOut.run).remotes ↔ id ∈ fanOut.remotes) ∧
    (∀ id, id ∉ committedIds fanOut.localStore fanOut.remotes.toList →
      (storesOf fanOut.run).remotes[id]? = fanOut.remotes[id]?) ∧
    (committedIds fanOut.localStore fanOut.remotes.toList = [] →
      (storesOf fanOut.run).localStore = fanOut.localStore) := by
  have distinct := BTreeMap.nodup_fst_toList fanOut.remotes
  rcases runPending_spec fanOut.localStore fanOut.remotes.toList ∅ [] with
    ⟨after, left, actions, commits, ids, ran⟩ |
    ⟨before, failed, remote, pending, after, left, actions, cause, split, commits, ids, ran⟩
  · have result : storesOf fanOut.run = ⟨after, (∅ : BTreeMap Str _).insertMany left⟩ := by
      unfold run
      rw [ran]
      rfl
    rw [result, ids]
    refine ⟨fun id => filed_keeps commits.ids id, ?_, ?_⟩
    · intro id uncommitted
      rw [BTreeMap.mem_fst_toList] at uncommitted
      have absent : id ∉ (∅ : BTreeMap Str MemoryVaultStore).insertMany left := by
        rw [filed_keeps commits.ids]
        exact uncommitted
      rw [(BTreeMap.not_mem_iff_getElem? _ id).mp absent,
        (BTreeMap.not_mem_iff_getElem? _ id).mp uncommitted]
    · intro none
      rw [List.map_eq_nil_iff] at none
      rw [none] at commits
      cases commits
      rfl
  · have filedIds : (left ++ (failed, remote) :: pending).map Prod.fst =
        fanOut.remotes.toList.map Prod.fst := by
      rw [split, List.map_append, List.map_append, commits.ids]
    have result : storesOf fanOut.run =
        ⟨after, (∅ : BTreeMap Str _).insertMany (left ++ (failed, remote) :: pending)⟩ := by
      unfold run
      rw [ran]
      rfl
    rw [result, ids]
    refine ⟨fun id => filed_keeps filedIds id, ?_, ?_⟩
    · intro id uncommitted
      apply Option.ext
      intro value
      rw [BTreeMap.getElem?_insertMany_empty (filedIds ▸ distinct),
        ← BTreeMap.mem_toList_iff, split, List.mem_append, List.mem_append]
      have notLeft : (id, value) ∉ left := by
        intro member
        rw [← commits.ids] at uncommitted
        exact uncommitted (List.mem_map.mpr ⟨_, member, rfl⟩)
      have notBefore : (id, value) ∉ before := fun member =>
        uncommitted (List.mem_map.mpr ⟨_, member, rfl⟩)
      simp only [notLeft, notBefore, false_or]
    · intro none
      rw [List.map_eq_nil_iff] at none
      rw [none] at commits
      cases commits
      rfl

/-! ### Whether the first remote decides -/

theorem commit_spec {remote : MemoryVaultStore} {prepared : PreparedVaultSync}
    (ready : VaultSyncPair.prepare ⟨store, remote, .unknown⟩ = .ok prepared) :
    prepared.commit.localStore = newer store remote ∧
      prepared.commit.action = prepared.action ∧
      (adopts store remote = true → rank store < rank remote) ∧
      ((VaultRevision.hashOf store.blob = VaultRevision.hashOf remote.blob →
          SameContent store remote) → prepared.commit.action ≠ .conflict →
        SameContent prepared.commit.remoteStore prepared.commit.localStore) := by
  unfold VaultSyncPair.prepare at ready
  simp only at ready
  cases decided : VaultSyncComparison.decide ⟨store.blob, remote.blob, .unknown⟩ with
  | error cause =>
    rw [decided] at ready
    cases ready
  | ok action =>
    rw [decided] at ready
    cases ready
    have newerIs : newer store remote = if action = .adoptRemote then remote else store := by
      unfold newer adopts
      rw [decided]
      cases action <;> rfl
    rw [newerIs]
    cases action with
    | unchanged =>
      refine ⟨rfl, rfl, by simp [adopts, decided], fun apart _ => ?_⟩
      exact (sameContent_of_unchanged apart decided).symm
    | adoptRemote =>
      exact ⟨rfl, rfl, fun _ => rank_lt_of_adopts decided, fun _ _ => rfl⟩
    | pushLocal => exact ⟨rfl, rfl, by simp [adopts, decided], fun _ _ => rfl⟩
    | conflict => exact ⟨rfl, rfl, by simp [adopts, decided], fun _ other => absurd rfl other⟩

theorem rank_le_newer (store remote : MemoryVaultStore)
    (grows : adopts store remote = true → rank store < rank remote) :
    rank store ≤ rank (newer store remote) := by
  unfold newer
  split
  · rename_i taken
    have less := grows taken
    omega
  · exact Nat.le_refl _

theorem Commits.rank_le (commits : Commits store entries after left actions) :
    rank store ≤ rank after := by
  induction commits with
  | none => exact Nat.le_refl _
  | @next store after id remote pending left actions prepared ready rest ih =>
    obtain ⟨moved, _, grows, _⟩ := commit_spec ready
    have first := rank_le_newer store remote grows
    rw [moved] at ih
    omega

/-- A remote newer than the store leaves the store newer. -/
theorem Commits.rank_lt (commits : Commits store entries after left actions)
    {entry : Str × MemoryVaultStore} (member : entry ∈ entries)
    (taken : adopts store entry.2 = true) : rank store < rank after := by
  induction commits with
  | none => cases member
  | @next store after id remote pending left actions prepared ready rest ih =>
    obtain ⟨moved, _, grows, _⟩ := commit_spec ready
    have later := rest.rank_le
    rw [moved] at later ih
    by_cases first : adopts store remote = true
    · have less := grows first
      have same : newer store remote = remote := if_pos first
      rw [same] at later
      omega
    · have same : newer store remote = store := if_neg first
      rw [same] at ih
      rcases List.mem_cons.mp member with here | there
      · rw [here] at taken
        exact absurd taken first
      · exact ih there taken

/-- With no remote newer than the store, the store stays and every remote takes its content. -/
theorem Commits.settles (commits : Commits store entries after left actions)
    (quiet : ∀ action ∈ actions, action.2 ≠ .conflict)
    (apart : ∀ entry ∈ entries,
      VaultRevision.hashOf store.blob = VaultRevision.hashOf entry.2.blob →
        SameContent store entry.2)
    (old : ∀ entry ∈ entries, adopts store entry.2 = false) :
    after = store ∧ ∀ entry ∈ left, SameContent entry.2 store := by
  induction commits with
  | none => exact ⟨rfl, fun _ member => absurd member List.not_mem_nil⟩
  | @next store after id remote pending left actions prepared ready rest ih =>
    obtain ⟨moved, _, _, taken⟩ := commit_spec ready
    have stays : newer store remote = store :=
      if_neg (by rw [old (id, remote) (List.mem_cons_self ..)]; exact Bool.false_ne_true)
    rw [stays] at moved
    rw [moved] at ih taken
    obtain ⟨kept, same⟩ := ih (fun action member => quiet action (List.mem_cons_of_mem _ member))
      (fun entry member => apart entry (List.mem_cons_of_mem _ member))
      (fun entry member => old entry (List.mem_cons_of_mem _ member))
    refine ⟨kept, fun entry member => ?_⟩
    rcases List.mem_cons.mp member with rfl | there
    · exact taken (apart (id, remote) (List.mem_cons_self ..)) (quiet _ (List.mem_cons_self ..))
    · exact same entry there

/-- Remotes that already have the content of the store are left as they are. -/
theorem runPending_unchanged (store : MemoryVaultStore) (entries : List (Str × MemoryVaultStore))
    (same : ∀ entry ∈ entries, SameContent entry.2 store) :
    ∀ (completed : BTreeMap Str MemoryVaultStore) (earlier : List (Str × VaultSyncAction)),
      (∀ action ∈ earlier, action.2 = .unchanged) →
      ∃ again, runPending store completed earlier entries = .ok again ∧
        ∀ action ∈ again.actions, action.2 = .unchanged := by
  induction entries with
  | nil =>
    intro completed earlier quiet
    exact ⟨_, rfl, quiet⟩
  | cons entry pending ih =>
    intro completed earlier quiet
    obtain ⟨id, remote⟩ := entry
    have equal : trim store.blob = trim remote.blob := (same _ (List.mem_cons_self ..)).symm
    have ready : VaultSyncPair.prepare ⟨store, remote, .unknown⟩ =
        .ok ⟨store, remote, .unchanged⟩ := by
      unfold VaultSyncPair.prepare VaultSyncComparison.decide
      simp only [equal, if_true]
    simp only [runPending, ready]
    apply ih (fun entry member => same entry (List.mem_cons_of_mem _ member))
    intro action member
    rcases List.mem_append.mp member with before | last
    · exact quiet action before
    · rw [List.mem_singleton.mp last]
      rfl

theorem settled_iff (fanOut : VaultSyncFanOut) : fanOut.Settled ↔
    ∀ entry ∈ fanOut.remotes.toList, SameContent entry.2 fanOut.localStore := by
  constructor
  · exact fun settled => settled.1
  · intro same
    exact ⟨same, runPending_unchanged fanOut.localStore fanOut.remotes.toList same ∅ []
      (fun _ member => absurd member List.not_mem_nil)⟩

/-- A run that completes without a conflict brings every remote to the content of the local
store, so that another one finds nothing to do, exactly if no remote is newer than both the local
store and the first remote in the order of ids. However it ends, no remote is lost or added, and
the stores of pairs that were not committed are kept. -/
theorem fan_out_settles_iff (fanOut : VaultSyncFanOut) (apart : fanOut.ContentsApart) :
    (∀ completed, fanOut.run = .ok completed →
      (∀ action ∈ completed.actions, action.2 ≠ .conflict) →
        (completed.stores.Settled ↔
          firstIsNewest fanOut.localStore fanOut.remotes.toList = true)) ∧
    (∀ id, id ∈ (storesOf fanOut.run).remotes ↔ id ∈ fanOut.remotes) ∧
    (∀ id, id ∉ committedIds fanOut.localStore fanOut.remotes.toList →
      (storesOf fanOut.run).remotes[id]? = fanOut.remotes[id]?) ∧
    (committedIds fanOut.localStore fanOut.remotes.toList = [] →
      (storesOf fanOut.run).localStore = fanOut.localStore) := by
  refine ⟨?_, run_keeps fanOut⟩
  intro completed ran quiet
  obtain ⟨after, left, actions, commits, _, result⟩ :
      ∃ after left actions, Commits fanOut.localStore fanOut.remotes.toList after left actions ∧
        committedIds fanOut.localStore fanOut.remotes.toList =
          fanOut.remotes.toList.map Prod.fst ∧
        fanOut.run = .ok ⟨⟨after, (∅ : BTreeMap Str _).insertMany left⟩, [] ++ actions⟩ := by
    rcases runPending_spec fanOut.localStore fanOut.remotes.toList ∅ [] with
      done | ⟨_, _, _, _, _, _, _, _, _, _, _, refused⟩
    · exact done
    · unfold run at ran
      rw [refused] at ran
      cases ran
  rw [ran, List.nil_append] at result
  cases result
  have distinct : (left.map Prod.fst).Nodup :=
    commits.ids ▸ BTreeMap.nodup_fst_toList fanOut.remotes
  have settles : (⟨after, (∅ : BTreeMap Str _).insertMany left⟩ : VaultSyncFanOut).Settled ↔
      ∀ entry ∈ left, SameContent entry.2 after := by
    rw [settled_iff]
    constructor
    · intro same entry member
      exact same entry ((BTreeMap.mem_toList_iff _ _ _).mpr
        ((BTreeMap.getElem?_insertMany_empty distinct _ _).mpr member))
    · intro same entry member
      exact same entry ((BTreeMap.getElem?_insertMany_empty distinct _ _).mp
        ((BTreeMap.mem_toList_iff _ _ _).mp member))
  rw [settles]
  unfold ContentsApart at apart
  generalize fanOut.remotes.toList = entries at commits apart ⊢
  cases commits with
  | none => simp [firstIsNewest]
  | @next _ _ id first later left actions prepared ready rest =>
    obtain ⟨moved, _, _, taken⟩ := commit_spec ready
    have firstApart : VaultRevision.hashOf fanOut.localStore.blob = VaultRevision.hashOf first.blob →
        SameContent fanOut.localStore first :=
      apart _ (List.mem_cons_self ..) first (by simp)
    have firstSame := taken firstApart (quiet _ (List.mem_cons_self ..))
    rw [moved] at rest firstSame
    cases decides : firstIsNewest fanOut.localStore ((id, first) :: later) with
    | true =>
      simp only [iff_true]
      have old : ∀ entry ∈ later, adopts (newer fanOut.localStore first) entry.2 = false := by
        intro entry member
        have all := List.all_eq_true.mp decides entry member
        simpa using all
      have laterApart : ∀ entry ∈ later,
          VaultRevision.hashOf (newer fanOut.localStore first).blob =
            VaultRevision.hashOf entry.2.blob →
              SameContent (newer fanOut.localStore first) entry.2 := by
        intro entry member
        have listed : entry.2 ∈ fanOut.localStore :: ((id, first) :: later).map Prod.snd := by
          simp only [List.map_cons, List.mem_cons, List.mem_map]
          exact .inr (.inr ⟨entry, member, rfl⟩)
        apply apart _ _ _ listed
        unfold newer
        split <;> simp
      obtain ⟨kept, same⟩ := rest.settles
        (fun action member => quiet action (List.mem_cons_of_mem _ member)) laterApart old
      intro entry member
      rw [kept]
      rcases List.mem_cons.mp member with rfl | there
      · exact firstSame
      · exact same entry there
    | false =>
      simp only [Bool.false_eq_true, iff_false]
      intro same
      obtain ⟨entry, member, newerThere⟩ : ∃ entry ∈ later,
          adopts (newer fanOut.localStore first) entry.2 = true := by
        simpa [firstIsNewest] using decides
      have grown := rest.rank_lt member newerThere
      -- the first remote keeps the content that the local store has just left
      have behind := same _ (List.mem_cons_self ..)
      rw [rank_congr (firstSame.symm.trans behind)] at grown
      exact Nat.lt_irrefl _ grown

end VaultSyncFanOut

end

namespace TestSupport

attribute [local instance] vaultText

open VaultSyncFanOut

/-! A remote that is older than a later one, in the order of their ids. -/

def storeOf (blob : Str) : MemoryVaultStore := ⟨blob, .unversioned⟩

def staleFirst : VaultSyncFanOut :=
  ⟨storeOf baseVault,
    ((∅ : BTreeMap Str MemoryVaultStore).insert ['a'] (storeOf baseVault)).insert ['b']
      (storeOf nextVault)⟩

def newestFirst : VaultSyncFanOut :=
  ⟨storeOf baseVault,
    ((∅ : BTreeMap Str MemoryVaultStore).insert ['a'] (storeOf nextVault)).insert ['b']
      (storeOf baseVault)⟩

theorem fan_out_settles_iff_newest_first :
    ∃ completed, newestFirst.run = .ok completed ∧ completed.stores.Settled := by
  have ran : passes newestFirst.run
      (fun completed => completed.actions.all fun action => action.2 ≠ .conflict) = true := by
    decide +kernel
  obtain ⟨completed, done, quiet⟩ := exists_of_passes _ _ ran
  refine ⟨completed, done, ?_⟩
  have apart : newestFirst.ContentsApart := by
    unfold ContentsApart
    decide +kernel
  apply ((fan_out_settles_iff newestFirst apart).1 completed done _).mpr
  · decide +kernel
  · intro action member
    simpa using List.all_eq_true.mp quiet action member

/-- The first remote stays behind although no store is in conflict. -/
theorem earlier_remote_left_behind :
    ¬ ∀ (fanOut : VaultSyncFanOut) (completed : CompletedVaultFanOut), fanOut.ContentsApart →
      fanOut.run = .ok completed → (∀ action ∈ completed.actions, action.2 ≠ .conflict) →
        ∀ entry ∈ completed.stores.remotes.toList, SameContent entry.2 completed.stores.localStore := by
  intro settles
  have ran : passes staleFirst.run (fun completed =>
      (completed.actions.all fun action => action.2 ≠ .conflict) &&
        !completed.stores.remotes.toList.all fun entry =>
          SameContent entry.2 completed.stores.localStore) = true := by
    decide +kernel
  obtain ⟨completed, done, quiet⟩ := exists_of_passes _ _ ran
  rw [Bool.and_eq_true, Bool.not_eq_true'] at quiet
  have apart : staleFirst.ContentsApart := by
    unfold ContentsApart
    decide +kernel
  have same := settles staleFirst completed apart done
    (fun action member => by simpa using List.all_eq_true.mp quiet.1 action member)
  have all : completed.stores.remotes.toList.all (fun entry =>
      SameContent entry.2 completed.stores.localStore) = true := by
    rw [List.all_eq_true]
    exact fun entry member => decide_eq_true (same entry member)
  rw [quiet.2] at all
  cases all

end TestSupport

end Nook.Sync
