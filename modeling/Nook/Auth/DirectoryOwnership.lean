import Nook.Auth.IdentityDirectory
import Nook.Auth.VaultGrants

set_option autoImplicit false

namespace Nook.Auth

open Nook.Lib Nook.EventLog

/-! ### Who owns which ids -/

/-- Two identities with ids of their own. -/
structure IdentityRecord.Apart (record other : IdentityRecord) : Prop where
  id : other.identityId ≠ record.identityId
  members : ∀ appId ∈ record.memberIds, appId ∉ other.memberIds
  stores : ∀ storeId ∈ record.storeIds, storeId ∉ other.storeIds

/-- A record beside others: its ids are its own, and none of its members is retired. -/
structure IdentityRecord.Fits (record : IdentityRecord) (others : List IdentityRecord)
    (retired : List AppId) : Prop where
  active : ∀ appId ∈ record.memberIds, appId ∉ retired
  members : record.memberIds.Nodup
  stores : record.storeIds.Nodup
  apart : ∀ other ∈ others, record.Apart other

/-- Identities whose ids, members and vaults are distinct and whose members are active. -/
structure Owned (identities : List IdentityRecord) (retired : List AppId) : Prop where
  ids : (identities.map (·.identityId)).Nodup
  active : ∀ record ∈ identities, ∀ appId ∈ record.memberIds, appId ∉ retired
  members : (identities.flatMap (·.memberIds)).Nodup
  stores : (identities.flatMap (·.storeIds)).Nodup

namespace Owned

variable {identities before after : List IdentityRecord} {record : IdentityRecord}
  {retired : List AppId}

theorem nil (retired : List AppId) : Owned [] retired :=
  ⟨List.nodup_nil, fun _ member => absurd member List.not_mem_nil, List.nodup_nil, List.nodup_nil⟩

theorem cons_iff : Owned (record :: identities) retired ↔
    Owned identities retired ∧ record.Fits identities retired := by
  constructor
  · intro owned
    obtain ⟨ids, active, members, stores⟩ := owned
    rw [List.map_cons, List.nodup_cons] at ids
    rw [List.flatMap_cons, List.nodup_append] at members stores
    refine ⟨⟨ids.2, fun other inside => active other (by simp [inside]), members.2.1, stores.2.1⟩,
      ⟨active record (by simp), members.1, stores.1, fun other inside => ⟨?_, ?_, ?_⟩⟩⟩
    · exact fun same => ids.1 (List.mem_map.mpr ⟨other, inside, same⟩)
    · exact fun appId own listed =>
        members.2.2 appId own appId (List.mem_flatMap.mpr ⟨other, inside, listed⟩) rfl
    · exact fun storeId own held =>
        stores.2.2 storeId own storeId (List.mem_flatMap.mpr ⟨other, inside, held⟩) rfl
  · rintro ⟨owned, fits⟩
    constructor
    · rw [List.map_cons, List.nodup_cons]
      refine ⟨fun listed => ?_, owned.ids⟩
      obtain ⟨other, inside, same⟩ := List.mem_map.mp listed
      exact (fits.apart other inside).id same
    · intro other inside
      rcases List.mem_cons.mp inside with rfl | later
      · exact fits.active
      · exact owned.active other later
    · rw [List.flatMap_cons, List.nodup_append]
      refine ⟨fits.members, owned.members, fun appId own other listed same => ?_⟩
      obtain ⟨holder, inside, listed⟩ := List.mem_flatMap.mp listed
      exact (fits.apart holder inside).members appId own (same ▸ listed)
    · rw [List.flatMap_cons, List.nodup_append]
      refine ⟨fits.stores, owned.stores, fun storeId own other held same => ?_⟩
      obtain ⟨holder, inside, held⟩ := List.mem_flatMap.mp held
      exact (fits.apart holder inside).stores storeId own (same ▸ held)

theorem perm {others : List IdentityRecord} (same : identities.Perm others)
    (owned : Owned identities retired) : Owned others retired := by
  refine ⟨(same.map _).nodup owned.ids, fun record inside => owned.active record
    (same.mem_iff.mpr inside), ?_, ?_⟩
  · exact (same.flatMap_right _).nodup owned.members
  · exact (same.flatMap_right _).nodup owned.stores

theorem map_keeping {f : IdentityRecord → IdentityRecord}
    (keeps : ∀ record, (f record).identityId = record.identityId ∧
      (f record).memberIds = record.memberIds ∧ (f record).storeIds = record.storeIds)
    (owned : Owned identities retired) : Owned (identities.map f) retired := by
  constructor
  · simpa [Function.comp_def, (keeps _).1] using owned.ids
  · intro record inside
    obtain ⟨old, before, rfl⟩ := List.mem_map.mp inside
    rw [(keeps old).2.1]
    exact owned.active old before
  · simpa [List.flatMap_map, (keeps _).2.1] using owned.members
  · simpa [List.flatMap_map, (keeps _).2.2] using owned.stores

/-- A record between others fits what is left without it. -/
theorem middle_iff : Owned (before ++ record :: after) retired ↔
    Owned (before ++ after) retired ∧ record.Fits (before ++ after) retired := by
  rw [← cons_iff]
  exact ⟨perm List.perm_middle, perm List.perm_middle.symm⟩

/-- A record after the others fits them. -/
theorem concat_iff : Owned (identities ++ [record]) retired ↔
    Owned identities retired ∧ record.Fits identities retired := by
  rw [middle_iff, List.append_nil]

end Owned

/-- A record that keeps its id and gains no member and no vault fits where it did. -/
theorem IdentityRecord.Fits.shrink {record next : IdentityRecord} {others : List IdentityRecord}
    {retired : List AppId} (fits : record.Fits others retired)
    (same : next.identityId = record.identityId) (members : next.memberIds.Sublist record.memberIds)
    (stores : next.storeIds.Sublist record.storeIds) : next.Fits others retired where
  active := fun appId own => fits.active appId (members.subset own)
  members := members.nodup fits.members
  stores := stores.nodup fits.stores
  apart := fun other inside => {
    id := same ▸ (fits.apart other inside).id
    members := fun appId own => (fits.apart other inside).members appId (members.subset own)
    stores := fun storeId own => (fits.apart other inside).stores storeId (stores.subset own) }

/-! ### What a validation accepts -/

theorem foldlM_insertNew {α : Type} [DecidableEq α] {cause : α → MultiDeviceError} {ids seen : List α}
    {result : List α} : ids.foldlM (insertNew cause) seen = .ok result ↔
      ids.Nodup ∧ (∀ id ∈ ids, id ∉ seen) ∧ result = ids.reverse ++ seen := by
  induction ids generalizing seen with
  | nil => simp [pure, Except.pure, eq_comm]
  | cons head tail ih =>
    rw [List.foldlM_cons]
    unfold insertNew
    split
    · rename_i again
      simp [bind, Except.bind, again]
    · rename_i fresh
      show tail.foldlM (insertNew cause) (head :: seen) = .ok result ↔ _
      rw [ih]
      constructor
      · rintro ⟨distinct, free, rfl⟩
        refine ⟨?_, ?_, by simp⟩
        · exact List.nodup_cons.mpr ⟨fun inside => (free head inside) (by simp), distinct⟩
        · exact List.forall_mem_cons.mpr ⟨fresh, fun id inside listed => free id inside (by simp [listed])⟩
      · rintro ⟨distinct, free, rfl⟩
        rw [List.nodup_cons] at distinct
        refine ⟨distinct.2, fun id inside listed => ?_, by simp⟩
        rcases List.mem_cons.mp listed with rfl | before
        · exact distinct.1 inside
        · exact free id (by simp [inside]) before

namespace SeenIds

/-- A record none of whose ids was seen. -/
structure FreeOf (seen : SeenIds) (record : IdentityRecord) : Prop where
  id : record.identityId ∉ seen.ids
  members : ∀ appId ∈ record.memberIds, appId ∉ seen.appIds
  stores : ∀ storeId ∈ record.storeIds, storeId ∉ seen.vaults

def add (seen : SeenIds) (record : IdentityRecord) : SeenIds :=
  ⟨record.identityId :: seen.ids, record.memberIds.reverse ++ seen.appIds,
    record.storeIds.reverse ++ seen.vaults⟩

theorem freeOf_add {seen : SeenIds} {record other : IdentityRecord} :
    (seen.add record).FreeOf other ↔ seen.FreeOf other ∧ record.Apart other := by
  constructor
  · rintro ⟨id, members, stores⟩
    simp only [add, List.mem_cons, List.mem_append, List.mem_reverse, not_or] at id members stores
    exact ⟨⟨id.2, fun appId own => (members appId own).2, fun storeId own => (stores storeId own).2⟩,
      ⟨id.1, fun appId own listed => (members appId listed).1 own,
        fun storeId own held => (stores storeId held).1 own⟩⟩
  · rintro ⟨free, apart⟩
    constructor
    · simpa [add] using ⟨apart.id, free.id⟩
    · intro appId listed
      simpa [add] using ⟨fun own => apart.members appId own listed, free.members appId listed⟩
    · intro storeId held
      simpa [add] using ⟨fun own => apart.stores storeId own held, free.stores storeId held⟩

theorem mem_ids_foldl_add {identities : List IdentityRecord} {seen : SeenIds} {id : IdentityId} :
    id ∈ (identities.foldl add seen).ids ↔ id ∈ identities.map (·.identityId) ∨ id ∈ seen.ids := by
  induction identities generalizing seen with
  | nil => simp
  | cons head tail ih =>
    rw [List.foldl_cons, ih]
    simp only [add, List.mem_cons, List.map_cons]
    tauto

end SeenIds

namespace IdentityDirectory

theorem validateRecord_eq_ok {retired : List AppId} {seen next : SeenIds} {record : IdentityRecord} :
    validateRecord retired seen record = .ok next ↔
      record.Fits [] retired ∧ seen.FreeOf record ∧ next = seen.add record := by
  unfold validateRecord
  simp only [bind_eq_ok, foldlM_insertNew]
  constructor
  · rintro ⟨ids, fresh, ⟨⟩, active, appIds, ⟨members, free, rfl⟩, vaults, ⟨stores, unheld, rfl⟩, same⟩
    unfold insertNew at fresh
    split at fresh
    · cases fresh
    · rename_i unseen
      cases fresh
      cases same
      rw [refuse_eq_ok, List.any_eq_false] at active
      refine ⟨⟨?_, members, stores, by simp⟩, ⟨unseen, free, unheld⟩, rfl⟩
      intro appId own
      obtain ⟨member, inside, rfl⟩ := List.mem_map.mp own
      simpa using active member inside
  · rintro ⟨fits, free, rfl⟩
    refine ⟨record.identityId :: seen.ids, ?_, (), ?_, _, ⟨fits.members, free.members, rfl⟩, _,
      ⟨fits.stores, free.stores, rfl⟩, rfl⟩
    · rw [insertNew, if_neg free.id]
    · rw [refuse_eq_ok, List.any_eq_false]
      intro member inside
      simpa using fits.active member.appId (List.mem_map_of_mem inside)

theorem foldlM_validateRecord {retired : List AppId} {identities : List IdentityRecord}
    {seen result : SeenIds} : identities.foldlM (validateRecord retired) seen = .ok result ↔
      Owned identities retired ∧ (∀ record ∈ identities, seen.FreeOf record) ∧
        result = identities.foldl SeenIds.add seen := by
  induction identities generalizing seen with
  | nil => simp [pure, Except.pure, eq_comm, Owned.nil]
  | cons head tail ih =>
    rw [List.foldlM_cons, bind_eq_ok, Owned.cons_iff]
    simp only [validateRecord_eq_ok, ih, List.foldl_cons, List.forall_mem_cons]
    constructor
    · rintro ⟨middle, ⟨fits, free, rfl⟩, owned, others, rfl⟩
      refine ⟨⟨owned, { fits with apart := fun other inside => ?_ }⟩, ⟨free, fun other inside => ?_⟩,
        rfl⟩
      · exact (SeenIds.freeOf_add.mp (others other inside)).2
      · exact (SeenIds.freeOf_add.mp (others other inside)).1
    · rintro ⟨⟨owned, fits⟩, ⟨free, others⟩, rfl⟩
      refine ⟨seen.add head, ⟨{ fits with apart := by simp }, free, rfl⟩, owned, fun other inside => ?_,
        rfl⟩
      exact SeenIds.freeOf_add.mpr ⟨others other inside, fits.apart other inside⟩

/-- A directory whose ownership is exclusive, whose retirements are distinct and whose selected
identity is present. -/
structure Valid (directory : IdentityDirectory) : Prop where
  retired : directory.retiredAppIds.Nodup
  owned : Owned directory.identities directory.retiredAppIds
  selection : ∀ identityId, directory.selection = .selected identityId →
    identityId ∈ directory.identities.map (·.identityId)

theorem length_dedup_eq_iff {ids : List AppId} : ids.dedup.length = ids.length ↔ ids.Nodup := by
  constructor
  · intro same
    rw [← List.dedup_eq_self]
    exact (List.dedup_sublist ids).eq_of_length same
  · intro distinct
    rw [distinct.dedup]

theorem validate_eq_ok {directory : IdentityDirectory} :
    directory.validate = .ok () ↔ directory.Valid := by
  have seen : ∀ id, id ∈ (directory.identities.foldl SeenIds.add ⟨[], [], []⟩).ids ↔
      id ∈ directory.identities.map (·.identityId) := by
    simp [SeenIds.mem_ids_foldl_add]
  unfold validate
  rw [bind_eq_ok]
  simp only [bind_eq_ok, foldlM_validateRecord]
  constructor
  · rintro ⟨⟨⟩, retired, result, ⟨owned, _, rfl⟩, selected⟩
    rw [refuse_eq_ok, decide_eq_false_iff_not, not_not, length_dedup_eq_iff] at retired
    refine ⟨retired, owned, fun identityId chosen => ?_⟩
    rw [chosen] at selected
    simp only [refuse_eq_ok, Bool.or_eq_false_iff, decide_eq_false_iff_not, not_not, seen] at selected
    exact selected.2
  · rintro ⟨retired, owned, selection⟩
    refine ⟨(), by simpa using length_dedup_eq_iff.mpr retired, _, ⟨owned, fun record inside => ⟨by simp, by simp, by simp⟩, rfl⟩, ?_⟩
    cases chosen : directory.selection with
    | empty => rfl
    | selected identityId =>
      have present := selection identityId chosen
      simp only [refuse_eq_ok, Bool.or_eq_false_iff, decide_eq_false_iff_not, not_not, seen]
      refine ⟨?_, present⟩
      cases listed : directory.identities with
      | nil => simp [listed] at present
      | cons => rfl

/-- The records and the selection of a valid directory load. -/
theorem Valid.fromRecords {directory : IdentityDirectory} (valid : directory.Valid) :
    fromRecords directory.identities directory.selection =
      .ok ⟨directory.identities, directory.selection, []⟩ := by
  have loads : validate ⟨directory.identities, directory.selection, []⟩ = .ok () :=
    validate_eq_ok.mpr ⟨List.nodup_nil, { valid.owned with active := by simp }, valid.selection⟩
  unfold IdentityDirectory.fromRecords
  simp only [loads]
  rfl

end IdentityDirectory

end Nook.Auth
