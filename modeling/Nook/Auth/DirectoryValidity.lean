import Nook.Auth.DirectoryOwnership

set_option autoImplicit false

namespace Nook.Auth

open Nook.Lib Nook.EventLog

namespace IdentityDirectory

variable {directory next : IdentityDirectory}

/-- No identity lists an app. -/
def Unlisted (directory : IdentityDirectory) (appId : AppId) : Prop :=
  ∀ record ∈ directory.identities, appId ∉ record.memberIds

/-- An id, if one is generated, is of no identity here. -/
def Fresh (directory : IdentityDirectory) (generated : MultiDeviceResult IdentityId) : Prop :=
  ∀ identityId, generated = .ok identityId →
    ∀ record ∈ directory.identities, record.identityId ≠ identityId

/-! ### One identity replaced -/

/-- The directories before and after one record was rewritten in its place. -/
structure Rewritten (directory next : IdentityDirectory) (record updated : IdentityRecord)
    (others : List IdentityRecord) : Prop where
  split : ∃ before after, directory.identities = before ++ record :: after ∧
    next.identities = before ++ updated :: after ∧ others = before ++ after
  selection : next.selection = directory.selection
  retired : next.retiredAppIds = directory.retiredAppIds

variable {record updated : IdentityRecord} {others : List IdentityRecord}

theorem Rewritten.fits (rewritten : directory.Rewritten next record updated others)
    (valid : directory.Valid) : record.Fits others directory.retiredAppIds := by
  obtain ⟨before, after, split, _, rfl⟩ := rewritten.split
  exact (Owned.middle_iff.mp (split ▸ valid.owned)).2

theorem Rewritten.mem (rewritten : directory.Rewritten next record updated others) :
    record ∈ directory.identities := by
  obtain ⟨before, after, split, _, rfl⟩ := rewritten.split
  simp [split]

theorem Rewritten.mem_of_mem (rewritten : directory.Rewritten next record updated others)
    {other : IdentityRecord} (inside : other ∈ others) : other ∈ directory.identities := by
  obtain ⟨before, after, split, _, rfl⟩ := rewritten.split
  rw [split]
  simp only [List.mem_append, List.mem_cons] at inside ⊢
  tauto

theorem Rewritten.eq_or_mem (rewritten : directory.Rewritten next record updated others)
    {other : IdentityRecord} (inside : other ∈ directory.identities) :
    other = record ∨ other ∈ others := by
  obtain ⟨before, after, split, _, rfl⟩ := rewritten.split
  rw [split] at inside
  simp only [List.mem_append, List.mem_cons] at inside ⊢
  tauto

theorem Rewritten.next_eq_or_mem (rewritten : directory.Rewritten next record updated others)
    {other : IdentityRecord} (inside : other ∈ next.identities) :
    other = updated ∨ other ∈ others := by
  obtain ⟨before, after, _, split, rfl⟩ := rewritten.split
  rw [split] at inside
  simp only [List.mem_append, List.mem_cons] at inside ⊢
  tauto

/-- A rewritten directory is valid exactly when the new record fits beside the others. -/
theorem Rewritten.valid_iff (rewritten : directory.Rewritten next record updated others)
    (valid : directory.Valid) (same : updated.identityId = record.identityId) :
    next.Valid ↔ updated.Fits others directory.retiredAppIds := by
  obtain ⟨before, after, split, nextSplit, rfl⟩ := rewritten.split
  have left : Owned (before ++ after) directory.retiredAppIds :=
    (Owned.middle_iff.mp (split ▸ valid.owned)).1
  constructor
  · intro whole
    have owned := whole.owned
    rw [nextSplit, rewritten.retired] at owned
    exact (Owned.middle_iff.mp owned).2
  · intro fits
    refine ⟨rewritten.retired ▸ valid.retired, ?_, fun identityId chosen => ?_⟩
    · rw [nextSplit, rewritten.retired]
      exact Owned.middle_iff.mpr ⟨left, fits⟩
    · rw [rewritten.selection] at chosen
      have present := valid.selection identityId chosen
      rw [split] at present
      rw [nextSplit]
      simpa [same] using present

/-- A record that gains no member and no vault leaves the directory valid. -/
theorem Rewritten.valid_of_shrink (rewritten : directory.Rewritten next record updated others)
    (valid : directory.Valid) (same : updated.identityId = record.identityId)
    (members : updated.memberIds.Sublist record.memberIds)
    (stores : updated.storeIds.Sublist record.storeIds) : next.Valid :=
  (rewritten.valid_iff valid same).mpr ((rewritten.fits valid).shrink same members stores)

theorem Valid.select (valid : directory.Valid) {identityId : IdentityId}
    (present : identityId ∈ directory.identities.map (·.identityId)) :
    Valid { directory with selection := .selected identityId } := by
  refine ⟨valid.retired, valid.owned, fun other chosen => ?_⟩
  cases chosen
  exact present

theorem Valid.select_iff {identityId : IdentityId} (selection : ∀ other,
    directory.selection = .selected other → other ∈ directory.identities.map (·.identityId))
    (present : identityId ∈ directory.identities.map (·.identityId)) :
    Valid { directory with selection := .selected identityId } ↔ directory.Valid :=
  ⟨fun valid => ⟨valid.retired, valid.owned, selection⟩, fun valid => valid.select present⟩

theorem takeIdentity_eq_ok {identityId : IdentityId} {detached : DetachedIdentityRecord}
    (taken : directory.takeIdentity identityId = .ok detached) :
    detached.record.identityId = identityId ∧ ∀ updated, ∃ others,
      directory.Rewritten (detached.insert updated) detached.record updated others := by
  unfold takeIdentity at taken
  split at taken
  · rename_i index record found listed
    cases taken
    obtain ⟨before, after, split, place, named⟩ := split_of_find? found listed
    refine ⟨by simpa using named, fun updated => ⟨before ++ after, ?_, rfl, rfl⟩⟩
    refine ⟨before, after, split, ?_, rfl⟩
    show (directory.identities.eraseIdx index).insertIdx index updated = _
    have inside : index ≠ directory.identities.length := by
      rw [split, ← place, List.length_append, List.length_cons]
      omega
    rw [List.insertIdx_eraseIdx_self inside, split, ← place]
    simp
  · cases taken

theorem update_eq_ok {identityId : IdentityId}
    {operation : IdentityRecord → Except IdentityRecordRejection IdentityRecord}
    (accepted : (directory.takeIdentity identityId >>= fun detached => detached.update operation) =
      .ok next) :
    ∃ record updated others, record.identityId = identityId ∧ operation record = .ok updated ∧
      directory.Rewritten next record updated others := by
  obtain ⟨detached, taken, accepted⟩ := bind_eq_ok.mp accepted
  obtain ⟨named, rewrites⟩ := takeIdentity_eq_ok taken
  unfold DetachedIdentityRecord.update at accepted
  split at accepted
  · rename_i updated done
    cases accepted
    obtain ⟨others, rewritten⟩ := rewrites updated
    exact ⟨detached.record, updated, others, named, done, rewritten⟩
  · cases accepted

/-- Setting the record at the place of an identity rewrites it. -/
theorem rewritten_set {identityId : IdentityId} {index : Nat} (updated : IdentityRecord)
    (found : directory.identities.findIdx? (·.identityId = identityId) = some index) :
    ∃ record others, record.identityId = identityId ∧
      directory.Rewritten { directory with identities := directory.identities.set index updated }
        record updated others := by
  obtain ⟨before, record, after, split, place, named, _⟩ := mem_of_findIdx? found
  refine ⟨record, before ++ after, by simpa using named, ⟨before, after, split, ?_, rfl⟩, rfl, rfl⟩
  show directory.identities.set index updated = _
  rw [split, ← place]
  simp

end IdentityDirectory

end Nook.Auth
