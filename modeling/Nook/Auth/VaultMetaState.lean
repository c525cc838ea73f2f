import Nook.Auth.VaultMetaRows

set_option autoImplicit false

namespace Nook.Auth

open Nook.Lib Nook.EventLog

/-- The place of a row in the typed state. -/
inductive MetaSlot where
  | secret (id : SecretId)
  | auth (authId : AuthKeyId)
  | join (deviceId : DeviceId)
  | member (authId : AuthKeyId)
  | sentinelShare (deviceId : DeviceId)
  deriving DecidableEq

def VaultMetaRecord.slot : VaultMetaRecord → MetaSlot
  | .secret id .. => .secret id
  | .auth authId _ => .auth authId
  | .join deviceId _ => .join deviceId
  | .member authId _ => .member authId
  | .sentinelShare deviceId _ => .sentinelShare deviceId

namespace VaultMetaState

variable {state other : VaultMetaState} {row : VaultMetaRecord} {slot : MetaSlot}

/-- The row in a place. -/
def rowAt (state : VaultMetaState) : MetaSlot → Option VaultMetaRecord
  | .secret id => (state.secrets[id]?).map fun entry => .secret id entry.1 entry.2
  | .auth authId => (state.auth[authId]?).map (.auth authId)
  | .join deviceId => (state.joins[deviceId]?).map (.join deviceId)
  | .member authId => (state.members[authId]?).map (.member authId)
  | .sentinelShare deviceId => (state.sentinelShares[deviceId]?).map (.sentinelShare deviceId)

theorem slot_of_rowAt (placed : state.rowAt slot = some row) : row.slot = slot := by
  cases slot <;> obtain ⟨_, _, rfl⟩ := Option.map_eq_some_iff.mp placed <;> rfl

@[simp] theorem rowAt_empty (slot : MetaSlot) : empty.rowAt slot = none := by
  cases slot <;> simp [rowAt, empty]

theorem rowAt_insertMeta (state : VaultMetaState) (row : VaultMetaRecord) (slot : MetaSlot) :
    (state.insertMeta row).rowAt slot = if row.slot = slot then some row else state.rowAt slot := by
  cases row <;> cases slot <;>
    simp only [rowAt, insertMeta, VaultMetaRecord.slot, reduceCtorEq, if_false,
      MetaSlot.secret.injEq, MetaSlot.auth.injEq, MetaSlot.join.injEq, MetaSlot.member.injEq,
      MetaSlot.sentinelShare.injEq, BTreeMap.getElem?_insert_eq] <;>
    split <;> simp_all

/-- Two states with the same rows and nothing but rows are equal. -/
theorem eq_of_rowAt (rows : ∀ slot, state.rowAt slot = other.rowAt slot)
    (enrolled : state.enrolledDevices = other.enrolledDevices)
    (participants : state.sentinelParticipants = other.sentinelParticipants) : state = other := by
  apply VaultMetaState.ext
  · apply BTreeMap.ext
    intro id
    have same := rows (.secret id)
    refine Option.map_injective (fun a b equal => ?_) same
    exact Prod.ext (VaultMetaRecord.secret.inj equal).2.1 (VaultMetaRecord.secret.inj equal).2.2
  · apply BTreeMap.ext
    intro authId
    exact Option.map_injective (fun a b equal => (VaultMetaRecord.auth.inj equal).2)
      (rows (.auth authId))
  · apply BTreeMap.ext
    intro deviceId
    exact Option.map_injective (fun a b equal => (VaultMetaRecord.join.inj equal).2)
      (rows (.join deviceId))
  · apply BTreeMap.ext
    intro authId
    exact Option.map_injective (fun a b equal => (VaultMetaRecord.member.inj equal).2)
      (rows (.member authId))
  · exact enrolled
  · apply BTreeMap.ext
    intro deviceId
    exact Option.map_injective (fun a b equal => (VaultMetaRecord.sentinelShare.inj equal).2)
      (rows (.sentinelShare deviceId))
  · exact participants

/-! ### Loading rows -/

theorem insertMeta_others (state : VaultMetaState) (row : VaultMetaRecord) :
    (state.insertMeta row).enrolledDevices = state.enrolledDevices ∧
      (state.insertMeta row).sentinelParticipants = state.sentinelParticipants := by
  cases row <;> exact ⟨rfl, rfl⟩

theorem foldl_insertMeta_others (rows : List VaultMetaRecord) (state : VaultMetaState) :
    (rows.foldl insertMeta state).enrolledDevices = state.enrolledDevices ∧
      (rows.foldl insertMeta state).sentinelParticipants = state.sentinelParticipants := by
  induction rows generalizing state with
  | nil => exact ⟨rfl, rfl⟩
  | cons head rest ih =>
    obtain ⟨enrolled, participants⟩ := insertMeta_others state head
    rw [List.foldl_cons, (ih _).1, (ih _).2]
    exact ⟨enrolled, participants⟩

/-- Rows that a state holds, put into another state: their places are as in the first. -/
theorem rowAt_foldl_insertMeta {rows : List VaultMetaRecord}
    (held : ∀ row ∈ rows, state.rowAt row.slot = some row) (start : VaultMetaState)
    (slot : MetaSlot) : (rows.foldl insertMeta start).rowAt slot =
      if ∃ row ∈ rows, row.slot = slot then state.rowAt slot else start.rowAt slot := by
  induction rows generalizing start with
  | nil => simp
  | cons head rest ih =>
    rw [List.foldl_cons, ih (fun row member => held row (List.mem_cons_of_mem _ member)),
      rowAt_insertMeta]
    by_cases later : ∃ row ∈ rest, row.slot = slot
    · have listed : ∃ row ∈ head :: rest, row.slot = slot := by
        obtain ⟨row, member, same⟩ := later
        exact ⟨row, List.mem_cons_of_mem _ member, same⟩
      rw [if_pos later, if_pos listed]
    · rw [if_neg later]
      by_cases here : head.slot = slot
      · rw [if_pos here, if_pos ⟨head, List.mem_cons_self, here⟩, ← here,
          held head List.mem_cons_self]
      · rw [if_neg here, if_neg]
        rintro ⟨row, member, same⟩
        rcases List.mem_cons.mp member with rfl | inside
        · exact here same
        · exact later ⟨row, inside, same⟩

/-- The rows of all the buckets. -/
def rows (state : VaultMetaState) : List VaultMetaRecord :=
  (state.secrets.toList.map fun entry => .secret entry.1 entry.2.1 entry.2.2) ++
  (state.auth.toList.map fun entry => .auth entry.1 entry.2) ++
  (state.joins.toList.map fun entry => .join entry.1 entry.2) ++
  (state.members.toList.map fun entry => .member entry.1 entry.2) ++
  (state.sentinelShares.toList.map fun entry => .sentinelShare entry.1 entry.2)

theorem mem_rows : row ∈ state.rows ↔ state.rowAt row.slot = some row := by
  cases row <;>
    simp [rows, rowAt, VaultMetaRecord.slot, Std.ExtTreeMap.mem_toList_iff_getElem?_eq_some,
      and_left_comm]

/-- What a state loaded from rows is. -/
structure Loaded [AgeRecipients] [JsonText] (state : VaultMetaState) : Prop where
  classified : ∀ slot row, state.rowAt slot = some row → ∃ record, classify record = .ok row
  enrolled : state.enrolledDevices = ∅
  participants : state.sentinelParticipants = ∅

section

variable [AgeRecipients] [JsonText] {records : List StoredSecretRecord}

theorem fromStoredRecords_eq_ok : fromStoredRecords records = .ok state ↔
    ∃ rows, records.mapM classify = .ok rows ∧ rows.foldl insertMeta empty = state :=
  foldlM_read_eq_ok

theorem Loaded.insertMeta (loaded : state.Loaded) {record : StoredSecretRecord}
    (classified : classify record = .ok row) : (state.insertMeta row).Loaded := by
  obtain ⟨enrolled, participants⟩ := insertMeta_others state row
  refine ⟨fun slot own placed => ?_, enrolled.trans loaded.enrolled,
    participants.trans loaded.participants⟩
  rw [rowAt_insertMeta] at placed
  split at placed
  · cases placed
    exact ⟨record, classified⟩
  · exact loaded.classified slot own placed

theorem loaded_of_fromStoredRecords (loads : fromStoredRecords records = .ok state) :
    state.Loaded := by
  have start : empty.Loaded := ⟨fun slot row placed => by simp at placed, rfl, rfl⟩
  unfold fromStoredRecords at loads
  generalize empty = first at start loads
  induction records generalizing first with
  | nil =>
    cases loads
    exact start
  | cons head rest ih =>
    rw [List.foldlM_cons] at loads
    obtain ⟨next, applied, loads⟩ := bind_eq_ok.mp loads
    obtain ⟨row, classified, made⟩ := bind_eq_ok.mp applied
    cases made
    exact ih _ (start.insertMeta classified) loads

/-- The records of rows of a state, read again: the state of these rows. -/
theorem fromStoredRecords_of_held
    (held : ∀ record ∈ records, ∃ row, classify record = .ok row ∧
      state.rowAt row.slot = some row) :
    ∃ result, fromStoredRecords records = .ok result ∧
      ∀ slot row, result.rowAt slot = some row ↔
        state.rowAt slot = some row ∧ ∃ record ∈ records, classify record = .ok row := by
  obtain ⟨rows, collected⟩ : ∃ rows, records.mapM classify = .ok rows :=
    exists_mapM_eq_ok fun record member => by
      obtain ⟨row, classified, _⟩ := held record member
      exact ⟨row, classified⟩
  refine ⟨_, fromStoredRecords_eq_ok.mpr ⟨rows, collected, rfl⟩, fun slot row => ?_⟩
  have placed : ∀ row ∈ rows, state.rowAt row.slot = some row := by
    intro row member
    obtain ⟨record, listed, classified⟩ := (mem_of_mapM_eq_ok collected).mp member
    obtain ⟨own, again, here⟩ := held record listed
    rw [classified] at again
    cases again
    exact here
  rw [rowAt_foldl_insertMeta placed, rowAt_empty, ← mem_of_mapM_eq_ok collected]
  constructor
  · intro found
    split at found
    · rename_i listed
      obtain ⟨own, member, here⟩ := listed
      have same := placed own member
      rw [here, found] at same
      cases same
      exact ⟨found, member⟩
    · cases found
  · rintro ⟨found, member⟩
    rw [if_pos ⟨row, member, slot_of_rowAt found⟩, found]

omit [AgeRecipients] in
theorem mem_toStoredRecords {record : StoredSecretRecord} :
    record ∈ state.toStoredRecords ↔ ∃ row ∈ state.rows, row.toStored = record := by
  unfold toStoredRecords rows
  simp only [List.mem_mergeSort, List.mem_append, List.mem_map, or_and_right, exists_or,
    exists_exists_and_eq_and]
  rfl

end

end VaultMetaState

end Nook.Auth
