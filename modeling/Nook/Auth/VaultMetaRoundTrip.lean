import Nook.Auth.VaultMetaState

set_option autoImplicit false

namespace Nook.Auth

open Nook.Lib Nook.EventLog

/-- Whether a raw key refers to a place: a secret by its very text, every other
kind by the id the key is parsed to. -/
def MetaSlot.named (key : Str) : MetaSlot → Bool
  | .secret id => id.asStr == key
  | .auth authId => (AuthKeyId.parse key).toOption == some authId
  | .join deviceId => (AppId.parse key).toOption == some deviceId
  | .member authId =>
    (stripPrefix key memberRecordPrefix).bind (fun raw => (AuthKeyId.parse raw).toOption) ==
      some authId
  | .sentinelShare deviceId =>
    (stripPrefix key sentinelShareRecordPrefix).bind (fun raw => (AppId.parse raw).toOption) ==
      some deviceId

/-- Whether a raw key refers to a record. -/
def refersTo [AgeRecipients] [JsonText] (key : Str) (record : StoredSecretRecord) : Bool :=
  match classify record with
  | .ok row => row.slot.named key
  | .error _ => false

namespace VaultMetaState

variable {state : VaultMetaState} {row : VaultMetaRecord}

/-- A bucket without the entry of an id, if the key is parsed to one. -/
theorem getElem?_eraseParsed {Key Value : Type} [LinearOrder Key] (map : BTreeMap Key Value)
    (parsed : Option Key) (id : Key) :
    (match parsed with
      | some own => map.erase own
      | none => map)[id]? = if (parsed == some id) = true then none else map[id]? := by
  cases parsed with
  | none => rfl
  | some own =>
    simp only [Std.ExtTreeMap.getElem?_erase, compare_eq_iff_eq, beq_iff_eq, Option.some.injEq]

theorem rowAt_removeKey (state : VaultMetaState) (key : Str) (slot : MetaSlot) :
    (state.removeKey key).rowAt slot =
      if slot.named key = true then none else state.rowAt slot := by
  cases slot with
  | secret id =>
    have erased : (state.removeKey key).secrets[id]? =
        if (⟨key⟩ : SecretId) = id then none else state.secrets[id]? := by
      simp only [removeKey, Std.ExtTreeMap.getElem?_erase, compare_eq_iff_eq]
    have same : (⟨key⟩ : SecretId) = id ↔ (MetaSlot.secret id).named key = true := by
      simp only [MetaSlot.named, beq_iff_eq]
      exact ⟨fun equal => equal ▸ rfl, fun equal => Text.asStr_injective equal.symm⟩
    simp only [rowAt, erased, same]
    split <;> rfl
  | auth authId =>
    have erased : (state.removeKey key).auth[authId]? =
        if (MetaSlot.auth authId).named key = true then none else state.auth[authId]? := by
      rw [MetaSlot.named, ← getElem?_eraseParsed]
      simp only [removeKey]
      cases AuthKeyId.parse key <;> rfl
    simp only [rowAt, erased]
    split <;> rfl
  | join deviceId =>
    have erased : (state.removeKey key).joins[deviceId]? =
        if (MetaSlot.join deviceId).named key = true then none else state.joins[deviceId]? := by
      rw [MetaSlot.named, ← getElem?_eraseParsed]
      simp only [removeKey]
      cases AppId.parse key <;> rfl
    simp only [rowAt, erased]
    split <;> rfl
  | member authId =>
    have erased : (state.removeKey key).members[authId]? =
        if (MetaSlot.member authId).named key = true then none else state.members[authId]? := by
      rw [MetaSlot.named, ← getElem?_eraseParsed]
      simp only [removeKey]
      cases stripPrefix key memberRecordPrefix with
      | none => rfl
      | some raw =>
        simp only [Option.map_some, Option.bind_some]
        cases AuthKeyId.parse raw <;> rfl
    simp only [rowAt, erased]
    split <;> rfl
  | sentinelShare deviceId =>
    have erased : (state.removeKey key).sentinelShares[deviceId]? =
        if (MetaSlot.sentinelShare deviceId).named key = true then none
          else state.sentinelShares[deviceId]? := by
      rw [MetaSlot.named, ← getElem?_eraseParsed]
      simp only [removeKey]
      cases stripPrefix key sentinelShareRecordPrefix with
      | none => rfl
      | some raw =>
        simp only [Option.map_some, Option.bind_some]
        cases AppId.parse raw <;> rfl
    simp only [rowAt, erased]
    split <;> rfl

/-- A key that the white space around its id is no part of. -/
def Unpadded (key : Str) : Prop :=
  trim key = key ∧
    (∀ raw, key = memberRecordPrefix ++ raw → trim raw = raw) ∧
    (∀ raw, key = sentinelShareRecordPrefix ++ raw → trim raw = raw)

section

variable [AgeRecipients] [JsonText] {records : List StoredSecretRecord}

/-- A row of a loaded state is read again from its record. -/
theorem Loaded.classify_toStored (loaded : state.Loaded) (readsBack : ∀ row ∈ state.rows, row.ReadsBack)
    {slot : MetaSlot} (placed : state.rowAt slot = some row) :
    classify row.toStored = .ok row := by
  obtain ⟨record, classified⟩ := loaded.classified slot row placed
  have listed : row ∈ state.rows := mem_rows.mpr (slot_of_rowAt placed ▸ placed)
  exact Auth.classify_toStored (readsBack row listed) classified

/-- The state of some of the records of a loaded state. -/
theorem Loaded.fromStoredRecords_filter (loaded : state.Loaded)
    (readsBack : ∀ row ∈ state.rows, row.ReadsBack) (keep : StoredSecretRecord → Bool)
    {result : VaultMetaState}
    (rows : ∀ slot row, result.rowAt slot = some row ↔
      state.rowAt slot = some row ∧ keep row.toStored = true)
    (enrolled : result.enrolledDevices = ∅) (participants : result.sentinelParticipants = ∅) :
    fromStoredRecords (state.toStoredRecords.filter keep) = .ok result := by
  have held : ∀ record ∈ state.toStoredRecords.filter keep, ∃ row, classify record = .ok row ∧
      state.rowAt row.slot = some row := by
    intro record member
    obtain ⟨row, listed, rfl⟩ := mem_toStoredRecords.mp (List.mem_of_mem_filter member)
    have placed := mem_rows.mp listed
    exact ⟨row, loaded.classify_toStored readsBack placed, placed⟩
  obtain ⟨read, loads, same⟩ := fromStoredRecords_of_held held
  have loadedRead := loaded_of_fromStoredRecords loads
  rw [loads]
  refine congrArg Except.ok (eq_of_rowAt (fun slot => Option.ext fun row => ?_)
    (loadedRead.enrolled.trans enrolled.symm) (loadedRead.participants.trans participants.symm))
  rw [same, rows]
  refine and_congr_right fun placed => ?_
  have again := loaded.classify_toStored readsBack placed
  constructor
  · rintro ⟨record, member, classified⟩
    obtain ⟨own, listed, rfl⟩ := mem_toStoredRecords.mp (List.mem_of_mem_filter member)
    have ownAgain := loaded.classify_toStored readsBack (mem_rows.mp listed)
    rw [classified] at ownAgain
    cases ownAgain
    exact List.of_mem_filter member
  · intro kept
    have listed : row ∈ state.rows := mem_rows.mpr (slot_of_rowAt placed ▸ placed)
    exact ⟨row.toStored, List.mem_filter.mpr ⟨mem_toStoredRecords.mpr ⟨row, listed, rfl⟩, kept⟩,
      again⟩

theorem Loaded.refersTo_toStored (loaded : state.Loaded) (readsBack : ∀ row ∈ state.rows, row.ReadsBack)
    {slot : MetaSlot} (placed : state.rowAt slot = some row) (key : Str) :
    refersTo key row.toStored = slot.named key := by
  rw [refersTo, loaded.classify_toStored readsBack placed]
  exact congrArg (MetaSlot.named key) (slot_of_rowAt placed)

/-- Removing a key gives the state of the records that the key does not refer to. -/
theorem Loaded.fromStoredRecords_removeKey (loaded : state.Loaded)
    (readsBack : ∀ row ∈ state.rows, row.ReadsBack) (key : Str) :
    fromStoredRecords (state.toStoredRecords.filter fun record => !refersTo key record) =
      .ok (state.removeKey key) := by
  refine loaded.fromStoredRecords_filter readsBack _ (fun slot row => ?_) loaded.enrolled
    loaded.participants
  rw [rowAt_removeKey]
  constructor
  · intro found
    split at found
    · cases found
    · rename_i unnamed
      rw [loaded.refersTo_toStored readsBack found]
      exact ⟨found, by simpa using unnamed⟩
  · rintro ⟨placed, kept⟩
    rw [loaded.refersTo_toStored readsBack placed] at kept
    rw [if_neg (by simpa using kept), placed]

omit [AgeRecipients] [JsonText] in
theorem beq_toOption_iff {ε Key : Type} [DecidableEq Key] {parsed : Except ε Key} {id : Key} :
    (parsed.toOption == some id) = true ↔ parsed = .ok id := by
  rw [beq_iff_eq, toOption_eq_some]

omit [AgeRecipients] [JsonText] in
/-- A prefixed key refers to the id it is parsed to, and without padding only to the
id it spells. -/
theorem bind_stripPrefix_iff {ε Key : Type} [DecidableEq Key] {parse : Str → Except ε Key}
    {lead key : Str} {id : Key} {spelled : Str} (unpadded : ∀ raw, key = lead ++ raw → trim raw = raw)
    (own : parse spelled = .ok id) (spells : ∀ raw, parse raw = .ok id → trim raw = spelled) :
    ((stripPrefix key lead).bind (fun raw => (parse raw).toOption) == some id) = true ↔
      lead ++ spelled = key := by
  rw [beq_iff_eq, Option.bind_eq_some_iff]
  constructor
  · rintro ⟨raw, stripped, parsed⟩
    have written := stripPrefix_eq_some.mp stripped
    have same := spells raw (toOption_eq_some.mp parsed)
    rw [unpadded raw written] at same
    rw [written, same]
  · rintro rfl
    exact ⟨spelled, stripPrefix_eq_some.mpr rfl, toOption_eq_some.mpr own⟩

/-- A key without padding refers to the records whose key it is. -/
theorem named_iff {record : StoredSecretRecord} (classified : classify record = .ok row)
    {key : Str} (unpadded : Unpadded key) :
    row.slot.named key = true ↔ row.toStored.key.asStr = key := by
  rcases classify_cases classified with ⟨_, deviceId, share, _, parsed, _, rfl⟩ |
    ⟨_, ⟨request, read, rfl⟩ | ⟨_, ⟨authId, named, rfl⟩ |
      ⟨_, ⟨authId, envelopes, found, rfl⟩ | ⟨_, secretType, rfl⟩⟩⟩⟩
  · exact bind_stripPrefix_iff unpadded.2.2 (AppId.parse_asStr parsed)
      fun raw again => (AppId.parse_eq_ok.mp again).1
  · obtain ⟨json, _, ofJson⟩ := Option.bind_eq_some_iff.mp (JoinRequest.parseJson_eq_ok.mp read)
    have own := JoinRequest.deviceId_ofJson ofJson
    refine beq_toOption_iff.trans ⟨fun parsed => ?_, fun same => ?_⟩
    · exact ((AppId.parse_eq_ok.mp parsed).1.symm.trans unpadded.1)
    · exact same ▸ own
  · obtain ⟨_, _, _, parsed⟩ := memberRowId_eq_some.mp named
    exact bind_stripPrefix_iff unpadded.2.1 (AuthKeyId.parse_asStr parsed)
      fun raw again => (AuthKeyId.parse_eq_ok.mp again).1
  · have own := AuthKeyId.parse_asStr (authRow_eq_some.mp found).2.1
    refine beq_toOption_iff.trans ⟨fun parsed => ?_, fun same => ?_⟩
    · exact ((AuthKeyId.parse_eq_ok.mp parsed).1.symm.trans unpadded.1)
    · exact same ▸ own
  · exact beq_iff_eq

/-- The state of a list of records is the state of the records it is flattened to, and
removing a key removes the records the key refers to: those of that key, unless the key
has white space around its id. -/
theorem vault_meta_survives_flattening (readsBack : ∀ row ∈ state.rows, row.ReadsBack)
    (loads : fromStoredRecords records = .ok state) :
    fromStoredRecords state.toStoredRecords = .ok state ∧
    (∀ key : Str, fromStoredRecords (state.toStoredRecords.filter fun record =>
      !refersTo key record) = .ok (state.removeKey key)) ∧
    (∀ key : Str, Unpadded key → fromStoredRecords (state.toStoredRecords.filter fun record =>
      record.key.asStr ≠ key) = .ok (state.removeKey key)) := by
  have loaded := loaded_of_fromStoredRecords loads
  refine ⟨?_, loaded.fromStoredRecords_removeKey readsBack, fun key unpadded => ?_⟩
  · have all := loaded.fromStoredRecords_filter readsBack (fun _ => true)
      (fun slot row => (and_iff_left rfl).symm) loaded.enrolled loaded.participants
    rwa [List.filter_eq_self.mpr fun _ _ => rfl] at all
  · rw [← loaded.fromStoredRecords_removeKey readsBack key]
    refine congrArg fromStoredRecords (List.filter_congr fun record member => ?_)
    obtain ⟨row, listed, rfl⟩ := mem_toStoredRecords.mp member
    have placed := mem_rows.mp listed
    have classified := loaded.classify_toStored readsBack placed
    rw [loaded.refersTo_toStored readsBack placed, Bool.eq_iff_iff, decide_eq_true_iff,
      Bool.not_eq_true', ← Bool.not_eq_true, named_iff classified unpadded]

end

end VaultMetaState

namespace TestSupport

/-! A vault with one auth row and one secret. -/

def armored : AgeArmoredCiphertext := ⟨"-----BEGIN AGE ENCRYPTED FILE-----".toList⟩

def storedEnvelopes : AuthEnvelopes := ⟨armored, armored⟩

def storedAuthId : AuthKeyId := ⟨"key_".toList ++ List.replicate 64 'a'⟩

def envelopesText (secretsKey membersKey : Str) : Str :=
  "\x7b\"secrets_key\":\"".toList ++ secretsKey ++ "\",\"members_key\":\"".toList ++ membersKey ++
    "\"\x7d".toList

@[reducible] def metaJson : JsonText where
  parse text :=
    if text = envelopesText armored.asStr armored.asStr then some storedEnvelopes.toJson else none
  print
    | .object [("secrets_key", .text secretsKey), ("members_key", .text membersKey)] =>
      envelopesText secretsKey membersKey
    | _ => "null".toList

@[reducible] def metaRecipients : AgeRecipients where
  isRecipient text := startsWith text "age1".toList

attribute [local instance] metaJson metaRecipients

def authRecord : StoredSecretRecord :=
  ⟨⟨storedAuthId.asStr⟩, .undeclared, ⟨envelopesText armored.asStr armored.asStr⟩⟩

def secretRecord : StoredSecretRecord :=
  ⟨⟨"secret_abcdefghijk".toList⟩, .undeclared, ⟨armored.asStr⟩⟩

def authMeta : VaultMetaRecord := .auth storedAuthId storedEnvelopes

def secretMeta : VaultMetaRecord := .secret secretRecord.key .secureNote secretRecord.value

def loadedState : VaultMetaState := [authMeta, secretMeta].foldl VaultMetaState.insertMeta .empty

theorem fromStoredRecords_loadedState :
    VaultMetaState.fromStoredRecords [authRecord, secretRecord] = .ok loadedState :=
  VaultMetaState.fromStoredRecords_eq_ok.mpr ⟨[authMeta, secretMeta], by decide +kernel, rfl⟩

theorem mem_loadedRows {row : VaultMetaRecord} (member : row ∈ loadedState.rows) :
    row = authMeta ∨ row = secretMeta := by
  have placed := VaultMetaState.mem_rows.mp member
  simp only [loadedState, List.foldl_cons, List.foldl_nil, VaultMetaState.rowAt_insertMeta,
    VaultMetaState.rowAt_empty] at placed
  split at placed
  · exact .inr (Option.some.inj placed).symm
  · split at placed
    · exact .inl (Option.some.inj placed).symm
    · cases placed

theorem readsBack_loadedState : ∀ row ∈ loadedState.rows, row.ReadsBack := by
  intro row member
  rcases mem_loadedRows member with rfl | rfl
  · show JsonText.parse (JsonText.print storedEnvelopes.toJson) = some storedEnvelopes.toJson
    exact if_pos rfl
  · trivial

/-- The two rows are read again, and removing the key of the auth row leaves the secret. -/
theorem vault_meta_survives_flattening_two_rows :
    VaultMetaState.fromStoredRecords loadedState.toStoredRecords = .ok loadedState ∧
      VaultMetaState.fromStoredRecords (loadedState.toStoredRecords.filter fun record =>
        record.key.asStr ≠ storedAuthId.asStr) =
          .ok (loadedState.removeKey storedAuthId.asStr) := by
  have survives := VaultMetaState.vault_meta_survives_flattening readsBack_loadedState
    fromStoredRecords_loadedState
  have unpadded : VaultMetaState.Unpadded storedAuthId.asStr := by
    refine ⟨by decide +kernel, fun raw written => ?_, fun raw written => ?_⟩
    · have letters : some 'k' = some 'm' := congrArg List.head? written
      exact absurd letters (by decide)
    · have letters : some 'k' = some 's' := congrArg List.head? written
      exact absurd letters (by decide)
  exact ⟨survives.1, survives.2.2 _ unpadded⟩

/-- A key with a space before it removes the auth row, whose key is another text. -/
theorem padded_key_removes :
    ¬ ∀ (records : List StoredSecretRecord) (state : VaultMetaState),
      VaultMetaState.fromStoredRecords records = .ok state → ∀ key : Str,
        VaultMetaState.fromStoredRecords (state.toStoredRecords.filter fun record =>
          record.key.asStr ≠ key) = .ok (state.removeKey key) := by
  intro exact
  have removed := exact _ _ fromStoredRecords_loadedState (' ' :: storedAuthId.asStr)
  have others : ∀ record ∈ loadedState.toStoredRecords,
      record.key.asStr ≠ ' ' :: storedAuthId.asStr := by
    intro record member
    obtain ⟨row, listed, rfl⟩ := VaultMetaState.mem_toStoredRecords.mp member
    rcases mem_loadedRows listed with rfl | rfl <;> decide +kernel
  rw [List.filter_eq_self.mpr fun record member => decide_eq_true (others record member)] at removed
  have loaded := VaultMetaState.loaded_of_fromStoredRecords fromStoredRecords_loadedState
  have kept := loaded.fromStoredRecords_filter readsBack_loadedState (fun _ => true)
    (fun slot row => (and_iff_left rfl).symm) loaded.enrolled loaded.participants
  rw [List.filter_eq_self.mpr fun _ _ => rfl, removed] at kept
  have same := congrArg (VaultMetaState.rowAt · (.auth storedAuthId)) (Except.ok.inj kept)
  have gone : (loadedState.removeKey (' ' :: storedAuthId.asStr)).rowAt (.auth storedAuthId) =
      none := by
    rw [VaultMetaState.rowAt_removeKey, if_pos (by decide +kernel)]
  have present : loadedState.rowAt (.auth storedAuthId) = some authMeta := by
    simp [loadedState, VaultMetaState.rowAt_insertMeta, authMeta, secretMeta,
      VaultMetaRecord.slot]
  simp only [gone, present] at same
  cases same

end TestSupport

end Nook.Auth
