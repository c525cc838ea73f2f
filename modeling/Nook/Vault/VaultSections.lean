import Nook.Lib.Steps
import Nook.Vault.VaultFormat

set_option autoImplicit false

namespace Nook.Vault

open Nook.Lib Nook.EventLog Nook.Auth

/-! ### What a vault file is for

A record is kept in the section of its kind, and comes back as it is read. -/

/-- The sections of the document, in the order their records are read. -/
inductive VaultSection where
  | secrets
  | auth
  | joins
  | members
  | sentinelShares
  deriving DecidableEq

def VaultSection.all : List VaultSection := [.secrets, .auth, .joins, .members, .sentinelShares]

def VaultSection.ofRow : VaultMetaRecord → VaultSection
  | .secret .. => .secrets
  | .auth .. => .auth
  | .join .. => .joins
  | .member .. => .members
  | .sentinelShare .. => .sentinelShares

variable [JsonText]

/-- Whether a record is none of the browser-local ones. -/
def isKept (record : StoredSecretRecord) : Bool :=
  !StoredVaultYaml.isLocalDeviceWrapper record.value.asStr

variable [AgeRecipients]

def vaultSection (record : StoredSecretRecord) : Option VaultSection :=
  (classify record).toOption.map VaultSection.ofRow

/-- The record as it comes back: a secret under its exact id, the envelopes of an auth row in
canonical JSON, a member row under its exact key; neither of these rows has a type. -/
def asRead (record : StoredSecretRecord) : StoredSecretRecord :=
  match classify record with
  | .ok (.secret ..) => { record with key := StoredVaultYaml.normalizedKey record.key }
  | .ok (.auth _ envelopes) => ⟨record.key, .undeclared, ⟨JsonText.print envelopes.toJson⟩⟩
  | .ok (.member authId _) => ⟨⟨memberRecordKey authId⟩, .undeclared, record.value⟩
  | _ => record

/-- The kept records of one section, in their order. -/
def inSection (own : VaultSection) (records : List StoredSecretRecord) : List StoredSecretRecord :=
  records.filter fun record => isKept record && vaultSection record == some own

/-- The kept records, section by section. -/
def readBack (records : List StoredSecretRecord) : List StoredSecretRecord :=
  VaultSection.all.flatMap fun own => (inSection own records).map asRead

def authYaml (record : StoredSecretRecord) : AuthYamlRecord :=
  match classify record with
  | .ok (.auth authId envelopes) =>
    ⟨authId.asStr, envelopes.secretsKey.asStr, envelopes.membersKey.asStr⟩
  | _ => ⟨[], [], []⟩

def memberYaml (record : StoredSecretRecord) : MembersYamlRecord :=
  match classify record with
  | .ok (.member authId payload) => ⟨authId.asStr, payload.asStr⟩
  | _ => ⟨[], []⟩

/-- Whether the file takes a record: a browser-local one is passed over unless it is typed, and
any other has a kind. -/
structure Filable (record : StoredSecretRecord) : Prop where
  local_ : isKept record = false → record.secretType = .undeclared
  kind : isKept record = true → ∃ row, classify record = .ok row

variable {record : StoredSecretRecord} {row : VaultMetaRecord}

theorem vaultSection_of_classify (classified : classify record = .ok row) :
    vaultSection record = some (VaultSection.ofRow row) := by
  unfold vaultSection
  rw [classified]
  rfl

/-- An auth row is under the exact id of its two envelopes. -/
theorem auth_of_classify {authId : AuthKeyId} {envelopes : AuthEnvelopes}
    (classified : classify record = .ok (.auth authId envelopes)) :
    record.key.asStr = authId.asStr ∧ AuthKeyId.parse record.key.asStr = .ok authId ∧
      AuthEnvelopes.parse record.value.asStr = .ok envelopes := by
  rcases classify_cases classified with ⟨_, _, _, _, _, _, other⟩ |
    ⟨_, ⟨_, _, other⟩ | ⟨_, ⟨_, _, other⟩ | ⟨_, ⟨_, _, found, same⟩ | ⟨_, _, other⟩⟩⟩⟩
  · cases other
  · cases other
  · cases other
  · cases same
    obtain ⟨valid, parsed, read⟩ := authRow_eq_some.mp found
    refine ⟨?_, parsed, read⟩
    rw [← (AuthKeyId.parse_eq_ok.mp parsed).1, AuthKeyId.trim_of_isValid valid]
  · cases other

theorem member_of_classify {authId : AuthKeyId} {payload : StoredRecordPayload}
    (classified : classify record = .ok (.member authId payload)) :
    payload = record.value ∧ ∃ raw, AuthKeyId.parse raw = .ok authId := by
  rcases classify_cases classified with ⟨_, _, _, _, _, _, other⟩ |
    ⟨_, ⟨_, _, other⟩ | ⟨_, ⟨_, named, same⟩ | ⟨_, ⟨_, _, _, other⟩ | ⟨_, _, other⟩⟩⟩⟩
  · cases other
  · cases other
  · cases same
    obtain ⟨raw, _, _, parsed⟩ := memberRowId_eq_some.mp named
    exact ⟨rfl, raw, parsed⟩
  · cases other
  · cases other

omit [JsonText] [AgeRecipients] in
theorem ok_eq_ok {ε α : Type} {left right : α} :
    (Except.ok left : Except ε α) = .ok right ↔ right = left := by
  rw [Except.ok.injEq]
  exact eq_comm

theorem mem_inSection {own : VaultSection} {records : List StoredSecretRecord} :
    record ∈ inSection own records ↔
      record ∈ records ∧ isKept record = true ∧ vaultSection record = some own := by
  unfold inSection
  rw [List.mem_filter, Bool.and_eq_true, beq_iff_eq]

theorem exists_row_of_mem {own : VaultSection} {records : List StoredSecretRecord}
    (member : record ∈ inSection own records) :
    ∃ row, classify record = .ok row ∧ VaultSection.ofRow row = own := by
  obtain ⟨row, read, same⟩ := Option.map_eq_some_iff.mp (mem_inSection.mp member).2.2
  exact ⟨row, toOption_eq_some.mp read, same⟩

/-! ### Filing records -/

namespace StoredVaultYaml

/-- The document with further records filed. -/
def withRecords (vault : StoredVaultYaml) (records : List StoredSecretRecord) : StoredVaultYaml :=
  { vault with
    secrets := vault.secrets ++ inSection .secrets records
    auth := vault.auth ++ (inSection .auth records).map authYaml
    joins := vault.joins ++ inSection .joins records
    members := vault.members ++ (inSection .members records).map memberYaml
    sentinelShares := vault.sentinelShares ++ inSection .sentinelShares records }

theorem withRecords_nil (vault : StoredVaultYaml) : vault.withRecords [] = vault := by
  simp [withRecords, inSection]

theorem inSection_cons (own : VaultSection) (head : StoredSecretRecord)
    (tail : List StoredSecretRecord) :
    inSection own (head :: tail) = inSection own [head] ++ inSection own tail :=
  List.filter_append [head] tail

theorem withRecords_cons (vault : StoredVaultYaml) (head : StoredSecretRecord)
    (tail : List StoredSecretRecord) :
    (vault.withRecords [head]).withRecords tail = vault.withRecords (head :: tail) := by
  unfold withRecords
  dsimp only
  rw [inSection_cons .secrets head tail, inSection_cons .auth head tail,
    inSection_cons .joins head tail, inSection_cons .members head tail,
    inSection_cons .sentinelShares head tail]
  simp only [List.append_assoc, List.map_append]

theorem inSection_of_local {own : VaultSection} (passed : isKept record = false) :
    inSection own [record] = [] := by
  simp [inSection, passed]

theorem inSection_of_kept {own : VaultSection} (kept : isKept record = true)
    (classified : classify record = .ok row) :
    inSection own [record] = if VaultSection.ofRow row = own then [record] else [] := by
  unfold inSection
  rw [List.filter_cons, List.filter_nil, kept, vaultSection_of_classify classified]
  simp

/-- The envelopes of an auth row are read a second time. -/
theorem fromStoredRecord_of_auth {authId : AuthKeyId} {envelopes : AuthEnvelopes}
    (classified : classify record = .ok (.auth authId envelopes)) :
    AuthYamlRecord.fromStoredRecord record = .ok (authYaml record) := by
  obtain ⟨_, parsed, read⟩ := auth_of_classify classified
  unfold AuthYamlRecord.fromStoredRecord authYaml
  simp only [classified, parsed, read]
  rfl

theorem addRecord_eq_ok {vault next : StoredVaultYaml} :
    vault.addRecord record = .ok next ↔ Filable record ∧ next = vault.withRecords [record] := by
  unfold addRecord
  cases wrapper : isLocalDeviceWrapper record.value.asStr with
  | true =>
    have passed : isKept record = false := by simp [isKept, wrapper]
    have same : vault.withRecords [record] = vault := by
      simp [withRecords, inSection_of_local passed]
    rw [if_pos rfl, same]
    by_cases typed : record.secretType = .undeclared
    · rw [if_neg (not_not.mpr typed)]
      have filable : Filable record := ⟨fun _ => typed, fun kept => by simp [passed] at kept⟩
      simp only [Except.ok.injEq, filable, true_and]
      exact eq_comm
    · rw [if_pos typed]
      simp only [reduceCtorEq, false_iff]
      intro filed
      exact typed (filed.1.local_ passed)
  | false =>
    have kept : isKept record = true := by simp [isKept, wrapper]
    rw [if_neg (by simp)]
    cases classified : classify record with
    | error cause =>
      simp only [reduceCtorEq, false_iff]
      intro filed
      obtain ⟨row, own⟩ := filed.1.kind kept
      rw [classified] at own
      cases own
    | ok row =>
      have filable : Filable record :=
        ⟨fun passed => by simp [kept] at passed, fun _ => ⟨row, classified⟩⟩
      have filed (own : VaultSection) : inSection own [record] =
          if VaultSection.ofRow row = own then [record] else [] :=
        inSection_of_kept kept classified
      simp only [filable, true_and]
      cases row with
      | auth authId envelopes =>
        simp only [fromStoredRecord_of_auth classified, withRecords, filed, VaultSection.ofRow,
          reduceCtorEq, if_true, if_false, List.append_nil, List.map_nil, List.map_cons]
        exact ok_eq_ok
      | member authId payload =>
        have own : memberYaml record = ⟨authId.asStr, record.value.asStr⟩ := by
          simp only [memberYaml, classified, (member_of_classify classified).1]
        simp only [withRecords, filed, VaultSection.ofRow, own,
          reduceCtorEq, if_true, if_false, List.append_nil, List.map_nil, List.map_cons]
        exact ok_eq_ok
      | secret | join | sentinelShare =>
        simp only [withRecords, filed, VaultSection.ofRow, reduceCtorEq, if_true, if_false,
          List.append_nil, List.map_nil]
        exact ok_eq_ok

theorem foldlM_addRecord {records : List StoredSecretRecord} {vault next : StoredVaultYaml} :
    records.foldlM addRecord vault = .ok next ↔
      (∀ record ∈ records, Filable record) ∧ next = vault.withRecords records := by
  induction records generalizing vault with
  | nil =>
    rw [withRecords_nil]
    simp [pure, Except.pure, eq_comm]
  | cons head tail ih =>
    rw [List.foldlM_cons, bind_eq_ok, List.forall_mem_cons]
    constructor
    · rintro ⟨middle, first, rest⟩
      obtain ⟨filable, rfl⟩ := addRecord_eq_ok.mp first
      obtain ⟨others, same⟩ := ih.mp rest
      exact ⟨⟨filable, others⟩, by rw [same, withRecords_cons]⟩
    · rintro ⟨⟨filable, others⟩, rfl⟩
      refine ⟨_, addRecord_eq_ok.mpr ⟨filable, rfl⟩, ih.mpr ⟨others, ?_⟩⟩
      rw [withRecords_cons]

/-- The sections that records are written to. -/
def filed (records : List StoredSecretRecord) : StoredVaultYaml :=
  { StoredVaultYaml.default.withRecords records with
    secrets := (inSection .secrets records).map asRead }

theorem fromRecords_eq_ok {records : List StoredSecretRecord} {vault : StoredVaultYaml} :
    fromRecords records = .ok vault ↔
      (∀ record ∈ records, Filable record) ∧ vault = filed records := by
  have normalized : ((StoredVaultYaml.default.withRecords records).secrets.map
      fun secret => { secret with key := normalizedKey secret.key }) =
        (inSection .secrets records).map asRead := by
    apply List.map_congr_left
    intro record member
    obtain ⟨row, classified, same⟩ := exists_row_of_mem member
    cases row with
    | secret => simp only [asRead, classified]
    | auth | join | member | sentinelShare => cases same
  unfold fromRecords
  rw [bind_eq_ok]
  constructor
  · rintro ⟨middle, folded, done⟩
    obtain ⟨filable, rfl⟩ := foldlM_addRecord.mp folded
    refine ⟨filable, ?_⟩
    rw [← Except.ok.inj done, normalized]
    rfl
  · rintro ⟨filable, rfl⟩
    refine ⟨_, foldlM_addRecord.mpr ⟨filable, rfl⟩, ?_⟩
    rw [normalized]
    rfl

end StoredVaultYaml

end Nook.Vault
