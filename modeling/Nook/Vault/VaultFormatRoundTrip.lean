import Nook.Auth.VaultMetaRoundTrip
import Nook.Vault.VaultReadBack
import Mathlib.Tactic.DeriveCountable

set_option autoImplicit false

namespace Nook.Vault

open Nook.Lib Nook.EventLog Nook.Auth

/-! ### The first line -/

/-- Trimming leaves a text's start without white space. -/
theorem trim_lead_append {lead : Str} (rest : Str) (nonempty : lead ≠ [])
    (plain : ∀ char ∈ lead, isWhitespace char = false) :
    trim (lead ++ rest) = lead ++ rest.rdropWhile isWhitespace := by
  have starts : ∀ char ∈ (lead ++ rest).head?, isWhitespace char = false := by
    intro char first
    rw [List.head?_append_of_ne_nil _ nonempty] at first
    exact plain char (List.mem_of_mem_head? first)
  rw [trim_eq_rdropWhile starts]
  unfold List.rdropWhile
  rw [List.reverse_append, List.dropWhile_append]
  split
  · rename_i nothing
    have kept : lead.reverse.dropWhile isWhitespace = lead.reverse := by
      rw [List.dropWhile_eq_self_iff]
      intro positive
      have member : lead.reverse[0] ∈ lead := List.mem_reverse.mp (List.getElem_mem positive)
      exact Bool.eq_false_iff.mp (plain _ member)
    rw [List.isEmpty_iff.mp nothing, kept, List.reverse_reverse, List.reverse_nil, List.append_nil]
  · rw [List.reverse_append, List.reverse_reverse]

theorem splitOn_lead_append {lead : Str} (rest : Str) {separator : Char}
    (absent : separator ∉ lead) : ∃ line others,
      (lead ++ rest).splitOn separator = (lead ++ line) :: others := by
  induction lead with
  | nil =>
    cases pieces : rest.splitOn separator with
    | nil => exact absurd pieces (List.splitOn_ne_nil _ _)
    | cons line others => exact ⟨line, others, pieces⟩
  | cons head tail ih =>
    obtain ⟨line, others, split⟩ := ih fun member => absent (List.mem_cons_of_mem _ member)
    have differs : (head == separator) = false := by
      rw [beq_eq_false_iff_ne]
      rintro rfl
      exact absent (List.mem_cons_self ..)
    refine ⟨line, others, ?_⟩
    rw [List.cons_append, List.splitOn_cons_eq_if_modifyHead, differs, split]
    rfl

theorem schemaVersionLead : ∀ char ∈ "schema_version:".toList, isWhitespace char = false := by
  have plain : ("schema_version:".toList.all fun char => !isWhitespace char) = true := by decide
  intro char member
  simpa using List.all_eq_true.mp plain char member

/-- A text that starts with the document's first field is a vault. -/
theorem detect_of_starts {text : Str} (starts : startsWith text "schema_version:".toList = true) :
    (trim text).isEmpty = false ∧ VaultFormatDocument.detect text = .ok .yaml := by
  obtain ⟨rest, rfl⟩ := List.isPrefixOf_iff_prefix.mp starts
  have some : "schema_version:".toList ≠ [] := by decide
  have trimmed := trim_lead_append rest some schemaVersionLead
  have filled : (trim ("schema_version:".toList ++ rest)).isEmpty = false := by
    rw [trimmed]
    rfl
  obtain ⟨line, others, split⟩ := splitOn_lead_append (rest.rdropWhile isWhitespace)
    (show '\n' ∉ "schema_version:".toList by decide)
  have first := trim_lead_append line some schemaVersionLead
  have detected : Sync.VaultFormatDocument.detect ("schema_version:".toList ++ rest) = .ok () := by
    unfold Sync.VaultFormatDocument.detect
    dsimp only
    rw [filled, if_neg (by simp), trimmed, split, List.map_cons, List.find?_cons, first]
    rfl
  refine ⟨filled, ?_⟩
  unfold VaultFormatDocument.detect
  rw [detected]
  rfl

/-! ### Reading a written document -/

section

variable [VaultYamlText]

/-- A document of the current schema that its own readers accept. -/
structure Readable (vault : StoredVaultYaml) : Prop where
  current : vault.schemaVersion = Sync.VaultSchemaVersion.current
  checked : vault.checked = some vault

variable {vault : StoredVaultYaml}

omit [VaultYamlText] in
theorem Readable.rename (readable : Readable vault) (name : VaultName) :
    Readable { vault with name } where
  current := readable.current
  checked := by
    have accepted := readable.checked
    unfold StoredVaultYaml.checked at accepted ⊢
    split at accepted
    · rename_i passes
      exact if_pos passes
    · cases accepted

namespace VaultFormatDocument

/-- What each reader finds in the text of a document. -/
structure Finds (text : Str) (vault : StoredVaultYaml) : Prop where
  detect : detect text = .ok .yaml
  schemaVersion : schemaVersion text = .ok vault.schemaVersion
  name : name text = .ok (match vault.name with
    | .named name => VaultName.fromNamed name
    | .unnamed => .unnamed)
  rename : ∀ label, rename text label =
    .ok (VaultYamlText.print { vault with name := VaultName.fromNamed label })
  version : version text = .ok vault.vaultVersion
  storeId : storeId text = (match vault.storeId with
    | .assigned id => do
      let id ← (StoreId.parse id).mapError fun cause => .revision (.validation cause)
      return .assigned id.asStr
    | .unassigned => .ok .unassigned)
  architecture : architecture text = .ok vault.architecture
  records [JsonText] : deserializeYaml text = vault.intoStoredRecords

theorem finds_print (codec : VaultYamlText.Exact) (readable : Readable vault)
    (sound : vault.architecture.validate = .ok ()) : Finds (VaultYamlText.print vault) vault := by
  obtain ⟨filled, detected⟩ := detect_of_starts (codec.starts vault)
  have read : fromYaml (trim (VaultYamlText.print vault)) = some vault := by
    unfold fromYaml
    rw [codec.reads, Option.bind_some, readable.checked]
  have supported : ensureSupported vault.schemaVersion = .ok () := by
    rw [readable.current]
    rfl
  constructor
  · exact detected
  · unfold schemaVersion
    simp only [filled, Bool.false_eq_true, if_false, detected, read]
    rfl
  · unfold name
    simp only [filled, Bool.false_eq_true, if_false, detected, read, supported]
    cases vault.name <;> rfl
  · intro label
    unfold rename
    simp only [filled, Bool.false_eq_true, if_false, detected, read, supported]
    rfl
  · unfold version
    simp only [filled, Bool.false_eq_true, if_false, detected, read, supported]
    rfl
  · unfold storeId
    simp only [filled, Bool.false_eq_true, if_false, detected, read, supported]
    cases vault.storeId <;> rfl
  · unfold architecture
    simp only [filled, Bool.false_eq_true, if_false, detected, read, supported, sound]
    rfl
  · intro json
    unfold deserializeYaml
    simp only [filled, Bool.false_eq_true, if_false, read, supported]
    rfl

end VaultFormatDocument

/-! ### Writing records -/

namespace VaultRecordSet

variable [AgeRecipients] [JsonText] {records : List StoredSecretRecord}
  {storeId : VaultStoreIdentityRef} {label : VaultNameRef} {vaultVersion : VaultVersionWrite}
  {architecture : VaultArchitecture} {text : Str}

/-- The document that records are written to. -/
def document (records : List StoredSecretRecord) (storeId : Sync.VaultStoreIdentity)
    (label : VaultNameRef) (vaultVersion : VaultVersionWrite) (architecture : VaultArchitecture) :
    StoredVaultYaml :=
  { StoredVaultYaml.filed records with
    schemaVersion := Sync.VaultSchemaVersion.current
    vaultVersion := match vaultVersion with
      | .initial => 0
      | .version version => version
    storeId
    name := VaultName.fromRef label
    architecture }

theorem write_eq_ok :
    writeYamlWithNameArchitecture records storeId label vaultVersion architecture = .ok text ↔
      architecture.validateRecords records = .ok () ∧ (∀ record ∈ records, Filable record) ∧
        ∃ store, resolveStoreId storeId = .ok store ∧
          text = VaultYamlText.print (document records store label vaultVersion architecture) := by
  unfold writeYamlWithNameArchitecture
  rw [bind_eq_ok]
  constructor
  · rintro ⟨⟨⟩, valid, written⟩
    obtain ⟨vault, filed, written⟩ := bind_eq_ok.mp written
    obtain ⟨store, resolved, written⟩ := bind_eq_ok.mp written
    obtain ⟨filable, rfl⟩ := StoredVaultYaml.fromRecords_eq_ok.mp filed
    exact ⟨mapError_eq_ok.mp valid, filable, store, resolved, (Except.ok.inj written).symm⟩
  · rintro ⟨valid, filable, store, resolved, rfl⟩
    exact ⟨(), mapError_eq_ok.mpr valid, bind_eq_ok.mpr
      ⟨_, StoredVaultYaml.fromRecords_eq_ok.mpr ⟨filable, rfl⟩,
        bind_eq_ok.mpr ⟨store, resolved, rfl⟩⟩⟩

omit [VaultYamlText] [AgeRecipients] [JsonText] in
theorem isOk_tryFrom {raw : Str} (some : trim raw ≠ []) : (SecretId.tryFrom raw).isOk = true := by
  unfold SecretId.tryFrom
  rw [if_neg (by simpa using some)]
  rfl

omit [VaultYamlText] in
/-- The document's own readers accept it, if no kept record has a blank key. -/
theorem readable_document {store : Sync.VaultStoreIdentity}
    (labelled : ∀ record ∈ records, isKept record = true → trim record.key.asStr ≠ [])
    (sound : architecture.validate = .ok ()) :
    Readable (document records store label vaultVersion architecture) where
  current := rfl
  checked := by
    have cloned : ∀ own, ∀ record ∈ inSection own records,
        (SecretId.tryFrom record.key.asStr).isOk = true := by
      intro own record member
      obtain ⟨listed, kept, _⟩ := mem_inSection.mp member
      exact isOk_tryFrom (labelled record listed kept)
    have secrets : ∀ read ∈ (inSection .secrets records).map asRead,
        (SecretId.tryFrom read.key.asStr).isOk = true := by
      intro read member
      obtain ⟨record, listed, rfl⟩ := List.mem_map.mp member
      obtain ⟨row, classified, same⟩ := exists_row_of_mem listed
      have own := StoredVaultYaml.tryFrom_normalizedKey (cloned .secrets record listed)
      cases row with
      | secret =>
        simp only [asRead, classified]
        exact own
      | auth | join | member | sentinelShare => cases same
    have labels : ((document records store label vaultVersion architecture).secrets ++
        (document records store label vaultVersion architecture).joins ++
          (document records store label vaultVersion architecture).sentinelShares).all
            (fun record => (SecretId.tryFrom record.key.asStr).isOk) = true := by
      rw [List.all_eq_true]
      intro record member
      rcases List.mem_append.mp member with first | share
      · rcases List.mem_append.mp first with secret | join
        · exact secrets record secret
        · exact cloned .joins record join
      · exact cloned .sentinelShares record share
    have accepted : (document records store label vaultVersion
        architecture).architecture.validate.isOk = true := by
      show architecture.validate.isOk = true
      rw [sound]
      rfl
    unfold StoredVaultYaml.checked
    rw [labels, accepted]
    rfl

omit [VaultYamlText] in
theorem validate_of_validateRecords (valid : architecture.validateRecords records = .ok ()) :
    architecture.validate = .ok () := by
  obtain ⟨⟨⟩, sound, _⟩ := bind_eq_ok.mp valid
  exact sound

omit [VaultYamlText] in
theorem intoStoredRecords_document (store : Sync.VaultStoreIdentity) (label : VaultNameRef)
    (name : VaultName) :
    StoredVaultYaml.intoStoredRecords
      { document records store label vaultVersion architecture with name } =
        .ok (readBack records) :=
  intoStoredRecords_filed records _ rfl rfl rfl rfl rfl

/-- The stored vault file keeps every record. What is written is read back as the records that
are not browser-local, section by section and in their order, each as it is read; these are
written as the same text, unless a share was passed over as browser-local. The text is detected,
and renaming it changes the name and nothing else that is read. -/
theorem stored_vault_keeps_records (codec : VaultYamlText.Exact)
    (records : List StoredSecretRecord) (storeId : VaultStoreIdentityRef) (label : VaultNameRef)
    (vaultVersion : VaultVersionWrite) (architecture : VaultArchitecture) (text : Str)
    (readsBack : EnvelopesReadBack records)
    (labelled : ∀ record ∈ records, isKept record = true → trim record.key.asStr ≠ [])
    (written : writeYamlWithNameArchitecture records storeId label vaultVersion architecture =
      .ok text) :
    VaultFormatDocument.deserializeYaml text = .ok (readBack records) ∧
    ((∀ record ∈ records, isKept record = false → shareRow record = none) →
      writeYamlWithNameArchitecture (readBack records) storeId label vaultVersion architecture =
        .ok text) ∧
    VaultFormatDocument.detect text = .ok .yaml ∧
    VaultFormatDocument.name text = .ok (VaultName.fromRef label) ∧
    ∀ other : Str, ∃ renamed, VaultFormatDocument.rename text other = .ok renamed ∧
      VaultFormatDocument.name renamed = .ok (VaultName.fromNamed other) ∧
      VaultFormatDocument.deserializeYaml renamed = .ok (readBack records) ∧
      VaultFormatDocument.storeId renamed = VaultFormatDocument.storeId text ∧
      VaultFormatDocument.version renamed = VaultFormatDocument.version text ∧
      VaultFormatDocument.architecture renamed = VaultFormatDocument.architecture text ∧
      VaultFormatDocument.schemaVersion renamed = VaultFormatDocument.schemaVersion text := by
  obtain ⟨valid, filable, store, resolved, rfl⟩ := write_eq_ok.mp written
  have sound := validate_of_validateRecords valid
  have readable : Readable (document records store label vaultVersion architecture) :=
    readable_document labelled sound
  have finds := VaultFormatDocument.finds_print codec readable sound
  have named : ∀ raw : Str, (match VaultName.fromNamed raw with
      | .named name => VaultName.fromNamed name
      | .unnamed => .unnamed) = VaultName.fromNamed raw := by
    intro raw
    unfold VaultName.fromNamed
    dsimp only
    by_cases blank : (trim raw).isEmpty = true
    · rw [if_pos blank]
    · rw [if_neg blank]
      dsimp only
      rw [trim_trim, if_neg blank]
  refine ⟨finds.records.trans (intoStoredRecords_document store label _), ?_, finds.detect, ?_, ?_⟩
  · intro apart
    refine write_eq_ok.mpr ⟨validateRecords_readBack readsBack apart valid,
      filable_readBack readsBack, store, resolved, ?_⟩
    unfold document
    rw [filed_readBack readsBack]
  · rw [finds.name]
    cases label with
    | unnamed => rfl
    | named raw => exact congrArg Except.ok (named raw)
  · intro other
    have again := VaultFormatDocument.finds_print codec
      (readable.rename (VaultName.fromNamed other)) sound
    have read := again.records.trans (intoStoredRecords_document store label _)
    refine ⟨_, finds.rename other, ?_, read, ?_, ?_, ?_, ?_⟩
    · rw [again.name]
      exact congrArg Except.ok (named other)
    · rw [again.storeId, finds.storeId]
    · rw [again.version, finds.version]
    · rw [again.architecture, finds.architecture]
    · rw [again.schemaVersion, finds.schemaVersion]

end VaultRecordSet

end

namespace TestSupport

open VaultRecordSet Nook.Auth.TestSupport

attribute [local instance] metaJson metaRecipients

/-- A login under an exact id. -/
def login : StoredSecretRecord :=
  ⟨⟨"secret_abcdefghijk".toList⟩, .secret .login, ⟨"ciphertext".toList⟩⟩

/-- The login under its id with a space before it. -/
def paddedLogin : StoredSecretRecord := { login with key := ⟨" secret_abcdefghijk".toList⟩ }

/-- The document of the login alone. -/
def loginVault : StoredVaultYaml := document [login] .unassigned .unnamed .initial .default

def loginText : Str :=
  ("schema_version: 1\nsecrets:\n- id: secret_abcdefghijk\n  type: login\n" ++
    "  data: ciphertext\n").toList

/-! Documents are countable, so that each has a text of its own. -/

instance countableChar : Countable Char := Function.Injective.countable fun _ _ => Char.toNat_inj.mp
instance countableStr : Countable Str := inferInstanceAs (Countable (List Char))
instance countableUInt8 : Countable UInt8 := Function.Injective.countable fun _ _ => UInt8.toNat_inj.mp
instance countableUInt32 : Countable UInt32 := Function.Injective.countable fun _ _ => UInt32.toNat_inj.mp
instance countableUInt64 : Countable UInt64 := Function.Injective.countable fun _ _ => UInt64.toNat_inj.mp

instance countableText {kind : TextKind} : Countable (Text kind) := Text.asStr_injective.countable

deriving instance Countable for SecretType
deriving instance Countable for RecordTypeDeclaration
deriving instance Countable for StoredSecretRecord
deriving instance Countable for Sync.VaultStoreIdentity
deriving instance Countable for DeviceMode
deriving instance Countable for VaultType
deriving instance Countable for ReplicationType
deriving instance Countable for SentinelPolicy
deriving instance Countable for SentinelConfiguration
deriving instance Countable for VaultArchitecture
deriving instance Countable for VaultName
deriving instance Countable for AuthYamlRecord
deriving instance Countable for MembersYamlRecord
deriving instance Countable for StoredVaultYaml

theorem exists_index : ∃ index : StoredVaultYaml → Nat, Function.Injective index :=
  Countable.exists_injective_nat _

noncomputable def index : StoredVaultYaml → Nat := exists_index.choose

/-- A text of its own for each document, for one of them what the YAML writer gives. -/
noncomputable def printVault (vault : StoredVaultYaml) : Str :=
  if vault = loginVault then loginText
  else "schema_version:".toList ++ List.replicate (index vault) '1'

theorem trim_printVault {vault : StoredVaultYaml} (other : vault ≠ loginVault) :
    trim (printVault vault) = printVault vault := by
  apply trim_of_no_whitespace
  intro char member
  unfold printVault at member
  rw [if_neg other] at member
  rcases List.mem_append.mp member with lead | digit
  · exact schemaVersionLead char lead
  · rw [List.eq_of_mem_replicate digit]
    decide

/-- Distinct documents have distinct texts, also when trimmed. -/
theorem printVault_inj {vault other : StoredVaultYaml}
    (same : trim (printVault vault) = trim (printVault other)) : vault = other := by
  have space : ' ' ∈ trim (printVault loginVault) := by
    unfold printVault
    rw [if_pos rfl]
    decide +kernel
  have dense : ∀ vault, vault ≠ loginVault → ' ' ∉ trim (printVault vault) := by
    intro vault differs
    rw [trim_printVault differs]
    unfold printVault
    rw [if_neg differs, List.mem_append, List.mem_replicate]
    rintro (lead | ⟨_, digit⟩)
    · exact absurd lead (by decide)
    · exact absurd digit (by decide)
  by_cases own : vault = loginVault
  · by_contra differs
    rw [own] at same differs
    exact dense other (Ne.symm differs) (same ▸ space)
  · by_cases own' : other = loginVault
    · rw [own'] at same
      exact absurd (same ▸ space) (dense vault own)
    · rw [trim_printVault own, trim_printVault own'] at same
      unfold printVault at same
      rw [if_neg own, if_neg own'] at same
      have long := congrArg List.length (List.append_cancel_left same)
      rw [List.length_replicate, List.length_replicate] at long
      exact exists_index.choose_spec long

open Classical in
@[reducible] noncomputable def loginYaml : VaultYamlText where
  print := printVault
  parse text := if found : ∃ vault, trim (printVault vault) = text then some found.choose else none

attribute [local instance] loginYaml

theorem loginYaml_exact : VaultYamlText.Exact where
  reads vault := by
    have found : ∃ other, trim (printVault other) = trim (printVault vault) := ⟨vault, rfl⟩
    exact (dif_pos found).trans (congrArg some (printVault_inj found.choose_spec))
  starts vault := by
    show startsWith (printVault vault) "schema_version:".toList = true
    unfold printVault
    split
    · decide
    · exact List.isPrefixOf_iff_prefix.mpr (List.prefix_append _ _)

theorem write_login : writeYamlWithNameArchitecture [login] .unassigned .unnamed .initial
    .default = .ok loginText := by
  have text : printVault loginVault = loginText := if_pos rfl
  have classified : classify login = .ok (.secret login.key .login login.value) := by
    decide +kernel
  refine write_eq_ok.mpr ⟨by decide +kernel, ?_, .unassigned, rfl, text.symm⟩
  intro record member
  rw [List.mem_singleton.mp member]
  exact ⟨fun passed => absurd passed (by decide +kernel), fun _ => ⟨_, classified⟩⟩

/-- The login alone is read back, and written as the same text again. -/
theorem stored_vault_keeps_records_login :
    VaultFormatDocument.deserializeYaml loginText = .ok [login] ∧
      writeYamlWithNameArchitecture [login] .unassigned .unnamed .initial .default =
        .ok loginText ∧
      VaultFormatDocument.name loginText = .ok .unnamed := by
  have classified : classify login = .ok (.secret login.key .login login.value) := by
    decide +kernel
  have readsBack : EnvelopesReadBack [login] := by
    intro record member authId envelopes auth
    rw [List.mem_singleton.mp member, classified] at auth
    cases auth
  have labelled : ∀ record ∈ [login], isKept record = true → trim record.key.asStr ≠ [] := by
    intro record member _
    rw [List.mem_singleton.mp member]
    decide
  have kept := stored_vault_keeps_records loginYaml_exact [login] .unassigned .unnamed .initial
    .default loginText readsBack labelled write_login
  have own : readBack [login] = [login] := by decide +kernel
  rw [own] at kept
  refine ⟨kept.1, kept.2.1 ?_, kept.2.2.2.1⟩
  intro record member passed
  rw [List.mem_singleton.mp member] at passed
  exact absurd passed (by decide +kernel)

/-- The record with the envelopes of an auth row in canonical JSON. -/
def upToJson (record : StoredSecretRecord) : StoredSecretRecord :=
  match classify record with
  | .ok (.auth _ envelopes) => { record with value := ⟨JsonText.print envelopes.toJson⟩ }
  | _ => record

/-- A secret whose id has a space before it comes back under the exact id. -/
theorem padded_secret_renamed :
    ¬ ∀ (records : List StoredSecretRecord) (text : Str),
      writeYamlWithNameArchitecture records .unassigned .unnamed .initial .default = .ok text →
        VaultFormatDocument.deserializeYaml text =
          .ok (VaultSection.all.flatMap fun own => (inSection own records).map upToJson) := by
  intro exact
  have classified : classify paddedLogin =
      .ok (.secret paddedLogin.key .login paddedLogin.value) := by decide +kernel
  have valid : VaultArchitecture.default.validateRecords [paddedLogin] = .ok () := by
    decide +kernel
  have filable : ∀ record ∈ [paddedLogin], Filable record := by
    intro record member
    rw [List.mem_singleton.mp member]
    exact ⟨fun passed => absurd passed (by decide +kernel), fun _ => ⟨_, classified⟩⟩
  have labelled : ∀ record ∈ [paddedLogin], isKept record = true →
      trim record.key.asStr ≠ [] := by
    intro record member _
    rw [List.mem_singleton.mp member]
    decide
  have same := exact [paddedLogin] _ (write_eq_ok.mpr ⟨valid, filable, .unassigned, rfl, rfl⟩)
  have sound := validate_of_validateRecords valid
  have finds := VaultFormatDocument.finds_print loginYaml_exact
    (readable_document labelled sound :
      Readable (document [paddedLogin] .unassigned .unnamed .initial .default)) sound
  have back : (document [paddedLogin] .unassigned .unnamed .initial .default).intoStoredRecords =
      .ok (readBack [paddedLogin]) := intoStoredRecords_filed [paddedLogin] _ rfl rfl rfl rfl rfl
  rw [finds.records, back] at same
  exact absurd (Except.ok.inj same) (by decide +kernel)

end TestSupport

end Nook.Vault
