import Nook.Vault.SearchCatalogStore
import Nook.Vault.SearchQuery

set_option autoImplicit false

namespace Nook.Vault

open Nook.Lib Nook.EventLog Nook.Auth Nook.Recovery Nook.Secrets

namespace SecretSearchCatalog

/-! ### A second reconcile -/

section Again

variable [VaultCrypto] [SecretPayloadText] [CatalogHashes] [CatalogText] [UrlParser] [Casing]
  {catalog after : SecretSearchCatalog} {secrets : VaultSecrets}
  {crypto integrityKey : Auth.SymmetricKey} {outcome : SecretSearchCatalogReconcile}

/-- Hexadecimal text is read back. -/
def HexReadsBack : Prop :=
  ∀ bytes, CatalogHashes.hexDecode (CatalogHashes.hexEncode bytes) = some bytes

/-- The row of a reconciled secret can be used again. -/
theorem Reconciled.reusable (hex : HexReadsBack)
    (done : catalog.Reconciled secrets crypto integrityKey after outcome)
    {secret : SecretId × SecretType × StoredRecordPayload} (listed : secret ∈ secrets.listed) :
    ∃ row, after.reusableRow integrityKey secret = some row := by
  obtain ⟨row, made, found⟩ := done.rows secret listed
  refine ⟨row, reusableRow_eq_some.mpr ⟨found, ?_⟩⟩
  rcases rowFor_eq_ok.mp made with reused | ⟨_, fresh⟩
  · exact (reusableRow_eq_some.mp reused).2
  · obtain ⟨record, read, rfl⟩ := freshRow_eq_ok.mp fresh
    refine ⟨rfl, ?_, ?_⟩
    · show record.listItem.secretType = secret.2.1
      rw [SecretRecord.listItem_secretType, (VaultSecretSession.opened read).2.1]
    · unfold SecretSearchCatalogEntry.hasValidIntegrity SecretSearchCatalogEntry.new
        SecretSearchCatalogEntry.tag
      rw [hex]
      exact beq_self_eq_true _

/-- A second reconcile with the same secrets decrypts nothing and reports no change. -/
theorem reconcile_again_keeps (hex : HexReadsBack)
    (success : catalog.reconcile secrets crypto integrityKey = (after, .ok outcome)) :
    after.reconcile secrets crypto integrityKey = (after, .ok {}) := by
  have done := reconciled_of_ok success
  have rows : ∀ secret ∈ secrets.listed, ∃ row,
      after.rowFor crypto integrityKey secret = .ok row := by
    intro secret listed
    obtain ⟨row, reusable⟩ := done.reusable hex listed
    exact ⟨row, rowFor_eq_ok.mpr (.inl reusable)⟩
  have removed : after.removedIds secrets = [] := by
    unfold removedIds
    rw [List.filter_eq_nil_iff]
    intro id listed
    rw [Std.ExtTreeMap.mem_keys, BTreeMap.mem_iff_getElem?] at listed
    obtain ⟨entry, found⟩ := listed
    obtain ⟨secret, member, same, _⟩ := done.entry_iff.mp found
    rw [VaultSecrets.containsKey_iff.mpr ⟨secret, member, same⟩]
    decide
  have start : after.removedOutcome secrets = {} := by
    unfold removedOutcome
    rw [removed]
    rfl
  have counted : ∀ (list : List (SecretId × SecretType × StoredRecordPayload))
      (before : BTreeMap SecretId SecretSearchCatalogEntry)
      (result : SecretSearchCatalogReconcile × BTreeMap SecretId SecretSearchCatalogEntry),
      (∀ secret ∈ list, secret ∈ secrets.listed) →
      list.foldlM (after.reconcileSecret secrets crypto integrityKey) ({}, before) = .ok result →
      result.1 = {} := by
    intro list
    induction list with
    | nil =>
      intro before result _ folded
      cases folded
      rfl
    | cons head tail ih =>
      intro before result inside folded
      have listed := inside head List.mem_cons_self
      obtain ⟨row, reusable⟩ := done.reusable hex listed
      rw [List.foldlM_cons, reconcileSecret_eq listed, reusable] at folded
      obtain ⟨middle, first, rest⟩ := bind_eq_ok.mp folded
      obtain ⟨row', _, same⟩ := map_eq_ok.mp first
      rw [← same] at rest
      exact ih _ result (fun secret member => inside secret (List.mem_cons_of_mem _ member)) rest
  cases again : after.reconcile secrets crypto integrityKey with
  | mk second result =>
    cases result with
    | error cause =>
      obtain ⟨third, outcome', succeeded⟩ := reconcile_ok rows
      rw [succeeded] at again
      cases again
    | ok outcome' =>
      have done' := reconciled_of_ok again
      have entries : second.entries = after.entries := by
        apply BTreeMap.ext
        intro id
        by_cases known : id ∈ secrets.ids
        · obtain ⟨secret, listed, rfl⟩ := List.mem_map.mp known
          obtain ⟨row, reusable⟩ := done.reusable hex listed
          obtain ⟨row', made, found⟩ := done'.rows secret listed
          have kept : after.rowFor crypto integrityKey secret = .ok row :=
            rowFor_eq_ok.mpr (.inl reusable)
          rw [found, (reusableRow_eq_some.mp reusable).1, Except.ok.inj (made.symm.trans kept)]
        · rw [done.others id known, done'.others id known]
      have none : outcome' = {} := by
        unfold reconcile at again
        rw [start] at again
        cases folded : secrets.listed.foldlM (after.reconcileSecret secrets crypto integrityKey)
            ({}, ∅) with
        | error cause =>
          rw [folded] at again
          cases again
        | ok result =>
          rw [folded] at again
          cases again
          exact counted secrets.listed ∅ result (fun _ member => member) folded
      have version := done'.version
      obtain ⟨version', entries'⟩ := second
      obtain ⟨version'', entries''⟩ := after
      cases version
      cases entries
      rw [none]

end Again

/-! ### A bucket of any text -/

section Restored

variable [CatalogHashes] [CatalogText] [UrlParser] [Casing] {catalog next : SecretSearchCatalog}
  {bucket : UInt8} {json : Str}

omit [CatalogHashes] [CatalogText] [UrlParser] [Casing] in
/-- What is found after filing entries, some of one key, was filed or was there. -/
theorem filed_of_insertMany {Value : Type} {list : List (SecretId × Value)}
    {map : BTreeMap SecretId Value} {id : SecretId} {value : Value}
    (found : (map.insertMany list)[id]? = some value) :
    (id, value) ∈ list ∨ map[id]? = some value := by
  induction list generalizing map with
  | nil =>
    rw [Std.ExtTreeMap.insertMany_nil] at found
    exact .inr found
  | cons head tail ih =>
    rw [Std.ExtTreeMap.insertMany_cons] at found
    rcases ih found with later | held
    · exact .inl (List.mem_cons_of_mem _ later)
    · rw [BTreeMap.getElem?_insert_eq] at held
      split at held
      · rename_i same
        rw [← same, ← Option.some.inj held]
        exact .inl List.mem_cons_self
      · exact .inr held

omit [CatalogHashes] [UrlParser] [Casing] in
theorem readBucket_labelled {read : SecretSearchCatalogBucket} (success : readBucket json = .ok read)
    {row : SecretId × WrittenCatalogEntry} (listed : row ∈ read.entries) :
    (SecretId.tryFrom row.1.asStr).isOk = true := by
  obtain ⟨parsed, _, checked⟩ := bind_eq_ok.mp success
  split at checked
  · rename_i labels
    cases checked
    have label := List.all_eq_true.mp labels row listed
    exact (Bool.and_eq_true_iff.mp label).1
  · cases checked

omit [CatalogText] in
theorem restoreEntry_eq_ok {row : SecretId × WrittenCatalogEntry}
    {restored : SecretId × SecretSearchCatalogEntry} :
    catalog.restoreEntry bucket row = .ok restored ↔
      row.2.item.id = row.1 ∧ bucketFor row.1 = bucket ∧ row.1 ∉ catalog.entries ∧
        restored = (row.1, row.2.restoreSearchText) := by
  unfold restoreEntry
  by_cases placed : row.2.item.id ≠ row.1 ∨ bucketFor row.1 ≠ bucket
  · rw [if_pos placed]
    constructor
    · intro refused
      cases refused
    · rintro ⟨own, home, _⟩
      exact (placed.elim (absurd own) (absurd home))
  · rw [if_neg placed]
    simp only [not_or, ne_eq, not_not] at placed
    by_cases known : row.1 ∈ catalog.entries
    · rw [if_pos known]
      constructor
      · intro refused
        cases refused
      · rintro ⟨_, _, absent, _⟩
        exact absurd known absent
    · rw [if_neg known, Except.ok.injEq]
      exact ⟨fun same => ⟨placed.1, placed.2, known, same.symm⟩, fun all => all.2.2.2.symm⟩

/-- What a bucket that is restored adds to a catalog. -/
theorem restoreBucketJson_ok (success : catalog.restoreBucketJson bucket json = .ok next) :
    next.version = catalog.version ∧
      ∀ (id : SecretId) (entry : SecretSearchCatalogEntry), next.entries[id]? = some entry →
        catalog.entries[id]? = some entry ∨
          entry.item.id = id ∧ entry.normalizedSearchText = entry.item.normalizedSearchText ∧
            (SecretId.tryFrom id.asStr).isOk = true := by
  unfold restoreBucketJson at success
  split at success
  · cases success
  obtain ⟨read, parsed, success⟩ := bind_eq_ok.mp success
  rw [mapError_eq_ok] at parsed
  split at success
  · cases success
  obtain ⟨rows, restored, success⟩ := bind_eq_ok.mp success
  cases success
  refine ⟨rfl, ?_⟩
  intro id entry found
  rcases filed_of_insertMany found with filed | held
  · right
    obtain ⟨row, listed, same⟩ := (mem_of_mapM_eq_ok restored).mp filed
    obtain ⟨own, _, _, pair⟩ := restoreEntry_eq_ok.mp same
    cases pair
    rw [BTreeMap.mem_toList_iff] at listed
    have written : row ∈ read.entries := by
      rcases filed_of_insertMany listed with written | nowhere
      · exact written
      · rw [Std.ExtTreeMap.getElem?_empty] at nowhere
        cases nowhere
    exact ⟨own, rfl, readBucket_labelled parsed written⟩
  · exact .inl held

theorem Filed.restored (filed : catalog.Filed)
    (success : catalog.restoreBucketJson bucket json = .ok next) : next.Filed := by
  obtain ⟨version, rows⟩ := restoreBucketJson_ok success
  have each : ∀ (id : SecretId) (entry : SecretSearchCatalogEntry),
      next.entries[id]? = some entry → entry.item.id = id ∧
        entry.normalizedSearchText = entry.item.normalizedSearchText ∧
        (SecretId.tryFrom id.asStr).isOk = true := by
    intro id entry found
    rcases rows id entry found with held | checked
    · exact ⟨filed.own id entry held, filed.searchable id entry held,
        filed.labelled id entry held⟩
    · exact checked
  exact ⟨version.trans filed.version, fun id entry found => (each id entry found).1,
    fun id entry found => (each id entry found).2.1,
    fun id entry found => (each id entry found).2.2⟩

end Restored

end SecretSearchCatalog

/-! ### The session of an unlocked vault -/

inductive SecretSearchBucketMutation where
  | write (bucket : UInt8) (ciphertext : Str)
  | delete (bucket : UInt8)

inductive SearchSessionError where
  | database (reason : String)
  | session (cause : SessionError)

/-- What the manager holds of an unlocked vault for its search. -/
structure SearchSession where
  storeId : Str
  secrets : VaultSecrets
  searchCatalog : Option SecretSearchCatalog
  searchCatalogStoreId : Str
  searchCatalogDirty : Bool
  searchCatalogPendingBucketMask : SecretSearchCatalogBucketMask

inductive SessionCatalogAvailability where
  | unavailableStore
  | restore
  | reconcile
  | ready (catalog : SecretSearchCatalog)

namespace SearchSession

def noSecrets : VaultSecrets := ⟨[], List.nodup_nil, fun _ listed => (List.not_mem_nil listed).elim⟩

/-- A session before a vault is opened, and after one is left. -/
def reset : SearchSession := ⟨[], noSecrets, none, [], true, 0⟩

def catalogAvailability (session : SearchSession) : SessionCatalogAvailability :=
  if session.storeId.isEmpty then .unavailableStore
  else if session.searchCatalogStoreId ≠ session.storeId then .restore
  else
    match session.searchCatalog with
    | none => .restore
    | some catalog => if session.searchCatalogDirty then .reconcile else .ready catalog

/-- Take the secrets a projection shows. -/
def adopt (session : SearchSession) (secrets : VaultSecrets) : SearchSession :=
  { session with secrets, searchCatalogDirty := true }

section Prepare

variable [VaultCrypto] [SecretPayloadText] [CatalogHashes] [CatalogText] [UrlParser] [Casing]

def restoreBucket (secretsKey : Auth.SymmetricKey) (catalog : SecretSearchCatalog)
    (stored : UInt8 × Str) : Except SessionError SecretSearchCatalog := do
  let ciphertext ← (AgeArmoredCiphertext.parse stored.2).mapError .vaultCrypto
  let plaintext ← (VaultCrypto.decryptValue secretsKey ciphertext).mapError .vaultCrypto
  catalog.restoreBucketJson stored.1 plaintext

/-- The catalog of the stored buckets, if the database gives them and each is valid. -/
def restoredCatalog (secretsKey : Auth.SymmetricKey) (loaded : Option (List (UInt8 × Str))) :
    Option SecretSearchCatalog :=
  loaded.bind fun buckets => (buckets.foldlM (restoreBucket secretsKey) .default).toOption

/-- A session without a catalog of its store restores it, or starts from an empty one. -/
def ensureCatalog (session : SearchSession) (secretsKey : Auth.SymmetricKey)
    (loaded : Option (List (UInt8 × Str))) : SearchSession :=
  match session.catalogAvailability with
  | .restore =>
    { session with
      searchCatalog := some ((restoredCatalog secretsKey loaded).getD .default)
      searchCatalogStoreId := session.storeId
      searchCatalogDirty := true }
  | _ => session

def reconcileCatalog (session : SearchSession) (secretsKey : Auth.SymmetricKey) :
    SearchSession × Except SearchSessionError Unit :=
  if ¬ session.searchCatalogDirty then (session, .ok ())
  else
    match session.searchCatalog with
    | none => (session, .error (.database "Secret search catalog is unavailable."))
    | some catalog =>
      match catalog.reconcile session.secrets secretsKey secretsKey with
      | (after, .error cause) =>
        ({ session with searchCatalog := some after }, .error (.session cause))
      | (after, .ok outcome) =>
        ({ session with
            searchCatalog := some after
            searchCatalogDirty := false
            searchCatalogPendingBucketMask := outcome.changedBuckets.foldl
              (fun mask bucket => mask ||| SecretSearchCatalogBucketMask.forBucket bucket)
              session.searchCatalogPendingBucketMask }, .ok ())

/-- The writes of the pending buckets. -/
def preparedWrites (catalog : SecretSearchCatalog) (secretsKey : Auth.SymmetricKey)
    (entropy : Str) (pendingMask : SecretSearchCatalogBucketMask) :
    Except SessionError (List SecretSearchBucketMutation) :=
  (allBuckets.filter (SecretSearchCatalogBucketMask.contains pendingMask)).mapM fun bucket => do
    match ← catalog.bucketJson bucket with
    | .json json =>
      let ciphertext ← (VaultCrypto.encryptValue secretsKey json entropy).mapError .vaultCrypto
      return .write bucket ciphertext.asStr
    | .empty => return .delete bucket

/-- Hand the pending buckets to the database, which may refuse them. -/
def persistPending (session : SearchSession) (secretsKey : Auth.SymmetricKey) (entropy : Str)
    (saved : Bool) : SearchSession × Except SearchSessionError (List SecretSearchBucketMutation) :=
  let pendingMask := session.searchCatalogPendingBucketMask
  if pendingMask = 0 then (session, .ok [])
  else
    match session.searchCatalog with
    | none => (session, .error (.database "Secret search catalog is unavailable."))
    | some catalog =>
      match preparedWrites catalog secretsKey entropy pendingMask with
      | .error cause => (session, .error (.session cause))
      | .ok writes =>
        if saved then
          ({ session with searchCatalogPendingBucketMask := pendingMask &&& ~~~pendingMask },
            .ok writes)
        else (session, .ok writes)

/-- `prepare_secret_search_catalog`, with what the database loads and whether it saves. -/
def prepare (session : SearchSession) (secretsKey : Auth.SymmetricKey)
    (loaded : Option (List (UInt8 × Str))) (entropy : Str) (saved : Bool) :
    SearchSession × Except SearchSessionError (List SecretSearchBucketMutation) :=
  if session.storeId.isEmpty then
    (session, .error (.database "Vault store id is unavailable for search."))
  else
    match (session.ensureCatalog secretsKey loaded).reconcileCatalog secretsKey with
    | (reconciled, .error cause) => (reconciled, .error cause)
    | (reconciled, .ok _) => reconciled.persistPending secretsKey entropy saved

/-- The page of a search: of the catalog while it is ready, else of the decrypted secrets. -/
def querySecretPage (session : SearchSession) (secretsKey : Auth.SymmetricKey) (query : Str)
    (filter : SecretTypeFilter) (offset limit : Nat) : Except SessionError SecretPage :=
  match session.catalogAvailability with
  | .ready catalog => .ok (catalog.query query filter offset limit)
  | _ => VaultSecretSession.query session.secrets secretsKey query filter offset limit

end Prepare

end SearchSession

/-! ### Runs of a session -/

inductive SearchEvent where
  | select (storeId : Str)
  | adopt (secrets : VaultSecrets)
  | prepare (loaded : Option (List (UInt8 × Str))) (entropy : Str) (saved : Bool)
  | reset

namespace SearchSession

variable [VaultCrypto] [SecretPayloadText] [CatalogHashes] [CatalogText] [UrlParser] [Casing]

def step (secretsKey : Auth.SymmetricKey) (session : SearchSession) :
    SearchEvent → SearchSession
  | .select storeId => { session with storeId }
  | .adopt secrets => session.adopt secrets
  | .prepare loaded entropy saved => (session.prepare secretsKey loaded entropy saved).1
  | .reset => reset

def run (secretsKey : Auth.SymmetricKey) (session : SearchSession) (events : List SearchEvent) :
    SearchSession :=
  events.foldl (step secretsKey) session

/-- What a run meets: payloads seen before, and stored buckets in which no one without the key
signed a row. -/
def Met (secretsKey : Auth.SymmetricKey) (seen : Set StoredRecordPayload) : SearchEvent → Prop
  | .select _ => True
  | .adopt secrets => ∀ secret ∈ secrets.listed, secret.2.2 ∈ seen
  | .prepare loaded _ _ => ∀ catalog, restoredCatalog secretsKey loaded = some catalog →
      catalog.Genuine secretsKey secretsKey seen
  | .reset => True

/-- A session whose catalog is its own and, unless it is dirty, shows the vault's secrets. -/
structure Faithful (secretsKey : Auth.SymmetricKey) (seen : Set StoredRecordPayload)
    (session : SearchSession) : Prop where
  met : ∀ secret ∈ session.secrets.listed, secret.2.2 ∈ seen
  filed : ∀ catalog, session.searchCatalog = some catalog → catalog.Filed
  genuine : ∀ catalog, session.searchCatalog = some catalog →
    catalog.Genuine secretsKey secretsKey seen
  shown : session.searchCatalogDirty = false → ∀ catalog, session.searchCatalog = some catalog →
    catalog.Mirrors session.secrets secretsKey

variable {secretsKey : Auth.SymmetricKey} {seen : Set StoredRecordPayload}
  {session : SearchSession}

theorem faithful_reset : reset.Faithful secretsKey seen where
  met _ listed := (List.not_mem_nil listed).elim
  filed _ ready := by cases ready
  genuine _ ready := by cases ready
  shown clean := by cases clean

omit [SecretPayloadText] in
theorem filed_restoredCatalog {loaded : Option (List (UInt8 × Str))}
    {catalog : SecretSearchCatalog} (restored : restoredCatalog secretsKey loaded = some catalog) :
    catalog.Filed := by
  obtain ⟨buckets, _, folded⟩ := Option.bind_eq_some_iff.mp restored
  rw [toOption_eq_some] at folded
  apply foldlM_keeps _ SecretSearchCatalog.filed_default folded
  intro stored _ part next filed success
  obtain ⟨ciphertext, _, success⟩ := bind_eq_ok.mp success
  obtain ⟨plaintext, _, success⟩ := bind_eq_ok.mp success
  exact filed.restored success

theorem Faithful.ensureCatalog (faithful : session.Faithful secretsKey seen)
    {loaded : Option (List (UInt8 × Str))}
    (unforged : ∀ catalog, restoredCatalog secretsKey loaded = some catalog →
      catalog.Genuine secretsKey secretsKey seen) :
    (session.ensureCatalog secretsKey loaded).Faithful secretsKey seen := by
  unfold SearchSession.ensureCatalog
  cases session.catalogAvailability with
  | restore =>
    refine ⟨faithful.met, ?_, ?_, fun clean => by cases clean⟩
    · intro catalog ready
      cases restored : restoredCatalog secretsKey loaded with
      | none =>
        rw [restored] at ready
        cases ready
        exact SecretSearchCatalog.filed_default
      | some held =>
        rw [restored] at ready
        cases ready
        exact filed_restoredCatalog restored
    · intro catalog ready
      cases restored : restoredCatalog secretsKey loaded with
      | none =>
        rw [restored] at ready
        cases ready
        exact SecretSearchCatalog.genuine_default seen
      | some held =>
        rw [restored] at ready
        cases ready
        exact unforged _ restored
  | unavailableStore => exact faithful
  | reconcile => exact faithful
  | ready catalog => exact faithful

theorem Faithful.reconcileCatalog (codec : CatalogText.Exact)
    (apart : Set.InjOn SecretSearchCatalogEntry.digestOf seen)
    (faithful : session.Faithful secretsKey seen) :
    (session.reconcileCatalog secretsKey).1.Faithful secretsKey seen := by
  unfold SearchSession.reconcileCatalog
  by_cases dirty : session.searchCatalogDirty = true
  · rw [if_neg (by simpa using dirty)]
    cases held : session.searchCatalog with
    | none => exact faithful
    | some catalog =>
      have filed := faithful.filed catalog held
      have genuine := faithful.genuine catalog held
      dsimp only
      cases result : catalog.reconcile session.secrets secretsKey secretsKey with
      | mk after outcome =>
        cases outcome with
        | error cause =>
          rw [SecretSearchCatalog.unchanged_of_error result]
          refine ⟨faithful.met, ?_, ?_, ?_⟩
          · intro other ready
            cases ready
            exact filed
          · intro other ready
            cases ready
            exact genuine
          · intro clean
            exact absurd (dirty.symm.trans clean) (by decide)
        | ok outcome =>
          have done := SecretSearchCatalog.reconciled_of_ok result
          refine ⟨faithful.met, ?_, ?_, ?_⟩
          · intro other ready
            cases ready
            exact filed.reconciled done
          · intro other ready
            cases ready
            exact genuine.reconciled faithful.met done
          · intro _ other ready
            cases ready
            exact done.mirrors codec filed apart faithful.met genuine
  · rw [if_pos (by simpa using dirty)]
    exact faithful

theorem Faithful.persistPending (faithful : session.Faithful secretsKey seen) (entropy : Str)
    (saved : Bool) :
    (session.persistPending secretsKey entropy saved).1.Faithful secretsKey seen := by
  unfold SearchSession.persistPending
  by_cases none : session.searchCatalogPendingBucketMask = 0
  · rw [if_pos none]
    exact faithful
  · rw [if_neg none]
    cases held : session.searchCatalog with
    | none => exact faithful
    | some catalog =>
      dsimp only
      cases preparedWrites catalog secretsKey entropy session.searchCatalogPendingBucketMask with
      | error cause => exact faithful
      | ok writes =>
        cases saved with
        | false => exact faithful
        | true =>
          exact ⟨faithful.met, fun other ready => faithful.filed other (held.trans ready),
            fun other ready => faithful.genuine other (held.trans ready),
            fun clean other ready => faithful.shown clean other (held.trans ready)⟩

theorem Faithful.step (codec : CatalogText.Exact)
    (apart : Set.InjOn SecretSearchCatalogEntry.digestOf seen)
    (faithful : session.Faithful secretsKey seen) {event : SearchEvent}
    (met : Met secretsKey seen event) : (session.step secretsKey event).Faithful secretsKey seen := by
  cases event with
  | select storeId => exact ⟨faithful.met, faithful.filed, faithful.genuine, faithful.shown⟩
  | adopt secrets => exact ⟨met, faithful.filed, faithful.genuine, fun clean => by cases clean⟩
  | reset => exact faithful_reset
  | prepare loaded entropy saved =>
    show (session.prepare secretsKey loaded entropy saved).1.Faithful secretsKey seen
    unfold SearchSession.prepare
    by_cases closed : session.storeId.isEmpty = true
    · rw [if_pos closed]
      exact faithful
    · rw [if_neg closed]
      have reconciled := (faithful.ensureCatalog met).reconcileCatalog codec apart
      cases result : (session.ensureCatalog secretsKey loaded).reconcileCatalog secretsKey with
      | mk next outcome =>
        rw [result] at reconciled
        cases outcome with
        | error cause => exact reconciled
        | ok _ => exact reconciled.persistPending entropy saved

theorem Faithful.run (codec : CatalogText.Exact)
    (apart : Set.InjOn SecretSearchCatalogEntry.digestOf seen)
    (faithful : session.Faithful secretsKey seen) {events : List SearchEvent}
    (met : ∀ event ∈ events, Met secretsKey seen event) :
    (session.run secretsKey events).Faithful secretsKey seen := by
  induction events generalizing session with
  | nil => exact faithful
  | cons event events ih =>
    exact ih (faithful.step codec apart (met event List.mem_cons_self))
      fun other member => met other (List.mem_cons_of_mem _ member)

/-- In every run of a session, through changed secrets, other stores, lost and refused buckets,
a search shows exactly the page that decrypting the vault's secrets gives, also when it is
answered from the catalog. -/
theorem session_pages_are_decrypted (codec : CatalogText.Exact) (casing : AsciiCasing)
    (secretsKey : Auth.SymmetricKey) (seen : Set StoredRecordPayload)
    (apart : Set.InjOn SecretSearchCatalogEntry.digestOf seen) (events : List SearchEvent)
    (met : ∀ event ∈ events, Met secretsKey seen event) (query : Str) (filter : SecretTypeFilter)
    (offset limit : Nat) :
    (reset.run secretsKey events).querySecretPage secretsKey query filter offset limit =
      VaultSecretSession.query (reset.run secretsKey events).secrets secretsKey query filter offset
        limit := by
  have faithful : (reset.run secretsKey events).Faithful secretsKey seen :=
    faithful_reset.run codec apart met
  unfold querySecretPage
  cases available : (reset.run secretsKey events).catalogAvailability with
  | unavailableStore => rfl
  | restore => rfl
  | reconcile => rfl
  | ready catalog =>
    unfold catalogAvailability at available
    split at available
    · cases available
    split at available
    · cases available
    split at available
    · cases available
    rename_i ready
    split at available
    · cases available
    rename_i clean
    cases available
    have mirrors := faithful.shown (by simpa using clean) catalog ready
    exact (mirrors.same_page casing query filter offset limit).symm

end SearchSession

end Nook.Vault

namespace Nook.Vault.TestSupport

open SecretSearchCatalog Nook.EventLog Nook.EventLog.TestSupport Nook.Recovery

attribute [local instance] catalogHashes catalogCrypto catalogPayloads catalogHosts catalogCasing
  catalogText

theorem catalogCasing_ascii : AsciiCasing := fun _ _ => rfl

theorem hexBytes_hexEncode (bytes : Bytes) : hexBytes (hexEncode bytes) = some bytes := by
  have each : ∀ byte : UInt8, ∃ high low,
      hexDigit (hexChar (byte.toNat / 16)) = some high ∧
      hexDigit (hexChar (byte.toNat % 16)) = some low ∧ UInt8.ofNat (16 * high + low) = byte := by
    intro byte
    have digits : ∀ digit < 16, hexDigit (hexChar digit) = some digit := by decide +kernel
    have bound : byte.toNat < 256 := byte.toNat_lt
    refine ⟨byte.toNat / 16, byte.toNat % 16, digits _ (by omega), digits _ (by omega), ?_⟩
    rw [Nat.div_add_mod]
    exact UInt8.ofNat_toNat
  induction bytes with
  | nil => rfl
  | cons byte bytes ih =>
    obtain ⟨high, low, first, second, whole⟩ := each byte
    show hexBytes (hexChar (byte.toNat / 16) :: hexChar (byte.toNat % 16) :: hexEncode bytes) = _
    unfold hexBytes
    rw [first, second, ih, ← whole]
    rfl

/-- The login is found in the reconciled catalog as in the decrypted secrets. -/
theorem catalog_page_is_decrypted_page_login :
    ∃ after outcome, loginCatalog.reconcile loginSecrets catalogKey catalogKey =
        (after, .ok outcome) ∧
      VaultSecretSession.query loginSecrets catalogKey "Alice".toList .all 0 50 =
        .ok (after.query "Alice".toList .all 0 50) := by
  obtain ⟨after, outcome, done⟩ := reconcile_ok rows_loginCatalog
  refine ⟨after, outcome, done, ?_⟩
  exact catalog_page_is_decrypted_page catalogText_exact catalogCasing_ascii filed_loginCatalog
    (Set.injOn_singleton _ _) (fun secret listed => by rw [List.mem_singleton.mp listed]; rfl)
    genuine_loginCatalog done "Alice".toList .all 0 50

/-- The login is not decrypted a second time. -/
theorem reconcile_again_keeps_login :
    ∃ after outcome, loginCatalog.reconcile loginSecrets catalogKey catalogKey =
        (after, .ok outcome) ∧
      after.reconcile loginSecrets catalogKey catalogKey = (after, .ok {}) := by
  obtain ⟨after, outcome, done⟩ := reconcile_ok rows_loginCatalog
  exact ⟨after, outcome, done, reconcile_again_keeps hexBytes_hexEncode done⟩

/-- A session takes the login, prepares its search and lets the login be found. -/
theorem session_pages_are_decrypted_login :
    let events := [.select "store_abcdefghijk".toList, .adopt loginSecrets,
      SearchEvent.prepare none [] true]
    (SearchSession.reset.run catalogKey events).querySecretPage catalogKey "Alice".toList .all
        0 50 =
      VaultSecretSession.query (SearchSession.reset.run catalogKey events).secrets catalogKey
        "Alice".toList .all 0 50 := by
  apply SearchSession.session_pages_are_decrypted catalogText_exact catalogCasing_ascii
    catalogKey {catalogPayload} (Set.injOn_singleton _ _)
  intro event member
  rcases List.mem_cons.mp member with rfl | member
  · trivial
  rcases List.mem_cons.mp member with rfl | member
  · intro secret listed
    rw [List.mem_singleton.mp listed]
    rfl
  · rw [List.mem_singleton.mp member]
    intro catalog restored
    cases restored

end Nook.Vault.TestSupport
