import Nook.Lib.Keyed
import Nook.Sync.StoredProvider

set_option autoImplicit false

namespace Nook.Sync

open Nook.Lib Nook.EventLog Nook.Recovery

/-! ### The saved rows -/

/-- The vault a row belongs to. Only this browser's own store belongs to one. -/
inductive ProviderVaultScope where
  | unscoped
  | storeId (id : Str)
  deriving DecidableEq

/-- The vault the snapshot's browser has selected, if one is. -/
inductive ActiveVaultScope where
  | unselected
  | storeId (id : Str)

inductive ProviderSyncedVaultVersion where
  | unknown
  | version (value : Nat)

inductive ProviderSyncRevision where
  | unknown
  | revision (text : Str)

inductive ProviderSyncCheckpoint where
  | neverSynced
  | synced (version : ProviderSyncedVaultVersion) (syncedAt : Str)
      (revision : ProviderSyncRevision) (commonContentHash : Str)

variable [ICloudTargetText] [Casing]

/-- One persisted sync provider row. -/
structure StorageProvider [ICloudTargetText] where
  id : Str
  label : Str
  storeId : ProviderVaultScope
  syncCheckpoint : ProviderSyncCheckpoint
  createdAt : Str
  provider : StoredProvider

/-- The provider rows plus the active vault scope. -/
structure AuthProvidersSnapshot [ICloudTargetText] where
  providers : List StorageProvider
  activeVaultStoreId : ActiveVaultScope

namespace StorageProvider

/-- A new row of `provider` that has never synced, labeled as its provider labels itself. -/
def neverSynced (id : Str) (storeId : ProviderVaultScope) (createdAt : Str)
    (provider : StoredProvider) : StorageProvider where
  id
  label := provider.label
  storeId
  syncCheckpoint := .neverSynced
  createdAt
  provider

def isLocal (row : StorageProvider) : Bool := row.provider.isLocal

def withStoreId (storeId : ProviderVaultScope) (row : StorageProvider) : StorageProvider :=
  { row with storeId }

def targetKey (row : StorageProvider) : ProviderTargetKey := row.provider.targetKey

end StorageProvider

/-! ### Rows visible for the active vault -/

/-- The active vault's id, when the scope names one. -/
def ActiveVaultScope.selected : ActiveVaultScope → Option Str
  | unselected => none
  | storeId id => if trim id = [] then none else some (trim id)

namespace ProviderRows

omit [Casing] in
/-- Provider rows visible for the active vault. -/
def active (providers : List StorageProvider) (activeStoreId : ActiveVaultScope) :
    List StorageProvider :=
  match activeStoreId with
  | .unselected => providers
  | .storeId id =>
    if trim id = [] then providers
    else providers.filter fun provider =>
      !provider.isLocal || provider.storeId == .storeId (trim id)

def sync (providers : List StorageProvider) (activeStoreId : ActiveVaultScope) :
    List StorageProvider :=
  (active providers activeStoreId).filter fun provider => !provider.isLocal

/-- The active vault's browser row, if it is seeded. -/
def localRow (providers : List StorageProvider) (activeStoreId : ActiveVaultScope) :
    Option StorageProvider :=
  (active providers activeStoreId).find? (·.isLocal)

end ProviderRows

inductive DuplicateCandidatePolicy where
  | includeAll
  | exclude (id : Str)

/-- The first row, outside the excluded one, with the candidate's target. -/
def DuplicateProviderSelection.find (providers : List StorageProvider)
    (candidate : StorageProvider) (policy : DuplicateCandidatePolicy) : Option StorageProvider :=
  providers.find? fun provider =>
    (match policy with
      | .exclude excluded => provider.id != excluded
      | .includeAll => true) && provider.targetKey == candidate.targetKey

/-! ### Seeding this browser's row -/

structure LocalProviderRowRequest where
  activeStoreId : ActiveVaultScope
  newId : Str
  createdAt : Str

inductive LocalProviderRowChange where
  | present
  | inserted
  deriving DecidableEq

structure LocalProviderRowOutcome [ICloudTargetText] where
  snapshot : AuthProvidersSnapshot
  change : LocalProviderRowChange

namespace AuthProvidersSnapshot

/-- The vault a new row of this browser is for: the requested one, or the active one. -/
def rowScope (snapshot : AuthProvidersSnapshot) (requested : ActiveVaultScope) :
    ProviderVaultScope :=
  match requested.selected with
  | some id => .storeId id
  | none =>
    match snapshot.activeVaultStoreId.selected with
    | some id => .storeId id
    | none => .unscoped

/-- Whether a row of this browser stands for a vault. A row without a vault stands for each. -/
def standsFor (storeId : ProviderVaultScope) (provider : StorageProvider) : Bool :=
  provider.isLocal &&
    match storeId, provider.storeId with
    | .unscoped, _ => true
    | _, .unscoped => true
    | .storeId active, .storeId existing => trim existing == [] || active == trim existing

/-- Seed this browser's row for the active vault unless one is there. -/
def ensureLocalRow (snapshot : AuthProvidersSnapshot) (request : LocalProviderRowRequest) :
    LocalProviderRowOutcome :=
  let storeId := snapshot.rowScope request.activeStoreId
  if snapshot.providers.any (standsFor storeId) then ⟨snapshot, .present⟩
  else
    ⟨{ snapshot with
        providers := .neverSynced request.newId storeId request.createdAt .localStore ::
          snapshot.providers },
      .inserted⟩

/-! ### Replacing rows by those of another app -/

/-- Whether a row stays when the grants of the active vault are replaced. -/
def isKept (activeStoreId : Str) (incomingIds : List Str) (provider : StorageProvider) : Bool :=
  if provider.isLocal then
    match provider.storeId with
    | .storeId id => trim id != [] && trim id != activeStoreId
    | .unscoped => false
  else !incomingIds.contains provider.id

/-- An incoming row, of which this browser's own is bound to the active vault. -/
def bound (activeStoreId : Str) (provider : StorageProvider) : StorageProvider :=
  if provider.isLocal then { provider with storeId := .storeId activeStoreId } else provider

/-- Replace the complete provider grant set for `incoming`'s active vault while preserving
provider rows owned by every other vault. -/
def replaceActiveVaultGrants (existing incoming : AuthProvidersSnapshot) : AuthProvidersSnapshot :=
  match incoming.activeVaultStoreId.selected with
  | none => incoming
  | some activeStoreId =>
    ⟨existing.providers.filter (isKept activeStoreId (incoming.providers.map (·.id))) ++
        incoming.providers.map (bound activeStoreId),
      .storeId activeStoreId⟩

/-- Take the keyring's remote providers another of its apps handed over. -/
def replaceKeyringProviders (existing : AuthProvidersSnapshot) (incoming : List StorageProvider) :
    AuthProvidersSnapshot :=
  { existing with
    providers := existing.providers.filter (·.isLocal) ++ incoming.filter (!·.isLocal) }

end AuthProvidersSnapshot

/-! ### Saving the provider being set up -/

/-- Whether the save adds a provider or saves the one already chosen. -/
inductive ProviderSaveSetup where
  | existing
  | new

/-- What a new provider that is already saved does to the save. -/
inductive DuplicateProviderHandling where
  | reject
  | keepExisting
  deriving DecidableEq

structure ProviderSaveRequest [ICloudTargetText] where
  snapshot : AuthProvidersSnapshot
  providerStoreId : ProviderVaultScope
  setup : ProviderSaveSetup
  duplicates : DuplicateProviderHandling
  draft : ProviderDraft
  newProviderId : Str
  createdAt : Str

inductive ProviderSaveOutcome [ICloudTargetText] where
  | saved (snapshot : AuthProvidersSnapshot) (draft : ProviderDraft)
  | duplicate
  | incomplete (gap : ProviderDraftGap)

/-- What the new-provider step did to the rows. The target is the id of the row to refresh. -/
inductive NewProviderStep [ICloudTargetText] where
  | added (rows : List StorageProvider) (mergeTarget : Option Str)
  | stopped (outcome : ProviderSaveOutcome)

namespace ProviderSaveRequest

/-- The new provider's row: an identity mount that keeps each vault apart. -/
def candidate (request : ProviderSaveRequest) (provider : StoredProvider) : StorageProvider :=
  .neverSynced request.newProviderId .unscoped request.createdAt provider

def addNewProvider (request : ProviderSaveRequest) : NewProviderStep :=
  match request.draft.complete with
  | .error gap => .stopped (.incomplete gap)
  | .ok provider =>
    let row := request.candidate provider
    let active := ProviderRows.active request.snapshot.providers
      request.snapshot.activeVaultStoreId
    match DuplicateProviderSelection.find active row .includeAll, request.duplicates with
    | some _, .reject => .stopped .duplicate
    | some _, .keepExisting => .added request.snapshot.providers none
    | none, _ =>
      .added (request.snapshot.providers ++ [row]) <|
        match provider with
        | .oauthFile _ => some row.id
        | _ => none

/-- Seed this browser's row when the setup adds it, scope the active vault's row, or seed one
for a vault the save names. -/
def seededLocalRows (request : ProviderSaveRequest) : List StorageProvider :=
  let providers := request.snapshot.providers
  let own := ProviderRows.localRow providers request.snapshot.activeVaultStoreId
  match request.setup, request.draft.kind, own, request.providerStoreId with
  | .new, .localStore, none, _ =>
    providers ++ [.neverSynced request.newProviderId request.providerStoreId request.createdAt
      .localStore]
  | _, _, some own, _ =>
    updateRow (·.id) own.id (·.withStoreId request.providerStoreId) providers
  | _, _, none, .storeId storeId =>
    (request.snapshot.ensureLocalRow
      ⟨.storeId storeId, request.newProviderId, request.createdAt⟩).snapshot.providers
  | _, _, none, .unscoped => providers

/-- The saved row of an id refreshed, and the draft the setup continues with. -/
def refresh (target : Str) (fresh : OAuthFileProvider) :
    List StorageProvider → ProviderDraft → List StorageProvider × ProviderDraft
  | [], draft => ([], draft)
  | provider :: rest, draft =>
    match provider.provider with
    | .oauthFile saved =>
      if provider.id = target then
        let merged : StoredProvider := .oauthFile (fresh.mergedInto saved)
        let (rows, draft) := refresh target fresh rest (.ofProvider merged)
        ({ provider with provider := merged } :: rows, draft)
      else
        let (rows, draft) := refresh target fresh rest draft
        (provider :: rows, draft)
    | _ =>
      let (rows, draft) := refresh target fresh rest draft
      (provider :: rows, draft)

/-- The row a sign-in reaches: the row just added, or the active vault's row with the same
target. -/
def reached (request : ProviderSaveRequest) (fresh : OAuthFileProvider)
    (providers : List StorageProvider) : Option Str → Option Str
  | some id => some id
  | none =>
    (DuplicateProviderSelection.find
      (ProviderRows.sync providers request.snapshot.activeVaultStoreId)
      (request.candidate (.oauthFile fresh)) .includeAll).map (·.id)

/-- A complete OAuth draft refreshes the saved row it reaches. -/
def mergeOauthSignIn (request : ProviderSaveRequest) (providers : List StorageProvider)
    (mergeTarget : Option Str) : List StorageProvider × ProviderDraft :=
  match request.draft.complete with
  | .ok (.oauthFile fresh) =>
    match request.reached fresh providers mergeTarget with
    | some target => refresh target fresh providers request.draft
    | none => (providers, request.draft)
  | _ => (providers, request.draft)

/-- A new remote provider is added unless it is saved already; otherwise this browser's row is
seeded or scoped. A signed-in, bound OAuth draft then refreshes the saved row it reaches. -/
def apply (request : ProviderSaveRequest) : ProviderSaveOutcome :=
  let step : NewProviderStep :=
    match request.setup, request.draft.kind with
    | .new, .localStore => .added request.seededLocalRows none
    | .existing, _ => .added request.seededLocalRows none
    | .new, _ => request.addNewProvider
  match step with
  | .added providers mergeTarget =>
    let (providers, draft) := request.mergeOauthSignIn providers mergeTarget
    .saved ⟨providers, request.snapshot.activeVaultStoreId⟩ draft
  | .stopped outcome => outcome

end ProviderSaveRequest

end Nook.Sync
