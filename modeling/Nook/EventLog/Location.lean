import Nook.EventLog.Canonical
import Nook.EventLog.TestSupport

set_option autoImplicit false

namespace Nook.EventLog

open Nook.Lib

/-- The root every provider target keeps its identities and vaults under. -/
def providerRootDir : Str := "meta-secret-nook".toList
/-- The folder that holds an identity's control log inside its identity folder. -/
def identityLogDir : Str := "log".toList
/-- The folder that holds a namespace's event files. -/
def eventsDir : Str := "events".toList
def vaultTagPrefix : Str := "vault:".toList
def identityTagPrefix : Str := "identity:".toList

/-- A store id as the constructors of `StoreId` build it. -/
abbrev ParsedStoreId := { id : StoreId // StoreId.parse id.asStr = .ok id }

/-- Which event log a sync reads or writes. -/
inductive EventLogLocation where
  | vault (storeId : ParsedStoreId)
  | identity (identityId : IdentityId)
  deriving DecidableEq

/-- One namespace filed under the identity folder that holds it. -/
@[ext] structure PlacedNamespace where
  identity : IdentityId
  location : EventLogLocation
  /-- A control log is filed in the folder of its own identity. -/
  own : ∀ identityId, location = .identity identityId → identityId = identity
  deriving DecidableEq

namespace PlacedNamespace

def identityLog (identity : IdentityId) : PlacedNamespace where
  identity
  location := .identity identity
  own := fun _ same => (EventLogLocation.identity.inj same).symm

def vault (identity : IdentityId) (storeId : ParsedStoreId) : PlacedNamespace where
  identity
  location := .vault storeId
  own := fun _ same => nomatch same

/-! ### Provider paths -/

/-- The identity's folder under the provider root. -/
def identityDir (placed : PlacedNamespace) : Str :=
  providerRootDir ++ '/' :: placed.identity.asStr

/-- This namespace's folder name inside its identity folder. -/
def folderName (placed : PlacedNamespace) : Str :=
  match placed.location with
  | .vault storeId => storeId.val.asStr
  | .identity _ => identityLogDir

/-- The folder holding this namespace's event files. -/
def root (placed : PlacedNamespace) : Str :=
  placed.identityDir ++ '/' :: placed.folderName ++ '/' :: eventsDir

/-- Immutable path of one event under this namespace. -/
def eventPath (placed : PlacedNamespace) (eventId : EventId) : Str :=
  placed.root ++ '/' :: eventId.encodedDigest ++ ".yaml".toList

/-- Derive the event id from a path under this namespace, if it is one. -/
def eventIdFromPath [External] (placed : PlacedNamespace) (path : Str) : Option EventId := do
  let file ← stripPrefix (← stripPrefix path placed.root) ['/']
  let digest ← stripSuffix file ".yaml".toList
  if digest.contains '/' then none
  else (EventId.parse ("sha256u:".toList ++ digest)).toOption

/-- An identity id written out in full, as a folder or tag names it. -/
def exactIdentity (raw : Str) : Option IdentityId :=
  (IdentityId.parse raw).toOption.filter fun id => id.asStr == raw

/-- A store id written out in full, as a folder or tag names it. -/
def exactStore (raw : Str) : Option ParsedStoreId :=
  match parsed : StoreId.parse raw with
  | .ok id => if same : id.asStr = raw then some ⟨id, same.symm ▸ parsed⟩ else none
  | .error _ => none

/-- The namespace an identity folder name and a folder inside it name. -/
def fromFolders (identity folder : Str) : Option PlacedNamespace := do
  let identity ← exactIdentity identity
  if folder = identityLogDir then some (identityLog identity)
  else (exactStore folder).map fun storeId => vault identity storeId

/-- The namespace an event file path sits in, when it is an event file directly
under a namespace's `events` folder. -/
def fromEventPath (path : Str) : Option PlacedNamespace := do
  let rest ← stripPrefix (← stripPrefix path providerRootDir) ['/']
  match rest.splitOn '/' with
  | [identity, folder, events, file] =>
    if events ≠ eventsDir then none
    else if file.isEmpty then none
    else fromFolders identity folder
  | _ => none

/-! ### CloudKit tags -/

/-- `CloudKit`'s namespace tag. The store id comes first so a vault is found by
prefix without knowing its identity. -/
def cloudkitTag (placed : PlacedNamespace) : Str :=
  match placed.location with
  | .vault storeId => vaultTagPrefix ++ storeId.val.asStr ++ ':' :: placed.identity.asStr
  | .identity identity => identityTagPrefix ++ identity.asStr

/-- The namespace a `CloudKit` tag names. -/
def fromCloudkitTag (tag : Str) : Option PlacedNamespace :=
  match stripPrefix tag identityTagPrefix with
  | some identity => (exactIdentity identity).map identityLog
  | none => do
    let (storeId, identity) ← splitOnce (← stripPrefix tag vaultTagPrefix) ':'
    return vault (← exactIdentity identity) (← exactStore storeId)

/-! ### Folders and ids written out in full -/

theorem exactIdentity_eq_some {raw : Str} {id : IdentityId} :
    exactIdentity raw = some id ↔ id.asStr = raw ∧ id.IsCanonical := by
  unfold exactIdentity
  constructor
  · intro found
    cases parsed : IdentityId.parse raw with
    | error cause => simp [parsed, Except.toOption] at found
    | ok own =>
      simp only [parsed, Except.toOption, Option.filter_some, beq_iff_eq] at found
      split at found
      · rename_i same
        cases found
        exact ⟨same, IdentityId.isCanonical_of_parse parsed⟩
      · cases found
  · rintro ⟨rfl, canonical⟩
    simp [canonical.parse_asStr, Except.toOption]

theorem exactStore_eq_some {raw : Str} {storeId : ParsedStoreId} :
    exactStore raw = some storeId ↔ storeId.val.asStr = raw := by
  unfold exactStore
  constructor
  · intro found
    split at found
    · split at found
      · rename_i same
        cases found
        exact same
      · cases found
    · cases found
  · rintro rfl
    split
    · rename_i own parsed
      have same : own = storeId.val := Except.ok.inj (parsed.symm.trans storeId.property)
      subst same
      rw [dif_pos rfl]
    · rename_i cause refused
      rw [storeId.property] at refused
      cases refused

theorem isUrlSafe_folderName (placed : PlacedNamespace) :
    ∀ char ∈ placed.folderName, isUrlSafe char = true := by
  unfold folderName
  split
  · rename_i storeId _
    exact StoreId.isUrlSafe_of_parsed storeId.property
  · exact List.all_eq_true.mp (by decide)

theorem slash_not_mem_folderName (placed : PlacedNamespace) : '/' ∉ placed.folderName :=
  not_mem_of_isUrlSafe placed.isUrlSafe_folderName (by decide)

/-- No store id reads like the folder of a control log. -/
theorem store_ne_identityLogDir (storeId : ParsedStoreId) : storeId.val.asStr ≠ identityLogDir := by
  obtain ⟨token, _, same⟩ := StoreId.parse_eq_ok storeId.property
  intro equal
  rw [same] at equal
  exact absurd (congrArg List.head? equal) (by simp [identityLogDir])

theorem location_of_identity {placed : PlacedNamespace} {identityId : IdentityId}
    (located : placed.location = .identity identityId) : placed = identityLog placed.identity := by
  apply PlacedNamespace.ext
  · rfl
  · rw [located, placed.own identityId located]
    rfl

/-- A namespace is its identity and its folder name. -/
theorem eq_of_folderName {placed other : PlacedNamespace} (identity : placed.identity = other.identity)
    (folder : placed.folderName = other.folderName) : placed = other := by
  cases located : placed.location with
  | vault storeId =>
    cases located' : other.location with
    | vault storeId' =>
      have same : storeId = storeId' := by
        apply Subtype.ext
        apply Text.asStr_injective
        simpa [folderName, located, located'] using folder
      apply PlacedNamespace.ext identity
      rw [located, located', same]
    | identity identityId =>
      simp only [folderName, located, located'] at folder
      exact absurd folder (store_ne_identityLogDir storeId)
  | identity identityId =>
    cases located' : other.location with
    | vault storeId =>
      simp only [folderName, located, located'] at folder
      exact absurd folder.symm (store_ne_identityLogDir storeId)
    | identity identityId' =>
      rw [location_of_identity located, location_of_identity located', identity]

theorem fromFolders_eq_some {identity folder : Str} {placed : PlacedNamespace} :
    fromFolders identity folder = some placed ↔
      placed.identity.asStr = identity ∧ placed.identity.IsCanonical ∧
        placed.folderName = folder := by
  unfold fromFolders
  constructor
  · intro found
    obtain ⟨own, exact, rest⟩ := Option.bind_eq_some_iff.mp found
    have written := exactIdentity_eq_some.mp exact
    split at rest
    · rename_i log
      cases rest
      exact ⟨written.1, written.2, log.symm⟩
    · obtain ⟨storeId, stored, same⟩ := Option.map_eq_some_iff.mp rest
      subst same
      exact ⟨written.1, written.2, exactStore_eq_some.mp stored⟩
  · rintro ⟨written, canonical, rfl⟩
    rw [exactIdentity_eq_some.mpr ⟨written, canonical⟩]
    change (if placed.folderName = identityLogDir then some (identityLog placed.identity)
      else (exactStore placed.folderName).map fun storeId => vault placed.identity storeId) =
        some placed
    cases located : placed.location with
    | vault storeId =>
      have folder : placed.folderName = storeId.val.asStr := by simp [folderName, located]
      rw [folder, if_neg (store_ne_identityLogDir storeId), exactStore_eq_some.mpr rfl]
      exact congrArg some (eq_of_folderName rfl folder.symm)
    | identity identityId =>
      have folder : placed.folderName = identityLogDir := by simp [folderName, located]
      rw [if_pos folder]
      exact congrArg some (eq_of_folderName rfl folder.symm)

/-! ### Paths -/

theorem eventPath_inj_digest {placed : PlacedNamespace} {eventId : EventId} {digest : Str}
    (same : placed.eventPath eventId = placed.root ++ '/' :: digest ++ ".yaml".toList) :
    eventId.encodedDigest = digest := by
  unfold eventPath at same
  have cut := List.append_cancel_right same
  exact (List.cons.inj (List.append_cancel_left cut)).2

/-- Whether the digest in a file name is followed by white space. -/
def hasPaddedDigest (path : Str) : Bool :=
  ((stripSuffix path ".yaml".toList).bind List.getLast?).any isWhitespace

theorem hasPaddedDigest_eq (placed : PlacedNamespace) (digest : Str) :
    hasPaddedDigest (placed.root ++ '/' :: digest ++ ".yaml".toList) =
      digest.getLast?.any isWhitespace := by
  have named : stripSuffix (placed.root ++ '/' :: digest ++ ".yaml".toList) ".yaml".toList =
      some (placed.root ++ '/' :: digest) := stripSuffix_eq_some.mpr rfl
  have slash : isWhitespace '/' = false := by decide
  unfold hasPaddedDigest
  rw [named, Option.bind_some, List.getLast?_append, List.getLast?_cons]
  cases digest.getLast? with
  | none => simp [slash]
  | some last => simp

theorem fromEventPath_eq_some {path : Str} {placed : PlacedNamespace} :
    fromEventPath path = some placed ↔ placed.identity.IsCanonical ∧
      ∃ file, file ≠ [] ∧ '/' ∉ file ∧ path = placed.root ++ '/' :: file := by
  have written : ∀ file, placed.root ++ '/' :: file = providerRootDir ++ '/' ::
      List.intercalate ['/'] [placed.identity.asStr, placed.folderName, eventsDir, file] := by
    intro file
    simp [root, identityDir, List.intercalate]
  unfold fromEventPath
  constructor
  · intro found
    obtain ⟨tail, rooted, found⟩ := Option.bind_eq_some_iff.mp found
    obtain ⟨rest, slashed, found⟩ := Option.bind_eq_some_iff.mp found
    split at found
    · rename_i identity folder events file parts
      split at found
      · cases found
      · rename_i inEvents
        split at found
        · cases found
        · rename_i nonempty
          obtain ⟨same, canonical, folder⟩ := fromFolders_eq_some.mp found
          have joined : List.intercalate ['/'] (rest.splitOn '/') = rest := List.intercalate_splitOn '/'
          rw [parts, ← same, ← folder, not_not.mp inEvents] at joined
          have listed : file ∈ rest.splitOn '/' := by simp [parts]
          refine ⟨canonical, file, by simpa using nonempty, not_mem_of_mem_splitOn listed, ?_⟩
          rw [written, joined, stripPrefix_eq_some.mp rooted, stripPrefix_eq_some.mp slashed]
          simp
    · cases found
  · rintro ⟨canonical, file, nonempty, free, rfl⟩
    rw [written]
    have rooted : stripPrefix (providerRootDir ++ '/' :: List.intercalate ['/']
        [placed.identity.asStr, placed.folderName, eventsDir, file]) providerRootDir =
          some ('/' :: List.intercalate ['/']
            [placed.identity.asStr, placed.folderName, eventsDir, file]) :=
      stripPrefix_eq_some.mpr rfl
    have slashed : stripPrefix ('/' :: List.intercalate ['/']
        [placed.identity.asStr, placed.folderName, eventsDir, file]) ['/'] =
          some (List.intercalate ['/']
            [placed.identity.asStr, placed.folderName, eventsDir, file]) :=
      stripPrefix_eq_some.mpr rfl
    have parts : (List.intercalate ['/']
        [placed.identity.asStr, placed.folderName, eventsDir, file]).splitOn '/' =
          [placed.identity.asStr, placed.folderName, eventsDir, file] := by
      apply List.splitOn_intercalate
      · intro part member
        simp only [List.mem_cons, List.not_mem_nil, or_false] at member
        rcases member with rfl | rfl | rfl | rfl
        · exact not_mem_of_isUrlSafe canonical.isUrlSafe (by decide)
        · exact placed.slash_not_mem_folderName
        · decide
        · exact free
      · simp
    have filled : file.isEmpty = false := by simpa using nonempty
    simp only [rooted, slashed, parts, filled, Option.bind_eq_bind, Option.bind_some, ne_eq,
      not_true_eq_false, if_false, Bool.false_eq_true]
    exact fromFolders_eq_some.mpr ⟨rfl, canonical, rfl⟩

variable [External]

theorem eventIdFromPath_eq_some {placed : PlacedNamespace} {path : Str} {eventId : EventId} :
    placed.eventIdFromPath path = some eventId ↔
      ∃ digest, path = placed.root ++ '/' :: digest ++ ".yaml".toList ∧ '/' ∉ digest ∧
        EventId.parse ("sha256u:".toList ++ digest) = .ok eventId := by
  unfold eventIdFromPath
  constructor
  · intro found
    obtain ⟨rest, rooted, found⟩ := Option.bind_eq_some_iff.mp found
    obtain ⟨file, slashed, found⟩ := Option.bind_eq_some_iff.mp found
    obtain ⟨digest, named, found⟩ := Option.bind_eq_some_iff.mp found
    split at found
    · cases found
    · rename_i plain
      refine ⟨digest, ?_, by simpa using plain, ?_⟩
      · rw [stripPrefix_eq_some.mp rooted, stripPrefix_eq_some.mp slashed,
          stripSuffix_eq_some.mp named]
        simp
      · cases parsed : EventId.parse ("sha256u:".toList ++ digest) with
        | error cause =>
          rw [parsed] at found
          cases found
        | ok own =>
          rw [parsed] at found
          exact congrArg Except.ok (Option.some.inj found)
  · rintro ⟨digest, rfl, plain, parsed⟩
    have rooted : stripPrefix (placed.root ++ '/' :: digest ++ ".yaml".toList) placed.root =
        some ('/' :: digest ++ ".yaml".toList) := stripPrefix_eq_some.mpr (by simp)
    have slashed : stripPrefix ('/' :: digest ++ ".yaml".toList) ['/'] =
        some (digest ++ ".yaml".toList) := stripPrefix_eq_some.mpr (by simp)
    have named : stripSuffix (digest ++ ".yaml".toList) ".yaml".toList = some digest :=
      stripSuffix_eq_some.mpr rfl
    have kept : digest.contains '/' = false := by simpa using plain
    simp only [rooted, slashed, named, kept, parsed, Option.bind_eq_bind, Option.bind_some,
      Except.toOption, Bool.false_eq_true, if_false]

/-- The path of an event leads back to its id exactly where the id is written as
it is parsed. -/
theorem eventIdFromPath_eventPath (decoding : UrlSafeDecoding) (placed : PlacedNamespace)
    (eventId : EventId) : placed.eventIdFromPath (placed.eventPath eventId) = some eventId ↔
      EventId.parse eventId.asStr = .ok eventId := by
  rw [eventIdFromPath_eq_some]
  constructor
  · rintro ⟨digest, _, _, parsed⟩
    exact EventId.parse_asStr decoding parsed
  · intro parsed
    refine ⟨eventId.encodedDigest, rfl, ?_, ?_⟩
    · exact not_mem_of_isUrlSafe (EventId.isUrlSafe_encodedDigest decoding parsed) (by decide)
    · rw [EventId.lead_encodedDigest parsed, ← EventId.asStr_of_parse parsed, parsed]

/-- What a path accepted for an id is encoded as again. -/
theorem eventPath_eq_iff {placed : PlacedNamespace} {path : Str} {eventId : EventId}
    (found : placed.eventIdFromPath path = some eventId) :
    placed.eventPath eventId = path ↔ hasPaddedDigest path = false := by
  obtain ⟨digest, rfl, _, parsed⟩ := eventIdFromPath_eq_some.mp found
  have starts : ∀ char ∈ ("sha256u:".toList ++ digest).head?, isWhitespace char = false := by
    intro char first
    cases first
    decide
  have ends : ("sha256u:".toList ++ digest).getLast? = some (digest.getLast?.getD ':') := by
    rw [List.getLast?_append]
    cases digest.getLast? <;> rfl
  have kept : placed.eventPath eventId = placed.root ++ '/' :: digest ++ ".yaml".toList ↔
      trim ("sha256u:".toList ++ digest) = "sha256u:".toList ++ digest := by
    rw [← EventId.lead_encodedDigest parsed, List.append_cancel_left_eq]
    exact ⟨eventPath_inj_digest, fun same => by rw [eventPath, same]⟩
  rw [kept, trim_eq_self_iff starts, ends, hasPaddedDigest_eq]
  have colon : isWhitespace ':' = false := by decide
  cases digest.getLast? with
  | none => simp [colon]
  | some last => simp

/-- Two events share a path only if they are one event of one namespace. -/
theorem eventPath_inj (decoding : UrlSafeDecoding) {placed other : PlacedNamespace}
    {eventId otherId : EventId} (parsed : EventId.parse eventId.asStr = .ok eventId)
    (parsed' : EventId.parse otherId.asStr = .ok otherId)
    (same : placed.eventPath eventId = other.eventPath otherId) :
    placed = other ∧ eventId = otherId := by
  have plain : '/' ∉ eventId.encodedDigest :=
    not_mem_of_isUrlSafe (EventId.isUrlSafe_encodedDigest decoding parsed) (by decide)
  have plain' : '/' ∉ otherId.encodedDigest :=
    not_mem_of_isUrlSafe (EventId.isUrlSafe_encodedDigest decoding parsed') (by decide)
  obtain ⟨roots, digests⟩ := append_cons_inj_last plain plain' (List.append_cancel_right same)
  have events : '/' ∉ eventsDir := by decide
  obtain ⟨folders, _⟩ := append_cons_inj_last events events roots
  obtain ⟨dirs, folder⟩ := append_cons_inj_last placed.slash_not_mem_folderName
    other.slash_not_mem_folderName folders
  have identity : placed.identity = other.identity := by
    apply Text.asStr_injective
    exact (List.cons.inj (List.append_cancel_left dirs)).2
  refine ⟨eq_of_folderName identity folder, Text.asStr_injective ?_⟩
  rw [EventId.asStr_of_parse parsed, EventId.asStr_of_parse parsed',
    ← EventId.lead_encodedDigest parsed, ← EventId.lead_encodedDigest parsed', digests]

/-! ### Tags -/

omit [External]

theorem cloudkitTag_vault {placed : PlacedNamespace} {storeId : ParsedStoreId}
    (located : placed.location = .vault storeId) : placed.cloudkitTag =
      vaultTagPrefix ++ (storeId.val.asStr ++ ':' :: placed.identity.asStr) := by
  simp [cloudkitTag, located]

theorem cloudkitTag_identity {placed : PlacedNamespace} {identityId : IdentityId}
    (located : placed.location = .identity identityId) :
    placed.cloudkitTag = identityTagPrefix ++ placed.identity.asStr := by
  simp [cloudkitTag, located, placed.own identityId located]

theorem colon_not_mem_store (storeId : ParsedStoreId) : ':' ∉ storeId.val.asStr :=
  not_mem_of_isUrlSafe (StoreId.isUrlSafe_of_parsed storeId.property) (by decide)

/-- A tag is accepted as exactly the namespace it is the tag of. -/
theorem fromCloudkitTag_eq_some {tag : Str} {placed : PlacedNamespace} :
    fromCloudkitTag tag = some placed ↔
      placed.cloudkitTag = tag ∧ placed.identity.IsCanonical := by
  unfold fromCloudkitTag
  constructor
  · intro found
    split at found
    · rename_i identity stripped
      obtain ⟨own, exact, same⟩ := Option.map_eq_some_iff.mp found
      subst same
      obtain ⟨written, canonical⟩ := exactIdentity_eq_some.mp exact
      refine ⟨?_, canonical⟩
      rw [stripPrefix_eq_some.mp stripped, ← written]
      rfl
    · obtain ⟨rest, stripped, found⟩ := Option.bind_eq_some_iff.mp found
      obtain ⟨⟨store, identity⟩, cut, found⟩ := Option.bind_eq_some_iff.mp found
      obtain ⟨own, exact, found⟩ := Option.bind_eq_some_iff.mp found
      obtain ⟨storeId, stored, found⟩ := Option.bind_eq_some_iff.mp found
      cases found
      obtain ⟨written, canonical⟩ := exactIdentity_eq_some.mp exact
      refine ⟨?_, canonical⟩
      rw [stripPrefix_eq_some.mp stripped, (splitOnce_eq_some.mp cut).1, ← written,
        ← exactStore_eq_some.mp stored, cloudkitTag_vault rfl]
      rfl
  · rintro ⟨rfl, canonical⟩
    have exact : exactIdentity placed.identity.asStr = some placed.identity :=
      exactIdentity_eq_some.mpr ⟨rfl, canonical⟩
    cases located : placed.location with
    | vault storeId =>
      have other : stripPrefix placed.cloudkitTag identityTagPrefix = none := by
        rw [cloudkitTag_vault located]
        rfl
      have stripped : stripPrefix placed.cloudkitTag vaultTagPrefix =
          some (storeId.val.asStr ++ ':' :: placed.identity.asStr) :=
        stripPrefix_eq_some.mpr (cloudkitTag_vault located)
      have cut : splitOnce (storeId.val.asStr ++ ':' :: placed.identity.asStr) ':' =
          some (storeId.val.asStr, placed.identity.asStr) :=
        splitOnce_eq_some.mpr ⟨rfl, colon_not_mem_store storeId⟩
      have stored : exactStore storeId.val.asStr = some storeId := exactStore_eq_some.mpr rfl
      simp only [other, stripped, cut, exact, stored, Option.bind_eq_bind, Option.bind_some]
      exact congrArg some (eq_of_folderName rfl (by simp only [folderName, located, vault]))
    | identity identityId =>
      have stripped : stripPrefix placed.cloudkitTag identityTagPrefix =
          some placed.identity.asStr :=
        stripPrefix_eq_some.mpr (cloudkitTag_identity located)
      simp only [stripped, exact, Option.map_some]
      exact congrArg some (location_of_identity located).symm

theorem fromCloudkitTag_cloudkitTag (placed : PlacedNamespace) :
    fromCloudkitTag placed.cloudkitTag = some placed ↔ placed.identity.IsCanonical := by
  rw [fromCloudkitTag_eq_some]
  exact ⟨fun found => found.2, fun canonical => ⟨rfl, canonical⟩⟩

/-- The two kinds of tag differ in their first letter. -/
theorem vaultTag_ne_identityTag (rest other : Str) :
    vaultTagPrefix ++ rest ≠ identityTagPrefix ++ other := by
  intro same
  have letters : 'v' = 'i' := (List.cons.inj same).1
  exact absurd letters (by decide)

theorem cloudkitTag_injective : Function.Injective cloudkitTag := by
  intro placed other same
  cases located : placed.location with
  | vault storeId =>
    rw [cloudkitTag_vault located] at same
    cases located' : other.location with
    | vault storeId' =>
      rw [cloudkitTag_vault located'] at same
      obtain ⟨stores, identities⟩ := append_cons_inj_first (colon_not_mem_store storeId)
        (colon_not_mem_store storeId') (List.append_cancel_left same)
      apply eq_of_folderName (Text.asStr_injective identities)
      simp only [folderName, located, located', stores]
    | identity identityId' =>
      rw [cloudkitTag_identity located'] at same
      exact absurd same (vaultTag_ne_identityTag _ _)
  | identity identityId =>
    rw [cloudkitTag_identity located] at same
    cases located' : other.location with
    | vault storeId' =>
      rw [cloudkitTag_vault located'] at same
      exact absurd same.symm (vaultTag_ne_identityTag _ _)
    | identity identityId' =>
      rw [cloudkitTag_identity located'] at same
      have identity := Text.asStr_injective (List.append_cancel_left same)
      rw [location_of_identity located, location_of_identity located', identity]

end PlacedNamespace

/-! ### Locations decode what they encode -/

namespace PlacedNamespace

/-- Paths and tags lead back to the ids they are written from exactly where these
are in the form the parsers and generators give them. What is read from a path is
written as that path again exactly where no white space follows the digest, since
`EventId::parse` trims; what is read from the folders of a path or from a tag is
always written the same. No two locations share a path or a tag. -/
theorem locations_decode_iff [External] (decoding : UrlSafeDecoding) :
    (∀ (placed : PlacedNamespace) (eventId : EventId),
      (placed.eventIdFromPath (placed.eventPath eventId) = some eventId ↔
        EventId.parse eventId.asStr = .ok eventId) ∧
      (fromCloudkitTag placed.cloudkitTag = some placed ↔ placed.identity.IsCanonical)) ∧
    (∀ (placed : PlacedNamespace) (path : Str) (eventId : EventId),
      placed.eventIdFromPath path = some eventId →
        (placed.eventPath eventId = path ↔ hasPaddedDigest path = false)) ∧
    (∀ (path : Str) (placed : PlacedNamespace), fromEventPath path = some placed →
      ∃ file : Str, '/' ∉ file ∧ path = placed.root ++ '/' :: file) ∧
    (∀ (tag : Str) (placed : PlacedNamespace), fromCloudkitTag tag = some placed →
      placed.cloudkitTag = tag) ∧
    (∀ (placed other : PlacedNamespace) (eventId otherId : EventId),
      EventId.parse eventId.asStr = .ok eventId → EventId.parse otherId.asStr = .ok otherId →
        placed.eventPath eventId = other.eventPath otherId → placed = other ∧ eventId = otherId) ∧
    Function.Injective cloudkitTag := by
  refine ⟨?_, ?_, ?_, ?_, ?_, cloudkitTag_injective⟩
  · intro placed eventId
    exact ⟨placed.eventIdFromPath_eventPath decoding eventId, placed.fromCloudkitTag_cloudkitTag⟩
  · intro placed path eventId found
    exact eventPath_eq_iff found
  · intro path placed found
    obtain ⟨_, file, _, plain, same⟩ := fromEventPath_eq_some.mp found
    exact ⟨file, plain, same⟩
  · intro tag placed found
    exact (fromCloudkitTag_eq_some.mp found).1
  · intro placed other eventId otherId parsed parsed' same
    exact eventPath_inj decoding parsed parsed' same

end PlacedNamespace

namespace TestSupport

/-! The URL-safe engine without padding, on the text of one digest and on any other. -/

def sextet (char : Char) : Option Nat :=
  if char.isUpper then some (char.toNat - 'A'.toNat)
  else if char.isLower then some (char.toNat - 'a'.toNat + 26)
  else if char.isDigit then some (char.toNat - '0'.toNat + 52)
  else if char = '-' then some 62
  else if char = '_' then some 63
  else none

/-- Four letters to three bytes; the bits left over at the end must be zero. -/
def base64Bytes : List Nat → Option Bytes
  | [] => some []
  | [_] => none
  | [a, b] => if b % 16 = 0 then some [UInt8.ofNat (4 * a + b / 16)] else none
  | [a, b, c] =>
    if c % 4 = 0 then some [UInt8.ofNat (4 * a + b / 16), UInt8.ofNat (16 * b + c / 4)] else none
  | a :: b :: c :: d :: rest => do
    let tail ← base64Bytes rest
    return UInt8.ofNat (4 * a + b / 16) :: UInt8.ofNat (16 * b + c / 4) ::
      UInt8.ofNat (64 * c + d) :: tail

def urlSafeNoPadDecode (text : Str) : Option Bytes := (text.mapM sextet).bind base64Bytes

/-- The third-party operations with the real base64 decoder. -/
@[reducible] def decodingExternal : External := { external with urlSafeNoPadDecode }

theorem isUrlSafe_of_sextet {char : Char} {value : Nat} (read : sextet char = some value) :
    isUrlSafe char = true := by
  unfold sextet at read
  unfold isUrlSafe Char.isAlphanum Char.isAlpha
  split at read
  · simp_all
  · split at read
    · simp_all
    · split at read
      · simp_all
      · split at read
        · simp_all
        · split at read
          · simp_all
          · cases read

theorem isUrlSafe_of_mapM {text : Str} {values : List Nat}
    (read : text.mapM sextet = some values) : ∀ char ∈ text, isUrlSafe char = true := by
  induction text generalizing values with
  | nil => simp
  | cons head rest ih =>
    rw [List.mapM_cons] at read
    obtain ⟨value, first, read⟩ := Option.bind_eq_some_iff.mp read
    obtain ⟨others, later, _⟩ := Option.bind_eq_some_iff.mp read
    exact List.forall_mem_cons.mpr ⟨isUrlSafe_of_sextet first, ih later⟩

theorem urlSafeDecoding : @UrlSafeDecoding decodingExternal := by
  intro text bytes decoded
  obtain ⟨values, read, _⟩ := Option.bind_eq_some_iff.mp
    (show (text.mapM sextet).bind base64Bytes = some bytes from decoded)
  exact isUrlSafe_of_mapM read

def locationIdentity : IdentityId := ⟨"idn_abcdefghijk".toList⟩

def locationStore : ParsedStoreId := ⟨⟨"store_abcdefghijk".toList⟩, by decide +kernel⟩

def locationEvent : EventId := ⟨"sha256u:ej6ZESIzRFVmd4iZqrvM3e7_ABEiM0RVZneImaq7zN0".toList⟩

/-- The file name of an event with a space behind the digest. -/
def paddedPath : Str :=
  "meta-secret-nook/idn_abcdefghijk/store_abcdefghijk/events/".toList ++
    "ej6ZESIzRFVmd4iZqrvM3e7_ABEiM0RVZneImaq7zN0 .yaml".toList

theorem eventIdFromPath_paddedPath :
    @PlacedNamespace.eventIdFromPath decodingExternal (.vault locationIdentity locationStore)
      paddedPath = some locationEvent := by
  decide +kernel

end TestSupport

namespace PlacedNamespace

open TestSupport

/-- The namespace and the event of a file, its path with white space behind the
digest, and the tag of a control log. -/
theorem locations_decode_iff_padded :
    @eventIdFromPath decodingExternal (vault locationIdentity locationStore)
        (eventPath (vault locationIdentity locationStore) locationEvent) = some locationEvent ∧
      eventPath (vault locationIdentity locationStore) locationEvent ≠ paddedPath ∧
      (identityLog locationIdentity).cloudkitTag = "identity:idn_abcdefghijk".toList := by
  have exact := @locations_decode_iff decodingExternal urlSafeDecoding
  refine ⟨((exact.1 _ _).1).mpr (by decide +kernel), ?_, ?_⟩
  · intro same
    have unpadded := (exact.2.1 _ _ _ eventIdFromPath_paddedPath).mp same
    exact absurd unpadded (by decide +kernel)
  · exact exact.2.2.2.1 _ _ (by decide +kernel)

/-- A path with white space behind the digest is accepted and written differently. -/
theorem padded_path_accepted :
    ¬ ∀ (placed : PlacedNamespace) (path : Str) (eventId : EventId),
      @eventIdFromPath decodingExternal placed path = some eventId →
        placed.eventPath eventId = path := by
  intro exact
  exact absurd (exact _ _ _ eventIdFromPath_paddedPath) (by decide +kernel)

end PlacedNamespace

end Nook.EventLog
