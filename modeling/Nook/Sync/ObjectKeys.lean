import Nook.EventLog.Location

set_option autoImplicit false

namespace Nook.Sync

open Nook.Lib Nook.EventLog

/-! ### Where a location starts in its bucket -/

/-- A control character of Unicode. -/
def isControl (char : Char) : Bool := char.toNat < 0x20 || (0x7f ≤ char.toNat && char.toNat < 0xa0)

/-- Whether a text is no prefix: it holds a control character, or one of its segments is
empty, `.` or `..`. -/
def damagedPrefix (path : Str) : Bool :=
  path.any isControl || (path.splitOn '/').any fun segment =>
    segment == [] || segment == ".".toList || segment == "..".toList

/-- A prefix's segments joined by `/`, with no slash around them. -/
structure S3KeyPrefixPath where
  asStr : Str
  exact : damagedPrefix asStr = false

inductive S3KeyPrefix where
  | bucketRoot
  | keyPrefix (path : S3KeyPrefixPath)

/-- The key a provider path takes: `path` or `prefix/path`. -/
def S3KeyPrefix.keyOf : S3KeyPrefix → Str → Str
  | bucketRoot, path => path
  | keyPrefix lead, path => lead.asStr ++ '/' :: path

/-- An S3 location, of which the layout reads the prefix only. -/
structure S3Connection where
  keyPrefix : S3KeyPrefix

/-- One event's object in one namespace. -/
structure S3EventAddress where
  placed : PlacedNamespace
  eventId : EventId

/-- A key a namespace listing reported, read against that namespace. -/
structure S3ListedKey where
  placed : PlacedNamespace
  key : Str

inductive S3ListedEvent where
  | event (eventId : EventId)
  /-- Another folder, another file name, a damaged digest. -/
  | unrelated
  deriving DecidableEq

inductive S3IdentityFolder where
  | identity (id : IdentityId)
  | unrelated
  deriving DecidableEq

inductive S3ListedNamespace where
  | inside (placed : PlacedNamespace)
  | unrelated
  deriving DecidableEq

/-- Where a key sits relative to the location's prefix. -/
inductive KeyBelowPrefix where
  | below (path : Str)
  | outside

namespace S3Connection

/-- The provider path of a key, when the key is below the key prefix. -/
def pathOf (connection : S3Connection) (key : Str) : KeyBelowPrefix :=
  match connection.keyPrefix with
  | .bucketRoot => .below key
  | .keyPrefix lead =>
    match (stripPrefix key lead.asStr).bind fun rest => stripPrefix rest ['/'] with
    | some path => .below path
    | none => .outside

/-- The full key of one event's object. -/
def eventKey (connection : S3Connection) (event : S3EventAddress) : Str :=
  connection.keyPrefix.keyOf (event.placed.eventPath event.eventId)

/-- The prefix that lists one namespace's event objects. -/
def namespaceListing (connection : S3Connection) (placed : PlacedNamespace) : Str :=
  connection.keyPrefix.keyOf placed.root ++ ['/']

/-- Read a key a namespace listing reported. -/
def listedEvent [External] (connection : S3Connection) (listed : S3ListedKey) : S3ListedEvent :=
  match connection.pathOf listed.key with
  | .outside => .unrelated
  | .below path =>
    match listed.placed.eventIdFromPath path with
    | some eventId => .event eventId
    | none => .unrelated

/-- The prefix that lists the identity folders below the provider root. -/
def identityFoldersListing (connection : S3Connection) : Str :=
  connection.keyPrefix.keyOf providerRootDir ++ ['/']

/-- Read a folder the identity-folder listing reported. -/
def listedIdentityFolder (connection : S3Connection) (folder : Str) : S3IdentityFolder :=
  match (stripPrefix folder connection.identityFoldersListing).bind
      fun rest => stripSuffix rest ['/'] with
  | none => .unrelated
  | some identity =>
    match IdentityId.parse identity with
    | .ok id => if id.asStr = identity then .identity id else .unrelated
    | .error _ => .unrelated

/-- The prefix that lists the namespaces in one identity's folder. -/
def identityNamespacesListing (connection : S3Connection) (identity : IdentityId) : Str :=
  connection.keyPrefix.keyOf (PlacedNamespace.identityLog identity).identityDir ++ ['/']

/-- Read a folder an identity folder's listing reported. -/
def listedNamespace (connection : S3Connection) (folder : Str) : S3ListedNamespace :=
  match (stripPrefix folder connection.identityFoldersListing).bind
      fun rest => stripSuffix rest ['/'] with
  | none => .unrelated
  | some rest =>
    match splitOnce rest '/' with
    | none => .unrelated
    | some (identity, folder) =>
      match PlacedNamespace.fromFolders identity folder with
      | some placed => .inside placed
      | none => .unrelated

/-! ### What the layout builds -/

/-- The folder of a namespace, as a listing of its identity's folder reports it. -/
def namespaceFolder (connection : S3Connection) (placed : PlacedNamespace) : Str :=
  connection.identityNamespacesListing placed.identity ++ placed.folderName ++ ['/']

/-- Whether a key is that of the event but for white space before `.yaml`. -/
def IsPaddedKey (connection : S3Connection) (event : S3EventAddress) (key : Str) : Prop :=
  ∃ padding : Str, padding ≠ [] ∧ (∀ char ∈ padding, isWhitespace char = true) ∧
    key = connection.keyPrefix.keyOf
      (event.placed.root ++ '/' :: (event.eventId.encodedDigest ++ padding) ++ ".yaml".toList)

variable {connection : S3Connection}

theorem keyOf_append (keyPrefix : S3KeyPrefix) (path rest : Str) :
    keyPrefix.keyOf (path ++ rest) = keyPrefix.keyOf path ++ rest := by
  cases keyPrefix with
  | bucketRoot => rfl
  | keyPrefix lead => simp only [S3KeyPrefix.keyOf, List.append_assoc, List.cons_append]

theorem keyOf_injective (keyPrefix : S3KeyPrefix) : Function.Injective keyPrefix.keyOf := by
  intro path other same
  cases keyPrefix with
  | bucketRoot => exact same
  | keyPrefix lead => exact (List.cons.inj (List.append_cancel_left same)).2

/-- A key is below the prefix exactly when it is the key of its path. -/
theorem pathOf_eq_below {key path : Str} :
    connection.pathOf key = .below path ↔ key = connection.keyPrefix.keyOf path := by
  unfold pathOf S3KeyPrefix.keyOf
  cases connection.keyPrefix with
  | bucketRoot => simp only [KeyBelowPrefix.below.injEq]
  | keyPrefix lead =>
    constructor
    · intro below
      dsimp only at below
      split at below
      · rename_i own stripped
        cases below
        obtain ⟨rest, first, slash⟩ := Option.bind_eq_some_iff.mp stripped
        rw [stripPrefix_eq_some.mp first, stripPrefix_eq_some.mp slash]
        rfl
      · cases below
    · intro same
      have first : stripPrefix key lead.asStr = some ('/' :: path) := stripPrefix_eq_some.mpr same
      have slash : stripPrefix ('/' :: path) ['/'] = some path := stripPrefix_eq_some.mpr rfl
      simp only [first, Option.bind_some, slash]

/-- A namespace's folder holds its `events/` folder. -/
theorem namespaceListing_eq (placed : PlacedNamespace) :
    connection.namespaceListing placed =
      connection.namespaceFolder placed ++ eventsDir ++ ['/'] := by
  unfold namespaceListing namespaceFolder identityNamespacesListing
  have own : (PlacedNamespace.identityLog placed.identity).identityDir = placed.identityDir := rfl
  simp only [own, ← keyOf_append, PlacedNamespace.root, List.append_assoc, List.cons_append,
    List.nil_append]

/-! ### Folders -/

/-- A folder is accepted as exactly the identity whose namespaces it holds. -/
theorem listedIdentityFolder_eq_identity {folder : Str} {id : IdentityId} :
    connection.listedIdentityFolder folder = .identity id ↔
      id.IsCanonical ∧ folder = connection.identityNamespacesListing id := by
  have built : connection.identityNamespacesListing id =
      connection.identityFoldersListing ++ (id.asStr ++ ['/']) := by
    unfold identityNamespacesListing identityFoldersListing
    simp only [← keyOf_append, PlacedNamespace.identityDir, PlacedNamespace.identityLog,
      List.append_assoc, List.cons_append, List.nil_append]
  unfold listedIdentityFolder
  constructor
  · intro accepted
    split at accepted
    · cases accepted
    · rename_i identity stripped
      obtain ⟨rest, rooted, slashed⟩ := Option.bind_eq_some_iff.mp stripped
      split at accepted
      · rename_i own parsed
        split at accepted
        · rename_i same
          cases accepted
          apply And.intro (IdentityId.isCanonical_of_parse parsed)
          rw [built, same, ← stripSuffix_eq_some.mp slashed]
          exact stripPrefix_eq_some.mp rooted
        · cases accepted
      · cases accepted
  · rintro ⟨canonical, same⟩
    have rooted : stripPrefix folder connection.identityFoldersListing =
        some (id.asStr ++ ['/']) := stripPrefix_eq_some.mpr (same.trans built)
    have slashed : stripSuffix (id.asStr ++ ['/']) ['/'] = some id.asStr :=
      stripSuffix_eq_some.mpr rfl
    simp only [rooted, Option.bind_some, slashed, canonical.parse_asStr, if_true]

/-- A folder is accepted as exactly the namespace it is the folder of. -/
theorem listedNamespace_eq_inside {folder : Str} {placed : PlacedNamespace} :
    connection.listedNamespace folder = .inside placed ↔
      placed.identity.IsCanonical ∧ folder = connection.namespaceFolder placed := by
  have built : connection.namespaceFolder placed =
      connection.identityFoldersListing ++
        ((placed.identity.asStr ++ '/' :: placed.folderName) ++ ['/']) := by
    unfold namespaceFolder identityNamespacesListing identityFoldersListing
    simp only [← keyOf_append, PlacedNamespace.identityDir, PlacedNamespace.identityLog,
      List.append_assoc, List.cons_append, List.nil_append]
  unfold listedNamespace
  constructor
  · intro accepted
    split at accepted
    · cases accepted
    · rename_i rest stripped
      obtain ⟨tail, rooted, slashed⟩ := Option.bind_eq_some_iff.mp stripped
      split at accepted
      · cases accepted
      · rename_i identity own cut
        split at accepted
        · rename_i other found
          cases accepted
          obtain ⟨written, canonical, named⟩ := PlacedNamespace.fromFolders_eq_some.mp found
          apply And.intro canonical
          rw [built, written, named, ← (splitOnce_eq_some.mp cut).1,
            ← stripSuffix_eq_some.mp slashed]
          exact stripPrefix_eq_some.mp rooted
        · cases accepted
  · rintro ⟨canonical, same⟩
    have rooted : stripPrefix folder connection.identityFoldersListing =
        some ((placed.identity.asStr ++ '/' :: placed.folderName) ++ ['/']) :=
      stripPrefix_eq_some.mpr (same.trans built)
    have slashed : stripSuffix ((placed.identity.asStr ++ '/' :: placed.folderName) ++ ['/'])
        ['/'] = some (placed.identity.asStr ++ '/' :: placed.folderName) :=
      stripSuffix_eq_some.mpr rfl
    have cut : splitOnce (placed.identity.asStr ++ '/' :: placed.folderName) '/' =
        some (placed.identity.asStr, placed.folderName) :=
      splitOnce_eq_some.mpr ⟨rfl, not_mem_of_isUrlSafe canonical.isUrlSafe (by decide)⟩
    have found : PlacedNamespace.fromFolders placed.identity.asStr placed.folderName =
        some placed := PlacedNamespace.fromFolders_eq_some.mpr ⟨rfl, canonical, rfl⟩
    simp only [rooted, Option.bind_some, slashed, cut, found]

/-! ### Events -/

/-- No key is that of an event and that of the event with white space. -/
theorem not_isPaddedKey_eventKey {event : S3EventAddress} :
    ¬ connection.IsPaddedKey event (connection.eventKey event) := by
  rintro ⟨padding, some, _, same⟩
  have paths := List.append_cancel_right (keyOf_injective _ same)
  have digests := (List.cons.inj (List.append_cancel_left paths)).2
  have long := congrArg List.length digests
  rw [List.length_append] at long
  have filled := List.length_pos_iff.mpr some
  omega

variable [External]

theorem listedEvent_eq_event {placed : PlacedNamespace} {key : Str} {eventId : EventId} :
    connection.listedEvent ⟨placed, key⟩ = .event eventId ↔
      ∃ path, key = connection.keyPrefix.keyOf path ∧
        placed.eventIdFromPath path = some eventId := by
  unfold listedEvent
  dsimp only
  constructor
  · intro read
    split at read
    · cases read
    · rename_i path below
      split at read
      · rename_i own found
        cases read
        exact ⟨path, pathOf_eq_below.mp below, found⟩
      · cases read
  · rintro ⟨path, same, found⟩
    simp only [pathOf_eq_below.mpr same, found]

/-- The digest in a file name is read as an id exactly when it is the id's own digest and
white space behind it. -/
theorem parse_lead_eq_ok {digest : Str} {eventId : EventId}
    (parsed : EventId.parse eventId.asStr = .ok eventId) :
    EventId.parse ("sha256u:".toList ++ digest) = .ok eventId ↔
      ∃ padding : Str, (∀ char ∈ padding, isWhitespace char = true) ∧
        digest = eventId.encodedDigest ++ padding := by
  have starts : ∀ char ∈ ("sha256u:".toList ++ digest).head?, isWhitespace char = false := by
    intro char first
    cases first
    decide
  constructor
  · intro own
    have kept := EventId.lead_encodedDigest own
    have whole : List.rdropWhile isWhitespace ("sha256u:".toList ++ digest) ++
        List.rtakeWhile isWhitespace ("sha256u:".toList ++ digest) = "sha256u:".toList ++ digest :=
      List.rdropWhile_append_rtakeWhile
    rw [← trim_eq_rdropWhile starts, ← kept, List.append_assoc] at whole
    refine ⟨_, ?_, (List.append_cancel_left whole).symm⟩
    intro char member
    exact List.mem_rtakeWhile_imp member
  · rintro ⟨padding, white, rfl⟩
    have kept : trim ("sha256u:".toList ++ (eventId.encodedDigest ++ padding)) =
        trim eventId.asStr := by
      have own : eventId.asStr = "sha256u:".toList ++ eventId.encodedDigest := by
        rw [EventId.lead_encodedDigest parsed, ← EventId.asStr_of_parse parsed]
      have first : ∀ char ∈ ("sha256u:".toList ++ eventId.encodedDigest).head?,
          isWhitespace char = false := by
        intro char first
        cases first
        decide
      rw [trim_eq_rdropWhile starts, own, trim_eq_rdropWhile first, ← List.append_assoc]
      unfold List.rdropWhile
      rw [List.reverse_append, List.dropWhile_append_of_pos]
      intro char member
      exact white char (List.mem_reverse.mp member)
    obtain ⟨encoded, bytes, written, rest⟩ := EventId.parse_eq_ok.mp parsed
    rw [← kept] at written rest
    exact EventId.parse_eq_ok.mpr ⟨encoded, bytes, written, rest⟩

/-- A listed key is an event exactly when it is the event's own key, or that key with white
space before `.yaml`. -/
theorem listedEvent_eq_event_iff_padded (decoding : UrlSafeDecoding) {placed : PlacedNamespace}
    {key : Str} {eventId : EventId} (parsed : EventId.parse eventId.asStr = .ok eventId) :
    connection.listedEvent ⟨placed, key⟩ = .event eventId ↔
      key = connection.eventKey ⟨placed, eventId⟩ ∨
        connection.IsPaddedKey ⟨placed, eventId⟩ key := by
  rw [listedEvent_eq_event]
  constructor
  · rintro ⟨path, rfl, found⟩
    obtain ⟨digest, rfl, _, own⟩ := PlacedNamespace.eventIdFromPath_eq_some.mp found
    obtain ⟨padding, white, rfl⟩ := (parse_lead_eq_ok parsed).mp own
    by_cases bare : padding = []
    · left
      rw [bare, List.append_nil]
      rfl
    · right
      exact ⟨padding, bare, white, rfl⟩
  · rintro (rfl | ⟨padding, _, white, rfl⟩)
    · exact ⟨_, rfl, (placed.eventIdFromPath_eventPath decoding eventId).mpr parsed⟩
    · refine ⟨_, rfl, PlacedNamespace.eventIdFromPath_eq_some.mpr ⟨_, rfl, ?_, ?_⟩⟩
      · intro slash
        rcases List.mem_append.mp slash with inDigest | inPadding
        · exact not_mem_of_isUrlSafe (EventId.isUrlSafe_encodedDigest decoding parsed)
            (by decide) inDigest
        · exact absurd (white '/' inPadding) (by decide)
      · exact (parse_lead_eq_ok parsed).mpr ⟨padding, white, rfl⟩

/-- A key below the listing of one namespace is the key of no event of another. -/
theorem eq_of_startsWith_listing (decoding : UrlSafeDecoding) {placed other : PlacedNamespace}
    {eventId : EventId} (canonical : other.identity.IsCanonical)
    (parsed : EventId.parse eventId.asStr = .ok eventId)
    (listed : startsWith (connection.eventKey ⟨other, eventId⟩)
      (connection.namespaceListing placed) = true) : placed = other := by
  have found := List.isPrefixOf_iff_prefix.mp listed
  obtain ⟨rest, whole⟩ := found
  unfold namespaceListing eventKey at whole
  rw [← keyOf_append, ← keyOf_append] at whole
  have paths := keyOf_injective _ whole
  simp only [PlacedNamespace.eventPath, PlacedNamespace.root, PlacedNamespace.identityDir,
    List.append_assoc, List.cons_append, List.nil_append] at paths
  have tails := (List.cons.inj (List.append_cancel_left paths)).2
  have plainId : '/' ∉ other.identity.asStr :=
    not_mem_of_isUrlSafe canonical.isUrlSafe (by decide)
  have plainDigest : '/' ∉ eventId.encodedDigest :=
    not_mem_of_isUrlSafe (EventId.isUrlSafe_encodedDigest decoding parsed) (by decide)
  -- Both texts hold three slashes, and on the left all of them are the layout's own.
  have slashes := congrArg (List.count '/') tails
  have events : List.count '/' eventsDir = 0 := by decide
  have yaml : List.count '/' ".yaml".toList = 0 := by decide
  simp only [List.count_append, List.count_cons_self, events, yaml,
    List.count_eq_zero.mpr plainId, List.count_eq_zero.mpr plainDigest,
    List.count_eq_zero.mpr placed.slash_not_mem_folderName,
    List.count_eq_zero.mpr other.slash_not_mem_folderName] at slashes
  have plainOwn : '/' ∉ placed.identity.asStr := List.count_eq_zero.mp (by omega)
  obtain ⟨identities, folders⟩ := append_cons_inj_first plainOwn plainId tails
  obtain ⟨names, _⟩ := append_cons_inj_first placed.slash_not_mem_folderName
    other.slash_not_mem_folderName folders
  exact PlacedNamespace.eq_of_folderName (Text.asStr_injective identities) names

/-- A listed key is read as an event exactly when it is the event's key, but for keys with
white space before `.yaml`, since `EventId::parse` trims. Folders are accepted as exactly the
identity or namespace they are built for, and no listing of a namespace shows an event of
another. -/
theorem keys_name_one_event_iff (decoding : UrlSafeDecoding) (connection : S3Connection) :
    (∀ (placed : PlacedNamespace) (eventId : EventId) (key : Str),
      EventId.parse eventId.asStr = .ok eventId →
        ((connection.listedEvent ⟨placed, key⟩ = .event eventId ↔
            key = connection.eventKey ⟨placed, eventId⟩) ↔
          ¬ connection.IsPaddedKey ⟨placed, eventId⟩ key)) ∧
    (∀ (folder : Str) (placed : PlacedNamespace),
      connection.listedNamespace folder = .inside placed ↔
        placed.identity.IsCanonical ∧ folder = connection.namespaceFolder placed) ∧
    (∀ (folder : Str) (id : IdentityId),
      connection.listedIdentityFolder folder = .identity id ↔
        id.IsCanonical ∧ folder = connection.identityNamespacesListing id) ∧
    (∀ (placed other : PlacedNamespace) (eventId : EventId), other.identity.IsCanonical →
      EventId.parse eventId.asStr = .ok eventId →
        startsWith (connection.eventKey ⟨other, eventId⟩) (connection.namespaceListing placed) =
          true → placed = other) := by
  refine ⟨?_, ?_, ?_, ?_⟩
  · intro placed eventId key parsed
    rw [listedEvent_eq_event_iff_padded decoding parsed]
    constructor
    · intro exact padded
      have own := exact.mp (Or.inr padded)
      rw [own] at padded
      exact not_isPaddedKey_eventKey padded
    · intro plain
      exact or_iff_left plain
  · intro folder placed
    exact listedNamespace_eq_inside
  · intro folder id
    exact listedIdentityFolder_eq_identity
  · intro placed other eventId canonical parsed listed
    exact eq_of_startsWith_listing decoding canonical parsed listed

end S3Connection

namespace TestSupport

open EventLog.TestSupport

/-- A location below `team`. -/
def team : S3Connection := ⟨.keyPrefix ⟨"team".toList, by decide⟩⟩

/-- The key of an event with a space behind the digest. -/
def paddedKey : Str := "team/".toList ++ paddedPath

theorem listedEvent_paddedKey :
    @S3Connection.listedEvent decodingExternal team
      ⟨.vault locationIdentity locationStore, paddedKey⟩ = .event locationEvent := by
  decide +kernel

end TestSupport

namespace S3Connection

open TestSupport EventLog.TestSupport

/-- The key with a space behind the digest, the vault's folder, and the listing of the vault
against one of its events. -/
theorem keys_name_one_event_iff_team :
    team.IsPaddedKey ⟨.vault locationIdentity locationStore, locationEvent⟩ paddedKey ∧
      team.listedNamespace (team.namespaceFolder (.vault locationIdentity locationStore)) =
        .inside (.vault locationIdentity locationStore) ∧
      startsWith (team.eventKey ⟨.identityLog locationIdentity, locationEvent⟩)
        (team.namespaceListing (.vault locationIdentity locationStore)) = false := by
  have exact := @keys_name_one_event_iff decodingExternal urlSafeDecoding team
  have canonical : locationIdentity.IsCanonical :=
    ⟨"abcdefghijk".toList, by decide, rfl⟩
  have parsed : @EventId.parse decodingExternal locationEvent.asStr = .ok locationEvent := by
    decide +kernel
  refine ⟨?_, ?_, ?_⟩
  · by_contra plain
    have own := ((exact.1 _ _ _ parsed).mpr plain).mp listedEvent_paddedKey
    exact absurd own (by decide +kernel)
  · exact (exact.2.1 _ _).mpr ⟨canonical, rfl⟩
  · rw [← Bool.not_eq_true]
    intro listed
    have same := exact.2.2.2 _ _ _ canonical parsed listed
    exact absurd (congrArg PlacedNamespace.location same) (by decide)

/-- A key with a space behind the digest is read as an event whose key it is not. -/
theorem padded_key_listed :
    ¬ ∀ (connection : S3Connection) (placed : PlacedNamespace) (eventId : EventId) (key : Str),
      @EventId.parse decodingExternal eventId.asStr = .ok eventId →
        (@listedEvent decodingExternal connection ⟨placed, key⟩ = .event eventId ↔
          key = connection.eventKey ⟨placed, eventId⟩) := by
  intro exact
  have own := (exact team _ _ _ (by decide +kernel)).mp listedEvent_paddedKey
  exact absurd own (by decide +kernel)

end S3Connection

end Nook.Sync
