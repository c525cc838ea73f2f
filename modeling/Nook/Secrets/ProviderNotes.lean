import Nook.EventLog.Canonical
import Nook.Secrets.IssuerHosts

set_option autoImplicit false

namespace Nook.Secrets

open Nook.EventLog

structure ImportMetadataMarker where
  heading : Str
  keyPrefixes : List Str

def BITWARDEN_METADATA : ImportMetadataMarker where
  heading := "## Bitwarden".toList
  keyPrefixes := ["totp:", "uri[", "field.", "field["].map String.toList

def ONEPASSWORD_METADATA : ImportMetadataMarker where
  heading := "## 1Password".toList
  keyPrefixes := ["format: 1PUX", "vault:", "state:", "tags:", "url.", "url[", "field["].map
    String.toList

def LASTPASS_METADATA : ImportMetadataMarker where
  heading := "## LastPass".toList
  keyPrefixes := ["group:", "favorite:", "totp:"].map String.toList

def PROTON_PASS_METADATA : ImportMetadataMarker where
  heading := "## Proton Pass".toList
  keyPrefixes := ["vault:", "state:", "pinned:", "email:", "totp:", "url[", "field.", "field[",
    "passkeys_skipped:", "attachments_skipped:"].map String.toList

def BROWSER_METADATA : ImportMetadataMarker where
  heading := "## Browser password manager".toList
  keyPrefixes := ["name:".toList]

def APPLE_PASSWORDS_METADATA : ImportMetadataMarker where
  heading := "## Apple Passwords".toList
  keyPrefixes := ["title:".toList]

def IMPORT_METADATA_MARKERS : List ImportMetadataMarker :=
  [BITWARDEN_METADATA, ONEPASSWORD_METADATA, LASTPASS_METADATA, PROTON_PASS_METADATA]

def LOGIN_IMPORT_METADATA_MARKERS : List ImportMetadataMarker :=
  [BITWARDEN_METADATA, ONEPASSWORD_METADATA, LASTPASS_METADATA, PROTON_PASS_METADATA,
    BROWSER_METADATA, APPLE_PASSWORDS_METADATA]

inductive ImportMetadataPolicy where
  | general
  | login
  deriving DecidableEq

def ImportMetadataPolicy.markers : ImportMetadataPolicy → List ImportMetadataMarker
  | general => IMPORT_METADATA_MARKERS
  | login => LOGIN_IMPORT_METADATA_MARKERS

namespace FingerprintText

/-- The text with every CR LF replaced by LF. -/
def foldCrlf : Str → Str
  | [] => []
  | char :: rest =>
    if char = '\r' ∧ rest.head? = some '\n' then foldCrlf rest else char :: foldCrlf rest

def normalized (value : Str) : Str := trim (foldCrlf value)

end FingerprintText

def trimEnd (text : Str) : Str := text.rdropWhile isWhitespace

/-- The first line of a text, without its end of line. -/
def firstLine (text : Str) : Option Str :=
  if text.isEmpty then none
  else
    match splitOnce text '\n' with
    | some (line, _) => some ((stripSuffix line ['\r']).getD line)
    | none => some text

/-- The positions at which a nonempty pattern occurs, each behind the occurrence before
it; `skip` characters belong to that occurrence. -/
def matchIndices (pattern : Str) (skip position : Nat) : Str → List Nat
  | [] => []
  | char :: rest =>
    match skip with
    | skip + 1 => matchIndices pattern skip (position + 1) rest
    | 0 =>
      if startsWith (char :: rest) pattern then
        position :: matchIndices pattern (pattern.length - 1) (position + 1) rest
      else matchIndices pattern 0 (position + 1) rest

namespace ImportMetadataMarker

def recognizes (marker : ImportMetadataMarker) (bullet : Str) : Bool :=
  let isDottedOnepasswordField := marker.heading == "## 1Password".toList &&
    (splitOnce bullet ':').any fun (key, _) => key.contains '.'
  isDottedOnepasswordField || marker.keyPrefixes.any (startsWith bullet)

/-- Whether the heading at `index` starts a section of the provider: on a paragraph of its
own, over a bullet that the provider's export writes. -/
def isSection (marker : ImportMetadataMarker) (normalized : Str) (index : Nat) : Bool :=
  let own := index == 0 || "\n\n".toList.isSuffixOf (normalized.take index)
  let firstBullet := do
    let metadata ← stripPrefix (normalized.drop (index + marker.heading.length)) ['\n']
    firstLine (← stripPrefix metadata "- ".toList)
  own && firstBullet.any marker.recognizes

def sectionIndices (marker : ImportMetadataMarker) (normalized : Str) : List Nat :=
  (matchIndices marker.heading 0 0 normalized).filter (marker.isSection normalized)

end ImportMetadataMarker

/-- A note and the providers whose sections may stand in it. -/
structure ProviderNotes where
  text : Str
  policy : ImportMetadataPolicy

namespace ProviderNotes

open FingerprintText

/-- Where the earliest section of a provider starts. -/
def markerIndex (policy : ImportMetadataPolicy) (normalized : Str) : Option Nat :=
  (policy.markers.flatMap (·.sectionIndices normalized)).min?

/-- The text of a note before the sections of providers. -/
def neutral (notes : ProviderNotes) : Str :=
  let normalized := normalized notes.text
  match markerIndex notes.policy normalized with
  | some index => trimEnd (normalized.take index)
  | none => normalized

def merge (notes : ProviderNotes) (incoming : Str) : Str :=
  let existing := normalized notes.text
  let incoming := normalized incoming
  if incoming.isEmpty || existing == incoming || containsText existing incoming then existing
  else if existing.isEmpty || containsText incoming existing then incoming
  else
    let existingBase := neutral ⟨existing, notes.policy⟩
    let incomingBase := neutral ⟨incoming, notes.policy⟩
    if existingBase = incomingBase then
      let incomingMetadata := trim (incoming.drop incomingBase.length)
      if incomingMetadata.isEmpty || containsText existing incomingMetadata then existing
      else existing ++ "\n\n".toList ++ incomingMetadata
    else existing ++ "\n\n".toList ++ incoming

end ProviderNotes

example : ProviderNotes.neutral
    ⟨" body\r\n\r\n## LastPass\r\n- group: Work ".toList, .general⟩ = "body".toList := by
  decide +kernel

end Nook.Secrets
