import Nook.IdentityControl.Builder
import Nook.EventLog.TestSupport

set_option autoImplicit false

namespace Nook.IdentityControl.TestSupport

open Nook.EventLog Nook.EventLog.TestSupport

/-! A concrete choice of the third-party operations, as for the vault events. A
recipient is its own text, and every flat object has the same bytes. -/

scoped instance identityExternal : IdentityExternal where
  toExternal := external
  identityBodyJson body := .ok body.createdAt.asStr
  flatObjectJson _ := .ok []
  ageRecipient text := .ok text
  errorText _ := ""

scoped instance identitySealing : IdentitySealing where
  toIdentityExternal := identityExternal
  hexEncode := hexEncode
  sealBytes _ _ := .ok ⟨[]⟩

def identityId : IdentityId := ⟨"idn_abcdefghijk".toList⟩

/-- The installation whose key texts are made of `digit`. -/
def keys (digit : Char) : IdentityMemberKeys where
  appId := AppKeyDerivation.appId (List.replicate 8 digit)
  encryptionPublicKey := ⟨List.replicate 8 digit⟩
  signingPublicKey := publicKey digit
  label := ⟨[digit]⟩

/-- An event with id `eventId tag`, signed by the key of `digit`. -/
def signed (tag digit : Char) (parents : List Char)
    (operations : List IdentityControlOperation) : IdentityEvent where
  body := {
    schemaVersion := IdentityEventSchemaVersion.current
    identityId := identityId
    actorId := actor digit
    actorSigningPublicKey := publicKey digit
    parents := parents.map eventId
    createdAt := ⟨digest tag⟩
    operations := operations }
  signature := ⟨"ed25519:".toList ++ List.replicate 128 '0'⟩

/-- The signer of `signed`, at the time that gives the event its id. -/
def signing (tag digit : Char) : IdentityEventSigning where
  signingKey := {
    verifyingKey := (hexBytes (List.replicate 64 digit)).getD []
    sign := fun _ => ⟨"ed25519:".toList ++ List.replicate 128 '0'⟩ }
  createdAt := ⟨digest tag⟩

def founded (tag digit : Char) : IdentityEvent := signed tag digit [] [.identityCreated (keys digit)]

def approve (digit : Char) : IdentityControlOperation := .memberApproved (keys digit) [] .own

def revoke (digit : Char) : IdentityControlOperation := .memberRevoked (keys digit).appId

def addRecovery (digit : Char) : IdentityControlOperation :=
  .recoveryKeyAdded (keys digit) ⟨[]⟩ .standard

def invite (tag : Char) : IdentityControlOperation :=
  .memberInvited ⟨⟨[tag]⟩, publicKey tag, ⟨[]⟩⟩

def join (tag digit : Char) : IdentityControlOperation :=
  .memberJoinedByInvite ⟨[tag]⟩ (keys digit) ⟨"ed25519:".toList ++ List.replicate 128 '0'⟩ []

/-- The applicable ids of the log that a list of events builds. -/
def applicableAfter (events : List IdentityEvent) : Option (List EventId) :=
  match (IdentityControlLog.new identityId).insertAll events with
  | .ok log => some log.causal.applicableIds
  | .error _ => none

/-- The members that a list of events leaves, with the kind of each. -/
def membersAfter (events : List IdentityEvent) : Option (List (IdentityMemberKeys × Bool)) :=
  match (IdentityControlLog.new identityId).insertAll events with
  | .ok log =>
    match IdentityControlState.project log with
    | .ok state => some (state.members.map fun member => (member.keys, member.kind.isRecovery))
    | .error _ => none
  | .error _ => none

end Nook.IdentityControl.TestSupport
