import Nook.Auth.IdentityRecord

set_option autoImplicit false

namespace Nook.Auth

open Nook.Lib Nook.EventLog

/-- A protected app key of one identity. The wrapped key is stored and never read here. -/
structure LocalIdentityKeyringEntry (Wrapped : Type) where
  identityId : IdentityId
  appId : AppId
  wrappedAppKey : Wrapped
  signingSeedEnvelope : AgeArmoredCiphertext

structure LocalIdentityKeyring (Wrapped : Type) where
  version : UInt32
  entries : List (LocalIdentityKeyringEntry Wrapped)

structure WrappedAppKeyReplacement (Wrapped : Type) where
  appId : AppId
  wrappedAppKey : Wrapped

structure KeyringEntryRejection (Wrapped : Type) where
  entry : LocalIdentityKeyringEntry Wrapped
  cause : MultiDeviceError

structure KeyringRejection (Wrapped : Type) where
  keyring : LocalIdentityKeyring Wrapped
  cause : MultiDeviceError

def localIdentityKeyringVersion : UInt32 := 1

variable {Wrapped : Type}

namespace LocalIdentityKeyringEntry

def replaceWrappedAppKey (request : WrappedAppKeyReplacement Wrapped) :
    EStateM MultiDeviceError (LocalIdentityKeyringEntry Wrapped) PUnit := do
  let entry ← get
  liftExcept <| refuse (entry.appId ≠ request.appId) (.invalidDeviceIdentity
    "cannot replace a wrapped app key owned by a different app id")
  modify fun entry => { entry with wrappedAppKey := request.wrappedAppKey }

/-- The replacement on a consumed entry. -/
def refusable (entry : LocalIdentityKeyringEntry Wrapped)
    (request : WrappedAppKeyReplacement Wrapped) :
    Except (KeyringEntryRejection Wrapped) (LocalIdentityKeyringEntry Wrapped) :=
  finish KeyringEntryRejection.mk (fun _ next => next) (replaceWrappedAppKey request) entry

theorem refusable_eq_error {entry : LocalIdentityKeyringEntry Wrapped}
    {request : WrappedAppKeyReplacement Wrapped} {rejection : KeyringEntryRejection Wrapped}
    (refused : entry.refusable request = .error rejection) : rejection.entry = entry := by
  rcases finish_read_eq_error refused with ⟨cause, rfl⟩ | ⟨_, _, refused⟩
  · rfl
  · cases refused

end LocalIdentityKeyringEntry

namespace LocalIdentityKeyring

def empty : LocalIdentityKeyring Wrapped := ⟨localIdentityKeyringVersion, []⟩

/-- The ids of identities and of apps seen so far. -/
def validateEntry (seen : List IdentityId × List AppId)
    (entry : LocalIdentityKeyringEntry Wrapped) :
    MultiDeviceResult (List IdentityId × List AppId) := do
  refuse (entry.identityId ∈ seen.1) (.duplicateIdentity entry.identityId)
  refuse (entry.appId ∈ seen.2) (.duplicateAppKeyOwnership entry.appId)
  return (entry.identityId :: seen.1, entry.appId :: seen.2)

def validate (keyring : LocalIdentityKeyring Wrapped) : MultiDeviceResult Unit := do
  refuse (keyring.version ≠ localIdentityKeyringVersion) (.invalidDeviceIdentity
    ("unsupported local identity keyring version: " ++ toString keyring.version.toNat))
  let _ ← keyring.entries.foldlM validateEntry ([], [])

def entry (keyring : LocalIdentityKeyring Wrapped) (identityId : IdentityId) :
    Option (LocalIdentityKeyringEntry Wrapped) :=
  keyring.entries.find? (·.identityId = identityId)

def entryIndex (keyring : LocalIdentityKeyring Wrapped) (identityId : IdentityId) :
    MultiDeviceResult Nat :=
  match keyring.entries.findIdx? (·.identityId = identityId) with
  | some index => .ok index
  | none => .error (.identityNotFound identityId.asStr)

def admitInsertion (keyring : LocalIdentityKeyring Wrapped)
    (entry : LocalIdentityKeyringEntry Wrapped) : MultiDeviceResult Unit := do
  refuse (keyring.entry entry.identityId).isSome (.duplicateIdentity entry.identityId)
  refuse (keyring.entries.any (·.appId = entry.appId)) (.duplicateAppKeyOwnership entry.appId)
  keyring.validate

def admitReplacement (keyring : LocalIdentityKeyring Wrapped)
    (entry : LocalIdentityKeyringEntry Wrapped) : MultiDeviceResult Nat := do
  keyring.validate
  let index ← keyring.entryIndex entry.identityId
  match keyring.entries[index]? with
  | none => .error (.identityNotFound entry.identityId.asStr)
  | some existing =>
    refuse (existing.appId ≠ entry.appId) (.invalidDeviceIdentity
      "cannot replace a local identity keyring entry with a different app id")
    return index

def admitRebinding (keyring : LocalIdentityKeyring Wrapped)
    (localIdentityId replicatedIdentityId : IdentityId) : MultiDeviceResult Nat := do
  keyring.validate
  refuse (keyring.entries.any (·.identityId = replicatedIdentityId))
    (.replicatedIdentityAlreadyLocal replicatedIdentityId)
  keyring.entryIndex localIdentityId

/-! ### Transitions in place -/

abbrev Transition (Wrapped α : Type) := EStateM MultiDeviceError (LocalIdentityKeyring Wrapped) α

/-- `get_mut(index)`, then a change of the entry. -/
def changeEntry (missing : MultiDeviceError) (index : Nat)
    (change : LocalIdentityKeyringEntry Wrapped → LocalIdentityKeyringEntry Wrapped) :
    Transition Wrapped PUnit := do
  let keyring ← get
  match keyring.entries[index]? with
  | none => throw missing
  | some entry =>
    modify fun keyring => { keyring with entries := keyring.entries.set index (change entry) }

def replaceWrappedAppKey (request : WrappedAppKeyReplacement Wrapped) :
    Transition Wrapped PUnit := do
  let keyring ← get
  match keyring.entries.findIdx? (·.appId = request.appId) with
  | none => throw (.invalidDeviceIdentity "wrapped app key has no local keyring owner")
  | some index =>
    changeEntry (.invalidDeviceIdentity "wrapped app key has no local keyring owner") index
      fun entry => { entry with wrappedAppKey := request.wrappedAppKey }

def insert (entry : LocalIdentityKeyringEntry Wrapped) : Transition Wrapped PUnit := do
  let keyring ← get
  liftExcept (keyring.admitInsertion entry)
  modify fun keyring => { keyring with entries := keyring.entries ++ [entry] }

def replace (entry : LocalIdentityKeyringEntry Wrapped) : Transition Wrapped PUnit := do
  let keyring ← get
  let index ← liftExcept (keyring.admitReplacement entry)
  changeEntry (.identityNotFound entry.identityId.asStr) index fun _ => entry

/-- Rebind a protected entry to the replicated identity it was adopted into. -/
def rebindIdentity (localIdentityId replicatedIdentityId : IdentityId) :
    Transition Wrapped PUnit := do
  let keyring ← get
  let index ← liftExcept (keyring.admitRebinding localIdentityId replicatedIdentityId)
  changeEntry (.identityNotFound localIdentityId.asStr) index
    fun entry => { entry with identityId := replicatedIdentityId }

def remove (identityId : IdentityId) :
    Transition Wrapped (Option (LocalIdentityKeyringEntry Wrapped)) := do
  let keyring ← get
  let index ← liftExcept (keyring.entryIndex identityId)
  modify fun keyring => { keyring with entries := keyring.entries.eraseIdx index }
  return keyring.entries[index]?

end LocalIdentityKeyring

/-- The operations of a keyring that may be refused with it. -/
inductive KeyringOperation (Wrapped : Type) where
  | replaceWrappedAppKey (request : WrappedAppKeyReplacement Wrapped)
  | insert (entry : LocalIdentityKeyringEntry Wrapped)
  | replace (entry : LocalIdentityKeyringEntry Wrapped)
  | rebindIdentity (localIdentityId replicatedIdentityId : IdentityId)
  | remove (identityId : IdentityId)

namespace LocalIdentityKeyring

/-- A transition on a consumed keyring. -/
def run {α : Type} (transition : Transition Wrapped α) (keyring : LocalIdentityKeyring Wrapped) :
    Except (KeyringRejection Wrapped) (LocalIdentityKeyring Wrapped) :=
  finish KeyringRejection.mk (fun _ next => next) transition keyring

def refusable (keyring : LocalIdentityKeyring Wrapped) :
    KeyringOperation Wrapped → Except (KeyringRejection Wrapped) (LocalIdentityKeyring Wrapped)
  | .replaceWrappedAppKey request => keyring.run (replaceWrappedAppKey request)
  | .insert entry => keyring.run (insert entry)
  | .replace entry => keyring.run (replace entry)
  | .rebindIdentity localIdentityId replicatedIdentityId =>
    keyring.run (rebindIdentity localIdentityId replicatedIdentityId)
  | .remove identityId => keyring.run (remove identityId)

variable {keyring : LocalIdentityKeyring Wrapped} {rejection : KeyringRejection Wrapped}

theorem changeEntry_eq_error {missing : MultiDeviceError} {index : Nat}
    {change : LocalIdentityKeyringEntry Wrapped → LocalIdentityKeyringEntry Wrapped}
    (refused : keyring.run (changeEntry missing index change) = .error rejection) :
    rejection.keyring = keyring := by
  unfold run changeEntry at refused
  rw [finish_get] at refused
  cases found : keyring.entries[index]? with
  | none =>
    simp only [found] at refused
    cases refused
    rfl
  | some entry =>
    simp only [found] at refused
    cases refused

theorem refusable_eq_error {operation : KeyringOperation Wrapped}
    (refused : keyring.refusable operation = .error rejection) : rejection.keyring = keyring := by
  cases operation with
  | replaceWrappedAppKey request =>
    change keyring.run (replaceWrappedAppKey request) = _ at refused
    unfold run replaceWrappedAppKey at refused
    rw [finish_get] at refused
    cases found : keyring.entries.findIdx? (·.appId = request.appId) with
    | none =>
      simp only [found] at refused
      cases refused
      rfl
    | some index =>
      simp only [found] at refused
      exact changeEntry_eq_error refused
  | insert entry =>
    rcases finish_read_eq_error refused with ⟨cause, rfl⟩ | ⟨_, _, refused⟩
    · rfl
    · cases refused
  | replace entry =>
    rcases finish_read_eq_error refused with ⟨cause, rfl⟩ | ⟨index, _, refused⟩
    · rfl
    · exact changeEntry_eq_error refused
  | rebindIdentity localIdentityId replicatedIdentityId =>
    rcases finish_read_eq_error refused with ⟨cause, rfl⟩ | ⟨index, _, refused⟩
    · rfl
    · exact changeEntry_eq_error refused
  | remove identityId =>
    rcases finish_read_eq_error refused with ⟨cause, rfl⟩ | ⟨index, _, refused⟩
    · rfl
    · cases refused

end LocalIdentityKeyring

end Nook.Auth
