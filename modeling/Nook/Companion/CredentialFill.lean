import Nook.Companion.PageField

set_option autoImplicit false

namespace Nook.Companion

open Nook.EventLog AuthenticationControlText

/-! ### Observed fields -/

/-- Place of a field in its scope, below `2 ^ 32`. -/
abbrev Index := Nat

/-- Password semantics observed for a credential field. -/
inductive Password where
  | current
  | generic
  deriving DecidableEq

inductive CredentialRole where
  | username
  | password (kind : Password)
  deriving DecidableEq

/-- Whether the host observed a credential field as writable. -/
inductive Editability where
  | writable
  | readonly
  deriving DecidableEq

/-- Facts carried only by a field that can receive a saved login value. -/
structure Credential where
  fieldIndex : Index
  role : CredentialRole
  editability : Editability
  deriving DecidableEq

/-- Host-observed field with variant-specific authentication semantics. -/
inductive Observation where
  | credential (field : Credential)
  | newPassword (fieldIndex : Index)
  | oneTimeCode (fieldIndex : Index)
  deriving DecidableEq

namespace Observation

def fieldIndex : Observation → Index
  | credential field => field.fieldIndex
  | newPassword fieldIndex => fieldIndex
  | oneTimeCode fieldIndex => fieldIndex

/-- A login's password or a new one. -/
def isPassword : Observation → Bool
  | credential ⟨_, .password _, _⟩ | newPassword _ => true
  | _ => false

end Observation

/-- Credential-fill classification of one page input. -/
inductive Classification where
  | ignored (fieldIndex : Index)
  | observed (observation : Observation)

open PageInputFieldObservation in
/-- Classify one browser-observed page input for credential-fill planning. -/
def Classification.fromPageInput (fieldIndex : Index) (field : PageInputFieldObservation) :
    Classification :=
  let editability : Editability := if field.readOnly then .readonly else .writable
  if field.disabled then .ignored fieldIndex
  else
    match field.classifyAuthenticationInputRole with
    | .oneTimeCode => .observed (.oneTimeCode fieldIndex)
    | .username => .observed (.credential ⟨fieldIndex, .username, editability⟩)
    | .nonAuthentication => .ignored fieldIndex
    | .unrelated =>
      let takesPassword := field.inputType = .password ∨ field.inputType = .text ∧
        hasAutocompleteToken field.autocompleteTokens "current-password" ∧
          (field.identityText = [] ∨
            containsWordPhrase (expandIdentityText field.identityText) "password".toList)
      if ¬ takesPassword then .ignored fieldIndex
      else if hasAutocompleteToken field.autocompleteTokens "new-password" then
        .observed (.newPassword fieldIndex)
      else
        let password : Password :=
          if hasAutocompleteToken field.autocompleteTokens "current-password" then .current
          else .generic
        .observed (.credential ⟨fieldIndex, .password password, editability⟩)

theorem Classification.fieldIndex_of_observed {fieldIndex : Index}
    {field : PageInputFieldObservation} {observation : Observation}
    (observed : fromPageInput fieldIndex field = .observed observation) :
    observation.fieldIndex = fieldIndex := by
  unfold fromPageInput at observed
  simp only at observed
  split at observed
  · cases observed
  · split at observed
    · cases observed
      rfl
    · cases observed
      rfl
    · cases observed
    · split at observed
      · cases observed
      · split at observed
        · cases observed
          rfl
        · cases observed
          rfl

/-! ### Planning a fill -/

inductive CredentialKind where
  | username
  | currentPassword
  deriving DecidableEq

/-- Why a fill plan cannot be produced for the observed fields. -/
inductive CredentialFillRejection where
  | tooManyObservedFields
  | duplicateFieldIndex
  | newPasswordFieldPresent
  | oneTimeCodeFieldPresent
  | noCredentialField
  | passwordFieldsReadonly
  | ambiguousPasswordField
  | ambiguousUsernameField

/-- Rust-owned decision for which field receives which credential kind. -/
structure Assignment where
  fieldIndex : Index
  credential : CredentialKind
  deriving DecidableEq

def MAX_AUTHENTICATION_OBSERVED_FIELD_COUNT : Nat := 100

/-- A complete, host-executable fill plan. -/
structure Plan where
  assignments : List Assignment

namespace Plan

def isNewPassword : Observation → Bool
  | .newPassword _ => true
  | _ => false

def isOneTimeCode : Observation → Bool
  | .oneTimeCode _ => true
  | _ => false

def writableUsername : Observation → Option Index
  | .credential ⟨fieldIndex, .username, .writable⟩ => some fieldIndex
  | _ => none

def passwordField : Observation → Option (Index × Editability)
  | .credential ⟨fieldIndex, .password _, editability⟩ => some (fieldIndex, editability)
  | _ => none

/-- Plan which observed fields receive the username and current password. -/
def fromFields (fields : List Observation) : Except CredentialFillRejection Plan :=
  let usernames := fields.filterMap writableUsername
  let passwords := fields.filterMap passwordField
  if MAX_AUTHENTICATION_OBSERVED_FIELD_COUNT < fields.length then .error .tooManyObservedFields
  else if ¬ (fields.map Observation.fieldIndex).Nodup then .error .duplicateFieldIndex
  else if fields.any isNewPassword then .error .newPasswordFieldPresent
  else if fields.any isOneTimeCode then .error .oneTimeCodeFieldPresent
  else if 1 < usernames.length then .error .ambiguousUsernameField
  else if usernames.head?.isNone && passwords.isEmpty then .error .noCredentialField
  else if 1 < passwords.length then .error .ambiguousPasswordField
  else if passwords.head?.any (·.2 = .readonly) then .error .passwordFieldsReadonly
  else
    .ok ⟨(usernames.head?.map (⟨·, .username⟩)).toList ++
      (passwords.head?.map (⟨·.1, .currentPassword⟩)).toList⟩

/-- A plan of a username and a password leaves no other field that could be meant. -/
theorem fields_of_fromFields {fields : List Observation} {plan : Plan} {username password : Index}
    (planned : fromFields fields = .ok plan)
    (both : plan.assignments = [⟨username, .username⟩, ⟨password, .currentPassword⟩]) :
    fields.filterMap writableUsername = [username] ∧
      fields.filterMap passwordField = [(password, .writable)] ∧
      (∀ field ∈ fields, isNewPassword field = false ∧ isOneTimeCode field = false) := by
  unfold fromFields at planned
  generalize fields.filterMap writableUsername = usernames,
    fields.filterMap passwordField = passwords at planned ⊢
  simp only at planned
  split_ifs at planned with many twice new code several bare ambiguous readonly
  cases planned
  have clear : ∀ field ∈ fields, isNewPassword field = false ∧ isOneTimeCode field = false := by
    intro field member
    exact ⟨by simpa using fun marked => new (List.any_eq_true.mpr ⟨field, member, marked⟩),
      by simpa using fun marked => code (List.any_eq_true.mpr ⟨field, member, marked⟩)⟩
  match usernames, passwords with
  | [], [] => simp at both
  | [], [_] => simp at both
  | [_], [] => simp at both
  | [first], [(only, editability)] =>
    cases editability with
    | readonly => simp at readonly
    | writable =>
      simp at both
      obtain ⟨rfl, rfl⟩ := both
      exact ⟨rfl, rfl, clear⟩
  | _ :: _ :: _, _ => simp at several
  | [_], _ :: _ :: _ => simp at ambiguous
  | [], _ :: _ :: _ => simp at ambiguous

end Plan

end Nook.Companion
