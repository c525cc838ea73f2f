import Nook.Companion.CredentialFill

set_option autoImplicit false

namespace Nook.Companion

open Nook.EventLog AuthenticationControlText

/-! ### What a page shows -/

/-- A count of fields, which stays at the largest `u32`. -/
def saturatingSucc (count : Nat) : Nat := min (count + 1) (2 ^ 32 - 1)

/-- Raw, non-secret field facts observed inside one authentication scope. -/
structure AuthenticationFieldObservationFacts where
  usernameFieldCount : Nat := 0
  currentPasswordFieldCount : Nat := 0
  newPasswordFieldCount : Nat := 0
  genericPasswordFieldCount : Nat := 0
  oneTimeCodeFieldCount : Nat := 0
  actionablePasswordFieldCount : Nat := 0
  readonlyPasswordFieldCount : Nat := 0

namespace AuthenticationFieldObservationFacts

def countRole (facts : AuthenticationFieldObservationFacts) :
    Observation → AuthenticationFieldObservationFacts
  | .credential ⟨_, .username, _⟩ =>
    { facts with usernameFieldCount := saturatingSucc facts.usernameFieldCount }
  | .credential ⟨_, .password .current, _⟩ =>
    { facts with currentPasswordFieldCount := saturatingSucc facts.currentPasswordFieldCount }
  | .credential ⟨_, .password .generic, _⟩ =>
    { facts with genericPasswordFieldCount := saturatingSucc facts.genericPasswordFieldCount }
  | .newPassword _ =>
    { facts with newPasswordFieldCount := saturatingSucc facts.newPasswordFieldCount }
  | .oneTimeCode _ =>
    { facts with oneTimeCodeFieldCount := saturatingSucc facts.oneTimeCodeFieldCount }

def countEditability (facts : AuthenticationFieldObservationFacts) :
    Observation → AuthenticationFieldObservationFacts
  | .credential ⟨_, .password _, .writable⟩ | .newPassword _ =>
    { facts with
      actionablePasswordFieldCount := saturatingSucc facts.actionablePasswordFieldCount }
  | .credential ⟨_, .password _, .readonly⟩ =>
    { facts with readonlyPasswordFieldCount := saturatingSucc facts.readonlyPasswordFieldCount }
  | .credential ⟨_, .username, _⟩ | .oneTimeCode _ => facts

def includeLoginSubmissionField (facts : AuthenticationFieldObservationFacts)
    (observed : Observation) : AuthenticationFieldObservationFacts :=
  (facts.countRole observed).countEditability observed

/-- The fields a plan of a login fills. -/
def includeAssignment (facts : AuthenticationFieldObservationFacts) (assignment : Assignment) :
    AuthenticationFieldObservationFacts :=
  match assignment.credential with
  | .username => { facts with usernameFieldCount := saturatingSucc facts.usernameFieldCount }
  | .currentPassword =>
    { facts with
      currentPasswordFieldCount := saturatingSucc facts.currentPasswordFieldCount
      actionablePasswordFieldCount := saturatingSucc facts.actionablePasswordFieldCount }

end AuthenticationFieldObservationFacts

/-- A control that was seen to advance authentication, and what else was seen of it. -/
structure AuthenticationAdvanceControlObservation (Control : Type) where
  label : Str
  rest : Control

inductive AuthenticationDetailedAdvanceControlObservation (Control : Type) where
  | absent
  | observed (controls : List (AuthenticationAdvanceControlObservation Control))

/-- The facts of a page that a submission reads or replaces, and the others. -/
structure AuthenticationPageObservationFacts (Control Page : Type) where
  fields : AuthenticationFieldObservationFacts
  formIdentity : Str
  destinationIdentity : Str
  detailedAdvanceControl : AuthenticationDetailedAdvanceControlObservation Control
  rest : Page

inductive AuthenticationWorkflowKind where
  | login
  | signup
  | passwordChange
  | totpChallenge
  | totpEnrollment
  | manual
  deriving DecidableEq

inductive AuthenticationWorkflowStage where
  | credentials
  | secondFactor
  | verification
  | setup
  | recovery
  | manual
  deriving DecidableEq

structure AuthenticationWorkflowSnapshot where
  kind : AuthenticationWorkflowKind
  stage : AuthenticationWorkflowStage

inductive AuthenticationWorkflowMatch where
  | noMatch
  | rejected
  | matched (workflow : AuthenticationWorkflowSnapshot)

inductive SubmittedLoginControlAdmission where
  | admitted
  | inert
  | forbiddenMethod
  | incompatibleScope
  | semanticVeto
  | absent
  deriving DecidableEq

/-- The credential flow a submitted control is expected to advance. -/
inductive SubmittedCredentialIntent where
  | login
  | signup

structure SubmittedLoginControlRequest where
  fields : AuthenticationFieldObservationFacts
  username : AuthenticationUsernameEvidence
  intent : SubmittedCredentialIntent

/-- The classifiers of whole pages and of controls. -/
structure PageClassifiers (Control Page : Type) where
  isAdmissible : AuthenticationPageObservationFacts Control Page → Bool
  classifyAuthenticationWorkflow :
    AuthenticationPageObservationFacts Control Page → AuthenticationWorkflowMatch
  classifyAuthenticationWorkflowCandidates :
    List (AuthenticationPageObservationFacts Control Page) → AuthenticationWorkflowMatch
  classifySubmittedLoginCandidate : AuthenticationAdvanceControlObservation Control →
    SubmittedLoginControlRequest → SubmittedLoginControlAdmission

/-! ### A submission -/

inductive LoginSubmissionEvent where
  | formSubmit
  | click
  | enter
  | other
  deriving DecidableEq

inductive LoginSubmissionTrust where
  | trusted
  | untrusted
  deriving DecidableEq

inductive LoginSubmissionTarget where
  | credentialScope
  | credentialField (fieldIndex : Index)
  | outsideCredentialScope
  deriving DecidableEq

inductive LoginPasswordFieldHistory where
  | previouslyPassword
  | unobserved

structure LoginSubmissionField where
  page : PageInputFieldObservation
  passwordHistory : LoginPasswordFieldHistory

/-- A text field that was a password field before is read as one. -/
def LoginSubmissionField.classification (field : LoginSubmissionField) (index : Index) :
    Classification :=
  let observed :=
    match field.passwordHistory, field.page.inputType with
    | .previouslyPassword, .text => { field.page with inputType := .password }
    | _, _ => field.page
  Classification.fromPageInput index observed

structure LoginSubmissionIntent (Control Page : Type) where
  event : LoginSubmissionEvent
  trust : LoginSubmissionTrust
  target : LoginSubmissionTarget
  controlLabel : Str
  context : AuthenticationPageObservationFacts Control Page

structure LoginSubmissionObservation (Control Page : Type) where
  intent : LoginSubmissionIntent Control Page
  fields : List LoginSubmissionField

inductive LoginSubmissionDecision where
  | explicitAuthentication (workflowKind : AuthenticationWorkflowKind)
  | captured (username password : Index) (workflowKind : AuthenticationWorkflowKind)
  | ignored
  deriving DecidableEq

/-! ### Equal values -/

inductive LoginCapturedValueGroup where
  | empty
  /-- Position of the first captured field holding exactly the same bytes. -/
  | value (first : Nat)
  deriving DecidableEq

/-- Rust-derived equality of captured field values; it retains no value bytes. -/
structure LoginCapturedValueMatches where
  groups : List LoginCapturedValueGroup

namespace LoginCapturedValueMatches

def groupOf (values : List Str) (value : Str × Nat) : LoginCapturedValueGroup :=
  if value.1 = [] then .empty else .value ((values.findIdx? (· == value.1)).getD value.2)

def fromValues (values : List Str) : LoginCapturedValueMatches :=
  ⟨values.zipIdx.map (groupOf values)⟩

def sameNonemptyValue (values : LoginCapturedValueMatches) (left right : Index) : Bool :=
  match values.groups[left]?, values.groups[right]? with
  | some (.value left), some (.value right) => left == right
  | _, _ => false

theorem getElem?_of_group {values : List Str} {index first : Nat}
    (grouped : (fromValues values).groups[index]? = some (.value first)) :
    ∃ text ≠ [], values[index]? = some text ∧ values[first]? = some text := by
  unfold fromValues at grouped
  rw [List.getElem?_map, List.getElem?_zipIdx, Option.map_map] at grouped
  obtain ⟨text, held, named⟩ := Option.map_eq_some_iff.mp grouped
  have listed : text ∈ values := List.mem_of_getElem? held
  unfold groupOf at named
  simp only [Function.comp_apply] at named
  split at named
  · cases named
  · rename_i nonempty
    refine ⟨text, nonempty, held, ?_⟩
    cases found : values.findIdx? (· == text) with
    | none =>
      have missing := List.findIdx?_eq_none_iff.mp found text listed
      simp at missing
    | some position =>
      obtain ⟨inside, same, _⟩ := List.findIdx?_eq_some_iff_getElem.mp found
      rw [found] at named
      cases named
      rw [Option.getD_some, List.getElem?_eq_getElem inside, beq_iff_eq.mp same]

theorem same_of_sameNonemptyValue {values : List Str} {left right : Index}
    (same : (fromValues values).sameNonemptyValue left right = true) :
    ∃ text ≠ [], values[left]? = some text ∧ values[right]? = some text := by
  unfold sameNonemptyValue at same
  split at same
  · rename_i first second foundLeft foundRight
    obtain ⟨text, nonempty, held, there⟩ := getElem?_of_group foundLeft
    obtain ⟨text', _, held', there'⟩ := getElem?_of_group foundRight
    rw [beq_iff_eq.mp same, there'] at there
    cases there
    exact ⟨text, nonempty, held, held'⟩
  · cases same

end LoginCapturedValueMatches

/-! ### The sign-up selector -/

/-- Registration wording on the submitted control, form, or route. -/
def REGISTRATION_WORDS : List String :=
  ["signup", "sign up", "register", "registration", "create account", "new account"]

structure SignupSelection where
  username : Index
  password : Index
  confirmation : Option Index

structure SignupScope (Control Page : Type) where
  intent : LoginSubmissionIntent Control Page
  fields : List LoginSubmissionField
  observed : List Observation
  values : LoginCapturedValueMatches

namespace SignupScope

variable {Control Page : Type}

/-- The passwords a sign-up may write. Any current, read-only, or one-time-code field leaves the
scope to the existing flows. -/
def newPasswords : List Observation → Option (List Index)
  | [] => some []
  | .newPassword fieldIndex :: rest => (newPasswords rest).map (fieldIndex :: ·)
  | .credential ⟨fieldIndex, .password .generic, .writable⟩ :: rest =>
    (newPasswords rest).map (fieldIndex :: ·)
  | .credential ⟨_, .username, _⟩ :: rest => newPasswords rest
  | .credential ⟨_, .password .current, _⟩ :: _ => none
  | .credential ⟨_, .password .generic, .readonly⟩ :: _ => none
  | .oneTimeCode _ :: _ => none

def isNewPassword (scope : SignupScope Control Page) (index : Index) : Bool :=
  scope.observed.contains (.newPassword index)

def registrationIntent (scope : SignupScope Control Page) : Bool :=
  [scope.intent.controlLabel, scope.intent.context.formIdentity,
      scope.intent.context.destinationIdentity].any fun text =>
    containsAnyWord (expandIdentityText text) REGISTRATION_WORDS

def hasUsernameToken (scope : SignupScope Control Page) (index : Index) : Bool :=
  scope.fields[index]?.any fun field =>
    PageInputFieldObservation.hasAutocompleteToken field.page.autocompleteTokens "username"

/-- Prefer the sole `autocomplete="username"` field; otherwise the nearest writable
username-shaped field before the new password. -/
def accountIdentifier (scope : SignupScope Control Page) (password : Index) : Option Index :=
  let usernames := scope.observed.filterMap Plan.writableUsername
  match usernames.filter scope.hasUsernameToken with
  | [username] => some username
  | _ => (usernames.filter (· < password)).max?

/-- A password and its confirmation, if there is one. -/
def selectPassword (scope : SignupScope Control Page) : List Index → Option (Index × Option Index)
  | [password] =>
    if scope.isNewPassword password || scope.registrationIntent then some (password, none)
    else none
  | [password, confirmation] =>
    if scope.values.sameNonemptyValue password confirmation then
      some (password, some confirmation)
    else none
  | _ => none

def select (scope : SignupScope Control Page) : Option SignupSelection := do
  let passwords ← newPasswords scope.observed
  let (password, confirmation) ← scope.selectPassword passwords
  let username ← scope.accountIdentifier password
  return ⟨username, password, confirmation⟩

end SignupScope

namespace SignupSelection

def includesTarget (selection : SignupSelection) (target : Index) : Bool :=
  selection.confirmation == some target || target == selection.username ||
    target == selection.password

def newPasswordFieldCount (selection : SignupSelection) : Nat :=
  match selection.confirmation with
  | some _ => 2
  | none => 1

end SignupSelection

/-! ### Classifying a submission -/

namespace LoginSubmissionIntent

variable {Control Page : Type}

def targetAdmission (intent : LoginSubmissionIntent Control Page) :
    SubmittedLoginControlAdmission :=
  match intent.event, intent.target with
  | .formSubmit, .credentialScope | .click, .credentialScope => .admitted
  | .enter, .credentialField _ => .admitted
  | _, _ => .incompatibleScope

/-- The page's facts with the fields of the scope, and no control. -/
def factsOf (intent : LoginSubmissionIntent Control Page)
    (fields : AuthenticationFieldObservationFacts) :
    AuthenticationPageObservationFacts Control Page :=
  { intent.context with fields, detailedAdvanceControl := .absent }

def classifyWorkflow (intent : LoginSubmissionIntent Control Page)
    (page : PageClassifiers Control Page) (observed : List Observation) :
    AuthenticationWorkflowMatch :=
  page.classifyAuthenticationWorkflow
    (intent.factsOf (observed.foldl .includeLoginSubmissionField {}))

def classifyLoginWorkflow (intent : LoginSubmissionIntent Control Page)
    (page : PageClassifiers Control Page) (plan : Plan) : AuthenticationWorkflowMatch :=
  if [intent.context.formIdentity, intent.controlLabel].any fun text =>
      containsAnyWord (expandIdentityText text)
        ["signup", "sign up", "register", "registration", "create account", "new account",
          "change password", "reset password", "forgot password", "recover password"] then
    .rejected
  else
    page.classifyAuthenticationWorkflowCandidates
      [intent.factsOf (plan.assignments.foldl .includeAssignment {})]

def classifySignupWorkflow (intent : LoginSubmissionIntent Control Page)
    (page : PageClassifiers Control Page) (selection : SignupSelection) :
    AuthenticationWorkflowMatch :=
  page.classifyAuthenticationWorkflow (intent.factsOf
    { usernameFieldCount := 1
      newPasswordFieldCount := selection.newPasswordFieldCount
      actionablePasswordFieldCount := selection.newPasswordFieldCount })

def classifySelectedFields (intent : LoginSubmissionIntent Control Page)
    (username password : Index) (workflow : AuthenticationWorkflowKind) :
    LoginSubmissionDecision :=
  match intent.event, intent.target with
  | .enter, .credentialField field =>
    if field = username ∨ field = password then .captured username password workflow
    else .ignored
  | .formSubmit, .credentialScope | .click, .credentialScope =>
    .captured username password workflow
  | _, _ => .ignored

end LoginSubmissionIntent

namespace LoginSubmissionObservation

variable {Control Page : Type}

/-- What the fields are for, less the ignored ones. -/
def observed (observation : LoginSubmissionObservation Control Page) : List Observation :=
  observation.fields.zipIdx.filterMap fun input =>
    match input.1.classification input.2 with
    | .observed field => some field
    | .ignored _ => none

def submissionControlAdmission (observation : LoginSubmissionObservation Control Page)
    (page : PageClassifiers Control Page) (intent : SubmittedCredentialIntent) :
    SubmittedLoginControlAdmission :=
  match observation.intent.event, observation.intent.context.detailedAdvanceControl with
  | .formSubmit, _ | .enter, _ => .admitted
  | .click, .observed [control] =>
    if control.label ≠ observation.intent.controlLabel then .absent
    else
      page.classifySubmittedLoginCandidate control
        { fields := observation.observed.foldl .includeLoginSubmissionField {}
          username := .strongestAuthenticationUsernameEvidence
            (observation.fields.map (·.page.authenticationUsernameEvidence))
          intent }
  | .click, _ | .other, _ => .absent

/-- Capture a sign-up through the same submission intent rules as a login, with registration
wording admitted on the submitting control. -/
def classifySignup (observation : LoginSubmissionObservation Control Page)
    (page : PageClassifiers Control Page) (selection : SignupSelection) :
    LoginSubmissionDecision :=
  match observation.intent.classifySignupWorkflow page selection with
  | .matched ⟨.signup, .credentials⟩ =>
    if observation.submissionControlAdmission page .signup ≠ .admitted then .ignored
    else
      match observation.intent.event, observation.intent.target with
      | .enter, .credentialField field =>
        if selection.includesTarget field then
          .captured selection.username selection.password .signup
        else .ignored
      | .formSubmit, .credentialScope | .click, .credentialScope =>
        .captured selection.username selection.password .signup
      | _, _ => .ignored
  | _ => .ignored

/-- What is no sign-up is a change of password or a login, or is not saved. -/
def classifyLogin (observation : LoginSubmissionObservation Control Page)
    (page : PageClassifiers Control Page) : LoginSubmissionDecision :=
  match observation.intent.classifyWorkflow page observation.observed with
  | .matched ⟨.passwordChange, .credentials⟩ =>
    if observation.intent.event = .formSubmit then .explicitAuthentication .passwordChange
    else .ignored
  | .matched ⟨.login, .credentials⟩ =>
    match Plan.fromFields observation.observed with
    | .error _ => .ignored
    | .ok plan =>
      match observation.intent.classifyLoginWorkflow page plan with
      | .noMatch | .rejected => .ignored
      | .matched _ =>
        if observation.submissionControlAdmission page .login ≠ .admitted then .ignored
        else
          match plan.assignments with
          | [⟨username, .username⟩, ⟨password, .currentPassword⟩] =>
            observation.intent.classifySelectedFields username password .login
          | _ => .ignored
  | _ => .ignored

def classify (observation : LoginSubmissionObservation Control Page)
    (page : PageClassifiers Control Page) (values : LoginCapturedValueMatches) :
    LoginSubmissionDecision :=
  if observation.intent.trust ≠ .trusted then .ignored
  else if observation.intent.targetAdmission ≠ .admitted then .ignored
  else if !page.isAdmissible observation.intent.context then .ignored
  else if observation.intent.event = .other then .ignored
  -- a place has to fit into 32 bits
  else if 2 ^ 32 < observation.fields.length then .ignored
  else
    match (SignupScope.mk observation.intent observation.fields observation.observed
      values).select with
    | some selection => observation.classifySignup page selection
    | none => observation.classifyLogin page

end LoginSubmissionObservation

end Nook.Companion
