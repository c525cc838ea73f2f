import Nook.Companion.LoginSubmission

set_option autoImplicit false

namespace Nook.Companion

open Nook.EventLog

/-! ### What the selectors choose -/

/-- The fields a scope holds a password in. -/
def passwordsOf (observed : List Observation) : List Index :=
  (observed.filter Observation.isPassword).map Observation.fieldIndex

theorem mem_passwordsOf {observed : List Observation} {index : Index} :
    index ∈ passwordsOf observed ↔
      ∃ field ∈ observed, field.isPassword = true ∧ field.fieldIndex = index := by
  simp [passwordsOf, and_assoc]

theorem mem_writableUsernames {observed : List Observation} {index : Index} :
    index ∈ observed.filterMap Plan.writableUsername ↔
      .credential ⟨index, .username, .writable⟩ ∈ observed := by
  rw [List.mem_filterMap]
  constructor
  · rintro ⟨field, member, named⟩
    unfold Plan.writableUsername at named
    split at named
    · cases named
      exact member
    · cases named
  · exact fun member => ⟨_, member, rfl⟩

theorem mem_passwordFields {observed : List Observation} {index : Index}
    {editability : Editability} :
    (index, editability) ∈ observed.filterMap Plan.passwordField ↔
      ∃ kind, .credential ⟨index, .password kind, editability⟩ ∈ observed := by
  rw [List.mem_filterMap]
  constructor
  · rintro ⟨field, member, named⟩
    unfold Plan.passwordField at named
    split at named
    · rename_i kind _
      cases named
      exact ⟨kind, member⟩
    · cases named
  · exact fun ⟨kind, member⟩ => ⟨_, member, rfl⟩

/-- Without a new password the passwords are those a login could fill. -/
theorem passwordsOf_eq {observed : List Observation}
    (clear : ∀ field ∈ observed, Plan.isNewPassword field = false) :
    passwordsOf observed = (observed.filterMap Plan.passwordField).map Prod.fst := by
  induction observed with
  | nil => rfl
  | cons field rest ih =>
    have known := clear field List.mem_cons_self
    have others := ih fun field member => clear field (List.mem_cons_of_mem _ member)
    unfold passwordsOf at others ⊢
    match field with
    | .newPassword _ => cases known
    | .oneTimeCode _ | .credential ⟨_, .username, _⟩ =>
      rw [List.filter_cons_of_neg (by simp [Observation.isPassword]),
        List.filterMap_cons_none (by simp [Plan.passwordField]), others]
    | .credential ⟨index, .password kind, editability⟩ =>
      rw [List.filter_cons_of_pos (by simp [Observation.isPassword]), List.map_cons, others,
        List.filterMap_cons_some (b := (index, editability)) (by simp [Plan.passwordField]),
        List.map_cons]
      rfl

namespace SignupScope

variable {Control Page : Type}

/-- A field that a sign-up may hold. -/
inductive Admits : Observation → Prop where
  | newPassword (index : Index) : Admits (.newPassword index)
  | password (index : Index) : Admits (.credential ⟨index, .password .generic, .writable⟩)
  | username (index : Index) (editability : Editability) :
      Admits (.credential ⟨index, .username, editability⟩)

/-- A sign-up holds no other field, and every password in it counts. -/
theorem newPasswords_eq_some {observed : List Observation} {passwords : List Index}
    (selected : newPasswords observed = some passwords) :
    passwords = passwordsOf observed ∧ ∀ field ∈ observed, Admits field := by
  fun_induction newPasswords observed generalizing passwords with
  | case1 =>
    cases selected
    exact ⟨rfl, by simp⟩
  | case2 index rest ih =>
    obtain ⟨others, found, named⟩ := Option.map_eq_some_iff.mp selected
    obtain ⟨same, all⟩ := ih found
    rw [← named, same]
    exact ⟨rfl, List.forall_mem_cons.mpr ⟨.newPassword index, all⟩⟩
  | case3 index rest ih =>
    obtain ⟨others, found, named⟩ := Option.map_eq_some_iff.mp selected
    obtain ⟨same, all⟩ := ih found
    rw [← named, same]
    exact ⟨rfl, List.forall_mem_cons.mpr ⟨.password index, all⟩⟩
  | case4 index editability rest ih =>
    obtain ⟨same, all⟩ := ih selected
    exact ⟨same, List.forall_mem_cons.mpr ⟨.username index editability, all⟩⟩
  | case5 => cases selected
  | case6 => cases selected
  | case7 => cases selected

theorem mem_of_accountIdentifier {scope : SignupScope Control Page} {password username : Index}
    (chosen : scope.accountIdentifier password = some username) :
    .credential ⟨username, .username, .writable⟩ ∈ scope.observed := by
  rw [← mem_writableUsernames]
  unfold accountIdentifier at chosen
  simp only at chosen
  split at chosen
  · rename_i only explicit
    cases chosen
    exact List.mem_of_mem_filter (explicit ▸ List.mem_singleton_self _)
  · exact List.mem_of_mem_filter (List.max?_mem chosen)

theorem selectPassword_eq_some {scope : SignupScope Control Page} {passwords : List Index}
    {password : Index} {confirmation : Option Index}
    (chosen : scope.selectPassword passwords = some (password, confirmation)) :
    (confirmation = none ∧ passwords = [password]) ∨
      ∃ second, confirmation = some second ∧ passwords = [password, second] ∧
        scope.values.sameNonemptyValue password second = true := by
  unfold selectPassword at chosen
  split at chosen
  · split at chosen
    · cases chosen
      exact .inl ⟨rfl, rfl⟩
    · cases chosen
  · rename_i second
    split at chosen
    · rename_i same
      cases chosen
      exact .inr ⟨second, rfl, rfl, same⟩
    · cases chosen
  · cases chosen

/-- The passwords of a sign-up: one, or one and its confirmation. -/
theorem select_eq_some {scope : SignupScope Control Page} {selection : SignupSelection}
    (selected : scope.select = some selection) :
    (∀ field ∈ scope.observed, Admits field) ∧
      .credential ⟨selection.username, .username, .writable⟩ ∈ scope.observed ∧
      ((selection.confirmation = none ∧ passwordsOf scope.observed = [selection.password]) ∨
        ∃ confirmation, selection.confirmation = some confirmation ∧
          passwordsOf scope.observed = [selection.password, confirmation] ∧
          scope.values.sameNonemptyValue selection.password confirmation = true) := by
  obtain ⟨passwords, admitted, selected⟩ := Option.bind_eq_some_iff.mp selected
  obtain ⟨⟨password, confirmation⟩, chosen, selected⟩ := Option.bind_eq_some_iff.mp selected
  obtain ⟨username, identified, named⟩ := Option.bind_eq_some_iff.mp selected
  obtain ⟨all, admits⟩ := newPasswords_eq_some admitted
  cases named
  refine ⟨admits, mem_of_accountIdentifier identified, ?_⟩
  rw [← all]
  rcases selectPassword_eq_some chosen with ⟨absent, only⟩ | ⟨second, present, both, same⟩
  · exact .inl ⟨absent, only⟩
  · exact .inr ⟨second, present, both, same⟩

end SignupScope

namespace LoginSubmissionObservation

variable {Control Page : Type}

/-! ### The places of observed fields -/

theorem lt_of_mem_observed {observation : LoginSubmissionObservation Control Page}
    {field : Observation} (member : field ∈ observation.observed) :
    field.fieldIndex < observation.fields.length := by
  obtain ⟨⟨input, index⟩, listed, named⟩ := List.mem_filterMap.mp member
  split at named
  · rename_i classified
    cases named
    rw [Classification.fieldIndex_of_observed classified]
    simpa using List.snd_lt_of_mem_zipIdx listed
  · cases named

/-- The observed fields stand in the order of their places. -/
theorem observed_pairwise (observation : LoginSubmissionObservation Control Page) :
    observation.observed.Pairwise fun field later => field.fieldIndex < later.fieldIndex := by
  unfold observed
  rw [List.pairwise_filterMap]
  have places : (observation.fields.zipIdx.map Prod.snd).Pairwise (· < ·) := by
    rw [List.zipIdx_map_snd]
    exact List.pairwise_lt_range' 1
  rw [List.pairwise_map] at places
  apply places.imp
  intro input later before field named field' named'
  split at named
  · rename_i classified
    split at named'
    · rename_i classified'
      cases named
      cases named'
      rw [Classification.fieldIndex_of_observed classified,
        Classification.fieldIndex_of_observed classified']
      exact before
    · cases named'
  · cases named

/-- A place is observed once. -/
theorem eq_of_fieldIndex {observation : LoginSubmissionObservation Control Page}
    {field other : Observation} (member : field ∈ observation.observed)
    (otherMember : other ∈ observation.observed) (same : field.fieldIndex = other.fieldIndex) :
    field = other := by
  have distinct : (observation.observed.map Observation.fieldIndex).Nodup :=
    List.pairwise_map.mpr (observation.observed_pairwise.imp Nat.ne_of_lt)
  exact List.inj_on_of_nodup_map distinct member otherMember same

/-! ### What a captured submission stands for -/

/-- The password is the only one, the username the only one that can be written. -/
structure SoleLogin (observed : List Observation) (username password : Index) : Prop where
  passwords : passwordsOf observed = [password]
  usernames : observed.filterMap Plan.writableUsername = [username]
  noNewPassword : ∀ index, .newPassword index ∉ observed

/-- All passwords are new ones, and beside the password there is at most one of the same value. -/
structure NewAccount (observed : List Observation) (values : List Str) (password : Index) :
    Prop where
  noCurrentPassword : ∀ index editability,
    .credential ⟨index, .password .current, editability⟩ ∉ observed
  noReadonlyPassword : ∀ index kind, .credential ⟨index, .password kind, .readonly⟩ ∉ observed
  passwords : passwordsOf observed = [password] ∨ ∃ confirmation, ∃ text ≠ [],
    passwordsOf observed = [password, confirmation] ∧ password ≠ confirmation ∧
      values[password]? = some text ∧ values[confirmation]? = some text

/-- A trusted submission of one login or sign-up, whose fields cannot be mistaken. -/
structure Unambiguous (observation : LoginSubmissionObservation Control Page) (values : List Str)
    (username password : Index) (kind : AuthenticationWorkflowKind) : Prop where
  trusted : observation.intent.trust = .trusted
  submitted : (observation.intent.event = .formSubmit ∨ observation.intent.event = .click) ∧
      observation.intent.target = .credentialScope ∨
    observation.intent.event = .enter ∧ ∃ field, observation.intent.target = .credentialField field ∧
      (field = username ∨ field ∈ passwordsOf observation.observed)
  apart : username ≠ password
  usernameAdded : username < observation.fields.length
  passwordAdded : password < observation.fields.length
  usernameObserved : .credential ⟨username, .username, .writable⟩ ∈ observation.observed
  passwordObserved : .newPassword password ∈ observation.observed ∨
    ∃ kind, .credential ⟨password, .password kind, .writable⟩ ∈ observation.observed
  noOneTimeCode : ∀ index, .oneTimeCode index ∉ observation.observed
  kind : kind = .login ∧ SoleLogin observation.observed username password ∨
    kind = .signup ∧ NewAccount observation.observed values password

/-- The places of a writable username and of a password are two. -/
theorem places {observation : LoginSubmissionObservation Control Page} {username password : Index}
    (usernameObserved : .credential ⟨username, .username, .writable⟩ ∈ observation.observed)
    (passwordObserved : .newPassword password ∈ observation.observed ∨
      ∃ kind, .credential ⟨password, .password kind, .writable⟩ ∈ observation.observed) :
    username ≠ password ∧ username < observation.fields.length ∧
      password < observation.fields.length := by
  refine ⟨?_, lt_of_mem_observed usernameObserved, ?_⟩
  · intro same
    rcases passwordObserved with member | ⟨kind, member⟩
    · cases eq_of_fieldIndex usernameObserved member same
    · cases eq_of_fieldIndex usernameObserved member same
  · rcases passwordObserved with member | ⟨kind, member⟩
    · exact lt_of_mem_observed member
    · exact lt_of_mem_observed member

theorem unambiguous_of_classifySignup {observation : LoginSubmissionObservation Control Page}
    {page : PageClassifiers Control Page} {values : List Str} {selection : SignupSelection}
    {username password : Index} {kind : AuthenticationWorkflowKind}
    (trusted : observation.intent.trust = .trusted)
    (selected : (SignupScope.mk observation.intent observation.fields observation.observed
      (.fromValues values)).select = some selection)
    (captured : observation.classifySignup page selection = .captured username password kind) :
    observation.Unambiguous values username password kind := by
  obtain ⟨admits, usernameObserved, passwords⟩ := SignupScope.select_eq_some selected
  have held : selection.password ∈ passwordsOf observation.observed := by
    rcases passwords with ⟨_, only⟩ | ⟨_, _, both, _⟩
    · exact only ▸ List.mem_singleton_self _
    · exact both ▸ List.mem_cons_self
  have passwordObserved : .newPassword selection.password ∈ observation.observed ∨
      ∃ kind, .credential ⟨selection.password, .password kind, .writable⟩ ∈
        observation.observed := by
    obtain ⟨field, member, marked, named⟩ := mem_passwordsOf.mp held
    cases admits field member with
    | newPassword index =>
      cases named
      exact .inl member
    | password index =>
      cases named
      exact .inr ⟨.generic, member⟩
    | username => cases marked
  obtain ⟨apart, usernameAdded, passwordAdded⟩ := places usernameObserved passwordObserved
  have targets : ∀ field, selection.includesTarget field = true →
      field = selection.username ∨ field ∈ passwordsOf observation.observed := by
    intro field included
    unfold SignupSelection.includesTarget at included
    rw [Bool.or_eq_true, Bool.or_eq_true, beq_iff_eq, beq_iff_eq, beq_iff_eq] at included
    rcases included with (confirmed | named) | named
    · rcases passwords with ⟨none, _⟩ | ⟨confirmation, some, both, _⟩
      · rw [none] at confirmed
        cases confirmed
      · rw [some] at confirmed
        cases confirmed
        exact .inr (both ▸ by simp)
    · exact .inl named
    · exact .inr (named ▸ held)
  have newAccount : NewAccount observation.observed values selection.password := by
    refine ⟨?_, ?_, ?_⟩
    · intro index editability member
      cases admits _ member
    · intro index kind member
      cases admits _ member
    · rcases passwords with ⟨_, only⟩ | ⟨confirmation, _, both, same⟩
      · exact .inl only
      · obtain ⟨text, nonempty, held, held'⟩ :=
          LoginCapturedValueMatches.same_of_sameNonemptyValue same
        refine .inr ⟨confirmation, text, nonempty, both, ?_, held, held'⟩
        have ordered : (passwordsOf observation.observed).Pairwise (· < ·) :=
          List.pairwise_map.mpr (observation.observed_pairwise.filter _)
        rw [both] at ordered
        simpa using (List.pairwise_cons.mp ordered).1 confirmation List.mem_cons_self |>.ne
  have submitted : (username, password, kind) =
        (selection.username, selection.password, AuthenticationWorkflowKind.signup) ∧
      ((observation.intent.event = .formSubmit ∨ observation.intent.event = .click) ∧
        observation.intent.target = .credentialScope ∨
      observation.intent.event = .enter ∧ ∃ field,
        observation.intent.target = .credentialField field ∧
          (field = selection.username ∨ field ∈ passwordsOf observation.observed)) := by
    unfold classifySignup at captured
    split at captured
    · split at captured
      · cases captured
      · split at captured
        · rename_i field event target
          split at captured
          · rename_i included
            cases captured
            exact ⟨rfl, .inr ⟨event, field, target, targets field included⟩⟩
          · cases captured
        · rename_i event target
          cases captured
          exact ⟨rfl, .inl ⟨.inl event, target⟩⟩
        · rename_i event target
          cases captured
          exact ⟨rfl, .inl ⟨.inr event, target⟩⟩
        · cases captured
    · cases captured
  obtain ⟨named, submitted⟩ := submitted
  cases named
  have noOneTimeCode : ∀ index, .oneTimeCode index ∉ observation.observed := by
    intro index member
    cases admits _ member
  exact ⟨trusted, submitted, apart, usernameAdded, passwordAdded, usernameObserved,
    passwordObserved, noOneTimeCode, .inr ⟨rfl, newAccount⟩⟩

theorem unambiguous_of_classifyLogin {observation : LoginSubmissionObservation Control Page}
    {page : PageClassifiers Control Page} {values : List Str} {username password : Index}
    {kind : AuthenticationWorkflowKind} (trusted : observation.intent.trust = .trusted)
    (captured : observation.classifyLogin page = .captured username password kind) :
    observation.Unambiguous values username password kind := by
  unfold classifyLogin at captured
  split at captured
  · split at captured <;> cases captured
  · split at captured
    · cases captured
    · rename_i plan planned
      split at captured
      · cases captured
      · cases captured
      · split at captured
        · cases captured
        · split at captured
          · rename_i user pass both
            obtain ⟨usernames, passwords, clear⟩ := Plan.fields_of_fromFields planned both
            have sole : passwordsOf observation.observed = [pass] := by
              rw [passwordsOf_eq fun field member => (clear field member).1, passwords]
              rfl
            have usernameObserved := mem_writableUsernames.mp
              (usernames ▸ List.mem_singleton_self user)
            have passwordObserved := mem_passwordFields.mp
              (passwords ▸ List.mem_singleton_self (pass, Editability.writable))
            obtain ⟨apart, usernameAdded, passwordAdded⟩ :=
              places usernameObserved (.inr passwordObserved)
            have noNewPassword : ∀ index, .newPassword index ∉ observation.observed :=
              fun index member => Bool.noConfusion (clear _ member).1
            have noOneTimeCode : ∀ index, .oneTimeCode index ∉ observation.observed :=
              fun index member => Bool.noConfusion (clear _ member).2
            have login : ∀ submitted, observation.Unambiguous values user pass .login :=
              fun submitted => ⟨trusted, submitted, apart, usernameAdded, passwordAdded,
                usernameObserved, .inr passwordObserved, noOneTimeCode,
                .inl ⟨rfl, sole, usernames, noNewPassword⟩⟩
            unfold LoginSubmissionIntent.classifySelectedFields at captured
            split at captured
            · rename_i field event target
              split at captured
              · rename_i included
                cases captured
                refine login (.inr ⟨event, field, target, ?_⟩)
                rw [sole, List.mem_singleton]
                exact included
              · cases captured
            · rename_i event target
              cases captured
              exact login (.inl ⟨.inl event, target⟩)
            · rename_i event target
              cases captured
              exact login (.inl ⟨.inr event, target⟩)
            · cases captured
          · cases captured
  · cases captured

/-- A login is captured only from an unambiguous trusted submission. -/
theorem unambiguous_of_captured (observation : LoginSubmissionObservation Control Page)
    (page : PageClassifiers Control Page) (values : List Str) (username password : Index)
    (kind : AuthenticationWorkflowKind)
    (captured : observation.classify page (.fromValues values) =
      .captured username password kind) :
    observation.Unambiguous values username password kind := by
  unfold classify at captured
  split_ifs at captured with untrusted elsewhere inadmissible other many
  have trusted : observation.intent.trust = .trusted := not_not.mp untrusted
  split at captured
  · rename_i selection selected
    exact unambiguous_of_classifySignup trusted selected captured
  · exact unambiguous_of_classifyLogin trusted captured

end LoginSubmissionObservation

namespace TestSupport

/-- Every page is a login's, and every control advances it. -/
def loginPage : PageClassifiers Unit Unit where
  isAdmissible _ := true
  classifyAuthenticationWorkflow _ := .matched ⟨.login, .credentials⟩
  classifyAuthenticationWorkflowCandidates _ := .matched ⟨.login, .credentials⟩
  classifySubmittedLoginCandidate _ _ := .admitted

def textField (inputType : PageInputType) (token : String) : LoginSubmissionField where
  page := {
    inputType
    disabled := false
    readOnly := false
    autocompleteTokens := [token.toList]
    identityText := []
    loginContext := .authentication
    oneTimeCodeEntry := .unobserved }
  passwordHistory := .unobserved

/-- A form with a username and a password, sent by the user. -/
def submittedLogin : LoginSubmissionObservation Unit Unit where
  intent := {
    event := .formSubmit
    trust := .trusted
    target := .credentialScope
    controlLabel := "Sign in".toList
    context := ⟨{}, "login".toList, [], .absent, ()⟩ }
  fields := [textField .text "username", textField .password "current-password"]

theorem unambiguous_of_captured_login :
    submittedLogin.Unambiguous ["me".toList, "secret".toList] 0 1 .login :=
  submittedLogin.unambiguous_of_captured loginPage _ 0 1 .login (by decide +kernel)

end TestSupport

end Nook.Companion
