import Mathlib.Data.List.Forall2
import Mathlib.Tactic.Common

set_option autoImplicit false

namespace Nook.Lib

variable {α β ε : Type}

/-- A sequence succeeds when its first part does and the rest does from its value. -/
theorem bind_eq_ok {first : Except ε α} {next : α → Except ε β} {result : β} :
    (first >>= next) = .ok result ↔ ∃ value, first = .ok value ∧ next value = .ok result := by
  cases first with
  | error cause => simp [bind, Except.bind]
  | ok value => simp [bind, Except.bind]

theorem map_eq_ok {first : Except ε α} {f : α → β} {result : β} :
    first.map f = .ok result ↔ ∃ value, first = .ok value ∧ f value = result := by
  cases first <;> simp [Except.map]

theorem mapError_eq_ok {ε' : Type} {first : Except ε α} {f : ε → ε'} {result : α} :
    first.mapError f = .ok result ↔ first = .ok result := by
  cases first <;> simp [Except.mapError]

theorem exists_of_isOk {result : Except ε α} (succeeded : result.isOk = true) :
    ∃ value, result = .ok value := by
  cases result with
  | error => cases succeeded
  | ok value => exact ⟨value, rfl⟩

theorem discard_eq_ok {result : Except ε α} (done : discard result = .ok ()) :
    ∃ value, result = .ok value := by
  cases result with
  | error => cases done
  | ok value => exact ⟨value, rfl⟩

/-- A result that passes a check. -/
def passes (result : Except ε α) (check : α → Bool) : Bool :=
  match result with
  | .ok value => check value
  | .error _ => false

theorem exists_of_passes (result : Except ε α) (check : α → Bool)
    (passed : passes result check = true) : ∃ value, result = .ok value ∧ check value = true := by
  cases result with
  | error => cases passed
  | ok value => exact ⟨value, rfl, passed⟩

/-- An error of a sequence is an error of one of its parts. -/
theorem bind_eq_error {first : Except ε α} {next : α → Except ε β} {cause : ε} :
    (first >>= next) = .error cause ↔
      first = .error cause ∨ ∃ value, first = .ok value ∧ next value = .error cause := by
  cases first with
  | error other => simp [bind, Except.bind]
  | ok value => simp [bind, Except.bind]

theorem foldlM_error {step : β → α → Except ε β} {P : ε → Prop}
    (fails : ∀ state a cause, step state a = .error cause → P cause) (list : List α) (start : β)
    {cause : ε} (failed : list.foldlM step start = .error cause) : P cause := by
  induction list generalizing start with
  | nil => cases failed
  | cons head tail ih =>
    rw [List.foldlM_cons] at failed
    rcases bind_eq_error.mp failed with now | ⟨next, _, later⟩
    · exact fails start head cause now
    · exact ih next later

theorem foldlM_congr_mem (step other : β → α → Except ε β) (list : List α)
    (same : ∀ a ∈ list, ∀ state, step state a = other state a) (start : β) :
    list.foldlM step start = list.foldlM other start := by
  induction list generalizing start with
  | nil => rfl
  | cons head tail ih =>
    rw [List.foldlM_cons, List.foldlM_cons, same head (by simp)]
    congr 1
    funext next
    exact ih (fun a member => same a (by simp [member])) next

/-- A fold whose every step succeeds and keeps an invariant of what was done. -/
theorem foldlM_rule {step : β → α → Except ε β} (Inv : List α → β → Prop) (list : List α)
    (start : β) (base : Inv [] start) (keeps : ∀ before a state, a ∈ list → Inv before state →
      ∃ next, step state a = .ok next ∧ Inv (before ++ [a]) next) :
    ∃ result, list.foldlM step start = .ok result ∧ Inv list result := by
  have general : ∀ (rest before : List α) (state : β), Inv before state → (∀ a ∈ rest, a ∈ list) →
      ∃ result, rest.foldlM step state = .ok result ∧ Inv (before ++ rest) result := by
    intro rest
    induction rest with
    | nil => exact fun before state holds _ => ⟨state, rfl, by rwa [List.append_nil]⟩
    | cons head tail ih =>
      intro before state holds inside
      obtain ⟨next, stepped, kept⟩ := keeps before head state (inside head List.mem_cons_self) holds
      obtain ⟨result, folded, done⟩ := ih (before ++ [head]) next kept
        fun a member => inside a (List.mem_cons_of_mem _ member)
      refine ⟨result, ?_, ?_⟩
      · rw [List.foldlM_cons, stepped]
        exact folded
      · rwa [List.append_assoc] at done
  exact general list [] start base fun _ member => member

/-- What each step of a fold that succeeded preserves, of what was done so far. -/
theorem foldlM_traces {step : β → α → Except ε β} (Inv : List α → β → Prop)
    (keeps : ∀ before a state next, Inv before state → step state a = .ok next →
      Inv (before ++ [a]) next) (list before : List α) {start result : β} (base : Inv before start)
    (folded : list.foldlM step start = .ok result) : Inv (before ++ list) result := by
  induction list generalizing before start with
  | nil =>
    cases folded
    rwa [List.append_nil]
  | cons head tail ih =>
    rw [List.foldlM_cons] at folded
    obtain ⟨next, stepped, rest⟩ := bind_eq_ok.mp folded
    have done := ih (before ++ [head]) (keeps before head start next base stepped) rest
    rwa [List.append_assoc] at done

/-- What is observed of the state of a fold is the fold of what each step does to it. -/
theorem foldlM_observe {γ : Type} {step : β → α → Except ε β} (observe : β → γ) (next : γ → α → γ)
    (list : List α) (observed : ∀ a ∈ list, ∀ state result, step state a = .ok result →
      observe result = next (observe state) a) {start result : β}
    (folded : list.foldlM step start = .ok result) :
    observe result = list.foldl next (observe start) := by
  induction list generalizing start with
  | nil =>
    cases folded
    rfl
  | cons head tail ih =>
    rw [List.foldlM_cons] at folded
    obtain ⟨middle, first, rest⟩ := bind_eq_ok.mp folded
    rw [List.foldl_cons, ← observed head (by simp) start middle first]
    exact ih (fun a member => observed a (by simp [member])) rest

theorem forM_eq_ok {step : α → Except ε Unit} {list : List α} :
    list.forM step = .ok () ↔ ∀ a ∈ list, step a = .ok () := by
  rw [List.forM_eq_forM]
  induction list with
  | nil => simp [pure, Except.pure]
  | cons head tail ih =>
    rw [List.forM_cons, bind_eq_ok, List.forall_mem_cons, ih]
    constructor
    · rintro ⟨⟨⟩, first, rest⟩
      exact ⟨first, rest⟩
    · rintro ⟨first, rest⟩
      exact ⟨(), first, rest⟩

theorem foldlM_mapError {ε' : Type} (f : ε → ε') (step : β → α → Except ε β) (list : List α)
    (start : β) : list.foldlM (fun state a => (step state a).mapError f) start =
      (list.foldlM step start).mapError f := by
  induction list generalizing start with
  | nil => rfl
  | cons head tail ih =>
    rw [List.foldlM_cons, List.foldlM_cons]
    cases step start head with
    | error => rfl
    | ok next => exact ih next

/-- A traversal succeeds when every step of it does. -/
theorem exists_mapM_eq_ok {step : α → Except ε β} {list : List α}
    (succeeds : ∀ a ∈ list, ∃ b, step a = .ok b) : ∃ results, list.mapM step = .ok results := by
  induction list with
  | nil => exact ⟨[], rfl⟩
  | cons head tail ih =>
    obtain ⟨first, headOk⟩ := succeeds head List.mem_cons_self
    obtain ⟨others, tailOk⟩ := ih fun a member => succeeds a (List.mem_cons_of_mem _ member)
    refine ⟨first :: others, ?_⟩
    rw [List.mapM_cons, headOk]
    show (tail.mapM step >>= _) = _
    rw [tailOk]
    rfl

/-- What a traversal that succeeds collects. -/
theorem mem_of_mapM_eq_ok {step : α → Except ε β} {list : List α} {results : List β}
    (collected : list.mapM step = .ok results) {b : β} :
    b ∈ results ↔ ∃ a ∈ list, step a = .ok b := by
  induction list generalizing results with
  | nil =>
    cases collected
    simp
  | cons head tail ih =>
    rw [List.mapM_cons] at collected
    obtain ⟨first, headOk, collected⟩ := bind_eq_ok.mp collected
    obtain ⟨others, tailOk, same⟩ := bind_eq_ok.mp collected
    cases same
    rw [List.mem_cons, ih tailOk]
    simp only [List.mem_cons, exists_eq_or_imp, headOk, Except.ok.injEq]
    rw [eq_comm]

/-- A traversal whose results name what they come from collects them in order. -/
theorem map_of_mapM_eq_ok {step : α → Except ε β} {f : β → α}
    (names : ∀ a b, step a = .ok b → f b = a) {list : List α} {results : List β}
    (collected : list.mapM step = .ok results) : results.map f = list := by
  induction list generalizing results with
  | nil =>
    cases collected
    rfl
  | cons head tail ih =>
    rw [List.mapM_cons] at collected
    obtain ⟨first, headOk, collected⟩ := bind_eq_ok.mp collected
    obtain ⟨others, tailOk, same⟩ := bind_eq_ok.mp collected
    cases same
    rw [List.map_cons, ih tailOk, names head first headOk]

/-- A traversal is its step on each element. -/
theorem mapM_eq_ok_iff {step : α → Except ε β} {list : List α} {results : List β} :
    list.mapM step = .ok results ↔ List.Forall₂ (fun a b => step a = .ok b) list results := by
  induction list generalizing results with
  | nil => cases results <;> simp [pure, Except.pure]
  | cons head tail ih =>
    rw [List.mapM_cons, List.forall₂_cons_left_iff]
    constructor
    · intro collected
      obtain ⟨first, headOk, collected⟩ := bind_eq_ok.mp collected
      obtain ⟨others, tailOk, same⟩ := bind_eq_ok.mp collected
      cases same
      exact ⟨first, others, headOk, ih.mp tailOk, rfl⟩
    · rintro ⟨first, others, headOk, tailOk, rfl⟩
      exact bind_eq_ok.mpr ⟨first, headOk, bind_eq_ok.mpr ⟨others, ih.mpr tailOk, rfl⟩⟩

theorem exists_right_of_forall₂ {holds : α → β → Prop} {list : List α} {results : List β}
    (pairs : List.Forall₂ holds list results) : ∀ a ∈ list, ∃ b ∈ results, holds a b := by
  induction pairs with
  | nil => simp
  | cons pair _ ih =>
    rw [List.forall_mem_cons]
    refine ⟨⟨_, List.mem_cons_self, pair⟩, fun a member => ?_⟩
    obtain ⟨b, listed, related⟩ := ih a member
    exact ⟨b, List.mem_cons_of_mem _ listed, related⟩

theorem exists_left_of_forall₂ {holds : α → β → Prop} {list : List α} {results : List β}
    (pairs : List.Forall₂ holds list results) : ∀ b ∈ results, ∃ a ∈ list, holds a b :=
  exists_right_of_forall₂ pairs.flip

/-- A traversal that numbers its elements relates each to its result. -/
theorem forall₂_of_zipIdx {step : α × Nat → Except ε β}
    {holds : α → β → Prop} {list : List α} {results : List β}
    (steps : ∀ a ∈ list, ∀ place b, step (a, place) = .ok b → holds a b) :
    ∀ start : Nat, (list.zipIdx start).mapM step = .ok results →
      List.Forall₂ holds list results := by
  induction list generalizing results with
  | nil =>
    intro start collected
    cases collected
    exact .nil
  | cons head tail ih =>
    intro start collected
    rw [List.zipIdx_cons, mapM_eq_ok_iff, List.forall₂_cons_left_iff] at collected
    obtain ⟨first, others, headOk, tailOk, rfl⟩ := collected
    exact .cons (steps head List.mem_cons_self start first headOk)
      (ih (fun a member => steps a (List.mem_cons_of_mem _ member)) (start + 1)
        (mapM_eq_ok_iff.mpr tailOk))

/-- A step that turns every element back turns a whole traversal back. -/
theorem zipIdx_of_forall₂ {step : β × Nat → Except ε α}
    {holds : α → β → Prop} {list : List α} {results : List β}
    (pairs : List.Forall₂ holds list results)
    (steps : ∀ a b place, holds a b → step (b, place) = .ok a) :
    ∀ start : Nat, (results.zipIdx start).mapM step = .ok list := by
  induction pairs with
  | nil => exact fun _ => rfl
  | cons pair _ ih =>
    intro start
    rw [List.zipIdx_cons, mapM_eq_ok_iff]
    exact .cons (steps _ _ start pair) (mapM_eq_ok_iff.mp (ih (start + 1)))

end Nook.Lib
