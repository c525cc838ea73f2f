import Nook.Lib.Except

set_option autoImplicit false

namespace Nook.Lib

/-! ### Operations that change an owned value in place

An operation may be refused after it has changed its value, and a refusal carries the
value as the operation left it. -/

variable {ε σ ρ α β τ : Type}

/-- Run an operation: its result with the changed value, or its refusal with the value
as it was left. -/
def finish (reject : σ → ε → ρ) (result : α → σ → τ) (operation : EStateM ε σ α) (value : σ) :
    Except ρ τ :=
  match operation value with
  | .ok a after => .ok (result a after)
  | .error cause after => .error (reject after cause)

variable {reject : σ → ε → ρ} {result : α → σ → τ} {value : σ}

theorem finish_get (next : σ → EStateM ε σ α) :
    finish reject result (get >>= next) value = finish reject result (next value) value := rfl

theorem finish_pure (a : α) :
    finish reject result (pure a) value = .ok (result a value) := rfl

theorem finish_throw (cause : ε) :
    finish reject result (throw cause) value = .error (reject value cause) := rfl

theorem finish_modify (change : σ → σ) (next : PUnit → EStateM ε σ α) :
    finish reject result (modify change >>= next) value =
      finish reject result (next ⟨⟩) (change value) := rfl

theorem finish_bind (first : EStateM ε σ β) (next : β → EStateM ε σ α) :
    finish reject result (first >>= next) value =
      match first value with
      | .ok b after => finish reject result (next b) after
      | .error cause after => .error (reject after cause) := by
  unfold finish
  show (match EStateM.bind first next value with | .ok a after => _ | .error cause after => _) = _
  unfold EStateM.bind
  cases first value <;> rfl

/-- A step that only reads is refused with the value it was run on. -/
theorem finish_read {x : Except ε β} {next : β → EStateM ε σ α} {rest : β → Except ε τ}
    (later : ∀ b, x = .ok b →
      finish reject result (next b) value = (rest b).mapError (reject value)) :
    finish reject result (liftExcept x >>= next) value =
      (x >>= rest).mapError (reject value) := by
  cases x with
  | ok b => exact later b rfl
  | error cause => rfl

/-- An operation that is refused, by a step that only reads or by what follows it. -/
theorem finish_read_eq_error {x : Except ε β} {next : β → EStateM ε σ α} {rejection : ρ}
    (refused : finish reject result (liftExcept x >>= next) value = .error rejection) :
    (∃ cause, rejection = reject value cause) ∨
      ∃ b, x = .ok b ∧ finish reject result (next b) value = .error rejection := by
  cases x with
  | ok b => exact Or.inr ⟨b, rfl, refused⟩
  | error cause =>
    cases refused
    exact Or.inl ⟨cause, rfl⟩

/-- What is refused of an operation whose refusals are computed from the value it was
called on carries that value. -/
theorem mapError_eq_error {x : Except ε τ} {f : ε → ρ} {rejection : ρ}
    (refused : x.mapError f = .error rejection) : ∃ cause, f cause = rejection := by
  cases x with
  | ok a => cases refused
  | error cause =>
    cases refused
    exact ⟨cause, rfl⟩

theorem map_eq_error {x : Except ε α} {f : α → τ} {cause : ε} (refused : x.map f = .error cause) :
    x = .error cause := by
  cases x with
  | ok a => cases refused
  | error other =>
    cases refused
    rfl

/-- A loop of changes that are never refused. -/
theorem finish_forM {entries : List β} {step : β → EStateM ε σ PUnit}
    {next : PUnit → EStateM ε σ α} (Inv : σ → Prop) (change : σ → β → σ) (holds : Inv value)
    (steps : ∀ entry ∈ entries, ∀ state, Inv state →
      step entry state = .ok ⟨⟩ (change state entry) ∧ Inv (change state entry)) :
    finish reject result (entries.forM step >>= next) value =
      finish reject result (next ⟨⟩) (entries.foldl change value) := by
  have runs : entries.forM step value = .ok ⟨⟩ (entries.foldl change value) := by
    induction entries generalizing value with
    | nil => rfl
    | cons head tail ih =>
      obtain ⟨first, kept⟩ := steps head (by simp) value holds
      show EStateM.bind (step head) (fun _ => tail.forM step) value = _
      unfold EStateM.bind
      rw [first]
      exact ih kept fun entry inside => steps entry (by simp [inside])
  rw [finish_bind, runs]

end Nook.Lib
