import Mathlib.Init

set_option autoImplicit false

namespace Nook.Lib

variable {σ ρ : Type}

/-- One round of a loop: go around again from a new state, or leave with a result. -/
inductive Round (σ ρ : Type) where
  | again (state : σ)
  | done (result : ρ)

/-- At most `fuel` rounds; `none` when the loop has not left by then. -/
def runLoop (round : σ → Round σ ρ) : Nat → σ → Option ρ
  | 0, _ => none
  | fuel + 1, state =>
    match round state with
    | .again next => runLoop round fuel next
    | .done result => some result

/-- The total-correctness rule: an invariant and a measure that every further
round decreases. The loop leaves, and it leaves from a state of the invariant. -/
theorem runLoop_rule (round : σ → Round σ ρ) (Inv : σ → Prop) (left : σ → Nat)
    (step : ∀ state next, Inv state → round state = .again next →
      Inv next ∧ left next < left state)
    (fuel : Nat) (state : σ) (holds : Inv state) (enough : left state < fuel) :
    ∃ last result, Inv last ∧ round last = .done result ∧
      runLoop round fuel state = some result := by
  induction fuel generalizing state with
  | zero => omega
  | succ fuel ih =>
    cases outcome : round state with
    | done result => exact ⟨state, result, holds, outcome, by simp only [runLoop, outcome]⟩
    | again next =>
      obtain ⟨nextHolds, shorter⟩ := step state next holds outcome
      obtain ⟨last, result, lastHolds, leaves, same⟩ := ih next nextHolds (by omega)
      exact ⟨last, result, lastHolds, leaves, by simp only [runLoop, outcome, same]⟩

/-- The partial rule: a result, when there is one, comes from a state of the invariant. -/
theorem runLoop_some (round : σ → Round σ ρ) (Inv : σ → Prop)
    (step : ∀ state next, Inv state → round state = .again next → Inv next)
    (fuel : Nat) (state : σ) (holds : Inv state) (result : ρ)
    (ran : runLoop round fuel state = some result) :
    ∃ last, Inv last ∧ round last = .done result := by
  induction fuel generalizing state with
  | zero => cases ran
  | succ fuel ih =>
    cases outcome : round state with
    | done value =>
      simp only [runLoop, outcome, Option.some.injEq] at ran
      exact ⟨state, holds, ran ▸ outcome⟩
    | again next =>
      simp only [runLoop, outcome] at ran
      exact ih next (step state next holds outcome) ran

/-- More fuel leaves with the same result. -/
theorem runLoop_succ (round : σ → Round σ ρ) {fuel : Nat} {state : σ} {result : ρ}
    (ran : runLoop round fuel state = some result) :
    runLoop round (fuel + 1) state = some result := by
  induction fuel generalizing state with
  | zero => cases ran
  | succ fuel ih =>
    unfold runLoop at ran ⊢
    cases outcome : round state with
    | done value => simpa only [outcome] using ran
    | again next =>
      simp only [outcome] at ran
      exact ih ran

/-- The usual measure of a loop that marks keys: the number of unmarked ones. -/
theorem length_filter_lt {Key : Type} {keys : List Key} {before after : Key → Bool} (key : Key)
    (fewer : ∀ other, after other = true → before other = true) (member : key ∈ keys)
    (lost : before key = true) (marked : after key = false) :
    (keys.filter after).length < (keys.filter before).length := by
  have nested : keys.filter after = (keys.filter before).filter after := by
    rw [List.filter_filter]
    apply List.filter_congr
    intro other _
    cases kept : after other
    · rfl
    · simp [fewer other kept]
  rw [nested, List.length_filter_lt_length_iff_exists]
  exact ⟨key, List.mem_filter.mpr ⟨member, lost⟩, by simp [marked]⟩

end Nook.Lib
