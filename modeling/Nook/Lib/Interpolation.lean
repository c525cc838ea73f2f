import Mathlib.LinearAlgebra.Lagrange

set_option autoImplicit false

namespace Nook.Lib

open Polynomial

variable {F : Type} [Field F]

/-! ### The polynomial with given coefficients -/

/-- The constant coefficient stands first. -/
noncomputable def ofCoefficients : List F → F[X]
  | [] => 0
  | coefficient :: higher => C coefficient + X * ofCoefficients higher

@[simp] theorem eval_ofCoefficients_nil (x : F) : (ofCoefficients ([] : List F)).eval x = 0 :=
  eval_zero

@[simp] theorem eval_ofCoefficients_cons (coefficient : F) (higher : List F) (x : F) :
    (ofCoefficients (coefficient :: higher)).eval x =
      coefficient + x * (ofCoefficients higher).eval x := by
  simp [ofCoefficients]

theorem coeff_ofCoefficients (coefficients : List F) (power : Nat)
    (beyond : coefficients.length ≤ power) : (ofCoefficients coefficients).coeff power = 0 := by
  induction coefficients generalizing power with
  | nil => exact coeff_zero power
  | cons coefficient higher ih =>
    cases power with
    | zero => cases beyond
    | succ power => simp [ofCoefficients, coeff_C_succ, ih power (by simpa using beyond)]

theorem degree_ofCoefficients_lt (coefficients : List F) :
    (ofCoefficients coefficients).degree < coefficients.length :=
  (degree_lt_iff_coeff_zero _ _).mpr fun power beyond =>
    coeff_ofCoefficients coefficients power beyond

variable [DecidableEq F]

/-! ### Interpolation through a list of points -/

/-- The value at `x` of the basis polynomial of the node `node`. -/
def basisAt (nodes : List F) (x node : F) : F :=
  ((nodes.filter (· ≠ node)).map fun other => (x - other) / (node - other)).prod

/-- The value at `x` of the polynomial of least degree through the points. -/
def interpolateAt (points : List (F × F)) (x : F) : F :=
  (points.map fun point => point.2 * basisAt (points.map Prod.fst) x point.1).sum

variable {points : List (F × F)}

theorem basisAt_eq_eval {nodes : List F} (distinct : nodes.Nodup) (x node : F) :
    basisAt nodes x node = (Lagrange.basis nodes.toFinset id node).eval x := by
  have others : nodes.toFinset.erase node = (nodes.filter (· ≠ node)).toFinset := by
    ext other
    simp [and_comm]
  rw [Lagrange.basis, others, eval_prod, List.prod_toFinset _ (distinct.filter _), basisAt]
  congr 1
  apply List.map_congr_left
  intro other _
  simp [Lagrange.basisDivisor, div_eq_mul_inv, mul_comm]

/-- Through enough points of a polynomial goes that polynomial only. -/
theorem interpolateAt_eq_eval {f : F[X]} (distinct : (points.map Prod.fst).Nodup)
    (degree : f.degree < points.length) (through : ∀ point ∈ points, f.eval point.1 = point.2)
    (x : F) : interpolateAt points x = f.eval x := by
  have card : (points.map Prod.fst).toFinset.card = points.length := by
    rw [List.toFinset_card_of_nodup distinct, List.length_map]
  have unique : f = Lagrange.interpolate (points.map Prod.fst).toFinset id fun node => f.eval node :=
    Lagrange.eq_interpolate Function.injective_id.injOn (card ▸ degree)
  have terms : points.map (fun point => point.2 * basisAt (points.map Prod.fst) x point.1) =
      (points.map Prod.fst).map fun node =>
        f.eval node * (Lagrange.basis (points.map Prod.fst).toFinset id node).eval x := by
    rw [List.map_map]
    apply List.map_congr_left
    intro point member
    rw [basisAt_eq_eval distinct, ← through point member]
    rfl
  calc interpolateAt points x
    _ = ∑ node ∈ (points.map Prod.fst).toFinset,
          f.eval node * (Lagrange.basis (points.map Prod.fst).toFinset id node).eval x := by
        rw [interpolateAt, terms, List.sum_toFinset _ distinct]
    _ = (Lagrange.interpolate (points.map Prod.fst).toFinset id fun node => f.eval node).eval x := by
        simp [Lagrange.interpolate_apply, eval_finsetSum]
    _ = f.eval x := by rw [← unique]

/-- Through points with distinct nodes goes a polynomial of lower degree than their number. -/
theorem exists_through (distinct : (points.map Prod.fst).Nodup) :
    ∃ f : F[X], f.degree < points.length ∧ ∀ point ∈ points, f.eval point.1 = point.2 := by
  have card : (points.map Prod.fst).toFinset.card = points.length := by
    rw [List.toFinset_card_of_nodup distinct, List.length_map]
  let value := fun node => ((points.find? (·.1 = node)).map Prod.snd).getD 0
  refine ⟨Lagrange.interpolate (points.map Prod.fst).toFinset id value, ?_, fun point member => ?_⟩
  · exact card ▸ Lagrange.degree_interpolate_lt value Function.injective_id.injOn
  · have node : point.1 ∈ (points.map Prod.fst).toFinset := by
      simpa using ⟨point.2, member⟩
    have found : value point.1 = point.2 := by
      obtain ⟨other, first⟩ : ∃ other, points.find? (·.1 = point.1) = some other := by
        rw [← Option.isSome_iff_exists, List.find?_isSome]
        exact ⟨point, member, by simp⟩
      have same : other = point := by
        apply List.inj_on_of_nodup_map distinct (List.mem_of_find?_eq_some first) member
        simpa using List.find?_some first
      simp [value, first, same]
    rw [← found]
    exact Lagrange.eval_interpolate_at_node value Function.injective_id.injOn node

end Nook.Lib
