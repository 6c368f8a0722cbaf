import SmacPlanner.Smoother.Evaluate
import Mathlib.Analysis.Calculus.Deriv.Pow
import Mathlib.Analysis.Calculus.Deriv.Add
import Mathlib.Analysis.InnerProductSpace.Basic

namespace SmacPlanner

open UnconstrainedSmootherCostFunction

section Slots

variable (f : UnconstrainedSmootherCostFunction) (parameters : ℕ → ℝ)

/-- With a gradient array, the two accumulators hold the sums of the Jacobian blocks of all
interior points processed so far: they are never reset between points. -/
theorem evaluateLoop_gradRaw (g : ℕ → ℝ) (m : ℕ) :
    ((evaluateLoop f parameters g m).gradXRaw, (evaluateLoop f parameters g m).gradYRaw) =
      ∑ i ∈ (Finset.range m).filter (interior f.originalPath.length),
        pointJacobian f parameters i := by
  induction m with
  | zero => rfl
  | succ m ih =>
    rw [evaluateLoop_succ, evaluateStep_gradRaw, Finset.range_succ, Finset.filter_insert]
    split_ifs with inside
    · rw [Finset.sum_insert (by simp), ← ih]
      exact Prod.ext (add_comm _ _) (add_comm _ _)
    · exact ih

/-- The value a call with a gradient array leaves in slot `j`: zero at the endpoints, and at
an interior point the accumulated Jacobian blocks of every interior point up to it. -/
noncomputable def gradientSlot (f : UnconstrainedSmootherCostFunction) (parameters : ℕ → ℝ)
    (j : ℕ) : ℝ :=
  if interior f.originalPath.length (j / 2) then
    let accumulated := ∑ i ∈ (Finset.range (j / 2 + 1)).filter (interior f.originalPath.length),
      pointJacobian f parameters i
    if j % 2 = 0 then accumulated.1 else accumulated.2
  else 0

theorem evaluateLoop_gradient (g : ℕ → ℝ) (m : ℕ) :
    (evaluateLoop f parameters g m).gradient =
      fun j => if j < 2 * m then gradientSlot f parameters j else g j := by
  induction m with
  | zero => simp [evaluateLoop]
  | succ m ih =>
    have raw := evaluateLoop_gradRaw f parameters g (m + 1)
    rw [evaluateLoop_succ] at raw
    have rawX := congrArg Prod.fst raw
    have rawY := congrArg Prod.snd raw
    dsimp only at rawX rawY
    rw [evaluateLoop_succ, evaluateStep_gradient, ih]
    funext j
    rcases (show j = 2 * m ∨ j = 2 * m + 1 ∨ (j ≠ 2 * m ∧ j ≠ 2 * m + 1) by omega) with
      rfl | rfl | ⟨other, other'⟩
    · have half : 2 * m / 2 = m := by omega
      have below : 2 * m < 2 * (m + 1) := by omega
      simp [gradientSlot, half, below, rawX]
    · have half : (2 * m + 1) / 2 = m := by omega
      have below : 2 * m + 1 < 2 * (m + 1) := by omega
      have odd : (2 * m + 1) % 2 = 1 := by omega
      simp [gradientSlot, half, below, odd, rawY]
    · simp only [Function.update_apply, other, other', if_false]
      congr 1
      simp only [eq_iff_iff]
      omega

/-- With a gradient array, Evaluate writes `gradientSlot` into each of its `NumParameters()`
slots and leaves the rest of the array alone. -/
theorem evaluate_gradient (g : ℕ → ℝ) :
    (evaluate f parameters g).gradient =
      some fun j => if j < f.numParameters then gradientSlot f parameters j else g j := by
  rw [evaluate_eq, evaluateLoop_gradient]
  rfl

/-- With a gradient array, every slot of a point that is not interior, the two endpoints
among them, is zero, and every entry past `NumParameters()` keeps its value. -/
theorem evaluate_gradient_endpoints (g : ℕ → ℝ) :
    ∃ written, (evaluate f parameters g).gradient = some written ∧
      (∀ j < f.numParameters, ¬interior f.originalPath.length (j / 2) → written j = 0) ∧
      ∀ j, f.numParameters ≤ j → written j = g j :=
  ⟨_, evaluate_gradient f parameters g,
    fun j inside skipped => by rw [if_pos inside, gradientSlot, if_neg skipped],
    fun j beyond => if_neg (not_lt.mpr beyond)⟩

end Slots

/-- A costmap that no world point maps onto, so that the costmap term never applies. -/
def offMap : MinimalCostmap where
  sizeX := 1
  sizeY := 1
  getCost _ _ := 0
  worldToMap _ _ := none
  sizeX_lt := by norm_num
  sizeY_lt := by norm_num
  getCost_lt _ _ := by norm_num
  worldToMap_lt := fun found => nomatch found

/-- The four-point path `(0, 0), (1, 0), (1, 1), (2, 1)`, smoothed by the smoothing term
alone. -/
noncomputable def stairSmoother : UnconstrainedSmootherCostFunction where
  originalPath := [⟨0, 0⟩, ⟨1, 0⟩, ⟨1, 1⟩, ⟨2, 1⟩]
  costmap := offMap
  codes := ⟨0, 255, 253, 254, 252⟩
  wSmooth := 1
  wCurve := 0
  wCost := 0
  wDist := 0
  maxTurningRadius := 0

/-- The same path as a parameter vector. -/
noncomputable def stairParameters (j : ℕ) : ℝ := ([0, 0, 1, 0, 1, 1, 2, 1] : List ℝ).getD j 0

/-- The right-angle path `(0, 0), (1, 0), (1, 1)` under the curvature term alone, with
`κ = 0`. -/
noncomputable def cornerSmoother : UnconstrainedSmootherCostFunction where
  originalPath := [⟨0, 0⟩, ⟨1, 0⟩, ⟨1, 1⟩]
  costmap := offMap
  codes := ⟨0, 255, 253, 254, 252⟩
  wSmooth := 0
  wCurve := 1
  wCost := 0
  wDist := 0
  maxTurningRadius := 0

/-- The same path as a parameter vector. -/
noncomputable def cornerParameters (j : ℕ) : ℝ := ([0, 0, 1, 0, 1, 1] : List ℝ).getD j 0

theorem stairSmoother_interior :
    (Finset.range stairSmoother.originalPath.length).filter
      (interior stairSmoother.originalPath.length) = {1, 2} := by
  decide

/-- Moving `P[4]`, the `x` of point `2`, by `t` changes the cost along `5 t² - 6 t + 4`. -/
theorem stairSmoother_cost (gradient : ℕ → ℝ) (t : ℝ) :
    (evaluate stairSmoother (Function.update stairParameters 4 (stairParameters 4 + t))
      gradient).cost = 5 * t ^ 2 - 6 * t + 4 := by
  rw [evaluate_cost, stairSmoother_interior, Finset.sum_pair (by norm_num)]
  simp [pointResidual, blockResidual, curvatureResidual_zero_weight, stairSmoother, offMap,
    stairParameters, Function.update_apply]
  ring

/-- Point `1` and point `2` of the path pull their smoothing gradients in opposite
directions. -/
theorem stairSmoother_pointJacobian :
    pointJacobian stairSmoother stairParameters 1 = (4, -4) ∧
      pointJacobian stairSmoother stairParameters 2 = (-4, 4) := by
  constructor <;>
  · simp [pointJacobian, blockJacobian, addPointJacobian, addSmoothingJacobian,
      addCurvatureJacobian_zero_weight, addDistanceJacobian, stairSmoother, offMap, stairParameters]
    norm_num

theorem stairSmoother_slot (g : ℕ → ℝ) :
    (evaluate stairSmoother stairParameters g).gradient.map (fun g => (g 4, g 5)) =
      some (0, 0) := by
  have window : (Finset.range 3).filter (interior 4) = {1, 2} := by decide
  have length : stairSmoother.originalPath.length = 4 := rfl
  rw [evaluate_gradient]
  simp [gradientSlot, numParameters, length, window, Finset.sum_pair,
    stairSmoother_pointJacobian, interior]

/-- On the stair path the cost falls at rate `6` as the `x` of point `2` grows, yet Evaluate
writes `0` into that entry of the gradient. -/
theorem evaluate_gradient_ne_partial :
    HasDerivAt (fun t => (evaluate stairSmoother
        (Function.update stairParameters 4 (stairParameters 4 + t)) 0).cost) (-6) 0 ∧
      (evaluate stairSmoother stairParameters 0).gradient.map (fun g => g 4) = some 0 := by
  have shape := funext (stairSmoother_cost 0)
  have slot := congrArg (Option.map Prod.fst) (stairSmoother_slot 0)
  rw [Option.map_map] at slot
  refine ⟨?_, slot⟩
  rw [shape]
  have polynomial := (((hasDerivAt_pow 2 (0 : ℝ)).const_mul 5).sub
    ((hasDerivAt_id' (0 : ℝ)).const_mul 6)).add_const 4
  exact polynomial.congr_deriv (by norm_num)

/-- The slot of point `2` holds the sum of the Jacobian blocks of points `1` and `2`, which
cancel, not the block `(-4, 4)` of point `2` alone. -/
theorem evaluate_gradient_slot_accumulates :
    (evaluate stairSmoother stairParameters 0).gradient.map (fun g => (g 4, g 5)) =
        some (0, 0) ∧
      pointJacobian stairSmoother stairParameters 2 = (-4, 4) :=
  ⟨stairSmoother_slot 0, stairSmoother_pointJacobian.2⟩

end SmacPlanner
