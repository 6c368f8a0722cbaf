import SmacPlanner.Smoother.Derivative
import Mathlib.Analysis.Convex.Function

namespace SmacPlanner

open UnconstrainedSmootherCostFunction

theorem pointAt_combination (parameters other : ℕ → ℝ) (a b : ℝ) (i : ℕ) :
    pointAt (a • parameters + b • other) i = a • pointAt parameters i + b • pointAt other i := by
  ext <;> simp [pointAt]

theorem secondDifference_combination (parameters other : ℕ → ℝ) (a b : ℝ) (i : ℕ) :
    secondDifference (a • parameters + b • other) i =
      a • secondDifference parameters i + b • secondDifference other i := by
  simp only [secondDifference, pointAt_combination]
  ext <;> simp only [Vector2d.add_x, Vector2d.add_y, Vector2d.sub_x, Vector2d.sub_y,
    Vector2d.smul_x, Vector2d.smul_y] <;> ring

/-- The squared norm is convex: the gap is `a b |u - v|²`. -/
theorem squaredNorm_combination_le (u v : Vector2d) {a b : ℝ} (ha : 0 ≤ a) (hb : 0 ≤ b)
    (hab : a + b = 1) :
    (a • u + b • v).squaredNorm ≤ a * u.squaredNorm + b * v.squaredNorm := by
  have gap : a * u.squaredNorm + b * v.squaredNorm - (a • u + b • v).squaredNorm =
      a * b * (u - v).squaredNorm := by
    obtain rfl : b = 1 - a := by linarith
    simp only [Vector2d.squaredNorm_def, Vector2d.add_x, Vector2d.add_y, Vector2d.sub_x,
      Vector2d.sub_y, Vector2d.smul_x, Vector2d.smul_y]
    ring
  linarith [mul_nonneg (mul_nonneg ha hb) (u - v).squaredNorm_nonneg]

theorem sub_combination (u v o : Vector2d) {a b : ℝ} (hab : a + b = 1) :
    a • u + b • v - o = a • (u - o) + b • (v - o) := by
  obtain rfl : b = 1 - a := by linarith
  ext <;> simp only [Vector2d.add_x, Vector2d.add_y, Vector2d.sub_x, Vector2d.sub_y,
    Vector2d.smul_x, Vector2d.smul_y] <;> ring

/-- With no curvature and no costmap weight and non-negative smoothing and distance weights,
the `cost[0]` Evaluate writes is a convex function of the parameter vector, for every path and
every gradient array: every residual block is then a weighted squared norm of an affine
function of the parameter vector. -/
theorem evaluate_cost_convexOn (f : UnconstrainedSmootherCostFunction) (gradient : ℕ → ℝ) (noCurve : f.wCurve = 0) (noCostmap : f.wCost = 0)
    (smooth : 0 ≤ f.wSmooth) (distance : 0 ≤ f.wDist) :
    ConvexOn ℝ Set.univ fun parameters => (evaluate f parameters gradient).cost := by
  refine ⟨convex_univ, fun P _ Q _ a b ha hb hab => ?_⟩
  simp only [evaluate_cost, smul_eq_mul, Finset.mul_sum, ← Finset.sum_add_distrib]
  refine Finset.sum_le_sum fun i member => ?_
  have positive := (mem_filter_interior.mp member).1
  rw [pointResidual_of_zero_weights _ noCurve noCostmap positive,
    pointResidual_of_zero_weights _ noCurve noCostmap positive,
    pointResidual_of_zero_weights _ noCurve noCostmap positive, secondDifference_combination,
    pointAt_combination, sub_combination _ _ _ hab]
  have smoothing := mul_le_mul_of_nonneg_left (squaredNorm_combination_le
    (secondDifference P i) (secondDifference Q i) ha hb hab) smooth
  have distanced := mul_le_mul_of_nonneg_left (squaredNorm_combination_le
    (pointAt P i - f.originalPath.getD i 0) (pointAt Q i - f.originalPath.getD i 0) ha hb hab)
    distance
  linarith

theorem stairSmoother_cost_convexOn :
    (stairSmoother.wCurve = 0 ∧ stairSmoother.wCost = 0 ∧ 0 ≤ stairSmoother.wSmooth ∧
        0 ≤ stairSmoother.wDist) ∧
      ConvexOn ℝ Set.univ fun parameters => (evaluate stairSmoother parameters 0).cost := by
  have weights : stairSmoother.wCurve = 0 ∧ stairSmoother.wCost = 0 ∧
      0 ≤ stairSmoother.wSmooth ∧ 0 ≤ stairSmoother.wDist := by
    norm_num [stairSmoother]
  exact ⟨weights, evaluate_cost_convexOn stairSmoother 0 weights.1 weights.2.1 weights.2.2.1
    weights.2.2.2⟩

end SmacPlanner
