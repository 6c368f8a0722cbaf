import SmacPlanner.Smoother.Curvature
import SmacPlanner.Smoother.Gradient
import Mathlib.Analysis.InnerProductSpace.Basic

namespace SmacPlanner

open UnconstrainedSmootherCostFunction

/-- `xⱼ₊₁ - 2xⱼ + xⱼ₋₁`, whose squared norm is the smoothing term of point `j`. -/
def secondDifference (parameters : ℕ → ℝ) (j : ℕ) : Vector2d :=
  pointAt parameters (j + 1) - (2 : ℝ) • pointAt parameters j + pointAt parameters (j - 1)

/-- The unit vector along the entry parameter `m` is of its point. -/
def unitEntry (m : ℕ) : Vector2d := if m % 2 = 0 then ⟨1, 0⟩ else ⟨0, 1⟩

theorem unitEntry_even (k : ℕ) : unitEntry (2 * k) = ⟨1, 0⟩ := if_pos (by omega)

theorem unitEntry_odd (k : ℕ) : unitEntry (2 * k + 1) = ⟨0, 1⟩ := if_neg (by omega)

/-- How point `j` moves when parameter `m` moves by one. -/
def pointDirection (m j : ℕ) : Vector2d := if j = m / 2 then unitEntry m else 0

/-- What the smoothing terms of the two neighbours of point `k` add to the partials at `xₖ`:
`xₖ` enters `Dₖ₋₁` and `Dₖ₊₁` with coefficient one. -/
def neighbourSmoothing (f : UnconstrainedSmootherCostFunction) (parameters : ℕ → ℝ) (k : ℕ) :
    Vector2d :=
  (2 * f.wSmooth) •
    ((if interior f.originalPath.length (k - 1) then secondDifference parameters (k - 1) else 0) +
      if interior f.originalPath.length (k + 1) then secondDifference parameters (k + 1) else 0)

theorem update_add_apply (parameters : ℕ → ℝ) (m e : ℕ) (t : ℝ) :
    Function.update parameters m (parameters m + t) e = parameters e + if e = m then t else 0 := by
  by_cases moved : e = m
  · subst moved
    simp
  · simp [moved]

theorem pointAt_update (parameters : ℕ → ℝ) (m j : ℕ) (t : ℝ) :
    pointAt (Function.update parameters m (parameters m + t)) j =
      pointAt parameters j + t • pointDirection m j := by
  unfold pointAt pointDirection unitEntry
  ext <;> simp only [update_add_apply, Vector2d.add_x, Vector2d.add_y, Vector2d.smul_x,
    Vector2d.smul_y] <;> split_ifs <;> simp <;> omega

theorem secondDifference_update (parameters : ℕ → ℝ) (m j : ℕ) (t : ℝ) :
    secondDifference (Function.update parameters m (parameters m + t)) j =
      secondDifference parameters j +
        t • (pointDirection m (j + 1) - (2 : ℝ) • pointDirection m j + pointDirection m (j - 1)) := by
  unfold secondDifference
  rw [pointAt_update, pointAt_update, pointAt_update]
  ext <;> simp only [Vector2d.add_x, Vector2d.add_y, Vector2d.sub_x, Vector2d.sub_y,
    Vector2d.smul_x, Vector2d.smul_y] <;> ring

/-- The dot product of two moving vectors, differentiated at the start. -/
theorem hasDerivAt_dot (u v a b : Vector2d) :
    HasDerivAt (fun t : ℝ => (u + t • a).dot (v + t • b)) (a.dot v + u.dot b) 0 := by
  have line : ∀ p q : ℝ, HasDerivAt (fun t : ℝ => p + t * q) q 0 := fun p q =>
    (((hasDerivAt_id' (0 : ℝ)).mul_const q).const_add p).congr_deriv (one_mul q)
  have product := ((line u.x a.x).mul (line v.x b.x)).add ((line u.y a.y).mul (line v.y b.y))
  simp only [Vector2d.add_x, Vector2d.add_y, Vector2d.smul_x, Vector2d.smul_y, Vector2d.dot_def]
  refine product.congr_deriv ?_
  ring

/-- Along a line, the squared norm changes at twice the dot product with the direction. -/
theorem hasDerivAt_squaredNorm (v d : Vector2d) :
    HasDerivAt (fun t : ℝ => (v + t • d).squaredNorm) (2 * v.dot d) 0 :=
  (hasDerivAt_dot v v d d).congr_deriv (by simp only [Vector2d.dot_def]; ring)

theorem addCostJacobian_zero_weight (codes : CostCodes) (costmap : MinimalCostmap) (mx my : ℕ)
    (value j0 j1 : ℝ) : addCostJacobian codes costmap 0 mx my value j0 j1 = (j0, j1) := by
  unfold addCostJacobian
  split_ifs <;> simp

theorem add_dot (a b c : Vector2d) : (a + b).dot c = a.dot c + b.dot c := by
  simp only [Vector2d.dot_def, Vector2d.add_x, Vector2d.add_y]
  ring

theorem ite_dot (c : Prop) [Decidable c] (a b : Vector2d) :
    (if c then a.dot b else 0) = (if c then a else 0).dot b := by
  split_ifs <;> simp

/-- The rate of a block along a parameter, split by the point each part moves. -/
theorem rate_split (wSmooth wDist : ℝ) (d w next here prev : Vector2d) :
    wSmooth * (2 * d.dot (next - (2 : ℝ) • here + prev)) + wDist * (2 * w.dot here) =
      ((2 * wSmooth) • d).dot next + ((-4 * wSmooth) • d + (2 * wDist) • w).dot here +
        ((2 * wSmooth) • d).dot prev := by
  simp only [Vector2d.dot_def, Vector2d.add_x, Vector2d.add_y, Vector2d.sub_x, Vector2d.sub_y,
    Vector2d.smul_x, Vector2d.smul_y]
  ring

theorem mem_filter_interior {n j : ℕ} :
    j ∈ (Finset.range n).filter (interior n) ↔ interior n j := by
  simp only [Finset.mem_filter, Finset.mem_range, and_iff_right_iff_imp]
  intro inside
  unfold interior at inside
  omega

/-- Over a set of points, only the point that parameter `m` moves contributes to a sum of
rates along `m`. -/
theorem sum_dot_pointDirection (points : Finset ℕ) (m j : ℕ) (moved : ℕ → ℕ)
    (rate : ℕ → Vector2d) (only : ∀ i ∈ points, moved i = m / 2 ↔ j = i) :
    ∑ i ∈ points, (rate i).dot (pointDirection m (moved i)) =
      if j ∈ points then (rate j).dot (unitEntry m) else 0 := by
  rw [← Finset.sum_ite_eq points j fun i => (rate i).dot (unitEntry m)]
  refine Finset.sum_congr rfl fun i member => ?_
  rw [pointDirection, ← if_congr (only i member) rfl rfl]
  split_ifs <;> simp

theorem pointResidual_eq_blockResidual (f : UnconstrainedSmootherCostFunction)
    (parameters : ℕ → ℝ) {i : ℕ} (positive : 1 ≤ i) :
    pointResidual f parameters i = blockResidual f (pointAt parameters i)
      (pointAt parameters (i + 1)) (pointAt parameters (i - 1)) (f.originalPath.getD i 0)
      (f.costmap.worldToMap (pointAt parameters i).x (pointAt parameters i).y) := by
  rw [pointAt_pred parameters positive]
  rfl

theorem pointJacobian_eq_blockJacobian (f : UnconstrainedSmootherCostFunction)
    (parameters : ℕ → ℝ) {i : ℕ} (positive : 1 ≤ i) :
    pointJacobian f parameters i = blockJacobian f (pointAt parameters i)
      (pointAt parameters (i + 1)) (pointAt parameters (i - 1)) (f.originalPath.getD i 0)
      (f.costmap.worldToMap (pointAt parameters i).x (pointAt parameters i).y) := by
  rw [pointAt_pred parameters positive]
  rfl

theorem add_smul_sub (a b o : Vector2d) (t : ℝ) : a + t • b - o = a - o + t • b := by
  ext <;> simp only [Vector2d.add_x, Vector2d.add_y, Vector2d.sub_x, Vector2d.sub_y,
    Vector2d.smul_x, Vector2d.smul_y] <;> ring

/-- The curvature Jacobian of point `i` divides by no zero. Where a divisor is zero the code
computes an infinity or a NaN, which a zero `W_curve` does not cancel (`0 * NaN` is NaN), while
the model over the reals reads `x / 0` as `0`: the model's Jacobian block is the code's where
this holds. The divisors do not depend on the cache the residual call starts from. -/
def JacobianDefined (f : UnconstrainedSmootherCostFunction) (parameters : ℕ → ℝ) (i : ℕ) : Prop :=
  (0 : ℝ) ∉ addCurvatureJacobianDivisors (pointAt parameters i) (pointAt parameters (i + 1))
    (addCurvatureResidual f.maxTurningRadius f.wCurve (pointAt parameters i)
      (pointAt parameters (i + 1)) (pointAt parameters (i - 1)) {} 0).1

theorem jacobianDefined_of_ne_zero {f : UnconstrainedSmootherCostFunction} {parameters : ℕ → ℝ}
    {i : ℕ} (straightFree : 0 ≤ f.maxTurningRadius) (nonzero : pointAt parameters i ≠ 0)
    (nonzero' : pointAt parameters (i + 1) ≠ 0) : JacobianDefined f parameters i :=
  zero_not_mem_divisors straightFree nonzero nonzero'

section ZeroWeights

variable {f : UnconstrainedSmootherCostFunction} (parameters : ℕ → ℝ)
  (noCurve : f.wCurve = 0) (noCostmap : f.wCost = 0)
include noCurve noCostmap

/-- With no curvature and no costmap weight, the residual block of a point past the first is
its smoothing and distance terms. -/
theorem pointResidual_of_zero_weights {i : ℕ} (positive : 1 ≤ i) :
    pointResidual f parameters i = f.wSmooth * (secondDifference parameters i).squaredNorm +
      f.wDist * (pointAt parameters i - f.originalPath.getD i 0).squaredNorm := by
  rw [pointResidual_eq_blockResidual f parameters positive]
  unfold blockResidual
  rw [noCurve, curvatureResidual_zero_weight, noCostmap, secondDifference]
  split <;> simp [addCostResidual_eq]

/-- With no curvature and no costmap weight, the Jacobian block of a point past the first is
`-4 W_smooth Dᵢ + 2 W_dist (xᵢ - oᵢ)` in the model; it is the code's where the point's
curvature Jacobian is defined. -/
theorem pointJacobian_of_zero_weights {i : ℕ} (positive : 1 ≤ i) :
    pointJacobian f parameters i =
      (-4 * f.wSmooth * (secondDifference parameters i).x +
          2 * f.wDist * (pointAt parameters i - f.originalPath.getD i 0).x,
        -4 * f.wSmooth * (secondDifference parameters i).y +
          2 * f.wDist * (pointAt parameters i - f.originalPath.getD i 0).y) := by
  rw [pointJacobian_eq_blockJacobian f parameters positive, blockJacobian]
  unfold addPointJacobian
  simp only [noCurve, noCostmap, addCurvatureJacobian_zero_weight, addCostJacobian_zero_weight]
  split <;> simp only [addSmoothingJacobian, addDistanceJacobian, secondDifference, Prod.mk.injEq,
    Vector2d.add_x, Vector2d.add_y, Vector2d.sub_x, Vector2d.sub_y, Vector2d.smul_x,
    Vector2d.smul_y] <;> constructor <;> ring

/-- The residual block of a point past the first changes along parameter `m` at the rate of
its smoothing and distance terms. -/
theorem hasDerivAt_pointResidual (m : ℕ) {i : ℕ} (positive : 1 ≤ i) :
    HasDerivAt (fun t => pointResidual f (Function.update parameters m (parameters m + t)) i)
      (f.wSmooth * (2 * (secondDifference parameters i).dot
          (pointDirection m (i + 1) - (2 : ℝ) • pointDirection m i + pointDirection m (i - 1))) +
        f.wDist * (2 * (pointAt parameters i - f.originalPath.getD i 0).dot
          (pointDirection m i))) 0 := by
  simp only [pointResidual_of_zero_weights _ noCurve noCostmap positive, secondDifference_update,
    pointAt_update, add_smul_sub]
  exact ((hasDerivAt_squaredNorm _ _).const_mul _).add ((hasDerivAt_squaredNorm _ _).const_mul _)

/-- With no curvature and no costmap weight, `cost[0]` changes along parameter `m` at the rate
of the three blocks point `k = m / 2` enters: its own, and the smoothing blocks of its two
neighbours. -/
theorem hasDerivAt_cost (gradient : ℕ → ℝ) (m : ℕ) :
    HasDerivAt
      (fun t => (evaluate f (Function.update parameters m (parameters m + t)) gradient).cost)
      (((if interior f.originalPath.length (m / 2 - 1) then
            (2 * f.wSmooth) • secondDifference parameters (m / 2 - 1) else 0) +
          (if interior f.originalPath.length (m / 2) then
            (-4 * f.wSmooth) • secondDifference parameters (m / 2) +
              (2 * f.wDist) • (pointAt parameters (m / 2) - f.originalPath.getD (m / 2) 0)
            else 0) +
          (if interior f.originalPath.length (m / 2 + 1) then
            (2 * f.wSmooth) • secondDifference parameters (m / 2 + 1) else 0)).dot
        (unitEntry m)) 0 := by
  rw [funext fun t => evaluate_cost f (Function.update parameters m (parameters m + t)) gradient]
  refine (HasDerivAt.sum fun i member => hasDerivAt_pointResidual parameters noCurve noCostmap m
    (mem_filter_interior.mp member).1).congr_deriv ?_
  simp only [rate_split, Finset.sum_add_distrib]
  rw [sum_dot_pointDirection _ m (m / 2 - 1) _ _ fun i member => ?next,
    sum_dot_pointDirection _ m (m / 2) _ _ fun i member => ?here,
    sum_dot_pointDirection _ m (m / 2 + 1) _ _ fun i member => ?prev]
  · simp only [mem_filter_interior, ite_dot]
    rw [add_dot, add_dot]
  all_goals have positive := (mem_filter_interior.mp member).1; omega

end ZeroWeights

/-- With no curvature and no costmap weight, for every path, parameter vector and gradient
array, and every point `k` whose curvature Jacobian is defined, the partial of `cost[0]` along
either entry of point `k` is that entry of point `k`'s own Jacobian block, when `k` is
interior, plus what the smoothing blocks of its two neighbours add, which no Jacobian block of
Evaluate holds. -/
theorem evaluate_cost_hasDerivAt (f : UnconstrainedSmootherCostFunction)
    (parameters gradient : ℕ → ℝ) (k : ℕ) (noCurve : f.wCurve = 0) (noCostmap : f.wCost = 0)
    (_defined : interior f.originalPath.length k → JacobianDefined f parameters k) :
    HasDerivAt (fun t => (evaluate f
        (Function.update parameters (2 * k) (parameters (2 * k) + t)) gradient).cost)
      ((if interior f.originalPath.length k then (pointJacobian f parameters k).1 else 0) +
        (neighbourSmoothing f parameters k).x) 0 ∧
      HasDerivAt (fun t => (evaluate f
          (Function.update parameters (2 * k + 1) (parameters (2 * k + 1) + t)) gradient).cost)
        ((if interior f.originalPath.length k then (pointJacobian f parameters k).2 else 0) +
          (neighbourSmoothing f parameters k).y) 0 := by
  have along := hasDerivAt_cost parameters noCurve noCostmap gradient (2 * k)
  have across := hasDerivAt_cost parameters noCurve noCostmap gradient (2 * k + 1)
  rw [show 2 * k / 2 = k by omega, unitEntry_even] at along
  rw [show (2 * k + 1) / 2 = k by omega, unitEntry_odd] at across
  by_cases inside : interior f.originalPath.length k
  on_goal 1 => rw [pointJacobian_of_zero_weights parameters noCurve noCostmap inside.1]
  all_goals
    refine ⟨along.congr_deriv ?_, across.congr_deriv ?_⟩ <;>
      simp only [inside, if_true, if_false, neighbourSmoothing, Vector2d.dot_def, Vector2d.add_x,
        Vector2d.add_y, Vector2d.smul_x, Vector2d.smul_y, Vector2d.zero_x, Vector2d.zero_y,
        apply_ite Vector2d.x, apply_ite Vector2d.y, mul_add, mul_ite, mul_zero, mul_one,
        add_zero] <;>
      ring

theorem stairSmoother_cost_hasDerivAt :
    (stairSmoother.wCurve = 0 ∧ stairSmoother.wCost = 0 ∧
        (interior stairSmoother.originalPath.length 2 →
          JacobianDefined stairSmoother stairParameters 2)) ∧
      HasDerivAt (fun t => (evaluate stairSmoother
          (Function.update stairParameters (2 * 2) (stairParameters (2 * 2) + t)) 0).cost)
        ((if interior stairSmoother.originalPath.length 2 then
            (pointJacobian stairSmoother stairParameters 2).1 else 0) +
          (neighbourSmoothing stairSmoother stairParameters 2).x) 0 ∧
      HasDerivAt (fun t => (evaluate stairSmoother
          (Function.update stairParameters (2 * 2 + 1) (stairParameters (2 * 2 + 1) + t))
            0).cost)
        ((if interior stairSmoother.originalPath.length 2 then
            (pointJacobian stairSmoother stairParameters 2).2 else 0) +
          (neighbourSmoothing stairSmoother stairParameters 2).y) 0 := by
  have defined : interior stairSmoother.originalPath.length 2 →
      JacobianDefined stairSmoother stairParameters 2 := fun _ =>
    jacobianDefined_of_ne_zero le_rfl (by simp [pointAt, stairParameters, Vector2d.ext_iff])
      (by simp [pointAt, stairParameters, Vector2d.ext_iff])
  exact ⟨⟨rfl, rfl, defined⟩,
    evaluate_cost_hasDerivAt stairSmoother stairParameters 0 2 rfl rfl defined⟩

end SmacPlanner
