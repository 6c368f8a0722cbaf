import SmacPlanner.Smoother.CurvatureDerivative

namespace SmacPlanner

open UnconstrainedSmootherCostFunction

theorem pointAt_line (parameters direction : ℕ → ℝ) (t : ℝ) (i : ℕ) :
    pointAt (parameters + t • direction) i = pointAt parameters i + t • pointAt direction i := by
  ext <;> simp [pointAt]

theorem secondDifference_line (parameters direction : ℕ → ℝ) (t : ℝ) (i : ℕ) :
    secondDifference (parameters + t • direction) i =
      secondDifference parameters i + t • secondDifference direction i := by
  simp only [secondDifference, pointAt_line]
  ext <;> simp only [Vector2d.add_x, Vector2d.add_y, Vector2d.sub_x, Vector2d.sub_y,
    Vector2d.smul_x, Vector2d.smul_y] <;> ring

/-- The rate at which the residual block of point `i` changes when the parameter vector moves
along `direction`: its smoothing, curvature and distance terms, with no costmap weight. -/
noncomputable def blockRate (f : UnconstrainedSmootherCostFunction)
    (parameters direction : ℕ → ℝ) (i : ℕ) : ℝ :=
  f.wSmooth * (2 * (secondDifference parameters i).dot (secondDifference direction i)) +
    (if CurvatureActive f.maxTurningRadius (pointAt parameters i) (pointAt parameters (i + 1))
        (pointAt parameters (i - 1)) then
      curvatureRate f.maxTurningRadius f.wCurve (pointAt parameters i)
        (pointAt parameters (i + 1)) (pointAt parameters (i - 1)) (pointAt direction (i - 1))
        (pointAt direction i) (pointAt direction (i + 1))
    else 0) +
    f.wDist * (2 * (pointAt parameters i - f.originalPath.getD i 0).dot (pointAt direction i))

section Line

variable {f : UnconstrainedSmootherCostFunction} (parameters direction : ℕ → ℝ)
  (noCostmap : f.wCost = 0)
include noCostmap

/-- With no costmap weight, the residual block of a point past the first, along the line. -/
theorem pointResidual_line (t : ℝ) {i : ℕ} (positive : 1 ≤ i) :
    pointResidual f (parameters + t • direction) i =
      f.wSmooth * (secondDifference parameters i + t • secondDifference direction i).squaredNorm +
        curvatureResidual f.maxTurningRadius f.wCurve
          (pointAt parameters i + t • pointAt direction i)
          (pointAt parameters (i + 1) + t • pointAt direction (i + 1))
          (pointAt parameters (i - 1) + t • pointAt direction (i - 1)) +
        f.wDist *
          (pointAt parameters i - f.originalPath.getD i 0 + t • pointAt direction i).squaredNorm := by
  have smoothing := secondDifference_line parameters direction t i
  rw [pointResidual_eq_blockResidual _ _ positive]
  unfold blockResidual
  rw [secondDifference] at smoothing
  rw [smoothing, pointAt_line, pointAt_line, pointAt_line, add_smul_sub, noCostmap]
  split <;> simp [addCostResidual_eq]

theorem hasDerivAt_pointResidual_line {i : ℕ} (positive : 1 ≤ i)
    (regular : RegularTriple f.maxTurningRadius (pointAt parameters i)
      (pointAt parameters (i + 1)) (pointAt parameters (i - 1))) :
    HasDerivAt (fun t : ℝ => pointResidual f (parameters + t • direction) i)
      (blockRate f parameters direction i) 0 := by
  rw [funext fun t => pointResidual_line parameters direction noCostmap t positive]
  exact (((hasDerivAt_squaredNorm _ _).const_mul _).add
    (hasDerivAt_curvatureResidual _ _ _ regular)).add ((hasDerivAt_squaredNorm _ _).const_mul _)

end Line

/-- With no costmap weight, for every path, parameter vector and gradient array where no
interior triple sits on a switch of addCurvatureResidual, and for every direction, `cost[0]`
changes along the direction at the sum over the interior points of each block's smoothing,
curvature and distance rates; the curvature rate of an active triple is the one its
normalizedOrthogonalComplement partials give. -/
theorem evaluate_cost_hasDerivAt_along (f : UnconstrainedSmootherCostFunction)
    (parameters direction gradient : ℕ → ℝ) (noCostmap : f.wCost = 0)
    (regular : ∀ i, interior f.originalPath.length i →
      RegularTriple f.maxTurningRadius (pointAt parameters i) (pointAt parameters (i + 1))
        (pointAt parameters (i - 1))) :
    HasDerivAt (fun t : ℝ => (evaluate f (parameters + t • direction) gradient).cost)
      (∑ i ∈ (Finset.range f.originalPath.length).filter (interior f.originalPath.length),
        blockRate f parameters direction i) 0 := by
  rw [funext fun t => evaluate_cost f (parameters + t • direction) gradient]
  refine HasDerivAt.sum fun i member => ?_
  have inside := mem_filter_interior.mp member
  exact hasDerivAt_pointResidual_line parameters direction noCostmap inside.1 (regular i inside)

/-- Moving the corner along `x`. -/
def cornerDirection (j : ℕ) : ℝ := if j = 2 then 1 else 0

theorem cornerSmoother_cost_hasDerivAt_along :
    cornerSmoother.wCost = 0 ∧
      (∀ i, interior cornerSmoother.originalPath.length i →
        RegularTriple cornerSmoother.maxTurningRadius (pointAt cornerParameters i)
          (pointAt cornerParameters (i + 1)) (pointAt cornerParameters (i - 1))) ∧
      HasDerivAt (fun t : ℝ => (evaluate cornerSmoother (cornerParameters + t • cornerDirection)
          0).cost)
        (∑ i ∈ (Finset.range cornerSmoother.originalPath.length).filter
          (interior cornerSmoother.originalPath.length),
          blockRate cornerSmoother cornerParameters cornerDirection i) 0 := by
  obtain ⟨unit, unit', projection, slack, active⟩ := rightAngle_active
  have eps := epsilon_lt_one
  have corner : RegularTriple 0 ⟨1, 0⟩ ⟨1, 1⟩ ⟨0, 0⟩ :=
    .inr (.inr ⟨by rw [unit]; exact eps, by rw [unit']; exact eps,
      by rw [projection]; norm_num [eps], by rw [projection]; norm_num [eps], active.2.2.ne'⟩)
  have regular : ∀ i, interior cornerSmoother.originalPath.length i →
      RegularTriple cornerSmoother.maxTurningRadius (pointAt cornerParameters i)
        (pointAt cornerParameters (i + 1)) (pointAt cornerParameters (i - 1)) := by
    rintro i ⟨low, high⟩
    obtain rfl : i = 1 := by
      change i + 2 ≤ 3 at high
      omega
    exact corner
  exact ⟨rfl, regular, evaluate_cost_hasDerivAt_along cornerSmoother cornerParameters
    cornerDirection 0 rfl regular⟩

end SmacPlanner
