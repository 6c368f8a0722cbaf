import SmacPlanner.Smoother.Curvature
import SmacPlanner.Smoother.Gradient

namespace SmacPlanner

open UnconstrainedSmootherCostFunction Real

/-- `Kᵢ`: `W_curve (φᵢ / |xᵢ - xᵢ₋₁| - κ)²` when both segments are at least `EPSILON` long and
the slack exceeds `EPSILON`, zero otherwise. `φᵢ` is the `acos` of the projection of the two
segments onto each other, clamped to `1` when it lies within `EPSILON` of `1` or of `-1`. -/
noncomputable def statedCurvatureTerm (maxCurvature weight : ℝ) (xi xiP1 xiM1 : Vector2d) : ℝ :=
  let incoming := √((xi.x - xiM1.x) ^ 2 + (xi.y - xiM1.y) ^ 2)
  let outgoing := √((xiP1.x - xi.x) ^ 2 + (xiP1.y - xi.y) ^ 2)
  let projection :=
    ((xi.x - xiM1.x) * (xiP1.x - xi.x) + (xi.y - xiM1.y) * (xiP1.y - xi.y)) / (incoming * outgoing)
  let clamped := if |1 - projection| < epsilon ∨ |projection + 1| < epsilon then 1 else projection
  let slack := Real.arccos clamped / incoming - maxCurvature
  if epsilon ≤ incoming ∧ epsilon ≤ outgoing ∧ epsilon < slack then weight * slack ^ 2 else 0

/-- `Cᵢ`: `-W_cost (cᵢ - MAX_NON_OBSTACLE)²` when `xi` maps to a cell whose cost `cᵢ` is
neither FREE nor UNKNOWN, zero otherwise. -/
noncomputable def statedCostTerm (codes : CostCodes) (costmap : MinimalCostmap) (weight : ℝ)
    (xi : Vector2d) : ℝ :=
  match costmap.worldToMap xi.x xi.y with
  | some (mx, my) =>
    if costmap.getCost mx my ≠ codes.free ∧ costmap.getCost mx my ≠ codes.unknown then
      -weight * ((costmap.getCost mx my : ℝ) - codes.maxNonObstacle) ^ 2
    else 0
  | none => 0

/-- The documented objective: over the interior points, the smoothing term, the distance to
the original point, `Kᵢ` and `Cᵢ`. -/
noncomputable def statedCost (f : UnconstrainedSmootherCostFunction) (parameters : ℕ → ℝ) : ℝ :=
  ∑ i ∈ (Finset.range f.originalPath.length).filter (interior f.originalPath.length),
    (f.wSmooth *
        (pointAt parameters (i + 1) - (2 : ℝ) • pointAt parameters i +
          pointAt parameters (i - 1)).squaredNorm +
      f.wDist * (pointAt parameters i - f.originalPath.getD i 0).squaredNorm +
      statedCurvatureTerm f.maxTurningRadius f.wCurve (pointAt parameters i)
        (pointAt parameters (i + 1)) (pointAt parameters (i - 1)) +
      statedCostTerm f.codes f.costmap f.wCost (pointAt parameters i))

theorem norm_sub_eq (a b : Vector2d) : (a - b).norm = √((a.x - b.x) ^ 2 + (a.y - b.y) ^ 2) := by
  simp only [Vector2d.norm, Vector2d.squaredNorm_def, Vector2d.sub_x, Vector2d.sub_y, sq]

/-- The lengths, the clamped projection and the slack of the stated term are the ones
addCurvatureResidual computes. -/
theorem statedCurvatureTerm_eq (maxCurvature weight : ℝ) (xi xiP1 xiM1 : Vector2d) :
    statedCurvatureTerm maxCurvature weight xi xiP1 xiM1 =
      if epsilon ≤ (xi - xiM1).norm ∧ epsilon ≤ (xiP1 - xi).norm ∧
          epsilon < curvatureSlack maxCurvature xi xiP1 xiM1 then
        weight * curvatureSlack maxCurvature xi xiP1 xiM1 ^ 2
      else 0 := by
  simp only [statedCurvatureTerm, curvatureSlack, clampProjection, turningProjection, norm_sub_eq,
    Vector2d.dot_def, Vector2d.sub_x, Vector2d.sub_y]

theorem curvatureResidual_eq_stated (maxTurningRadius weight : ℝ) (pt ptP ptM : Vector2d) :
    curvatureResidual maxTurningRadius weight pt ptP ptM =
      statedCurvatureTerm maxTurningRadius weight pt ptP ptM := by
  rw [statedCurvatureTerm_eq]
  by_cases short : (pt - ptM).norm < epsilon ∨ (ptP - pt).norm < epsilon
  · rw [curvatureResidual_of_short _ _ _ _ _ short, if_neg]
    rintro ⟨incoming, outgoing, -⟩
    rcases short with short | short <;> linarith
  · push_neg at short
    rw [curvatureResidual_of_long _ _ _ _ _ short.1 short.2]
    simp only [short, true_and, sq, mul_assoc]

theorem addCostResidual_eq_stated (codes : CostCodes) (weight : ℝ) (value : ℕ) :
    addCostResidual codes weight value 0 =
      if value ≠ codes.free ∧ value ≠ codes.unknown then
        -weight * ((value : ℝ) - codes.maxNonObstacle) ^ 2
      else 0 := by
  simp only [addCostResidual_eq, Nat.cast_inj, zero_add, ne_eq, ← not_or]
  split_ifs <;> ring

/-- The residual block of an interior point is its documented term. -/
theorem pointResidual_eq_stated (f : UnconstrainedSmootherCostFunction) (parameters : ℕ → ℝ)
    {i : ℕ} (inside : interior f.originalPath.length i) :
    pointResidual f parameters i =
      f.wSmooth *
          (pointAt parameters (i + 1) - (2 : ℝ) • pointAt parameters i +
            pointAt parameters (i - 1)).squaredNorm +
        f.wDist * (pointAt parameters i - f.originalPath.getD i 0).squaredNorm +
        statedCurvatureTerm f.maxTurningRadius f.wCurve (pointAt parameters i)
          (pointAt parameters (i + 1)) (pointAt parameters (i - 1)) +
        statedCostTerm f.codes f.costmap f.wCost (pointAt parameters i) := by
  have block : pointResidual f parameters i = blockResidual f (pointAt parameters i)
      (pointAt parameters (i + 1)) (pointAt parameters (i - 1)) (f.originalPath.getD i 0)
      (f.costmap.worldToMap (pointAt parameters i).x (pointAt parameters i).y) := by
    rw [pointAt_pred parameters inside.1]
    rfl
  rw [block]
  unfold blockResidual statedCostTerm
  rw [curvatureResidual_eq_stated, add_right_comm _ (statedCurvatureTerm _ _ _ _ _)]
  rcases f.costmap.worldToMap (pointAt parameters i).x (pointAt parameters i).y with _ | ⟨mx, my⟩
  · rfl
  · exact congrArg _ (addCostResidual_eq_stated _ _ _)

theorem statedCost_nonneg {f : UnconstrainedSmootherCostFunction} (parameters : ℕ → ℝ)
    (noCostmap : f.wCost = 0) (smooth : 0 ≤ f.wSmooth) (curve : 0 ≤ f.wCurve)
    (distance : 0 ≤ f.wDist) : 0 ≤ statedCost f parameters := by
  refine Finset.sum_nonneg fun i _ => ?_
  have curvature : 0 ≤ statedCurvatureTerm f.maxTurningRadius f.wCurve (pointAt parameters i)
      (pointAt parameters (i + 1)) (pointAt parameters (i - 1)) := by
    rw [← curvatureResidual_eq_stated]
    exact curvatureResidual_nonneg curve _ _ _
  have costmap : statedCostTerm f.codes f.costmap f.wCost (pointAt parameters i) = 0 := by
    unfold statedCostTerm
    split <;> simp [noCostmap]
  rw [costmap, add_zero]
  exact add_nonneg (add_nonneg (mul_nonneg smooth (Vector2d.squaredNorm_nonneg _))
    (mul_nonneg distance (Vector2d.squaredNorm_nonneg _))) curvature

/-- `cost[0]` is the documented objective for every path, every weight and every parameter
vector; with no costmap weight and non-negative weights it is non-negative. -/
theorem evaluate_cost_eq_statedCost (f : UnconstrainedSmootherCostFunction)
    (parameters gradient : ℕ → ℝ) :
    (evaluate f parameters gradient).cost = statedCost f parameters ∧
      (f.wCost = 0 → 0 ≤ f.wSmooth → 0 ≤ f.wCurve → 0 ≤ f.wDist →
        0 ≤ (evaluate f parameters gradient).cost) := by
  have stated : (evaluate f parameters gradient).cost = statedCost f parameters := by
    rw [evaluate_cost]
    exact Finset.sum_congr rfl fun i member =>
      pointResidual_eq_stated f parameters (Finset.mem_filter.mp member).2
  exact ⟨stated, fun noCostmap smooth curve distance =>
    stated ▸ statedCost_nonneg parameters noCostmap smooth curve distance⟩

/-- On the right-angle corner only the curvature term `K₁ = (π / 2)²` is non-zero. -/
theorem cornerSmoother_statedCost : statedCost cornerSmoother cornerParameters = (π / 2) ^ 2 := by
  have interiorPoints : (Finset.range cornerSmoother.originalPath.length).filter
      (interior cornerSmoother.originalPath.length) = {1} := by
    decide
  have corner : pointAt cornerParameters 1 = ⟨1, 0⟩ ∧ pointAt cornerParameters (1 + 1) = ⟨1, 1⟩ ∧
      pointAt cornerParameters (1 - 1) = ⟨0, 0⟩ := by
    simp [pointAt, cornerParameters]
  rw [statedCost, interiorPoints, Finset.sum_singleton, corner.1, corner.2.1, corner.2.2,
    ← curvatureResidual_eq_stated]
  simp [cornerSmoother, statedCostTerm, offMap, rightAngle_residual]

theorem cornerSmoother_cost_eq_statedCost :
    (cornerSmoother.wCost = 0 ∧ 0 ≤ cornerSmoother.wSmooth ∧ 0 ≤ cornerSmoother.wCurve ∧
        0 ≤ cornerSmoother.wDist) ∧
      ((evaluate cornerSmoother cornerParameters 0).cost =
          statedCost cornerSmoother cornerParameters ∧
        0 ≤ (evaluate cornerSmoother cornerParameters 0).cost) ∧
      statedCost cornerSmoother cornerParameters = (π / 2) ^ 2 := by
  have weights : cornerSmoother.wCost = 0 ∧ 0 ≤ cornerSmoother.wSmooth ∧
      0 ≤ cornerSmoother.wCurve ∧ 0 ≤ cornerSmoother.wDist := by
    norm_num [cornerSmoother]
  have settled := evaluate_cost_eq_statedCost cornerSmoother cornerParameters 0
  exact ⟨weights, ⟨settled.1, settled.2 weights.1 weights.2.1 weights.2.2.1 weights.2.2.2⟩,
    cornerSmoother_statedCost⟩

end SmacPlanner
