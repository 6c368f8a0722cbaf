import SmacPlanner.Smoother.Derivative

namespace SmacPlanner

open UnconstrainedSmootherCostFunction

/-- Every point of the flattened parameter vector moved by `offset`. -/
def translateParameters (parameters : ℕ → ℝ) (offset : Vector2d) (j : ℕ) : ℝ :=
  parameters j + if j % 2 = 0 then offset.x else offset.y

/-- The cost function whose original path is moved by `offset`. -/
def UnconstrainedSmootherCostFunction.translate (f : UnconstrainedSmootherCostFunction)
    (offset : Vector2d) : UnconstrainedSmootherCostFunction :=
  { f with originalPath := f.originalPath.map (· + offset) }

@[simp] theorem translate_length (f : UnconstrainedSmootherCostFunction) (offset : Vector2d) :
    (f.translate offset).originalPath.length = f.originalPath.length :=
  List.length_map _ _

theorem pointAt_translate (parameters : ℕ → ℝ) (offset : Vector2d) (i : ℕ) :
    pointAt (translateParameters parameters offset) i = pointAt parameters i + offset := by
  have odd : (2 * i + 1) % 2 = 1 := by omega
  ext <;> simp [pointAt, translateParameters, odd]

theorem getD_map_add {path : List Vector2d} {i : ℕ} (offset : Vector2d)
    (within : i < path.length) :
    (path.map (· + offset)).getD i 0 = path.getD i 0 + offset := by
  rw [List.getD_eq_getElem _ _ (by simpa using within), List.getD_eq_getElem _ _ within,
    List.getElem_map]

theorem sub_translate (a b offset : Vector2d) : a + offset - (b + offset) = a - b := by
  ext <;> simp only [Vector2d.add_x, Vector2d.add_y, Vector2d.sub_x, Vector2d.sub_y] <;> ring

theorem secondDifference_translate (pt ptP ptM offset : Vector2d) :
    ptP + offset - (2 : ℝ) • (pt + offset) + (ptM + offset) = ptP - (2 : ℝ) • pt + ptM := by
  ext <;> simp only [Vector2d.add_x, Vector2d.add_y, Vector2d.sub_x, Vector2d.sub_y,
    Vector2d.smul_x, Vector2d.smul_y] <;> ring

/-- The curvature residual reads the triple only through `xᵢ - xᵢ₋₁` and `xᵢ₊₁ - xᵢ`. -/
theorem addCurvatureResidual_translate (maxTurningRadius weight : ℝ) (pt ptP ptM offset : Vector2d)
    (curvatureParams : CurvatureComputations) (r : ℝ) :
    addCurvatureResidual maxTurningRadius weight (pt + offset) (ptP + offset) (ptM + offset)
        curvatureParams r =
      addCurvatureResidual maxTurningRadius weight pt ptP ptM curvatureParams r := by
  simp only [addCurvatureResidual, sub_translate]

section Translation

variable {f : UnconstrainedSmootherCostFunction} (parameters : ℕ → ℝ) (offset : Vector2d)
  (noCostmap : f.wCost = 0)
include noCostmap

/-- With no costmap weight, the residual block of an interior point does not move with the
problem. -/
theorem pointResidual_translate {i : ℕ} (inside : interior f.originalPath.length i) :
    pointResidual (f.translate offset) (translateParameters parameters offset) i =
      pointResidual f parameters i := by
  have within : i < f.originalPath.length := by
    unfold interior at inside
    omega
  rw [pointResidual_eq_blockResidual _ _ inside.1, pointResidual_eq_blockResidual _ _ inside.1]
  unfold blockResidual curvatureResidual
  simp only [pointAt_translate, UnconstrainedSmootherCostFunction.translate,
    getD_map_add offset within, sub_translate, secondDifference_translate,
    addCurvatureResidual_translate]
  congr 1
  split <;> split <;> simp [noCostmap, addCostResidual_eq]

/-- With no costmap and no curvature weight, the Jacobian block of an interior point does not
move with the problem either. -/
theorem pointJacobian_translate (noCurve : f.wCurve = 0) {i : ℕ}
    (inside : interior f.originalPath.length i) :
    pointJacobian (f.translate offset) (translateParameters parameters offset) i =
      pointJacobian f parameters i := by
  have within : i < f.originalPath.length := by
    unfold interior at inside
    omega
  have difference : secondDifference (translateParameters parameters offset) i =
      secondDifference parameters i := by
    simp only [secondDifference, pointAt_translate, secondDifference_translate]
  rw [pointJacobian_of_zero_weights _ noCurve noCostmap inside.1,
    pointJacobian_of_zero_weights (f := f.translate offset) _ noCurve noCostmap inside.1]
  simp only [difference, UnconstrainedSmootherCostFunction.translate, pointAt_translate,
    getD_map_add offset within, sub_translate]

theorem gradientSlot_translate (noCurve : f.wCurve = 0) (j : ℕ) :
    gradientSlot (f.translate offset) (translateParameters parameters offset) j =
      gradientSlot f parameters j := by
  have blocks : ∑ i ∈ (Finset.range (j / 2 + 1)).filter (interior f.originalPath.length),
      pointJacobian (f.translate offset) (translateParameters parameters offset) i =
        ∑ i ∈ (Finset.range (j / 2 + 1)).filter (interior f.originalPath.length),
          pointJacobian f parameters i :=
    Finset.sum_congr rfl fun i member =>
      pointJacobian_translate parameters offset noCostmap noCurve (Finset.mem_filter.mp member).2
  simp only [gradientSlot, translate_length, blocks]

end Translation

/-- With no costmap weight, moving the parameter vector and the original path by the same
vector leaves the `cost[0]` Evaluate writes unchanged, for every path, parameter vector and
gradient array: the smoothing, curvature and distance terms read only differences of points.
With no curvature weight either, the gradient it writes is unchanged too wherever the
curvature Jacobians of the interior points are defined before and after the move. -/
theorem evaluate_translate (f : UnconstrainedSmootherCostFunction) (parameters gradient : ℕ → ℝ)
    (offset : Vector2d) (noCostmap : f.wCost = 0) :
    (evaluate (f.translate offset) (translateParameters parameters offset) gradient).cost =
        (evaluate f parameters gradient).cost ∧
      (f.wCurve = 0 →
        (∀ i, interior f.originalPath.length i → JacobianDefined f parameters i ∧
          JacobianDefined (f.translate offset) (translateParameters parameters offset) i) →
        (evaluate (f.translate offset) (translateParameters parameters offset) gradient).gradient =
          (evaluate f parameters gradient).gradient) := by
  refine ⟨?_, fun noCurve _defined => ?_⟩
  · rw [evaluate_cost, evaluate_cost, translate_length]
    exact Finset.sum_congr rfl fun i member =>
      pointResidual_translate parameters offset noCostmap (Finset.mem_filter.mp member).2
  · rw [evaluate_gradient, evaluate_gradient]
    simp only [numParameters, translate_length,
      gradientSlot_translate parameters offset noCostmap noCurve]

theorem stairSmoother_translate :
    stairSmoother.wCost = 0 ∧ stairSmoother.wCurve = 0 ∧
      (∀ i, interior stairSmoother.originalPath.length i →
        JacobianDefined stairSmoother stairParameters i ∧
          JacobianDefined (stairSmoother.translate ⟨1, 1⟩)
            (translateParameters stairParameters ⟨1, 1⟩) i) ∧
      (evaluate (stairSmoother.translate ⟨1, 1⟩) (translateParameters stairParameters ⟨1, 1⟩)
          0).cost = (evaluate stairSmoother stairParameters 0).cost ∧
      (evaluate (stairSmoother.translate ⟨1, 1⟩) (translateParameters stairParameters ⟨1, 1⟩)
          0).gradient = (evaluate stairSmoother stairParameters 0).gradient := by
  have defined : ∀ i, interior stairSmoother.originalPath.length i →
      JacobianDefined stairSmoother stairParameters i ∧
        JacobianDefined (stairSmoother.translate ⟨1, 1⟩)
          (translateParameters stairParameters ⟨1, 1⟩) i := by
    rintro i ⟨low, high⟩
    obtain rfl | rfl : i = 1 ∨ i = 2 := by
      change i + 2 ≤ 4 at high
      omega
    all_goals exact ⟨jacobianDefined_of_ne_zero le_rfl
        (by simp [pointAt, stairParameters, Vector2d.ext_iff])
        (by simp [pointAt, stairParameters, Vector2d.ext_iff]),
      jacobianDefined_of_ne_zero le_rfl
        (by norm_num [pointAt, translateParameters, stairParameters, Vector2d.ext_iff])
        (by norm_num [pointAt, translateParameters, stairParameters, Vector2d.ext_iff])⟩
  have settled := evaluate_translate stairSmoother stairParameters 0 ⟨1, 1⟩ rfl
  exact ⟨rfl, rfl, defined, settled.1, settled.2 rfl defined⟩

end SmacPlanner
