import SmacPlanner.Smoother.Curvature
import SmacPlanner.Smoother.Gradient

namespace SmacPlanner

open UnconstrainedSmootherCostFunction

/-- The cache holds what the curvature Jacobian reads for the triple `(ptM, pt, ptP)`: it is
valid exactly when the triple is active, and then its angle, its two norms and its slack are
this triple's own. -/
structure CacheOf (maxTurningRadius : ℝ) (pt ptP ptM : Vector2d)
    (cache : CurvatureComputations) : Prop where
  valid_iff : cache.valid = true ↔ CurvatureActive maxTurningRadius pt ptP ptM
  deltaPhiI : cache.valid = true →
    cache.deltaPhiI = Real.arccos (clampProjection (turningProjection pt ptP ptM))
  deltaXiNorm : cache.valid = true → cache.deltaXiNorm = (pt - ptM).norm
  deltaXiPNorm : cache.valid = true → cache.deltaXiPNorm = (ptP - pt).norm
  kiMinusKmax : cache.valid = true →
    cache.kiMinusKmax = curvatureSlack maxTurningRadius pt ptP ptM

/-- Whatever cache it is given, the residual call leaves the cache of its own triple. -/
theorem addCurvatureResidual_cacheOf (maxTurningRadius weight : ℝ) (pt ptP ptM : Vector2d)
    (cache : CurvatureComputations) (r : ℝ) :
    CacheOf maxTurningRadius pt ptP ptM
      (addCurvatureResidual maxTurningRadius weight pt ptP ptM cache r).1 := by
  have valid_iff := @addCurvatureResidual_valid_iff maxTurningRadius weight pt ptP ptM cache r
  refine ⟨valid_iff, ?_, ?_, ?_, ?_⟩ <;> intro valid <;>
    rw [addCurvatureResidual_fst_of_active weight cache r (valid_iff.mp valid)]

/-- Reading the cache of an inactive triple, the curvature Jacobian adds nothing. -/
theorem CacheOf.addCurvatureJacobian_of_not_active {maxTurningRadius : ℝ}
    {pt ptP ptM : Vector2d} {cache : CurvatureComputations}
    (fresh : CacheOf maxTurningRadius pt ptP ptM cache)
    (inactive : ¬CurvatureActive maxTurningRadius pt ptP ptM) (weight j0 j1 : ℝ) :
    addCurvatureJacobian weight pt ptP ptM cache j0 j1 = (j0, j1) :=
  addCurvatureJacobian_of_not_valid (Bool.eq_false_iff.mpr (mt fresh.valid_iff.mp inactive))

/-- What iteration `i` of Evaluate's loop, started in state `s`, does with the curvature
cache: its Jacobian block is read from the cache the iteration leaves, the curvature term adds
nothing unless triple `i` is active, and that cache is triple `i`'s own. -/
structure ReadsOwnCache (f : UnconstrainedSmootherCostFunction) (parameters : ℕ → ℝ)
    (s : EvaluateState) (i : ℕ) : Prop where
  jacobian : ((evaluateStep f parameters s i).gradXRaw, (evaluateStep f parameters s i).gradYRaw) =
    addPointJacobian f (pointAt parameters i) (pointAt parameters (i + 1))
      (pointAt parameters (i - 1)) (f.originalPath.getD i 0)
      (f.costmap.worldToMap (pointAt parameters i).x (pointAt parameters i).y)
      (evaluateStep f parameters s i).curvatureParams s.gradXRaw s.gradYRaw
  curvature_active : ∀ j0 j1,
    addCurvatureJacobian f.wCurve (pointAt parameters i) (pointAt parameters (i + 1))
        (pointAt parameters (i - 1)) (evaluateStep f parameters s i).curvatureParams j0 j1 ≠
      (j0, j1) →
    CurvatureActive f.maxTurningRadius (pointAt parameters i) (pointAt parameters (i + 1))
      (pointAt parameters (i - 1))
  cacheOf : CacheOf f.maxTurningRadius (pointAt parameters i) (pointAt parameters (i + 1))
    (pointAt parameters (i - 1)) (evaluateStep f parameters s i).curvatureParams

section Iteration

variable (f : UnconstrainedSmootherCostFunction) (parameters : ℕ → ℝ) (s : EvaluateState)
  {i : ℕ} (inside : interior f.originalPath.length i)
include inside

/-- An interior iteration leaves the cache its residual call wrote. -/
theorem evaluateStep_curvatureParams :
    (evaluateStep f parameters s i).curvatureParams =
      (addCurvatureResidual f.maxTurningRadius f.wCurve (pointAt parameters i)
        (pointAt parameters (i + 1)) (pointAt parameters (i - 1)) s.curvatureParams
        (addSmoothingResidual f.wSmooth (pointAt parameters i) (pointAt parameters (i + 1))
          (pointAt parameters (i - 1)) s.costRaw)).1 := by
  rw [pointAt_pred parameters inside.1]
  simp only [evaluateStep, skip_iff, inside, not_true_eq_false, if_false]
  simp only [EvaluateState.writeGradient_curvatureParams, addPointResidual_fst]
  rfl

/-- The Jacobian block of an interior iteration reads the cache the iteration leaves. -/
theorem evaluateStep_gradRaw_of_cache :
    ((evaluateStep f parameters s i).gradXRaw, (evaluateStep f parameters s i).gradYRaw) =
      addPointJacobian f (pointAt parameters i) (pointAt parameters (i + 1))
        (pointAt parameters (i - 1)) (f.originalPath.getD i 0)
        (f.costmap.worldToMap (pointAt parameters i).x (pointAt parameters i).y)
        (evaluateStep f parameters s i).curvatureParams s.gradXRaw s.gradYRaw := by
  rw [pointAt_pred parameters inside.1]
  simp only [evaluateStep, skip_iff, inside, not_true_eq_false, if_false]
  rfl

/-- From any state, whatever cache earlier iterations left, an interior iteration reads only
the cache of its own triple. -/
theorem evaluateStep_readsOwnCache :
    ReadsOwnCache f parameters s i := by
  have fresh : CacheOf f.maxTurningRadius (pointAt parameters i) (pointAt parameters (i + 1))
      (pointAt parameters (i - 1)) (evaluateStep f parameters s i).curvatureParams := by
    rw [evaluateStep_curvatureParams f parameters s inside]
    exact addCurvatureResidual_cacheOf _ _ _ _ _ _ _
  refine ⟨evaluateStep_gradRaw_of_cache f parameters s inside, fun j0 j1 added => ?_, fresh⟩
  by_contra inactive
  exact added (fresh.addCurvatureJacobian_of_not_active inactive _ j0 j1)

end Iteration

/-- In every iteration `i` of Evaluate's loop that calls the Jacobian, the curvature
Jacobian adds a non-zero term only for an active triple, and every cached field it reads is
the value the residual call of that iteration computed from triple `i`. -/
theorem evaluateLoop_readsOwnCache (f : UnconstrainedSmootherCostFunction)
    (parameters g : ℕ → ℝ) {i : ℕ} (inside : interior f.originalPath.length i) :
    ReadsOwnCache f parameters (evaluateLoop f parameters g i) i :=
  evaluateStep_readsOwnCache f parameters _ inside

theorem stairSmoother_readsOwnCache :
    interior stairSmoother.originalPath.length 1 ∧
      ReadsOwnCache stairSmoother stairParameters
        (evaluateLoop stairSmoother stairParameters 0 1) 1 :=
  ⟨by decide, evaluateLoop_readsOwnCache stairSmoother stairParameters 0 (by decide)⟩

end SmacPlanner
