import SmacPlanner.Node2D
import SmacPlanner.Smoother.Vector2d
import Mathlib.Analysis.SpecialFunctions.Trigonometric.Inverse

namespace SmacPlanner

/-- `#define EPSILON 0.0001` of the smoother. -/
def epsilon : ℝ := 0.0001

/-- Modelled from the spec: the costmap view of minimal_costmap.hpp, which is not part of
the sources. Sizes and cells are `unsigned int`, costs are bytes, and `worldToMap` reports
only in-bounds cells. -/
structure MinimalCostmap where
  sizeX : ℕ
  sizeY : ℕ
  getCost : ℕ → ℕ → ℕ
  worldToMap : ℝ → ℝ → Option (ℕ × ℕ)
  sizeX_lt : sizeX < 2 ^ 32
  sizeY_lt : sizeY < 2 ^ 32
  getCost_lt : ∀ x y, getCost x y < 256
  worldToMap_lt : ∀ {wx wy mx my}, worldToMap wx wy = some (mx, my) → mx < sizeX ∧ my < sizeY

/-- `unsigned int` addition. -/
def addU32 (a b : ℕ) : ℕ := (a + b) % 2 ^ 32

/-- `unsigned int` subtraction of a small constant, wrapping below zero. -/
def subU32 (a b : ℕ) : ℕ := (a + 2 ^ 32 - b) % 2 ^ 32

/-- One guarded read of the stencil: `if (guard) sample = getCost(x, y);`, the sample keeping
its initial `0.0` when the guard fails. -/
structure Probe where
  guard : Bool
  x : ℕ
  y : ℕ
  deriving DecidableEq, Repr

def Probe.sample (costmap : MinimalCostmap) (probe : Probe) : ℝ :=
  if probe.guard then costmap.getCost probe.x probe.y else 0

structure Stencil where
  rightOne : Probe
  rightTwo : Probe
  rightThree : Probe
  leftOne : Probe
  leftTwo : Probe
  leftThree : Probe
  upOne : Probe
  upTwo : Probe
  upThree : Probe
  downOne : Probe
  downTwo : Probe
  downThree : Probe

/-- The twelve guarded reads of getCostmapGradient, with its guards and its `unsigned int`
coordinate arithmetic. -/
def stencil (costmap : MinimalCostmap) (mx my : ℕ) : Stencil where
  rightOne := ⟨mx < costmap.sizeX, addU32 mx 1, my⟩
  rightTwo := ⟨addU32 mx 1 < costmap.sizeX, addU32 mx 2, my⟩
  rightThree := ⟨addU32 mx 2 < costmap.sizeX, addU32 mx 3, my⟩
  leftOne := ⟨0 < mx, subU32 mx 1, my⟩
  leftTwo := ⟨0 < subU32 mx 1, subU32 mx 2, my⟩
  leftThree := ⟨0 < subU32 mx 2, subU32 mx 3, my⟩
  upOne := ⟨my < costmap.sizeY, mx, addU32 my 1⟩
  upTwo := ⟨addU32 my 1 < costmap.sizeY, mx, addU32 my 2⟩
  upThree := ⟨addU32 my 2 < costmap.sizeY, mx, addU32 my 3⟩
  downOne := ⟨0 < my, mx, subU32 my 1⟩
  downTwo := ⟨0 < subU32 my 1, mx, subU32 my 2⟩
  downThree := ⟨0 < subU32 my 2, mx, subU32 my 3⟩

def Stencil.probes (s : Stencil) : List Probe :=
  [s.rightOne, s.rightTwo, s.rightThree, s.leftOne, s.leftTwo, s.leftThree,
    s.upOne, s.upTwo, s.upThree, s.downOne, s.downTwo, s.downThree]

/-- The cells getCostmapGradient passes to getCost, in the order it reads them. -/
def getCostmapGradientReads (costmap : MinimalCostmap) (mx my : ℕ) : List (ℕ × ℕ) :=
  ((stencil costmap mx my).probes.filter (·.guard)).map fun probe => (probe.x, probe.y)

/-- The seven-point stencil: component `[0]` differences the up and down samples, component
`[1]` the right and left ones, and the result is normalized. -/
noncomputable def getCostmapGradient (costmap : MinimalCostmap) (mx my : ℕ) : Vector2d :=
  let s := stencil costmap mx my
  let v := fun probe : Probe => probe.sample costmap
  Vector2d.normalized
    ⟨(45 * v s.upOne - 9 * v s.upTwo + v s.upThree - 45 * v s.downOne + 9 * v s.downTwo -
        v s.downThree) / 60,
      (45 * v s.rightOne - 9 * v s.rightTwo + v s.rightThree - 45 * v s.leftOne +
        9 * v s.leftTwo - v s.leftThree) / 60⟩

/-- Free and unknown cells contribute nothing; other cells add a negative quadratic. -/
noncomputable def addCostResidual (codes : CostCodes) (weight value r : ℝ) : ℝ :=
  if value = codes.free ∨ value = codes.unknown then r
  else r + -1 * weight * (value - codes.maxNonObstacle) * (value - codes.maxNonObstacle)

noncomputable def addCostJacobian (codes : CostCodes) (costmap : MinimalCostmap) (weight : ℝ)
    (mx my : ℕ) (value j0 j1 : ℝ) : ℝ × ℝ :=
  if value = codes.free ∨ value = codes.unknown then (j0, j1)
  else
    let grad := getCostmapGradient costmap mx my
    let commonPrefix := -2 * weight * (value - codes.maxNonObstacle)
    (j0 + commonPrefix * grad.x, j1 + commonPrefix * grad.y)

/-- The cache shared between the curvature residual and its Jacobian. -/
structure CurvatureComputations where
  valid : Bool := true
  deltaXi : Vector2d := 0
  deltaXiP : Vector2d := 0
  deltaXiNorm : ℝ := 0
  deltaXiPNorm : ℝ := 0
  deltaPhiI : ℝ := 0
  turningRad : ℝ := 0
  kiMinusKmax : ℝ := 0

/-- The projection of the turning angle after the clamp: near `±1` it is set to `1`. -/
noncomputable def clampProjection (projection : ℝ) : ℝ :=
  if |1 - projection| < epsilon ∨ |projection + 1| < epsilon then 1 else projection

/-- The curvature residual, writing its cache. Norms of reals are never NaN or infinite, so
only the `< EPSILON` tests of the guard remain. `maxTurningRadius` is the member the
constructor fills from `max_curvature`. -/
noncomputable def addCurvatureResidual (maxTurningRadius weight : ℝ) (pt ptP ptM : Vector2d)
    (curvatureParams : CurvatureComputations) (r : ℝ) : CurvatureComputations × ℝ :=
  let fresh := { curvatureParams with
    valid := true, deltaXi := pt - ptM, deltaXiP := ptP - pt,
    deltaXiNorm := (pt - ptM).norm, deltaXiPNorm := (ptP - pt).norm }
  if fresh.deltaXiNorm < epsilon ∨ fresh.deltaXiPNorm < epsilon then
    ({ fresh with valid := false }, r)
  else
    let deltaXiByXiP := fresh.deltaXiNorm * fresh.deltaXiPNorm
    let projection := clampProjection (fresh.deltaXi.dot fresh.deltaXiP / deltaXiByXiP)
    let deltaPhiI := Real.arccos projection
    let turningRad := deltaPhiI / fresh.deltaXiNorm
    let angled := { fresh with
      deltaPhiI := deltaPhiI, turningRad := turningRad,
      kiMinusKmax := turningRad - maxTurningRadius }
    if angled.kiMinusKmax ≤ epsilon then ({ angled with valid := false }, r)
    else (angled, r + weight * angled.kiMinusKmax * angled.kiMinusKmax)

noncomputable def normalizedOrthogonalComplement (a b : Vector2d) (aNorm bNorm : ℝ) :
    Vector2d :=
  (a - a.dot b • b / b.squaredNorm) / (aNorm * bNorm)

/-- The curvature Jacobian for point `i`, read from the cache. Like the source it builds the
orthogonal complements from the points `pt` and `-ptP`, and ignores `ptM`. -/
noncomputable def addCurvatureJacobian (weight : ℝ) (pt ptP _ptM : Vector2d)
    (curvatureParams : CurvatureComputations) (j0 j1 : ℝ) : ℝ × ℝ :=
  if !curvatureParams.valid then (j0, j1)
  else
    let dPhiDCos := -1 / √(1 - Real.cos curvatureParams.deltaPhiI ^ 2)
    let ones : Vector2d := ⟨1, 1⟩
    let negPtPlus := (-1 : ℝ) • ptP
    let p1 := normalizedOrthogonalComplement pt negPtPlus curvatureParams.deltaXiNorm
      curvatureParams.deltaXiPNorm
    let p2 := normalizedOrthogonalComplement negPtPlus pt curvatureParams.deltaXiPNorm
      curvatureParams.deltaXiNorm
    let u := 2 * curvatureParams.kiMinusKmax
    let commonPrefix := -1 / curvatureParams.deltaXiNorm * dPhiDCos
    let commonSuffix :=
      curvatureParams.deltaPhiI / (curvatureParams.deltaXiNorm * curvatureParams.deltaXiNorm)
    let jacobian := u • (commonPrefix • (-p1 - p2) - commonSuffix • ones)
    let jacobianIm1 := u • (commonPrefix • p2 - commonSuffix • ones)
    let jacobianIp1 := u • (commonPrefix • p1)
    (j0 + weight * (jacobianIm1.x - 2 * jacobian.x + jacobianIp1.x),
      j1 + weight * (jacobianIm1.y - 2 * jacobian.y + jacobianIp1.y))

def addSmoothingResidual (weight : ℝ) (pt ptP ptM : Vector2d) (r : ℝ) : ℝ :=
  r + weight * (ptP.dot ptP - 4 * ptP.dot pt + 2 * ptP.dot ptM + 4 * pt.dot pt -
    4 * pt.dot ptM + ptM.dot ptM)

def addSmoothingJacobian (weight : ℝ) (pt ptP ptM : Vector2d) (j0 j1 : ℝ) : ℝ × ℝ :=
  (j0 + weight * (-4 * ptM.x + 8 * pt.x - 4 * ptP.x),
    j1 + weight * (-4 * ptM.y + 8 * pt.y - 4 * ptP.y))

def addDistanceResidual (weight : ℝ) (xi xiOriginal : Vector2d) (r : ℝ) : ℝ :=
  r + weight * (xi - xiOriginal).dot (xi - xiOriginal)

def addDistanceJacobian (weight : ℝ) (xi xiOriginal : Vector2d) (j0 j1 : ℝ) : ℝ × ℝ :=
  (j0 + weight * 2 * (xi.x - xiOriginal.x), j1 + weight * 2 * (xi.y - xiOriginal.y))

/-- `J j0 j1` adds to `(j0, j1)` what it adds to `(0, 0)`: each Jacobian term adds a fixed
amount to the two accumulators it is given. -/
def IsShift (J : ℝ → ℝ → ℝ × ℝ) : Prop :=
  ∀ j0 j1, J j0 j1 = (j0 + (J 0 0).1, j1 + (J 0 0).2)

theorem IsShift.comp {J K : ℝ → ℝ → ℝ × ℝ} (first : IsShift J) (second : IsShift K) :
    IsShift fun j0 j1 => K (J j0 j1).1 (J j0 j1).2 := by
  intro j0 j1
  show K (J j0 j1).1 (J j0 j1).2 =
    (j0 + (K (J 0 0).1 (J 0 0).2).1, j1 + (K (J 0 0).1 (J 0 0).2).2)
  rw [second (J j0 j1).1, second (J 0 0).1, first j0 j1]
  simp only [Prod.mk.injEq]
  constructor <;> ring

theorem addSmoothingJacobian_isShift (weight : ℝ) (pt ptP ptM : Vector2d) :
    IsShift (addSmoothingJacobian weight pt ptP ptM) := by
  intro j0 j1
  simp [addSmoothingJacobian]

theorem addDistanceJacobian_isShift (weight : ℝ) (xi xiOriginal : Vector2d) :
    IsShift (addDistanceJacobian weight xi xiOriginal) := by
  intro j0 j1
  simp [addDistanceJacobian]

theorem addCurvatureJacobian_isShift (weight : ℝ) (pt ptP ptM : Vector2d)
    (curvatureParams : CurvatureComputations) :
    IsShift (addCurvatureJacobian weight pt ptP ptM curvatureParams) := by
  intro j0 j1
  unfold addCurvatureJacobian
  dsimp only
  split_ifs <;> simp

theorem addCostJacobian_isShift (codes : CostCodes) (costmap : MinimalCostmap) (weight : ℝ)
    (mx my : ℕ) (value : ℝ) : IsShift (addCostJacobian codes costmap weight mx my value) := by
  intro j0 j1
  unfold addCostJacobian
  dsimp only
  split_ifs <;> simp

/-- The expanded six-term form of the smoothing residual is the squared second difference. -/
theorem addSmoothingResidual_eq (weight : ℝ) (pt ptP ptM : Vector2d) (r : ℝ) :
    addSmoothingResidual weight pt ptP ptM r =
      r + weight * (ptP - (2 : ℝ) • pt + ptM).squaredNorm := by
  simp only [addSmoothingResidual, Vector2d.dot_def, Vector2d.squaredNorm_def, Vector2d.add_x,
    Vector2d.add_y, Vector2d.sub_x, Vector2d.sub_y, Vector2d.smul_x, Vector2d.smul_y]
  ring

theorem addDistanceResidual_eq (weight : ℝ) (xi xiOriginal : Vector2d) (r : ℝ) :
    addDistanceResidual weight xi xiOriginal r = r + weight * (xi - xiOriginal).squaredNorm :=
  rfl

theorem addCostResidual_eq (codes : CostCodes) (weight value r : ℝ) :
    addCostResidual codes weight value r =
      r + if value = codes.free ∨ value = codes.unknown then 0
        else -1 * weight * (value - codes.maxNonObstacle) * (value - codes.maxNonObstacle) := by
  unfold addCostResidual
  split_ifs <;> ring

/-- The amount the curvature residual adds for a triple. -/
noncomputable def curvatureResidual (maxTurningRadius weight : ℝ) (pt ptP ptM : Vector2d) : ℝ :=
  (addCurvatureResidual maxTurningRadius weight pt ptP ptM {} 0).2

theorem addCurvatureResidual_snd (maxTurningRadius weight : ℝ) (pt ptP ptM : Vector2d)
    (curvatureParams : CurvatureComputations) (r : ℝ) :
    (addCurvatureResidual maxTurningRadius weight pt ptP ptM curvatureParams r).2 =
      r + curvatureResidual maxTurningRadius weight pt ptP ptM := by
  unfold curvatureResidual addCurvatureResidual
  dsimp only
  split_ifs <;> simp

theorem curvatureResidual_zero_weight (maxTurningRadius : ℝ) (pt ptP ptM : Vector2d) :
    curvatureResidual maxTurningRadius 0 pt ptP ptM = 0 := by
  unfold curvatureResidual addCurvatureResidual
  dsimp only
  split_ifs <;> simp

theorem addCurvatureJacobian_zero_weight (pt ptP ptM : Vector2d)
    (curvatureParams : CurvatureComputations) (j0 j1 : ℝ) :
    addCurvatureJacobian 0 pt ptP ptM curvatureParams j0 j1 = (j0, j1) := by
  unfold addCurvatureJacobian
  dsimp only
  split_ifs <;> simp

/-- Whether the cache ends valid depends on the triple alone. -/
theorem addCurvatureResidual_valid (maxTurningRadius weight weight' : ℝ) (pt ptP ptM : Vector2d)
    (curvatureParams curvatureParams' : CurvatureComputations) (r r' : ℝ) :
    (addCurvatureResidual maxTurningRadius weight pt ptP ptM curvatureParams r).1.valid =
      (addCurvatureResidual maxTurningRadius weight' pt ptP ptM curvatureParams' r').1.valid := by
  unfold addCurvatureResidual
  dsimp only
  split_ifs <;> rfl

/-- A valid cache was written whole by the residual call that left it: it does not depend on
the cache that call was given, nor on the weight or the cost. -/
theorem addCurvatureResidual_fst_of_valid {maxTurningRadius weight r : ℝ} {pt ptP ptM : Vector2d}
    {curvatureParams : CurvatureComputations} (weight' : ℝ)
    (curvatureParams' : CurvatureComputations) (r' : ℝ)
    (valid : (addCurvatureResidual maxTurningRadius weight pt ptP ptM curvatureParams r).1.valid) :
    (addCurvatureResidual maxTurningRadius weight pt ptP ptM curvatureParams r).1 =
      (addCurvatureResidual maxTurningRadius weight' pt ptP ptM curvatureParams' r').1 := by
  unfold addCurvatureResidual at valid ⊢
  dsimp only at valid ⊢
  split_ifs at valid ⊢
  simp_all

theorem addCurvatureJacobian_of_not_valid {weight j0 j1 : ℝ} {pt ptP ptM : Vector2d}
    {curvatureParams : CurvatureComputations} (invalid : curvatureParams.valid = false) :
    addCurvatureJacobian weight pt ptP ptM curvatureParams j0 j1 = (j0, j1) := by
  simp [addCurvatureJacobian, invalid]

/-- The Jacobian reads only what the residual call of the same triple wrote. -/
theorem addCurvatureJacobian_residual (maxTurningRadius weight weight' r : ℝ)
    (pt ptP ptM : Vector2d) (curvatureParams : CurvatureComputations) (j0 j1 : ℝ) :
    addCurvatureJacobian weight pt ptP ptM
        (addCurvatureResidual maxTurningRadius weight' pt ptP ptM curvatureParams r).1 j0 j1 =
      addCurvatureJacobian weight pt ptP ptM
        (addCurvatureResidual maxTurningRadius weight' pt ptP ptM {} 0).1 j0 j1 := by
  cases valid : (addCurvatureResidual maxTurningRadius weight' pt ptP ptM curvatureParams r).1.valid
  · have fresh := (addCurvatureResidual_valid maxTurningRadius weight' weight' pt ptP ptM {}
      curvatureParams 0 r).trans valid
    rw [addCurvatureJacobian_of_not_valid valid, addCurvatureJacobian_of_not_valid fresh]
  · rw [addCurvatureResidual_fst_of_valid weight' {} 0 valid]

end SmacPlanner
