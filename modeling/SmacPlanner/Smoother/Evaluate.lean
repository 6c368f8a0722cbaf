import SmacPlanner.Smoother.CostFunction

namespace SmacPlanner

/-- The members of `SmootherParams` the constructor reads. -/
structure SmootherParams where
  smoothWeight : ℝ
  costmapWeight : ℝ
  curvatureWeight : ℝ
  distanceWeight : ℝ
  maxCurvature : ℝ

/-- The cost function object: the borrowed original path and costmap, the cost codes its
terms compare against, and the members the constructor sets. -/
structure UnconstrainedSmootherCostFunction where
  originalPath : List Vector2d
  costmap : MinimalCostmap
  codes : CostCodes
  wSmooth : ℝ
  wCurve : ℝ
  wCost : ℝ
  wDist : ℝ
  maxTurningRadius : ℝ

namespace UnconstrainedSmootherCostFunction

def create (originalPath : List Vector2d) (costmap : MinimalCostmap) (codes : CostCodes)
    (params : SmootherParams) : UnconstrainedSmootherCostFunction where
  originalPath := originalPath
  costmap := costmap
  codes := codes
  wSmooth := params.smoothWeight
  wCost := params.costmapWeight
  wCurve := params.curvatureWeight
  wDist := params.distanceWeight
  maxTurningRadius := params.maxCurvature

def numParameters (f : UnconstrainedSmootherCostFunction) : ℕ := 2 * f.originalPath.length

end UnconstrainedSmootherCostFunction

open UnconstrainedSmootherCostFunction

/-- The accesses Evaluate makes through its raw arrays and through `_original_path->at`. -/
inductive Access
  | parameters (index : ℕ)
  | gradient (index : ℕ)
  | originalPath (index : ℕ)
  deriving DecidableEq, Repr

/-- The variables Evaluate's loop carries from one iteration to the next, the gradient array,
and the accesses made so far. -/
structure EvaluateState where
  costRaw : ℝ := 0
  gradXRaw : ℝ := 0
  gradYRaw : ℝ := 0
  curvatureParams : CurvatureComputations := {}
  gradient : ℕ → ℝ
  accesses : List Access := []

/-- `gradient[index] = value;` -/
def EvaluateState.writeGradient (s : EvaluateState) (index : ℕ) (value : ℝ) : EvaluateState :=
  { s with
    gradient := Function.update s.gradient index value
    accesses := s.accesses ++ [.gradient index] }

/-- The six reads of `parameters` that build `xi`, `xi_p1` and `xi_m1` in iteration `i`. -/
def pointReads (i : ℕ) : List Access :=
  [.parameters (2 * i), .parameters (2 * i + 1), .parameters (2 * i + 2),
    .parameters (2 * i + 3), .parameters (2 * i - 2), .parameters (2 * i - 1)]

/-- Point `i` of the flattened parameter vector. -/
def pointAt (parameters : ℕ → ℝ) (i : ℕ) : Vector2d :=
  ⟨parameters (2 * i), parameters (2 * i + 1)⟩

/-- `xi_m1` of iteration `i ≥ 1` is point `i - 1`. -/
theorem pointAt_pred (parameters : ℕ → ℝ) {i : ℕ} (positive : 1 ≤ i) :
    pointAt parameters (i - 1) = ⟨parameters (2 * i - 2), parameters (2 * i - 1)⟩ := by
  rw [pointAt, show 2 * (i - 1) = 2 * i - 2 by omega, show 2 * i - 2 + 1 = 2 * i - 1 by omega]

/-- The residual block of iteration `i`, given the cell worldToMap returned for `xi`. -/
noncomputable def addPointResidual (f : UnconstrainedSmootherCostFunction)
    (xi xiP1 xiM1 original : Vector2d) (cell : Option (ℕ × ℕ))
    (curvatureParams : CurvatureComputations) (costRaw : ℝ) : CurvatureComputations × ℝ :=
  let smoothed := addSmoothingResidual f.wSmooth xi xiP1 xiM1 costRaw
  let curved :=
    addCurvatureResidual f.maxTurningRadius f.wCurve xi xiP1 xiM1 curvatureParams smoothed
  let distanced := addDistanceResidual f.wDist xi original curved.2
  match cell with
  | some (mx, my) =>
    (curved.1, addCostResidual f.codes f.wCost (f.costmap.getCost mx my) distanced)
  | none => (curved.1, distanced)

/-- The Jacobian block of iteration `i`, reading the curvature cache the residual block left. -/
noncomputable def addPointJacobian (f : UnconstrainedSmootherCostFunction)
    (xi xiP1 xiM1 original : Vector2d) (cell : Option (ℕ × ℕ))
    (curvatureParams : CurvatureComputations) (gradXRaw gradYRaw : ℝ) : ℝ × ℝ :=
  let smoothed := addSmoothingJacobian f.wSmooth xi xiP1 xiM1 gradXRaw gradYRaw
  let curved := addCurvatureJacobian f.wCurve xi xiP1 xiM1 curvatureParams smoothed.1 smoothed.2
  let distanced := addDistanceJacobian f.wDist xi original curved.1 curved.2
  match cell with
  | some (mx, my) =>
    addCostJacobian f.codes f.costmap f.wCost mx my (f.costmap.getCost mx my) distanced.1
      distanced.2
  | none => distanced

/-- One iteration of the loop of `Evaluate` on a gradient array. The gradient slot of point `i`
is written before the endpoint test, so the `gradient != NULL` test holds in every iteration
that reaches it: a NULL pointer ends the call at its first write (`evaluateCall`). -/
noncomputable def evaluateStep (f : UnconstrainedSmootherCostFunction) (parameters : ℕ → ℝ)
    (s : EvaluateState) (i : ℕ) : EvaluateState :=
  let zeroed := (s.writeGradient (2 * i) 0).writeGradient (2 * i + 1) 0
  if i < 1 ∨ f.numParameters / 2 - 1 ≤ i then zeroed
  else
    let xi : Vector2d := ⟨parameters (2 * i), parameters (2 * i + 1)⟩
    let xiP1 : Vector2d := ⟨parameters (2 * i + 2), parameters (2 * i + 3)⟩
    let xiM1 : Vector2d := ⟨parameters (2 * i - 2), parameters (2 * i - 1)⟩
    let original := f.originalPath.getD i 0
    let cell := f.costmap.worldToMap xi.x xi.y
    let residual := addPointResidual f xi xiP1 xiM1 original cell zeroed.curvatureParams
      zeroed.costRaw
    let costed := { zeroed with
      curvatureParams := residual.1, costRaw := residual.2,
      accesses := zeroed.accesses ++ pointReads i ++ [Access.originalPath i] }
    let cleared := (costed.writeGradient (2 * i) 0).writeGradient (2 * i + 1) 0
    let raw := addPointJacobian f xi xiP1 xiM1 original cell residual.1 cleared.gradXRaw
      cleared.gradYRaw
    let accumulated := { cleared with
      gradXRaw := raw.1, gradYRaw := raw.2,
      accesses := cleared.accesses ++ [Access.originalPath i] }
    (accumulated.writeGradient (2 * i) raw.1).writeGradient (2 * i + 1) raw.2

/-- What a call of `Evaluate` that returns leaves behind: its return value, `cost[0]`, the
gradient array (`none` for a NULL pointer) and the accesses it made. -/
structure EvaluateResult where
  returned : Bool
  cost : ℝ
  gradient : Option (ℕ → ℝ)
  accesses : List Access

/-- `Evaluate(parameters, cost, gradient)` with a gradient array: the loop over the
`NumParameters() / 2` points. -/
noncomputable def evaluate (f : UnconstrainedSmootherCostFunction) (parameters : ℕ → ℝ)
    (gradient : ℕ → ℝ) : EvaluateResult :=
  let s := (List.range (f.numParameters / 2)).foldl (evaluateStep f parameters) { gradient }
  { returned := true, cost := s.costRaw, gradient := some s.gradient, accesses := s.accesses }

/-- `Evaluate(parameters, cost, gradient)` with the gradient pointer, `none` for NULL. The
first statement of the loop body, `gradient[x_index] = 0.0` with `x_index = 0`, writes through
a NULL pointer as soon as the loop runs, and the call ends there with that write; with no
point the loop does not run and the call returns `cost[0] = 0`. -/
noncomputable def evaluateCall (f : UnconstrainedSmootherCostFunction) (parameters : ℕ → ℝ) :
    Option (ℕ → ℝ) → Except Access EvaluateResult
  | some gradient => .ok (evaluate f parameters gradient)
  | none =>
    if f.numParameters / 2 = 0 then
      .ok { returned := true, cost := 0, gradient := none, accesses := [] }
    else .error (.gradient 0)

theorem UnconstrainedSmootherCostFunction.numParameters_div_two
    (f : UnconstrainedSmootherCostFunction) : f.numParameters / 2 = f.originalPath.length := by
  simp [numParameters]

/-- Point `i` has a neighbour on each side, so Evaluate fills its residual and Jacobian
blocks; the two endpoints and every index past them are skipped. -/
def interior (n i : ℕ) : Prop := 1 ≤ i ∧ i + 2 ≤ n

instance (n : ℕ) : DecidablePred (interior n) :=
  fun i => inferInstanceAs (Decidable (1 ≤ i ∧ i + 2 ≤ n))

theorem skip_iff (f : UnconstrainedSmootherCostFunction) (i : ℕ) :
    (i < 1 ∨ f.numParameters / 2 - 1 ≤ i) ↔ ¬interior f.originalPath.length i := by
  rw [numParameters_div_two]
  unfold interior
  omega

namespace EvaluateState

variable (s : EvaluateState) (index : ℕ) (value : ℝ)

@[simp] theorem writeGradient_costRaw : (s.writeGradient index value).costRaw = s.costRaw := rfl
@[simp] theorem writeGradient_gradXRaw : (s.writeGradient index value).gradXRaw = s.gradXRaw := rfl
@[simp] theorem writeGradient_gradYRaw : (s.writeGradient index value).gradYRaw = s.gradYRaw := rfl
@[simp] theorem writeGradient_curvatureParams :
    (s.writeGradient index value).curvatureParams = s.curvatureParams := rfl
@[simp] theorem writeGradient_gradient :
    (s.writeGradient index value).gradient = Function.update s.gradient index value := rfl
@[simp] theorem writeGradient_accesses :
    (s.writeGradient index value).accesses = s.accesses ++ [.gradient index] := rfl

end EvaluateState

/-- What the residual block adds for point `i`: the squared second difference, the curvature
penalty, the squared distance to the original point, and the costmap term when `xi` lies on
the map. -/
noncomputable def blockResidual (f : UnconstrainedSmootherCostFunction)
    (xi xiP1 xiM1 original : Vector2d) (cell : Option (ℕ × ℕ)) : ℝ :=
  f.wSmooth * (xiP1 - (2 : ℝ) • xi + xiM1).squaredNorm +
    curvatureResidual f.maxTurningRadius f.wCurve xi xiP1 xiM1 +
    f.wDist * (xi - original).squaredNorm +
    match cell with
    | some (mx, my) => addCostResidual f.codes f.wCost (f.costmap.getCost mx my) 0
    | none => 0

theorem addPointResidual_snd (f : UnconstrainedSmootherCostFunction)
    (xi xiP1 xiM1 original : Vector2d) (cell : Option (ℕ × ℕ))
    (curvatureParams : CurvatureComputations) (costRaw : ℝ) :
    (addPointResidual f xi xiP1 xiM1 original cell curvatureParams costRaw).2 =
      costRaw + blockResidual f xi xiP1 xiM1 original cell := by
  unfold addPointResidual blockResidual
  rcases cell with _ | ⟨mx, my⟩ <;>
    simp only [addSmoothingResidual_eq, addCurvatureResidual_snd, addDistanceResidual_eq,
      addCostResidual_eq, zero_add] <;>
    ring

theorem addPointResidual_fst (f : UnconstrainedSmootherCostFunction)
    (xi xiP1 xiM1 original : Vector2d) (cell : Option (ℕ × ℕ))
    (curvatureParams : CurvatureComputations) (costRaw : ℝ) :
    (addPointResidual f xi xiP1 xiM1 original cell curvatureParams costRaw).1 =
      (addCurvatureResidual f.maxTurningRadius f.wCurve xi xiP1 xiM1 curvatureParams
        (addSmoothingResidual f.wSmooth xi xiP1 xiM1 costRaw)).1 := by
  unfold addPointResidual
  rcases cell with _ | ⟨mx, my⟩ <;> rfl

theorem addPointJacobian_isShift (f : UnconstrainedSmootherCostFunction)
    (xi xiP1 xiM1 original : Vector2d) (cell : Option (ℕ × ℕ))
    (curvatureParams : CurvatureComputations) :
    IsShift (addPointJacobian f xi xiP1 xiM1 original cell curvatureParams) := by
  have withDistance := ((addSmoothingJacobian_isShift f.wSmooth xi xiP1 xiM1).comp
    (addCurvatureJacobian_isShift f.wCurve xi xiP1 xiM1 curvatureParams)).comp
    (addDistanceJacobian_isShift f.wDist xi original)
  rcases cell with _ | ⟨mx, my⟩
  · exact withDistance
  · exact withDistance.comp (addCostJacobian_isShift _ _ _ _ _ _)


/-- What the Jacobian block adds to the two accumulators, reading the cache a residual call
of the same triple writes. -/
noncomputable def blockJacobian (f : UnconstrainedSmootherCostFunction)
    (xi xiP1 xiM1 original : Vector2d) (cell : Option (ℕ × ℕ)) : ℝ × ℝ :=
  addPointJacobian f xi xiP1 xiM1 original cell
    (addPointResidual f xi xiP1 xiM1 original cell {} 0).1 0 0

theorem addPointJacobian_residual (f : UnconstrainedSmootherCostFunction)
    (xi xiP1 xiM1 original : Vector2d) (cell : Option (ℕ × ℕ))
    (curvatureParams : CurvatureComputations) (costRaw gradXRaw gradYRaw : ℝ) :
    addPointJacobian f xi xiP1 xiM1 original cell
        (addPointResidual f xi xiP1 xiM1 original cell curvatureParams costRaw).1 gradXRaw
        gradYRaw =
      (gradXRaw + (blockJacobian f xi xiP1 xiM1 original cell).1,
        gradYRaw + (blockJacobian f xi xiP1 xiM1 original cell).2) := by
  have fresh : addPointJacobian f xi xiP1 xiM1 original cell
        (addPointResidual f xi xiP1 xiM1 original cell curvatureParams costRaw).1 gradXRaw
        gradYRaw =
      addPointJacobian f xi xiP1 xiM1 original cell
        (addPointResidual f xi xiP1 xiM1 original cell {} 0).1 gradXRaw gradYRaw := by
    simp only [addPointResidual_fst, addPointJacobian]
    rw [addCurvatureJacobian_residual _ _ _ (addSmoothingResidual f.wSmooth xi xiP1 xiM1 costRaw),
      addCurvatureJacobian_residual _ _ _ (addSmoothingResidual f.wSmooth xi xiP1 xiM1 0)]
  rw [fresh, addPointJacobian_isShift]
  rfl

/-- The residual block of point `i` of the parameter vector. -/
noncomputable def pointResidual (f : UnconstrainedSmootherCostFunction) (parameters : ℕ → ℝ)
    (i : ℕ) : ℝ :=
  let xi : Vector2d := ⟨parameters (2 * i), parameters (2 * i + 1)⟩
  blockResidual f xi ⟨parameters (2 * i + 2), parameters (2 * i + 3)⟩
    ⟨parameters (2 * i - 2), parameters (2 * i - 1)⟩ (f.originalPath.getD i 0)
    (f.costmap.worldToMap xi.x xi.y)

/-- The Jacobian block of point `i` of the parameter vector. -/
noncomputable def pointJacobian (f : UnconstrainedSmootherCostFunction) (parameters : ℕ → ℝ)
    (i : ℕ) : ℝ × ℝ :=
  let xi : Vector2d := ⟨parameters (2 * i), parameters (2 * i + 1)⟩
  blockJacobian f xi ⟨parameters (2 * i + 2), parameters (2 * i + 3)⟩
    ⟨parameters (2 * i - 2), parameters (2 * i - 1)⟩ (f.originalPath.getD i 0)
    (f.costmap.worldToMap xi.x xi.y)

section Step

variable (f : UnconstrainedSmootherCostFunction) (parameters : ℕ → ℝ) (s : EvaluateState) (i : ℕ)

theorem evaluateStep_of_not_interior (skip : ¬interior f.originalPath.length i) :
    evaluateStep f parameters s i = (s.writeGradient (2 * i) 0).writeGradient (2 * i + 1) 0 := by
  simp only [evaluateStep, skip_iff, skip, not_false_eq_true, if_true]

theorem evaluateStep_costRaw :
    (evaluateStep f parameters s i).costRaw =
      if interior f.originalPath.length i then s.costRaw + pointResidual f parameters i
      else s.costRaw := by
  by_cases inside : interior f.originalPath.length i
  · simp only [evaluateStep, skip_iff, inside, not_true_eq_false, if_false]
    simp [addPointResidual_snd, pointResidual]
  · simp [evaluateStep_of_not_interior f parameters s i inside, inside]

theorem evaluateStep_gradRaw :
    ((evaluateStep f parameters s i).gradXRaw, (evaluateStep f parameters s i).gradYRaw) =
      if interior f.originalPath.length i then
        (s.gradXRaw + (pointJacobian f parameters i).1,
          s.gradYRaw + (pointJacobian f parameters i).2)
      else (s.gradXRaw, s.gradYRaw) := by
  by_cases inside : interior f.originalPath.length i
  · simp only [evaluateStep, skip_iff, inside, not_true_eq_false, if_false, if_true]
    simp [addPointJacobian_residual, pointJacobian]
  · simp [evaluateStep_of_not_interior f parameters s i inside, inside]

/-- The step writes the slot pair of point `i`: its accumulated Jacobian when the point is
interior, zero otherwise. Every other slot keeps its value. -/
theorem evaluateStep_gradient :
    (evaluateStep f parameters s i).gradient =
      Function.update
        (Function.update s.gradient (2 * i)
          (if interior f.originalPath.length i then (evaluateStep f parameters s i).gradXRaw
          else 0))
        (2 * i + 1)
        (if interior f.originalPath.length i then (evaluateStep f parameters s i).gradYRaw
        else 0) := by
  by_cases inside : interior f.originalPath.length i
  · simp only [evaluateStep, skip_iff, inside, not_true_eq_false, if_false, if_true,
      EvaluateState.writeGradient_gradient]
    funext j
    simp only [Function.update_apply]
    split_ifs <;> rfl
  · simp [evaluateStep_of_not_interior f parameters s i inside, inside]

end Step

/-- The state after the first `m` iterations of Evaluate's loop. -/
noncomputable def evaluateLoop (f : UnconstrainedSmootherCostFunction) (parameters : ℕ → ℝ)
    (gradient : ℕ → ℝ) (m : ℕ) : EvaluateState :=
  (List.range m).foldl (evaluateStep f parameters) { gradient }

section Loop

variable (f : UnconstrainedSmootherCostFunction) (parameters gradient : ℕ → ℝ)

theorem evaluateLoop_succ (m : ℕ) :
    evaluateLoop f parameters gradient (m + 1) =
      evaluateStep f parameters (evaluateLoop f parameters gradient m) m := by
  simp [evaluateLoop, List.range_succ, List.foldl_append]

theorem evaluate_eq :
    evaluate f parameters gradient =
      { returned := true
        cost := (evaluateLoop f parameters gradient f.originalPath.length).costRaw
        gradient := some (evaluateLoop f parameters gradient f.originalPath.length).gradient
        accesses := (evaluateLoop f parameters gradient f.originalPath.length).accesses } := by
  simp only [evaluate, numParameters_div_two]
  rfl

/-- The cost accumulated over the first `m` iterations is the sum of the residual blocks of
the interior points among them. -/
theorem evaluateLoop_costRaw (m : ℕ) :
    (evaluateLoop f parameters gradient m).costRaw =
      ∑ i ∈ (Finset.range m).filter (interior f.originalPath.length),
        pointResidual f parameters i := by
  induction m with
  | zero => rfl
  | succ m ih =>
    rw [evaluateLoop_succ, evaluateStep_costRaw, ih, Finset.range_succ, Finset.filter_insert]
    split_ifs with inside
    · rw [Finset.sum_insert (by simp), add_comm]
    · rfl

/-- `cost[0]` is the sum of the residual blocks of the interior points. -/
theorem evaluate_cost :
    (evaluate f parameters gradient).cost =
      ∑ i ∈ (Finset.range f.originalPath.length).filter (interior f.originalPath.length),
        pointResidual f parameters i := by
  rw [evaluate_eq, evaluateLoop_costRaw]

end Loop

end SmacPlanner
