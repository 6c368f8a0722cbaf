import SmacPlanner.Smoother.CostFunction
import Mathlib.Analysis.SpecialFunctions.Trigonometric.InverseDeriv
import Mathlib.Analysis.SpecialFunctions.Sqrt
import Mathlib.Analysis.InnerProductSpace.Basic

namespace SmacPlanner

open Real

/-- The cosine of the turning angle at `pt` as addCurvatureResidual computes it, before the
clamp. -/
noncomputable def turningProjection (pt ptP ptM : Vector2d) : ℝ :=
  (pt - ptM).dot (ptP - pt) / ((pt - ptM).norm * (ptP - pt).norm)

/-- The slack `Δφ / |Δxᵢ| - κ` that addCurvatureResidual compares with `EPSILON`. -/
noncomputable def curvatureSlack (maxTurningRadius : ℝ) (pt ptP ptM : Vector2d) : ℝ :=
  Real.arccos (clampProjection (turningProjection pt ptP ptM)) / (pt - ptM).norm -
    maxTurningRadius

/-- The triple passes both guards of addCurvatureResidual: it adds its penalty and leaves a
valid cache. -/
def CurvatureActive (maxTurningRadius : ℝ) (pt ptP ptM : Vector2d) : Prop :=
  epsilon ≤ (pt - ptM).norm ∧ epsilon ≤ (ptP - pt).norm ∧
    epsilon < curvatureSlack maxTurningRadius pt ptP ptM

section Residual

variable (maxTurningRadius weight : ℝ) (pt ptP ptM : Vector2d)

theorem curvatureResidual_of_short
    (short : (pt - ptM).norm < epsilon ∨ (ptP - pt).norm < epsilon) :
    curvatureResidual maxTurningRadius weight pt ptP ptM = 0 := by
  simp [curvatureResidual, addCurvatureResidual, short]

/-- Past the norm guard, the residual is the thresholded square of the slack. -/
theorem curvatureResidual_of_long (incoming : epsilon ≤ (pt - ptM).norm)
    (outgoing : epsilon ≤ (ptP - pt).norm) :
    curvatureResidual maxTurningRadius weight pt ptP ptM =
      if epsilon < curvatureSlack maxTurningRadius pt ptP ptM then
        weight * curvatureSlack maxTurningRadius pt ptP ptM *
          curvatureSlack maxTurningRadius pt ptP ptM
      else 0 := by
  have long : ¬((pt - ptM).norm < epsilon ∨ (ptP - pt).norm < epsilon) := by
    push_neg
    exact ⟨incoming, outgoing⟩
  unfold curvatureResidual addCurvatureResidual curvatureSlack turningProjection
  dsimp only
  rw [if_neg long]
  split_ifs <;> first | (exfalso; linarith) | simp

variable {maxTurningRadius pt ptP ptM}
variable (curvatureParams : CurvatureComputations) (r : ℝ)

theorem addCurvatureResidual_valid_iff :
    (addCurvatureResidual maxTurningRadius weight pt ptP ptM curvatureParams r).1.valid = true ↔
      CurvatureActive maxTurningRadius pt ptP ptM := by
  unfold addCurvatureResidual CurvatureActive curvatureSlack turningProjection
  dsimp only
  split_ifs with short slack
  · simp only [Bool.false_eq_true, false_iff]
    intro active
    rcases short with short | short <;> linarith
  · simp only [Bool.false_eq_true, false_iff]
    intro active
    linarith
  · push_neg at short slack
    exact iff_of_true rfl ⟨short.1, short.2, slack⟩

/-- The cache an active triple leaves, whatever cache the call was given. -/
theorem addCurvatureResidual_fst_of_active (active : CurvatureActive maxTurningRadius pt ptP ptM) :
    (addCurvatureResidual maxTurningRadius weight pt ptP ptM curvatureParams r).1 =
      { valid := true, deltaXi := pt - ptM, deltaXiP := ptP - pt,
        deltaXiNorm := (pt - ptM).norm, deltaXiPNorm := (ptP - pt).norm,
        deltaPhiI := Real.arccos (clampProjection (turningProjection pt ptP ptM)),
        turningRad := Real.arccos (clampProjection (turningProjection pt ptP ptM)) /
          (pt - ptM).norm,
        kiMinusKmax := curvatureSlack maxTurningRadius pt ptP ptM } := by
  have valid := (addCurvatureResidual_valid_iff weight curvatureParams r).mpr active
  unfold addCurvatureResidual at valid ⊢
  dsimp only at valid ⊢
  split_ifs at valid ⊢
  rfl

end Residual

theorem epsilon_pos : 0 < epsilon := by norm_num [epsilon]

theorem epsilon_lt_half : epsilon < 1 / 2 := by norm_num [epsilon]

theorem epsilon_lt_one : epsilon < 1 := epsilon_lt_half.trans one_half_lt_one

/-- The turning angle between the incoming and the outgoing segment at `pt`. -/
noncomputable def turningAngle (pt ptP ptM : Vector2d) : ℝ :=
  Real.arccos (turningProjection pt ptP ptM)

section Angle

variable {pt ptP ptM : Vector2d}

theorem turningProjection_mem_Icc (incoming : 0 < (pt - ptM).norm)
    (outgoing : 0 < (ptP - pt).norm) : turningProjection pt ptP ptM ∈ Set.Icc (-1) 1 := by
  rw [turningProjection, Set.mem_Icc, ← abs_le, abs_div, abs_of_pos (mul_pos incoming outgoing),
    div_le_one (mul_pos incoming outgoing)]
  exact Vector2d.abs_dot_le _ _

/-- The clamp keeps a projection in `[-1, 1]` there and moves it off `-1`. -/
theorem clampProjection_mem_Ioc {p : ℝ} (within : p ∈ Set.Icc (-1) 1) :
    clampProjection p ∈ Set.Ioc (-1) 1 := by
  unfold clampProjection
  split_ifs with near
  · norm_num
  · push_neg at near
    have apart := near.2
    rw [abs_of_nonneg (by linarith [within.1])] at apart
    exact ⟨by linarith [epsilon_pos], within.2⟩

/-- Away from `±1` the clamp leaves the projection alone. -/
theorem clampProjection_of_abs_lt {p : ℝ} (small : |p| < 1 / 2) : clampProjection p = p := by
  have bounds := abs_lt.mp small
  have eps := epsilon_lt_half
  exact if_neg (not_or.mpr ⟨not_lt.mpr (by linarith [le_abs_self (1 - p)]),
    not_lt.mpr (by linarith [le_abs_self (p + 1)])⟩)

theorem clampProjection_zero : clampProjection 0 = 0 :=
  clampProjection_of_abs_lt (by norm_num)

/-- Past the norm guard, addCurvatureResidual passes `acos` an argument in `(-1, 1]`. -/
theorem addCurvatureResidual_arccos_mem {pt ptP ptM : Vector2d}
    (incoming : epsilon ≤ (pt - ptM).norm) (outgoing : epsilon ≤ (ptP - pt).norm) :
    clampProjection (turningProjection pt ptP ptM) ∈ Set.Ioc (-1) 1 :=
  clampProjection_mem_Ioc
    (turningProjection_mem_Icc (epsilon_pos.trans_le incoming) (epsilon_pos.trans_le outgoing))

theorem straight_arccos_mem :
    epsilon ≤ (⟨1, 0⟩ - ⟨0, 0⟩ : Vector2d).norm ∧ epsilon ≤ (⟨2, 0⟩ - ⟨1, 0⟩ : Vector2d).norm ∧
      clampProjection (turningProjection ⟨1, 0⟩ ⟨2, 0⟩ ⟨0, 0⟩) ∈ Set.Ioc (-1) 1 := by
  have incoming : epsilon ≤ (⟨1, 0⟩ - ⟨0, 0⟩ : Vector2d).norm := by
    norm_num [Vector2d.norm, epsilon]
  have outgoing : epsilon ≤ (⟨2, 0⟩ - ⟨1, 0⟩ : Vector2d).norm := by
    norm_num [Vector2d.norm, epsilon]
  exact ⟨incoming, outgoing, addCurvatureResidual_arccos_mem incoming outgoing⟩

/-- Up to the reversal band `p < EPSILON - 1` that the clamp straightens, the clamped angle
grows with the angle. -/
theorem arccos_clampProjection_le {p q : ℝ} (hp : p ∈ Set.Icc (-1) 1) (hq : q ∈ Set.Icc (-1) 1)
    (turn : Real.arccos p ≤ Real.arccos q)
    (notReversed : Real.arccos q ≤ Real.arccos (epsilon - 1)) :
    Real.arccos (clampProjection p) ≤ Real.arccos (clampProjection q) := by
  have eps := epsilon_pos
  have small := epsilon_lt_one.le
  have qp : q ≤ p := (Real.strictAntiOn_arccos.le_iff_le hp hq).mp turn
  have far : epsilon - 1 ≤ q :=
    (Real.strictAntiOn_arccos.le_iff_le hq ⟨by linarith, by linarith⟩).mp notReversed
  unfold clampProjection
  by_cases nearQ : |1 - q| < epsilon ∨ |q + 1| < epsilon
  · have nearP : |1 - p| < epsilon := by
      rcases nearQ with nearQ | nearQ <;> rw [abs_lt] at nearQ ⊢ <;>
        constructor <;> linarith [hp.2]
    rw [if_pos nearQ, if_pos (Or.inl nearP)]
  · rw [if_neg nearQ]
    split_ifs
    · rw [Real.arccos_one]
      exact Real.arccos_nonneg _
    · exact turn

end Angle

/-- Two unit segments at a right angle turn by `π / 2`, well past the threshold when
`κ = 0`. -/
theorem curvatureActive_of_perpendicular {pt ptP ptM : Vector2d} (unit : (pt - ptM).norm = 1)
    (unit' : (ptP - pt).norm = 1) (perpendicular : (pt - ptM).dot (ptP - pt) = 0) :
    curvatureSlack 0 pt ptP ptM = π / 2 ∧ CurvatureActive 0 pt ptP ptM := by
  have slack : curvatureSlack 0 pt ptP ptM = π / 2 := by
    rw [curvatureSlack, turningProjection, perpendicular, unit, unit']
    simp [clampProjection_zero]
  refine ⟨slack, by rw [unit]; exact epsilon_lt_one.le, by rw [unit']; exact epsilon_lt_one.le, ?_⟩
  rw [slack]
  linarith [two_le_pi, epsilon_lt_half]

/-- The unshifted right-angle triple `(0, 0), (1, 0), (1, 1)`. -/
theorem rightAngle_active :
    (⟨1, 0⟩ - ⟨0, 0⟩ : Vector2d).norm = 1 ∧ (⟨1, 1⟩ - ⟨1, 0⟩ : Vector2d).norm = 1 ∧
      turningProjection ⟨1, 0⟩ ⟨1, 1⟩ ⟨0, 0⟩ = 0 ∧ curvatureSlack 0 ⟨1, 0⟩ ⟨1, 1⟩ ⟨0, 0⟩ = π / 2 ∧
      CurvatureActive 0 ⟨1, 0⟩ ⟨1, 1⟩ ⟨0, 0⟩ := by
  have unit : (⟨1, 0⟩ - ⟨0, 0⟩ : Vector2d).norm = 1 := by simp [Vector2d.norm]
  have unit' : (⟨1, 1⟩ - ⟨1, 0⟩ : Vector2d).norm = 1 := by simp [Vector2d.norm]
  have perpendicular : (⟨1, 0⟩ - ⟨0, 0⟩ : Vector2d).dot (⟨1, 1⟩ - ⟨1, 0⟩) = 0 := by simp
  refine ⟨unit, unit', by rw [turningProjection, perpendicular, zero_div], ?_⟩
  exact curvatureActive_of_perpendicular unit unit' perpendicular

section Penalty

variable {weight s s' : ℝ}

theorem penalty_nonneg (nonneg : 0 ≤ weight) :
    0 ≤ if epsilon < s then weight * s * s else 0 := by
  split_ifs with above
  · have : 0 < s := epsilon_pos.trans above
    positivity
  · exact le_rfl

/-- The thresholded square of the slack grows with the slack. -/
theorem penalty_le_penalty (nonneg : 0 ≤ weight) (le : s ≤ s') :
    (if epsilon < s then weight * s * s else 0) ≤ if epsilon < s' then weight * s' * s' else 0 := by
  split_ifs with above above' above''
  · have : 0 < s := epsilon_pos.trans above
    have squares : s * s ≤ s' * s' := mul_self_le_mul_self this.le le
    rw [mul_assoc, mul_assoc]
    exact mul_le_mul_of_nonneg_left squares nonneg
  · exact absurd (above.trans_le le) above'
  · have : 0 < s' := epsilon_pos.trans above''
    positivity
  · exact le_rfl

end Penalty

theorem curvatureResidual_nonneg {maxTurningRadius weight : ℝ} (nonneg : 0 ≤ weight)
    (pt ptP ptM : Vector2d) : 0 ≤ curvatureResidual maxTurningRadius weight pt ptP ptM := by
  by_cases short : (pt - ptM).norm < epsilon ∨ (ptP - pt).norm < epsilon
  · rw [curvatureResidual_of_short _ _ _ _ _ short]
  · push_neg at short
    rw [curvatureResidual_of_long _ _ _ _ _ short.1 short.2]
    exact penalty_nonneg nonneg

/-- For triples with incoming segments of one length, the penalty does not fall as the
turning angle grows, as long as the larger turn stays out of the reversal band. -/
theorem curvatureResidual_le_of_turningAngle_le {maxTurningRadius weight : ℝ}
    {pt₁ ptP₁ ptM₁ pt₂ ptP₂ ptM₂ : Vector2d} (nonneg : 0 ≤ weight)
    (incoming : (pt₁ - ptM₁).norm = (pt₂ - ptM₂).norm) (outgoing : epsilon ≤ (ptP₂ - pt₂).norm)
    (turn : turningAngle pt₁ ptP₁ ptM₁ ≤ turningAngle pt₂ ptP₂ ptM₂)
    (notReversed : turningAngle pt₂ ptP₂ ptM₂ ≤ Real.arccos (epsilon - 1)) :
    curvatureResidual maxTurningRadius weight pt₁ ptP₁ ptM₁ ≤
      curvatureResidual maxTurningRadius weight pt₂ ptP₂ ptM₂ := by
  by_cases short : (pt₁ - ptM₁).norm < epsilon ∨ (ptP₁ - pt₁).norm < epsilon
  · rw [curvatureResidual_of_short _ _ _ _ _ short]
    exact curvatureResidual_nonneg nonneg _ _ _
  push_neg at short
  have eps := epsilon_pos
  rw [curvatureResidual_of_long _ _ _ _ _ short.1 short.2,
    curvatureResidual_of_long _ _ _ _ _ (incoming ▸ short.1) outgoing]
  apply penalty_le_penalty nonneg
  have within₁ := turningProjection_mem_Icc (eps.trans_le short.1) (eps.trans_le short.2)
  have within₂ := turningProjection_mem_Icc (eps.trans_le (incoming ▸ short.1))
    (eps.trans_le outgoing)
  unfold curvatureSlack
  rw [incoming]
  exact sub_le_sub_right (div_le_div_of_nonneg_right
    (arccos_clampProjection_le within₁ within₂ turn notReversed) (Vector2d.norm_nonneg _)) _

/-- The straight triple `(0, 0), (1, 0), (2, 0)` costs no more than the right angle. -/
theorem straight_le_rightAngle :
    (0 : ℝ) ≤ 1 ∧ (⟨1, 0⟩ - ⟨0, 0⟩ : Vector2d).norm = (⟨1, 0⟩ - ⟨0, 0⟩ : Vector2d).norm ∧
      epsilon ≤ (⟨1, 1⟩ - ⟨1, 0⟩ : Vector2d).norm ∧
      turningAngle ⟨1, 0⟩ ⟨2, 0⟩ ⟨0, 0⟩ ≤ turningAngle ⟨1, 0⟩ ⟨1, 1⟩ ⟨0, 0⟩ ∧
      turningAngle ⟨1, 0⟩ ⟨1, 1⟩ ⟨0, 0⟩ ≤ arccos (epsilon - 1) ∧
      curvatureResidual 0 1 ⟨1, 0⟩ ⟨2, 0⟩ ⟨0, 0⟩ ≤ curvatureResidual 0 1 ⟨1, 0⟩ ⟨1, 1⟩ ⟨0, 0⟩ := by
  obtain ⟨-, unit', projection, -, -⟩ := rightAngle_active
  have straight : turningAngle ⟨1, 0⟩ ⟨2, 0⟩ ⟨0, 0⟩ = 0 := by
    norm_num [turningAngle, turningProjection, Vector2d.norm]
  have right : turningAngle ⟨1, 0⟩ ⟨1, 1⟩ ⟨0, 0⟩ = π / 2 := by
    rw [turningAngle, projection, arccos_zero]
  have outgoing : epsilon ≤ (⟨1, 1⟩ - ⟨1, 0⟩ : Vector2d).norm := by
    rw [unit']
    exact epsilon_lt_one.le
  have turn : turningAngle ⟨1, 0⟩ ⟨2, 0⟩ ⟨0, 0⟩ ≤ turningAngle ⟨1, 0⟩ ⟨1, 1⟩ ⟨0, 0⟩ := by
    rw [straight, right]
    positivity
  have notReversed : turningAngle ⟨1, 0⟩ ⟨1, 1⟩ ⟨0, 0⟩ ≤ arccos (epsilon - 1) := by
    rw [right]
    exact not_lt.mp (mt arccos_lt_pi_div_two.mp (not_lt.mpr (by linarith [epsilon_lt_one])))
  exact ⟨zero_le_one, rfl, outgoing, turn, notReversed,
    curvatureResidual_le_of_turningAngle_le zero_le_one rfl outgoing turn notReversed⟩

theorem rightAngle_residual : curvatureResidual 0 1 ⟨1, 0⟩ ⟨1, 1⟩ ⟨0, 0⟩ = (π / 2) ^ 2 := by
  obtain ⟨-, -, -, slack, active⟩ := rightAngle_active
  rw [curvatureResidual_of_long _ _ _ _ _ active.1 active.2.1, if_pos active.2.2, slack]
  ring

/-- A full reversal at unit speed: the clamp straightens it, so it costs nothing. -/
theorem reversal_residual :
    turningAngle ⟨1, 0⟩ ⟨0, 0⟩ ⟨0, 0⟩ = π ∧ curvatureResidual 0 1 ⟨1, 0⟩ ⟨0, 0⟩ ⟨0, 0⟩ = 0 := by
  have unit : (⟨1, 0⟩ - ⟨0, 0⟩ : Vector2d).norm = 1 := by simp [Vector2d.norm]
  have unit' : (⟨0, 0⟩ - ⟨1, 0⟩ : Vector2d).norm = 1 := by simp [Vector2d.norm]
  have projection : turningProjection ⟨1, 0⟩ ⟨0, 0⟩ ⟨0, 0⟩ = -1 := by
    simp [turningProjection, unit, unit']
  have clamped : clampProjection (-1) = 1 :=
    if_pos (Or.inr (by rw [neg_add_cancel, abs_zero]; exact epsilon_pos))
  have eps := epsilon_lt_one.le
  refine ⟨by rw [turningAngle, projection, arccos_neg_one], ?_⟩
  rw [curvatureResidual_of_long _ _ _ _ _ (by rw [unit]; exact eps) (by rw [unit']; exact eps),
    curvatureSlack, projection, clamped, arccos_one, zero_div, sub_zero,
    if_neg (not_lt.mpr epsilon_pos.le)]

/-- A right angle costs `(π / 2)²` and a full reversal of the same segments costs nothing. -/
theorem curvatureResidual_reversal_below_right_angle :
    turningAngle ⟨1, 0⟩ ⟨1, 1⟩ ⟨0, 0⟩ = π / 2 ∧ turningAngle ⟨1, 0⟩ ⟨0, 0⟩ ⟨0, 0⟩ = π ∧
      curvatureResidual 0 1 ⟨1, 0⟩ ⟨0, 0⟩ ⟨0, 0⟩ = 0 ∧
      curvatureResidual 0 1 ⟨1, 0⟩ ⟨1, 1⟩ ⟨0, 0⟩ = (π / 2) ^ 2 := by
  obtain ⟨-, -, projection, -⟩ := rightAngle_active
  exact ⟨by rw [turningAngle, projection, arccos_zero], reversal_residual.1, reversal_residual.2,
    rightAngle_residual⟩

/-- The divisors addCurvatureJacobian divides by, in the order of the code:
`sqrt(1 - cos²Δφ)`, then `b.squaredNorm()` and `a_norm * b_norm` in each call of
normalizedOrthogonalComplement, then `delta_xi_norm` and `delta_xi_norm²`. -/
noncomputable def addCurvatureJacobianDivisors (pt ptP : Vector2d)
    (curvatureParams : CurvatureComputations) : List ℝ :=
  if !curvatureParams.valid then []
  else
    let negPtPlus := (-1 : ℝ) • ptP
    [√(1 - Real.cos curvatureParams.deltaPhiI ^ 2),
      negPtPlus.squaredNorm, curvatureParams.deltaXiNorm * curvatureParams.deltaXiPNorm,
      pt.squaredNorm, curvatureParams.deltaXiPNorm * curvatureParams.deltaXiNorm,
      curvatureParams.deltaXiNorm, curvatureParams.deltaXiNorm * curvatureParams.deltaXiNorm]

/-- An active triple turns by an angle strictly between `0` and `π`. -/
theorem sqrt_one_sub_cos_sq_pos {maxTurningRadius : ℝ} {pt ptP ptM : Vector2d}
    (straightFree : 0 ≤ maxTurningRadius) (active : CurvatureActive maxTurningRadius pt ptP ptM) :
    0 < √(1 - Real.cos (Real.arccos (clampProjection (turningProjection pt ptP ptM))) ^ 2) := by
  obtain ⟨incoming, outgoing, slack⟩ := active
  have eps := epsilon_pos
  have within := clampProjection_mem_Ioc
    (turningProjection_mem_Icc (eps.trans_le incoming) (eps.trans_le outgoing))
  have turning : 0 < Real.arccos (clampProjection (turningProjection pt ptP ptM)) := by
    unfold curvatureSlack at slack
    exact (div_pos_iff_of_pos_right (eps.trans_le incoming)).mp (by linarith)
  rw [Real.cos_arccos within.1.le within.2, Real.sqrt_pos, sub_pos, sq_lt_one_iff_abs_lt_one]
  exact abs_lt.mpr ⟨within.1, Real.arccos_pos.mp turning⟩

section Divisors

variable {maxTurningRadius weight r : ℝ} {pt ptP ptM : Vector2d}
  {curvatureParams : CurvatureComputations} (straightFree : 0 ≤ maxTurningRadius)
include straightFree

/-- For an active triple the Jacobian divides by zero exactly when `xᵢ` or `xᵢ₊₁` lies at the
origin. -/
theorem zero_mem_divisors_of_active (active : CurvatureActive maxTurningRadius pt ptP ptM) :
    (0 : ℝ) ∈ addCurvatureJacobianDivisors pt ptP
        (addCurvatureResidual maxTurningRadius weight pt ptP ptM curvatureParams r).1 ↔
      pt = 0 ∨ ptP = 0 := by
  have sine := sqrt_one_sub_cos_sq_pos straightFree active
  have incoming := epsilon_pos.trans_le active.1
  have outgoing := epsilon_pos.trans_le active.2.1
  rw [addCurvatureResidual_fst_of_active weight curvatureParams r active]
  simp only [addCurvatureJacobianDivisors, Bool.not_true, Bool.false_eq_true, if_false,
    List.mem_cons, List.mem_singleton, List.not_mem_nil, or_false, sine.ne, incoming.ne,
    (mul_pos incoming outgoing).ne, (mul_pos outgoing incoming).ne, (mul_pos incoming incoming).ne,
    false_or, Vector2d.squaredNorm_neg_one_smul, Vector2d.zero_eq_squaredNorm_iff]
  exact or_comm

/-- Off the origin the Jacobian divides by no zero, whatever cache the residual call starts
from: an inactive triple leaves an invalid cache, and addCurvatureJacobian then divides by
nothing. -/
theorem zero_not_mem_divisors (nonzero : pt ≠ 0) (nonzero' : ptP ≠ 0) :
    (0 : ℝ) ∉ addCurvatureJacobianDivisors pt ptP
      (addCurvatureResidual maxTurningRadius weight pt ptP ptM curvatureParams r).1 := by
  by_cases active : CurvatureActive maxTurningRadius pt ptP ptM
  · rw [zero_mem_divisors_of_active straightFree active]
    exact not_or.mpr ⟨nonzero, nonzero'⟩
  · have invalid := mt (addCurvatureResidual_valid_iff weight curvatureParams r).mp active
    simp [addCurvatureJacobianDivisors, invalid]

/-- With a valid cache, the Jacobian divides by zero exactly when `xᵢ` or `xᵢ₊₁` lies at the
origin: the orthogonal complements are built from the points, not from the segments. -/
theorem addCurvatureJacobian_zero_divisor_iff
    (valid : (addCurvatureResidual maxTurningRadius weight pt ptP ptM curvatureParams r).1.valid) :
    (0 : ℝ) ∈ addCurvatureJacobianDivisors pt ptP
        (addCurvatureResidual maxTurningRadius weight pt ptP ptM curvatureParams r).1 ↔
      pt = 0 ∨ ptP = 0 :=
  zero_mem_divisors_of_active straightFree
    ((addCurvatureResidual_valid_iff weight curvatureParams r).mp valid)

end Divisors

/-- The corner `(1, -1), (1, 0), (0, 0)` leaves a valid cache with `xᵢ₊₁` at the origin, and
the Jacobian divides by its squared norm. -/
theorem originCorner_zero_divisor :
    0 ≤ (0 : ℝ) ∧ (addCurvatureResidual 0 1 ⟨1, 0⟩ 0 ⟨1, -1⟩ {} 0).1.valid = true ∧
      (0 : ℝ) ∈ addCurvatureJacobianDivisors ⟨1, 0⟩ 0
        (addCurvatureResidual 0 1 ⟨1, 0⟩ 0 ⟨1, -1⟩ {} 0).1 := by
  have unit : (⟨1, 0⟩ - ⟨1, -1⟩ : Vector2d).norm = 1 := by simp [Vector2d.norm]
  have unit' : (0 - ⟨1, 0⟩ : Vector2d).norm = 1 := by simp [Vector2d.norm]
  have perpendicular : (⟨1, 0⟩ - ⟨1, -1⟩ : Vector2d).dot (0 - ⟨1, 0⟩) = 0 := by simp
  have active := (curvatureActive_of_perpendicular unit unit' perpendicular).2
  have valid := (addCurvatureResidual_valid_iff 1 {} 0).mpr active
  exact ⟨le_rfl, valid, (addCurvatureJacobian_zero_divisor_iff le_rfl valid).mpr (Or.inr rfl)⟩

/-- The right-angle triple `(0, 0), (1 + t, 0), (1, 1)` with its middle point moved along `x`:
its incoming length, its outgoing length and its projection. -/
theorem rightAngle_shifted {t : ℝ} (near : t ∈ Set.Ioo (-1 / 2) (1 / 2)) :
    (⟨1 + t, 0⟩ - ⟨0, 0⟩ : Vector2d).norm = 1 + t ∧
      (⟨1, 1⟩ - ⟨1 + t, 0⟩ : Vector2d).norm = √(t * t + 1) ∧
      turningProjection ⟨1 + t, 0⟩ ⟨1, 1⟩ ⟨0, 0⟩ = -t / √(t * t + 1) := by
  have positive : 0 < 1 + t := by linarith [near.1]
  have incoming : (⟨1 + t, 0⟩ - ⟨0, 0⟩ : Vector2d).norm = 1 + t := by
    simp [Vector2d.norm, Real.sqrt_mul_self positive.le]
  have outgoing : (⟨1, 1⟩ - ⟨1 + t, 0⟩ : Vector2d).norm = √(t * t + 1) := by
    simp only [Vector2d.norm, Vector2d.squaredNorm_def, Vector2d.sub_x, Vector2d.sub_y]
    congr 1
    ring
  refine ⟨incoming, outgoing, ?_⟩
  have root : 0 < √(t * t + 1) :=
    Real.sqrt_pos.mpr (add_pos_of_nonneg_of_pos (mul_self_nonneg t) one_pos)
  rw [turningProjection, incoming, outgoing, div_eq_div_iff (mul_pos positive root).ne' root.ne']
  simp only [Vector2d.dot_def, Vector2d.sub_x, Vector2d.sub_y]
  ring

/-- Along that shift the residual is smooth at `t = 0`, with derivative `π - π² / 2`. -/
theorem rightAngle_residual_hasDerivAt :
    HasDerivAt (fun t => curvatureResidual 0 1 ⟨1 + t, 0⟩ ⟨1, 1⟩ ⟨0, 0⟩) (π - π ^ 2 / 2) 0 := by
  set q : ℝ → ℝ := fun t => -t / √(t * t + 1) with hq
  set s : ℝ → ℝ := fun t => arccos (q t) / (1 + t) - 0 with hs
  have q0 : q 0 = 0 := by simp [q]
  have s0 : s 0 = π / 2 := by simp [s, q0]
  have square : HasDerivAt (fun t => t * t + 1) (1 * 0 + 0 * 1) (0 : ℝ) :=
    ((hasDerivAt_id' (0 : ℝ)).mul (hasDerivAt_id' (0 : ℝ))).add_const 1
  have root : HasDerivAt (fun t => √(t * t + 1)) 0 0 :=
    (square.sqrt (by norm_num)).congr_deriv (by simp)
  have projection : HasDerivAt q (-1) 0 :=
    ((hasDerivAt_id' (0 : ℝ)).neg.div root (by norm_num)).congr_deriv (by simp)
  have angle : HasDerivAt (fun t => arccos (q t)) 1 0 :=
    ((hasDerivAt_arccos (by rw [q0]; norm_num) (by rw [q0]; norm_num)).comp 0
      projection).congr_deriv (by simp [q0])
  have slack : HasDerivAt s (1 - π / 2) 0 :=
    ((angle.div ((hasDerivAt_id' (0 : ℝ)).const_add 1) (by norm_num)).sub_const 0).congr_deriv
      (by simp [q0])
  have penalty : HasDerivAt (fun t => 1 * s t * s t) (π - π ^ 2 / 2) 0 :=
    ((slack.const_mul 1).mul slack).congr_deriv (by rw [s0]; ring)
  refine penalty.congr_of_eventuallyEq ?_
  have above : ∀ᶠ t in nhds 0, epsilon < s t :=
    Filter.Tendsto.eventually_const_lt (by rw [s0]; linarith [two_le_pi, epsilon_lt_half])
      slack.continuousAt.tendsto
  filter_upwards [Ioo_mem_nhds (by norm_num : (-1 / 2 : ℝ) < 0) (by norm_num : (0 : ℝ) < 1 / 2),
    above] with t near above
  obtain ⟨incoming, outgoing, shifted⟩ := rightAngle_shifted near
  have one_le : 1 ≤ √(t * t + 1) := Real.one_le_sqrt.mpr (le_add_of_nonneg_left (mul_self_nonneg t))
  have small : |q t| < 1 / 2 := by
    rw [hq, abs_div, abs_neg, abs_of_pos (zero_lt_one.trans_le one_le)]
    exact (div_le_self (abs_nonneg t) one_le).trans_lt (abs_lt.mpr ⟨by linarith [near.1], near.2⟩)
  have eps := epsilon_lt_half.le
  rw [curvatureResidual_of_long _ _ _ _ _ (by rw [incoming]; linarith [near.1])
    (by rw [outgoing]; linarith)]
  have slackAt : curvatureSlack 0 ⟨1 + t, 0⟩ ⟨1, 1⟩ ⟨0, 0⟩ = s t := by
    rw [curvatureSlack, shifted, clampProjection_of_abs_lt small, incoming]
  rw [slackAt, if_pos above]

/-- What addCurvatureJacobian adds to `j0` at the right-angle triple. -/
theorem rightAngle_jacobian :
    (addCurvatureJacobian 1 ⟨1, 0⟩ ⟨1, 1⟩ ⟨0, 0⟩
      (addCurvatureResidual 0 1 ⟨1, 0⟩ ⟨1, 1⟩ ⟨0, 0⟩ {} 0).1 0 0).1 = π * (π / 2 + 3 / 2) := by
  obtain ⟨unit, unit', projection, slack, active⟩ := rightAngle_active
  rw [addCurvatureResidual_fst_of_active 1 {} 0 active]
  simp [addCurvatureJacobian, normalizedOrthogonalComplement, unit, unit', projection,
    clampProjection_zero, slack]
  ring

/-- At the right-angle triple, inside the region where the penalty is active and smooth, the
`x` entry addCurvatureJacobian adds is not the `x` derivative of the residual. -/
theorem addCurvatureJacobian_ne_gradient :
    epsilon < (⟨1, 0⟩ - ⟨0, 0⟩ : Vector2d).norm ∧ epsilon < (⟨1, 1⟩ - ⟨1, 0⟩ : Vector2d).norm ∧
      epsilon < |1 - turningProjection ⟨1, 0⟩ ⟨1, 1⟩ ⟨0, 0⟩| ∧
      epsilon < |1 + turningProjection ⟨1, 0⟩ ⟨1, 1⟩ ⟨0, 0⟩| ∧
      epsilon < curvatureSlack 0 ⟨1, 0⟩ ⟨1, 1⟩ ⟨0, 0⟩ ∧
      HasDerivAt (fun t => curvatureResidual 0 1 ⟨1 + t, 0⟩ ⟨1, 1⟩ ⟨0, 0⟩) (π - π ^ 2 / 2) 0 ∧
      (addCurvatureJacobian 1 ⟨1, 0⟩ ⟨1, 1⟩ ⟨0, 0⟩
        (addCurvatureResidual 0 1 ⟨1, 0⟩ ⟨1, 1⟩ ⟨0, 0⟩ {} 0).1 0 0).1 = π * (π / 2 + 3 / 2) ∧
      π - π ^ 2 / 2 < π * (π / 2 + 3 / 2) := by
  obtain ⟨unit, unit', projection, -, active⟩ := rightAngle_active
  have eps := epsilon_lt_one
  refine ⟨by rw [unit]; exact eps, by rw [unit']; exact eps, by rw [projection]; norm_num [eps],
    by rw [projection]; norm_num [eps], active.2.2, rightAngle_residual_hasDerivAt,
    rightAngle_jacobian, by linarith [pi_pos, sq_nonneg π]⟩

end SmacPlanner
