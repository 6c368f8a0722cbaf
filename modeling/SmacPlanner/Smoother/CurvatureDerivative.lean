import SmacPlanner.Smoother.Curvature
import SmacPlanner.Smoother.Derivative

namespace SmacPlanner

open Real

namespace Vector2d

theorem add_zero_smul (v d : Vector2d) : v + (0 : ℝ) • d = v := by
  ext <;> simp

theorem dot_comm (a b : Vector2d) : a.dot b = b.dot a := by
  simp only [dot_def]
  ring

end Vector2d

/-- A length that does not vanish, differentiated along a line. -/
theorem hasDerivAt_norm (v d : Vector2d) (positive : 0 < v.norm) :
    HasDerivAt (fun t : ℝ => (v + t • d).norm) (v.dot d / v.norm) 0 := by
  have square : v.squaredNorm ≠ 0 := (Real.sqrt_pos.mp positive).ne'
  refine ((hasDerivAt_squaredNorm v d).sqrt (by simpa using square)).congr_deriv ?_
  rw [Vector2d.add_zero_smul, Vector2d.norm, mul_div_mul_left _ _ two_ne_zero]

/-- Moving both ends of a segment moves the segment by the difference of the motions. -/
theorem moved_sub (p q d e : Vector2d) (t : ℝ) : p + t • d - (q + t • e) = p - q + t • (d - e) := by
  ext <;> simp only [Vector2d.add_x, Vector2d.add_y, Vector2d.sub_x, Vector2d.sub_y,
    Vector2d.smul_x, Vector2d.smul_y] <;> ring

/-- The component of normalizedOrthogonalComplement along any vector. -/
theorem normalizedOrthogonalComplement_dot (a b w : Vector2d) (aNorm bNorm : ℝ) :
    (normalizedOrthogonalComplement a b aNorm bNorm).dot w =
      (a.dot w - a.dot b * b.dot w / b.squaredNorm) / (aNorm * bNorm) := by
  simp only [normalizedOrthogonalComplement, Vector2d.dot_def, Vector2d.div_x, Vector2d.div_y,
    Vector2d.sub_x, Vector2d.sub_y, Vector2d.smul_x, Vector2d.smul_y, Vector2d.squaredNorm_def]
  ring

/-- The slack `arccos (p t) / n₁ t - κ` of a moving triple, with `p = dot / (n₁ n₂)`,
differentiated through its lengths `n₁, n₂` and the dot product of its segments. -/
theorem hasDerivAt_slack {n₁ n₂ dot : ℝ → ℝ} {n₁' n₂' dot' : ℝ} (κ : ℝ)
    (incoming : HasDerivAt n₁ n₁' 0) (outgoing : HasDerivAt n₂ n₂' 0) (turn : HasDerivAt dot dot' 0)
    (long : n₁ 0 ≠ 0) (long' : n₂ 0 ≠ 0)
    (bent : dot 0 / (n₁ 0 * n₂ 0) ≠ 1) (unreversed : dot 0 / (n₁ 0 * n₂ 0) ≠ -1) :
    HasDerivAt (fun t => arccos (dot t / (n₁ t * n₂ t)) / n₁ t - κ)
      (-((dot' - dot 0 * (n₁' / n₁ 0 + n₂' / n₂ 0)) / (n₁ 0 * n₂ 0)) /
          (n₁ 0 * √(1 - (dot 0 / (n₁ 0 * n₂ 0)) ^ 2)) -
        arccos (dot 0 / (n₁ 0 * n₂ 0)) * n₁' / n₁ 0 ^ 2) 0 := by
  have projection := turn.div (incoming.mul outgoing) (mul_ne_zero long long')
  have angle := (hasDerivAt_arccos unreversed bent).comp 0 projection
  refine ((angle.div incoming long).sub_const κ).congr_deriv ?_
  have rate : (dot' * (n₁ 0 * n₂ 0) - dot 0 * (n₁' * n₂ 0 + n₁ 0 * n₂')) / (n₁ 0 * n₂ 0) ^ 2 =
      (dot' - dot 0 * (n₁' / n₁ 0 + n₂' / n₂ 0)) / (n₁ 0 * n₂ 0) := by
    rw [div_add_div _ _ long long', mul_div_assoc', sub_div' _ _ _ (mul_ne_zero long long'),
      div_div, ← sq]
  rw [Function.comp_apply, rate, sub_div, sq (n₁ 0), mul_div_mul_right _ _ long]
  ring

/-- Off the clamp's band, the slack is the turning angle over the incoming length, less `κ`. -/
theorem curvatureSlack_of_unclamped {maxTurningRadius : ℝ} {pt ptP ptM : Vector2d}
    (notStraight : epsilon < |1 - turningProjection pt ptP ptM|)
    (notReversed : epsilon < |turningProjection pt ptP ptM + 1|) :
    curvatureSlack maxTurningRadius pt ptP ptM =
      turningAngle pt ptP ptM / (pt - ptM).norm - maxTurningRadius := by
  rw [curvatureSlack, clampProjection,
    if_neg (not_or.mpr ⟨not_lt.mpr notStraight.le, not_lt.mpr notReversed.le⟩), turningAngle]

/-- A length is continuous along a line. -/
theorem continuousAt_norm_line (v w : Vector2d) :
    ContinuousAt (fun t : ℝ => (v + t • w).norm) 0 :=
  (hasDerivAt_squaredNorm v w).continuousAt.sqrt

/-- The rate at which the curvature residual of the triple changes when its points move by
`(dM, d, dP)`, where the penalty is active: the partials of the projection along the two
segments are the normalizedOrthogonalComplement of each segment against the other. -/
noncomputable def curvatureRate (maxTurningRadius weight : ℝ) (pt ptP ptM dM d dP : Vector2d) :
    ℝ :=
  2 * weight * curvatureSlack maxTurningRadius pt ptP ptM *
    (-((normalizedOrthogonalComplement (ptP - pt) (pt - ptM) (ptP - pt).norm
            (pt - ptM).norm).dot (d - dM) +
          (normalizedOrthogonalComplement (pt - ptM) (ptP - pt) (pt - ptM).norm
            (ptP - pt).norm).dot (dP - d)) /
        ((pt - ptM).norm * √(1 - turningProjection pt ptP ptM ^ 2)) -
      turningAngle pt ptP ptM * (pt - ptM).dot (d - dM) / (pt - ptM).norm ^ 3)

section Motion

variable {maxTurningRadius weight : ℝ} {pt ptP ptM : Vector2d} (dM d dP : Vector2d)

/-- Near a triple with a segment shorter than `EPSILON`, the residual stays zero. -/
theorem curvatureResidual_hasDerivAt_of_short
    (short : (pt - ptM).norm < epsilon ∨ (ptP - pt).norm < epsilon) :
    HasDerivAt
      (fun t : ℝ => curvatureResidual maxTurningRadius weight (pt + t • d) (ptP + t • dP)
        (ptM + t • dM)) 0 0 := by
  have start := Vector2d.add_zero_smul
  have stays : ∀ᶠ t in nhds (0 : ℝ), (pt + t • d - (ptM + t • dM)).norm < epsilon ∨
      (ptP + t • dP - (pt + t • d)).norm < epsilon := by
    simp only [moved_sub]
    rcases short with short | short
    · exact ((continuousAt_norm_line _ _).eventually_lt continuousAt_const
        (by simpa only [start] using short)).mono fun _ => Or.inl
    · exact ((continuousAt_norm_line _ _).eventually_lt continuousAt_const
        (by simpa only [start] using short)).mono fun _ => Or.inr
  refine (hasDerivAt_const (0 : ℝ) (0 : ℝ)).congr_of_eventuallyEq ?_
  filter_upwards [stays] with t short
  exact curvatureResidual_of_short _ _ _ _ _ short

variable (incoming : epsilon < (pt - ptM).norm) (outgoing : epsilon < (ptP - pt).norm)
  (notStraight : epsilon < |1 - turningProjection pt ptP ptM|)
  (notReversed : epsilon < |turningProjection pt ptP ptM + 1|)
include incoming outgoing

theorem continuousAt_turningProjection :
    ContinuousAt (fun t : ℝ => turningProjection (pt + t • d) (ptP + t • dP) (ptM + t • dM)) 0 := by
  have lengths := (mul_pos (epsilon_pos.trans incoming) (epsilon_pos.trans outgoing)).ne'
  have projection := (hasDerivAt_dot (pt - ptM) (ptP - pt) (d - dM) (dP - d)).continuousAt.div
    ((continuousAt_norm_line (pt - ptM) (d - dM)).mul (continuousAt_norm_line (ptP - pt) (dP - d)))
    (by simpa only [Vector2d.add_zero_smul] using lengths)
  simpa only [turningProjection, moved_sub] using projection

include notStraight notReversed

/-- Every small motion of a triple in the open region keeps both segments longer than
`EPSILON` and the projection off the clamp's band. -/
theorem eventually_open :
    ∀ᶠ t in nhds (0 : ℝ), epsilon < (pt + t • d - (ptM + t • dM)).norm ∧
      epsilon < (ptP + t • dP - (pt + t • d)).norm ∧
      epsilon < |1 - turningProjection (pt + t • d) (ptP + t • dP) (ptM + t • dM)| ∧
      epsilon < |turningProjection (pt + t • d) (ptP + t • dP) (ptM + t • dM) + 1| := by
  have start := Vector2d.add_zero_smul
  have projection := (continuousAt_turningProjection dM d dP incoming outgoing).tendsto
  simp only [start] at projection
  have near₁ := (continuousAt_norm_line (pt - ptM) (d - dM)).tendsto.eventually_const_lt
    (by simpa only [start] using incoming)
  have near₂ := (continuousAt_norm_line (ptP - pt) (dP - d)).tendsto.eventually_const_lt
    (by simpa only [start] using outgoing)
  have near₃ := (tendsto_const_nhds.sub projection).abs.eventually_const_lt notStraight
  have near₄ := (projection.add tendsto_const_nhds).abs.eventually_const_lt notReversed
  filter_upwards [near₁, near₂, near₃, near₄] with t h₁ h₂ h₃ h₄
  rw [moved_sub, moved_sub]
  exact ⟨h₁, h₂, h₃, h₄⟩

/-- There the slack is continuous, so a slack off the threshold stays on its side. -/
theorem continuousAt_curvatureSlack (κ : ℝ) :
    ContinuousAt (fun t : ℝ => curvatureSlack κ (pt + t • d) (ptP + t • dP) (ptM + t • dM)) 0 := by
  have length : (pt + (0 : ℝ) • d - (ptM + (0 : ℝ) • dM)).norm ≠ 0 := by
    simpa only [Vector2d.add_zero_smul] using (epsilon_pos.trans incoming).ne'
  have angle := ((continuous_arccos.continuousAt.comp
    (continuousAt_turningProjection dM d dP incoming outgoing)).div
    (continuousAt_norm_line (pt - ptM) (d - dM)) (by simpa only [moved_sub] using length)).sub
    (continuousAt_const : ContinuousAt (fun _ : ℝ => κ) 0)
  refine angle.congr ?_
  filter_upwards [eventually_open dM d dP incoming outgoing notStraight notReversed]
    with t region
  rw [curvatureSlack_of_unclamped region.2.2.1 region.2.2.2, turningAngle, moved_sub]
  rfl

/-- Near a triple in the open region whose slack is below `EPSILON`, the residual stays zero. -/
theorem curvatureResidual_hasDerivAt_of_inactive
    (inactive : curvatureSlack maxTurningRadius pt ptP ptM < epsilon) :
    HasDerivAt
      (fun t : ℝ => curvatureResidual maxTurningRadius weight (pt + t • d) (ptP + t • dP)
        (ptM + t • dM)) 0 0 := by
  have below := (continuousAt_curvatureSlack dM d dP incoming outgoing notStraight notReversed
    maxTurningRadius).eventually_lt continuousAt_const
    (by simpa only [Vector2d.add_zero_smul] using inactive)
  refine (hasDerivAt_const (0 : ℝ) (0 : ℝ)).congr_of_eventuallyEq ?_
  filter_upwards [eventually_open dM d dP incoming outgoing notStraight notReversed, below]
    with t region below
  rw [curvatureResidual_of_long _ _ _ _ _ region.1.le region.2.1.le, if_neg (not_lt.mpr below.le)]

/-- For every triple in the open region whose slack exceeds `EPSILON`, and for every motion
`(dM, d, dP)` of its three points, the curvature residual changes at curvatureRate. -/
theorem curvatureResidual_hasDerivAt
    (active : epsilon < curvatureSlack maxTurningRadius pt ptP ptM) :
    HasDerivAt
      (fun t : ℝ => curvatureResidual maxTurningRadius weight (pt + t • d) (ptP + t • dP)
        (ptM + t • dM))
      (curvatureRate maxTurningRadius weight pt ptP ptM dM d dP) 0 := by
  have long := epsilon_pos.trans incoming
  have long' := epsilon_pos.trans outgoing
  have bent : turningProjection pt ptP ptM ≠ 1 := fun one => by
    rw [one, sub_self, abs_zero] at notStraight
    linarith [epsilon_pos]
  have unreversed : turningProjection pt ptP ptM ≠ -1 := fun minusOne => by
    rw [minusOne, neg_add_cancel, abs_zero] at notReversed
    linarith [epsilon_pos]
  have n₁ := hasDerivAt_norm (pt - ptM) (d - dM) long
  have n₂ := hasDerivAt_norm (ptP - pt) (dP - d) long'
  have turn := hasDerivAt_dot (pt - ptM) (ptP - pt) (d - dM) (dP - d)
  have start := Vector2d.add_zero_smul
  have slack := hasDerivAt_slack maxTurningRadius n₁ n₂ turn
    (by simpa only [start] using long.ne') (by simpa only [start] using long'.ne')
    (by simpa only [start] using bent) (by simpa only [start] using unreversed)
  have penalty := (slack.const_mul weight).mul slack
  simp only [start] at penalty
  have above := continuousAt_const.eventually_lt (continuousAt_curvatureSlack dM d dP incoming
    outgoing notStraight notReversed maxTurningRadius)
    (by simpa only [start] using active)
  refine (penalty.congr_deriv ?_).congr_of_eventuallyEq ?_
  · rw [curvatureRate, normalizedOrthogonalComplement_dot, normalizedOrthogonalComplement_dot,
      ← Vector2d.norm_sq, ← Vector2d.norm_sq, curvatureSlack_of_unclamped notStraight notReversed,
      turningAngle, Vector2d.dot_comm (ptP - pt) (d - dM), Vector2d.dot_comm (ptP - pt) (pt - ptM),
      turningProjection]
    ring
  · filter_upwards [eventually_open dM d dP incoming outgoing notStraight notReversed, above]
      with t region above
    rw [curvatureResidual_of_long _ _ _ _ _ region.1.le region.2.1.le, if_pos above,
      curvatureSlack_of_unclamped region.2.2.1 region.2.2.2, turningAngle, turningProjection,
      moved_sub, moved_sub]

end Motion

/-- A triple that sits on no boundary of addCurvatureResidual's switches: a segment shorter
than `EPSILON`, or both longer, the projection off the clamp's band and the slack off the
threshold. Every small motion keeps it on the same side of every switch. -/
def RegularTriple (maxTurningRadius : ℝ) (pt ptP ptM : Vector2d) : Prop :=
  (pt - ptM).norm < epsilon ∨ (ptP - pt).norm < epsilon ∨
    epsilon < (pt - ptM).norm ∧ epsilon < (ptP - pt).norm ∧
      epsilon < |1 - turningProjection pt ptP ptM| ∧
      epsilon < |turningProjection pt ptP ptM + 1| ∧
      curvatureSlack maxTurningRadius pt ptP ptM ≠ epsilon

noncomputable instance (maxTurningRadius : ℝ) (pt ptP ptM : Vector2d) :
    Decidable (CurvatureActive maxTurningRadius pt ptP ptM) :=
  inferInstanceAs (Decidable (_ ∧ _ ∧ _))

/-- At every regular triple and along every motion of its points, the curvature residual
changes at curvatureRate when the penalty is active and stays put otherwise. -/
theorem hasDerivAt_curvatureResidual {maxTurningRadius weight : ℝ} {pt ptP ptM : Vector2d}
    (dM d dP : Vector2d) (regular : RegularTriple maxTurningRadius pt ptP ptM) :
    HasDerivAt
      (fun t : ℝ => curvatureResidual maxTurningRadius weight (pt + t • d) (ptP + t • dP)
        (ptM + t • dM))
      (if CurvatureActive maxTurningRadius pt ptP ptM then
        curvatureRate maxTurningRadius weight pt ptP ptM dM d dP else 0) 0 := by
  rcases regular with short | short | ⟨incoming, outgoing, notStraight, notReversed, apart⟩
  · rw [if_neg fun active => absurd active.1 (not_le.mpr short)]
    exact curvatureResidual_hasDerivAt_of_short dM d dP (Or.inl short)
  · rw [if_neg fun active => absurd active.2.1 (not_le.mpr short)]
    exact curvatureResidual_hasDerivAt_of_short dM d dP (Or.inr short)
  · rcases apart.lt_or_lt with inactive | active
    · rw [if_neg fun active => absurd active.2.2 (not_lt.mpr inactive.le)]
      exact curvatureResidual_hasDerivAt_of_inactive dM d dP incoming outgoing notStraight
        notReversed inactive
    · rw [if_pos ⟨incoming.le, outgoing.le, active⟩]
      exact curvatureResidual_hasDerivAt dM d dP incoming outgoing notStraight notReversed active

end SmacPlanner
