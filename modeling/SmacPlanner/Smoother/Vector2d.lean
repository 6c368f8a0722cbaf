import Mathlib.Data.Real.Sqrt

namespace SmacPlanner

/-- `Eigen::Vector2d` read over the reals; `x` and `y` are its entries `[0]` and `[1]`. -/
@[ext] structure Vector2d where
  x : ℝ
  y : ℝ

namespace Vector2d

instance : Zero Vector2d := ⟨⟨0, 0⟩⟩
instance : Add Vector2d := ⟨fun a b => ⟨a.x + b.x, a.y + b.y⟩⟩
instance : Sub Vector2d := ⟨fun a b => ⟨a.x - b.x, a.y - b.y⟩⟩
instance : Neg Vector2d := ⟨fun a => ⟨-a.x, -a.y⟩⟩
instance : SMul ℝ Vector2d := ⟨fun s a => ⟨s * a.x, s * a.y⟩⟩
noncomputable instance : HDiv Vector2d ℝ Vector2d := ⟨fun a s => ⟨a.x / s, a.y / s⟩⟩

def dot (a b : Vector2d) : ℝ := a.x * b.x + a.y * b.y

def squaredNorm (a : Vector2d) : ℝ := a.dot a

noncomputable def norm (a : Vector2d) : ℝ := √a.squaredNorm

/-- Eigen's `normalize()`: a zero vector is left unchanged. -/
noncomputable def normalized (a : Vector2d) : Vector2d :=
  if 0 < a.squaredNorm then a / a.norm else a

@[simp] theorem zero_x : (0 : Vector2d).x = 0 := rfl
@[simp] theorem zero_y : (0 : Vector2d).y = 0 := rfl
@[simp] theorem add_x (a b : Vector2d) : (a + b).x = a.x + b.x := rfl
@[simp] theorem add_y (a b : Vector2d) : (a + b).y = a.y + b.y := rfl
@[simp] theorem sub_x (a b : Vector2d) : (a - b).x = a.x - b.x := rfl
@[simp] theorem sub_y (a b : Vector2d) : (a - b).y = a.y - b.y := rfl
@[simp] theorem neg_x (a : Vector2d) : (-a).x = -a.x := rfl
@[simp] theorem neg_y (a : Vector2d) : (-a).y = -a.y := rfl
@[simp] theorem smul_x (s : ℝ) (a : Vector2d) : (s • a).x = s * a.x := rfl
@[simp] theorem smul_y (s : ℝ) (a : Vector2d) : (s • a).y = s * a.y := rfl
@[simp] theorem div_x (a : Vector2d) (s : ℝ) : (a / s).x = a.x / s := rfl
@[simp] theorem div_y (a : Vector2d) (s : ℝ) : (a / s).y = a.y / s := rfl

@[simp] theorem dot_def (a b : Vector2d) : a.dot b = a.x * b.x + a.y * b.y := rfl
@[simp] theorem squaredNorm_def (a : Vector2d) : a.squaredNorm = a.x * a.x + a.y * a.y := rfl

theorem squaredNorm_nonneg (a : Vector2d) : 0 ≤ a.squaredNorm :=
  add_nonneg (mul_self_nonneg a.x) (mul_self_nonneg a.y)

theorem squaredNorm_pos {a : Vector2d} : 0 < a.squaredNorm ↔ a ≠ 0 := by
  constructor
  · rintro positive rfl
    simp at positive
  · intro nonzero
    rw [squaredNorm_def]
    by_cases hx : a.x = 0
    · have hy : a.y ≠ 0 := fun hy => nonzero (Vector2d.ext hx hy)
      exact add_pos_of_nonneg_of_pos (mul_self_nonneg a.x) (mul_self_pos.mpr hy)
    · exact add_pos_of_pos_of_nonneg (mul_self_pos.mpr hx) (mul_self_nonneg a.y)

theorem squaredNorm_neg_one_smul (a : Vector2d) : ((-1 : ℝ) • a).squaredNorm = a.squaredNorm := by
  simp only [squaredNorm_def, smul_x, smul_y]
  ring

theorem zero_eq_squaredNorm_iff (a : Vector2d) : 0 = a.squaredNorm ↔ a = 0 := by
  constructor
  · intro zero
    by_contra nonzero
    exact (squaredNorm_pos.mpr nonzero).ne zero
  · rintro rfl
    simp

theorem normalized_of_ne_zero {a : Vector2d} (nonzero : a ≠ 0) : a.normalized = a / a.norm :=
  if_pos (squaredNorm_pos.mpr nonzero)

theorem norm_nonneg (a : Vector2d) : 0 ≤ a.norm := Real.sqrt_nonneg _

theorem norm_sq (a : Vector2d) : a.norm ^ 2 = a.squaredNorm :=
  Real.sq_sqrt a.squaredNorm_nonneg

/-- Cauchy–Schwarz in the form the projection of the curvature term needs. -/
theorem abs_dot_le (a b : Vector2d) : |a.dot b| ≤ a.norm * b.norm := by
  rw [norm, norm, ← Real.sqrt_mul a.squaredNorm_nonneg]
  apply Real.abs_le_sqrt
  simp only [dot_def, squaredNorm_def]
  linarith [sq_nonneg (a.x * b.y - a.y * b.x)]

end Vector2d

end SmacPlanner
