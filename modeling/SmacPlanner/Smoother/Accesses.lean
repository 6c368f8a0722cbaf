import SmacPlanner.Smoother.Gradient

namespace SmacPlanner

open UnconstrainedSmootherCostFunction

/-- The accesses iteration `i` on a path of `n` points appends: the slot pair zeroed first;
for an interior point the six reads of `parameters` and the `_original_path->at(i)` of the
residual block, then the slot pair cleared, the `at(i)` of the Jacobian block and the slot
pair written. -/
def iterationAccesses (n i : ℕ) : List Access :=
  .gradient (2 * i) :: .gradient (2 * i + 1) ::
    if interior n i then
      pointReads i ++
        [.originalPath i, .gradient (2 * i), .gradient (2 * i + 1), .originalPath i,
          .gradient (2 * i), .gradient (2 * i + 1)]
    else []

/-- An access stays inside its array on a path of `n` points: `parameters` and `gradient`
hold `2 n` entries and `_original_path` holds `n`. -/
def Access.InBounds (n : ℕ) : Access → Prop
  | .parameters index => index < 2 * n
  | .gradient index => index < 2 * n
  | .originalPath index => index < n

instance (n : ℕ) : DecidablePred (Access.InBounds n) := fun access =>
  match access with
  | .parameters index => inferInstanceAs (Decidable (index < 2 * n))
  | .gradient index => inferInstanceAs (Decidable (index < 2 * n))
  | .originalPath index => inferInstanceAs (Decidable (index < n))

/-- `i < 1 || i >= NumParameters() / 2 - 1` as C++ evaluates it: `NumParameters()` is an
`int`, and the comparison converts `NumParameters() / 2 - 1` to `unsigned int`, which is
`2³² - 1` on an empty path. -/
def skipsPoint (numParameters : ℤ) (i : ℕ) : Prop :=
  i < 1 ∨ ((numParameters / 2 - 1) % 2 ^ 32).toNat ≤ i

/-- The number of iterations of `for (uint i = 0; i != NumParameters() / 2; i++)`: the `int`
bound converted to `unsigned int`. -/
def loopBound (numParameters : ℤ) : ℕ := (numParameters / 2 % 2 ^ 32).toNat

section Accesses

variable (f : UnconstrainedSmootherCostFunction) (parameters : ℕ → ℝ)

theorem evaluateStep_accesses_eq (s : EvaluateState) (i : ℕ) :
    (evaluateStep f parameters s i).accesses =
      s.accesses ++ iterationAccesses f.originalPath.length i := by
  by_cases inside : interior f.originalPath.length i
  · simp only [evaluateStep, skip_iff, inside, not_true_eq_false, if_false, iterationAccesses,
      if_true]
    simp
  · simp [evaluateStep_of_not_interior f parameters s i inside, iterationAccesses, inside]

/-- The loop only appends to the accesses it has made. -/
theorem evaluateLoop_accesses_grow (gradient : ℕ → ℝ) (m k : ℕ) :
    (evaluateLoop f parameters gradient m).accesses <+:
      (evaluateLoop f parameters gradient (m + k)).accesses := by
  induction k with
  | zero => exact List.prefix_refl _
  | succ k ih =>
    rw [← add_assoc, evaluateLoop_succ, evaluateStep_accesses_eq]
    exact ih.trans (List.prefix_append _ _)

/-- On a non-empty path the first access of the loop is the write `gradient[0] = 0.0`. -/
theorem evaluate_accesses_head (gradient : ℕ → ℝ) (nonempty : f.originalPath ≠ []) :
    (evaluate f parameters gradient).accesses.head? = some (.gradient 0) := by
  obtain ⟨rest, grown⟩ := evaluateLoop_accesses_grow f parameters gradient 1
    (f.originalPath.length - 1)
  rw [evaluate_eq, ← Nat.add_sub_cancel' (List.length_pos.mpr nonempty), ← grown,
    evaluateLoop_succ, evaluateStep_accesses_eq]
  rfl

/-- Each iteration the loop visits makes only in-bounds accesses. -/
theorem iterationAccesses_inBounds {n i : ℕ} (visited : i < n) :
    ∀ access ∈ iterationAccesses n i, access.InBounds n := by
  unfold iterationAccesses interior
  split_ifs <;>
    simp only [List.forall_mem_cons, List.forall_mem_append, pointReads, List.not_mem_nil,
      Access.InBounds, false_imp_iff, implies_true, and_true] <;>
    omega

/-- The first `m ≤ n` iterations make only in-bounds accesses. -/
theorem evaluateLoop_accesses_inBounds (gradient : ℕ → ℝ) {m : ℕ}
    (within : m ≤ f.originalPath.length) :
    ∀ access ∈ (evaluateLoop f parameters gradient m).accesses,
      access.InBounds f.originalPath.length := by
  induction m with
  | zero => simp [evaluateLoop]
  | succ m ih =>
    rw [evaluateLoop_succ, evaluateStep_accesses_eq]
    intro access member
    rcases List.mem_append.mp member with earlier | current
    · exact ih (by omega) access earlier
    · exact iterationAccesses_inBounds (by omega) access current

end Accesses

/-- On every non-empty path, a cost-only call ends at a write through the NULL gradient
pointer, with no return value and no cost: the write is `gradient[0] = 0.0`, the first access
a call with a gradient array makes. -/
theorem evaluate_null_gradient_written (f : UnconstrainedSmootherCostFunction)
    (parameters gradient : ℕ → ℝ) (nonempty : f.originalPath ≠ []) :
    evaluateCall f parameters none = .error (.gradient 0) ∧
      (evaluate f parameters gradient).accesses.head? = some (.gradient 0) := by
  refine ⟨?_, evaluate_accesses_head f parameters gradient nonempty⟩
  rw [evaluateCall, numParameters_div_two, if_neg (List.length_pos.mpr nonempty).ne']

theorem stairSmoother_null_gradient_written :
    stairSmoother.originalPath ≠ [] ∧
      evaluateCall stairSmoother stairParameters none = .error (.gradient 0) ∧
      (evaluate stairSmoother stairParameters 0).accesses.head? = some (.gradient 0) :=
  ⟨List.cons_ne_nil _ _,
    evaluate_null_gradient_written stairSmoother stairParameters 0 (List.cons_ne_nil _ _)⟩

/-- Evaluate reads `parameters` and writes `gradient` only in `[0, 2n)`, and calls
`_original_path->at` only in `[0, n)`, for every path, parameter vector and gradient argument.
When `NumParameters()` fits an `int`, the `unsigned int` loop bound and skip test C++ computes
from it are the model's on every index the loop visits. -/
theorem evaluate_accesses_inBounds (f : UnconstrainedSmootherCostFunction) (parameters : ℕ → ℝ)
    (gradient : ℕ → ℝ) :
    (f.numParameters < 2 ^ 31 → loopBound f.numParameters = f.originalPath.length ∧
      ∀ i < f.originalPath.length,
        (skipsPoint f.numParameters i ↔ ¬interior f.originalPath.length i)) ∧
      ∀ access ∈ (evaluate f parameters gradient).accesses,
        access.InBounds f.originalPath.length := by
  refine ⟨fun fits => ?_, ?_⟩
  · unfold loopBound skipsPoint interior numParameters at *
    push_cast
    exact ⟨by omega, fun i visited => by omega⟩
  · rw [evaluate_eq]
    exact evaluateLoop_accesses_inBounds f parameters gradient le_rfl

theorem stairSmoother_accesses_inBounds :
    stairSmoother.numParameters < 2 ^ 31 ∧
      (loopBound stairSmoother.numParameters = stairSmoother.originalPath.length ∧
        ∀ i < stairSmoother.originalPath.length,
          (skipsPoint stairSmoother.numParameters i ↔
            ¬interior stairSmoother.originalPath.length i)) ∧
      ∀ access ∈ (evaluate stairSmoother stairParameters 0).accesses,
        access.InBounds stairSmoother.originalPath.length := by
  have fits : stairSmoother.numParameters < 2 ^ 31 := by decide
  have settled := evaluate_accesses_inBounds stairSmoother stairParameters 0
  exact ⟨fits, settled.1 fits, settled.2⟩

end SmacPlanner
