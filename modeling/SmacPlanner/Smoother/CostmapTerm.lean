import SmacPlanner.Smoother.Gradient

namespace SmacPlanner

open UnconstrainedSmootherCostFunction

/-- What addCostResidual adds for the cell worldToMap returned, nothing off the map. -/
noncomputable def cellTerm (f : UnconstrainedSmootherCostFunction) (cell : Option (ℕ × ℕ)) : ℝ :=
  match cell with
  | some (mx, my) => addCostResidual f.codes f.wCost (f.costmap.getCost mx my) 0
  | none => 0

section Sign

variable (codes : CostCodes) {weight : ℝ} (value : ℕ)

theorem addCostResidual_zero_le (nonneg : 0 ≤ weight) : addCostResidual codes weight value 0 ≤ 0 := by
  rw [addCostResidual_eq, zero_add]
  split_ifs
  · exact le_rfl
  · linarith [mul_nonneg nonneg (mul_self_nonneg ((value : ℝ) - codes.maxNonObstacle))]

theorem addCostResidual_zero_eq_zero_iff (positive : 0 < weight) :
    addCostResidual codes weight value 0 = 0 ↔
      value = codes.free ∨ value = codes.unknown ∨ value = codes.maxNonObstacle := by
  rw [addCostResidual_eq, zero_add]
  simp only [Nat.cast_inj]
  split_ifs with skipped
  · exact iff_of_true rfl (skipped.imp_right .inl)
  · push_neg at skipped
    rw [mul_assoc, mul_eq_zero, mul_self_eq_zero, sub_eq_zero, Nat.cast_inj]
    simp [skipped.1, skipped.2, positive.ne']

end Sign

theorem cellTerm_nonpos (f : UnconstrainedSmootherCostFunction) (nonneg : 0 ≤ f.wCost)
    (cell : Option (ℕ × ℕ)) : cellTerm f cell ≤ 0 := by
  rcases cell with _ | ⟨mx, my⟩
  · exact le_rfl
  · exact addCostResidual_zero_le f.codes _ nonneg

/-- The residual block is the block with no costmap weight, plus the costmap term. -/
theorem pointResidual_eq_add_cellTerm (f : UnconstrainedSmootherCostFunction)
    (parameters : ℕ → ℝ) (i : ℕ) :
    pointResidual f parameters i = pointResidual { f with wCost := 0 } parameters i +
      cellTerm f (f.costmap.worldToMap (parameters (2 * i)) (parameters (2 * i + 1))) := by
  unfold pointResidual blockResidual cellTerm
  dsimp only
  cases f.costmap.worldToMap (parameters (2 * i)) (parameters (2 * i + 1)) <;>
    simp only [addCostResidual_eq, mul_zero, zero_mul, ite_self, add_zero]

/-- addCostResidual adds `-W (c - MAX_NON_OBSTACLE)²`, so with a non-negative costmap weight,
for every path, parameter vector and gradient array, the costmap term never raises `cost[0]`
above the value it has with no costmap weight; with a positive weight the two are equal
exactly when every interior point is off the map or on a cell whose cost is `FREE`, `UNKNOWN`
or `MAX_NON_OBSTACLE`, so an interior point on any other cell, an obstacle included, lowers
`cost[0]`. -/
theorem evaluate_cost_le_without_costmap (f : UnconstrainedSmootherCostFunction)
    (parameters gradient : ℕ → ℝ) (nonneg : 0 ≤ f.wCost) :
    (evaluate f parameters gradient).cost ≤
        (evaluate { f with wCost := 0 } parameters gradient).cost ∧
      (0 < f.wCost →
        ((evaluate f parameters gradient).cost =
            (evaluate { f with wCost := 0 } parameters gradient).cost ↔
          ∀ i, interior f.originalPath.length i → ∀ cell,
            f.costmap.worldToMap (pointAt parameters i).x (pointAt parameters i).y = some cell →
              f.costmap.getCost cell.1 cell.2 = f.codes.free ∨
                f.costmap.getCost cell.1 cell.2 = f.codes.unknown ∨
                f.costmap.getCost cell.1 cell.2 = f.codes.maxNonObstacle)) := by
  have split : (evaluate f parameters gradient).cost =
      (evaluate { f with wCost := 0 } parameters gradient).cost +
        ∑ i ∈ (Finset.range f.originalPath.length).filter (interior f.originalPath.length),
          cellTerm f (f.costmap.worldToMap (parameters (2 * i)) (parameters (2 * i + 1))) := by
    rw [evaluate_cost, evaluate_cost, ← Finset.sum_add_distrib]
    exact Finset.sum_congr rfl fun i _ => pointResidual_eq_add_cellTerm f parameters i
  have terms : ∀ i ∈ (Finset.range f.originalPath.length).filter (interior f.originalPath.length),
      cellTerm f (f.costmap.worldToMap (parameters (2 * i)) (parameters (2 * i + 1))) ≤ 0 :=
    fun i _ => cellTerm_nonpos f nonneg _
  refine ⟨by linarith [Finset.sum_nonpos terms], fun positive => ?_⟩
  rw [split, add_right_eq_self, Finset.sum_eq_zero_iff_of_nonpos terms]
  refine forall_congr' fun i => ⟨fun zero inside cell found => ?_, fun free member => ?_⟩
  · have within : i < f.originalPath.length := by
      unfold interior at inside
      omega
    have vanishes := zero (Finset.mem_filter.mpr ⟨Finset.mem_range.mpr within, inside⟩)
    rw [show f.costmap.worldToMap (parameters (2 * i)) (parameters (2 * i + 1)) = some cell
      from found] at vanishes
    exact (addCostResidual_zero_eq_zero_iff f.codes _ positive).mp vanishes
  · have onFree := free (Finset.mem_filter.mp member).2
    unfold cellTerm
    split
    · exact (addCostResidual_zero_eq_zero_iff f.codes _ positive).mpr (onFree _ ‹_›)
    · rfl

/-- A costmap on which every world point lands on one occupied cell. -/
def occupiedMap : MinimalCostmap where
  sizeX := 1
  sizeY := 1
  getCost _ _ := 254
  worldToMap _ _ := some (0, 0)
  sizeX_lt := by norm_num
  sizeY_lt := by norm_num
  getCost_lt _ _ := by norm_num
  worldToMap_lt := fun found => by cases found; decide

/-- The stair path with a unit costmap weight, every point of it on the occupied cell. -/
noncomputable def weightedStair : UnconstrainedSmootherCostFunction :=
  { stairSmoother with costmap := occupiedMap, wCost := 1 }

theorem weightedStair_cost_le_without_costmap :
    0 ≤ weightedStair.wCost ∧
      ((evaluate weightedStair stairParameters 0).cost ≤
          (evaluate { weightedStair with wCost := 0 } stairParameters 0).cost ∧
        (0 < weightedStair.wCost →
          ((evaluate weightedStair stairParameters 0).cost =
              (evaluate { weightedStair with wCost := 0 } stairParameters 0).cost ↔
            ∀ i, interior weightedStair.originalPath.length i → ∀ cell,
              weightedStair.costmap.worldToMap (pointAt stairParameters i).x
                  (pointAt stairParameters i).y = some cell →
                weightedStair.costmap.getCost cell.1 cell.2 = weightedStair.codes.free ∨
                  weightedStair.costmap.getCost cell.1 cell.2 = weightedStair.codes.unknown ∨
                  weightedStair.costmap.getCost cell.1 cell.2 =
                    weightedStair.codes.maxNonObstacle))) ∧
      (evaluate weightedStair stairParameters 0).cost <
        (evaluate { weightedStair with wCost := 0 } stairParameters 0).cost := by
  have settled := evaluate_cost_le_without_costmap weightedStair stairParameters 0 zero_le_one
  refine ⟨zero_le_one, settled, lt_of_le_of_ne settled.1 fun equal => ?_⟩
  have onFree := (settled.2 one_pos).mp equal 1 (by decide) (0, 0) rfl
  revert onFree
  decide

end SmacPlanner
