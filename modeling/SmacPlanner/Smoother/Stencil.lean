import SmacPlanner.Smoother.CostmapGradient
import Mathlib.Algebra.Polynomial.Derivative
import Mathlib.Algebra.Polynomial.Eval.Degree

namespace SmacPlanner

open Polynomial

/-- The central difference `(45, -9, 1) / 60` is exact on every polynomial of degree at most
six. -/
theorem sevenPoint_eq_derivative (q : ℝ[X]) (degree : q.natDegree ≤ 6) :
    (45 * q.eval 1 - 9 * q.eval 2 + q.eval 3 - 45 * q.eval (-1) + 9 * q.eval (-2) -
        q.eval (-3)) / 60 = q.derivative.eval 0 := by
  have slope : q.derivative.eval 0 = q.coeff 1 := by
    rw [← coeff_zero_eq_eval_zero, coeff_derivative]
    norm_num
  rw [slope]
  simp only [eval_eq_sum_range' (show q.natDegree < 7 by omega), Finset.sum_range_succ,
    Finset.sum_range_zero]
  ring

/-- Three cells or more from every border, when the costs along the row through `(mx, my)`
are the values at the offsets `±1, ±2, ±3` of a polynomial of degree at most six, and the
costs along the column those of another, getCostmapGradient returns the normalized pair of
their slopes at the cell, the column's first. -/
theorem getCostmapGradient_eq_derivative {costmap : MinimalCostmap} {mx my : ℕ}
    (left : 3 ≤ mx) (right : mx + 3 < costmap.sizeX) (below : 3 ≤ my)
    (above : my + 3 < costmap.sizeY) (row column : ℝ[X]) (rowDegree : row.natDegree ≤ 6)
    (columnDegree : column.natDegree ≤ 6)
    (alongRow : ∀ s ∈ [1, 2, 3], (costmap.getCost (mx + s) my : ℝ) = row.eval (s : ℝ) ∧
      (costmap.getCost (mx - s) my : ℝ) = row.eval (-(s : ℝ)))
    (alongColumn : ∀ s ∈ [1, 2, 3], (costmap.getCost mx (my + s) : ℝ) = column.eval (s : ℝ) ∧
      (costmap.getCost mx (my - s) : ℝ) = column.eval (-(s : ℝ))) :
    getCostmapGradient costmap mx my =
      Vector2d.normalized ⟨column.derivative.eval 0, row.derivative.eval 0⟩ := by
  simp only [List.forall_mem_cons, List.not_mem_nil, false_imp_iff, implies_true, and_true,
    Nat.cast_one, Nat.cast_ofNat] at alongRow alongColumn
  obtain ⟨⟨r1, l1⟩, ⟨r2, l2⟩, ⟨r3, l3⟩⟩ := alongRow
  obtain ⟨⟨u1, d1⟩, ⟨u2, d2⟩, ⟨u3, d3⟩⟩ := alongColumn
  unfold getCostmapGradient
  rw [stencil_interior left right below above, ← sevenPoint_eq_derivative row rowDegree,
    ← sevenPoint_eq_derivative column columnDegree]
  simp only [Probe.sample, if_true, r1, r2, r3, l1, l2, l3, u1, u2, u3, d1, d2, d3]

theorem rampMap_gradient_eq_derivative :
    (3 ≤ 3 ∧ 3 + 3 < rampMap.sizeX ∧ 3 ≤ 3 ∧ 3 + 3 < rampMap.sizeY ∧
        (X + C 3 : ℝ[X]).natDegree ≤ 6 ∧ (C 3 : ℝ[X]).natDegree ≤ 6 ∧
        (∀ s ∈ [1, 2, 3], (rampMap.getCost (3 + s) 3 : ℝ) = (X + C 3 : ℝ[X]).eval (s : ℝ) ∧
          (rampMap.getCost (3 - s) 3 : ℝ) = (X + C 3 : ℝ[X]).eval (-(s : ℝ))) ∧
        ∀ s ∈ [1, 2, 3], (rampMap.getCost 3 (3 + s) : ℝ) = (C 3 : ℝ[X]).eval (s : ℝ) ∧
          (rampMap.getCost 3 (3 - s) : ℝ) = (C 3 : ℝ[X]).eval (-(s : ℝ))) ∧
      getCostmapGradient rampMap 3 3 =
        Vector2d.normalized ⟨(C 3 : ℝ[X]).derivative.eval 0, (X + C 3 : ℝ[X]).derivative.eval 0⟩ := by
  have inside : 3 + 3 < rampMap.sizeX ∧ 3 + 3 < rampMap.sizeY := by decide
  have rowDegree : (X + C 3 : ℝ[X]).natDegree ≤ 6 := by rw [natDegree_X_add_C]; norm_num
  have columnDegree : (C 3 : ℝ[X]).natDegree ≤ 6 := by rw [natDegree_C]; norm_num
  have alongRow : ∀ s ∈ [1, 2, 3],
      (rampMap.getCost (3 + s) 3 : ℝ) = (X + C 3 : ℝ[X]).eval (s : ℝ) ∧
        (rampMap.getCost (3 - s) 3 : ℝ) = (X + C 3 : ℝ[X]).eval (-(s : ℝ)) := by
    simp only [List.forall_mem_cons, List.not_mem_nil, false_imp_iff, implies_true, and_true]
    norm_num [rampMap]
  have alongColumn : ∀ s ∈ [1, 2, 3], (rampMap.getCost 3 (3 + s) : ℝ) = (C 3 : ℝ[X]).eval (s : ℝ) ∧
      (rampMap.getCost 3 (3 - s) : ℝ) = (C 3 : ℝ[X]).eval (-(s : ℝ)) := by
    simp only [List.forall_mem_cons, List.not_mem_nil, false_imp_iff, implies_true, and_true]
    norm_num [rampMap]
  exact ⟨⟨le_rfl, inside.1, le_rfl, inside.2, rowDegree, columnDegree, alongRow, alongColumn⟩,
    getCostmapGradient_eq_derivative le_rfl inside.1 le_rfl inside.2 _ _ rowDegree columnDegree
      alongRow alongColumn⟩

end SmacPlanner
