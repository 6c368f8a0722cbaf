import SmacPlanner.Neighborhood
import Mathlib.Tactic.LinearCombination

namespace SmacPlanner

/-- The triangle inequality for the Euclidean length that `hypotf` computes. -/
theorem hypot_add_le (a b c d : ℝ) :
    √((a + c) ^ 2 + (b + d) ^ 2) ≤ √(a ^ 2 + b ^ 2) + √(c ^ 2 + d ^ 2) := by
  have first := Real.sq_sqrt (show 0 ≤ a ^ 2 + b ^ 2 by positivity)
  have second := Real.sq_sqrt (show 0 ≤ c ^ 2 + d ^ 2 by positivity)
  have cauchy : a * c + b * d ≤ √(a ^ 2 + b ^ 2) * √(c ^ 2 + d ^ 2) := by
    rw [← Real.sqrt_mul (by positivity)]
    exact (le_abs_self _).trans (Real.abs_le_sqrt (by linarith [sq_nonneg (a * d - b * c)]))
  rw [Real.sqrt_le_left (by positivity)]
  calc (a + c) ^ 2 + (b + d) ^ 2 = (a ^ 2 + b ^ 2) + (c ^ 2 + d ^ 2) + 2 * (a * c + b * d) := by
        ring
    _ ≤ √(a ^ 2 + b ^ 2) ^ 2 + √(c ^ 2 + d ^ 2) ^ 2 +
          2 * (√(a ^ 2 + b ^ 2) * √(c ^ 2 + d ^ 2)) := by
        rw [first, second]
        linarith
    _ = (√(a ^ 2 + b ^ 2) + √(c ^ 2 + d ^ 2)) ^ 2 := by ring

/-- The heuristic moves by at most the neutral cost times the distance between two cells. -/
theorem getHeuristicCost_le (nodeCoords nextCoords goalCoordinates : Coordinates) {c : ℝ}
    (hc : 0 ≤ c) :
    getHeuristicCost nodeCoords goalCoordinates c ≤
      c * √((nextCoords.x - nodeCoords.x) ^ 2 + (nextCoords.y - nodeCoords.y) ^ 2) +
        getHeuristicCost nextCoords goalCoordinates c := by
  have triangle := hypot_add_le (nextCoords.x - nodeCoords.x) (nextCoords.y - nodeCoords.y)
    (goalCoordinates.x - nextCoords.x) (goalCoordinates.y - nextCoords.y)
  simp only [sub_add_sub_cancel'] at triangle
  unfold getHeuristicCost
  linarith [mul_le_mul_of_nonneg_right triangle hc]

/-- A step by `dx + dy * W` whose column moves by at most one did not wrap a row end, so it
moved the cell by exactly `(dx, dy)`. -/
theorem coords_of_step {width u v : ℕ} {dx dy : ℤ} (wide : 3 ≤ width) (unit : |dx| ≤ 1)
    (reach : (v : ℤ) = u + (dx + dy * width))
    (noWrap : u % width ≤ v % width + 1 ∧ v % width ≤ u % width + 1) :
    ((v % width : ℕ) : ℤ) = (u % width : ℕ) + dx ∧
      ((v / width : ℕ) : ℤ) = (u / width : ℕ) + dy := by
  rcases abs_le.mp unit with ⟨dx₁, dx₂⟩
  have splitU : ((u % width : ℕ) : ℤ) + width * (u / width : ℕ) = u := by
    exact_mod_cast Nat.mod_add_div u width
  have splitV : ((v % width : ℕ) : ℤ) + width * (v / width : ℕ) = v := by
    exact_mod_cast Nat.mod_add_div v width
  set k : ℤ := (u / width : ℕ) + dy - (v / width : ℕ) with hk
  have multiple : (width : ℤ) * k = (v % width : ℕ) - (u % width : ℕ) - dx := by
    rw [hk]
    linear_combination splitU - splitV - reach
  have zero : (width : ℤ) * k = 0 :=
    Int.eq_zero_of_abs_lt_dvd ⟨k, rfl⟩ (by rw [multiple, abs_lt]; constructor <;> omega)
  have stay : k = 0 := (mul_eq_zero.mp zero).resolve_left (by omega)
  rw [zero] at multiple
  constructor <;> omega

/-- The length of every non-wrapping step of either table: one for the cardinal offsets
`±1, ±W`, and at most `√2` for the diagonals. -/
theorem step_length_le {width : ℕ} {kind : Neighborhood} {dx dy : ℤ} (wide : 3 ≤ width)
    (member : (dx, dy) ∈ neighborhoodSteps kind) :
    √((dx : ℝ) ^ 2 + (dy : ℝ) ^ 2) ≤
      if dx + dy * width ∈ [-1, 1, -(width : ℤ), width] then 1 else √2 := by
  have squares : (dx : ℝ) ^ 2 + (dy : ℝ) ^ 2 ≤
      if dx + dy * width ∈ [-1, 1, -(width : ℤ), width] then 1 else 2 := by
    cases kind with
    | unknown => simp [neighborhoodSteps] at member
    | vonNeumann =>
      simp only [neighborhoodSteps, List.mem_cons, Prod.mk.injEq, List.not_mem_nil,
        or_false] at member
      rcases member with ⟨rfl, rfl⟩ | ⟨rfl, rfl⟩ | ⟨rfl, rfl⟩ | ⟨rfl, rfl⟩ <;>
        split_ifs <;> norm_num
    | moore =>
      simp only [neighborhoodSteps, List.mem_cons, Prod.mk.injEq, List.not_mem_nil,
        or_false] at member
      rcases member with ⟨rfl, rfl⟩ | ⟨rfl, rfl⟩ | ⟨rfl, rfl⟩ | ⟨rfl, rfl⟩ | ⟨rfl, rfl⟩ |
        ⟨rfl, rfl⟩ | ⟨rfl, rfl⟩ | ⟨rfl, rfl⟩ <;>
        split_ifs with cardinal <;>
        simp only [List.mem_cons, List.not_mem_nil, or_false] at cardinal <;>
        first | omega | norm_num
  split_ifs at squares ⊢
  · exact Real.sqrt_le_one.mpr squares
  · exact Real.sqrt_le_sqrt squares

/-- A non-wrapping step by a table offset from a cell of a grid whose sides a float holds:
getCoords converts the coordinates of both cells exactly, and the heuristic falls by at most the
neutral cost times the step's length. -/
theorem getHeuristicCost_offset_le {width height u v : ℕ} {kind : Neighborhood} {dx dy : ℤ}
    {c : ℝ} (goalCoordinates : Coordinates) (wide : 3 ≤ width) (narrow : width ≤ 2 ^ 24)
    (short : height ≤ 2 ^ 24) (cell : u < width * height) (hc : 0 ≤ c)
    (member : (dx, dy) ∈ neighborhoodSteps kind) (reach : (v : ℤ) = u + (dx + dy * width))
    (noWrap : u % width ≤ v % width + 1 ∧ v % width ≤ u % width + 1) :
    getCoords u width 1 = .ok ⟨(u % width : ℕ), (u / width : ℕ)⟩ ∧
      getCoords v width 1 = .ok ⟨(v % width : ℕ), (v / width : ℕ)⟩ ∧
      getHeuristicCost ⟨(u % width : ℕ), (u / width : ℕ)⟩ goalCoordinates c ≤
        c * (if dx + dy * width ∈ [-1, 1, -(width : ℤ), width] then 1 else √2) +
          getHeuristicCost ⟨(v % width : ℕ), (v / width : ℕ)⟩ goalCoordinates c := by
  have unit := abs_le_one_of_mem_neighborhoodSteps member
  obtain ⟨column, row⟩ := coords_of_step wide unit.1 reach noWrap
  have rowU : u / width < height := (Nat.div_lt_iff_lt_mul (by omega)).mpr (by rwa [mul_comm])
  have rowV : v / width ≤ height := by
    rcases abs_le.mp unit.2 with ⟨dy₁, dy₂⟩
    omega
  have moved : ((v % width : ℕ) : ℝ) - (u % width : ℕ) = dx ∧
      ((v / width : ℕ) : ℝ) - (u / width : ℕ) = dy := by
    have columnReal := congrArg (Int.cast : ℤ → ℝ) column
    have rowReal := congrArg (Int.cast : ℤ → ℝ) row
    simp only [Int.cast_add, Int.cast_natCast] at columnReal rowReal
    exact ⟨sub_eq_iff_eq_add'.mpr columnReal, sub_eq_iff_eq_add'.mpr rowReal⟩
  have bound := getHeuristicCost_le ⟨(u % width : ℕ), (u / width : ℕ)⟩
    ⟨(v % width : ℕ), (v / width : ℕ)⟩ goalCoordinates hc
  simp only [moved.1, moved.2] at bound
  exact ⟨getCoords_exact (by omega) narrow (by omega), getCoords_exact (by omega) narrow (by omega),
    bound.trans (add_le_add_right (mul_le_mul_of_nonneg_left (step_length_le wide member) hc) _)⟩

/-- For every grid at least three cells wide whose sides a float holds, every goal, and every
offset `d` of either table whose step from a cell of the grid does not wrap a row end, the
heuristic falls by at most one neutral cost along a cardinal offset and by at most `√2`
neutral costs along a diagonal. -/
theorem getHeuristicCost_step_le {width height u v : ℕ} {kind : Neighborhood}
    {offsets : List ℤ} {d : ℤ} {c : ℝ} {nodeCoords nextCoords goalCoordinates : Coordinates}
    (wide : 3 ≤ width) (narrow : width ≤ 2 ^ 24) (short : height ≤ 2 ^ 24)
    (cell : u < width * height) (hc : 0 ≤ c)
    (table : initNeighborhoods width kind = .ok offsets) (offset : d ∈ offsets)
    (reach : (v : ℤ) = u + d)
    (noWrap : u % width ≤ v % width + 1 ∧ v % width ≤ u % width + 1)
    (node : getCoords u width 1 = .ok nodeCoords) (next : getCoords v width 1 = .ok nextCoords) :
    getHeuristicCost nodeCoords goalCoordinates c ≤
      c * (if d ∈ [-1, 1, -(width : ℤ), width] then 1 else √2) +
        getHeuristicCost nextCoords goalCoordinates c := by
  have known : kind ≠ .unknown := by
    rintro rfl
    cases table
  rw [initNeighborhoods_eq (by omega) known, Except.ok.injEq] at table
  subst table
  obtain ⟨⟨dx, dy⟩, member, rfl⟩ := List.mem_map.mp offset
  obtain ⟨exactU, exactV, bound⟩ :=
    getHeuristicCost_offset_le goalCoordinates wide narrow short cell hc member reach noWrap
  rw [exactU, Except.ok.injEq] at node
  rw [exactV, Except.ok.injEq] at next
  rwa [← node, ← next]

/-- The von Neumann step `+1` from cell `4` to cell `5` of a 3 × 3 grid, towards the corner. -/
theorem getHeuristicCost_step_right :
    3 ≤ 3 ∧ 3 ≤ 2 ^ 24 ∧ 3 ≤ 2 ^ 24 ∧ 4 < 3 * 3 ∧ (0 : ℝ) ≤ 1 ∧
      initNeighborhoods 3 .vonNeumann = .ok [-1, 1, -3, 3] ∧
      (1 : ℤ) ∈ [-1, 1, -3, 3] ∧ ((5 : ℕ) : ℤ) = (4 : ℕ) + 1 ∧
      (4 % 3 ≤ 5 % 3 + 1 ∧ 5 % 3 ≤ 4 % 3 + 1) ∧
      getCoords 4 3 1 = .ok ⟨1, 1⟩ ∧ getCoords 5 3 1 = .ok ⟨2, 1⟩ ∧
      getHeuristicCost ⟨1, 1⟩ ⟨0, 0⟩ 1 ≤
        1 * (if (1 : ℤ) ∈ [-1, 1, -((3 : ℕ) : ℤ), ((3 : ℕ) : ℤ)] then 1 else √2) +
          getHeuristicCost ⟨2, 1⟩ ⟨0, 0⟩ 1 := by
  have table : initNeighborhoods 3 .vonNeumann = .ok [-1, 1, -3, 3] := rfl
  have offset : (1 : ℤ) ∈ [-1, 1, -3, 3] := by decide
  have reach : ((5 : ℕ) : ℤ) = (4 : ℕ) + 1 := rfl
  have noWrap : 4 % 3 ≤ 5 % 3 + 1 ∧ 5 % 3 ≤ 4 % 3 + 1 := by decide
  have node : getCoords 4 3 1 = .ok ⟨1, 1⟩ := by simp [floatOfUnsigned]
  have next : getCoords 5 3 1 = .ok ⟨2, 1⟩ := by simp [floatOfUnsigned]
  exact ⟨le_rfl, by norm_num, by norm_num, by norm_num, zero_le_one, table, offset, reach,
    noWrap, node, next, getHeuristicCost_step_le le_rfl (by norm_num) (by norm_num)
      (by norm_num : 4 < 3 * 3) zero_le_one table offset reach noWrap node next⟩

/-- The bound `h(u) ≤ c + h(v)` with one neutral step fails on a 3 × 3 grid with neutral cost
one, both for the diagonal Moore offset `W + 1` from cell 4 to cell 8 and for the von Neumann
offset `+1` from cell 5, which wraps to cell 6 on the next row; the goal is the cell reached. -/
theorem getHeuristicCost_diagonal_and_wrap :
    initNeighborhoods 3 .moore = .ok [-1, 1, -3, 3, -4, -2, 2, 4] ∧
      getCoords 4 3 1 = .ok ⟨1, 1⟩ ∧ getCoords 8 3 1 = .ok ⟨2, 2⟩ ∧
      1 + getHeuristicCost ⟨2, 2⟩ ⟨2, 2⟩ 1 < getHeuristicCost ⟨1, 1⟩ ⟨2, 2⟩ 1 ∧
      initNeighborhoods 3 .vonNeumann = .ok [-1, 1, -3, 3] ∧
      getCoords 5 3 1 = .ok ⟨2, 1⟩ ∧ getCoords 6 3 1 = .ok ⟨0, 2⟩ ∧
      1 + getHeuristicCost ⟨0, 2⟩ ⟨0, 2⟩ 1 < getHeuristicCost ⟨2, 1⟩ ⟨0, 2⟩ 1 := by
  refine ⟨rfl, by simp [floatOfUnsigned], by simp [floatOfUnsigned], ?_, rfl,
    by simp [floatOfUnsigned], by simp [floatOfUnsigned], ?_⟩
  · norm_num [getHeuristicCost]
    exact Real.lt_sqrt_of_sq_lt (by norm_num)
  · norm_num [getHeuristicCost]
    exact Real.lt_sqrt_of_sq_lt (by norm_num)

end SmacPlanner
