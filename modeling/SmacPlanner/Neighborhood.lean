import SmacPlanner.GridIndex

namespace SmacPlanner

/-- The steps `(dx, dy)` of each neighborhood, in the order of its offset table: the cardinal
steps first, then the diagonals. -/
def neighborhoodSteps : Neighborhood → List (ℤ × ℤ)
  | .unknown => []
  | .vonNeumann => [(-1, 0), (1, 0), (0, -1), (0, 1)]
  | .moore => [(-1, 0), (1, 0), (0, -1), (0, 1), (-1, -1), (1, -1), (-1, 1), (1, 1)]

theorem eq_neg_one_or_zero_or_one {d : ℤ} (unit : |d| ≤ 1) : d = -1 ∨ d = 0 ∨ d = 1 := by
  rcases abs_le.mp unit with ⟨below, above⟩
  omega

theorem mem_neighborhoodSteps_vonNeumann {step : ℤ × ℤ} :
    step ∈ neighborhoodSteps .vonNeumann ↔ |step.1| + |step.2| = 1 := by
  obtain ⟨dx, dy⟩ := step
  simp only [neighborhoodSteps, List.mem_cons, Prod.mk.injEq, List.mem_singleton,
    List.not_mem_nil, or_false]
  constructor
  · rintro (⟨rfl, rfl⟩ | ⟨rfl, rfl⟩ | ⟨rfl, rfl⟩ | ⟨rfl, rfl⟩) <;> decide
  · intro unit
    have column : |dx| ≤ 1 := by linarith [abs_nonneg dy]
    have row : |dy| ≤ 1 := by linarith [abs_nonneg dx]
    obtain rfl | rfl | rfl := eq_neg_one_or_zero_or_one column
    all_goals obtain rfl | rfl | rfl := eq_neg_one_or_zero_or_one row
    all_goals first | decide | norm_num at unit

theorem mem_neighborhoodSteps_moore {step : ℤ × ℤ} :
    step ∈ neighborhoodSteps .moore ↔ max |step.1| |step.2| = 1 := by
  obtain ⟨dx, dy⟩ := step
  simp only [neighborhoodSteps, List.mem_cons, Prod.mk.injEq, List.mem_singleton,
    List.not_mem_nil, or_false]
  constructor
  · rintro (⟨rfl, rfl⟩ | ⟨rfl, rfl⟩ | ⟨rfl, rfl⟩ | ⟨rfl, rfl⟩ | ⟨rfl, rfl⟩ | ⟨rfl, rfl⟩ |
      ⟨rfl, rfl⟩ | ⟨rfl, rfl⟩) <;> decide
  · intro unit
    have column : |dx| ≤ 1 := unit ▸ le_max_left |dx| |dy|
    have row : |dy| ≤ 1 := unit ▸ le_max_right |dx| |dy|
    obtain rfl | rfl | rfl := eq_neg_one_or_zero_or_one column
    all_goals obtain rfl | rfl | rfl := eq_neg_one_or_zero_or_one row
    all_goals first | decide | simp at unit

theorem abs_le_one_of_mem_neighborhoodSteps {kind : Neighborhood} {step : ℤ × ℤ}
    (member : step ∈ neighborhoodSteps kind) : |step.1| ≤ 1 ∧ |step.2| ≤ 1 := by
  cases kind with
  | unknown => simp [neighborhoodSteps] at member
  | vonNeumann =>
    have := mem_neighborhoodSteps_vonNeumann.mp member
    constructor <;> linarith [abs_nonneg step.1, abs_nonneg step.2]
  | moore =>
    have := mem_neighborhoodSteps_moore.mp member
    exact ⟨this ▸ le_max_left _ _, this ▸ le_max_right _ _⟩

/-- For a width that fits an `int`, the offset table encodes each step as `dx + dy * W`. -/
theorem initNeighborhoods_eq {width : ℕ} {kind : Neighborhood} (fits : width < 2 ^ 31)
    (known : kind ≠ .unknown) :
    initNeighborhoods width kind =
      .ok ((neighborhoodSteps kind).map fun step => step.1 + step.2 * width) := by
  cases kind with
  | unknown => exact absurd rfl known
  | vonNeumann =>
    refine congrArg Except.ok ?_
    simp only [toSigned_of_lt fits, neighborhoodSteps, List.map_cons, List.map_nil,
      List.cons.injEq, and_true]
    omega
  | moore =>
    refine congrArg Except.ok ?_
    simp only [toSigned_of_lt fits, neighborhoodSteps, List.map_cons, List.map_nil,
      List.cons.injEq, and_true]
    omega

theorem getNeighbors_eq {α : Type} (offsets : List ℤ) (node : Node2D)
    (validityChecker : ℕ → Option α) (neighbors : List α) :
    getNeighbors offsets node validityChecker neighbors =
      neighbors ++ offsets.filterMap fun offset =>
        if 0 < addInt (toSigned node.index) offset then
          validityChecker (addInt (toSigned node.index) offset).toNat
        else none := by
  induction offsets generalizing neighbors with
  | nil => simp [getNeighbors]
  | cons offset rest ih =>
    simp only [getNeighbors, List.foldl_cons] at ih ⊢
    rw [ih, List.filterMap_cons]
    split_ifs with positive
    · cases validityChecker (addInt (toSigned node.index) offset).toNat <;> simp
    · simp

/-- A step of at most one cell in each direction moves the index by at most `W + 1`. -/
theorem abs_step_le (width : ℕ) {step : ℤ × ℤ} (dx : |step.1| ≤ 1) (dy : |step.2| ≤ 1) :
    |step.1 + step.2 * width| ≤ width + 1 :=
  calc |step.1 + step.2 * width| ≤ |step.1| + |step.2| * width := by
        simpa only [abs_mul, Nat.abs_cast] using abs_add step.1 (step.2 * width)
    _ ≤ 1 + 1 * width := add_le_add dx (mul_le_mul_of_nonneg_right dy (Nat.cast_nonneg _))
    _ = width + 1 := by ring

/-- Stepping from an interior cell never leaves the grid or wraps a row, so the offset
index is the index of the shifted cell, and the `int` sum does not overflow. -/
theorem interior_step_index {width height x y : ℕ} {step : ℤ × ℤ}
    (fits : width * height < 2 ^ 31) (left : 0 < x) (right : x + 1 < width) (below : 0 < y)
    (above : y + 1 < height) (dx : |step.1| ≤ 1) (dy : |step.2| ≤ 1) :
    addInt (toSigned (getIndex x y width)) (step.1 + step.2 * width) =
      getIndex ((x : ℤ) + step.1).toNat ((y : ℤ) + step.2).toNat width := by
  rcases abs_le.mp dx with ⟨dx₁, dx₂⟩
  rcases abs_le.mp dy with ⟨dy₁, dy₂⟩
  obtain ⟨a, ha⟩ : ∃ a : ℕ, (a : ℤ) = x + step.1 := ⟨_, Int.toNat_of_nonneg (by omega)⟩
  obtain ⟨b, hb⟩ : ∃ b : ℕ, (b : ℤ) = y + step.2 := ⟨_, Int.toNat_of_nonneg (by omega)⟩
  rw [← ha, ← hb, Int.toNat_natCast, Int.toNat_natCast]
  have column : a < width := by omega
  have row : b < height := by omega
  have original := (index_lt_of_lt (show x < width by omega) (show y < height by omega)).trans fits
  have shifted := (index_lt_of_lt column row).trans fits
  have sum : (x + y * width : ℕ) + (step.1 + step.2 * width) = (a + b * width : ℕ) := by
    push_cast
    rw [ha, hb]
    ring
  rw [getIndex, getIndex, Nat.mod_eq_of_lt (by omega), Nat.mod_eq_of_lt (by omega),
    toSigned_of_lt original, addInt_of_lt (by omega) (by omega), sum]

/-- What getNeighbors appends for an interior cell: the checker's node for each step of the
table, tested on the index of the shifted cell, with index `0` excluded by the `index > 0`
test. -/
theorem getNeighbors_interior {α : Type} {width height x y : ℕ} {kind : Neighborhood}
    {offsets : List ℤ} {node : Node2D} (validityChecker : ℕ → Option α)
    (fits : width * height < 2 ^ 31) (known : kind ≠ .unknown)
    (table : initNeighborhoods width kind = .ok offsets) (indexed : node.index = getIndex x y width)
    (left : 0 < x) (right : x + 1 < width) (below : 0 < y) (above : y + 1 < height) :
    getNeighbors offsets node validityChecker [] =
      (neighborhoodSteps kind).filterMap fun step =>
        let cell := getIndex ((x : ℤ) + step.1).toNat ((y : ℤ) + step.2).toNat width
        if 0 < cell then validityChecker cell else none := by
  have widthFits : width < 2 ^ 31 :=
    (Nat.le_mul_of_pos_right width (show 0 < height by omega)).trans_lt fits
  rw [initNeighborhoods_eq widthFits known, Except.ok.injEq] at table
  subst table
  rw [getNeighbors_eq, List.nil_append, List.filterMap_map]
  refine List.filterMap_congr fun step member => ?_
  have unit := abs_le_one_of_mem_neighborhoodSteps member
  simp only [Function.comp_apply, indexed, Nat.cast_pos, Int.toNat_natCast,
    interior_step_index fits left right below above unit.1 unit.2]

/-- When a step past the last cell still fits an `int`, the index a step tests from any cell
is the row-major index of the shifted position, whether or not that position is on the
grid. -/
theorem step_index {width height x y : ℕ} {step : ℤ × ℤ} (fits : width * height + width + 1 ≤ 2 ^ 31)
    (column : x < width) (row : y < height) (dx : |step.1| ≤ 1) (dy : |step.2| ≤ 1) :
    addInt (toSigned (getIndex x y width)) (step.1 + step.2 * width) =
      x + step.1 + (y + step.2) * width := by
  rcases abs_le.mp (abs_step_le width dx dy) with ⟨low, high⟩
  have cell := index_lt_of_lt column row
  have sum : ((x + y * width : ℕ) : ℤ) + (step.1 + step.2 * width) =
      x + step.1 + (y + step.2) * width := by
    push_cast
    ring
  rw [getIndex, Nat.mod_eq_of_lt (by omega), toSigned_of_lt (by omega),
    addInt_of_lt (by omega) (by omega), sum]

/-- getCoords of a positive row-major index `column + row * W`: the column is reduced modulo
`W` and what it overflows by moves the row. -/
theorem getCoords_of_int {width : ℕ} (wide : 0 < width) (narrow : width ≤ 2 ^ 24) (column row : ℤ)
    (positive : 0 < column + row * width) (high : row + column / width ≤ 2 ^ 24) :
    getCoords (column + row * width).toNat width 1 =
      .ok ⟨(column % width : ℤ), (row + column / width : ℤ)⟩ := by
  have cast : ((column + row * width).toNat : ℤ) = column + row * width :=
    Int.toNat_of_nonneg positive.le
  have columnCast : (((column + row * width).toNat % width : ℕ) : ℤ) = column % width := by
    push_cast
    rw [cast, Int.add_mul_emod_self]
  have rowCast : (((column + row * width).toNat / width : ℕ) : ℤ) = row + column / width := by
    push_cast
    rw [cast, Int.add_mul_ediv_right _ _ (by omega), add_comm]
  rw [getCoords_exact wide narrow (by omega), ← columnCast, ← rowCast]
  simp only [Int.cast_natCast]

/-- What getNeighbors appends for every cell of a grid on which a step past the last cell
still fits an `int`, border cells included: the checker's node for each step of the table,
asked about the row-major index of the shifted position when that index is positive. When a
float holds the grid's sides, getCoords of that cell is the shifted position with its column
reduced modulo `W`: a step off the right border lands in the first column of the next row, a
step off the left border in the last column of the previous row. -/
theorem getNeighbors_cell {α : Type} {width height x y : ℕ} {kind : Neighborhood}
    {offsets : List ℤ} {node : Node2D} (validityChecker : ℕ → Option α)
    (fits : width * height + width + 1 ≤ 2 ^ 31) (known : kind ≠ .unknown)
    (table : initNeighborhoods width kind = .ok offsets) (indexed : node.index = getIndex x y width)
    (column : x < width) (row : y < height) :
    getNeighbors offsets node validityChecker [] =
        (neighborhoodSteps kind).filterMap (fun step =>
          let cell : ℤ := x + step.1 + (y + step.2) * width
          if 0 < cell then validityChecker cell.toNat else none) ∧
      (width ≤ 2 ^ 24 → height < 2 ^ 24 →
        ∀ step ∈ neighborhoodSteps kind, 0 < (x + step.1 + (y + step.2) * width : ℤ) →
          getCoords (x + step.1 + (y + step.2) * width : ℤ).toNat width 1 =
            .ok ⟨((x + step.1) % width : ℤ), (y + step.2 + (x + step.1) / width : ℤ)⟩) := by
  refine ⟨?_, fun narrow short step member positive => ?_⟩
  · rw [initNeighborhoods_eq (by omega) known, Except.ok.injEq] at table
    subst table
    rw [getNeighbors_eq, List.nil_append, List.filterMap_map]
    refine List.filterMap_congr fun step member => ?_
    have unit := abs_le_one_of_mem_neighborhoodSteps member
    simp only [Function.comp_apply, indexed, step_index fits column row unit.1 unit.2]
  · have unit := abs_le_one_of_mem_neighborhoodSteps member
    rcases abs_le.mp unit.1 with ⟨dx₁, dx₂⟩
    rcases abs_le.mp unit.2 with ⟨dy₁, dy₂⟩
    have carry : (x + step.1) / (width : ℤ) < 2 :=
      Int.ediv_lt_of_lt_mul (by omega) (by omega)
    exact getCoords_of_int (by omega) narrow _ _ positive (by omega)

/-- The cell `(2, 1)` on the right border of a 3 × 3 grid, with a checker that accepts every
index: its `+1` step is asked about cell `6`, the first cell of the next row. -/
theorem getNeighbors_cell_right_border :
    3 * 3 + 3 + 1 ≤ 2 ^ 31 ∧ Neighborhood.vonNeumann ≠ .unknown ∧
      initNeighborhoods 3 .vonNeumann = .ok [-1, 1, -3, 3] ∧
      (Node2D.reset 0 (getIndex 2 1 3)).index = getIndex 2 1 3 ∧ 2 < 3 ∧ 1 < 3 ∧
      getNeighbors [-1, 1, -3, 3] (Node2D.reset 0 (getIndex 2 1 3)) some [] =
        (neighborhoodSteps .vonNeumann).filterMap (fun step =>
          let cell : ℤ := ((2 : ℕ) : ℤ) + step.1 + (((1 : ℕ) : ℤ) + step.2) * ((3 : ℕ) : ℤ)
          if 0 < cell then some cell.toNat else none) ∧
      (3 ≤ 2 ^ 24 ∧ 3 < 2 ^ 24) ∧
      ∀ step ∈ neighborhoodSteps .vonNeumann,
        0 < (((2 : ℕ) : ℤ) + step.1 + (((1 : ℕ) : ℤ) + step.2) * ((3 : ℕ) : ℤ)) →
        getCoords (((2 : ℕ) : ℤ) + step.1 + (((1 : ℕ) : ℤ) + step.2) * ((3 : ℕ) : ℤ)).toNat 3 1 =
          .ok ⟨((((2 : ℕ) : ℤ) + step.1) % ((3 : ℕ) : ℤ) : ℤ),
            (((1 : ℕ) : ℤ) + step.2 + (((2 : ℕ) : ℤ) + step.1) / ((3 : ℕ) : ℤ) : ℤ)⟩ := by
  have settled := @getNeighbors_cell ℕ 3 3 2 1 .vonNeumann [-1, 1, -3, 3]
    (Node2D.reset 0 (getIndex 2 1 3)) some (by norm_num) (by decide) rfl rfl (by norm_num)
    (by norm_num)
  exact ⟨by norm_num, by decide, rfl, rfl, by norm_num, by norm_num, settled.1,
    ⟨by norm_num, by norm_num⟩, settled.2 (by norm_num) (by norm_num)⟩

/-- The centre of a 3 × 3 grid, with a checker that accepts every index. -/
theorem getNeighbors_interior_center :
    3 * 3 < 2 ^ 31 ∧ Neighborhood.moore ≠ .unknown ∧
      initNeighborhoods 3 .moore = .ok [-1, 1, -3, 3, -4, -2, 2, 4] ∧
      (Node2D.reset 0 (getIndex 1 1 3)).index = getIndex 1 1 3 ∧
      0 < 1 ∧ 1 + 1 < 3 ∧ 0 < 1 ∧ 1 + 1 < 3 ∧
      getNeighbors [-1, 1, -3, 3, -4, -2, 2, 4] (Node2D.reset 0 (getIndex 1 1 3)) some [] =
        (neighborhoodSteps .moore).filterMap fun step =>
          let cell := getIndex (((1 : ℕ) : ℤ) + step.1).toNat (((1 : ℕ) : ℤ) + step.2).toNat 3
          if 0 < cell then some cell else none :=
  ⟨by norm_num, by decide, rfl, rfl, by norm_num, by norm_num, by norm_num, by norm_num,
    @getNeighbors_interior ℕ 3 3 1 1 .moore _ _ some (by norm_num) (by decide) rfl rfl
      (by norm_num) (by norm_num) (by norm_num) (by norm_num)⟩

/-- From the interior cell `(1, 1)` of a 3 × 3 grid, the Moore table reaches the corner cell
`(0, 0)`, but getNeighbors drops it: it returns seven neighbours, not eight. -/
theorem getNeighbors_drops_corner :
    initNeighborhoods 3 .moore = .ok [-1, 1, -3, 3, -4, -2, 2, 4] ∧
      getCoords (getIndex 1 1 3 + -4 : ℤ).toNat 3 1 = .ok ⟨0, 0⟩ ∧
      getNeighbors [-1, 1, -3, 3, -4, -2, 2, 4] (Node2D.reset 0 (getIndex 1 1 3)) some [] =
        [3, 5, 1, 7, 2, 6, 8] := by
  refine ⟨rfl, ?_, rfl⟩
  simp [getIndex, floatOfUnsigned]

end SmacPlanner
