import SmacPlanner.Node2D
import Mathlib.Algebra.Order.Floor

namespace SmacPlanner

/-- A cell of a `width × height` grid has a row-major index below `width * height`. -/
theorem index_lt_of_lt {x y width height : ℕ} (column : x < width) (row : y < height) :
    x + y * width < width * height :=
  calc x + y * width < width + y * width := Nat.add_lt_add_right column _
    _ = (y + 1) * width := by ring
    _ ≤ height * width := Nat.mul_le_mul_right _ row
    _ = width * height := Nat.mul_comm _ _

/-- On a grid of at most `2 ^ 32` cells the `unsigned int` index of a cell does not wrap. -/
theorem getIndex_of_lt {x y width height : ℕ} (column : x < width) (row : y < height)
    (fits : width * height ≤ 2 ^ 32) : getIndex x y width = x + y * width :=
  Nat.mod_eq_of_lt ((index_lt_of_lt column row).trans_le fits)

/-- On a grid at most `2 ^ 24` wide, getCoords of an index at most `2 ^ 24` rows down converts
both coordinates to float exactly. -/
theorem getCoords_exact {index width : ℕ} (wide : 0 < width) (narrow : width ≤ 2 ^ 24)
    (row : index / width ≤ 2 ^ 24) :
    getCoords index width 1 = .ok ⟨(index % width : ℕ), (index / width : ℕ)⟩ := by
  rw [getCoords_one, floatOfUnsigned_of_le ((Nat.mod_lt _ wide).le.trans narrow),
    floatOfUnsigned_of_le row]

theorem getCoords_of_lt {x y width : ℕ} (column : x < width) (narrow : width ≤ 2 ^ 24)
    (row : y ≤ 2 ^ 24) : getCoords (x + y * width) width 1 = .ok ⟨x, y⟩ := by
  have below : 0 < width := by omega
  have split : (x + y * width) % width = x ∧ (x + y * width) / width = y := by
    rw [Nat.add_mul_mod_self_right, Nat.mod_eq_of_lt column, Nat.add_mul_div_right _ _ below,
      Nat.div_eq_of_lt column, zero_add]
    exact ⟨rfl, rfl⟩
  rw [getCoords_exact below narrow (by rw [split.2]; exact row), split.1, split.2]

/-- The flat index and the coordinates are inverse on every grid of at most `2 ^ 32` cells
whose sides a float holds exactly: the index of a cell does not wrap and getCoords gives the
cell back, the index of the coordinates of a cell index is that index, and both conversions
to float that getCoords makes are exact. -/
theorem getCoords_getIndex {width height : ℕ} (fits : width * height ≤ 2 ^ 32)
    (narrow : width ≤ 2 ^ 24) (short : height ≤ 2 ^ 24) :
    (∀ x < width, ∀ y < height, getIndex x y width < width * height ∧
        getCoords (getIndex x y width) width 1 = .ok ⟨x, y⟩) ∧
      (∀ i < width * height, ∃ coords, getCoords i width 1 = .ok coords ∧
        getIndex ⌊coords.x⌋₊ ⌊coords.y⌋₊ width = i) ∧
      ∀ i < width * height,
        floatOfUnsigned (i % width) = i % width ∧ floatOfUnsigned (i / width) = i / width := by
  refine ⟨fun x column y row => ?_, fun i cell => ?_, fun i cell => ?_⟩
  · rw [getIndex_of_lt column row fits]
    exact ⟨index_lt_of_lt column row, getCoords_of_lt column narrow (row.le.trans short)⟩
  · have wide : 0 < width := Nat.pos_of_mul_pos_right (Nat.zero_lt_of_lt cell)
    have row : i / width < height := (Nat.div_lt_iff_lt_mul wide).mpr (by rwa [mul_comm])
    refine ⟨_, getCoords_exact wide narrow (row.le.trans short), ?_⟩
    rw [Nat.floor_natCast, Nat.floor_natCast, getIndex, Nat.mod_add_div',
      Nat.mod_eq_of_lt (cell.trans_le fits)]
  · have wide : 0 < width := Nat.pos_of_mul_pos_right (Nat.zero_lt_of_lt cell)
    have row : i / width < height := (Nat.div_lt_iff_lt_mul wide).mpr (by rwa [mul_comm])
    exact ⟨floatOfUnsigned_of_le ((Nat.mod_lt i wide).le.trans narrow),
      floatOfUnsigned_of_le (row.le.trans short)⟩

theorem getCoords_getIndex_three :
    (3 * 3 ≤ 2 ^ 32 ∧ 3 ≤ 2 ^ 24 ∧ 3 ≤ 2 ^ 24) ∧
      (∀ x < 3, ∀ y < 3, getIndex x y 3 < 3 * 3 ∧ getCoords (getIndex x y 3) 3 1 = .ok ⟨x, y⟩) ∧
      (∀ i < 3 * 3, ∃ coords, getCoords i 3 1 = .ok coords ∧
        getIndex ⌊coords.x⌋₊ ⌊coords.y⌋₊ 3 = i) ∧
      ∀ i < 3 * 3, floatOfUnsigned (i % 3) = i % 3 ∧ floatOfUnsigned (i / 3) = i / 3 :=
  ⟨by norm_num, getCoords_getIndex (by norm_num) (by norm_num) (by norm_num)⟩

end SmacPlanner
