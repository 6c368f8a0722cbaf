import SmacPlanner.Heuristic

namespace SmacPlanner

/-- `getHeuristicCost` of a cell, at the coordinates getCoords gives it. -/
noncomputable def cellHeuristic (width : ℕ) (goalCoordinates : Coordinates) (neutralCost : ℝ)
    (cell : ℕ) : ℝ :=
  match getCoords cell width 1 with
  | .ok coords => getHeuristicCost coords goalCoordinates neutralCost
  | .error _ => 0

/-- The length of the step from cell `u` to cell `v`: one for a cardinal offset `±1, ±W`,
`√2` otherwise. -/
noncomputable def stepLength (width u v : ℕ) : ℝ :=
  if (v : ℤ) - u ∈ [-1, 1, -(width : ℤ), width] then 1 else √2

/-- getNeighbors, called for a node at cell `u`, returns a node at cell `v`. -/
def Offers (offsets : List ℤ) (checker : ℕ → Option Node2D) (u v : ℕ) : Prop :=
  ∃ node : Node2D, node.index = u ∧ ∃ neighbor ∈ getNeighbors offsets node checker [],
    neighbor.index = v

/-- The column moves by at most one: the step does not wrap a row end. -/
def NoWrap (width u v : ℕ) : Prop := u % width ≤ v % width + 1 ∧ v % width ≤ u % width + 1

/-- A run of expansions on a `width × height` grid from `start` to a cell, of geometric length
`length`: each step goes from a cell of the grid to a cell getNeighbors offers, without
wrapping a row. -/
inductive ExpansionRun (offsets : List ℤ) (checker : ℕ → Option Node2D) (width height start : ℕ) :
    ℕ → ℝ → Prop
  | start : ExpansionRun offsets checker width height start start 0
  | next {u v : ℕ} {length : ℝ} : ExpansionRun offsets checker width height start u length →
      u < width * height → Offers offsets checker u v → NoWrap width u v →
      ExpansionRun offsets checker width height start v (length + stepLength width u v)

/-- With a checker that answers for the cell it is asked about, every node getNeighbors
returns sits at a table offset from the node's cell, past the `index > 0` test. -/
theorem Offers.offset {offsets : List ℤ} {checker : ℕ → Option Node2D} {u v : ℕ}
    (honest : ∀ i neighbor, checker i = some neighbor → neighbor.index = i)
    (offers : Offers offsets checker u v) :
    ∃ d ∈ offsets, 0 < addInt (toSigned u) d ∧ (addInt (toSigned u) d).toNat = v := by
  obtain ⟨node, rfl, neighbor, member, rfl⟩ := offers
  rw [getNeighbors_eq, List.nil_append, List.mem_filterMap] at member
  obtain ⟨d, offset, found⟩ := member
  split_ifs at found with positive
  exact ⟨d, offset, positive, (honest _ _ found).symm⟩

/-- One non-wrapping step by a table offset from a cell of the grid lowers the heuristic by at
most the neutral cost times the step's length. -/
theorem cellHeuristic_offset_le {width height u v : ℕ} {kind : Neighborhood} {dx dy : ℤ} {c : ℝ}
    (goalCoordinates : Coordinates) (wide : 3 ≤ width) (narrow : width ≤ 2 ^ 24)
    (short : height ≤ 2 ^ 24) (cell : u < width * height) (hc : 0 ≤ c)
    (member : (dx, dy) ∈ neighborhoodSteps kind) (reach : (v : ℤ) = u + (dx + dy * width))
    (noWrap : NoWrap width u v) :
    cellHeuristic width goalCoordinates c u ≤
      c * stepLength width u v + cellHeuristic width goalCoordinates c v := by
  obtain ⟨exactU, exactV, bound⟩ :=
    getHeuristicCost_offset_le goalCoordinates wide narrow short cell hc member reach noWrap
  have offset : (v : ℤ) - u = dx + dy * width := by rw [reach]; ring
  unfold cellHeuristic stepLength
  rwa [exactU, exactV, offset]

section Runs

variable {width height : ℕ} {kind : Neighborhood} {offsets : List ℤ}
  {checker : ℕ → Option Node2D} {c : ℝ} (goalCoordinates : Coordinates) (wide : 3 ≤ width)
  (narrow : width ≤ 2 ^ 24) (short : height ≤ 2 ^ 24) (fits : width * height ≤ 2 ^ 31)
  (hc : 0 ≤ c) (table : initNeighborhoods width kind = .ok offsets)
  (honest : ∀ i neighbor, checker i = some neighbor → neighbor.index = i)
include wide narrow short fits hc table honest

/-- One expansion from a cell of the grid lowers the heuristic by at most the neutral cost
times the step's length: the `int` index of an offered cell did not overflow, since an
overflow from a cell below `2 ^ 31` gives a negative index, which the `index > 0` test
drops. -/
theorem cellHeuristic_step_le {u v : ℕ} (cell : u < width * height)
    (offers : Offers offsets checker u v) (noWrap : NoWrap width u v) :
    cellHeuristic width goalCoordinates c u ≤
      c * stepLength width u v + cellHeuristic width goalCoordinates c v := by
  obtain ⟨d, offset, positive, reach⟩ := offers.offset honest
  rw [toSigned_of_lt (by omega)] at positive reach
  have known : kind ≠ .unknown := by
    rintro rfl
    cases table
  rw [initNeighborhoods_eq (by omega) known, Except.ok.injEq] at table
  subst table
  obtain ⟨⟨dx, dy⟩, member, rfl⟩ := List.mem_map.mp offset
  have unit := abs_le_one_of_mem_neighborhoodSteps member
  have near := abs_step_le width unit.1 unit.2
  dsimp only at positive reach near
  rcases abs_le.mp near with ⟨low, high⟩
  have sum := addInt_of_pos (by omega) (by omega) (by omega) (by omega) positive
  rw [sum] at positive reach
  exact cellHeuristic_offset_le goalCoordinates wide narrow short cell hc member (by omega) noWrap

theorem ExpansionRun.cellHeuristic_le {start finish : ℕ} {length : ℝ}
    (run : ExpansionRun offsets checker width height start finish length) :
    cellHeuristic width goalCoordinates c start ≤
      c * length + cellHeuristic width goalCoordinates c finish := by
  induction run with
  | start => simp
  | next _ cell offers noWrap ih =>
    have step := cellHeuristic_step_le goalCoordinates wide narrow short fits hc table honest cell
      offers noWrap
    rw [mul_add]
    linarith

/-- Along every run of non-wrapping expansions on a grid that fits an `int` and whose sides a
float holds, the heuristic of the start exceeds the heuristic of the cell reached by at most
the neutral cost times the run's length; in particular it never exceeds that product when the
goal is the cell reached, at the coordinates getCoords gives it. -/
theorem ExpansionRun.heuristic_le_length {start finish : ℕ} {length : ℝ}
    (run : ExpansionRun offsets checker width height start finish length) :
    cellHeuristic width goalCoordinates c start ≤
        c * length + cellHeuristic width goalCoordinates c finish ∧
      ∀ goal, getCoords finish width 1 = .ok goal →
        cellHeuristic width goal c start ≤ c * length := by
  refine ⟨run.cellHeuristic_le goalCoordinates wide narrow short fits hc table honest,
    fun goal found => ?_⟩
  have atGoal : cellHeuristic width goal c finish = 0 := by
    simp [cellHeuristic, found, getHeuristicCost]
  have reached := run.cellHeuristic_le goal wide narrow short fits hc table honest
  rwa [atGoal, add_zero] at reached

end Runs

/-- The run `4 → 5 → 8` on a 3 × 3 grid with the von Neumann table, a checker that accepts
every cell, and the goal at cell `0`. -/
theorem centerRun_heuristic_le :
    3 ≤ 3 ∧ 3 ≤ 2 ^ 24 ∧ 3 ≤ 2 ^ 24 ∧ 3 * 3 ≤ 2 ^ 31 ∧ (0 : ℝ) ≤ 1 ∧
      initNeighborhoods 3 .vonNeumann = .ok [-1, 1, -3, 3] ∧
      (∀ i neighbor, some (Node2D.reset 0 i) = some neighbor → neighbor.index = i) ∧
      ExpansionRun [-1, 1, -3, 3] (fun i => some (Node2D.reset 0 i)) 3 3 4 8
        (0 + stepLength 3 4 5 + stepLength 3 5 8) ∧
      (cellHeuristic 3 ⟨0, 0⟩ 1 4 ≤
          1 * (0 + stepLength 3 4 5 + stepLength 3 5 8) + cellHeuristic 3 ⟨0, 0⟩ 1 8 ∧
        ∀ goal, getCoords 8 3 1 = .ok goal →
          cellHeuristic 3 goal 1 4 ≤ 1 * (0 + stepLength 3 4 5 + stepLength 3 5 8)) := by
  have honest : ∀ i neighbor, some (Node2D.reset 0 i) = some neighbor → neighbor.index = i := by
    rintro i neighbor ⟨⟩
    rfl
  have fromFour : getNeighbors [-1, 1, -3, 3] (Node2D.reset 0 4)
      (fun i => some (Node2D.reset 0 i)) [] =
        [Node2D.reset 0 3, Node2D.reset 0 5, Node2D.reset 0 1, Node2D.reset 0 7] := rfl
  have fromFive : getNeighbors [-1, 1, -3, 3] (Node2D.reset 0 5)
      (fun i => some (Node2D.reset 0 i)) [] =
        [Node2D.reset 0 4, Node2D.reset 0 6, Node2D.reset 0 2, Node2D.reset 0 8] := rfl
  have run : ExpansionRun [-1, 1, -3, 3] (fun i => some (Node2D.reset 0 i)) 3 3 4 8
      (0 + stepLength 3 4 5 + stepLength 3 5 8) :=
    .next (.next .start (by norm_num)
        ⟨Node2D.reset 0 4, rfl, Node2D.reset 0 5, fromFour ▸ .tail _ (.head _), rfl⟩
        ⟨by norm_num, by norm_num⟩) (by norm_num)
      ⟨Node2D.reset 0 5, rfl, Node2D.reset 0 8, fromFive ▸ .tail _ (.tail _ (.tail _ (.head _))),
        rfl⟩
      ⟨by norm_num, by norm_num⟩
  have table : initNeighborhoods 3 .vonNeumann = .ok [-1, 1, -3, 3] := rfl
  exact ⟨le_rfl, by norm_num, by norm_num, by norm_num, zero_le_one, table, honest, run,
    ExpansionRun.heuristic_le_length ⟨0, 0⟩ le_rfl (by norm_num) (by norm_num) (by norm_num)
      zero_le_one table honest run⟩

end SmacPlanner
