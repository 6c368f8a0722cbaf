import Mathlib.Data.Real.Sqrt

namespace SmacPlanner

/-- Modelled from the spec: the neighborhood kinds of constants.hpp, which is not part of
the sources. `unknown` is the kind initNeighborhoods rejects. -/
inductive Neighborhood
  | unknown
  | vonNeumann
  | moore
  deriving DecidableEq, Repr

/-- Modelled from the spec: the shared 8-bit cost codes of constants.hpp. Their values are
not in the sources, so every result here holds for any choice of them. -/
structure CostCodes where
  free : ℕ
  unknown : ℕ
  inscribed : ℕ
  occupied : ℕ
  maxNonObstacle : ℕ
  deriving DecidableEq, Repr

/-- `static_cast<int>` of an `unsigned int`: two's complement reading of the low 32 bits. -/
def toSigned (n : ℕ) : ℤ :=
  if n % 2 ^ 32 < 2 ^ 31 then (n % 2 ^ 32 : ℕ) else (n % 2 ^ 32 : ℕ) - 2 ^ 32

theorem toSigned_of_lt {n : ℕ} (small : n < 2 ^ 31) : toSigned n = n := by
  have low : n % 2 ^ 32 = n := Nat.mod_eq_of_lt (by omega)
  rw [toSigned, low, if_pos small]

/-- `int` addition as two's-complement hardware computes it: the sum reduced to 32 bits. C++
leaves a signed overflow undefined; this is the wrap compiled code performs. -/
def addInt (a b : ℤ) : ℤ := toSigned ((a + b) % 2 ^ 32).toNat

theorem addInt_of_lt {a b : ℤ} (low : -2 ^ 31 ≤ a + b) (high : a + b < 2 ^ 31) :
    addInt a b = a + b := by
  unfold addInt toSigned
  split_ifs <;> omega

/-- From a non-negative `int` a step of either sign overflows only upwards, to a negative
value: a positive result is the true sum. -/
theorem addInt_of_pos {a b : ℤ} (nonneg : 0 ≤ a) (small : a < 2 ^ 31) (low : -2 ^ 31 ≤ b)
    (high : b < 2 ^ 31) (positive : 0 < addInt a b) : addInt a b = a + b := by
  unfold addInt toSigned at *
  split_ifs at * <;> omega

/-- `std::numeric_limits<float>::max()`, the accumulated cost of a fresh node. -/
def floatMax : ℝ := 340282346638528859811704183484516925440

/-- One pooled search node. The parent pointer is kept as the index of the node it points
to; the cell cost is the costmap byte, which the float field represents exactly. -/
structure Node2D where
  parent : Option ℕ
  cellCost : ℕ
  accumulatedCost : ℝ
  index : ℕ
  wasVisited : Bool
  isQueued : Bool

namespace Node2D

/-- The constructor and `reset` overwrite every field, so both give this node. -/
def reset (cost index : ℕ) : Node2D where
  parent := none
  cellCost := cost
  accumulatedCost := floatMax
  index := index
  wasVisited := false
  isQueued := false

def setAccumulatedCost (node : Node2D) (costIn : ℝ) : Node2D :=
  { node with accumulatedCost := costIn }

def visited (node : Node2D) : Node2D :=
  { node with wasVisited := true, isQueued := false }

def queued (node : Node2D) : Node2D :=
  { node with isQueued := true }

/-- Lethal cells are never valid, unknown cells only when the search may traverse them.
Wrapping across a row end is deliberately not checked here. -/
def isNodeValid (codes : CostCodes) (node : Node2D) (traverseUnknown : Bool) : Bool :=
  if node.cellCost = codes.occupied ∨ node.cellCost = codes.inscribed then false
  else if node.cellCost = codes.unknown ∧ !traverseUnknown then false
  else true

theorem isNodeValid_iff {codes : CostCodes} {node : Node2D} {traverseUnknown : Bool} :
    node.isNodeValid codes traverseUnknown = true ↔
      node.cellCost ≠ codes.occupied ∧ node.cellCost ≠ codes.inscribed ∧
        (node.cellCost = codes.unknown → traverseUnknown = true) := by
  unfold isNodeValid
  by_cases lethal : node.cellCost = codes.occupied ∨ node.cellCost = codes.inscribed
  · simp only [lethal, if_true]
    tauto
  · by_cases hidden : node.cellCost = codes.unknown
    · cases traverseUnknown <;> simp_all
    · simp_all

end Node2D

/-- Flat row-major index, computed in `unsigned int`. -/
def getIndex (x y width : ℕ) : ℕ := (x + y * width) % 2 ^ 32

/-- `static_cast<float>` of an `unsigned int`, as the natural number the float denotes: round
to nearest, ties to even, to a 24-bit significand. Every `unsigned int` is far below the
largest float, so no exponent bound applies. -/
def floatOfUnsigned (n : ℕ) : ℕ :=
  if n < 2 ^ 24 then n
  else
    let ulp := 2 ^ (n.log2 + 1 - 24)
    (if 2 * (n % ulp) < ulp ∨ (2 * (n % ulp) = ulp ∧ n / ulp % 2 = 0) then n / ulp
      else n / ulp + 1) * ulp

/-- A float holds every integer up to `2 ^ 24`. -/
theorem floatOfUnsigned_of_le {n : ℕ} (small : n ≤ 2 ^ 24) : floatOfUnsigned n = n := by
  unfold floatOfUnsigned
  split_ifs with below
  · rfl
  · obtain rfl : n = 2 ^ 24 := by omega
    have top : (2 ^ 24).log2 = 24 := Nat.log2_two_pow
    dsimp only
    rw [top, if_pos (Or.inl (by norm_num)), Nat.div_mul_cancel (by norm_num)]

/-- Float coordinates of a cell, read as reals. -/
structure Coordinates where
  x : ℝ
  y : ℝ

/-- `Coordinates(index % width, index / width)`: the constructor takes two floats, so both
`unsigned int` results are converted to float. -/
def getCoords (index width angles : ℕ) : Except String Coordinates :=
  if angles ≠ 1 then throw "Node type Node2D does not have a valid angle quantization."
  else pure ⟨(floatOfUnsigned (index % width) : ℕ), (floatOfUnsigned (index / width) : ℕ)⟩

@[simp] theorem getCoords_one (index width : ℕ) :
    getCoords index width 1 =
      .ok ⟨(floatOfUnsigned (index % width) : ℕ), (floatOfUnsigned (index / width) : ℕ)⟩ := rfl

/-- `hypotf(dx, dy) * neutral_cost`, read over the reals. -/
noncomputable def getHeuristicCost (nodeCoords goalCoordinates : Coordinates) (neutralCost : ℝ) :
    ℝ :=
  Real.sqrt ((goalCoordinates.x - nodeCoords.x) ^ 2 + (goalCoordinates.y - nodeCoords.y) ^ 2) *
    neutralCost

/-- The offset table the static `_neighbors_grid_offsets` holds after the call. The switch's
default branch is unreachable for the three kinds. -/
def initNeighborhoods (xSizeUint : ℕ) (neighborhood : Neighborhood) : Except String (List ℤ) :=
  let xSize := toSigned xSizeUint
  match neighborhood with
  | .unknown => throw "Unknown neighborhood type selected."
  | .vonNeumann => pure [-1, 1, -xSize, xSize]
  | .moore => pure [-1, 1, -xSize, xSize, -xSize - 1, -xSize + 1, xSize - 1, xSize + 1]

/-- Appends the checker's node for every offset whose `int` index `node_i + offset` is positive
and accepted, in table order. The checker is called only once the index test has passed. -/
def getNeighbors {α : Type} (neighborsGridOffsets : List ℤ) (node : Node2D)
    (validityChecker : ℕ → Option α) (neighbors : List α) : List α :=
  neighborsGridOffsets.foldl
    (fun acc offset =>
      let index := addInt (toSigned node.index) offset
      if 0 < index then
        match validityChecker index.toNat with
        | some neighbor => acc ++ [neighbor]
        | none => acc
      else acc)
    neighbors

end SmacPlanner
