import SmacPlanner.Smoother.CostFunction

namespace SmacPlanner

theorem addU32_of_lt {a b : ℕ} (fits : a + b < 2 ^ 32) : addU32 a b = a + b :=
  Nat.mod_eq_of_lt fits

theorem subU32_of_le {a b : ℕ} (le : b ≤ a) (fits : a < 2 ^ 32) : subU32 a b = a - b := by
  unfold subU32
  omega

/-- The twelve cells of the seven-point stencil around `(mx, my)`, in the order
getCostmapGradient reads them. -/
def stencilCells (mx my : ℕ) : List (ℕ × ℕ) :=
  [(mx + 1, my), (mx + 2, my), (mx + 3, my), (mx - 1, my), (mx - 2, my), (mx - 3, my),
    (mx, my + 1), (mx, my + 2), (mx, my + 3), (mx, my - 1), (mx, my - 2), (mx, my - 3)]

/-- A one-cell costmap onto which every world point maps. -/
def unitMap : MinimalCostmap where
  sizeX := 1
  sizeY := 1
  getCost _ _ := 0
  worldToMap _ _ := some (0, 0)
  sizeX_lt := by norm_num
  sizeY_lt := by norm_num
  getCost_lt _ _ := by norm_num
  worldToMap_lt := fun found => by cases found; decide

/-- A 7 × 7 costmap whose cost rises by one per column. -/
def rampMap : MinimalCostmap where
  sizeX := 7
  sizeY := 7
  getCost x _ := x % 256
  worldToMap _ _ := some (3, 3)
  sizeX_lt := by norm_num
  sizeY_lt := by norm_num
  getCost_lt _ _ := Nat.mod_lt _ (by norm_num)
  worldToMap_lt := fun found => by cases found; decide

section Interior

variable {costmap : MinimalCostmap} {mx my : ℕ} (left : 3 ≤ mx) (right : mx + 3 < costmap.sizeX)
  (below : 3 ≤ my) (above : my + 3 < costmap.sizeY)
include left right below above

/-- Three cells or more from every border, every guard of the stencil holds and no coordinate
wraps. -/
theorem stencil_interior :
    stencil costmap mx my =
      { rightOne := ⟨true, mx + 1, my⟩, rightTwo := ⟨true, mx + 2, my⟩,
        rightThree := ⟨true, mx + 3, my⟩, leftOne := ⟨true, mx - 1, my⟩,
        leftTwo := ⟨true, mx - 2, my⟩, leftThree := ⟨true, mx - 3, my⟩,
        upOne := ⟨true, mx, my + 1⟩, upTwo := ⟨true, mx, my + 2⟩,
        upThree := ⟨true, mx, my + 3⟩, downOne := ⟨true, mx, my - 1⟩,
        downTwo := ⟨true, mx, my - 2⟩, downThree := ⟨true, mx, my - 3⟩ } := by
  have wide := costmap.sizeX_lt
  have tall := costmap.sizeY_lt
  simp (disch := omega) only [stencil, addU32_of_lt, subU32_of_le]
  congr <;> simp <;> omega

theorem getCostmapGradientReads_interior :
    getCostmapGradientReads costmap mx my = stencilCells mx my := by
  simp [getCostmapGradientReads, stencil_interior left right below above, Stencil.probes,
    stencilCells]

end Interior

/-- Three cells or more from every border, getCostmapGradient reads the twelve distinct
stencil cells and nothing else, and every one of them is on the map. -/
theorem getCostmapGradientReads_on_map {costmap : MinimalCostmap} {mx my : ℕ} (left : 3 ≤ mx)
    (right : mx + 3 < costmap.sizeX) (below : 3 ≤ my) (above : my + 3 < costmap.sizeY) :
    getCostmapGradientReads costmap mx my = stencilCells mx my ∧ (stencilCells mx my).Nodup ∧
      ∀ p ∈ getCostmapGradientReads costmap mx my, p.1 < costmap.sizeX ∧ p.2 < costmap.sizeY := by
  have reads := getCostmapGradientReads_interior left right below above
  refine ⟨reads, ?_, ?_⟩
  · simp only [stencilCells, List.nodup_cons, List.mem_cons, List.mem_singleton, Prod.mk.injEq,
      List.not_mem_nil, List.nodup_nil, or_false, and_true, not_or, not_and, not_false_eq_true,
      true_implies]
    omega
  · rw [reads]
    simp only [stencilCells, List.forall_mem_cons, List.not_mem_nil, false_imp_iff, implies_true,
      and_true]
    omega

theorem rampMap_reads_on_map :
    3 ≤ 3 ∧ 3 + 3 < rampMap.sizeX ∧ 3 ≤ 3 ∧ 3 + 3 < rampMap.sizeY ∧
      getCostmapGradientReads rampMap 3 3 = stencilCells 3 3 ∧ (stencilCells 3 3).Nodup ∧
      ∀ p ∈ getCostmapGradientReads rampMap 3 3, p.1 < rampMap.sizeX ∧ p.2 < rampMap.sizeY := by
  have inside : 3 + 3 < rampMap.sizeX ∧ 3 + 3 < rampMap.sizeY := by decide
  exact ⟨le_rfl, inside.1, le_rfl, inside.2,
    getCostmapGradientReads_on_map le_rfl inside.1 le_rfl inside.2⟩

/-- On an affine cost field `a x + b y + k` the stencil is exact, and the code returns the
normalized `(b, a)`: component `[0]` is the slope along `my`, component `[1]` the slope along
`mx`. -/
theorem getCostmapGradient_affine {costmap : MinimalCostmap} {mx my : ℕ} (left : 3 ≤ mx)
    (right : mx + 3 < costmap.sizeX) (below : 3 ≤ my) (above : my + 3 < costmap.sizeY)
    {a b k : ℝ} (field : ∀ p ∈ getCostmapGradientReads costmap mx my,
      (costmap.getCost p.1 p.2 : ℝ) = a * p.1 + b * p.2 + k)
    (sloped : (a, b) ≠ (0, 0)) :
    getCostmapGradient costmap mx my = (⟨b, a⟩ : Vector2d) / √(a ^ 2 + b ^ 2) := by
  rw [getCostmapGradientReads_interior left right below above] at field
  simp only [stencilCells, List.forall_mem_cons] at field
  obtain ⟨r1, r2, r3, l1, l2, l3, u1, u2, u3, d1, d2, d3, -⟩ := field
  have slopes : (⟨b, a⟩ : Vector2d) ≠ 0 := by
    intro zero
    apply sloped
    rw [Vector2d.ext_iff] at zero
    simp_all
  unfold getCostmapGradient
  rw [stencil_interior left right below above]
  simp only [Probe.sample, if_true, r1, r2, r3, l1, l2, l3, u1, u2, u3, d1, d2, d3]
  push_cast [Nat.cast_sub (show 1 ≤ mx by omega), Nat.cast_sub (show 2 ≤ mx by omega),
    Nat.cast_sub (show 3 ≤ mx by omega), Nat.cast_sub (show 1 ≤ my by omega),
    Nat.cast_sub (show 2 ≤ my by omega), Nat.cast_sub (show 3 ≤ my by omega)]
  have normalized : Vector2d.normalized ⟨b, a⟩ = (⟨b, a⟩ : Vector2d) / √(a ^ 2 + b ^ 2) := by
    rw [Vector2d.normalized_of_ne_zero slopes, Vector2d.norm, Vector2d.squaredNorm_def]
    congr 2
    ring
  rw [← normalized]
  congr 1
  ext <;> ring

theorem rampMap_gradient :
    (3 ≤ 3 ∧ 3 + 3 < rampMap.sizeX ∧ 3 ≤ 3 ∧ 3 + 3 < rampMap.sizeY ∧
      (∀ p ∈ getCostmapGradientReads rampMap 3 3,
        (rampMap.getCost p.1 p.2 : ℝ) = 1 * p.1 + 0 * p.2 + 0) ∧ ((1 : ℝ), (0 : ℝ)) ≠ (0, 0)) ∧
      getCostmapGradient rampMap 3 3 = ⟨0, 1⟩ := by
  have inside : 3 + 3 < rampMap.sizeX ∧ 3 + 3 < rampMap.sizeY := by decide
  have field : ∀ p ∈ getCostmapGradientReads rampMap 3 3,
      (rampMap.getCost p.1 p.2 : ℝ) = 1 * p.1 + 0 * p.2 + 0 := by
    rw [getCostmapGradientReads_interior le_rfl inside.1 le_rfl inside.2]
    simp [stencilCells, rampMap]
  have sloped : ((1 : ℝ), (0 : ℝ)) ≠ (0, 0) := by simp
  refine ⟨⟨le_rfl, inside.1, le_rfl, inside.2, field, sloped⟩, ?_⟩
  rw [getCostmapGradient_affine le_rfl inside.1 le_rfl inside.2 field sloped]
  ext <;> simp

/-- On every map, the cell in the last column reads the cell one past the right border, and
the cell in the first column reads column `2³² - 2`: `mx - 1 > 0` wraps to true at
`mx = 0`. -/
theorem getCostmapGradientReads_off_map (costmap : MinimalCostmap) (my : ℕ)
    (wide : 0 < costmap.sizeX) :
    (costmap.sizeX, my) ∈ getCostmapGradientReads costmap (costmap.sizeX - 1) my ∧
      (2 ^ 32 - 2, my) ∈ getCostmapGradientReads costmap 0 my := by
  have fits := costmap.sizeX_lt
  simp only [getCostmapGradientReads, List.mem_map, List.mem_filter]
  constructor
  · refine ⟨(stencil costmap (costmap.sizeX - 1) my).rightOne, ⟨by simp [Stencil.probes], ?_⟩, ?_⟩
    · simp only [stencil, decide_eq_true_eq]
      omega
    · simp only [stencil, addU32, Prod.mk.injEq, and_true]
      omega
  · exact ⟨(stencil costmap 0 my).leftTwo, ⟨by simp [Stencil.probes], rfl⟩, rfl⟩

theorem unitMap_reads_off_map :
    0 < unitMap.sizeX ∧ (1, 0) ∈ getCostmapGradientReads unitMap 0 0 ∧
      (2 ^ 32 - 2, 0) ∈ getCostmapGradientReads unitMap 0 0 :=
  ⟨by decide, getCostmapGradientReads_off_map unitMap 0 (by decide)⟩

example : getCostmapGradientReads unitMap 0 0 =
    [(1, 0), (2 ^ 32 - 2, 0), (2 ^ 32 - 3, 0), (0, 1), (0, 2 ^ 32 - 2), (0, 2 ^ 32 - 3)] := by
  decide

end SmacPlanner
