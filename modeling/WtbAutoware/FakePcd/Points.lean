import WtbAutoware.FakePcd.Pgm
import WtbAutoware.Framework.Grid
import WtbAutoware.Platform

/-!
# The points of a map

`build_points` goes through the pixels of a map in rows and columns, with a stride, and
emits a point for each that is occupied. The point is the middle of the pixel, with the
first row of the image at the upper edge of the map.

A loop that only appends is a list (`foldlM_append`), so the two loops list the cells that
they visit, and those are the cells of the grid whose row and column the stride divides
(`visited_eq`). What is emitted is `occupiedCells`, each at its `center` (`buildPoints_eq`).
The centers lie inside the map (`center_inside`), and different cells have different ones
(`center_injective`).
-/

namespace WtbAutoware
namespace FakePcd

open Grid

/-! ### The code -/

/-- What `build_points` may raise. -/
inductive BuildError where
  | indexError
  | zeroDivisionError
  deriving DecidableEq

/-- A point, or the origin of a map. -/
structure Point (K : Type) where
  x : K
  y : K
  z : K
  deriving DecidableEq

/-- `list[i]`, where a negative index counts from the end. -/
def item (list : List ℤ) (i : ℤ) : Except BuildError ℤ :=
  if 0 ≤ i ∧ i < list.length then .ok (list.getD i.toNat 0)
  else if i < 0 ∧ 0 ≤ list.length + i then .ok (list.getD (list.length + i).toNat 0)
  else .error .indexError

/-- `range(0, stop, step)`, for a positive step. -/
def range (stop : ℤ) (step : ℕ) : List ℤ := (steps stop.toNat step).map fun i : ℕ => (i : ℤ)

section Code

variable {K : Type} [Field K]

/-- `occupancy_probability`. -/
def occupancyProbability (pixel maxValue negate : ℤ) : Except BuildError K :=
  if maxValue = 0 then .error .zeroDivisionError
  else if negate ≠ 0 then .ok ((pixel : K) / (maxValue : K))
  else .ok (1 - (pixel : K) / (maxValue : K))

variable [LinearOrder K]

/-- One round of the inner loop of `build_points`. -/
def visit (width height maxValue : ℤ) (pixels : List ℤ) (resolution : K) (origin : Point K)
    (occupiedThresh : K) (negate : ℤ) (points : List (Point K)) (row col : ℤ) :
    Except BuildError (List (Point K)) := do
  let pixel ← item pixels (row * width + col)
  let occupancy ← occupancyProbability pixel maxValue negate
  if occupancy < occupiedThresh then return points
  return points ++ [⟨origin.x + ((col : K) + 1 / 2) * resolution,
    origin.y + ((height : K) - (row : K) - 1 / 2) * resolution, origin.z⟩]

/-- `build_points`. -/
def buildPoints (width height maxValue : ℤ) (pixels : List ℤ) (resolution : K) (origin : Point K)
    (occupiedThresh : K) (negate : ℤ) (sampleStep : ℕ) : Except BuildError (List (Point K)) :=
  (range height sampleStep).foldlM (fun points row =>
    (range width sampleStep).foldlM (fun points col =>
      visit width height maxValue pixels resolution origin occupiedThresh negate points row col)
      points) []

end Code

/-! ### Loops that append -/

/-- A loop that appends something in every round. -/
theorem foldlM_append {α β ε : Type} {list : List α} {f : List β → α → Except ε (List β)}
    {g : α → List β} (h : ∀ points, ∀ a ∈ list, f points a = .ok (points ++ g a))
    (points : List β) : list.foldlM f points = .ok (points ++ list.flatMap g) := by
  induction list generalizing points with
  | nil => exact congrArg _ (List.append_nil points).symm
  | cons a list ih =>
    obtain ⟨ha, hlist⟩ : (∀ points, f points a = .ok (points ++ g a)) ∧
        ∀ points, ∀ b ∈ list, f points b = .ok (points ++ g b) :=
      ⟨fun points => h points a List.mem_cons_self,
        fun points b hb => h points b (List.mem_cons_of_mem a hb)⟩
    rw [List.foldlM_cons, ha]
    change list.foldlM f (points ++ g a) = _
    rw [ih hlist, List.flatMap_cons, List.append_assoc]

/-- To append something or nothing is to select. -/
theorem flatMap_ite {α β : Type} (list : List α) (p : α → Prop) [DecidablePred p] (f : α → β) :
    (list.flatMap fun a => if p a then [f a] else []) = (list.filter p).map f := by
  induction list with
  | nil => rfl
  | cons a list ih =>
    rw [List.flatMap_cons, ih]
    by_cases ha : p a
    · rw [if_pos ha, List.filter_cons_of_pos (by simpa using ha)]
      rfl
    · rw [if_neg ha, List.filter_cons_of_neg (by simpa using ha)]
      rfl

/-! ### Cells and their points -/

section Cells

variable {K : Type} [Field K]

/-- The occupancy of a pixel: its brightness, or what is missing to the brightest. -/
def occupancy (maxValue negate pixel : ℤ) : K :=
  if negate ≠ 0 then (pixel : K) / (maxValue : K) else 1 - (pixel : K) / (maxValue : K)

/-- The middle of a cell, given by its row and its column. -/
def center (height : ℕ) (resolution : K) (origin : Point K) (cell : ℕ × ℕ) : Point K :=
  ⟨origin.x + ((cell.2 : K) + 1 / 2) * resolution,
    origin.y + ((height : K) - (cell.1 : K) - 1 / 2) * resolution, origin.z⟩

variable [LinearOrder K]

/-- The cells that are sampled and occupied, in row-major order. -/
def occupiedCells (width height : ℕ) (maxValue : ℤ) (pixels : List ℤ) (occupiedThresh : K)
    (negate : ℤ) (sampleStep : ℕ) : List (ℕ × ℕ) :=
  (rowMajor height width Prod.mk).filter fun cell =>
    (sampleStep ∣ cell.1 ∧ sampleStep ∣ cell.2) ∧
      occupiedThresh ≤ occupancy maxValue negate (pixels.getD (cell.1 * width + cell.2) 0)

/-- Where the points of a map lie. -/
def Inside (width height : ℕ) (resolution : K) (origin p : Point K) : Prop :=
  (origin.x < p.x ∧ p.x < origin.x + (width : K) * resolution) ∧
    (origin.y < p.y ∧ p.y < origin.y + (height : K) * resolution) ∧ p.z = origin.z

end Cells

theorem mem_range {stop : ℕ} {step : ℕ} (hstep : 1 ≤ step) {i : ℤ} :
    i ∈ range stop step ↔ ∃ n : ℕ, (n < stop ∧ step ∣ n) ∧ (n : ℤ) = i := by
  unfold range
  rw [Int.toNat_natCast, steps_eq_filter hstep, List.mem_map]
  refine exists_congr fun n => and_congr_left fun _ => ?_
  rw [List.mem_filter, List.mem_range, decide_eq_true_eq]

/-- Every index is that of a pixel. -/
theorem index_inside {width height : ℕ} {pixels : List ℤ} (hpixels : pixels.length = width * height)
    {row col : ℕ} (hrow : row < height) (hcol : col < width) :
    row * width + col < pixels.length := by
  rw [hpixels, Nat.mul_comm width height]
  exact rowIndex_lt hrow hcol

theorem item_eq {pixels : List ℤ} {i : ℕ} (hi : i < pixels.length) :
    item pixels (i : ℤ) = .ok (pixels.getD i 0) := by
  unfold item
  rw [if_pos ⟨Int.natCast_nonneg i, Int.ofNat_lt.mpr hi⟩, Int.toNat_natCast]

section Law

variable {K : Type} [Field K] [LinearOrder K]

/-- What one round appends. -/
theorem visit_eq {width height : ℕ} {maxValue : ℤ} (hmax : 1 ≤ maxValue) {pixels : List ℤ}
    (hpixels : pixels.length = width * height) (resolution : K) (origin : Point K)
    (occupiedThresh : K) (negate : ℤ) (points : List (Point K)) {row col : ℕ}
    (hrow : row < height) (hcol : col < width) :
    visit width height maxValue pixels resolution origin occupiedThresh negate points row col =
      .ok (points ++
        if occupiedThresh ≤ occupancy maxValue negate (pixels.getD (row * width + col) 0) then
          [center height resolution origin (row, col)] else []) := by
  have hindex := index_inside hpixels hrow hcol
  have hoccupancy (pixel : ℤ) :
      occupancyProbability pixel maxValue negate =
        .ok (occupancy (K := K) maxValue negate pixel) := by
    -- the greatest value is not zero
    unfold occupancyProbability occupancy
    rw [if_neg (by omega)]
    split
    · rfl
    · rfl
  unfold visit
  rw [show (row : ℤ) * (width : ℤ) + (col : ℤ) = ((row * width + col : ℕ) : ℤ) by push_cast; rfl,
    item_eq hindex]
  change (occupancyProbability _ maxValue negate >>= fun o : K => _) = _
  rw [hoccupancy]
  change (if occupancy maxValue negate _ < occupiedThresh then _ else _) = _
  split
  · next hless => rw [if_neg (not_le.mpr hless), List.append_nil]; rfl
  · next hle =>
    rw [if_pos (not_lt.mp hle)]
    unfold center
    dsimp only
    rw [Int.cast_natCast, Int.cast_natCast, Int.cast_natCast]
    rfl

/-- The cells that the loops visit. -/
theorem visited_eq {step : ℕ} (hstep : 1 ≤ step) (width height : ℕ) {β : Type}
    (g : ℕ × ℕ → List β) (f : ℤ → ℤ → List β) (h : ∀ r c : ℕ, f r c = g (r, c)) :
    ((range height step).flatMap fun row => (range width step).flatMap (f row)) =
      ((rowMajor height width Prod.mk).filter fun cell =>
        step ∣ cell.1 ∧ step ∣ cell.2).flatMap g := by
  rw [← strided_eq_filter hstep, List.flatMap_assoc]
  unfold range
  rw [Int.toNat_natCast, Int.toNat_natCast, List.flatMap_map]
  refine congrArg (List.flatMap · _) ?_
  ext1 r
  rw [List.flatMap_map, List.flatMap_map]
  refine congrArg (List.flatMap · _) ?_
  ext1 c
  exact h r c

/-- What the two loops return. -/
theorem buildPoints_eq_map {width height : ℕ} {maxValue : ℤ} (hmax : 1 ≤ maxValue)
    {pixels : List ℤ} (hpixels : pixels.length = width * height) (resolution : K)
    (origin : Point K) (occupiedThresh : K) (negate : ℤ) {sampleStep : ℕ}
    (hstep : 1 ≤ sampleStep) :
    buildPoints width height maxValue pixels resolution origin occupiedThresh negate sampleStep =
      .ok ((occupiedCells width height maxValue pixels occupiedThresh negate sampleStep).map
        (center height resolution origin)) := by
  -- what the round of a cell appends
  let g : ℕ × ℕ → List (Point K) := fun cell =>
    if occupiedThresh ≤ occupancy maxValue negate (pixels.getD (cell.1 * width + cell.2) 0) then
      [center height resolution origin cell] else []
  have hcolumn (row : ℤ) (hrow : row ∈ range height sampleStep) (points : List (Point K)) :
      (range width sampleStep).foldlM (fun points col =>
        visit width height maxValue pixels resolution origin occupiedThresh negate points row col)
        points = .ok (points ++ (range width sampleStep).flatMap fun col =>
          g (row.toNat, col.toNat)) := by
    refine foldlM_append (fun points col hcol => ?_) points
    obtain ⟨r, ⟨hr, -⟩, rfl⟩ := (mem_range hstep).mp hrow
    obtain ⟨c, ⟨hc, -⟩, rfl⟩ := (mem_range hstep).mp hcol
    exact visit_eq hmax hpixels resolution origin occupiedThresh negate points hr hc
  have hrows := foldlM_append (fun points row hrow => hcolumn row hrow points) []
  unfold buildPoints
  rw [hrows, List.nil_append]
  refine congrArg Except.ok ?_
  rw [visited_eq hstep width height g (fun row col => g (row.toNat, col.toNat)) fun r c => rfl]
  -- to append for the occupied cells is to select them
  unfold g occupiedCells
  rw [flatMap_ite, List.filter_filter]
  refine congrArg (List.map _) (List.filter_congr fun cell _ => ?_)
  rw [Bool.and_comm, ← Bool.decide_and]

variable [IsStrictOrderedRing K]

/-- The middle of a cell lies strictly inside the map. -/
theorem center_inside {width height : ℕ} {resolution : K} (hres : 0 < resolution)
    (origin : Point K) {cell : ℕ × ℕ} (hrow : cell.1 < height) (hcol : cell.2 < width) :
    Inside width height resolution origin (center height resolution origin cell) := by
  -- a cell is a whole one below the size in either direction, and its middle half a one in
  have hhalf : (0 : K) < 1 / 2 := one_half_pos
  have hone : (1 / 2 : K) < 1 := one_half_lt_one
  have hr : (cell.1 : K) + 1 ≤ (height : K) := by exact_mod_cast hrow
  have hc : (cell.2 : K) + 1 ≤ (width : K) := by exact_mod_cast hcol
  have hr₀ : (0 : K) ≤ (cell.1 : K) := Nat.cast_nonneg _
  have hc₀ : (0 : K) ≤ (cell.2 : K) := Nat.cast_nonneg _
  refine ⟨⟨?_, ?_⟩, ⟨?_, ?_⟩, rfl⟩
  · exact lt_add_of_pos_right _ (mul_pos (by linarith) hres)
  · exact add_lt_add_of_le_of_lt le_rfl (mul_lt_mul_of_pos_right (by linarith) hres)
  · exact lt_add_of_pos_right _ (mul_pos (by linarith) hres)
  · exact add_lt_add_of_le_of_lt le_rfl (mul_lt_mul_of_pos_right (by linarith) hres)

/-- Different cells have different middles. -/
theorem center_injective (height : ℕ) {resolution : K} (hres : 0 < resolution) (origin : Point K) :
    Function.Injective (center height resolution origin) := by
  rintro ⟨r, c⟩ ⟨r', c'⟩ h
  have hx := add_left_cancel (congrArg Point.x h)
  have hy := add_left_cancel (congrArg Point.y h)
  have hcol := add_right_cancel (mul_right_cancel₀ hres.ne' hx)
  have hrow := sub_right_injective (sub_left_injective (mul_right_cancel₀ hres.ne' hy))
  exact Prod.ext (Nat.cast_injective hrow) (Nat.cast_injective hcol)

/-- **The points of a map.** Every index is that of a pixel. The points are the middles of the
cells that are sampled and occupied, in row-major order and each once. All of them lie
strictly inside the map, and no two cells have the same middle. -/
theorem buildPoints_eq {width height : ℕ} {maxValue : ℤ} (hmax : 1 ≤ maxValue) {pixels : List ℤ}
    (hpixels : pixels.length = width * height) {resolution : K} (hres : 0 < resolution)
    (origin : Point K) (occupiedThresh : K) (negate : ℤ) {sampleStep : ℕ} (hstep : 1 ≤ sampleStep) :
    (∀ row ∈ range height sampleStep, ∀ col ∈ range width sampleStep,
      0 ≤ row * width + col ∧ row * width + col < pixels.length) ∧
    ∃ points, buildPoints width height maxValue pixels resolution origin occupiedThresh negate
        sampleStep = .ok points ∧
      points = (occupiedCells width height maxValue pixels occupiedThresh negate sampleStep).map
        (center height resolution origin) ∧
      points.Nodup ∧ (∀ p ∈ points, Inside width height resolution origin p) ∧
      Function.Injective (center height resolution origin) := by
  refine ⟨?_, _, buildPoints_eq_map hmax hpixels resolution origin occupiedThresh negate hstep, rfl,
    ?_, ?_, center_injective height hres origin⟩
  · -- every index is that of a sample
    intro row hrow col hcol
    obtain ⟨r, ⟨hr, -⟩, rfl⟩ := (mem_range hstep).mp hrow
    obtain ⟨c, ⟨hc, -⟩, rfl⟩ := (mem_range hstep).mp hcol
    have hindex := index_inside hpixels hr hc
    exact ⟨by positivity, by exact_mod_cast hindex⟩
  · -- different cells have different centers
    exact ((nodup_rowMajor height width).filter _).map (center_injective height hres origin)
  · -- and each lies in its own cell
    intro p hp
    obtain ⟨cell, hcell, rfl⟩ := List.mem_map.mp hp
    obtain ⟨hrow, hcol⟩ := mem_rowMajor.mp (List.mem_of_mem_filter hcell)
    exact center_inside hres origin hrow hcol

/-- A map of two rows with three pixels each. -/
def twoRows : List ℤ := [0, 0, 255, 0, 0, 0]

theorem buildPoints_eq_twoRows :
    (∀ row ∈ range (2 : ℕ) 2, ∀ col ∈ range (3 : ℕ) 2,
      0 ≤ row * (3 : ℕ) + col ∧ row * (3 : ℕ) + col < twoRows.length) ∧
    ∃ points, buildPoints (3 : ℕ) (2 : ℕ) 255 twoRows (1 : ℚ) ⟨0, 0, 0⟩ (1 / 2) 0 2 = .ok points ∧
      points = (occupiedCells 3 2 255 twoRows (1 / 2 : ℚ) 0 2).map (center 2 1 ⟨0, 0, 0⟩) ∧
      points.Nodup ∧ (∀ p ∈ points, Inside 3 2 1 ⟨0, 0, 0⟩ p) ∧
      Function.Injective (center 2 (1 : ℚ) ⟨0, 0, 0⟩) :=
  buildPoints_eq (K := ℚ) (by decide) rfl one_pos ⟨0, 0, 0⟩ (1 / 2) 0 (by decide)

end Law

end FakePcd
end WtbAutoware
