import WtbAutoware.Mapping.ImageProjection

/-!
# Which points are published

The loop of `projectPointCloud` carries along which cells are taken and the rotation of the point
that it kept first. What it does in the end can be said without either. A point falls into one
cell or none (`cellOf`), whatever has come before. Of the points that fall into a cell, the first
is kept, and it is rotated by the difference between its own instant and that of the first point
that is kept at all (`deskewed`).

`cloudExtraction_eq_first` says so for the cloud that is published. The invariant is about the
points that have been looked at (`LooksLike`).
-/

namespace WtbAutoware
namespace Mapping

open Sensing

/-! ### Cells -/

section Cells

variable {K : Type}

theorem lookup_cells_eq_none {cells : List ((ℤ × ℤ) × Point K)} {c : ℤ × ℤ} :
    cells.lookup c = none ↔ c ∉ cells.map Prod.fst := by
  rw [List.lookup_eq_none_iff, List.mem_map, not_exists]
  refine ⟨fun h x hx => ?_, fun h x hx => ?_⟩
  · have hne := h x hx.1
    rw [hx.2] at hne
    simp at hne
  · exact bne_iff_ne.mpr fun heq => h x ⟨hx, heq.symm⟩

theorem lookup_snoc {cells : List ((ℤ × ℤ) × Point K)} {c c' : ℤ × ℤ} {p : Point K} :
    (cells ++ [(c', p)]).lookup c =
      (cells.lookup c).or (if c = c' then some p else none) := by
  rw [List.lookup_append, List.lookup_cons]
  by_cases hc : c = c'
  · simp [hc]
  · rw [if_neg hc, show (c == c') = false from beq_eq_false_iff_ne.mpr hc]
    rfl

end Cells

/-! ### The loop -/

section FirstPoint

variable {K : Type} [Field K] [LinearOrder K] [FloorRing K] (P : Params K) (E : Env K)
variable (deskewFlag : ℤ) (scan : Scan K) (imu : List (ImuRotation K))

/-- The cell that a point falls into. -/
def cellOf (x : LaserPoint K × ℕ) : Option (ℤ × ℤ) :=
  let p := x.1.toPoint
  let row : ℤ := x.1.ring.toNat
  let column := columnIdn P E x.2 p
  if (E.pointDistance p < P.lidarMinRange ∨ P.lidarMaxRange < E.pointDistance p) ∨
      P.nScan ≤ row ∨ row.tmod P.downsampleRate ≠ 0 ∨ column < 0 ∨ P.horizonScan ≤ column
  then none
  else some (row, column)

/-- The rotation of the vehicle when a point was measured. -/
def rotationOf (x : LaserPoint K × ℕ) : Vec3 K :=
  findRotation imu (scan.timeScanCur + x.1.time)

/-- The rotation that belongs to the first of these points that is kept. -/
def startOf (xs : List (LaserPoint K × ℕ)) : Option (Vec3 K) :=
  (xs.find? fun x => (cellOf P E x).isSome).map (rotationOf scan imu)

/-- A point in the frame of the first point that is kept. -/
def deskewed (xs : List (LaserPoint K × ℕ)) (x : LaserPoint K × ℕ) : Point K :=
  if deskewFlag = -1 ∨ ¬ ImuAvailable imu then x.1.toPoint
  else
    let rot := rotationOf scan imu x
    E.rotateToStart ((startOf P E scan imu xs).getD rot) rot x.1.toPoint

/-- What the image looks like when the points `xs` have been looked at. -/
structure LooksLike (xs : List (LaserPoint K × ℕ)) (image : Image K) : Prop where
  lookup : ∀ c, image.cells.lookup c =
    (xs.find? fun x => cellOf P E x = some c).map (deskewed P E deskewFlag scan imu xs)
  start : ¬ (deskewFlag = -1 ∨ ¬ ImuAvailable imu) →
    image.startRotation = startOf P E scan imu xs

variable {P E deskewFlag scan imu}

/-- Whether a point is kept: it falls into a cell, and none in front of it fell into that. -/
theorem skipped_iff {image : Image K} {p : LaserPoint K} {i : ℕ} :
    Skipped P E image p.ring.toNat (columnIdn P E i p.toPoint) p.toPoint ↔
      cellOf P E (p, i) = none ∨ ∃ c, cellOf P E (p, i) = some c ∧
        c ∈ image.cells.map Prod.fst := by
  unfold Skipped cellOf
  dsimp only
  by_cases h : (E.pointDistance p.toPoint < P.lidarMinRange ∨
      P.lidarMaxRange < E.pointDistance p.toPoint) ∨ P.nScan ≤ (p.ring.toNat : ℤ) ∨
      (p.ring.toNat : ℤ).tmod P.downsampleRate ≠ 0 ∨ columnIdn P E i p.toPoint < 0 ∨
      P.horizonScan ≤ columnIdn P E i p.toPoint
  · rw [if_pos h]
    refine iff_of_true ?_ (Or.inl rfl)
    tauto
  · rw [if_neg h]
    simp only [reduceCtorEq, Option.some.injEq, exists_eq_left', false_or]
    tauto

/-- A later point does not change which is the first to be kept. -/
theorem startOf_append {xs : List (LaserPoint K × ℕ)} {x : LaserPoint K × ℕ} :
    startOf P E scan imu (xs ++ [x]) = (startOf P E scan imu xs).or
      (if (cellOf P E x).isSome then some (rotationOf scan imu x) else none) := by
  unfold startOf
  rw [List.find?_append, Option.map_or]
  congr 1
  rw [List.find?_singleton]
  split
  · rfl
  · rfl

/-- And not how a point is rotated that has been kept. -/
theorem deskewed_append {xs : List (LaserPoint K × ℕ)} {x y : LaserPoint K × ℕ}
    (hy : y ∈ xs) (hcell : (cellOf P E y).isSome) :
    deskewed P E deskewFlag scan imu (xs ++ [x]) y = deskewed P E deskewFlag scan imu xs y := by
  unfold deskewed
  have hfound : (xs.find? fun x => (cellOf P E x).isSome).isSome := by
    rw [List.find?_isSome]
    exact ⟨y, hy, hcell⟩
  obtain ⟨z, hz⟩ := Option.isSome_iff_exists.mp hfound
  have hstart : startOf P E scan imu xs = some (rotationOf scan imu z) := by
    unfold startOf
    rw [hz]
    rfl
  rw [startOf_append, hstart]
  rfl

/-- A cell in which there is a point already is found where it was found before. -/
theorem found_append {xs : List (LaserPoint K × ℕ)} {x : LaserPoint K × ℕ} {c : ℤ × ℤ}
    (h : cellOf P E x ≠ some c ∨ (xs.find? fun x => cellOf P E x = some c).isSome) :
    ((xs ++ [x]).find? fun x => cellOf P E x = some c).map
        (deskewed P E deskewFlag scan imu (xs ++ [x])) =
      (xs.find? fun x => cellOf P E x = some c).map (deskewed P E deskewFlag scan imu xs) := by
  rw [List.find?_append]
  cases hfind : xs.find? fun x => cellOf P E x = some c with
  | none =>
    rw [hfind] at h
    have hne : ¬ cellOf P E x = some c := h.resolve_right (by simp)
    rw [List.find?_singleton, if_neg (by simpa using hne)]
    rfl
  | some y =>
    have hcell : cellOf P E y = some c := by simpa using List.find?_some hfind
    change some (deskewed P E deskewFlag scan imu (xs ++ [x]) y) = _
    rw [deskewed_append (List.mem_of_find?_eq_some hfind) (by rw [hcell]; rfl)]
    rfl

/-- How a point is deskewed that is kept. -/
theorem deskewPoint_eq {xs : List (LaserPoint K × ℕ)} {image : Image K} {p : LaserPoint K} {i : ℕ}
    (h : LooksLike P E deskewFlag scan imu xs image) (hcell : (cellOf P E (p, i)).isSome) :
    (deskewPoint E deskewFlag scan imu image i p.time p.toPoint).2 =
        deskewed P E deskewFlag scan imu (xs ++ [(p, i)]) (p, i) ∧
      (deskewPoint E deskewFlag scan imu image i p.time p.toPoint).1.cells = image.cells ∧
      (¬ (deskewFlag = -1 ∨ ¬ ImuAvailable imu) →
        (deskewPoint E deskewFlag scan imu image i p.time p.toPoint).1.startRotation =
          startOf P E scan imu (xs ++ [(p, i)])) := by
  unfold deskewPoint deskewed
  by_cases hoff : deskewFlag = -1 ∨ ¬ ImuAvailable imu
  · rw [if_pos hoff, if_pos hoff]
    exact ⟨rfl, rfl, fun hon => absurd hoff hon⟩
  · rw [if_neg hoff, if_neg hoff]
    dsimp only
    rw [h.start hoff, startOf_append, if_pos hcell]
    -- the start is the one that has been kept, or this point's own
    cases startOf P E scan imu xs with
    | none => exact ⟨rfl, rfl, fun _ => rfl⟩
    | some start => exact ⟨rfl, rfl, fun _ => rfl⟩

/-- **One pass.** -/
theorem LooksLike.step {xs : List (LaserPoint K × ℕ)} {image : Image K} (x : LaserPoint K × ℕ)
    (h : LooksLike P E deskewFlag scan imu xs image) :
    LooksLike P E deskewFlag scan imu (xs ++ [x])
      (projectPoint P E deskewFlag scan imu image x) := by
  obtain ⟨p, i⟩ := x
  -- a cell is taken once a point has fallen into it
  have htaken : ∀ c, c ∈ image.cells.map Prod.fst ↔
      (xs.find? fun x => cellOf P E x = some c).isSome := by
    intro c
    rw [← not_iff_not, ← lookup_cells_eq_none, h.lookup, Option.map_eq_none_iff,
      Bool.not_eq_true, Option.isSome_eq_false_iff, Option.isNone_iff_eq_none]
  by_cases hskip : Skipped P E image p.ring.toNat (columnIdn P E i p.toPoint) p.toPoint
  · have hsame : projectPoint P E deskewFlag scan imu image (p, i) = image := if_pos hskip
    rw [hsame]
    rcases skipped_iff.mp hskip with hnone | ⟨c₀, hcell, hmem⟩
    · -- it falls into no cell
      refine ⟨fun c => ?_, fun hon => ?_⟩
      · rw [found_append (Or.inl (by rw [hnone]; simp)), h.lookup]
      · rw [h.start hon, startOf_append, hnone]
        simp
    · -- its cell is taken
      have hfound := (htaken c₀).mp hmem
      refine ⟨fun c => ?_, fun hon => ?_⟩
      · by_cases hc : c = c₀
        · rw [found_append (Or.inr (hc ▸ hfound)), h.lookup]
        · rw [found_append (Or.inl (by
            rw [hcell]
            exact fun heq => hc (Option.some.inj heq).symm)), h.lookup]
      -- the start is set: a point has been kept, if only the one in this cell
      · obtain ⟨y, hy⟩ := Option.isSome_iff_exists.mp hfound
        have hany : (xs.find? fun x => (cellOf P E x).isSome).isSome := by
          rw [List.find?_isSome]
          refine ⟨y, List.mem_of_find?_eq_some hy, ?_⟩
          have hycell : cellOf P E y = some c₀ := by simpa using List.find?_some hy
          rw [hycell]
          rfl
        obtain ⟨z, hz⟩ := Option.isSome_iff_exists.mp hany
        rw [h.start hon, startOf_append]
        unfold startOf
        rw [hz]
        rfl
  · -- it is the first in its cell
    obtain ⟨c₀, hcell⟩ : ∃ c₀, cellOf P E (p, i) = some c₀ :=
      Option.ne_none_iff_exists'.mp fun hnone => hskip (skipped_iff.mpr (Or.inl hnone))
    have hfree : c₀ ∉ image.cells.map Prod.fst := fun hmem =>
      hskip (skipped_iff.mpr (Or.inr ⟨c₀, hcell, hmem⟩))
    have hplace : ((p.ring.toNat : ℤ), columnIdn P E i p.toPoint) = c₀ := by
      unfold cellOf at hcell
      dsimp only at hcell
      split at hcell
      · cases hcell
      · exact Option.some.inj hcell
    obtain ⟨hpoint, hcells, hstart⟩ := deskewPoint_eq h (p := p) (i := i) (by rw [hcell]; rfl)
    unfold projectPoint
    dsimp only
    rw [if_neg hskip, hplace, hcells, hpoint]
    refine ⟨fun c => ?_, hstart⟩
    change (image.cells ++ [(c₀, _)]).lookup c = _
    rw [lookup_snoc]
    -- its own cell holds nothing so far, and the others stay
    by_cases hc : c = c₀
    · have hnone : (xs.find? fun x => cellOf P E x = some c₀) = none := by
        rw [← Option.not_isSome_iff_eq_none]
        exact fun hsome => hfree ((htaken c₀).mpr hsome)
      rw [hc, lookup_cells_eq_none.mpr hfree, if_pos rfl, List.find?_append, hnone,
        List.find?_singleton, if_pos (by simpa using hcell)]
      rfl
    · rw [if_neg hc, Option.or_none, h.lookup, found_append (Or.inl (by
        rw [hcell]
        exact fun heq => hc (Option.some.inj heq).symm))]

/-- The whole loop. -/
theorem projectPointCloud_looksLike :
    LooksLike P E deskewFlag scan imu scan.laserCloudIn.zipIdx
      (projectPointCloud P E deskewFlag scan imu) := by
  have hloop : ∀ (xs pre : List (LaserPoint K × ℕ)) (image : Image K),
      LooksLike P E deskewFlag scan imu pre image →
        LooksLike P E deskewFlag scan imu (pre ++ xs)
          (xs.foldl (projectPoint P E deskewFlag scan imu) image) := by
    intro xs
    induction xs with
    | nil =>
      intro pre image h
      rw [List.append_nil]
      exact h
    | cons x xs ih =>
      intro pre image h
      rw [List.append_cons]
      exact ih _ _ (h.step x)
  refine hloop scan.laserCloudIn.zipIdx [] _ ⟨fun c => rfl, fun _ => rfl⟩

/-- **What is published**: row by row and column by column, the first point of each cell, in the
frame of the first point that is kept. -/
theorem cloudExtraction_eq_first : cloudExtraction P (projectPointCloud P E deskewFlag scan imu) =
    (List.range P.nScan.toNat).flatMap fun i : ℕ =>
      (List.range P.horizonScan.toNat).filterMap fun j : ℕ =>
        (scan.laserCloudIn.zipIdx.find? fun x =>
          cellOf P E x = some ((i : ℤ), (j : ℤ))).map
            (deskewed P E deskewFlag scan imu scan.laserCloudIn.zipIdx) := by
  have hcoe : ∀ n : ℕ, (do let a ← List.range n; pure (a : ℤ)) =
      (List.range n).map fun a : ℕ => (a : ℤ) := by
    intro n
    simp [List.map_eq_flatMap]
  unfold cloudExtraction
  simp only [hcoe, List.filterMap_map]
  rw [List.flatMap_map]
  refine List.flatMap_congr fun i _ => List.filterMap_congr fun j _ => ?_
  exact projectPointCloud_looksLike.lookup ((i : ℤ), (j : ℤ))

end FirstPoint

end Mapping
end WtbAutoware
