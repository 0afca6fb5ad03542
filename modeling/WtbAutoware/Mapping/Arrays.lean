import WtbAutoware.Mapping.Features
import WtbAutoware.Mapping.FirstPoint
import WtbAutoware.Mapping.RangeImage

/-!
# The arrays hold the range image

The range image as a set of cells (`Image`) and as arrays (`RangeImage`) are two views of one
thing. `Represents` relates them: a cell that is taken has a range, and its point is where the
arrays keep it. Nothing is said of the other places, which hold points of earlier scans. One pass
of the loop keeps the relation (`projectInto_represents`), and so does the loop.

Reading the arrays row by row then yields the cells that are taken, in their order
(`extractArrays_eq`). What a message says about the rings of its cloud follows: they lie one
behind the other (`Published.rings`), and from one point of a ring to the next the column grows
(`Published.columns`).
-/

namespace WtbAutoware
namespace Mapping

open Buffers Reactive Sensing

/-! ### Indices -/

section Index

variable {n H i j i' j' : ℤ}

theorem index_inside (hi : 0 ≤ i) (hi' : i < n) (hj : 0 ≤ j) (hj' : j < H) :
    0 ≤ j + i * H ∧ j + i * H < (n * H).toNat := by
  have hH : 0 ≤ H := by omega
  have hle : i * H + H ≤ n * H := by
    rw [← add_one_mul]
    exact mul_le_mul_of_nonneg_right hi' hH
  have hnonneg := mul_nonneg hi hH
  refine ⟨by omega, ?_⟩
  rw [Int.toNat_of_nonneg (by omega)]
  omega

theorem index_injective (hj : 0 ≤ j) (hj' : j < H) (hk : 0 ≤ j') (hk' : j' < H)
    (h : j + i * H = j' + i' * H) : (i, j) = (i', j') := by
  have hcol : j = j' := by
    have hmod := congrArg (· % H) h
    simp only [Int.add_mul_emod_self_right] at hmod
    rwa [Int.emod_eq_of_lt hj hj', Int.emod_eq_of_lt hk hk'] at hmod
  subst hcol
  have hmul : i * H = i' * H := by omega
  rw [mul_right_cancel₀ (show H ≠ 0 by omega) hmul]

end Index

/-! ### Projection -/

section Projection

variable {K : Type} [Field K] [LinearOrder K] [FloorRing K] {P : Params K} {E : Env K}

/-- The arrays hold the image. -/
structure Represents (P : Params K) (image : Image K) (s : RangeImage K) : Prop where
  size : s.fullCloud.size = (P.nScan * P.horizonScan).toNat
  start : s.startRotation = image.startRotation
  calls : s.calls = image.calls
  rows : s.rangeMat.rows = P.nScan
  cols : s.rangeMat.cols = P.horizonScan
  free : ∀ c, s.rangeMat.cell c = none ↔ c ∉ image.cells.map Prod.fst
  inside : ∀ c ∈ image.cells.map Prod.fst,
    (0 ≤ c.1 ∧ c.1 < P.nScan) ∧ 0 ≤ c.2 ∧ c.2 < P.horizonScan
  point : ∀ c p, image.cells.lookup c = some p →
    s.fullCloud.cell (c.2 + c.1 * P.horizonScan) = p
  range : ∀ c r, s.rangeMat.cell c = some r → P.lidarMinRange ≤ r ∧ r ≤ P.lidarMaxRange

omit [FloorRing K] in
/-- The deskewing of a point looks at no cell, and changes none. -/
theorem deskewPoint_cells {deskewFlag : ℤ} {scan : Scan K} {imu : List (ImuRotation K)}
    (image : Image K) (i : ℕ) (relTime : K) (p : Point K) :
    deskewPoint E deskewFlag scan imu image i relTime p =
      ({ (deskewPoint E deskewFlag scan imu ⟨[], image.startRotation, image.calls⟩ i relTime
          p).1 with cells := image.cells },
        (deskewPoint E deskewFlag scan imu ⟨[], image.startRotation, image.calls⟩ i relTime
          p).2) := by
  unfold deskewPoint
  by_cases h : deskewFlag = -1 ∨ ¬ ImuAvailable imu
  · rw [if_pos h, if_pos h]
  · rw [if_neg h, if_neg h]

variable (P E) (deskewFlag : ℤ) (scan : Scan K) (imu : List (ImuRotation K))

/-- The column of the point is looked up, in a vector that has no entries. -/
def LooksUp (p : LaserPoint K) : Prop :=
  P.sensor = .livox ∧
    ¬ (E.pointDistance p.toPoint < P.lidarMinRange ∨
      P.lidarMaxRange < E.pointDistance p.toPoint) ∧
    (p.ring.toNat : ℤ) < P.nScan ∧ (p.ring.toNat : ℤ).tmod P.downsampleRate = 0

/-- A pass that looks a column up goes wrong. -/
theorem projectInto_eq_none {p : LaserPoint K} (h : LooksUp P E p) (i : ℕ) (s : RangeImage K) :
    projectInto P E deskewFlag scan imu s (p, i) = none := by
  obtain ⟨hsensor, hrange, hscan, hrate⟩ := h
  unfold projectInto columnAt
  dsimp only
  rw [if_neg hrange, if_neg (not_le.mpr hscan), if_neg (not_not.mpr hrate), if_pos hsensor]
  rfl

/-- **One pass** that looks up no column goes well and keeps the relation. -/
theorem projectInto_represents (x : LaserPoint K × ℕ) (hlook : ¬ LooksUp P E x.1)
    (image : Image K) (s : RangeImage K) (h : Represents P image s) :
    ∃ s', projectInto P E deskewFlag scan imu s x = some s' ∧
      Represents P (projectPoint P E deskewFlag scan imu image x) s' := by
  obtain ⟨p, i⟩ := x
  obtain ⟨row, hrow⟩ : ∃ row : ℤ, row = p.ring.toNat := ⟨_, rfl⟩
  obtain ⟨column, hcolumn⟩ : ∃ column, column = columnIdn P E i p.toPoint := ⟨_, rfl⟩
  have htaken : s.rangeMat.cell (row, column) ≠ none ↔
      (row, column) ∈ image.cells.map Prod.fst := by
    rw [ne_eq, h.free, not_not]
  have hskip : Skipped P E image row column p.toPoint →
      projectPoint P E deskewFlag scan imu image (p, i) = image := by
    subst hrow hcolumn
    exact fun hout => if_pos hout
  unfold projectInto
  dsimp only
  rw [← hrow]
  by_cases hrange : E.pointDistance p.toPoint < P.lidarMinRange ∨
      P.lidarMaxRange < E.pointDistance p.toPoint
  · rw [if_pos hrange, hskip (Or.inl hrange)]
    exact ⟨s, rfl, h⟩
  rw [if_neg hrange]
  by_cases hscan : P.nScan ≤ row
  · rw [if_pos hscan, hskip (Or.inr (Or.inl hscan))]
    exact ⟨s, rfl, h⟩
  rw [if_neg hscan]
  by_cases hrate : row.tmod P.downsampleRate ≠ 0
  · rw [if_pos hrate, hskip (Or.inr (Or.inr (Or.inl hrate)))]
    exact ⟨s, rfl, h⟩
  rw [if_neg hrate]
  -- there is a column, as the sensor is no livox
  have hlookup : columnAt P E i p.toPoint = some column := by
    unfold columnAt
    rw [if_neg fun hsensor => hlook ⟨hsensor, hrange, hrow ▸ not_le.mp hscan,
      hrow ▸ not_not.mp hrate⟩, hcolumn]
  rw [hlookup, Option.bind_eq_bind, Option.bind_some]
  by_cases hcol : column < 0 ∨ P.horizonScan ≤ column
  · rw [if_pos hcol, hskip (Or.inr (Or.inr (Or.inr (Or.inl hcol))))]
    exact ⟨s, rfl, h⟩
  rw [if_neg hcol]
  have hrow₀ : 0 ≤ row := by omega
  have hinside : s.rangeMat.Inside (row, column) := by
    unfold Sheet.Inside
    rw [h.rows, h.cols]
    exact ⟨⟨hrow₀, not_le.mp hscan⟩, not_lt.mp (fun hneg => hcol (Or.inl hneg)),
      not_le.mp fun hbig => hcol (Or.inr hbig)⟩
  rw [Sheet.load_of_inside hinside, Sheet.store_of_inside hinside, Option.bind_eq_bind,
    Option.bind_some]
  by_cases hcell : (row, column) ∈ image.cells.map Prod.fst
  · rw [if_pos (htaken.mpr hcell), hskip (Or.inr (Or.inr (Or.inr (Or.inr hcell))))]
    exact ⟨s, rfl, h⟩
  -- the point falls into a free cell
  unfold projectPoint
  dsimp only
  rw [← hrow, ← hcolumn, if_neg (fun hne => hcell (htaken.mp hne)),
    if_neg (show ¬ Skipped P E image row column p.toPoint by
    rintro (h₁ | h₂ | h₃ | h₄ | h₅)
    · exact hrange h₁
    · exact hscan h₂
    · exact hrate h₃
    · exact hcol h₄
    · exact hcell h₅)]
  have hplace := index_inside hrow₀ (not_le.mp hscan) (j := column) (H := P.horizonScan)
    (by omega) (by omega)
  rw [← h.size] at hplace
  rw [deskewPoint_cells image, h.start, h.calls]
  obtain ⟨kept, hkept⟩ : ∃ kept, kept = deskewPoint E deskewFlag scan imu
    ⟨[], image.startRotation, image.calls⟩ i p.time p.toPoint := ⟨_, rfl⟩
  rw [← hkept, Buffer.store_of_inside hplace]
  refine ⟨_, rfl, h.size, rfl, rfl, h.rows, h.cols, fun c => ?_, fun c hc => ?_, fun c q hq => ?_,
    fun c r hr => ?_⟩
  · change (s.rangeMat.write (row, column) _).cell c = none ↔
      c ∉ (image.cells ++ [((row, column), kept.2)]).map Prod.fst
    rw [Sheet.cell_write]
    by_cases hc : c = (row, column)
    · simp [hc]
    · simp only [hc, ↓reduceIte, h.free, List.map_append, List.mem_append, List.map_cons,
        List.map_nil, List.mem_singleton, or_false]
  · change c ∈ (image.cells ++ [((row, column), kept.2)]).map Prod.fst at hc
    rw [List.map_append, List.mem_append] at hc
    rcases hc with hold | hnew
    · exact h.inside c hold
    · obtain rfl := List.mem_singleton.mp hnew
      exact ⟨⟨hrow₀, not_le.mp hscan⟩, not_lt.mp (fun hneg => hcol (Or.inl hneg)),
        not_le.mp fun hbig => hcol (Or.inr hbig)⟩
  · change (s.fullCloud.write (column + row * P.horizonScan) kept.2).cell _ = q
    change (image.cells ++ [((row, column), kept.2)]).lookup c = some q at hq
    rw [lookup_snoc] at hq
    rw [Buffer.cell_write]
    by_cases hc : c = (row, column)
    · rw [hc, lookup_cells_eq_none.mpr hcell, if_pos rfl] at hq
      rw [hc, if_pos rfl]
      exact Option.some.inj hq
    · rw [if_neg hc, Option.or_none] at hq
      have hin := h.inside c (by
        by_contra hout
        rw [lookup_cells_eq_none.mpr hout] at hq
        cases hq)
      rw [if_neg, h.point c q hq]
      -- two cells have two places
      intro heq
      exact hc (index_injective hin.2.1 hin.2.2 (by omega) (by omega) heq)
  · change (s.rangeMat.write (row, column) _).cell c = some r at hr
    rw [Sheet.cell_write] at hr
    split at hr
    · obtain rfl := Option.some.inj hr
      exact ⟨not_lt.mp fun hlt => hrange (Or.inl hlt), not_lt.mp fun hlt => hrange (Or.inr hlt)⟩
    · exact h.range c r hr

/-- If a column is looked up, the loop goes wrong. -/
theorem projectArrays_eq_none {p : LaserPoint K} (hp : p ∈ scan.laserCloudIn)
    (h : LooksUp P E p) (fullCloud : Buffer (Point K)) :
    projectArrays P E deskewFlag scan imu fullCloud = none := by
  obtain ⟨i, hi⟩ := List.mem_iff_getElem?.mp hp
  exact foldlM_eq_none (List.mk_mem_zipIdx_iff_getElem?.mpr hi)
    (projectInto_eq_none P E deskewFlag scan imu h i) _

/-- **Projection.** Whatever `fullCloud` holds, the arrays end up holding the image. -/
theorem projectArrays_represents {fullCloud : Buffer (Point K)}
    (hsize : fullCloud.size = (P.nScan * P.horizonScan).toNat)
    (hlook : ∀ p ∈ scan.laserCloudIn, ¬ LooksUp P E p) :
    ∃ s, projectArrays P E deskewFlag scan imu fullCloud = some s ∧
      Represents P (projectPointCloud P E deskewFlag scan imu) s := by
  refine simulate_foldl (fun x hx => projectInto_represents P E deskewFlag scan imu x
    (hlook x.1 (List.mem_of_getElem? (List.mem_zipIdx_iff_getElem?.mp hx)))) ?_
  refine ⟨hsize, rfl, rfl, rfl, rfl, fun c => ?_, fun c hc => ?_, fun c p hp => ?_,
    fun c r hr => ?_⟩
  · simp
  · exact absurd hc List.not_mem_nil
  · cases hp
  · cases hr

end Projection

/-! ### Extraction -/

section Extraction

variable {K : Type} (P : Params K) (image : Image K)

/-- The cells of a row that are taken. -/
def rowCells (i : ℤ) : List (ℤ × ℤ) :=
  ((Int.range 0 P.horizonScan).filter fun j => (i, j) ∈ image.cells.map Prod.fst).map (i, ·)

/-- The cells of the first rows that are taken. -/
def cellsBefore (i : ℕ) : List (ℤ × ℤ) :=
  (List.range i).flatMap fun k : ℕ => rowCells P image (k : ℤ)

/-- The number of the points in front of ring `i`. -/
def firstOf (i : ℕ) : ℤ := (cellsBefore P image i).length

/-- What has been written when the cells of `log` have been extracted. -/
structure Filled (s : RangeImage K) (log : List (ℤ × ℤ)) (x : Counted K) : Prop where
  count : x.count = log.length
  colSize : x.cloudInfo.pointColInd.size = (P.nScan * P.horizonScan).toNat
  rangeSize : x.cloudInfo.pointRange.size = (P.nScan * P.horizonScan).toNat
  points : x.cloudInfo.cloudDeskewed.map some = log.map fun c => image.cells.lookup c
  columns : ∀ (n : ℕ) (h : n < log.length), x.cloudInfo.pointColInd.cell n = log[n].2
  ranges : ∀ (n : ℕ) (h : n < log.length),
    s.rangeMat.cell log[n] = some (x.cloudInfo.pointRange.cell n)

variable {P image} {s : RangeImage K} {log : List (ℤ × ℤ)} {x : Counted K}

theorem cellsBefore_succ (i : ℕ) :
    cellsBefore P image (i + 1) = cellsBefore P image i ++ rowCells P image i := by
  unfold cellsBefore
  rw [List.range_succ, List.flatMap_append]
  simp

theorem firstOf_mono (P : Params K) (image : Image K) : Monotone (firstOf P image) := by
  refine monotone_nat_of_le_succ fun i => ?_
  unfold firstOf
  rw [cellsBefore_succ, List.length_append]
  omega

theorem length_rowCells_le (P : Params K) (image : Image K) (i : ℤ) :
    (rowCells P image i).length ≤ P.horizonScan.toNat := by
  unfold rowCells
  rw [List.length_map]
  refine (List.length_filter_le _ _).trans ?_
  rw [length_range, sub_zero]

/-- No ring has more points than the image has columns. -/
theorem firstOf_succ_le (P : Params K) (image : Image K) (i : ℕ) :
    firstOf P image (i + 1) ≤ firstOf P image i + P.horizonScan.toNat := by
  have hrow := length_rowCells_le P image i
  unfold firstOf
  rw [cellsBefore_succ, List.length_append]
  omega

variable [LinearOrder K]

/-- **One cell.** -/
theorem extractCell_filled (h : Represents P image s) {i j : ℤ} (hi : 0 ≤ i) (hi' : i < P.nScan)
    (hj : 0 ≤ j) (hj' : j < P.horizonScan) (hx : Filled P image s log x)
    (hroom : (log.length : ℤ) ≤ j + i * P.horizonScan) :
    ∃ x', extractCell P s i x j = some x' ∧
      Filled P image s
        (log ++ ([j].filter fun j => (i, j) ∈ image.cells.map Prod.fst).map (i, ·)) x' ∧
      x'.cloudInfo.startRingIndex = x.cloudInfo.startRingIndex ∧
      x'.cloudInfo.endRingIndex = x.cloudInfo.endRingIndex := by
  unfold extractCell
  rw [Sheet.load_of_inside (show s.rangeMat.Inside (i, j) by
    unfold Sheet.Inside
    rw [h.rows, h.cols]
    exact ⟨⟨hi, hi'⟩, hj, hj'⟩)]
  by_cases hcell : (i, j) ∈ image.cells.map Prod.fst
  · obtain ⟨r, hr⟩ := Option.ne_none_iff_exists'.mp fun hfree => (h.free (i, j)).mp hfree hcell
    obtain ⟨p, hp⟩ := Option.ne_none_iff_exists'.mp fun hnone =>
      lookup_cells_eq_none.mp hnone hcell
    -- both indices are inside: that of the cell, and the count of what has been taken
    have hplace := index_inside hi hi' hj hj'
    have hcount : 0 ≤ x.count ∧ x.count < ((P.nScan * P.horizonScan).toNat : ℕ) := by
      rw [hx.count]
      omega
    have hload : s.fullCloud.load (j + i * P.horizonScan) = some p := by
      rw [Buffer.load_of_inside (by rwa [Buffer.Inside, h.size]), h.point (i, j) p hp]
    rw [hr, Option.bind_eq_bind, Option.bind_some]
    dsimp only
    rw [Buffer.store_of_inside (by rwa [Buffer.Inside, hx.colSize]),
      Buffer.store_of_inside (by rwa [Buffer.Inside, hx.rangeSize]), hload]
    rw [List.filter_cons_of_pos (by simpa using hcell), List.filter_nil, List.map_cons,
      List.map_nil]
    refine ⟨_, rfl, ⟨?_, hx.colSize, hx.rangeSize, ?_, fun n hn => ?_, fun n hn => ?_⟩, rfl, rfl⟩
    · change x.count + 1 = _
      rw [hx.count, List.length_append]
      rfl
    · change (x.cloudInfo.cloudDeskewed ++ [p]).map some = _
      rw [List.map_append, List.map_append, hx.points, List.map_singleton, List.map_singleton, hp]
    · change (x.cloudInfo.pointColInd.write x.count j).cell n = _
      rw [Buffer.cell_write, hx.count]
      rcases eq_or_lt_of_le (Nat.le_of_lt_succ (by simpa using hn)) with rfl | hlt
      · rw [if_pos rfl, List.getElem_append_right (le_refl _)]
        simp
      · rw [if_neg (by omega), List.getElem_append_left hlt]
        exact hx.columns n hlt
    · change _ = some ((x.cloudInfo.pointRange.write x.count r).cell n)
      rw [Buffer.cell_write, hx.count]
      rcases eq_or_lt_of_le (Nat.le_of_lt_succ (by simpa using hn)) with rfl | hlt
      · rw [if_pos rfl, List.getElem_append_right (le_refl _)]
        simpa using hr
      · rw [if_neg (by omega), List.getElem_append_left hlt]
        exact hx.ranges n hlt
  · rw [(h.free (i, j)).mpr hcell]
    refine ⟨x, rfl, ?_, rfl, rfl⟩
    rw [List.filter_cons_of_neg (by simpa using hcell)]
    simpa using hx

/-- **One row** adds its cells to the log, and notes where they start and end. -/
theorem extractRow_filled (h : Represents P image s) {i : ℕ} (hi : (i : ℤ) < P.nScan)
    (hx : Filled P image s log x) (hroom : (log.length : ℤ) ≤ i * (P.horizonScan.toNat : ℤ))
    (hstarts : i < x.cloudInfo.startRingIndex.length)
    (hends : i < x.cloudInfo.endRingIndex.length) :
    ∃ x', extractRow P s x i = some x' ∧ Filled P image s (log ++ rowCells P image i) x' ∧
      x'.cloudInfo.startRingIndex =
        x.cloudInfo.startRingIndex.set i ((log.length : ℤ) - 1 + 5) ∧
      x'.cloudInfo.endRingIndex =
        x.cloudInfo.endRingIndex.set i (((log ++ rowCells P image i).length : ℤ) - 1 - 5) := by
  obtain ⟨x₀, hx₀⟩ : ∃ x₀ : Counted K, x₀ = ⟨{ x.cloudInfo with
    startRingIndex := x.cloudInfo.startRingIndex.set i (x.count - 1 + 5) }, x.count⟩ := ⟨_, rfl⟩
  have hstart : Filled P image s log x₀ := by
    subst hx₀
    exact ⟨hx.count, hx.colSize, hx.rangeSize, hx.points, hx.columns, hx.ranges⟩
  -- the cells of the row, with no more of them in the log than have been looked at
  have hcells : ∃ y, (Int.range 0 P.horizonScan).foldlM (extractCell P s i) x₀ = some y ∧ _ :=
    run_of_steps (I := fun js y => Filled P image s
        (log ++ (js.filter fun j => ((i : ℤ), j) ∈ image.cells.map Prod.fst).map ((i : ℤ), ·)) y ∧
      y.cloudInfo.startRingIndex = x₀.cloudInfo.startRingIndex ∧
      y.cloudInfo.endRingIndex = x₀.cloudInfo.endRingIndex)
    ⟨by simpa using hstart, rfl, rfl⟩ (fun pre j post hsplit y hy => by
      obtain ⟨hfilled, hfirst, hlast⟩ := hy
      have hj : j ∈ Int.range 0 P.horizonScan :=
        hsplit ▸ List.mem_append_right _ List.mem_cons_self
      obtain ⟨hlo, hhi⟩ := Int.mem_range_iff.mp hj
      have hindex := eq_of_range_eq hsplit
      obtain ⟨y', hrun, hfilled', hfirst', hlast'⟩ :=
        extractCell_filled h (Int.natCast_nonneg i) hi hlo hhi hfilled (by
          have hpre := List.length_filter_le
            (fun j => decide (((i : ℤ), j) ∈ image.cells.map Prod.fst)) pre
          rw [Int.toNat_of_nonneg (hlo.trans hhi.le)] at hroom
          rw [List.length_append, List.length_map]
          omega)
      refine ⟨y', hrun, ?_, hfirst'.trans hfirst, hlast'.trans hlast⟩
      rwa [List.append_assoc, ← List.map_append, ← List.filter_append] at hfilled')
  obtain ⟨y, hrun, hfilled, hfirst, hlast⟩ := hcells
  refine ⟨⟨{ y.cloudInfo with
    endRingIndex := y.cloudInfo.endRingIndex.set i (y.count - 1 - 5) }, y.count⟩, ?_, ?_, ?_, ?_⟩
  · unfold extractRow
    rw [assign_of_lt hstarts, Option.bind_eq_bind, Option.bind_some]
    refine Option.bind_eq_some_iff.mpr ⟨y, ?_, ?_⟩
    · subst hx₀
      exact hrun
    · have hroom' : i < y.cloudInfo.endRingIndex.length := by
        rw [hlast, hx₀]
        exact hends
      rw [assign_of_lt hroom']
      rfl
  · exact ⟨hfilled.count, hfilled.colSize, hfilled.rangeSize, hfilled.points, hfilled.columns,
      hfilled.ranges⟩
  · rw [← hx.count]
    exact hfirst.trans (by rw [hx₀])
  · change y.cloudInfo.endRingIndex.set i (y.count - 1 - 5) = _
    rw [hlast, hfilled.count, hx₀]
    rfl

/-- What a message says, when its arrays have been filled from those of the image. -/
structure Published (P : Params K) (image : Image K) (s : RangeImage K) (info : CloudInfo K) :
    Prop where
  rings : Rings info P.nScan.toNat (firstOf P image)
  cloud : info.cloudDeskewed = cloudExtraction P image
  room : info.cloudSize ≤ (P.nScan * P.horizonScan).toNat
  colSize : info.pointColInd.size = (P.nScan * P.horizonScan).toNat
  rangeSize : info.pointRange.size = (P.nScan * P.horizonScan).toNat
  starts : info.startRingIndex.length = P.nScan.toNat
  ends : info.endRingIndex.length = P.nScan.toNat
  columns : ∀ (n : ℕ) (h : n < (cellsBefore P image P.nScan.toNat).length),
    info.pointColInd.cell n = (cellsBefore P image P.nScan.toNat)[n].2
  ranges : ∀ (n : ℕ) (h : n < (cellsBefore P image P.nScan.toNat).length),
    s.rangeMat.cell (cellsBefore P image P.nScan.toNat)[n] = some (info.pointRange.cell n)

/-- The rows have been extracted up to row `i`. -/
structure Extending (P : Params K) (image : Image K) (s : RangeImage K) (i : ℕ) (x : Counted K) :
    Prop where
  filled : Filled P image s (cellsBefore P image i) x
  room : firstOf P image i ≤ i * (P.horizonScan.toNat : ℤ)
  starts : x.cloudInfo.startRingIndex.length = P.nScan.toNat
  ends : x.cloudInfo.endRingIndex.length = P.nScan.toNat
  start : ∀ j < i, x.cloudInfo.startRingIndex[j]? = some (firstOf P image j - 1 + 5)
  stop : ∀ j < i, x.cloudInfo.endRingIndex[j]? = some (firstOf P image (j + 1) - 1 - 5)

/-- One more row. -/
theorem Extending.step (h : Represents P image s) {i : ℕ} (hi : (i : ℤ) < P.nScan)
    (hx : Extending P image s i x) :
    ∃ x', extractRow P s x i = some x' ∧ Extending P image s (i + 1) x' := by
  have hlt : i < P.nScan.toNat := by omega
  obtain ⟨x', hrun, hfilled, hstart, hend⟩ := extractRow_filled h hi hx.filled hx.room
    (by rwa [hx.starts]) (by rwa [hx.ends])
  rw [← cellsBefore_succ] at hfilled hend
  refine ⟨x', hrun, hfilled, ?_, ?_, ?_, fun j hj => ?_, fun j hj => ?_⟩
  · have hrow := firstOf_succ_le P image i
    have hroom := hx.room
    push_cast
    rw [add_one_mul]
    omega
  · rw [hstart, List.length_set]
    exact hx.starts
  · rw [hend, List.length_set]
    exact hx.ends
  · rw [hstart]
    rcases eq_or_lt_of_le (Nat.le_of_lt_succ hj) with rfl | hold
    · rw [List.getElem?_set_self (by rw [hx.starts]; exact hlt)]
      rfl
    · rw [List.getElem?_set_ne (by omega)]
      exact hx.start j hold
  · rw [hend]
    rcases eq_or_lt_of_le (Nat.le_of_lt_succ hj) with rfl | hold
    · rw [List.getElem?_set_self (by rw [hx.ends]; exact hlt)]
      rfl
    · rw [List.getElem?_set_ne (by omega)]
      exact hx.stop j hold

omit [LinearOrder K] in
/-- The points of the cells of a row. -/
theorem filterMap_lookup (image : Image K) (i : ℤ) (js : List ℤ) :
    (js.filterMap fun j => image.cells.lookup (i, j)).map some =
      ((js.filter fun j => (i, j) ∈ image.cells.map Prod.fst).map (i, ·)).map
        fun c => image.cells.lookup c := by
  induction js with
  | nil => rfl
  | cons j js ih =>
    rw [List.filterMap_cons]
    cases hcell : image.cells.lookup (i, j) with
    | none =>
      rw [List.filter_cons_of_neg (by simpa using lookup_cells_eq_none.mp hcell)]
      exact ih
    | some p =>
      have hmem : (i, j) ∈ image.cells.map Prod.fst := by
        by_contra hout
        rw [lookup_cells_eq_none.mpr hout] at hcell
        cases hcell
      rw [List.filter_cons_of_pos (by simpa using hmem), List.map_cons, List.map_cons,
        List.map_cons, hcell, ih]

omit [LinearOrder K] in
/-- The points of the cells that are taken, row by row. -/
theorem cloudExtraction_eq (P : Params K) (image : Image K) :
    (cloudExtraction P image).map some =
      (cellsBefore P image P.nScan.toNat).map fun c => image.cells.lookup c := by
  have hrange : ∀ n : ℤ, (do let a ← List.range n.toNat; pure (a : ℤ)) = Int.range 0 n := by
    intro n
    unfold Int.range
    simp [List.map_eq_flatMap]
  unfold cloudExtraction cellsBefore
  rw [hrange, List.map_flatMap, List.map_flatMap]
  simp only [hrange, filterMap_lookup]
  change (Int.range 0 P.nScan).flatMap (fun i => (rowCells P image i).map _) = _
  unfold Int.range
  rw [sub_zero, List.flatMap_map]
  simp only [zero_add]

/-- **Extraction.** From arrays that hold the image, the cells that are taken come out row by row,
whatever the message held before. -/
theorem extractArrays_published (h : Represents P image s) {info : CloudInfo K}
    (hcol : info.pointColInd.size = (P.nScan * P.horizonScan).toNat)
    (hrange : info.pointRange.size = (P.nScan * P.horizonScan).toNat)
    (hstart : info.startRingIndex.length = P.nScan.toNat)
    (hend : info.endRingIndex.length = P.nScan.toNat) :
    ∃ x, extractArrays P s info = some x ∧ Published P image s x.cloudInfo := by
  have hrows : ∃ x, (List.range P.nScan.toNat).foldlM (extractRow P s)
      ⟨{ info with cloudDeskewed := [] }, 0⟩ = some x ∧ _ := run_of_steps
    (I := fun is x => Extending P image s is.length x) (by
      refine ⟨⟨rfl, hcol, hrange, rfl, fun n hn => ?_, fun n hn => ?_⟩, ?_, hstart, hend,
        fun j hj => ?_, fun j hj => ?_⟩
      · exact absurd hn (Nat.not_lt_zero n)
      · exact absurd hn (Nat.not_lt_zero n)
      · simp [firstOf, cellsBefore]
      · exact absurd hj (Nat.not_lt_zero j)
      · exact absurd hj (Nat.not_lt_zero j)) (fun pre i post hsplit x hx => by
      have hpre := congrArg (·[pre.length]?) hsplit
      have hlen := congrArg List.length hsplit
      rw [List.length_range, List.length_append, List.length_cons] at hlen
      rw [List.getElem?_range (by omega), List.getElem?_append_right (le_refl _), Nat.sub_self,
        List.getElem?_cons_zero] at hpre
      rw [← Option.some.inj hpre, List.length_append]
      exact hx.step h (by omega))
  obtain ⟨x, hrun, hx⟩ := hrows
  rw [List.length_range] at hx
  -- the count behind the last row is the size of the cloud
  have hlast : firstOf P image P.nScan.toNat = x.cloudInfo.cloudSize := by
    have hlen := congrArg List.length hx.filled.points
    rw [List.length_map, List.length_map] at hlen
    unfold firstOf CloudInfo.cloudSize
    rw [hlen]
  refine ⟨x, hrun, ⟨rfl, firstOf_mono P image, hlast, hx.start, hx.stop⟩, ?_, ?_, hx.filled.colSize,
    hx.filled.rangeSize, hx.starts, hx.ends, hx.filled.columns, hx.filled.ranges⟩
  · exact List.map_injective_iff.mpr (Option.some_injective _)
      (hx.filled.points.trans (cloudExtraction_eq P image).symm)
  · rw [← hlast]
    refine hx.room.trans ?_
    by_cases hpos : 0 ≤ P.nScan ∧ 0 ≤ P.horizonScan
    · rw [Int.toNat_of_nonneg hpos.1, Int.toNat_of_nonneg hpos.2]
      exact Int.self_le_toNat _
    · -- an image without rows or columns has no cells
      have hzero : P.nScan.toNat = 0 ∨ P.horizonScan.toNat = 0 := by omega
      rcases hzero with hzero | hzero <;> simp [hzero]

end Extraction

end Mapping
end WtbAutoware
