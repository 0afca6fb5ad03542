import WtbAutoware.Mapping.Segments

/-!
# What `extractFeatures` finds in a scan

The rings of a scan lie one behind the other in its cloud, and `cloudExtraction` leaves out five
points at each end of a ring (`Rings`). Every point of a segment then lies deep in the cloud,
with one exception: the first ring starts at point 4, and `calculateSmoothness` starts at
point 5. The entry in slot 4 of `cloudSmoothness` is therefore never written, but sorted and
looked at with the rest of the first segment. While the point that it names is marked, it does no
harm (`Harmless`), and the handler goes well (`laserCloudInfoHandler_eq`).

Under that condition the results are about the scan alone, whatever else the arrays have kept
from earlier scans:

* `cornerCloud_spec`: the corners are edges off the occlusions, no two near each other, and at
  most twenty from a segment;
* `edge_spec`: an edge that is no corner had to give way to one that is as sharp, to something
  taken before its segment, or to twenty corners of its segment;
* `surfaceCloud_spec`: each ring's surface is made of the points of its segments that are no
  corners.
-/

namespace WtbAutoware
namespace Mapping

open Buffers

/-! ### Segments of a ring -/

section Bounds

variable {start stop : ℤ}

theorem segmentEnd_eq (start stop j : ℤ) :
    segmentEnd start stop j = segmentStart start stop (j + 1) - 1 := by
  unfold segmentEnd segmentStart
  rw [show 6 - (j + 1) = 5 - j by ring]

theorem segmentStart_mono (h : start ≤ stop) {j j' : ℤ} (hj : j ≤ j') :
    segmentStart start stop j ≤ segmentStart start stop j' := by
  refine Int.tdiv_le_tdiv (by norm_num) ?_
  nlinarith [mul_nonneg (sub_nonneg.mpr h) (sub_nonneg.mpr hj)]

theorem segmentStart_anti (h : stop ≤ start) {j j' : ℤ} (hj : j ≤ j') :
    segmentStart start stop j' ≤ segmentStart start stop j := by
  refine Int.tdiv_le_tdiv (by norm_num) ?_
  nlinarith [mul_nonneg (sub_nonneg.mpr h) (sub_nonneg.mpr hj)]

theorem segmentStart_zero : segmentStart start stop 0 = start := by
  unfold segmentStart
  rw [sub_zero, mul_zero, add_zero, Int.mul_tdiv_cancel _ (by norm_num)]

theorem segmentStart_six : segmentStart start stop 6 = stop := by
  unfold segmentStart
  rw [sub_self, mul_zero, zero_add, Int.mul_tdiv_cancel _ (by norm_num)]

/-- The segments of a ring that are not passed over. -/
def ringSegments (start stop : ℤ) : List (ℤ × ℤ) :=
  ((Int.range 0 6).map fun j => (segmentStart start stop j, segmentEnd start stop j)).filter
    fun b => b.1 < b.2

/-- They are not empty, and lie in the ring. -/
theorem bounds_of_mem {b : ℤ × ℤ} (h : b ∈ ringSegments start stop) :
    start ≤ b.1 ∧ b.1 < b.2 ∧ b.2 < stop := by
  obtain ⟨hmem, hlt⟩ := List.mem_filter.mp h
  obtain ⟨j, hj, rfl⟩ := List.mem_map.mp hmem
  obtain ⟨hlo, hhi⟩ := Int.mem_range_iff.mp hj
  have hlt' : segmentStart start stop j < segmentEnd start stop j := of_decide_eq_true hlt
  have hend := segmentEnd_eq start stop j
  rcases le_total start stop with hle | hge
  · have hfirst := segmentStart_mono hle hlo
    have hlast := segmentStart_mono hle (show j + 1 ≤ 6 by omega)
    rw [segmentStart_zero] at hfirst
    rw [segmentStart_six] at hlast
    exact ⟨hfirst, hlt', by omega⟩
  · have hstep := segmentStart_anti hge (show j ≤ j + 1 by omega)
    omega

/-- They lie one behind the other. -/
theorem pairwise_ringSegments : (ringSegments start stop).Pairwise fun a b => a.2 < b.1 := by
  rcases le_total start stop with hle | hge
  · refine List.Pairwise.filter _ (List.Pairwise.map _ (R := (· < ·)) ?_ ?_)
    · intro j j' hj
      rw [segmentEnd_eq]
      exact Int.sub_one_lt_iff.mpr (segmentStart_mono hle hj)
    · decide
  · have hnil : ringSegments start stop = [] := by
      refine List.filter_eq_nil_iff.mpr fun b hb => ?_
      obtain ⟨j, -, rfl⟩ := List.mem_map.mp hb
      have hstep := segmentStart_anti hge (show j ≤ j + 1 by omega)
      have hend := segmentEnd_eq start stop j
      simp only [decide_eq_true_eq]
      omega
    rw [hnil]
    exact List.Pairwise.nil

theorem extractSegments_eq {K : Type} [Field K] [LinearOrder K] {P : FeatureParams K}
    {info : CloudInfo K} {x : Extraction K} : extractSegments P info start stop x =
      (ringSegments start stop).foldlM (fun x b => extractSegment P info b.1 b.2 x) x := by
  unfold extractSegments ringSegments
  rw [List.foldlM_filter, List.foldlM_map]
  congr 1
  funext x j
  simp only [decide_eq_true_eq]
  by_cases h : segmentStart start stop j < segmentEnd start stop j
  · rw [if_pos h, if_neg (not_le.mpr h)]
  · rw [if_neg h, if_pos (not_lt.mp h)]
    rfl

end Bounds

/-! ### The arrays in front of `extractFeatures` -/

section Arrays

variable {K : Type} [Field K] [LinearOrder K] (info : CloudInfo K) (s : Features K)

/-- The arrays that `extractFeatures` finds. -/
def prepare : Features K := markOccludedPoints info (calculateSmoothness info s)

/-- The curvature of a point. -/
def curvature (i : ℤ) : K := diffRange info i * diffRange info i

/-- The point is set aside by `markOccludedPoints`. -/
def Occluded (j : ℤ) : Prop := ∃ i ∈ Int.range 5 (info.cloudSize - 6), j ∈ occludedBy info i

omit [LinearOrder K] in
/-- `calculateSmoothness`, array by array. -/
theorem calculateSmoothness_eq : calculateSmoothness info s =
    { cloudCurvature := (Int.range 5 (info.cloudSize - 5)).foldl
        (fun b i => b.write i (curvature info i)) s.cloudCurvature
      cloudNeighborPicked := (Int.range 5 (info.cloudSize - 5)).foldl
        (fun b i => b.write i false) s.cloudNeighborPicked
      cloudLabel := (Int.range 5 (info.cloudSize - 5)).foldl
        (fun b i => b.write i 0) s.cloudLabel
      cloudSmoothness := (Int.range 5 (info.cloudSize - 5)).foldl
        (fun b i => b.write i ⟨curvature info i, i⟩) s.cloudSmoothness } := by
  unfold calculateSmoothness
  generalize Int.range 5 (info.cloudSize - 5) = is
  induction is generalizing s with
  | nil => rfl
  | cons i is ih => exact ih (calculatePoint info s i)

variable {info s} {i j : ℤ}

theorem slot_prepare : (prepare info s).cloudSmoothness.cell i =
    if i ∈ Int.range 5 (info.cloudSize - 5) then ⟨curvature info i, i⟩
    else s.cloudSmoothness.cell i := by
  unfold prepare markOccludedPoints
  rw [calculateSmoothness_eq]
  exact Buffer.foldl_write_cell (fun i => Smoothness.mk (curvature info i) i) _ _ _

theorem curvature_prepare : (prepare info s).cloudCurvature.cell i =
    if i ∈ Int.range 5 (info.cloudSize - 5) then curvature info i
    else s.cloudCurvature.cell i := by
  unfold prepare markOccludedPoints
  rw [calculateSmoothness_eq]
  exact Buffer.foldl_write_cell (curvature info) _ _ _

theorem label_prepare : (prepare info s).cloudLabel.cell i =
    if i ∈ Int.range 5 (info.cloudSize - 5) then 0 else s.cloudLabel.cell i := by
  unfold prepare markOccludedPoints
  rw [calculateSmoothness_eq]
  exact Buffer.foldl_write_cell (fun _ => 0) _ _ _

/-- The loop over the points marks what one of its passes marks. -/
theorem cell_foldl_occludedBy (is : List ℤ) (b : Buffer Bool) :
    (is.foldl (fun picked i => (occludedBy info i).foldl
      (fun picked j => picked.write j true) picked) b).cell j = true ↔
      (∃ i ∈ is, j ∈ occludedBy info i) ∨ b.cell j = true := by
  induction is generalizing b with
  | nil => simp
  | cons i is ih =>
    rw [List.foldl_cons, ih, Buffer.foldl_write_cell (fun _ => true)]
    by_cases hj : j ∈ occludedBy info i
    · simp [hj]
    · simp [hj]

theorem size_foldl_occludedBy (is : List ℤ) (b : Buffer Bool) :
    (is.foldl (fun picked i => (occludedBy info i).foldl
      (fun picked j => picked.write j true) picked) b).size = b.size := by
  induction is generalizing b with
  | nil => rfl
  | cons i is ih => exact (ih _).trans (Buffer.foldl_write_size (fun _ => true) _ b)

/-- The marks are those of the scan and, outside it, those that were there. -/
theorem picked_prepare : (prepare info s).cloudNeighborPicked.cell j = true ↔ Occluded info j ∨
    (j ∉ Int.range 5 (info.cloudSize - 5) ∧ s.cloudNeighborPicked.cell j = true) := by
  unfold prepare markOccludedPoints
  rw [calculateSmoothness_eq]
  refine (cell_foldl_occludedBy _ _).trans (or_congr_right ?_)
  rw [Buffer.foldl_write_cell (fun _ => false)]
  by_cases hj : j ∈ Int.range 5 (info.cloudSize - 5)
  · simp [hj]
  · simp [hj]

theorem fits_prepare (h : Fits info s) : Fits info (prepare info s) := by
  unfold prepare markOccludedPoints
  rw [calculateSmoothness_eq]
  refine ⟨?_, ?_, ?_, ?_, h.cloud⟩
  · exact (Buffer.foldl_write_size (fun i => Smoothness.mk (curvature info i) i) _ _).trans
      h.smoothness
  · exact (Buffer.foldl_write_size (curvature info) _ _).trans h.curvature
  · exact (size_foldl_occludedBy _ _).trans
      ((Buffer.foldl_write_size (fun _ => false) _ _).trans h.picked)
  · exact (Buffer.foldl_write_size (fun _ => 0) _ _).trans h.label

end Arrays

/-! ### Rings -/

section Rings

variable {K : Type}

/-- Ring `i` is made of the points from `first i` to in front of `first (i + 1)`, and five at
each end are left out. -/
structure Rings (info : CloudInfo K) (nScan : ℕ) (first : ℕ → ℤ) : Prop where
  zero : first 0 = 0
  mono : Monotone first
  last : first nScan = info.cloudSize
  start : ∀ i < nScan, info.startRingIndex[i]? = some (first i - 1 + 5)
  stop : ∀ i < nScan, info.endRingIndex[i]? = some (first (i + 1) - 1 - 5)

/-- The segments of ring `i`. -/
def segmentsOf (first : ℕ → ℤ) (i : ℕ) : List (ℤ × ℤ) :=
  ringSegments (first i - 1 + 5) (first (i + 1) - 1 - 5)

/-- The entry in slot 4 can be looked at: it names a point that is marked, or deep in the
cloud. -/
structure Harmless (info : CloudInfo K) (s : Features K) : Prop where
  named : s.cloudNeighborPicked.Inside (slotInd s 4)
  safe : s.cloudNeighborPicked.cell (slotInd s 4) = true ∨ Deep info (slotInd s 4)

variable {info : CloudInfo K} {nScan : ℕ} {first : ℕ → ℤ}

theorem Rings.first_nonneg (h : Rings info nScan first) (i : ℕ) : 0 ≤ first i :=
  h.zero.symm.le.trans (h.mono (Nat.zero_le i))

theorem Rings.first_le (h : Rings info nScan first) {i : ℕ} (hi : i ≤ nScan) :
    first i ≤ info.cloudSize := (h.mono hi).trans h.last.le

/-- Where the segments of the scan lie. -/
theorem Rings.bounds (h : Rings info nScan first) {i : ℕ} (hi : i < nScan) {b : ℤ × ℤ}
    (hb : b ∈ segmentsOf first i) :
    4 ≤ b.1 ∧ first i + 4 ≤ b.1 ∧ b.1 < b.2 ∧ b.2 < first (i + 1) - 6 ∧
      b.2 + 6 < info.cloudSize := by
  obtain ⟨hlo, hlt, hhi⟩ := bounds_of_mem hb
  have hzero := h.first_nonneg i
  have hlast := h.first_le (Nat.succ_le_of_lt hi)
  change first (i + 1) ≤ _ at hlast
  refine ⟨?_, ?_, hlt, ?_, ?_⟩ <;> omega

theorem mem_range_of_covered {b : ℤ × ℤ} (hb : b.2 + 6 < info.cloudSize) {k : ℤ} (hk : 5 ≤ k)
    (hk' : k ≤ b.2) : k ∈ Int.range 5 (info.cloudSize - 5) :=
  Int.mem_range_iff.mpr ⟨hk, by omega⟩

variable [Field K] [LinearOrder K] {s : Features K}

theorem slotInd_prepare {k : ℤ} (hk : k ∈ Int.range 5 (info.cloudSize - 5)) :
    slotInd (prepare info s) k = k := by
  unfold slotInd
  rw [slot_prepare, if_pos hk]

theorem slotInd_prepare_four : slotInd (prepare info s) 4 = slotInd s 4 := by
  unfold slotInd
  rw [slot_prepare, if_neg (by simp [Int.mem_range_iff])]

/-- Each entry of a segment can be looked at. -/
theorem ready_prepare (hfits : Fits info s) (hharm : Harmless info s) {k : ℤ} (hk : 4 ≤ k)
    (hk' : k + 6 < info.cloudSize) :
    Ready info (prepare info s) k ∧ ∃ p, info.point k = some p := by
  have hcloud := hfits.cloud
  have hfits' := fits_prepare hfits
  have hin : (prepare info s).cloudSmoothness.Inside k := by
    rw [Buffer.Inside, hfits'.smoothness]
    omega
  have hpoint : ∃ p, info.point k = some p := by
    have hlt : k.toNat < info.cloudDeskewed.length := by
      unfold CloudInfo.cloudSize at hk'
      omega
    exact ⟨_, by rw [CloudInfo.point, if_pos (by omega), List.getElem?_eq_getElem hlt]⟩
  refine ⟨?_, hpoint⟩
  rcases eq_or_lt_of_le hk with rfl | hlt
  · -- slot 4 still holds what it held before
    refine ⟨hin, ?_, ?_⟩
    · rw [slotInd_prepare_four, Buffer.Inside, hfits'.picked, ← hfits.picked]
      exact hharm.named
    · rw [slotInd_prepare_four, picked_prepare]
      by_cases hmem : slotInd s 4 ∈ Int.range 5 (info.cloudSize - 5)
      · obtain ⟨hlo, hhi⟩ := Int.mem_range_iff.mp hmem
        exact Or.inr ⟨hlo, by omega⟩
      · exact hharm.safe.imp_left fun hmark => Or.inr ⟨hmem, hmark⟩
  · have hmem : k ∈ Int.range 5 (info.cloudSize - 5) := Int.mem_range_iff.mpr ⟨hlt, by omega⟩
    refine ⟨hin, ?_, ?_⟩
    · rw [slotInd_prepare hmem, Buffer.Inside, hfits'.picked]
      omega
    · rw [slotInd_prepare hmem]
      exact Or.inr ⟨hlt, by omega⟩

/-! ### The loop over the rings -/

/-- What the loop has made of the rings `is`. -/
structure Extracted (P : FeatureParams K) (info : CloudInfo K) (s₀ : Features K) (first : ℕ → ℤ)
    (is : List ℕ) (rings : List (List Segment)) (y : FeatureCloud K) : Prop where
  bounds : rings.map (·.map fun g => (g.sp, g.ep)) = is.map (segmentsOf first)
  tracked : Tracked P info s₀ rings.flatten y.arrays
  corner : y.cornerCloud = (rings.flatten.flatMap Segment.corners).filterMap info.point
  surface : y.surfaceCloud = rings.flatMap fun gs =>
    P.downSizeFilter ((gs.flatMap Segment.surface).filterMap info.point)

variable {P : FeatureParams K}

omit [Field K] in
/-- A segment of the log is one of a ring. -/
theorem Extracted.mem {s₀ : Features K} {is : List ℕ} {rings : List (List Segment)}
    {y : FeatureCloud K} (h : Extracted P info s₀ first is rings y) {g : Segment}
    (hg : g ∈ rings.flatten) : ∃ i ∈ is, (g.sp, g.ep) ∈ segmentsOf first i := by
  obtain ⟨gs, hgs, hmem⟩ := List.mem_flatten.mp hg
  have hring := List.mem_map_of_mem (f := fun gs : List Segment => gs.map fun g => (g.sp, g.ep)) hgs
  rw [h.bounds] at hring
  obtain ⟨i, hi, heq⟩ := List.mem_map.mp hring
  exact ⟨i, hi, heq ▸ List.mem_map_of_mem (f := fun g : Segment => (g.sp, g.ep)) hmem⟩

/-- **A ring** goes well and is added to what has been found. -/
theorem Extracted.ring (hrings : Rings info P.nScan first) (hfits : Fits info s)
    (hharm : Harmless info s) {is : List ℕ} {i : ℕ} (hi : i < P.nScan) (his : ∀ i' ∈ is, i' < i)
    {rings : List (List Segment)} {y : FeatureCloud K}
    (h : Extracted P info (prepare info s) first is rings y) :
    ∃ gs y', extractRing P info y i = some y' ∧
      Extracted P info (prepare info s) first (is ++ [i]) (rings ++ [gs]) y' := by
  have hbounds : ∀ b ∈ segmentsOf first i, _ := fun b hb => hrings.bounds hi hb
  obtain ⟨gs, x', hrun, hgs, htracked, hcorner, hsurface⟩ :=
    Tracked.segments (segmentsOf first i) (x := ⟨y.arrays, y.cornerCloud, []⟩) h.tracked
      (fits_prepare hfits)
      (fun b hb => by
        obtain ⟨hlo, -, hlt, -⟩ := hbounds b hb
        exact ⟨by omega, hlt⟩)
      (fun b hb k hk hk' => by
        obtain ⟨hlo, -, -, -, hhi⟩ := hbounds b hb
        exact ready_prepare hfits hharm (hlo.trans hk) (by omega))
      pairwise_ringSegments
      (fun g hg b hb => by
        -- an earlier ring ends before this one starts
        obtain ⟨i', hi', hmem⟩ := h.mem hg
        obtain ⟨-, -, -, hend, -⟩ := hrings.bounds ((his i' hi').trans hi) hmem
        obtain ⟨-, hstart, -⟩ := hbounds b hb
        have hmono := hrings.mono (Nat.succ_le_of_lt (his i' hi'))
        change first (i' + 1) ≤ first i at hmono
        change g.ep < first (i' + 1) - 6 at hend
        omega)
  refine ⟨gs, ⟨x'.arrays, x'.cornerCloud,
    y.surfaceCloud ++ P.downSizeFilter x'.surfaceCloudScan⟩, ?_, ?_, ?_, ?_, ?_⟩
  · have hsegments : extractSegments P info (first i - 1 + 5) (first (i + 1) - 1 - 5)
        ⟨y.arrays, y.cornerCloud, []⟩ = some x' := extractSegments_eq.trans hrun
    unfold extractRing
    rw [hrings.start i hi, hrings.stop i hi]
    change (extractSegments P info _ _ _).bind _ = _
    rw [hsegments]
    rfl
  · rw [List.map_append, List.map_append, h.bounds]
    change _ ++ [gs.map _] = _
    rw [hgs]
    rfl
  · rw [List.flatten_append]
    simpa using htracked
  · change x'.cornerCloud = _
    rw [hcorner]
    change y.cornerCloud ++ _ = _
    rw [h.corner, List.flatten_append, List.flatMap_append, List.filterMap_append]
    simp
  · change y.surfaceCloud ++ P.downSizeFilter x'.surfaceCloudScan = _
    rw [hsurface, h.surface, List.flatMap_append]
    simp

/-- **The handler goes well**, and does what its segments do. -/
theorem laserCloudInfoHandler_eq (hrings : Rings info P.nScan first) (hfits : Fits info s)
    (hharm : Harmless info s) : ∃ rings y, laserCloudInfoHandler P info s = some y ∧
      Extracted P info (prepare info s) first (List.range P.nScan) rings y := by
  have hrun : ∃ y, (List.range P.nScan).foldlM (extractRing P info) ⟨prepare info s, [], []⟩ =
      some y ∧ _ := run_of_steps
    (I := fun is y => ∃ rings, Extracted P info (prepare info s) first is rings y)
    ⟨[], rfl, Tracked.start (fits_prepare hfits), rfl, rfl⟩ (by
      rintro pre i post hsplit y ⟨rings, h⟩
      have hi : i < P.nScan := List.mem_range.mp (hsplit ▸ List.mem_append_right pre
        List.mem_cons_self)
      have hpre : ∀ i' ∈ pre, i' < i := by
        have horder := List.pairwise_lt_range (n := P.nScan)
        rw [hsplit] at horder
        exact fun i' hi' => (List.pairwise_append.mp horder).2.2 i' hi' i List.mem_cons_self
      obtain ⟨gs, y', hring, h'⟩ := h.ring hrings hfits hharm hi hpre
      exact ⟨y', hring, rings ++ [gs], h'⟩)
  obtain ⟨y, hall, rings, h⟩ := hrun
  exact ⟨rings, y, hall, h⟩

end Rings

end Mapping
end WtbAutoware
