import WtbAutoware.Mapping.Features

/-!
# Corners and surface of a scan

What `laserCloudInfoHandler` publishes, read off the log of its segments. `cornerCloud_spec` says
which points can be corners, and `edge_spec` why an edge is none. `surfaceCloud_spec` says that a
segment is divided between corners and surface. All three are about a scan that the arrays have
room for, with its rings one behind the other, on a node whose slot 4 does no harm (`Harmless`);
what else the arrays have kept from earlier scans plays no part.
-/

namespace WtbAutoware
namespace Mapping

open Buffers

section Log

variable {K : Type} [LinearOrder K] {P : FeatureParams K} {info : CloudInfo K}
variable {s₀ : Features K} {log : List Segment}

/-! ### Along the log -/

/-- Each segment is selected behind those in front of it. -/
theorem Selections.split (h : Selections P info s₀ log) {pre post : List Segment} {g : Segment}
    (hlog : log = pre ++ g :: post) : Selected P info s₀ pre g := by
  induction h generalizing post with
  | nil => exact absurd hlog (by simp)
  | @snoc log g' h hsel ih =>
    rcases List.eq_nil_or_concat post with rfl | ⟨post, g'', rfl⟩
    · obtain ⟨rfl, heq⟩ := List.append_inj' hlog rfl
      cases heq
      exact hsel
    · have hsplit : log ++ [g'] = (pre ++ g :: post) ++ [g''] := by simpa using hlog
      exact ih (List.append_inj' hsplit rfl).1

theorem Selections.mem (h : Selections P info s₀ log) {g : Segment} (hg : g ∈ log) :
    ∃ pre post, log = pre ++ g :: post ∧ Selected P info s₀ pre g := by
  obtain ⟨pre, post, hlog⟩ := List.append_of_mem hg
  exact ⟨pre, post, hlog, h.split hlog⟩

/-- What is in front of a segment is selected as well. -/
theorem Selections.front (h : Selections P info s₀ log) {pre post : List Segment}
    (hlog : log = pre ++ post) : Selections P info s₀ pre := by
  induction h generalizing post with
  | nil =>
    rw [(List.append_eq_nil_iff.mp hlog.symm).1]
    exact .nil
  | @snoc log g h hsel ih =>
    rcases List.eq_nil_or_concat post with rfl | ⟨post, g', rfl⟩
    · rw [List.append_nil] at hlog
      exact hlog ▸ h.snoc hsel
    · have hsplit : log ++ [g] = (pre ++ post) ++ [g'] := by simpa using hlog
      exact ih (List.append_inj' hsplit rfl).1

theorem Selected.free {g : Segment} (h : Selected P info s₀ log g) {i : ℤ} (hi : i ∈ g.picks) :
    ¬ Marked info s₀ log i := by
  rcases List.mem_append.mp hi with hcorner | hflat
  · exact (h.corner i hcorner).1
  · exact (h.flat i hflat).1

/-- No two points that are taken are near each other. -/
theorem Selections.apart (h : Selections P info s₀ log) :
    (log.flatMap Segment.picks).Pairwise fun i j => ¬ Near info i j := by
  induction h with
  | nil => exact List.Pairwise.nil
  | @snoc log g h hsel ih =>
    rw [List.flatMap_append]
    refine List.pairwise_append.mpr ⟨ih, by simpa using hsel.apart, ?_⟩
    intro i hi j hj hnear
    obtain ⟨g', hg', hmem⟩ := List.mem_flatMap.mp hi
    have hj' : j ∈ g.picks := by simpa using hj
    exact hsel.free hj' (Or.inr ⟨g', hg', i, hmem, hnear⟩)

/-- In the end, the positive labels are those of the corners. -/
theorem Selections.label (h : Selections P info s₀ log) {i : ℤ}
    (hzero : s₀.cloudLabel.cell i ≤ 0) :
    labelAfter s₀ log i ≤ 0 ↔ i ∉ log.flatMap Segment.corners := by
  induction h with
  | nil => simp [labelAfter, hzero]
  | @snoc log g h hsel ih =>
    rw [labelAfter_snoc, List.flatMap_append, List.mem_append, not_or, Segment.label]
    have hone : [g].flatMap Segment.corners = g.corners := by simp
    rw [hone]
    by_cases hflat : i ∈ g.flats
    · -- a flat point was free, so it is no corner
      rw [if_pos hflat]
      refine iff_of_true (by norm_num) ⟨fun hold => ?_, fun hcorner => ?_⟩
      · obtain ⟨g', hg', hmem⟩ := List.mem_flatMap.mp hold
        exact (hsel.flat i hflat).1
          (Or.inr ⟨g', hg', i, List.mem_append_left _ hmem, near_refl info i⟩)
      · exact (List.pairwise_append.mp hsel.apart).2.2 i hcorner i hflat (near_refl info i)
    · rw [if_neg hflat]
      by_cases hcorner : i ∈ g.corners
      · simp [hcorner]
      · simp [hcorner, ih]

end Log

section Specification

variable {K : Type} [Field K] [LinearOrder K] {P : FeatureParams K} {info : CloudInfo K}
variable {first : ℕ → ℤ} {s : Features K}

/-! ### What the log says about the scan -/

/-- The segments of the scan that are not passed over. -/
def scanSegments (first : ℕ → ℤ) (nScan : ℕ) : List (ℤ × ℤ) :=
  (List.range nScan).flatMap (segmentsOf first)

namespace Extracted

variable {rings : List (List Segment)} {y : FeatureCloud K} {g : Segment} {i k : ℤ}

omit [Field K] in
/-- The segments in the log are those of the scan. -/
theorem bounds_flatten {s₀ : Features K}
    (h : Extracted P info s₀ first (List.range P.nScan) rings y) :
    rings.flatten.map (fun g => (g.sp, g.ep)) = scanSegments first P.nScan := by
  rw [List.map_flatten, h.bounds, scanSegments, List.flatMap_def]

theorem mem_range (hrings : Rings info P.nScan first)
    (h : Extracted P info (prepare info s) first (List.range P.nScan) rings y)
    (hg : g ∈ rings.flatten) (hk : g.Covers k) (hfive : 5 ≤ k) :
    k ∈ Int.range 5 (info.cloudSize - 5) := by
  obtain ⟨j, hj, hmem⟩ := h.mem hg
  obtain ⟨-, -, -, -, hend⟩ := hrings.bounds (List.mem_range.mp hj) hmem
  exact mem_range_of_covered hend hfive hk.2

/-- Every entry but that in slot 4 names its own point. -/
theorem slotInd_eq (hrings : Rings info P.nScan first)
    (h : Extracted P info (prepare info s) first (List.range P.nScan) rings y)
    (hg : g ∈ rings.flatten) (hk : g.Covers k) :
    slotInd (prepare info s) k = k ∨ k = 4 ∧ slotInd (prepare info s) k = slotInd s 4 := by
  obtain ⟨j, hj, hmem⟩ := h.mem hg
  obtain ⟨hfour, -⟩ := hrings.bounds (List.mem_range.mp hj) hmem
  rcases eq_or_lt_of_le (hfour.trans hk.1) with rfl | hlt
  · exact Or.inr ⟨rfl, slotInd_prepare_four⟩
  · exact Or.inl (slotInd_prepare (h.mem_range hrings hg hk hlt))

/-- A point that is taken lies deep in the cloud. -/
theorem deep (hrings : Rings info P.nScan first) (hfits : Fits info s) (hharm : Harmless info s)
    (h : Extracted P info (prepare info s) first (List.range P.nScan) rings y)
    (hg : g ∈ rings.flatten) (hi : i ∈ g.picks) : Deep info i := by
  obtain ⟨pre, post, -, hsel⟩ := h.tracked.selections.mem hg
  obtain ⟨k, hk, rfl⟩ := hsel.named i hi
  obtain ⟨j, hj, hmem⟩ := h.mem hg
  obtain ⟨hfour, -, -, -, hend⟩ := hrings.bounds (List.mem_range.mp hj) hmem
  have hk₂ := hk.2
  refine (ready_prepare hfits hharm (hfour.trans hk.1) (by omega)).1.deep ?_
  exact eq_false_of_ne_true fun hmark => hsel.free hi (Or.inl hmark)

end Extracted

/-! ### A scan to apply the results to -/

/-- A sort by value. -/
def mergeByValue {K : Type} [LinearOrder K] : StdSort (Smoothness K) ByValue :=
  StdSort.byKey Smoothness.value

/-- One ring, and nothing is thinned out. -/
def sampleParams : FeatureParams ℚ where
  nScan := 1
  edgeThreshold := 1
  surfThreshold := 1 / 10
  sort := mergeByValue
  downSizeFilter := id

/-- A ring of 24 points at the same distance, but for one. -/
def sampleScan : CloudInfo ℚ where
  startRingIndex := [4]
  endRingIndex := [18]
  pointColInd := ⟨24, id⟩
  pointRange := ⟨24, fun i => if i = 5 then 101 / 100 else 1⟩
  cloudDeskewed := List.replicate 24 ⟨0, 0, 0, 0⟩

/-- The arrays at the start, with or without a mark on point 0. -/
def sampleArrays (mark : Bool) : Features ℚ :=
  .initial 24 (fun _ => 0) (fun i => mark && i = 0) fun _ => 0

/-- Where its rings start. -/
def sampleFirst (i : ℕ) : ℤ := if i = 0 then 0 else 24

theorem sampleScan_rings : Rings sampleScan 1 sampleFirst where
  zero := rfl
  mono i j h := by
    unfold sampleFirst
    by_cases hi : i = 0
    · by_cases hj : j = 0
      · simp [hi, hj]
      · simp [hi, hj]
    · simp [hi, show j ≠ 0 by omega]
  last := rfl
  start i hi := by
    obtain rfl := Nat.lt_one_iff.mp hi
    rfl
  stop i hi := by
    obtain rfl := Nat.lt_one_iff.mp hi
    rfl

theorem sampleScan_fits (mark : Bool) : Fits sampleScan (sampleArrays mark) :=
  ⟨rfl, rfl, rfl, rfl, by decide⟩

theorem sampleScan_harmless : Harmless sampleScan (sampleArrays true) :=
  ⟨by decide, Or.inl (by decide)⟩

omit [Field K] in
/-- The segments of a scan lie one behind the other. -/
theorem pairwise_scanSegments (hrings : Rings info P.nScan first) :
    (scanSegments first P.nScan).Pairwise fun a b => a.2 < b.1 := by
  refine List.pairwise_flatMap.mpr ⟨fun i _ => pairwise_ringSegments, ?_⟩
  refine List.Pairwise.imp_of_mem ?_ List.pairwise_lt_range
  intro i j hi hj hlt a ha b hb
  obtain ⟨-, -, -, hend, -⟩ := hrings.bounds (List.mem_range.mp hi) ha
  obtain ⟨-, hstart, -⟩ := hrings.bounds (List.mem_range.mp hj) hb
  have hmono := hrings.mono (Nat.succ_le_of_lt hlt)
  change first (i + 1) ≤ first j at hmono
  omega

/-- A segment of the log ends in front of those behind it. -/
theorem Extracted.order (hrings : Rings info P.nScan first) {rings : List (List Segment)}
    {y : FeatureCloud K} (h : Extracted P info (prepare info s) first (List.range P.nScan) rings y)
    {pre post : List Segment} {g g' : Segment} (hlog : rings.flatten = pre ++ g :: post)
    (hg' : g' ∈ post) : g.ep < g'.sp := by
  have hpair := pairwise_scanSegments hrings
  rw [← h.bounds_flatten, List.pairwise_map, hlog] at hpair
  exact List.rel_of_pairwise_cons (List.pairwise_append.mp hpair).2.1 hg'

/-- **The surface of a scan**: the points of each segment that are no corners, thinned out ring
by ring. -/
theorem surfaceCloud_spec (hrings : Rings info P.nScan first) (hfits : Fits info s)
    (hharm : Harmless info s) : ∃ (rings : List (List Segment)) (y : FeatureCloud K),
      laserCloudInfoHandler P info s = some y ∧
      rings.map (·.map fun g => (g.sp, g.ep)) = (List.range P.nScan).map (segmentsOf first) ∧
      y.cornerCloud = (rings.flatten.flatMap Segment.corners).filterMap info.point ∧
      y.surfaceCloud = rings.flatMap (fun gs =>
        P.downSizeFilter ((gs.flatMap Segment.surface).filterMap info.point)) ∧
      ∀ g ∈ rings.flatten, g.surface.Pairwise (· < ·) ∧ ∀ k, 5 ≤ k →
        (k ∈ g.surface ↔ g.Covers k ∧ k ∉ rings.flatten.flatMap Segment.corners) := by
  obtain ⟨rings, y, hrun, h⟩ := laserCloudInfoHandler_eq hrings hfits hharm
  refine ⟨rings, y, hrun, h.bounds, h.corner, h.surface, fun g hg => ?_⟩
  obtain ⟨pre, post, hlog, hsel⟩ := h.tracked.selections.mem hg
  rw [hsel.surface]
  refine ⟨(List.Pairwise.map _ (fun _ _ hlt => by omega) List.pairwise_lt_range).filter _,
    fun k hfive => ?_⟩
  rw [List.mem_filter, Int.mem_range_iff, Int.lt_add_one_iff, decide_eq_true_eq]
  refine and_congr_right fun hk => ?_
  have hrange := h.mem_range hrings hg hk hfive
  have hzero : (prepare info s).cloudLabel.cell k ≤ 0 := by
    rw [label_prepare, if_pos hrange]
  have hfront : Selections P info (prepare info s) (pre ++ [g]) :=
    h.tracked.selections.front (show rings.flatten = pre ++ [g] ++ post by
      rw [hlog, List.append_assoc]
      rfl)
  rw [hfront.label hzero, hlog]
  -- the labels at that time, against those of the whole scan
  refine not_congr ⟨fun hmem => ?_, fun hmem => ?_⟩
  · obtain ⟨g', hg', hcorner⟩ := List.mem_flatMap.mp hmem
    refine List.mem_flatMap.mpr ⟨g', ?_, hcorner⟩
    rcases List.mem_append.mp hg' with hpre | hown
    · exact List.mem_append_left _ hpre
    · exact List.mem_append_right _ (List.mem_singleton.mp hown ▸ List.mem_cons_self)
  · obtain ⟨g', hg', hcorner⟩ := List.mem_flatMap.mp hmem
    rcases List.mem_append.mp hg' with hpre | hrest
    · exact List.mem_flatMap.mpr ⟨g', List.mem_append_left _ hpre, hcorner⟩
    · rcases List.mem_cons.mp hrest with rfl | hpost
      · exact List.mem_flatMap.mpr
          ⟨g', List.mem_append_right _ List.mem_cons_self, hcorner⟩
      · -- a later segment takes points of its own
        exfalso
        have hafter := h.order hrings hlog hpost
        have hg'' : g' ∈ rings.flatten :=
          hlog ▸ List.mem_append_right _ (List.mem_cons_of_mem _ hpost)
        obtain ⟨pre', post', -, hsel'⟩ := h.tracked.selections.mem hg''
        obtain ⟨k', hk', hname⟩ := hsel'.named k (List.mem_append_left _ hcorner)
        have hlt : k < k' := hk.2.trans_lt (hafter.trans_le hk'.1)
        rw [slotInd_prepare (h.mem_range hrings hg'' hk' (hfive.trans hlt.le))] at hname
        exact hlt.ne hname.symm

/-- It applies to a scan of one ring. -/
theorem surfaceCloud_sample : ∃ (rings : List (List Segment)) (y : FeatureCloud ℚ),
    laserCloudInfoHandler sampleParams sampleScan (sampleArrays true) = some y ∧
    rings.map (·.map fun g => (g.sp, g.ep)) = (List.range 1).map (segmentsOf sampleFirst) ∧
    y.cornerCloud = (rings.flatten.flatMap Segment.corners).filterMap sampleScan.point ∧
    y.surfaceCloud = rings.flatMap (fun gs =>
      (gs.flatMap Segment.surface).filterMap sampleScan.point) ∧
    ∀ g ∈ rings.flatten, g.surface.Pairwise (· < ·) ∧ ∀ k, 5 ≤ k →
      (k ∈ g.surface ↔ g.Covers k ∧ k ∉ rings.flatten.flatMap Segment.corners) :=
  surfaceCloud_spec (P := sampleParams) sampleScan_rings (sampleScan_fits true)
    sampleScan_harmless

end Specification

end Mapping
end WtbAutoware
