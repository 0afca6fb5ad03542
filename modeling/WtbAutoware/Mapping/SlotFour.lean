import WtbAutoware.Mapping.Corners

/-!
# Slot 4

`calculateSmoothness` starts at point 5, so the entry that is in slot 4 of `cloudSmoothness` when
a scan comes in is sorted with the first segment of the scan. The node starts with an entry for
point 0 there; the sort may put another in its place, and then always one that lies deep in any
scan with full rings. No scan clears the mark of point 0. `features_run` shows that a node whose
`cloudNeighborPicked` happens to start with a mark on point 0 never leaves its arrays, over any
number of messages.

If a scan finds the entry for point 0 in slot 4 and point 0 free and flat, the node takes point 0
for a flat point of the first ring and goes on to the neighbours in front of it, at index -1
(`features_first_scan`), unless point 0 is occluded or point 5, the only one of the ring that can
mark it, is taken first.
-/

namespace WtbAutoware
namespace Mapping

open Buffers

section Runs

variable {K : Type} [Field K] [LinearOrder K] {P : FeatureParams K} {info : CloudInfo K}
variable {first : ℕ → ℤ} {s : Features K}

/-! ### Runs -/

/-- One message after the other. -/
def handleScans (P : FeatureParams K) (infos : List (CloudInfo K)) (s : Features K) :
    Option (Features K) :=
  infos.foldlM (fun s info => (laserCloudInfoHandler P info s).map FeatureCloud.arrays) s

/-- The arrays have their size, and slot 4 names point 0, which is marked, or a point that lies
deep in every cloud of at least `width` points. -/
structure Settled (size : ℕ) (width : ℤ) (s : Features K) : Prop where
  smoothness : s.cloudSmoothness.size = size
  curvature : s.cloudCurvature.size = size
  picked : s.cloudNeighborPicked.size = size
  label : s.cloudLabel.size = size
  slot : slotInd s 4 = 0 ∧ s.cloudNeighborPicked.cell 0 = true ∨
    5 ≤ slotInd s 4 ∧ slotInd s 4 + 5 < width

/-- What a message has to be like: as many points as a ring can have, and no more than the
arrays have room for. -/
structure FullScan (nScan size : ℕ) (width : ℤ) (info : CloudInfo K) : Prop where
  rings : ∃ first, Rings info nScan first ∧ ∀ i, first (i + 1) ≤ first i + width
  columns : info.pointColInd.size = size
  fits : info.cloudSize ≤ size
  full : width ≤ info.cloudSize

variable {size : ℕ} {width : ℤ}

/-- One message goes well and leaves slot 4 as it should be. -/
theorem Settled.step (hsize : 0 < size) (h : Settled size width s)
    (hinfo : FullScan P.nScan size width info) :
    ∃ y, laserCloudInfoHandler P info s = some y ∧ Settled size width y.arrays := by
  obtain ⟨⟨first, hrings, hwidth⟩, hcol, hcloud, hfull⟩ := hinfo
  have hfits : Fits info s := by
    refine ⟨?_, ?_, ?_, ?_, ?_⟩
    · rw [h.smoothness, hcol]
    · rw [h.curvature, hcol]
    · rw [h.picked, hcol]
    · rw [h.label, hcol]
    · rw [hcol]
      exact hcloud
  have hharm : Harmless info s := by
    rcases h.slot with ⟨hname, hmark⟩ | ⟨hlo, hhi⟩
    · refine ⟨?_, Or.inl (by rw [hname]; exact hmark)⟩
      rw [hname, Buffer.Inside, h.picked]
      omega
    · refine ⟨?_, Or.inr ⟨hlo, by omega⟩⟩
      rw [Buffer.Inside, h.picked]
      omega
  obtain ⟨rings, y, hrun, hext⟩ := laserCloudInfoHandler_eq hrings hfits hharm
  have hfits' := hext.tracked.fits
  refine ⟨y, hrun, hfits'.smoothness.trans hcol, hfits'.curvature.trans hcol,
    hfits'.picked.trans hcol, hfits'.label.trans hcol, ?_⟩
  -- slot 4 holds what it held, or an entry of the first segment
  have hentry : slotInd y.arrays 4 = slotInd s 4 ∨
      5 ≤ slotInd y.arrays 4 ∧ slotInd y.arrays 4 + 5 < width := by
    by_cases hcov : ∃ g ∈ rings.flatten, g.Covers 4
    · obtain ⟨g, hg, hk⟩ := hcov
      obtain ⟨k', hk', heq⟩ := hext.tracked.kept g hg 4 hk
      have hname : slotInd y.arrays 4 = slotInd (prepare info s) k' := congrArg Smoothness.ind heq
      rw [hname]
      rcases hext.slotInd_eq hrings hg hk' with hown | ⟨-, hfour⟩
      · rw [hown]
        by_cases hfive : 5 ≤ k'
        · refine Or.inr ⟨hfive, ?_⟩
          obtain ⟨j, hj, hmem⟩ := hext.mem hg
          obtain ⟨-, hstart, -, hend, -⟩ := hrings.bounds (List.mem_range.mp hj) hmem
          have hlong := hwidth j
          have hnonneg := hrings.first_nonneg j
          have hk₁ := hk.1
          have hk₂ := hk'.2
          change first j + 4 ≤ g.sp at hstart
          change g.ep < first (j + 1) - 6 at hend
          omega
        · obtain ⟨j, hj, hmem⟩ := hext.mem hg
          obtain ⟨hfour, -⟩ := hrings.bounds (List.mem_range.mp hj) hmem
          have hk₁ := hk'.1
          change 4 ≤ g.sp at hfour
          rw [← hown, show k' = 4 by omega, slotInd_prepare_four]
          exact Or.inl rfl
      · exact Or.inl hfour
    · have hout : y.arrays.cloudSmoothness.cell 4 = (prepare info s).cloudSmoothness.cell 4 :=
        hext.tracked.slots 4 fun g hg hk => hcov ⟨g, hg, hk⟩
      have hname : slotInd y.arrays 4 = slotInd (prepare info s) 4 := congrArg Smoothness.ind hout
      exact Or.inl (hname.trans slotInd_prepare_four)
  rcases hentry with hsame | hnew
  · rw [hsame]
    refine h.slot.imp_left fun hzero => ⟨hzero.1, ?_⟩
    -- point 0 is in no scan, and stays marked
    rw [hext.tracked.marks]
    refine Or.inl (picked_prepare.mpr (Or.inr ⟨?_, hzero.2⟩))
    simp [Int.mem_range_iff]
  · exact Or.inr hnew

/-- **Runs.** If point 0 is marked when the node starts, no message ever makes it leave its
arrays. -/
theorem features_run (hsize : 0 < size) (h : Settled size width s) (infos : List (CloudInfo K))
    (hinfos : ∀ info ∈ infos, FullScan P.nScan size width info) :
    ∃ s', handleScans P infos s = some s' ∧ Settled size width s' := by
  refine run_of_steps (I := fun _ s => Settled size width s) h ?_
  intro pre info post hsplit s hs
  obtain ⟨y, hrun, hy⟩ := hs.step hsize
    (hinfos info (hsplit ▸ List.mem_append_right _ List.mem_cons_self))
  exact ⟨y.arrays, by rw [hrun]; rfl, hy⟩

end Runs

/-! ### The first scan -/

section First

variable {K : Type} {info : CloudInfo K} {s s' : Features K} {label ind : ℤ}

/-- The loop on one side leaves everything else as it is. -/
theorem markNeighbors_frame {dir : ℤ} {ls : List ℤ} {picked picked' : Buffer Bool}
    (h : markNeighbors info.pointColInd ind dir ls picked = some picked') {j : ℤ}
    (hj : ∀ l ∈ ls, j ≠ ind + dir * l) : picked'.cell j = picked.cell j := by
  induction ls generalizing picked with
  | nil =>
    cases h
    rfl
  | cons l ls ih =>
    rw [markNeighbors] at h
    obtain ⟨col, -, h⟩ := Option.bind_eq_some_iff.mp h
    obtain ⟨col', -, h⟩ := Option.bind_eq_some_iff.mp h
    split at h
    · cases h
      rfl
    · obtain ⟨marked, hstore, h⟩ := Option.bind_eq_some_iff.mp h
      obtain ⟨-, rfl⟩ := Buffer.store_eq_some.mp hstore
      rw [ih h fun m hm => hj m (List.mem_cons_of_mem _ hm), Buffer.cell_write,
        if_neg (hj l List.mem_cons_self)]

/-- Taking a point changes no mark more than five apart, and nothing that is sorted. -/
theorem pick_frame (h : pick info label s ind = some s') :
    s'.cloudSmoothness = s.cloudSmoothness ∧ s'.cloudCurvature = s.cloudCurvature ∧
      ∀ j, 5 < |j - ind| → s'.cloudNeighborPicked.cell j = s.cloudNeighborPicked.cell j := by
  unfold pick at h
  obtain ⟨labels, -, h⟩ := Option.bind_eq_some_iff.mp h
  obtain ⟨own, hown, h⟩ := Option.bind_eq_some_iff.mp h
  obtain ⟨up, hup, h⟩ := Option.bind_eq_some_iff.mp h
  obtain ⟨down, hdown, h⟩ := Option.bind_eq_some_iff.mp h
  cases h
  refine ⟨rfl, rfl, fun j hj => ?_⟩
  have hlist : ∀ l ∈ [1, 2, 3, 4, (5 : ℤ)], 1 ≤ l ∧ l ≤ 5 := by decide
  obtain ⟨-, rfl⟩ := Buffer.store_eq_some.mp hown
  change down.cell j = _
  rw [markNeighbors_frame hdown fun l hl => ?_, markNeighbors_frame hup fun l hl => ?_,
    Buffer.cell_write, if_neg fun heq => ?_]
  · rw [heq, sub_self, abs_zero] at hj
    omega
  · intro heq
    obtain ⟨hlo, hhi⟩ := hlist l hl
    rw [heq, show ind + 1 * l - ind = l by ring, abs_of_nonneg (by omega)] at hj
    omega
  · intro heq
    obtain ⟨hlo, hhi⟩ := hlist l hl
    rw [heq, show ind + -1 * l - ind = -l by ring, abs_neg, abs_of_nonneg (by omega)] at hj
    omega

theorem pick_frame_zero (h : pick info label s ind = some s') (hind : 6 ≤ ind) :
    s'.cloudNeighborPicked.cell 0 = s.cloudNeighborPicked.cell 0 := by
  refine (pick_frame h).2.2 0 ?_
  rw [zero_sub, abs_neg, abs_of_nonneg (by omega)]
  exact lt_of_lt_of_le (by norm_num) hind

/-- **Point 0 cannot be taken**: the loop for the neighbours in front of it leaves the array. -/
theorem pick_zero : pick info label s 0 = none := by
  rw [Option.eq_none_iff_forall_ne_some]
  intro s' h
  unfold pick at h
  obtain ⟨labels, -, h⟩ := Option.bind_eq_some_iff.mp h
  obtain ⟨own, -, h⟩ := Option.bind_eq_some_iff.mp h
  obtain ⟨up, -, h⟩ := Option.bind_eq_some_iff.mp h
  obtain ⟨down, hdown, -⟩ := Option.bind_eq_some_iff.mp h
  rw [markNeighbors] at hdown
  obtain ⟨col, hload, -⟩ := Option.bind_eq_some_iff.mp hdown
  obtain ⟨hinside, -⟩ := Buffer.load_eq_some.mp hload
  exact absurd hinside.1 (by norm_num)

variable [LinearOrder K] {P : FeatureParams K}

/-- No entry that the loops look at lets one of points 1 to 5 be taken. -/
def Distant (P : FeatureParams K) (s : Features K) (k : ℤ) : Prop :=
  slotInd s k = 0 ∨ 6 ≤ slotInd s k ∨ slotInd s k = 5 ∧ ¬ IsEdge P s 5

/-- While point 0 is free, a loop for corners that goes well leaves it free. -/
theorem cornerLoop_free {ks : List ℤ} {n : ℕ} {cornerCloud cornerCloud' : List (Point K)}
    (hfree : s.cloudNeighborPicked.cell 0 = false) (hfar : ∀ k ∈ ks, Distant P s k)
    (h : cornerLoop P info ks n (s, cornerCloud) = some (s', cornerCloud')) :
    s'.cloudSmoothness = s.cloudSmoothness ∧ s'.cloudCurvature = s.cloudCurvature ∧
      s'.cloudNeighborPicked.cell 0 = false := by
  induction ks generalizing n s cornerCloud with
  | nil =>
    cases h
    exact ⟨rfl, rfl, hfree⟩
  | cons k ks ih =>
    have hrest : ∀ k' ∈ ks, Distant P s k' := fun k' hk' => hfar k' (List.mem_cons_of_mem _ hk')
    rw [cornerLoop] at h
    obtain ⟨entry, hentry, h⟩ := Option.bind_eq_some_iff.mp h
    obtain ⟨-, rfl⟩ := Buffer.load_eq_some.mp hentry
    obtain ⟨mark, -, h⟩ := Option.bind_eq_some_iff.mp h
    split at h
    · obtain ⟨curvature, hcurv, h⟩ := Option.bind_eq_some_iff.mp h
      obtain ⟨-, rfl⟩ := Buffer.load_eq_some.mp hcurv
      split at h
      · next hedge =>
        split at h
        · obtain ⟨point, -, h⟩ := Option.bind_eq_some_iff.mp h
          obtain ⟨s₁, hpick, h⟩ := Option.bind_eq_some_iff.mp h
          rcases hfar k List.mem_cons_self with hzero | hsix | ⟨hfive, hnot⟩
          · -- it would be point 0 itself
            change pick info 1 s (slotInd s k) = some s₁ at hpick
            rw [hzero, pick_zero] at hpick
            cases hpick
          -- from 6 on, the points next to it that are marked are behind 0
          · obtain ⟨hslots, hcurvs, -⟩ := pick_frame hpick
            have hfree₁ := (pick_frame_zero hpick hsix).trans hfree
            obtain ⟨hslots', hcurvs', hfree'⟩ := ih hfree₁ (fun k' hk' => by
              have hk := hrest k' hk'
              unfold Distant slotInd IsEdge at hk ⊢
              rw [hslots, hcurvs]
              exact hk) h
            exact ⟨hslots'.trans hslots, hcurvs'.trans hcurvs, hfree'⟩
          -- point 5 is no edge, so this branch is not reached
          · change P.edgeThreshold < s.cloudCurvature.cell (slotInd s k) at hedge
            rw [hfive] at hedge
            exact absurd hedge hnot
        · cases h
          exact ⟨rfl, rfl, hfree⟩
      · exact ih hfree hrest h
    · exact ih hfree hrest h

/-- While point 0 is free, a loop for flat points that comes to it goes wrong. -/
theorem surfLoop_none {pre post : List ℤ} {p : ℤ}
    (hfree : s.cloudNeighborPicked.cell 0 = false) (hflat : IsFlat P s 0)
    (hp : slotInd s p = 0) (hpre : ∀ k ∈ pre, slotInd s k = 0 ∨ 6 ≤ slotInd s k) :
    surfLoop P info (pre ++ p :: post) s = none := by
  rw [Option.eq_none_iff_forall_ne_some]
  intro s' h
  induction pre generalizing s with
  | nil =>
    rw [List.nil_append, surfLoop] at h
    obtain ⟨entry, hentry, h⟩ := Option.bind_eq_some_iff.mp h
    obtain ⟨-, rfl⟩ := Buffer.load_eq_some.mp hentry
    obtain ⟨mark, hmark, h⟩ := Option.bind_eq_some_iff.mp h
    obtain ⟨-, rfl⟩ := Buffer.load_eq_some.mp hmark
    change (if s.cloudNeighborPicked.cell (slotInd s p) = false then _ else _) = _ at h
    rw [hp, if_pos hfree] at h
    obtain ⟨curvature, hcurv, h⟩ := Option.bind_eq_some_iff.mp h
    change s.cloudCurvature.load (slotInd s p) = _ at hcurv
    rw [hp] at hcurv
    obtain ⟨-, rfl⟩ := Buffer.load_eq_some.mp hcurv
    -- it is free and flat, so it is picked, and the loop reads in front of the arrays
    have hbelow : s.cloudCurvature.cell 0 < P.surfThreshold := hflat
    rw [if_pos hbelow] at h
    obtain ⟨s₁, hpick, -⟩ := Option.bind_eq_some_iff.mp h
    change pick info (-1) s (slotInd s p) = some s₁ at hpick
    rw [hp, pick_zero] at hpick
    cases hpick
  | cons k pre ih =>
    have hrest : ∀ k' ∈ pre, slotInd s k' = 0 ∨ 6 ≤ slotInd s k' := fun k' hk' =>
      hpre k' (List.mem_cons_of_mem _ hk')
    rw [List.cons_append, surfLoop] at h
    obtain ⟨entry, hentry, h⟩ := Option.bind_eq_some_iff.mp h
    obtain ⟨-, rfl⟩ := Buffer.load_eq_some.mp hentry
    obtain ⟨mark, -, h⟩ := Option.bind_eq_some_iff.mp h
    split at h
    · obtain ⟨curvature, -, h⟩ := Option.bind_eq_some_iff.mp h
      split at h
      · obtain ⟨s₁, hpick, h⟩ := Option.bind_eq_some_iff.mp h
        rcases hpre k List.mem_cons_self with hzero | hsix
        · change pick info (-1) s (slotInd s k) = some s₁ at hpick
          rw [hzero, pick_zero] at hpick
          cases hpick
        -- it is far enough from point 0, which stays free and flat
        · obtain ⟨hslots, hcurvs, -⟩ := pick_frame hpick
          have hfree₁ := (pick_frame_zero hpick hsix).trans hfree
          have hsame : ∀ k', slotInd s₁ k' = slotInd s k' := fun k' => by
            unfold slotInd
            rw [hslots]
          refine ih hfree₁ ?_ ((hsame p).trans hp) (fun k' hk' => ?_) h
          · unfold IsFlat
            rw [hcurvs]
            exact hflat
          · rw [hsame]
            exact hrest k' hk'
      · exact ih hfree hflat hp hrest h
    · exact ih hfree hflat hp hrest h

variable [Field K] {first : ℕ → ℤ}

/-- A segment that has slot 4, as it was at the start, and point 5, which is no edge, goes wrong
if point 0 is free and flat. -/
theorem extractSegment_none {sp ep : ℤ} {x : Extraction K} (hsp : sp = 4) (hep : 5 ≤ ep)
    (hend : ep + 6 < info.cloudSize) (hx : x.arrays = prepare info s)
    (hslot : s.cloudSmoothness.cell 4 = ⟨0, 0⟩) (hfits : Fits info s)
    (hfree : (prepare info s).cloudNeighborPicked.cell 0 = false)
    (hflat : IsFlat P (prepare info s) 0) (hpos : 0 < curvature info 5)
    (hfive : curvature info 5 ≤ P.edgeThreshold) : extractSegment P info sp ep x = none := by
  subst hsp
  have hsize : ep ≤ x.arrays.cloudSmoothness.size := by
    rw [hx, (fits_prepare hfits).smoothness]
    have := hfits.cloud
    omega
  obtain ⟨b, hsort, hsorted⟩ := sortSlots_eq P.sort (show (0 : ℤ) ≤ 4 by norm_num) hsize
  rw [hx] at hsorted
  have hfour : (prepare info s).cloudSmoothness.cell 4 = ⟨0, 0⟩ := by
    rw [slot_prepare, if_neg (by simp [Int.mem_range_iff]), hslot]
  have hown : ∀ k, 5 ≤ k → k ≤ ep →
      (prepare info s).cloudSmoothness.cell k = ⟨curvature info k, k⟩ := by
    intro k hk hk'
    rw [slot_prepare, if_pos (Int.mem_range_iff.mpr ⟨hk, by omega⟩)]
  -- an entry is that of point 0, of point 5, or of a point too far off
  have hentry : ∀ k, 4 ≤ k → k ≤ ep → b.cell k = ⟨0, 0⟩ ∨ b.cell k = ⟨curvature info 5, 5⟩ ∨
      6 ≤ (b.cell k).ind := by
    intro k hk hk'
    obtain ⟨k', hlo, hhi, heq, -⟩ := hsorted.source' hk hk'
    rcases eq_or_lt_of_le hlo with rfl | hlt
    · exact Or.inl (heq.trans hfour)
    · rw [heq, hown k' hlt hhi]
      rcases eq_or_lt_of_le (show 5 ≤ k' from hlt) with rfl | hlt'
      · exact Or.inr (Or.inl rfl)
      · exact Or.inr (Or.inr hlt')
  obtain ⟨p, hplo, hphi, hp⟩ := hsorted.target 4 le_rfl (by omega)
  rw [hfour] at hp
  obtain ⟨s₁, hs₁⟩ : ∃ s₁ : Features K, s₁ = ⟨b, x.arrays.cloudCurvature,
    x.arrays.cloudNeighborPicked, x.arrays.cloudLabel⟩ := ⟨_, rfl⟩
  have hslots : s₁.cloudSmoothness = b := by rw [hs₁]
  have hcurvs : s₁.cloudCurvature = (prepare info s).cloudCurvature := by rw [hs₁, hx]
  have hfree₁ : s₁.cloudNeighborPicked.cell 0 = false := by
    rw [hs₁, hx]
    exact hfree
  rw [Option.eq_none_iff_forall_ne_some]
  intro x' h
  unfold extractSegment at h
  rw [hsort] at h
  change (cornerLoop _ _ _ _ (⟨b, _, _, _⟩, _)).bind _ = _ at h
  rw [← hs₁] at h
  obtain ⟨⟨s₂, cornerCloud⟩, hcorner, h⟩ := Option.bind_eq_some_iff.mp h
  obtain ⟨s₃, hsurf, -⟩ := Option.bind_eq_some_iff.mp h
  obtain ⟨hslots₂, hcurvs₂, hfree₂⟩ := cornerLoop_free hfree₁ (fun k hk => by
    obtain ⟨hlo, hhi⟩ := Int.mem_range_iff.mp (List.mem_reverse.mp hk)
    unfold Distant slotInd
    rw [hslots]
    rcases hentry k hlo (by omega) with hzero | hpoint | hsix
    · exact Or.inl (by rw [hzero])
    · refine Or.inr (Or.inr ⟨by rw [hpoint], ?_⟩)
      unfold IsEdge
      rw [hcurvs, curvature_prepare, if_pos (Int.mem_range_iff.mpr ⟨le_rfl, by omega⟩)]
      exact not_lt.mpr hfive
    · exact Or.inr (Or.inl hsix)) hcorner
  have hname : ∀ k, slotInd s₂ k = (b.cell k).ind := fun k => by
    unfold slotInd
    rw [hslots₂, hslots]
  -- in front of the entry of point 0, that of point 5 cannot be
  have hnone : surfLoop P info (Int.range 4 (ep + 1)) s₂ = none := by
    rw [range_append 4 p (ep + 1) hplo (by omega), range_cons p (ep + 1) (by omega)]
    refine surfLoop_none hfree₂ ?_ (by rw [hname, hp]) fun k hk => ?_
    · unfold IsFlat
      rw [hcurvs₂, hcurvs]
      exact hflat
    · obtain ⟨hlo, hhi⟩ := Int.mem_range_iff.mp hk
      rw [hname]
      rcases hentry k hlo (by omega) with hzero | hpoint | hsix
      · exact Or.inl (by rw [hzero])
      · have hle := hsorted.ordered k p hlo hhi hphi
        rw [hpoint, hp] at hle
        exact absurd hpos (not_lt.mpr hle)
      · exact Or.inr hsix
  rw [hnone] at hsurf
  cases hsurf

/-- **The first scan.** If slot 4 holds the entry that it starts with, and point 0 is free and
flat, a scan with a full first ring makes the node leave its arrays, unless point 0 is occluded or
point 5 can be taken first. -/
theorem features_first_scan (hrings : Rings info P.nScan first) (hfits : Fits info s)
    (hscan : 0 < P.nScan) (hring : 22 ≤ first 1) (hslot : s.cloudSmoothness.cell 4 = ⟨0, 0⟩)
    (hfree : s.cloudNeighborPicked.cell 0 = false) (hocc : ¬ Occluded info 0)
    (hflat : s.cloudCurvature.cell 0 < P.surfThreshold) (hpos : 0 < curvature info 5)
    (hfive : curvature info 5 ≤ P.edgeThreshold) : laserCloudInfoHandler P info s = none := by
  have hout : (0 : ℤ) ∉ Int.range 5 (info.cloudSize - 5) := by simp [Int.mem_range_iff]
  have hfree' : (prepare info s).cloudNeighborPicked.cell 0 = false := by
    refine eq_false_of_ne_true fun hmark => ?_
    rcases picked_prepare.mp hmark with h | ⟨-, h⟩
    · exact hocc h
    · exact Bool.noConfusion (hfree.symm.trans h)
  have hflat' : IsFlat P (prepare info s) 0 := by
    unfold IsFlat
    rw [curvature_prepare, if_neg hout]
    exact hflat
  -- the first segment starts one slot in front of the first that is written, which is 5
  have hstart : segmentStart (first 0 - 1 + 5) (first (0 + 1) - 1 - 5) 0 = 4 := by
    rw [segmentStart_zero, hrings.zero]
    norm_num
  have hend : 5 ≤ segmentEnd (first 0 - 1 + 5) (first (0 + 1) - 1 - 5) 0 := by
    unfold segmentEnd
    refine le_sub_iff_add_le.mpr ?_
    change Int.tdiv 36 6 ≤ _
    refine Int.tdiv_le_tdiv (by norm_num) ?_
    change 36 ≤ (first 0 - 1 + 5) * 5 + (first 1 - 1 - 5) * 1
    rw [hrings.zero]
    omega
  have hmem : (segmentStart (first 0 - 1 + 5) (first (0 + 1) - 1 - 5) 0,
      segmentEnd (first 0 - 1 + 5) (first (0 + 1) - 1 - 5) 0) ∈ segmentsOf first 0 := by
    refine List.mem_filter.mpr ⟨List.mem_map.mpr ⟨0, by decide, rfl⟩, ?_⟩
    rw [decide_eq_true_eq, hstart]
    omega
  obtain ⟨-, -, -, -, hlast⟩ := hrings.bounds hscan hmem
  have hsegment := fun x : Extraction K => fun hx : x.arrays = prepare info s =>
    extractSegment_none (P := P) hstart hend hlast hx hslot hfits hfree' hflat' hpos hfive
  -- down to the first segment of the first ring
  rw [Option.eq_none_iff_forall_ne_some]
  intro y h
  unfold laserCloudInfoHandler extractFeatures at h
  obtain ⟨n, hn⟩ : ∃ n, P.nScan = n + 1 := ⟨P.nScan - 1, by omega⟩
  rw [hn, List.range_succ_eq_map, List.foldlM_cons] at h
  obtain ⟨y₁, hfirst, -⟩ := Option.bind_eq_some_iff.mp h
  unfold extractRing at hfirst
  rw [hrings.start 0 hscan, hrings.stop 0 hscan] at hfirst
  change (extractSegments P info _ _ _).bind _ = _ at hfirst
  obtain ⟨x, hx, -⟩ := Option.bind_eq_some_iff.mp hfirst
  unfold extractSegments at hx
  rw [range_cons 0 6 (by norm_num), List.foldlM_cons] at hx
  obtain ⟨x₁, hx₁, -⟩ := Option.bind_eq_some_iff.mp hx
  change (if _ ≤ _ then _ else _) = _ at hx₁
  rw [if_neg (by rw [hstart]; omega), hsegment _ rfl] at hx₁
  cases hx₁

/-- It applies when the memory of the arrays was all zero. -/
theorem features_first_scan_sample :
    laserCloudInfoHandler sampleParams sampleScan (sampleArrays false) = none :=
  features_first_scan sampleScan_rings (sampleScan_fits false) (by decide) (by decide) rfl rfl
    (by
      rintro ⟨i, hi, hmem⟩
      revert i
      decide +kernel)
    (by decide +kernel) (by decide +kernel) (by decide +kernel)

end First

end Mapping
end WtbAutoware
