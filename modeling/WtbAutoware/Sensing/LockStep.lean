import WtbAutoware.Sensing.Layout

/-!
# The two clouds run in lock step

`PointCloudTransformer2` fills two clouds in one loop, which skips the points that the
height filter drops. What is pushed to either cloud is therefore one list of input points,
mapped to the format of that cloud: `retained`, the points that are let through, each with
its index in the input (`convertPoints_eq_map`). Its indices increase
(`pairwise_retainedIndices`), so no point appears twice or out of order, and they are those
of the points that pass the filter (`mem_retainedIndices`).

The rest of the law is about a single point. In exact arithmetic a point is an `ExactPoint`,
the coordinates of both outputs are the transform applied to it (`transformRow_exact`), and
the intensity byte is the truncated intensity, clamped (`toNat_intensityByte`).
`clouds_inLockStep` puts the parts together.
-/

namespace WtbAutoware
namespace Sensing

open Reactive

/-! ### What was published -/

section Published

variable {K : Type}

/-- The LIO-SAM points among what was published. -/
def liosamOf (out : List (Output K)) : List (PointXYZIRT K) :=
  out.flatMap fun
    | .autoware _ _ => []
    | .liosam _ cloud => cloud.points

/-- The Autoware points among what was published. -/
def autowareOf (out : List (Output K)) : List (PointXYZIRC K) :=
  out.flatMap fun
    | .autoware _ cloud => cloud.points
    | .liosam _ _ => []

end Published

/-! ### The points that are let through -/

section Retained

variable {K : Type} [Field K] [LinearOrder K]
variable (E : Env K) (s : State) (m : PointCloud2 K) (P : Params K)

/-- The points that the height filter lets through, each with its index in the cloud. -/
def retained (points : List (PointXYZI K)) : List (PointXYZI K × ℕ) :=
  points.zipIdx.filter fun (p, _) => ¬ Dropped E P p

/-- The indices of the points that are let through. -/
def retainedIndices (points : List (PointXYZI K)) : List ℕ :=
  (retained E P points).map Prod.snd

theorem mem_retained {points : List (PointXYZI K)} {p : PointXYZI K} {i : ℕ} :
    (p, i) ∈ retained E P points ↔ points[i]? = some p ∧ ¬ Dropped E P p := by
  unfold retained
  rw [List.mem_filter, List.mk_mem_zipIdx_iff_getElem?, decide_eq_true_iff]

theorem mem_retainedIndices {points : List (PointXYZI K)} {i : ℕ} :
    i ∈ retainedIndices E P points ↔ ∃ p, points[i]? = some p ∧ ¬ Dropped E P p := by
  unfold retainedIndices
  rw [List.mem_map]
  refine ⟨?_, ?_⟩
  · rintro ⟨⟨p, j⟩, hmem, rfl⟩
    exact ⟨p, (mem_retained E P).mp hmem⟩
  · rintro ⟨p, hp⟩
    exact ⟨(p, i), (mem_retained E P).mpr hp, rfl⟩

/-- The filter keeps the order of the cloud. -/
theorem pairwise_retainedIndices (points : List (PointXYZI K)) :
    (retainedIndices E P points).Pairwise (· < ·) := by
  have hsub : (retainedIndices E P points).Sublist (List.range points.length) := by
    have hmap := (List.filter_sublist (p := fun (q : PointXYZI K × ℕ) => ¬ Dropped E P q.1)
      (l := points.zipIdx)).map Prod.snd
    rwa [List.zipIdx_map_snd, ← List.range_eq_range'] at hmap
  exact List.pairwise_lt_range.sublist hsub

theorem length_retained_le (points : List (PointXYZI K)) :
    (retained E P points).length ≤ points.length := by
  have h := List.length_filter_le (fun q : PointXYZI K × ℕ => decide (¬ Dropped E P q.1))
    points.zipIdx
  rwa [List.length_zipIdx] at h

variable [FloorRing K]

/-- **The pass over the points** maps the points that are let through. -/
theorem convertPoints_eq_map (points : List (PointXYZI K)) :
    convertPoints E s m P points =
      (retained E P points).map fun (p, i) => (autowarePoint E s m i p, liosamPoint E s m i p) := by
  unfold convertPoints retained
  induction points.zipIdx with
  | nil => rfl
  | cons q rest ih =>
    obtain ⟨p, i⟩ := q
    by_cases hdrop : Dropped E P p
    · -- the filter takes the point out of both
      simp only [List.filterMap_cons, List.filter_cons, hdrop, if_true, not_true, decide_false,
        Bool.false_eq_true, if_false]
      exact ih
    · -- it makes one point of each cloud
      simp only [List.filterMap_cons, List.filter_cons, hdrop, if_false, not_false_eq_true,
        decide_true, if_true, List.map_cons]
      rw [ih]

/-- The points of the Autoware cloud. -/
def autowarePoints (points : List (PointXYZI K)) : List (PointXYZIRC K) :=
  (retained E P points).map fun (p, i) => autowarePoint E s m i p

/-- The points of the LIO-SAM cloud. -/
def liosamPoints (points : List (PointXYZI K)) : List (PointXYZIRT K) :=
  (retained E P points).map fun (p, i) => liosamPoint E s m i p

/-- The header of both clouds. -/
def outHeader (m : PointCloud2 K) : Header K := { stamp := m.header.stamp, frameId := "base_link" }

/-- Both clouds list the points that are let through, in their own formats. -/
theorem publishClouds_eq (cloudIn : PclCloud (PointXYZI K)) :
    publishClouds E s m P cloudIn =
      [.autoware (outHeader m) ⟨1, BitVec.ofNat 32 (retained E P cloudIn.points).length,
          cloudIn.isDense, autowarePoints E s m P cloudIn.points⟩,
        .liosam (outHeader m) ⟨1, BitVec.ofNat 32 (retained E P cloudIn.points).length,
          cloudIn.isDense, liosamPoints E s m P cloudIn.points⟩] := by
  unfold publishClouds autowarePoints liosamPoints
  dsimp only
  rw [convertPoints_eq_map, List.map_map, List.map_map, List.length_map]
  rfl

/-- A message that PCL converts is published as the two clouds, with its own offsets where
none were resolved before. -/
theorem out_eq_publishClouds {cloudIn : PclCloud (PointXYZI K)}
    (hpcl : E.fromROSMsg m = some cloudIn) :
    (pointCloudTransformer E P).out s m =
      publishClouds E (resolveOffsets m s) m P cloudIn := by
  change (pointCloudCallback E P s m).2 = _
  unfold pointCloudCallback
  rw [hpcl]

variable {cloudIn : PclCloud (PointXYZI K)} (hpcl : E.fromROSMsg m = some cloudIn)
include hpcl

theorem autowareOf_out :
    autowareOf ((pointCloudTransformer E P).out s m) =
      autowarePoints E (resolveOffsets m s) m P cloudIn.points := by
  rw [out_eq_publishClouds E s m P hpcl, publishClouds_eq]
  exact List.append_nil _

theorem liosamOf_out :
    liosamOf ((pointCloudTransformer E P).out s m) =
      liosamPoints E (resolveOffsets m s) m P cloudIn.points := by
  rw [out_eq_publishClouds E s m P hpcl, publishClouds_eq]
  exact List.append_nil _

end Retained

/-! ### Points in exact arithmetic -/

/-- A point whose values are all finite. -/
structure ExactPoint (K : Type) where
  x : K
  y : K
  z : K
  intensity : K
  deriving DecidableEq

namespace ExactPoint

variable {K : Type} (p : ExactPoint K)

/-- The point as PCL holds it. -/
def toXYZI : PointXYZI K := ⟨.fin p.x, .fin p.y, .fin p.z, .fin p.intensity⟩

/-- The transform `T`, applied to the homogeneous coordinates of the point. -/
def moved [Field K] (T : Matrix (Fin 4) (Fin 4) K) : Fin 4 → K := T.mulVec ![p.x, p.y, p.z, 1]

/-- The height filter, over `K`: it is off, or the height lies in the band. -/
def InBand [Field K] [LinearOrder K] (T : Matrix (Fin 4) (Fin 4) K) (useHeightFilter : Bool)
    (lo hi : K) : Prop :=
  useHeightFilter = true → lo ≤ p.moved T 2 ∧ p.moved T 2 ≤ hi

end ExactPoint

section Exact

variable {K : Type} [Field K] [LinearOrder K]

section Env

variable {E : Env K} (hexact : E.Exact)
include hexact

theorem transformRow_exact (i : Fin 4) (p : ExactPoint K) :
    transformRow E i p.toXYZI = .fin (p.moved E.T i) := by
  unfold transformRow Env.add Env.mul ExactPoint.toXYZI ExactPoint.moved
  simp only [Flt.rounded_eq_self hexact]
  rw [Flt.mulConst_fin, Flt.mulConst_fin, Flt.mulConst_fin, Flt.fin_add_fin, Flt.fin_add_fin,
    Flt.fin_add_fin]
  congr 1
  rw [Matrix.mulVec, dotProduct, Fin.sum_univ_four]
  change p.x * E.T i 0 + p.y * E.T i 1 + p.z * E.T i 2 + E.T i 3 =
    E.T i 0 * p.x + E.T i 1 * p.y + E.T i 2 * p.z + E.T i 3 * 1
  ring

theorem not_dropped_exact_iff {P : Params K} {lo hi : K} (hlo : P.minHeightThreshold = .fin lo)
    (hhi : P.maxHeightThreshold = .fin hi) (p : ExactPoint K) :
    ¬ Dropped E P p.toXYZI ↔ p.InBand E.T P.useHeightFilter lo hi := by
  unfold Dropped ExactPoint.InBand
  rw [transformRow_exact hexact, hlo, hhi, Flt.fin_lt_fin, Flt.fin_lt_fin]
  push Not
  rfl

end Env

omit [Field K] in
theorem stdMax_fin (a b : K) : stdMax (.fin a) (.fin b) = Flt.fin (max a b) := by
  unfold stdMax
  rw [max_def_lt]
  by_cases h : a < b
  · rw [if_pos (Flt.fin_lt_fin.mpr h), if_pos h]
  · rw [if_neg (mt Flt.fin_lt_fin.mp h), if_neg h]

omit [Field K] in
theorem stdMin_fin (a b : K) : stdMin (.fin a) (.fin b) = Flt.fin (min a b) := by
  unfold stdMin
  rw [min_comm, min_def_lt]
  by_cases h : b < a
  · rw [if_pos (Flt.fin_lt_fin.mpr h), if_pos h]
  · rw [if_neg (mt Flt.fin_lt_fin.mp h), if_neg h]

variable [FloorRing K] [IsStrictOrderedRing K]

/-- **The intensity byte** is the truncated intensity, clamped to a byte. -/
theorem toNat_intensityByte (v : K) :
    ((intensityByte (.fin v)).toNat : ℤ) = max 0 (min 255 (truncZ v)) := by
  have hmono : Monotone (truncZ : K → ℤ) := fun _ _ h => truncZ_mono h
  have h255 : truncZ (255 : K) = 255 := by exact_mod_cast truncZ_intCast (K := K) 255
  have htrunc : truncZ (min 255 (max 0 v)) = min 255 (max 0 (truncZ v)) := by
    rw [hmono.map_min, hmono.map_max, h255, truncZ_zero]
  unfold intensityByte
  rw [stdMax_fin, stdMin_fin]
  change ((BitVec.ofInt 8 (truncZ (min 255 (max 0 v)))).toNat : ℤ) = _
  rw [htrunc, BitVec.toNat_ofInt]
  omega

end Exact

/-! ### The law -/

/-- The points of a message follow each other without a gap, and the message has come over
a transport that counts the bytes of a sequence in 32 bits. -/
structure Unpadded {K : Type} (m : PointCloud2 K) : Prop where
  pointStep : 0 < m.pointStep.toNat
  rowStep : m.rowStep.toNat = m.width.toNat * m.pointStep.toNat
  length : m.data.length = m.height.toNat * m.rowStep.toNat
  wire : m.data.length < 2 ^ 32

/-- As many points as bytes, at most. -/
theorem Unpadded.count_lt {K : Type} {m : PointCloud2 K} (h : Unpadded m) :
    m.width.toNat * m.height.toNat < 2 ^ 32 := by
  refine lt_of_le_of_lt ?_ h.wire
  rw [h.length, h.rowStep]
  calc m.width.toNat * m.height.toNat
      ≤ m.width.toNat * m.height.toNat * m.pointStep.toNat := Nat.le_mul_of_pos_right _ h.pointStep
    _ = m.height.toNat * (m.width.toNat * m.pointStep.toNat) := by ring

section Law

variable {K : Type} [Field K] [LinearOrder K]

/-- One input point in both output formats. -/
structure Matches [FloorRing K] (T : Matrix (Fin 4) (Fin 4) K) (p : ExactPoint K)
    (a : PointXYZIRC K) (l : PointXYZIRT K) : Prop where
  autoware_x : a.x = .fin (p.moved T 0)
  autoware_y : a.y = .fin (p.moved T 1)
  autoware_z : a.z = .fin (p.moved T 2)
  liosam_x : l.x = a.x
  liosam_y : l.y = a.y
  liosam_z : l.z = a.z
  channel : a.channel = l.ring
  autoware_intensity : (a.intensity.toNat : ℤ) = max 0 (min 255 (truncZ p.intensity))
  liosam_intensity : l.intensity = .fin p.intensity

/-- The clouds `aw` and `ls` hold the points of `points` at `indices`, which are those that
pass the height filter. -/
structure InLockStep [FloorRing K] (T : Matrix (Fin 4) (Fin 4) K) (useHeightFilter : Bool)
    (lo hi : K) (points : List (ExactPoint K)) (indices : List ℕ) (aw : PclCloud (PointXYZIRC K))
    (ls : PclCloud (PointXYZIRT K)) : Prop where
  autoware_height : aw.height = 1
  liosam_height : ls.height = 1
  autoware_width : aw.width.toNat = aw.points.length
  liosam_width : ls.width.toNat = ls.points.length
  autoware_length : aw.points.length = indices.length
  liosam_length : ls.points.length = indices.length
  inOrder : indices.Pairwise (· < ·)
  kept : ∀ i, i ∈ indices ↔ ∃ p, points[i]? = some p ∧ p.InBand T useHeightFilter lo hi
  matches_at : ∀ k i : ℕ, indices[k]? = some i → ∃ p a l, points[i]? = some p ∧
    aw.points[k]? = some a ∧ ls.points[k]? = some l ∧ Matches T p a l

variable [FloorRing K] [IsStrictOrderedRing K]

theorem matches_exact {E : Env K} (hexact : E.Exact) (s : State) (m : PointCloud2 K) (i : ℕ)
    (p : ExactPoint K) :
    Matches E.T p (autowarePoint E s m i p.toXYZI) (liosamPoint E s m i p.toXYZI) where
  autoware_x := transformRow_exact hexact 0 p
  autoware_y := transformRow_exact hexact 1 p
  autoware_z := transformRow_exact hexact 2 p
  liosam_x := rfl
  liosam_y := rfl
  liosam_z := rfl
  channel := rfl
  autoware_intensity := toNat_intensityByte p.intensity
  liosam_intensity := rfl

/-- **Lock step.** For an unpadded message whose points PCL returns, whatever was resolved
before: the two clouds have one row each and the same number of points, which is their
width. The points are those of the input whose height is in the band, in the order of the
input and each of them once, and the two points at one place come from the same input
point. -/
theorem clouds_inLockStep (E : Env K) (hexact : E.Exact) (P : Params K) (s : State)
    (m : PointCloud2 K) (cloudIn : PclCloud (PointXYZI K)) (points : List (ExactPoint K))
    (lo hi : K) (hm : Unpadded m) (hpcl : E.fromROSMsg m = some cloudIn)
    (hcount : cloudIn.points.length = m.width.toNat * m.height.toNat)
    (hpoints : cloudIn.points = points.map ExactPoint.toXYZI)
    (hlo : P.minHeightThreshold = .fin lo) (hhi : P.maxHeightThreshold = .fin hi) :
    ∃ indices aw ls,
      (pointCloudTransformer E P).out s m =
        [.autoware (outHeader m) aw, .liosam (outHeader m) ls] ∧
      InLockStep E.T P.useHeightFilter lo hi points indices aw ls := by
  have hwidth : (BitVec.ofNat 32 (retained E P cloudIn.points).length).toNat =
      (retained E P cloudIn.points).length := by
    rw [BitVec.toNat_ofNat]
    refine Nat.mod_eq_of_lt (lt_of_le_of_lt (length_retained_le E P cloudIn.points) ?_)
    rw [hcount]
    exact hm.count_lt
  have hlookup (i : ℕ) (q : PointXYZI K) :
      cloudIn.points[i]? = some q ↔ ∃ p, points[i]? = some p ∧ p.toXYZI = q := by
    rw [hpoints, List.getElem?_map, Option.map_eq_some_iff]
  refine ⟨retainedIndices E P cloudIn.points, _, _,
    (out_eq_publishClouds E s m P hpcl).trans (publishClouds_eq ..), ?_⟩
  refine
    { autoware_height := rfl
      liosam_height := rfl
      autoware_width := hwidth.trans (List.length_map _).symm
      liosam_width := hwidth.trans (List.length_map _).symm
      autoware_length := (List.length_map _).trans (List.length_map _).symm
      liosam_length := (List.length_map _).trans (List.length_map _).symm
      inOrder := pairwise_retainedIndices E P cloudIn.points
      kept := ?_
      matches_at := ?_ }
  · intro i
    rw [mem_retainedIndices]
    refine ⟨?_, ?_⟩
    · rintro ⟨q, hq, hkept⟩
      obtain ⟨p, hp, rfl⟩ := (hlookup i q).mp hq
      exact ⟨p, hp, (not_dropped_exact_iff hexact hlo hhi p).mp hkept⟩
    · rintro ⟨p, hp, hband⟩
      exact ⟨p.toXYZI, (hlookup i _).mpr ⟨p, hp, rfl⟩,
        (not_dropped_exact_iff hexact hlo hhi p).mpr hband⟩
  · intro k i hk
    -- the `k`-th point that is let through, and what it is mapped to
    rw [retainedIndices, List.getElem?_map, Option.map_eq_some_iff] at hk
    obtain ⟨⟨q, j⟩, hq, rfl⟩ := hk
    obtain ⟨p, hp, rfl⟩ :=
      (hlookup j q).mp ((mem_retained E P).mp (List.mem_of_getElem? hq)).1
    refine ⟨p, _, _, hp, ?_, ?_, matches_exact hexact (resolveOffsets m s) m j p⟩
    · change (autowarePoints E _ m P cloudIn.points)[k]? = _
      rw [autowarePoints, List.getElem?_map, hq]
      rfl
    · change (liosamPoints E _ m P cloudIn.points)[k]? = _
      rw [liosamPoints, List.getElem?_map, hq]
      rfl

end Law

section Heights

/-- A cloud of two points, the second of them at height 5. -/
def twoHeights : PointCloud2 ℚ :=
  { singlePoint 16 with
    width := 2
    rowStep := 40
    data := List.replicate 16 0 ++ [3, 0, 0, 0] ++ List.replicate 10 0 ++ [0xa0, 0x40] ++
      List.replicate 4 0 ++ [4, 0, 0, 0] }

/-- The filter is on, with the declared band from -1 to 1. -/
def Params.filtering : Params ℚ := { Params.default with useHeightFilter := true }

/-- Exact arithmetic, in the place of IEEE single precision. -/
def Env.ratExact : Env ℚ := { Env.rat with float := .exact }

theorem clouds_inLockStep_twoHeights :
    ∃ indices aw ls,
      (pointCloudTransformer Env.ratExact Params.filtering).out State.initial twoHeights =
        [.autoware (outHeader twoHeights) aw, .liosam (outHeader twoHeights) ls] ∧
      InLockStep Env.ratExact.T true (-1) 1 [⟨0, 0, 0, 0⟩, ⟨0, 0, 5, 0⟩] indices aw ls :=
  clouds_inLockStep Env.ratExact (fun _ => rfl) Params.filtering State.initial twoHeights
    ⟨1, 2, true, [⟨.fin 0, .fin 0, .fin 0, .fin 0⟩, ⟨.fin 0, .fin 0, .fin 5, .fin 0⟩]⟩ _ (-1) 1
    ⟨by decide, by decide, by decide, by decide⟩ (by decide +kernel) rfl rfl rfl rfl

end Heights

end Sensing
end WtbAutoware
