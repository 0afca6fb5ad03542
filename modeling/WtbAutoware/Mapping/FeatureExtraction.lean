import WtbAutoware.Framework.Buffer
import WtbAutoware.Mapping.ImageProjection

/-!
# LIO-SAM's `featureExtraction`

`FeatureExtraction` receives the points of a scan, ring by ring, with the range of each and its
column in the range image. It computes how much the range of a point differs from those of its
ten neighbours, sets the points aside that lie at the edge of an occlusion or on a surface that
runs along the beam, cuts each ring into six segments, and takes from each segment up to twenty
corners of high curvature. The rest of a segment is surface, and is thinned out.

The four arrays of the node are as large as the range image, are never cleared, and hold from
message to message what was written last (`Features`). An entry of `cloudSmoothness` names a
point by its index, and `std::sort` moves the entries about, so a loop over a segment does not
read the points of the segment but those that the entries name. The accesses of
`extractFeatures` are therefore modelled with their bounds: outside the arrays, the run ends
(`none`). The loops of `calculateSmoothness` and `markOccludedPoints` stay inside the cloud by
their own bounds.

Ranges and curvatures are exact. The voxel filter of PCL is taken as it comes. What the node
does with the other members of the message is to pass them on, and they are left out.
-/

namespace WtbAutoware
namespace Mapping

open Buffers

/-! ### Data -/

/-- `smoothness_t`. -/
structure Smoothness (K : Type) where
  value : K
  ind : ℤ
  deriving DecidableEq

/-- `by_value`. -/
def ByValue {K : Type} [LT K] (left right : Smoothness K) : Prop := left.value < right.value

/-- What is read of `cloud_info`. -/
structure CloudInfo (K : Type) where
  startRingIndex : List ℤ
  endRingIndex : List ℤ
  pointColInd : Buffer ℤ
  pointRange : Buffer K
  cloudDeskewed : List (Point K)

/-- The parameters of the node, and PCL's filter. -/
structure FeatureParams (K : Type) [LT K] where
  nScan : ℕ
  edgeThreshold : K
  surfThreshold : K
  sort : StdSort (Smoothness K) ByValue
  /-- `downSizeFilter.filter`. -/
  downSizeFilter : List (Point K) → List (Point K)

/-- The arrays of the node. Of `cloudNeighborPicked`, whether it is zero is all that is read. -/
structure Features (K : Type) where
  cloudSmoothness : Buffer (Smoothness K)
  cloudCurvature : Buffer K
  cloudNeighborPicked : Buffer Bool
  cloudLabel : Buffer ℤ

namespace CloudInfo

variable {K : Type} (info : CloudInfo K)

/-- `extractedCloud->points.size()`. -/
def cloudSize : ℤ := info.cloudDeskewed.length

/-- `extractedCloud->points[i]`. -/
def point (i : ℤ) : Option (Point K) := if 0 ≤ i then info.cloudDeskewed[i.toNat]? else none

end CloudInfo

section Arrays

variable {K : Type} [Field K] [LinearOrder K] (info : CloudInfo K)

/-! ### `calculateSmoothness` -/

/-- `diffRange`. -/
def diffRange (i : ℤ) : K :=
  let range := info.pointRange.cell
  range (i - 5) + range (i - 4) + range (i - 3) + range (i - 2) + range (i - 1) - range i * 10 +
    range (i + 1) + range (i + 2) + range (i + 3) + range (i + 4) + range (i + 5)

/-- One pass of `calculateSmoothness`. -/
def calculatePoint (s : Features K) (i : ℤ) : Features K :=
  let curvature := diffRange info i * diffRange info i
  { cloudCurvature := s.cloudCurvature.write i curvature
    cloudNeighborPicked := s.cloudNeighborPicked.write i false
    cloudLabel := s.cloudLabel.write i 0
    cloudSmoothness := s.cloudSmoothness.write i ⟨curvature, i⟩ }

/-- `calculateSmoothness`. -/
def calculateSmoothness (s : Features K) : Features K :=
  (Int.range 5 (info.cloudSize - 5)).foldl (calculatePoint info) s

/-! ### `markOccludedPoints` -/

/-- The indices at which the pass for `i` sets `cloudNeighborPicked`. -/
def occludedBy (i : ℤ) : List ℤ :=
  let range := info.pointRange.cell
  let depth1 := range i
  let depth2 := range (i + 1)
  let columnDiff := |info.pointColInd.cell (i + 1) - info.pointColInd.cell i|
  let occluded :=
    if columnDiff < 10 then
      -- the farther of the two sides is set aside
      if 3 / 10 < depth1 - depth2 then Int.range (i - 5) (i + 1)
      else if 3 / 10 < depth2 - depth1 then Int.range (i + 1) (i + 7)
      else []
    else []
  let diff1 := |range (i - 1) - range i|
  let diff2 := |range (i + 1) - range i|
  -- a parallel beam
  if 2 / 100 * range i < diff1 ∧ 2 / 100 * range i < diff2 then occluded ++ [i] else occluded

/-- `markOccludedPoints`. -/
def markOccludedPoints (s : Features K) : Features K :=
  { s with
    cloudNeighborPicked := (Int.range 5 (info.cloudSize - 6)).foldl
      (fun picked i => (occludedBy info i).foldl (fun picked j => picked.write j true) picked)
      s.cloudNeighborPicked }

end Arrays

/-! ### `extractFeatures` -/

section Picking

variable {K : Type} [Field K] [LinearOrder K] (P : FeatureParams K) (info : CloudInfo K)

/-- `std::sort` on the entries from `sp` to in front of `ep`. -/
def sortSlots (sort : StdSort (Smoothness K) ByValue) (sp ep : ℤ) (b : Buffer (Smoothness K)) :
    Option (Buffer (Smoothness K)) :=
  if 0 ≤ sp ∧ ep ≤ b.size then
    let sorted := sort.run ((Int.range sp ep).map b.cell)
    some ⟨b.size, fun k =>
      if sp ≤ k ∧ k < ep then (sorted[(k - sp).toNat]?).getD (b.cell k) else b.cell k⟩
  else none

/-- The loop that marks the neighbours of `ind` on one side, up to a gap between columns. -/
def markNeighbors (pointColInd : Buffer ℤ) (ind dir : ℤ) :
    List ℤ → Buffer Bool → Option (Buffer Bool)
  | [], picked => some picked
  | l :: ls, picked => do
    let col ← pointColInd.load (ind + dir * l)
    let col' ← pointColInd.load (ind + dir * l - dir)
    if 10 < |col - col'| then some picked
    else
      let picked ← picked.store (ind + dir * l) true
      markNeighbors pointColInd ind dir ls picked

/-- What becomes of the arrays when a point is taken: it gets its label, and neither it nor its
neighbours on both sides can be taken any more. -/
def pick (label : ℤ) (s : Features K) (ind : ℤ) : Option (Features K) := do
  let cloudLabel ← s.cloudLabel.store ind label
  let picked ← s.cloudNeighborPicked.store ind true
  let picked ← markNeighbors info.pointColInd ind 1 [1, 2, 3, 4, 5] picked
  let picked ← markNeighbors info.pointColInd ind (-1) [1, 2, 3, 4, 5] picked
  some { s with cloudLabel := cloudLabel, cloudNeighborPicked := picked }

/-- The loop over the entries `ks` that takes corners. It ends at the twenty-first. -/
def cornerLoop : List ℤ → ℕ → Features K × List (Point K) → Option (Features K × List (Point K))
  | [], _, x => some x
  | k :: ks, largestPickedNum, (s, cornerCloud) => do
    let entry ← s.cloudSmoothness.load k
    let ind := entry.ind
    let picked ← s.cloudNeighborPicked.load ind
    if picked = false then
      let curvature ← s.cloudCurvature.load ind
      if P.edgeThreshold < curvature then
        if largestPickedNum + 1 ≤ 20 then
          let point ← info.point ind
          let s ← pick info 1 s ind
          cornerLoop ks (largestPickedNum + 1) (s, cornerCloud ++ [point])
        else some (s, cornerCloud)
      else cornerLoop ks largestPickedNum (s, cornerCloud)
    else cornerLoop ks largestPickedNum (s, cornerCloud)

/-- The loop over the entries `ks` that takes flat points. -/
def surfLoop : List ℤ → Features K → Option (Features K)
  | [], s => some s
  | k :: ks, s => do
    let entry ← s.cloudSmoothness.load k
    let ind := entry.ind
    let picked ← s.cloudNeighborPicked.load ind
    if picked = false then
      let curvature ← s.cloudCurvature.load ind
      if curvature < P.surfThreshold then
        let s ← pick info (-1) s ind
        surfLoop ks s
      else surfLoop ks s
    else surfLoop ks s

/-- The loop over the points `ks` that collects what is no corner. -/
def collectSurface (s : Features K) : List ℤ → List (Point K) → Option (List (Point K))
  | [], surfaceCloudScan => some surfaceCloudScan
  | k :: ks, surfaceCloudScan => do
    let label ← s.cloudLabel.load k
    if label ≤ 0 then
      let point ← info.point k
      collectSurface s ks (surfaceCloudScan ++ [point])
    else collectSurface s ks surfaceCloudScan

/-- What the loops over rings and segments carry along. -/
structure Extraction (K : Type) where
  arrays : Features K
  cornerCloud : List (Point K)
  surfaceCloudScan : List (Point K)

/-- `sp`, of segment `j` of a ring. -/
def segmentStart (start stop j : ℤ) : ℤ := (start * (6 - j) + stop * j).tdiv 6

/-- `ep`. -/
def segmentEnd (start stop j : ℤ) : ℤ := (start * (5 - j) + stop * (j + 1)).tdiv 6 - 1

/-- A segment, from the entry at `sp` to that at `ep`. The last one is not sorted. -/
def extractSegment (sp ep : ℤ) (x : Extraction K) : Option (Extraction K) := do
  let cloudSmoothness ← sortSlots P.sort sp ep x.arrays.cloudSmoothness
  let s := { x.arrays with cloudSmoothness := cloudSmoothness }
  let (s, cornerCloud) ← cornerLoop P info (Int.range sp (ep + 1)).reverse 0 (s, x.cornerCloud)
  let s ← surfLoop P info (Int.range sp (ep + 1)) s
  let surfaceCloudScan ← collectSurface info s (Int.range sp (ep + 1)) x.surfaceCloudScan
  some ⟨s, cornerCloud, surfaceCloudScan⟩

/-- The six segments of a ring. -/
def extractSegments (start stop : ℤ) (x : Extraction K) : Option (Extraction K) :=
  (Int.range 0 6).foldlM (fun x j =>
    let sp := segmentStart start stop j
    let ep := segmentEnd start stop j
    if ep ≤ sp then some x else extractSegment P info sp ep x) x

/-- What `extractFeatures` leaves: the arrays and the two clouds. -/
structure FeatureCloud (K : Type) where
  arrays : Features K
  cornerCloud : List (Point K)
  surfaceCloud : List (Point K)

/-- A ring. Its surface points are thinned out on their own. -/
def extractRing (y : FeatureCloud K) (i : ℕ) : Option (FeatureCloud K) := do
  let start ← info.startRingIndex[i]?
  let stop ← info.endRingIndex[i]?
  let x ← extractSegments P info start stop ⟨y.arrays, y.cornerCloud, []⟩
  some ⟨x.arrays, x.cornerCloud, y.surfaceCloud ++ P.downSizeFilter x.surfaceCloudScan⟩

/-- `extractFeatures`. -/
def extractFeatures (s : Features K) : Option (FeatureCloud K) :=
  (List.range P.nScan).foldlM (extractRing P info) ⟨s, [], []⟩

/-- `laserCloudInfoHandler`: the arrays it leaves, with what is published on
`lio_sam/feature/cloud_corner` and `lio_sam/feature/cloud_surface`. -/
def laserCloudInfoHandler (s : Features K) : Option (FeatureCloud K) :=
  extractFeatures P info (markOccludedPoints info (calculateSmoothness info s))

end Picking

/-- The arrays after `initializationValue`: `resize` clears the entries of `cloudSmoothness`,
and `new` leaves the other three as they were found. -/
def Features.initial {K : Type} [Field K] (size : ℕ) (curvature : ℤ → K) (picked : ℤ → Bool)
    (label : ℤ → ℤ) : Features K where
  cloudSmoothness := ⟨size, fun _ => ⟨0, 0⟩⟩
  cloudCurvature := ⟨size, curvature⟩
  cloudNeighborPicked := ⟨size, picked⟩
  cloudLabel := ⟨size, label⟩

end Mapping
end WtbAutoware
