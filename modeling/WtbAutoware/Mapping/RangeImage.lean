import WtbAutoware.Mapping.FeatureExtraction

/-!
# The arrays behind the range image

`ImageProjection` keeps the range image in two arrays. `rangeMat` is new for every scan;
`fullCloud` is filled where a point falls and never cleared, so that it holds the points of
earlier scans everywhere else. `cloudExtraction` goes through the image row by row and writes the
points into `extractedCloud`, their columns and ranges into two arrays of `cloudInfo` that are
never cleared either, and the bounds of each row into two more.

Here these functions are modelled with their arrays, and an access outside ends the run (`none`).
The range that `rangeMat` starts with, `FLT_MAX`, is `none` as well, as no point is that far off.
The integrated IMU readings of a scan lie in arrays as well, of `queueLength` entries each, which
`imuDeskewInfo` fills without looking at the bound; and `columnIdnCountVec`, where the column of a
livox point is looked up, has no entries at all.
-/

namespace WtbAutoware
namespace Mapping

open Buffers Reactive Sensing

/-- The number of entries of `imuTime`, `imuRotX`, `imuRotY` and `imuRotZ`. -/
def queueLength : ℕ := 2000

section RangeImage

variable {K : Type} [Field K] [LinearOrder K] [FloorRing K] (P : Params K) (E : Env K)

/-- What the loop of `projectPointCloud` writes, array by array. -/
structure RangeImage (K : Type) where
  rangeMat : Sheet (Option K)
  fullCloud : Buffer (Point K)
  /-- `transStartInverse`, while `firstPointFlag` is down. -/
  startRotation : Option (Vec3 K)
  calls : List (ℕ × K)

/-- The column of a point, which for a livox is looked up in an empty vector. -/
def columnAt (i : ℕ) (p : Point K) : Option ℤ :=
  if P.sensor = .livox then none else some (columnIdn P E i p)

/-- One pass of the loop. -/
def projectInto (deskewFlag : ℤ) (scan : Scan K) (imu : List (ImuRotation K)) (s : RangeImage K) :
    LaserPoint K × ℕ → Option (RangeImage K)
  | (p, i) =>
    let range := E.pointDistance p.toPoint
    if range < P.lidarMinRange ∨ P.lidarMaxRange < range then some s
    else
      let rowIdn : ℤ := p.ring.toNat
      if P.nScan ≤ rowIdn then some s
      else if rowIdn.tmod P.downsampleRate ≠ 0 then some s
      else do
        let columnIdn ← columnAt P E i p.toPoint
        if columnIdn < 0 ∨ P.horizonScan ≤ columnIdn then some s
        else
          let taken ← s.rangeMat.load (rowIdn, columnIdn)
          if taken ≠ none then some s
          else
            let (kept, thisPoint) :=
              deskewPoint E deskewFlag scan imu ⟨[], s.startRotation, s.calls⟩ i p.time p.toPoint
            let rangeMat ← s.rangeMat.store (rowIdn, columnIdn) (some range)
            let index := columnIdn + rowIdn * P.horizonScan
            let fullCloud ← s.fullCloud.store index thisPoint
            some
              { rangeMat := rangeMat
                fullCloud := fullCloud
                startRotation := kept.startRotation
                calls := kept.calls }

/-- `projectPointCloud`, into what `fullCloud` holds. -/
def projectArrays (deskewFlag : ℤ) (scan : Scan K) (imu : List (ImuRotation K))
    (fullCloud : Buffer (Point K)) : Option (RangeImage K) :=
  scan.laserCloudIn.zipIdx.foldlM (projectInto P E deskewFlag scan imu)
    ⟨⟨P.nScan, P.horizonScan, fun _ => none⟩, fullCloud, none, []⟩

/-- What the loop of `cloudExtraction` carries along: the message, and `count`. -/
structure Counted (K : Type) where
  cloudInfo : CloudInfo K
  count : ℤ

/-- One cell of the image. -/
def extractCell (image : RangeImage K) (i : ℤ) (x : Counted K) (j : ℤ) : Option (Counted K) := do
  match ← image.rangeMat.load (i, j) with
  | none => some x
  | some range =>
    let pointColInd ← x.cloudInfo.pointColInd.store x.count j
    let pointRange ← x.cloudInfo.pointRange.store x.count range
    let point ← image.fullCloud.load (j + i * P.horizonScan)
    some
      { cloudInfo :=
          { x.cloudInfo with
            pointColInd := pointColInd
            pointRange := pointRange
            cloudDeskewed := x.cloudInfo.cloudDeskewed ++ [point] }
        count := x.count + 1 }

/-- One row. -/
def extractRow (image : RangeImage K) (x : Counted K) (i : ℕ) : Option (Counted K) := do
  let startRingIndex ← assign x.cloudInfo.startRingIndex i (x.count - 1 + 5)
  let x ← (Int.range 0 P.horizonScan).foldlM (extractCell P image i)
    { x with cloudInfo := { x.cloudInfo with startRingIndex := startRingIndex } }
  let endRingIndex ← assign x.cloudInfo.endRingIndex i (x.count - 1 - 5)
  some { x with cloudInfo := { x.cloudInfo with endRingIndex := endRingIndex } }

/-- `cloudExtraction`, into what `cloudInfo` holds. -/
def extractArrays (image : RangeImage K) (cloudInfo : CloudInfo K) : Option (Counted K) :=
  (List.range P.nScan.toNat).foldlM (extractRow P image)
    ⟨{ cloudInfo with cloudDeskewed := [] }, 0⟩

/-! ### The node -/

/-- The arrays that the node keeps from scan to scan. -/
structure Arrays (K : Type) where
  fullCloud : Buffer (Point K)
  cloudInfo : CloudInfo K

/-- The arrays after `allocateMemory`, where `resize` makes the points. -/
def Arrays.initial (point : Point K) : Arrays K where
  fullCloud := ⟨(P.nScan * P.horizonScan).toNat, fun _ => point⟩
  cloudInfo :=
    { startRingIndex := List.replicate P.nScan.toNat 0
      endRingIndex := List.replicate P.nScan.toNat 0
      pointColInd := ⟨(P.nScan * P.horizonScan).toNat, fun _ => 0⟩
      pointRange := ⟨(P.nScan * P.horizonScan).toNat, fun _ => 0⟩
      cloudDeskewed := [] }

/-- A message published by the node, with the whole of `cloud_info`. -/
inductive ArrayOutput (K : Type) where
  | findRotation (cloud : PointCloud2 K) (index : ℕ) (pointTime : K)
  | cloudInfo (header : Header K) (info : CloudInfo K)

/-- What `cloudHandler` does with the cloud it has taken from the queue. -/
def handleScanArrays (s : State K) (a : Arrays K) (cloud : PointCloud2 K) :
    Option ((State K × Arrays K) × List (ArrayOutput K)) :=
  let scan := getScan P E cloud
  let s := checkCloud P E s cloud
  match deskewInfo s.imuQueue scan with
  | none => some ((s, a), [])
  | some (imuQueue, imu) =>
    -- reading number `queueLength` would be written behind the arrays
    if queueLength < imu.length then none
    else do
      let image ← projectArrays P E s.deskewFlag scan imu a.fullCloud
      let x ← extractArrays P image a.cloudInfo
      some (({ s with imuQueue := imuQueue }, ⟨image.fullCloud, x.cloudInfo⟩),
        image.calls.map (fun (i, pointTime) => .findRotation cloud i pointTime) ++
          [.cloudInfo cloud.header x.cloudInfo])

/-- `cloudHandler`. -/
def cloudHandlerArrays (s : State K) (a : Arrays K) (msg : PointCloud2 K) :
    Option ((State K × Arrays K) × List (ArrayOutput K)) :=
  match s.cloudQueue ++ [msg] with
  | current :: second :: third :: rest =>
    handleScanArrays P E { s with cloudQueue := second :: third :: rest } a current
  | short => some (({ s with cloudQueue := short }, a), [])

/-- One callback. -/
def stepArrays (s : State K) (a : Arrays K) :
    Event K → Option ((State K × Arrays K) × List (ArrayOutput K))
  | .imu msg => if s.ok then some ((imuHandler P s msg, a), []) else some ((s, a), [])
  | .cloud msg => if s.ok then cloudHandlerArrays P E s a msg else some ((s, a), [])

/-- The messages of a run. -/
def traceArrays : List (Event K) → State K → Arrays K → Option (List (ArrayOutput K))
  | [], _, _ => some []
  | e :: es, s, a => do
    let (sa, out) ← stepArrays P E s a e
    let rest ← traceArrays es sa.1 sa.2
    some (out ++ rest)

end RangeImage

end Mapping
end WtbAutoware
