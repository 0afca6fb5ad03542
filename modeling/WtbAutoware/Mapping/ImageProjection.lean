import WtbAutoware.Framework.Machine
import WtbAutoware.Sensing.PointCloud

/-!
# LIO-SAM's `imageProjection`

`ImageProjection` holds two clouds back, takes the oldest from its queue when a third
arrives, and turns it into a range image, in which every point has been rotated into the
frame of the scan's start. The rotation of a point is that of the vehicle at the instant
at which the point was measured, interpolated between integrated IMU readings.

The instants come about in two functions: `cachePointCloud` fixes the start and end of
the scan from the header stamp and the times of the first and last point, and
`deskewPoint` adds the time of a point to the start.

Times and coordinates are exact and finite. What PCL reads from a message, `atan2` and the rotation
matrices are taken as they come (`Env`). The node sees IMU messages and clouds; what it
does with odometry sets no instant and moves no point, and is left out. Of an IMU message
it uses the stamp and the angular velocity here.
-/

namespace WtbAutoware
namespace Mapping

open Reactive Sensing

/-! ### Data -/

/-- The sensors; any other name shuts the node down when it is constructed. -/
inductive SensorType where
  | velodyne
  | ouster
  | livox
  | robosense
  deriving DecidableEq

/-- Three components. -/
abbrev Vec3 (K : Type) : Type := Fin 3 → K

/-- `VelodynePointXYZIRT`, the common representation. -/
structure LaserPoint (K : Type) where
  x : K
  y : K
  z : K
  intensity : K
  ring : BitVec 16
  time : K
  deriving DecidableEq

/-- `OusterPointXYZIRT`: the members that are read. -/
structure OusterPoint (K : Type) where
  x : K
  y : K
  z : K
  intensity : K
  t : BitVec 32
  ring : BitVec 8

/-- `RobosensePointXYZIRT`. -/
structure RobosensePoint (K : Type) where
  x : K
  y : K
  z : K
  intensity : K
  ring : BitVec 16
  timestamp : K

/-- `PointType`. -/
structure Point (K : Type) where
  x : K
  y : K
  z : K
  intensity : K
  deriving DecidableEq

/-- `sensor_msgs/Imu`. -/
structure Imu (K : Type) where
  stamp : K
  angularVelocity : Vec3 K

/-- The parameters of the node. -/
structure Params (K : Type) where
  sensor : SensorType
  nScan : ℤ
  horizonScan : ℤ
  downsampleRate : ℤ
  lidarMinRange : K
  lidarMaxRange : K
  extRot : Matrix (Fin 3) (Fin 3) K
  lidarFrame : String

/-- What the callbacks find outside the node. -/
structure Env (K : Type) where
  /-- `pcl::moveFromROSMsg`, into each of the three point types. -/
  velodyneCloud : PointCloud2 K → PclCloud (LaserPoint K)
  ousterCloud : PointCloud2 K → PclCloud (OusterPoint K)
  robosenseCloud : PointCloud2 K → PclCloud (RobosensePoint K)
  /-- The times that `front()` and `back()` find in an empty cloud. -/
  noFrontTime : K
  noBackTime : K
  /-- `pointDistance`. -/
  pointDistance : Point K → K
  /-- `atan2(x, y) * 180 / M_PI`. -/
  horizonAngle : Point K → K
  /-- What the node finds for point `i` where `columnIdnCountVec` would be, which is never given a
  size. With its arrays, the node ends there (`columnAt`). -/
  columnIdnCount : ℕ → ℤ
  /-- `transStartInverse * transFinal`, from the rotations of the two instants. -/
  rotateToStart : Vec3 K → Vec3 K → Point K → Point K

/-- One entry of `imuTime`, `imuRotX`, `imuRotY` and `imuRotZ`. -/
structure ImuRotation (K : Type) where
  time : K
  rot : Vec3 K

/-- A cloud that has been taken from the queue, with the start and end of its scan. -/
structure Scan (K : Type) where
  currentCloudMsg : PointCloud2 K
  laserCloudIn : List (LaserPoint K)
  timeScanCur : K
  timeScanEnd : K

/-- The members that a callback leaves to the next. -/
structure State (K : Type) where
  cloudQueue : List (PointCloud2 K)
  imuQueue : List (Imu K)
  /-- A static variable of `cachePointCloud`. -/
  ringFlag : ℤ
  deskewFlag : ℤ
  /-- `rclcpp::ok()`. -/
  ok : Bool

def State.initial {K : Type} : State K := ⟨[], [], 0, 0, true⟩

inductive Event (K : Type) where
  | imu (msg : Imu K)
  | cloud (msg : PointCloud2 K)

inductive Output (K : Type) where
  /-- The call of `findRotation` for point `index` of `cloud`. -/
  | findRotation (cloud : PointCloud2 K) (index : ℕ) (pointTime : K)
  /-- On `lio_sam/deskew/cloud_deskewed`. -/
  | cloudDeskewed (header : Header K) (points : List (Point K))
  deriving DecidableEq

/-! ### `cachePointCloud` -/

section Cache

variable {K : Type} [Field K] (P : Params K) (E : Env K)

/-- An Ouster point in Velodyne format. -/
def OusterPoint.toLaserPoint (src : OusterPoint K) : LaserPoint K where
  x := src.x
  y := src.y
  z := src.z
  intensity := src.intensity
  ring := src.ring.setWidth 16
  time := src.t.toNat / 1000000000

/-- A Robosense point in Velodyne format. -/
def RobosensePoint.toLaserPoint (cloudStampSec : K) (src : RobosensePoint K) : LaserPoint K where
  x := src.x
  y := src.y
  z := src.z
  intensity := src.intensity
  ring := src.ring
  time := src.timestamp - cloudStampSec

/-- The points of a cloud in Velodyne format. -/
def laserCloudIn (cloud : PointCloud2 K) : List (LaserPoint K) :=
  match P.sensor with
  | .velodyne => (E.velodyneCloud cloud).points
  | .livox => (E.velodyneCloud cloud).points
  | .ouster => (E.ousterCloud cloud).points.map OusterPoint.toLaserPoint
  | .robosense =>
    (E.robosenseCloud cloud).points.map (RobosensePoint.toLaserPoint cloud.header.stamp)

/-- `laserCloudIn->is_dense`. -/
def isDense (cloud : PointCloud2 K) : Bool :=
  match P.sensor with
  | .velodyne => (E.velodyneCloud cloud).isDense
  | .livox => (E.velodyneCloud cloud).isDense
  | .ouster => (E.ousterCloud cloud).isDense
  | .robosense => (E.robosenseCloud cloud).isDense

/-- `pcl_first_time`. -/
def firstTime (points : List (LaserPoint K)) : K :=
  (points.head?.map LaserPoint.time).getD E.noFrontTime

/-- `pcl_last_time`. -/
def lastTime (points : List (LaserPoint K)) : K :=
  (points.getLast?.map LaserPoint.time).getD E.noBackTime

variable [LinearOrder K]

/-- The scan in a cloud, with its start and end by one of two conventions. -/
def getScan (cloud : PointCloud2 K) : Scan K :=
  let points := laserCloudIn P E cloud
  if firstTime E points < -(1 / 1000000) then
    -- the header marks the end of the scan
    { currentCloudMsg := cloud
      laserCloudIn := points
      timeScanCur := cloud.header.stamp + firstTime E points
      timeScanEnd := cloud.header.stamp }
  else
    -- the header marks the start
    { currentCloudMsg := cloud
      laserCloudIn := points
      timeScanCur := cloud.header.stamp
      timeScanEnd := cloud.header.stamp + lastTime E points }

/-- A flag that is looked up in the first field list only. -/
def checkFields (flag : ℤ) (names : List String) (fields : List PointField) : ℤ :=
  if flag = 0 then if fields.any fun field => field.name ∈ names then 1 else -1 else flag

/-- The checks at the end of `cachePointCloud`, of which two shut the node down. -/
def checkCloud (s : State K) (cloud : PointCloud2 K) : State K :=
  let ringFlag := checkFields s.ringFlag ["ring", "channel"] cloud.fields
  { s with
    ringFlag := ringFlag
    deskewFlag := checkFields s.deskewFlag ["time", "t", "timestamp"] cloud.fields
    ok := s.ok && isDense P E cloud && !(s.ringFlag = 0 && ringFlag = -1) }

end Cache

/-! ### `deskewInfo` -/

section Deskew

variable {K : Type} [Field K] [LinearOrder K]

/-- The integration of the angular velocity, behind an entry. -/
def integrateFrom (last : ImuRotation K) : List (Imu K) → List (ImuRotation K)
  | [] => []
  | m :: ms =>
    let timeDiff := m.stamp - last.time
    let entry : ImuRotation K := ⟨m.stamp, last.rot + timeDiff • m.angularVelocity⟩
    entry :: integrateFrom entry ms

/-- `imuTime` and the three arrays of rotations, up to `imuPointerCur`. -/
def imuRotations : List (Imu K) → List (ImuRotation K)
  | [] => []
  | m :: ms => ⟨m.stamp, 0⟩ :: integrateFrom ⟨m.stamp, 0⟩ ms

/-- `imuDeskewInfo`: the queue without what is too old, and the rotations of the scan. -/
def imuDeskewInfo (imuQueue : List (Imu K)) (scan : Scan K) : List (Imu K) × List (ImuRotation K) :=
  let imuQueue := imuQueue.dropWhile fun m => m.stamp < scan.timeScanCur - 1 / 100
  (imuQueue, imuRotations (imuQueue.takeWhile fun m => m.stamp ≤ scan.timeScanEnd + 1 / 100))

/-- `deskewInfo`; `none` while the IMU does not cover the scan. -/
def deskewInfo (imuQueue : List (Imu K)) (scan : Scan K) :
    Option (List (Imu K) × List (ImuRotation K)) :=
  match imuQueue.head?, imuQueue.getLast? with
  | some front, some back =>
    if scan.timeScanCur < front.stamp ∨ back.stamp < scan.timeScanEnd then none
    else some (imuDeskewInfo imuQueue scan)
  | _, _ => none

/-- `cloudInfo.imu_available`: two readings at least. -/
def ImuAvailable (imu : List (ImuRotation K)) : Prop := 1 < imu.length

instance (imu : List (ImuRotation K)) : Decidable (ImuAvailable imu) :=
  inferInstanceAs (Decidable (1 < imu.length))

/-- `findRotation`. -/
def findRotation (imu : List (ImuRotation K)) (pointTime : K) : Vec3 K :=
  let imuPointerCur := imu.length - 1
  let imuPointerFront := (imu.take imuPointerCur).findIdx fun entry => pointTime < entry.time
  let front := imu.getD imuPointerFront ⟨0, 0⟩
  if front.time < pointTime ∨ imuPointerFront = 0 then front.rot
  else
    let back := imu.getD (imuPointerFront - 1) ⟨0, 0⟩
    let ratioFront := (pointTime - back.time) / (front.time - back.time)
    let ratioBack := (front.time - pointTime) / (front.time - back.time)
    ratioFront • front.rot + ratioBack • back.rot

end Deskew

/-! ### `projectPointCloud` -/

/-- What the loop over the points writes: the cells of the range image with the points in
them, the rotation kept from the first deskewed point, and the calls of `findRotation`. -/
structure Image (K : Type) where
  cells : List ((ℤ × ℤ) × Point K)
  startRotation : Option (Vec3 K)
  calls : List (ℕ × K)

section Project

variable {K : Type} [Field K] [LinearOrder K] (P : Params K) (E : Env K)
variable (deskewFlag : ℤ) (scan : Scan K) (imu : List (ImuRotation K))

/-- `round`, to the nearest integer and away from zero in the middle. -/
def cRound [FloorRing K] (x : K) : ℤ := if 0 ≤ x then ⌊x + 1 / 2⌋ else ⌈x - 1 / 2⌉

/-- The column of a point in the range image. -/
def columnIdn [FloorRing K] (i : ℕ) (p : Point K) : ℤ :=
  match P.sensor with
  | .livox => E.columnIdnCount i
  | _ =>
    let angResX : K := 360 / P.horizonScan
    let column := -cRound ((E.horizonAngle p - 90) / angResX) + P.horizonScan / 2
    if P.horizonScan ≤ column then column - P.horizonScan else column

/-- `thisPoint`, before it is deskewed. -/
def LaserPoint.toPoint (p : LaserPoint K) : Point K := ⟨p.x, p.y, p.z, p.intensity⟩

/-- The point falls outside the range image, or into a cell that is taken. -/
def Skipped (image : Image K) (row column : ℤ) (p : Point K) : Prop :=
  (E.pointDistance p < P.lidarMinRange ∨ P.lidarMaxRange < E.pointDistance p) ∨
    P.nScan ≤ row ∨ row.tmod P.downsampleRate ≠ 0 ∨
    (column < 0 ∨ P.horizonScan ≤ column) ∨ (row, column) ∈ image.cells.map Prod.fst

instance (image : Image K) (row column : ℤ) (p : Point K) :
    Decidable (Skipped P E image row column p) := inferInstanceAs (Decidable (_ ∨ _))

/-- `deskewPoint`, called for point `i` and before the cell is written. -/
def deskewPoint (image : Image K) (i : ℕ) (relTime : K) (p : Point K) : Image K × Point K :=
  if deskewFlag = -1 ∨ ¬ ImuAvailable imu then (image, p)
  else
    let pointTime := scan.timeScanCur + relTime
    let rot := findRotation imu pointTime
    let start := image.startRotation.getD rot
    ({ image with startRotation := some start, calls := image.calls ++ [(i, pointTime)] },
      E.rotateToStart start rot p)

variable [FloorRing K]

/-- One pass of the loop. -/
def projectPoint (image : Image K) : LaserPoint K × ℕ → Image K
  | (p, i) =>
    let row : ℤ := p.ring.toNat
    let column := columnIdn P E i p.toPoint
    if Skipped P E image row column p.toPoint then image
    else
      let (image, thisPoint) := deskewPoint E deskewFlag scan imu image i p.time p.toPoint
      { image with cells := image.cells ++ [((row, column), thisPoint)] }

/-- `projectPointCloud`. -/
def projectPointCloud : Image K :=
  scan.laserCloudIn.zipIdx.foldl (projectPoint P E deskewFlag scan imu) ⟨[], none, []⟩

/-- `cloudExtraction`: the cells that are taken, row by row. -/
def cloudExtraction (image : Image K) : List (Point K) :=
  (List.range P.nScan.toNat).flatMap fun i =>
    (List.range P.horizonScan.toNat).filterMap fun j => image.cells.lookup (i, j)

/-! ### The node -/

/-- `imuConverter`. -/
def imuConverter (m : Imu K) : Imu K := ⟨m.stamp, P.extRot.mulVec m.angularVelocity⟩

/-- `imuHandler`. -/
def imuHandler (s : State K) (msg : Imu K) : State K :=
  { s with imuQueue := s.imuQueue ++ [imuConverter P msg] }

/-- What `cloudHandler` does with the cloud it has taken from the queue. -/
def handleScan (s : State K) (cloud : PointCloud2 K) : State K × List (Output K) :=
  let scan := getScan P E cloud
  let s := checkCloud P E s cloud
  match deskewInfo s.imuQueue scan with
  | none => (s, [])
  | some (imuQueue, imu) =>
    let image := projectPointCloud P E s.deskewFlag scan imu
    ({ s with imuQueue := imuQueue },
      image.calls.map (fun (i, pointTime) => .findRotation cloud i pointTime) ++
        [.cloudDeskewed ⟨cloud.header.stamp, P.lidarFrame⟩ (cloudExtraction P image)])

/-- `cloudHandler`. -/
def cloudHandler (s : State K) (msg : PointCloud2 K) : State K × List (Output K) :=
  match s.cloudQueue ++ [msg] with
  | current :: second :: third :: rest =>
    handleScan P E { s with cloudQueue := second :: third :: rest } current
  | short => ({ s with cloudQueue := short }, [])

/-- One callback; there are none after a shutdown. -/
def step (s : State K) : Event K → State K × List (Output K)
  | .imu msg => if s.ok then (imuHandler P s msg, []) else (s, [])
  | .cloud msg => if s.ok then cloudHandler P E s msg else (s, [])

/-- The node. -/
def imageProjection : Machine (State K) (Event K) (Output K) where
  init := .initial
  step := step P E

end Project

end Mapping
end WtbAutoware
