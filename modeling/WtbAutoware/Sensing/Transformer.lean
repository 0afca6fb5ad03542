import WtbAutoware.Framework.Machine
import WtbAutoware.Framework.Rounding
import WtbAutoware.Sensing.PointCloud

/-!
# The cloud transformer `point_cloud_transformer`

`PointCloudTransformer2` turns a raw lidar cloud into two clouds in `base_link`: one for
Autoware, with the ring as channel, and one for LIO-SAM, with the ring and a time for
each point. Coordinates and intensity come through PCL; ring and time are copied from
the bytes of the message, at offsets that are resolved from a message's field list and
kept in members, with several fall-backs for the name of the field.

PCL, the transform and the point types of Autoware are taken as they come (`Env`). The
transform has been looked up before the first message can arrive. A point is transformed in
`float`s, and each product and sum is rounded; times are exact.
-/

namespace WtbAutoware
namespace Sensing

open Reactive

/-- The parameters of the node. -/
structure Params (K : Type) where
  minHeightThreshold : Flt K
  maxHeightThreshold : Flt K
  useHeightFilter : Bool

/-- The values with which the constructor declares them. -/
def Params.default {K : Type} [One K] [Neg K] : Params K where
  minHeightThreshold := .fin (-1)
  maxHeightThreshold := .fin 1
  useHeightFilter := false

/-- What the callback finds outside the node. -/
structure Env (K : Type) [Field K] [LinearOrder K] where
  /-- `pcl::fromROSMsg`; `none` where it throws. -/
  fromROSMsg : PointCloud2 K → Option (PclCloud (PointXYZI K))
  /-- The matrix of the transform from `laser` to `base_link`. -/
  T : Matrix (Fin 4) (Fin 4) K
  /-- `ReturnType::SINGLE_STRONGEST`. -/
  singleStrongest : BitVec 8
  /-- The bytes around the data of a message, by index from its start. -/
  beyond : ℤ → BitVec 8
  /-- The rounding of `float` operations. -/
  float : Rounding K 24

/-- Exact arithmetic. -/
def Env.Exact {K : Type} [Field K] [LinearOrder K] (E : Env K) : Prop := ∀ x, E.float x = x

/-- The members that a callback leaves to the next. -/
structure State where
  ringOffset : ℤ
  timeOffset : ℤ
  timeDatatype : ℤ
  deriving DecidableEq

def State.initial : State := ⟨-1, -1, -1⟩

/-- `autoware::point_types::PointXYZIRC`. -/
structure PointXYZIRC (K : Type) where
  x : Flt K
  y : Flt K
  z : Flt K
  intensity : BitVec 8
  returnType : BitVec 8
  channel : BitVec 16
  deriving DecidableEq

/-- `PointXYZIRT`. -/
structure PointXYZIRT (K : Type) where
  x : Flt K
  y : Flt K
  z : Flt K
  intensity : Flt K
  ring : BitVec 16
  time : Flt K
  deriving DecidableEq

/-- A published cloud. -/
inductive Output (K : Type) where
  /-- On `/sensing/lidar/concatenated/pointcloud`. -/
  | autoware (header : Header K) (cloud : PclCloud (PointXYZIRC K))
  /-- On `/sensing/lidar/concatenated/pointcloud_xyzirt`. -/
  | liosam (header : Header K) (cloud : PclCloud (PointXYZIRT K))
  deriving DecidableEq

/-! ### The offsets -/

section Offsets

variable {K : Type} (m : PointCloud2 K)

/-- The ring offset that a message resolves to: `ring`, else `channel`. -/
def resolveRing : ℤ :=
  if fieldOffset m "ring" < 0 then fieldOffset m "channel" else fieldOffset m "ring"

/-- The time offset and datatype that a message resolves to. -/
def resolveTime : ℤ × ℤ :=
  if fieldOffset m "timestamp" < 0 then
    if fieldOffset m "time" < 0 then (fieldOffset m "t", fieldDatatype m "t")
    else (fieldOffset m "time", fieldDatatype m "time")
  else (fieldOffset m "timestamp", fieldDatatype m "timestamp")

/-- "resolve field offsets once": only those that are not resolved yet. -/
def resolveOffsets (s : State) : State where
  ringOffset := if s.ringOffset < 0 then resolveRing m else s.ringOffset
  timeOffset := if s.timeOffset < 0 then (resolveTime m).1 else s.timeOffset
  timeDatatype := if s.timeOffset < 0 then (resolveTime m).2 else s.timeDatatype

end Offsets

/-! ### One point -/

section Point

variable {K : Type} [Field K] [LinearOrder K]

/-- `std::max(a, b)`. -/
def stdMax (a b : Flt K) : Flt K := if a < b then b else a

/-- `std::min(a, b)`. -/
def stdMin (a b : Flt K) : Flt K := if b < a then b else a

/-- `static_cast<uint8_t>(std::min(255.0f, std::max(0.0f, intensity)))`. -/
def intensityByte [FloorRing K] (intensity : Flt K) : BitVec 8 :=
  BitVec.ofInt 8 (stdMin (.fin 255) (stdMax (.fin 0) intensity)).truncated

variable (E : Env K) (s : State) (m : PointCloud2 K)

/-- The product of two `float`s. -/
def Env.mul (x : Flt K) (c : K) : Flt K := (x.mulConst c).rounded E.float

/-- Their sum. -/
def Env.add (x y : Flt K) : Flt K := (x + y).rounded E.float

/-- Row `i` of `T * pt`, for `pt = (x, y, z, 1)`, term by term. -/
def transformRow (i : Fin 4) (p : PointXYZI K) : Flt K :=
  E.add (E.add (E.add (E.mul p.x (E.T i 0)) (E.mul p.y (E.T i 1))) (E.mul p.z (E.T i 2)))
    (.fin (E.T i 3))

/-- The index of the bytes of point `i`: `i * point_step`, with `point_step` as an `int`. -/
def pointStart (i : ℕ) : ℤ := i * m.pointStep.toInt

/-- `read_uint16`. -/
def readUint16 (point offset : ℤ) : BitVec 16 :=
  if offset < 0 then 0 else uint16At E.beyond m.data (point + offset)

/-- `abs_time`, by the datatype of the field; one that is not handled leaves 0. -/
def absTime (a : ℤ) : Flt K :=
  if s.timeDatatype = PointField.FLOAT64 then float64 (uint64At E.beyond m.data a)
  else if s.timeDatatype = PointField.FLOAT32 then float32 (uint32At E.beyond m.data a)
  else if s.timeDatatype = PointField.UINT32 then
    .fin ((uint32At E.beyond m.data a).toNat / 1000000000)
  else .fin 0

/-- The time of point `i`, relative to the stamp of the message. -/
def pointTime (i : ℕ) : Flt K :=
  if 0 ≤ s.timeOffset then
    absTime E s m (pointStart m i + s.timeOffset) - .fin m.header.stamp
  else .fin 0

/-- The height filter drops the point. -/
def Dropped (P : Params K) (p : PointXYZI K) : Prop :=
  P.useHeightFilter = true ∧
    (transformRow E 2 p < P.minHeightThreshold ∨ P.maxHeightThreshold < transformRow E 2 p)

instance (P : Params K) (p : PointXYZI K) : Decidable (Dropped E P p) :=
  inferInstanceAs (Decidable (_ ∧ _))

variable [FloorRing K]

/-- Point `i` in the Autoware format. -/
def autowarePoint (i : ℕ) (p : PointXYZI K) : PointXYZIRC K where
  x := transformRow E 0 p
  y := transformRow E 1 p
  z := transformRow E 2 p
  intensity := intensityByte p.intensity
  returnType := E.singleStrongest
  channel := readUint16 E m (pointStart m i) s.ringOffset

/-- Point `i` in the LIO-SAM format. -/
def liosamPoint (i : ℕ) (p : PointXYZI K) : PointXYZIRT K where
  x := transformRow E 0 p
  y := transformRow E 1 p
  z := transformRow E 2 p
  intensity := p.intensity
  ring := readUint16 E m (pointStart m i) s.ringOffset
  time := pointTime E s m i

/-- The pass over the points: what is pushed to either cloud. -/
def convertPoints (P : Params K) (points : List (PointXYZI K)) :
    List (PointXYZIRC K × PointXYZIRT K) :=
  points.zipIdx.filterMap fun (p, i) =>
    if Dropped E P p then none else some (autowarePoint E s m i p, liosamPoint E s m i p)

/-- The two clouds as they are published. -/
def publishClouds (P : Params K) (cloudIn : PclCloud (PointXYZI K)) : List (Output K) :=
  let points := convertPoints E s m P cloudIn.points
  let header : Header K := { stamp := m.header.stamp, frameId := "base_link" }
  let width := BitVec.ofNat 32 points.length
  [.autoware header ⟨1, width, cloudIn.isDense, points.map Prod.fst⟩,
    .liosam header ⟨1, width, cloudIn.isDense, points.map Prod.snd⟩]

/-- `pointCloudCallback`. The offsets are resolved before the conversion, so also from a
message that is then given up. -/
def pointCloudCallback (P : Params K) (s : State) (m : PointCloud2 K) : State × List (Output K) :=
  let s := resolveOffsets m s
  match E.fromROSMsg m with
  | some cloudIn => (s, publishClouds E s m P cloudIn)
  | none => (s, [])

/-- The node: its events are the messages on `/sensing/lidar/pointcloud_raw`. -/
def pointCloudTransformer (P : Params K) : Machine State (PointCloud2 K) (Output K) where
  init := .initial
  step := pointCloudCallback E P

end Point

end Sensing
end WtbAutoware
