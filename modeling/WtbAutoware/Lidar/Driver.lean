import WtbAutoware.Lidar.Sectors

/-!
# The lidar driver `lslidar_driver`

`LslidarDriver` reads the packets of the lidar one by one. A packet holds twelve blocks of 32
firings, and each block names the azimuth of its first one; `decodePacket` interpolates the
others. `poll` collects the points of a sweep in a cloud. It begins a new cloud where the
azimuth jumps by more than 350 degrees from one firing to the next, and hands the old one over
to the thread that publishes it. What comes in front of the first jump is dropped.

A second thread handles the device packets, and finds out which lidar it is. What it sets is
taken as one value (`Settings`), which a `difop` event replaces; how it is computed is left
out, and so is the laser scan. `poll` works on a packet to its end before the settings change.
A packet comes with the time that is read off it, or off the clock. Coordinates are exact, and so
are the times that are computed; the time of a point is a `float` when it is stored.

The tables of sine and cosine have 36000 entries, and `disableAngles` may be empty; where
`poll` reads outside of them it is `none`. A run is `none` from there on.
-/

namespace WtbAutoware
namespace Lidar

/-! ### Data -/

/-- `lidar_type`, as far as `poll` tells them apart. -/
inductive LidarType where
  | c32_3
  | c32W
  | msc16
  | other
  deriving DecidableEq

/-- What `difopPoll` and `determineLidarType` set. -/
structure Settings (K : Type) where
  lidarType : LidarType
  ring : ℤ
  lidarNumber : ℕ
  returnMode : ℤ
  numberThreshold : ℤ
  conversionAngle : ℤ
  r1 : K
  distanceUnit : K
  angleChange : Bool
  /-- `adjust_angle[0]`. -/
  adjustAngle0 : ℤ
  /-- `adjust_angle[1]`. -/
  adjustAngle1 : ℤ
  msc16OffsetAngle : ℕ → K
  cosScanAltitude : ℕ → K
  sinScanAltitude : ℕ → K

/-- The parameters, what `initialize` computes from them, and the conversion to `float`. -/
structure Params (K : Type) [Field K] [LinearOrder K] where
  minRange : K
  maxRange : K
  pclType : Bool
  coordinateOpt : Bool
  disableAngles : List AngleRange
  cosAzimuthTable : ℕ → K
  sinAzimuthTable : ℕ → K
  float : Rounding K 24

/-- The data of a packet, 1212 bytes. -/
abbrev PacketData := ℕ → BitVec 8

/-- `FiringCX`, but for the azimuths of the blocks. -/
structure FiringCX (K : Type) where
  azimuth : ℕ → ℤ
  distance : ℕ → K
  intensity : ℕ → K

/-- A point but for its time. -/
structure Reading (K : Type) where
  x : K
  y : K
  z : K
  intensity : K
  ring : ℕ
  deriving DecidableEq

/-- `PointXYZIRT`. -/
structure VPoint (K : Type) extends Reading K where
  time : K
  deriving DecidableEq

/-- `pcl::PointXYZI`. -/
structure PointXYZI (K : Type) where
  x : K
  y : K
  z : K
  intensity : K
  deriving DecidableEq

/-- The message that is published, of one type of point or of the other. -/
inductive CloudMsg (K : Type) where
  | xyzi (points : List (PointXYZI K))
  | xyzirt (points : List (VPoint K))
  deriving DecidableEq

/-- The members of `LslidarDriver`. One list models both clouds: of the two, `pcl_type` fills
one. -/
structure State (K : Type) where
  settings : Settings K
  startProcessMsop : Bool
  packetNum : ℤ
  lastAzimuth : ℤ
  isFirstSweep : Bool
  sweepEndTime : K
  lastPacketTime : K
  pointCloud : List (VPoint K)

inductive Event (K : Type) where
  /-- The device thread leaves these settings, and knows the lidar. -/
  | difop (settings : Settings K)
  /-- No packet came in time. -/
  | timeout
  | packet (data : PacketData) (currentPacketTime : K)

def scansPerPacket : ℕ := 384

/-! ### Decoding -/

/-- Two bytes, the low one in front. -/
def word (data : PacketData) (i : ℕ) : ℕ := (data i).toNat + (data (i + 1)).toNat * 256

/-- `checkPacketValidity`. A block is refused if both bytes of its flag are wrong. -/
def checkPacketValidity (data : PacketData) : Bool :=
  (List.range 6).all fun blk => ¬ (data (blk * 100) ≠ 0xff ∧ data (blk * 100 + 1) ≠ 0xee)

/-- `firing_azimuth`. -/
def firingAzimuth (data : PacketData) (block : ℕ) : ℤ := (word data (block * 100 + 2) % 36000 : ℕ)

/-- `azimuth_diff_b`: to the next block, and in the last one from the block before. With two
returns for each firing, the blocks come in twos. -/
def azimuthDiff (returnMode : ℤ) (data : PacketData) (block : ℕ) : ℤ :=
  let azimuth := firingAzimuth data
  let diff :=
    if returnMode = 1 then
      if block < 11 then azimuth (block + 1) - azimuth block
      else azimuth block - azimuth (block - 1)
    else
      if block < 10 then azimuth (block + 2) - azimuth block
      else azimuth block - azimuth (block - 2)
  if diff < 0 then diff + 36000 else diff

section Driver

variable {K : Type} [Field K]

/-- `decodePacket`. -/
def decodePacket (settings : Settings K) (data : PacketData) : FiringCX K where
  azimuth i :=
    (firingAzimuth data (i / 32) +
      (i % 32 : ℕ) * azimuthDiff settings.returnMode data (i / 32) / 32) % 36000
  distance i := word data (i / 32 * 100 + 3 * (i % 32) + 4) / 100 * settings.distanceUnit
  intensity i := (data (i / 32 * 100 + 3 * (i % 32) + 6)).toNat

/-- The correction of all azimuths of a packet, for `c32_3`. -/
def adjustAzimuth (settings : Settings K) (i : ℕ) (azimuth : ℤ) : ℤ :=
  let azimuth :=
    azimuth + if i % 32 % 4 ≤ 1 then settings.adjustAngle1 else settings.adjustAngle0
  let azimuth := if azimuth < 0 then azimuth + 36000 else azimuth
  if 36000 < azimuth then azimuth - 36000 else azimuth

def adjustFirings (settings : Settings K) (firings : FiringCX K) : FiringCX K :=
  if settings.lidarType = .c32_3 then
    { firings with azimuth := fun i => adjustAzimuth settings i (firings.azimuth i) }
  else firings

/-- `remapped_scan_idx`. -/
def remappedScanIdx (ring : ℤ) (i : ℕ) : ℕ :=
  if ring = 33 then
    if 24 ≤ i % 32 % 4 * 16 then i % 32 % 4 * 16 - 24 + i % 32 / 4
    else i % 32 % 4 * 16 + i % 32 / 4
  else if ring = 32 then i % 32 % 4 * 8 + i % 32 / 4
  else if ring = 31 then if i % 32 % 2 = 0 then i % 32 / 2 else i % 32 / 2 + 16
  else if ring = 17 then i % 16 / 4 + i % 16 % 4 * 4
  else if ring = 16 then if i % 16 % 2 = 0 then i % 16 / 2 else i % 16 / 2 + 8
  else if ring = 8 then i % 8 % 2 * 4 + i % 8 / 2
  else 0

/-- An entry of a table over the turn. -/
def tableAt (table : ℕ → K) (i : ℤ) : Option K :=
  if 0 ≤ i ∧ i < 36000 then some (table i.toNat) else none

/-- `tmp_idx`. -/
def turnUp (angle : ℤ) : ℤ := if angle < 0 then angle + 36000 else angle

variable [LinearOrder K] [FloorRing K]

/-- The correction of one azimuth inside the loops. Each index is met once. -/
def correctAzimuth (settings : Settings K) (i : ℕ) (azimuth : ℤ) : ℤ :=
  if settings.angleChange then
    match settings.lidarType with
    | .c32W =>
      let azimuth := if i % 32 ∈ [29, 6, 14, 22, 30, 7, 15, 23] then azimuth + 389 else azimuth
      if 36000 ≤ azimuth then azimuth - 36000 else azimuth
    | .msc16 =>
      let offset := settings.msc16OffsetAngle (i % 16)
      -- the sum is a `float`, and cut off when it is stored
      let azimuth := ⌊(azimuth : K) + if offset < 0 then offset + (36000 : ℤ) else offset⌋
      if 36000 ≤ azimuth then azimuth - 36000 else azimuth
    | _ => azimuth
  else azimuth

/-! ### Points -/

variable (P : Params K)

/-- The point that a valid firing is. -/
def reading (settings : Settings K) (i : ℕ) (azimuth : ℤ) (distance intensity : K) :
    Option (Reading K) := do
  let cosAzimuth ← tableAt P.cosAzimuthTable azimuth
  let sinAzimuth ← tableAt P.sinAzimuthTable azimuth
  let plane := distance * settings.cosScanAltitude (i % settings.lidarNumber)
  let z := distance * settings.sinScanAltitude (i % settings.lidarNumber)
  let ring := remappedScanIdx settings.ring i
  if P.coordinateOpt then
    let tmpIdx := turnUp (settings.conversionAngle - azimuth)
    let cosTmp ← tableAt P.cosAzimuthTable tmpIdx
    let sinTmp ← tableAt P.sinAzimuthTable tmpIdx
    pure ⟨plane * cosAzimuth + settings.r1 * cosTmp, -plane * sinAzimuth + settings.r1 * sinTmp,
      z, intensity, ring⟩
  else
    let tmpIdx := turnUp (azimuth - settings.conversionAngle)
    let cosTmp ← tableAt P.cosAzimuthTable tmpIdx
    let sinTmp ← tableAt P.sinAzimuthTable tmpIdx
    pure ⟨plane * sinAzimuth + settings.r1 * sinTmp, plane * cosAzimuth + settings.r1 * cosTmp,
      z, intensity, ring⟩

/-- What one pass of the loop does with firing `i`: skip it, or make a point of it. -/
def firePoint (settings : Settings K) (firings : FiringCX K) (i : ℕ) :
    Option (Option (Reading K)) :=
  let azimuth := correctAzimuth settings i (firings.azimuth i)
  let distance := firings.distance i
  if ¬ (P.minRange ≤ distance ∧ distance ≤ P.maxRange) then some none
  else
    (angleKept P.disableAngles azimuth).bind fun kept =>
      if kept then (reading P settings i azimuth distance (firings.intensity i)).map some
      else some none

/-- The loop over the firings `idxs`. -/
def fireLoop (point : ℕ → Option (Option (Reading K))) (time : ℕ → K) :
    List ℕ → List (VPoint K) → Option (List (VPoint K))
  | [], cloud => some cloud
  | i :: idxs, cloud =>
    (point i).bind fun r =>
      fireLoop point time idxs (cloud ++ r.toList.map fun r => ⟨r, time i⟩)

/-! ### Sweeps -/

/-- The search for the start of a sweep, in the `n` firings from `i` on: where it is, and
`last_azimuth`. -/
def findSweep (azimuth : ℕ → ℤ) : ℕ → ℕ → ℤ → ℕ × ℤ
  | 0, i, lastAzimuth => (i, lastAzimuth)
  | n + 1, i, lastAzimuth =>
    if 35000 < |azimuth i - lastAzimuth| then (i, lastAzimuth)
    else findSweep azimuth n (i + 1) (azimuth i % 65536)

/-- The time of a point in the first loop, as it is stored. -/
def timeInSweep (s : State K) (currentPacketTime : K) (i : ℕ) : K :=
  P.float <|
    if 1 / 1000000 < s.lastPacketTime then
      currentPacketTime - s.sweepEndTime -
        (currentPacketTime - s.lastPacketTime) * ((scansPerPacket - i - 1 : ℕ) : K) /
          (scansPerPacket : K)
    else currentPacketTime

/-- The time of a point in the second loop, behind the start of a sweep. -/
def timeBehindStart (s : State K) (currentPacketTime : K) (startFirIdx i : ℕ) : K :=
  P.float <|
    if 1 / 1000000 < s.lastPacketTime then
      (currentPacketTime - s.lastPacketTime) * ((i - startFirIdx : ℕ) : K) / (scansPerPacket : K)
    else currentPacketTime

/-- `sweep_end_time`, when the sweep ends in front of firing `endFirIdx`. -/
def endTime (s : State K) (currentPacketTime : K) (endFirIdx : ℕ) : K :=
  let t :=
    if 1 / 1000000 < s.lastPacketTime then
      currentPacketTime - (currentPacketTime - s.lastPacketTime) *
        ((scansPerPacket - endFirIdx : ℕ) : K) / (scansPerPacket : K)
    else currentPacketTime
  if 0 < t then t else 0

/-- Where `poll` looks for the start of a sweep: not in the packets just behind the last one. -/
def searchSweep (s : State K) (firings : FiringCX K) : ℕ × ℤ :=
  if s.settings.numberThreshold < s.packetNum then
    findSweep firings.azimuth scansPerPacket 0 s.lastAzimuth
  else (scansPerPacket, s.lastAzimuth)

/-- `poll`, of a packet that is valid and is not to be ignored. -/
def handlePacket (s : State K) (data : PacketData) (now : K) :
    Option (State K × List (List (VPoint K))) :=
  let firings := decodePacket s.settings data
  let s := { s with packetNum := s.packetNum + 1 }
  let search := searchSweep s firings
  let newSweepStart := search.1
  let s := { s with
    packetNum := if newSweepStart = scansPerPacket then s.packetNum else 0
    lastAzimuth := search.2 }
  if s.isFirstSweep ∧ newSweepStart = scansPerPacket then some (s, [])
  else
    let startFirIdx := if s.isFirstSweep then newSweepStart else 0
    let endFirIdx := if s.isFirstSweep then scansPerPacket else newSweepStart
    let s := { s with isFirstSweep := false }
    let firings := adjustFirings s.settings firings
    let point := firePoint P s.settings firings
    (fireLoop point (timeInSweep P s now) (List.range' startFirIdx (endFirIdx - startFirIdx))
      s.pointCloud).bind fun cloud =>
      if endFirIdx ≠ scansPerPacket then
        -- a new sweep begins: the cloud goes to the thread that publishes it
        (fireLoop point (timeBehindStart P s now endFirIdx)
          (List.range' endFirIdx (scansPerPacket - endFirIdx)) []).map fun rest =>
          ({ s with
              sweepEndTime := endTime s now endFirIdx
              lastAzimuth := firings.azimuth (scansPerPacket - 1) % 65536
              lastPacketTime := now
              pointCloud := rest }, [cloud])
      else some ({ s with lastPacketTime := now, pointCloud := cloud }, [])

/-- `poll`, and what the device thread does to its members. -/
def step (s : State K) : Event K → Option (State K × List (List (VPoint K)))
  | .difop settings => some ({ s with settings := settings, startProcessMsop := true }, [])
  | .timeout => some ({ s with startProcessMsop := false }, [])
  | .packet data now =>
    if checkPacketValidity data ∧ s.startProcessMsop then handlePacket P s data now
    else some (s, [])

/-- The members after construction. -/
def State.initial (settings : Settings K) : State K where
  settings := settings
  startProcessMsop := false
  packetNum := 0
  lastAzimuth := 0
  isFirstSweep := true
  sweepEndTime := 0
  lastPacketTime := 0
  pointCloud := []

/-- The state after some events, and the clouds that were handed over. -/
def runFrom : State K → List (Event K) → Option (State K × List (List (VPoint K)))
  | s, [] => some (s, [])
  | s, e :: es =>
    (step P s e).bind fun r => (runFrom r.1 es).map fun r' => (r'.1, r.2 ++ r'.2)

/-- `publishPointcloud`, of a cloud that was handed over. -/
def publishPointcloud (cloud : List (VPoint K)) : Option (CloudMsg K) :=
  if cloud.length < 100 then none
  else if P.pclType then some (.xyzi (cloud.map fun p => ⟨p.x, p.y, p.z, p.intensity⟩))
  else some (.xyzirt cloud)

end Driver

end Lidar
end WtbAutoware
