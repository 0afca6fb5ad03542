import WtbAutoware.Ahrs.Frame
import WtbAutoware.Framework.Machine

/-!
# The IMU driver `fdilink_ahrs`

`ahrsBringup::processLoop` as a reactive machine, whose events are the rounds that
`readAll` finds in the byte stream. The driver has one buffer for each frame type,
and everything is read into it in place: the header before its CRC8 is checked, the
payload and the end byte before the CRC16 and the end byte are. A buffer is not
cleared when a check fails, nor initialised by the constructor.

What a frame of one type publishes also reads the buffer of another: an IMU frame is
published with the quaternion in the AHRS buffer, and an AHRS frame with the
magnetometer in the IMU buffer (`publish`). The covariances and time stamps of the
messages do not come from the sensor and are not modelled.

The payload fields are little-endian floats at fixed offsets. What lies outside the
driver, the reading of a float and the quaternion products of Eigen, is `Numerics`.
-/

namespace WtbAutoware
namespace Ahrs

open Reactive

/-! ### Payloads -/

/-- A quaternion. -/
structure Quaternion (F : Type) where
  w : F
  x : F
  y : F
  z : F
  deriving DecidableEq

/-- `geometry_msgs/Vector3`. -/
structure Vector3 (F : Type) where
  x : F
  y : F
  z : F
  deriving DecidableEq

/-- The arithmetic of the driver on values in `F`. -/
structure Numerics (F : Type) where
  /-- The value of a `float` with these bits. -/
  float : BitVec 32 → F
  /-- The value of a `double` with these bits. -/
  double : BitVec 64 → F
  neg : F → F
  /-- Division by `DEG_TO_RAD`. -/
  degrees : F → F
  /-- `q_r * q * q_rr`, the change to the axes of ROS. -/
  toRosAxes : Quaternion F → Quaternion F
  zero : F
  one : F

/-- Exact arithmetic: the bits of a finite float as the rational that they stand for, and
half turns about the axes as they are for an exact pi. Infinities and NaN have no value
here, and are read as 0. -/
def Numerics.rat : Numerics ℚ where
  float b :=
    if b.extractLsb' 23 8 = 0xff then 0
    else
      let fraction : ℚ := (b.extractLsb' 0 23).toNat / 2 ^ 23
      let exponent : ℤ := (b.extractLsb' 23 8).toNat
      let magnitude : ℚ :=
        if exponent = 0 then fraction * 2 ^ (-126 : ℤ) else (1 + fraction) * 2 ^ (exponent - 127)
      if b.msb = true then -magnitude else magnitude
  double b :=
    if b.extractLsb' 52 11 = 0x7ff then 0
    else
      let fraction : ℚ := (b.extractLsb' 0 52).toNat / 2 ^ 52
      let exponent : ℤ := (b.extractLsb' 52 11).toNat
      let magnitude : ℚ :=
        if exponent = 0 then fraction * 2 ^ (-1022 : ℤ)
        else (1 + fraction) * 2 ^ (exponent - 1023)
      if b.msb = true then -magnitude else magnitude
  neg x := -x
  degrees x := x / (17453292519943295 / 1000000000000000000)
  toRosAxes q := ⟨q.w, q.x, -q.y, -q.z⟩
  zero := 0
  one := 1

/-- The 32-bit word at offset `o`. -/
def word32 (data : List Byte) (o : ℕ) : BitVec 32 :=
  data.getD (o + 3) 0 ++ data.getD (o + 2) 0 ++ data.getD (o + 1) 0 ++ data.getD o 0

/-- The 64-bit word at offset `o`. -/
def word64 (data : List Byte) (o : ℕ) : BitVec 64 := word32 data (o + 4) ++ word32 data o

/-- The fields of `IMUData_Packet_t` that are published. -/
structure ImuData (F : Type) where
  gyroscope : Vector3 F
  accelerometer : Vector3 F
  magnetometer : Vector3 F

/-- The fields of `AHRSData_Packet_t` that are published. -/
structure AhrsData (F : Type) where
  roll : F
  pitch : F
  heading : F
  q : Quaternion F

/-- The fields of `INSGPSData_Packet_t` that are published. -/
structure InsgpsData (F : Type) where
  bodyVelocity : Vector3 F
  location : Vector3 F
  velocity : Vector3 F

/-- The fields of `Geodetic_Position_Packet_t` that are published. -/
structure GeodeticPosition (F : Type) where
  latitude : F
  longitude : F
  height : F

section Decode

variable {F : Type} (num : Numerics F) (data : List Byte)

/-- The `float` at offset `o`. -/
def floatAt (o : ℕ) : F := num.float (word32 data o)

/-- The `double` at offset `o`. -/
def doubleAt (o : ℕ) : F := num.double (word64 data o)

/-- Three floats in a row. -/
def vector3At (o : ℕ) : Vector3 F :=
  ⟨floatAt num data o, floatAt num data (o + 4), floatAt num data (o + 8)⟩

def imuData : ImuData F where
  gyroscope := vector3At num data 0
  accelerometer := vector3At num data 12
  magnetometer := vector3At num data 24

def ahrsData : AhrsData F where
  roll := floatAt num data 12
  pitch := floatAt num data 16
  heading := floatAt num data 20
  q := ⟨floatAt num data 24, floatAt num data 28, floatAt num data 32, floatAt num data 36⟩

def insgpsData : InsgpsData F where
  bodyVelocity := vector3At num data 0
  location := vector3At num data 24
  velocity := vector3At num data 36

def geodeticPosition : GeodeticPosition F where
  latitude := doubleAt num data 0
  longitude := doubleAt num data 8
  height := doubleAt num data 16

end Decode

/-! ### Messages -/

/-- `sensor_msgs/Imu`. -/
structure Imu (F : Type) where
  frameId : String
  orientation : Quaternion F
  angularVelocity : Vector3 F
  linearAcceleration : Vector3 F

/-- `sensor_msgs/NavSatFix`. -/
structure NavSatFix (F : Type) where
  frameId : String
  latitude : F
  longitude : F
  altitude : F

/-- `nav_msgs/Odometry`: position and linear velocity. -/
structure NedOdometry (F : Type) where
  position : Vector3 F
  linear : Vector3 F

/-- The messages that the driver publishes. -/
inductive Output (F : Type) where
  | imu (m : Imu F)
  | magPose2d (theta : F)
  | eulerAngles (m : Vector3 F)
  | magnetic (m : Vector3 F)
  | gps (m : NavSatFix F)
  | nedOdom (m : NedOdometry F)
  | twist (linear : Vector3 F)

/-- The parameters that decide what a message says. -/
structure Params where
  deviceType : ℤ
  imuFrameId : String

section Publish

variable {F : Type} (num : Numerics F) (P : Params)

/-- The orientation that is published for a quaternion. A device type other than 0
and 1 leaves the message at its default. -/
def orientation (q : Quaternion F) : Quaternion F :=
  if P.deviceType = 0 then q
  else if P.deviceType = 1 then num.toRosAxes q
  else ⟨num.one, num.zero, num.zero, num.zero⟩

/-- The angular velocity, or the acceleration, that is published for a vector. -/
def imuVector (v : Vector3 F) : Vector3 F :=
  if P.deviceType = 0 then v
  else if P.deviceType = 1 then ⟨v.x, num.neg v.y, num.neg v.z⟩
  else ⟨num.zero, num.zero, num.zero⟩

end Publish

/-! ### The node -/

/-- `imu_frame_` and its like: the buffer of one frame type. -/
structure FrameBuffer where
  header : Header
  data : List Byte
  frameEnd : Byte

/-- The members of `ahrsBringup` that the loop writes. -/
structure State where
  snLost : ℤ
  readSn : Byte
  /-- `frist_sn_`. -/
  firstSn : Bool
  frames : FrameType → FrameBuffer

/-- The members after construction. The buffers hold whatever was in their memory. -/
def State.initial (garbage : FrameType → FrameBuffer) : State where
  snLost := 0
  readSn := 0
  firstSn := false
  frames := garbage

/-- The header is put into the buffer of its type. -/
def State.putHeader (s : State) (type : FrameType) (header : Header) : State :=
  { s with frames := Function.update s.frames type { s.frames type with header := header } }

/-- `serial_.read` into `read_msg`: payload and end byte. -/
def State.putMsg (s : State) (type : FrameType) (data : List Byte) (frameEnd : Byte) : State :=
  { s with
    frames := Function.update s.frames type
      { s.frames type with data := data, frameEnd := frameEnd } }

/-- The first serial number is taken over. The INSGPS branch does not do it. -/
def initSN (s : State) (type : FrameType) (serialNum : Byte) : State :=
  if type ≠ .insgps ∧ s.firstSn = false then
    { s with readSn := serialNum - 1, firstSn := true }
  else s

/-- `checkSN`, and the same in the ground branch: the frames missing between two serial
numbers are counted. -/
def checkSN (s : State) (serialNum : Byte) : State :=
  let expected := s.readSn + 1
  let lost : ℤ :=
    if expected ≠ serialNum then
      if serialNum < expected then 256 - ((expected.toNat : ℤ) - serialNum.toNat)
      else (serialNum.toNat : ℤ) - expected.toNat
    else 0
  { s with snLost := s.snLost + lost, readSn := serialNum }

section Node

variable {F : Type} (num : Numerics F) (P : Params)

/-- What a frame of the given type publishes, from the buffers. -/
def publish (frames : FrameType → FrameBuffer) : FrameType → List (Output F)
  | .imu =>
    let imu := imuData num (frames .imu).data
    [.imu {
      frameId := P.imuFrameId
      orientation := orientation num P (ahrsData num (frames .ahrs).data).q
      angularVelocity := imuVector num P imu.gyroscope
      linearAcceleration := imuVector num P imu.accelerometer }]
  | .ahrs =>
    let ahrs := ahrsData num (frames .ahrs).data
    [.magPose2d ahrs.heading, .eulerAngles ⟨ahrs.roll, ahrs.pitch, ahrs.heading⟩,
      .magnetic (imuData num (frames .imu).data).magnetometer]
  | .geodeticPos =>
    let pos := geodeticPosition num (frames .geodeticPos).data
    [.gps ⟨"navsat_link", num.degrees pos.latitude, num.degrees pos.longitude, pos.height⟩]
  | .insgps =>
    let insgps := insgpsData num (frames .insgps).data
    [.nedOdom ⟨insgps.location, insgps.velocity⟩, .twist insgps.bodyVelocity]

/-- A frame whose header has been accepted: the serial number is accounted for, the
payload is read, checked, and published. -/
def handleFrame (s : State) (f : ReadFrame) : State × List (Output F) :=
  let s := s.putHeader f.type f.header
  let s := checkSN (initSN s f.type f.header.serialNum) f.header.serialNum
  let s := s.putMsg f.type f.data f.frameEnd
  let buffer := s.frames f.type
  if buffer.header.crc16 ≠ crc16Table buffer.data then (s, [])
  else if buffer.frameEnd ≠ frameEndByte then (s, [])
  else (s, publish num P s.frames f.type)

/-- One pass of the loop. -/
def step (s : State) : Round → State × List (Output F)
  | .skipped => (s, [])
  | .ground sn => (checkSN s sn, [])
  | .ignored => (s, [])
  | .badHeader type header => (s.putHeader type header, [])
  | .frame f => handleFrame num P s f

/-- `processLoop`. -/
def processLoop (garbage : FrameType → FrameBuffer) : Machine State Round (Output F) where
  init := State.initial garbage
  step := step num P

/-! ### What a pass leaves in the buffers -/

section Buffers

variable (s : State)

@[simp] theorem frames_initSN (type : FrameType) (serialNum : Byte) :
    (initSN s type serialNum).frames = s.frames := by
  unfold initSN
  split <;> rfl

@[simp] theorem frames_checkSN (serialNum : Byte) : (checkSN s serialNum).frames = s.frames := rfl

theorem data_putHeader (type : FrameType) (header : Header) (type' : FrameType) :
    ((s.putHeader type header).frames type').data = (s.frames type').data := by
  unfold State.putHeader
  dsimp only
  by_cases htype : type' = type
  · subst htype
    rw [Function.update_self]
  · rw [Function.update_of_ne htype]

/-- The buffers while a frame is checked, and afterwards. -/
def framesAfter (f : ReadFrame) : FrameType → FrameBuffer :=
  Function.update s.frames f.type ⟨f.header, f.data, f.frameEnd⟩

/-- **What a frame does.** It replaces the buffer of its type, and is published if it is
valid. -/
theorem handleFrame_cases (f : ReadFrame) :
    (handleFrame num P s f).1.frames = framesAfter s f ∧
      (handleFrame num P s f).2 =
        if f.Valid then publish num P (framesAfter s f) f.type else [] := by
  set s₁ := (checkSN (initSN (s.putHeader f.type f.header) f.type f.header.serialNum)
    f.header.serialNum).putMsg f.type f.data f.frameEnd with hs₁
  have hframes : s₁.frames = framesAfter s f := by
    rw [hs₁, State.putMsg, frames_checkSN, frames_initSN]
    unfold State.putHeader framesAfter
    simp
  have hbuffer : s₁.frames f.type = ⟨f.header, f.data, f.frameEnd⟩ := by
    rw [hframes, framesAfter, Function.update_self]
  have heq : handleFrame num P s f =
      (s₁, if f.Valid then publish num P s₁.frames f.type else []) := by
    unfold handleFrame
    dsimp only
    rw [← hs₁, hbuffer]
    dsimp only
    by_cases hcrc : f.header.crc16 = crc16Table f.data
    · rw [if_neg (not_not.mpr hcrc)]
      by_cases hend : f.frameEnd = frameEndByte
      · rw [if_neg (not_not.mpr hend), if_pos (show f.Valid from ⟨hcrc, hend⟩)]
      · rw [if_pos hend, if_neg (fun h : f.Valid => hend h.2)]
    · rw [if_pos hcrc, if_neg (fun h : f.Valid => hcrc h.1)]
  rw [heq]
  dsimp only
  rw [hframes]
  exact ⟨rfl, rfl⟩

end Buffers
end Node

end Ahrs
end WtbAutoware
