import WtbAutoware.Driver.Node

/-!
# The chassis driver `wtb_car_only`

The second executable of the package is built from a copy of `wtb_car`, with its own
`WtbCarNode`. It has no run state, no speed limit and no `CarMsg`. The frames are built and
parsed by the same code (`Driver.akmFrame`, `Driver.parseCtrlFb`); what is different is
modelled here anew:

* `twistCmdVelCallback` takes `angular.z` for a yaw rate, and `angzToAngle` turns it into
  a steering angle;
* `calculateAndPublished` clamps the corrected steering angle to `±M_PI / 6`.

The three frames of a command are sent 10 ms apart, with the time stamp of the first. The
pause is not modelled, nor is the log.
-/

namespace WtbAutoware
namespace DriverOnly

open Reactive
open Driver (akmCommand buildCtrlCmdData ctrlMsg feedbackSpeed nextAlive normalizeAngle parseCtrlFb)

/-- The parameters of `WtbCarNode`, less `min_speed`, which nothing reads. -/
structure Params (K : Type) where
  wheelbase : K
  velScale : K
  steerOffset : K
  childFrameId : String

/-- The declared defaults. -/
def Params.default {K : Type} [Field K] : Params K where
  wheelbase := 1
  velScale := 1
  steerOffset := 0
  childFrameId := "base_footprint"

/-- The members of `WtbCarNode` that its callbacks write. -/
structure State (K : Type) where
  aliveCounter : BitVec 8
  x : K
  y : K
  theta : K
  lastTime : K
  latestStamp : K
  latestLinearVelocity : K
  latestSteeringAngle : K

/-- The messages a callback is called with. -/
inductive Event (K : Type) where
  | cmdVel (twistAux : Twist K)
  | twistCmd (twistAux : TwistStamped K)
  | canTx (msg : Frame K)

/-- The messages the node publishes. -/
inductive Output (K : Type) where
  | can (msg : Frame K)
  | odom (msg : Odometry K)

/-- The control frames among the published messages. -/
def frames {K : Type} (os : List (Output K)) : List (Frame K) :=
  os.filterMap fun
    | .can f => some f
    | _ => none

/-- The odometry among the published messages. -/
def odometryOut {K : Type} (os : List (Output K)) : List (Odometry K) :=
  os.filterMap fun
    | .odom o => some o
    | _ => none

variable {K : Type} [Field K] [LinearOrder K] [IsStrictOrderedRing K] [FloorRing K]

/-- The members after construction at time `t₀`. -/
def State.initial (t₀ : K) : State K where
  aliveCounter := 0
  x := 0
  y := 0
  theta := 0
  lastTime := t₀
  latestStamp := 0
  latestLinearVelocity := 0
  latestSteeringAngle := 0

variable (P : Params K) (pf : Platform K) (atan : K → K)

/-! ### Commands -/

/-- The loop that sends the frames. -/
def sendFrames (now : K) (cmd : Driver.Gear × Flt K × Flt K) :
    ℕ → State K → State K × List (Output K)
  | 0, s => (s, [])
  | n + 1, s =>
    let built := buildCtrlCmdData pf s.aliveCounter cmd.1 cmd.2.1 cmd.2.2
    let rest := sendFrames now cmd n { s with aliveCounter := built.2 }
    (rest.1, .can (ctrlMsg now built.1) :: rest.2)

/-- `SendSpeedToAKM`. -/
def sendSpeedToAKM (now : K) (s : State K) (lineSpeed angle : Flt K) :
    State K × List (Output K) :=
  sendFrames pf now (akmCommand pf lineSpeed angle) 3 s

/-- `CmdVelCallback`. -/
def cmdVelCallback (now : K) (s : State K) (twistAux : Twist K) : State K × List (Output K) :=
  sendSpeedToAKM pf now s twistAux.linearX twistAux.angularZ

/-- The macro `WHELLBASE`. -/
def whellbase : K := 54 / 100

/-- `atan(WHELLBASE / R)` for an `R` on the side of `side`. -/
def atanRatio (R side : K) : K :=
  -- the arctangent of an infinity is a quarter turn
  if R = 0 then if 0 < side then pf.pi / 2 else -(pf.pi / 2)
  else atan (whellbase / R)

/-- `angz_to_angle`, for a finite speed and a finite yaw rate. Its arguments, `R` and its
result are `float`s; where the quotient underflows, `R` is a zero with its sign. -/
def angzToAngleFin (vx vz : K) : K :=
  let vx := pf.float vx
  let vz := pf.float vz
  if vx = 0 ∨ vz = 0 then 0
  else pf.float (7 / 10 * atanRatio pf atan (pf.float (vx / vz)) (vx / vz))

/-- `angz_to_angle`. -/
def angzToAngle : Flt K → Flt K → Flt K
  | .fin vx, .fin vz => .fin (angzToAngleFin pf atan vx vz)
  -- a zero on one side is caught whatever the other side is
  | .fin vx, vz => if pf.float vx = 0 then .fin 0 else
    match vz with
    -- `R` is 0
    | .posInf => .fin (pf.float (7 / 10 * atanRatio pf atan 0 vx))
    | .negInf => .fin (pf.float (7 / 10 * atanRatio pf atan 0 (-vx)))
    | _ => .nan
  | vx, .fin vz => if pf.float vz = 0 then .fin 0 else
    match vx with
    | .nan => .nan
    -- `R` is infinite
    | _ => .fin (pf.float (7 / 10 * atan 0))
  -- infinity by infinity, or a NaN
  | _, _ => .nan

/-- `TwistCmdVelCallback`. -/
def twistCmdVelCallback (now : K) (s : State K) (twistAux : TwistStamped K) :
    State K × List (Output K) :=
  sendSpeedToAKM pf now s twistAux.twist.linearX
    (angzToAngle pf atan twistAux.twist.linearX twistAux.twist.angularZ)

/-! ### Odometry, and the node -/

/-- `publishOdom`. -/
def publishOdom (now x y theta vx wz : K) : Odometry K where
  header := ⟨now, "odom"⟩
  childFrameId := P.childFrameId
  positionX := .fin x
  positionY := .fin y
  orientationZ := .fin (pf.sin (theta / 2))
  orientationW := .fin (pf.cos (theta / 2))
  linearX := .fin vx
  linearY := .fin 0
  angularZ := .fin wz

/-- `max_delta`: 30°. -/
def maxDelta : K := pf.pi / 6

/-- The corrected steering angle, `std::max(std::min(steering_angle, max_delta), -max_delta)`. -/
def correctedAngle (steeringAngle : K) : K :=
  max (min (steeringAngle - P.steerOffset) (maxDelta pf)) (-maxDelta pf)

/-- The calibrated speed, with speeds below `MIN_SPEED = 0.005` taken as rest. -/
def odomSpeed (s : State K) : K :=
  let linearVelocity := s.latestLinearVelocity * P.velScale
  if |linearVelocity| < 5 / 1000 then 0 else linearVelocity

/-- The yaw rate of the bicycle model. -/
def odomOmega (s : State K) : K :=
  if 1 / 1000000 < |P.wheelbase| then
    odomSpeed P s * pf.tan (correctedAngle P pf s.latestSteeringAngle) / P.wheelbase
  else 0

/-- `CalculateAndPublished`. -/
def calculateAndPublished (now : K) (s : State K) : State K × List (Output K) :=
  let dt := now - s.lastTime
  if dt ≤ 0 then (s, [])
  else
    let dt := if 1 / 10 < dt then 1 / 10 else dt
    let v := odomSpeed P s
    let omega := odomOmega P pf s
    let x := s.x + v * pf.cos s.theta * dt
    let y := s.y + v * pf.sin s.theta * dt
    let theta := normalizeAngle pf (s.theta + omega * dt)
    ({ s with x := x, y := y, theta := theta, lastTime := now },
      [.odom (publishOdom P pf now x y theta v omega)])

/-- `can_tx_callback`. -/
def canTxCallback (now : K) (s : State K) (msg : Frame K) : State K × List (Output K) :=
  if msg.id = 0x18C4D2EF then
    let fb : Driver.Gear × K × K := parseCtrlFb msg.data
    calculateAndPublished P pf now
      { s with
        latestLinearVelocity := feedbackSpeed fb
        latestSteeringAngle := fb.2.2 * pf.pi / 180
        latestStamp := msg.header.stamp }
  else (s, [])

/-- One callback, dispatched on the message. -/
def step (s : State K) (e : Timed K (Event K)) : State K × List (Output K) :=
  match e.ev with
  | .cmdVel twistAux => cmdVelCallback pf e.time s twistAux
  | .twistCmd twistAux => twistCmdVelCallback pf atan e.time s twistAux
  | .canTx msg => canTxCallback P pf e.time s msg

/-- `WtbCarNode` of `wtb_car_only`, constructed at time `t₀`. -/
def wtbCarOnly (t₀ : K) : Machine (State K) (Timed K (Event K)) (Output K) where
  init := State.initial t₀
  step := step P pf atan

/-! ### What the callbacks do -/

section Spec

variable (now : K) (s : State K)

omit [IsStrictOrderedRing K] in
/-- **One command, three frames**, which differ in the counter alone. -/
theorem sendSpeedToAKM_eq (lineSpeed angle : Flt K) :
    sendSpeedToAKM pf now s lineSpeed angle =
      ({ s with aliveCounter := nextAlive (nextAlive (nextAlive s.aliveCounter)) },
        [.can (Driver.akmFrame pf now s.aliveCounter lineSpeed angle),
          .can (Driver.akmFrame pf now (nextAlive s.aliveCounter) lineSpeed angle),
          .can (Driver.akmFrame pf now (nextAlive (nextAlive s.aliveCounter)) lineSpeed
            angle)]) :=
  rfl

omit [IsStrictOrderedRing K] in
/-- A property that the counter does not decide holds of all frames of a command, or of
none. -/
theorem forall_frames_sendSpeedToAKM {lineSpeed angle : Flt K} {Q : Frame K → Prop} {X : Prop}
    (hQ : ∀ c, Q (Driver.akmFrame pf now c lineSpeed angle) ↔ X) :
    (∀ f ∈ frames (sendSpeedToAKM pf now s lineSpeed angle).2, Q f) ↔ X := by
  rw [sendSpeedToAKM_eq]
  refine ⟨?_, ?_⟩
  · intro hall
    exact (hQ s.aliveCounter).mp (hall _ List.mem_cons_self)
  · intro hX f hf
    have hmem : f = Driver.akmFrame pf now s.aliveCounter lineSpeed angle ∨
        f = Driver.akmFrame pf now (nextAlive s.aliveCounter) lineSpeed angle ∨
        f = Driver.akmFrame pf now (nextAlive (nextAlive s.aliveCounter)) lineSpeed angle := by
      simpa [frames] using hf
    rcases hmem with rfl | rfl | rfl
    · exact (hQ _).mpr hX
    · exact (hQ _).mpr hX
    · exact (hQ _).mpr hX

/-- A clock that stands still or goes back updates nothing. -/
theorem calculateAndPublished_skip (h : now - s.lastTime ≤ 0) :
    calculateAndPublished P pf now s = (s, []) := if_pos h

/-- **One update, written out.** -/
theorem calculateAndPublished_eq (h : 0 < now - s.lastTime) :
    calculateAndPublished P pf now s =
      let dt := min (now - s.lastTime) (1 / 10)
      let v := odomSpeed P s
      let omega := odomOmega P pf s
      let x := s.x + v * pf.cos s.theta * dt
      let y := s.y + v * pf.sin s.theta * dt
      let theta := normalizeAngle pf (s.theta + omega * dt)
      ({ s with x := x, y := y, theta := theta, lastTime := now },
        [.odom (publishOdom P pf now x y theta v omega)]) := by
  have hcap : (if 1 / 10 < now - s.lastTime then 1 / 10 else now - s.lastTime) =
      min (now - s.lastTime) (1 / 10) := by
    split
    · next hlong => exact (min_eq_right hlong.le).symm
    · next hshort => exact (min_eq_left (not_lt.mp hshort)).symm
  rw [← hcap]
  unfold calculateAndPublished
  exact if_neg (not_le.mpr h)

end Spec

end DriverOnly
end WtbAutoware
