import WtbAutoware.Driver.CtrlFrame
import WtbAutoware.Framework.Machine

/-!
# The chassis driver `wtb_car`

`WtbCarNode` as a reactive machine. It has four callbacks: velocity commands on
`/cmd_vel` and on `/twist_cmd`, the run state on `/run_static`, and CAN frames
from the chassis. It publishes control frames for the chassis, odometry and
`CarMsg`. Each callback reads the clock once; the reading is the `time` of the
event, in seconds.

The callbacks are translated one by one (`sendSpeedToAKM`, `cmdVelCallback`,
`twistCmdVelCallback`, `calculateAndPublished`, `canTxCallback`,
`runStaticCallback`), and `step` dispatches on the event. What each of them can
do to the command path is said once, by one equation each:

* `sendSpeedToAKM_eq` — three frames, and a counter that is three further on;
* `cmdVelCallback_eq` — nothing while a stop is in force (`StopInForce`, by the time as
  the node measures it), else the command is sent and the node enabled;
* `runStaticCallback_cases` — what each command string leaves, and sends;
* `canTx_frame` — feedback leaves the command path alone.

The node logs what it does; the log is not modelled, nor are the covariances of
the odometry message, which are constants that no node here reads.
-/

namespace WtbAutoware
namespace Driver

open Reactive

/-- The parameters of `WtbCarNode`. -/
structure Params (K : Type) where
  wheelbase : K
  velScale : K
  steerOffset : K
  minSpeed : K
  maxSpeed : K
  stopTimeThreshold : K
  childFrameId : String

/-- The values that the constructor declares. -/
def Params.default {K : Type} [Field K] : Params K where
  wheelbase := 1
  velScale := 1
  steerOffset := 0
  minSpeed := 5 / 10000
  maxSpeed := 1
  stopTimeThreshold := 3
  childFrameId := "base_footprint"

/-- The members of `WtbCarNode` that its callbacks write. -/
structure State (K : Type) where
  aliveCounter : BitVec 8
  x : K
  y : K
  theta : K
  lastTime : K
  latestStamp : K
  latestLinearVelocity : K
  latestSteeringAngle : K
  currentSpeed : K
  currentAngle : K
  carMsgPub : CarMsg K
  enableRun : Bool
  enableLastTime : K
  lastRunStaticCommand : String

/-- The messages a callback is called with. -/
inductive Event (K : Type) where
  | cmdVel (twistAux : Twist K)
  | twistCmd (twistAux : TwistStamped K)
  | runStatic (data : String)
  | canTx (msg : Frame K)
  deriving DecidableEq

/-- The velocity command that a message is, on whichever topic. -/
def Event.command {K : Type} : Event K → Option (Twist K)
  | .cmdVel twistAux => some twistAux
  | .twistCmd twistAux => some twistAux.twist
  | _ => none

/-- The messages the node publishes. -/
inductive Output (K : Type) where
  | can (msg : Frame K)
  | odom (msg : Odometry K)
  | carMsg (msg : CarMsg K)
  deriving DecidableEq

/-- The control frames among the published messages. -/
def frames {K : Type} (os : List (Output K)) : List (Frame K) :=
  os.filterMap fun
    | .can f => some f
    | _ => none

@[simp] theorem frames_nil {K : Type} : frames ([] : List (Output K)) = [] := rfl

@[simp] theorem frames_can {K : Type} (f : Frame K) (os : List (Output K)) :
    frames (.can f :: os) = f :: frames os := rfl

theorem frames_append {K : Type} (os os' : List (Output K)) :
    frames (os ++ os') = frames os ++ frames os' := List.filterMap_append

variable {K : Type} [Field K] [LinearOrder K] [FloorRing K]

/-- The members after construction at time `t₀`. -/
def State.initial (t₀ : K) : State K where
  aliveCounter := 0
  x := 0
  y := 0
  theta := 0
  lastTime := t₀
  latestStamp := 0
  latestLinearVelocity := 0
  latestSteeringAngle := 0
  currentSpeed := 0
  currentAngle := 0
  carMsgPub := ⟨⟨0, ""⟩, .fin 0, .fin 0, 0⟩
  enableRun := true
  enableLastTime := 0
  lastRunStaticCommand := ""

variable (P : Params K) (pf : Platform K)

/-! ### Sending a command to the chassis -/

/-- The message of `SendSpeedToAKM` around the eight bytes. -/
def ctrlMsg (now : K) (data : Vector (BitVec 8) 8) : Frame K where
  header := ⟨now, ""⟩
  id := 0x18C4D2D0
  isRtr := false
  isExtended := true
  isError := false
  dlc := 8
  data := data

/-- `int Angle = angle * 180 / M_PI`: the steering angle in whole degrees. The product is
a `float`, and `M_PI` makes the quotient a `double`. -/
def angleDeg (angle : Flt K) : BitVec 32 :=
  (((angle.mulConst 180).rounded pf.float).divConst pf.pi).toInt32 pf.undefInt

/-- Gear, speed and angle of the frames for a command: a negative speed is sent
as its magnitude in gear R, with the steering angle negated. The two arguments are
narrowed to `float`, and `Angle` when it is handed on. -/
def akmCommand (lineSpeed angle : Flt K) : Gear × Flt K × Flt K :=
  let lineSpeed := lineSpeed.rounded pf.float
  let angle := angle.rounded pf.float
  if lineSpeed < .fin 0 then
    -- `Angle = -Angle` on the `int`
    (.R, -lineSpeed, .fin (pf.float ((-angleDeg pf angle).toInt : K)))
  else
    (.D, lineSpeed, .fin (pf.float ((angleDeg pf angle).toInt : K)))

/-- The loop that sends the frames. Each round builds its frame anew, which
advances the counter. -/
def sendFrames (now : K) (cmd : Gear × Flt K × Flt K) : ℕ → State K → State K × List (Output K)
  | 0, s => (s, [])
  | n + 1, s =>
    let built := buildCtrlCmdData pf s.aliveCounter cmd.1 cmd.2.1 cmd.2.2
    let rest := sendFrames now cmd n { s with aliveCounter := built.2 }
    (rest.1, .can (ctrlMsg now built.1) :: rest.2)

/-- `SendSpeedToAKM`: three frames in a row. -/
def sendSpeedToAKM (now : K) (s : State K) (lineSpeed angle : Flt K) :
    State K × List (Output K) :=
  sendFrames pf now (akmCommand pf lineSpeed angle) 3 s

/-- `stop`. -/
def stop (now : K) (s : State K) : State K × List (Output K) :=
  sendSpeedToAKM pf now s (.fin 0) (.fin 0)

/-- `if (linear.x > max_speed_) linear.x = max_speed_`. -/
def limitSpeed (linearX : Flt K) : Flt K :=
  if Flt.fin P.maxSpeed < linearX then .fin P.maxSpeed else linearX

/-- The common end of the two command callbacks: limit the speed, and send. -/
def limitAndSend (now : K) (s : State K) (twist : Twist K) : State K × List (Output K) :=
  sendSpeedToAKM pf now s (limitSpeed P twist.linearX) twist.angularZ

/-- `CmdVelCallback`. -/
def cmdVelCallback (now : K) (s : State K) (twistAux : Twist K) : State K × List (Output K) :=
  if s.enableRun = false then
    let indexTime := pf.float (now - s.enableLastTime)
    if 0 ≤ P.stopTimeThreshold then
      if P.stopTimeThreshold < indexTime then
        -- the hold is over: this command re-enables the node, and is sent
        limitAndSend P pf now { s with enableRun := true } twistAux
      else (s, [])
    -- a negative threshold: only a "start" ends the stop
    else (s, [])
  else limitAndSend P pf now s twistAux

/-- `TwistCmdVelCallback`. -/
def twistCmdVelCallback (now : K) (s : State K) (twistAux : TwistStamped K) :
    State K × List (Output K) :=
  limitAndSend P pf now s twistAux.twist

/-! ### The run state -/

/-- `run_static_callback`. -/
def runStaticCallback (now : K) (s : State K) (data : String) : State K × List (Output K) :=
  -- a repeated string is a duplicate, whatever has happened since
  if data = s.lastRunStaticCommand then (s, [])
  else
    let s := { s with lastRunStaticCommand := data }
    if data = "start" then
      if s.enableRun = false then ({ s with enableRun := true }, []) else (s, [])
    else if data = "stop" then
      -- the hold starts anew, also where the node is disabled already
      let s := { s with enableLastTime := now }
      if s.enableRun = true then stop pf now { s with enableRun := false } else (s, [])
    else (s, [])

/-! ### Odometry, and the node -/

section Odometry

/-- `while (angle > M_PI) angle -= 2.0 * M_PI;` -/
def wrapDown {K : Type} [Field K] [LinearOrder K] [IsStrictOrderedRing K] [FloorRing K]
    (pf : Platform K) (angle : K) : K :=
  if pf.pi < angle then wrapDown pf (angle - 2 * pf.pi) else angle
termination_by ⌈(angle - pf.pi) / (2 * pf.pi)⌉.toNat
decreasing_by
  -- the measure counts the rounds that are left: a round takes 1 off the quotient
  have hpi := pf.pi_pos
  have hpos : 0 < (angle - pf.pi) / (2 * pf.pi) := by
    apply div_pos <;> linarith
  have hstep : (angle - 2 * pf.pi - pf.pi) / (2 * pf.pi) = (angle - pf.pi) / (2 * pf.pi) - 1 := by
    field_simp
    ring
  have hceil := Int.ceil_pos.mpr hpos
  rw [hstep, Int.ceil_sub_one]
  omega

/-- `while (angle < -M_PI) angle += 2.0 * M_PI;` -/
def wrapUp {K : Type} [Field K] [LinearOrder K] [IsStrictOrderedRing K] [FloorRing K]
    (pf : Platform K) (angle : K) : K :=
  if angle < -pf.pi then wrapUp pf (angle + 2 * pf.pi) else angle
termination_by ⌈(-pf.pi - angle) / (2 * pf.pi)⌉.toNat
decreasing_by
  -- as in `wrapDown`, from the other side
  have hpi := pf.pi_pos
  have hpos : 0 < (-pf.pi - angle) / (2 * pf.pi) := by
    apply div_pos <;> linarith
  have hstep : (-pf.pi - (angle + 2 * pf.pi)) / (2 * pf.pi) =
      (-pf.pi - angle) / (2 * pf.pi) - 1 := by
    field_simp
    ring
  have hceil := Int.ceil_pos.mpr hpos
  rw [hstep, Int.ceil_sub_one]
  omega

variable [IsStrictOrderedRing K]

/-- `normalizeAngle`. -/
def normalizeAngle (angle : K) : K := wrapUp pf (wrapDown pf angle)

/-- `publishOdom`. -/
def publishOdom (now x y theta vx wz : K) : Odometry K where
  header := ⟨now, "odom"⟩
  childFrameId := P.childFrameId
  positionX := .fin x
  positionY := .fin y
  orientationZ := .fin (pf.sin (theta / 2))
  orientationW := .fin (pf.cos (theta / 2))
  linearX := .fin vx
  linearY := .fin 0
  angularZ := .fin wz

/-- The calibrated speed, with speeds below `MIN_SPEED = 0.005` taken as rest. -/
def odomSpeed (s : State K) : K :=
  let linearVelocity := s.latestLinearVelocity * P.velScale
  if |linearVelocity| < 5 / 1000 then 0 else linearVelocity

/-- The yaw rate of the bicycle model. -/
def odomOmega (s : State K) : K :=
  if 1 / 1000000 < |P.wheelbase| then
    odomSpeed P s * pf.tan (s.latestSteeringAngle - P.steerOffset) / P.wheelbase
  else 0

/-- `CalculateAndPublished`. -/
def calculateAndPublished (now : K) (s : State K) : State K × List (Output K) :=
  let dt := now - s.lastTime
  -- a clock that stands still or goes back updates nothing
  if dt ≤ 0 then (s, [])
  else
    -- the integration interval is capped at `MAX_DT = 0.1`
    let dt := if 1 / 10 < dt then 1 / 10 else dt
    let v := odomSpeed P s
    -- the position moves along the old heading
    let omega := odomOmega P pf s
    let x := s.x + v * pf.cos s.theta * dt
    let y := s.y + v * pf.sin s.theta * dt
    let theta := normalizeAngle pf (s.theta + omega * dt)
    ({ s with x := x, y := y, theta := theta, lastTime := now },
      [.odom (publishOdom P pf now x y theta v omega)])

/-- The speed that feedback reports, signed by its gear. -/
def feedbackSpeed (fb : Gear × K × K) : K := if fb.1 = .R then -fb.2.1 else fb.2.1

/-- `can_tx_callback`. -/
def canTxCallback (now : K) (s : State K) (msg : Frame K) : State K × List (Output K) :=
  if msg.id = 0x18C4D2EF then
    let fb : Gear × K × K := parseCtrlFb msg.data
    let speed := feedbackSpeed fb
    -- the gear turns the sign of the speed, and leaves that of the angle
    let angle := fb.2.2 * pf.pi / 180
    let odom := calculateAndPublished P pf now
      { s with
        latestLinearVelocity := speed
        latestSteeringAngle := angle
        latestStamp := msg.header.stamp }
    let carMsg : CarMsg K :=
      { s.carMsgPub with speed := .fin speed, angle := .fin angle, header := ⟨now, "base_link"⟩ }
    ({ odom.1 with currentSpeed := speed, currentAngle := angle, carMsgPub := carMsg },
      odom.2 ++ [.carMsg carMsg])
  else if msg.id = 0x18C4E2EF then
    ({ s with carMsgPub := { s.carMsgPub with battery := batteryRaw msg.data } }, [])
  else (s, [])

/-- One callback, dispatched on the message. -/
def step (s : State K) (e : Timed K (Event K)) : State K × List (Output K) :=
  match e.ev with
  | .cmdVel twistAux => cmdVelCallback P pf e.time s twistAux
  | .twistCmd twistAux => twistCmdVelCallback P pf e.time s twistAux
  | .runStatic data => runStaticCallback pf e.time s data
  | .canTx msg => canTxCallback P pf e.time s msg

/-- `WtbCarNode`, constructed at time `t₀`. -/
def wtbCarNode (t₀ : K) : Machine (State K) (Timed K (Event K)) (Output K) where
  init := State.initial t₀
  step := step P pf

end Odometry

/-! ### What the callbacks do to the command path -/

/-- The frame that the node sends for a command when its counter reads `c`. -/
def akmFrame (now : K) (c : BitVec 8) (lineSpeed angle : Flt K) : Frame K :=
  let cmd := akmCommand pf lineSpeed angle
  ctrlMsg now (buildCtrlCmdData pf c cmd.1 cmd.2.1 cmd.2.2).1

/-- The speed field of a frame, in its wire unit. -/
def speedField (f : Frame K) : ℕ := (speedRaw f.data).toNat

/-- The gear that a frame carries. -/
def frameGear (f : Frame K) : Gear := gearMap (gearRaw f.data)

section Spec

variable (now : K) (s : State K)

/-- **One command, three frames.** The frames differ in the counter alone, and
the counter is all that changes in the node. -/
theorem sendSpeedToAKM_eq (lineSpeed angle : Flt K) :
    sendSpeedToAKM pf now s lineSpeed angle =
      ({ s with aliveCounter := nextAlive (nextAlive (nextAlive s.aliveCounter)) },
        [.can (akmFrame pf now s.aliveCounter lineSpeed angle),
          .can (akmFrame pf now (nextAlive s.aliveCounter) lineSpeed angle),
          .can (akmFrame pf now (nextAlive (nextAlive s.aliveCounter)) lineSpeed angle)]) :=
  rfl

theorem mem_frames_sendSpeedToAKM {lineSpeed angle : Flt K} {f : Frame K}
    (h : f ∈ frames (sendSpeedToAKM pf now s lineSpeed angle).2) :
    ∃ c, f = akmFrame pf now c lineSpeed angle := by
  rw [sendSpeedToAKM_eq] at h
  simp only [frames_can, frames_nil, List.mem_cons, List.not_mem_nil, or_false] at h
  rcases h with rfl | rfl | rfl
  · exact ⟨_, rfl⟩
  · exact ⟨_, rfl⟩
  · exact ⟨_, rfl⟩

/-- The speed field of a command's frames: the magnitude, in the wire unit. -/
theorem speedField_akmFrame (c : BitVec 8) (lineSpeed angle : Flt K) :
    speedField (akmFrame pf now c lineSpeed angle) =
      ((((akmCommand pf lineSpeed angle).2.1.mulConst 1000).rounded pf.float).toUInt32
        pf.undefUInt).toNat % 65536 :=
  toNat_speedRaw_ctrlBytes ..

/-- The gear of a command's frames is R exactly for a negative speed. -/
theorem frameGear_akmFrame (c : BitVec 8) (lineSpeed angle : Flt K) :
    frameGear (akmFrame pf now c lineSpeed angle) =
      if lineSpeed.rounded pf.float < .fin 0 then .R else .D := by
  have hgear : gearRaw (akmFrame pf now c lineSpeed angle).data =
      gearMapping (akmCommand pf lineSpeed angle).1 := gearRaw_ctrlBytes ..
  rw [frameGear, hgear]
  unfold akmCommand
  dsimp only
  split <;> rfl

/-- A stop is in force: the node is disabled, and its hold has not run out. The time since
the stop is that of `index_time`, a `float`. -/
def StopInForce : Prop :=
  s.enableRun = false ∧
    (P.stopTimeThreshold < 0 ∨ pf.float (now - s.enableLastTime) ≤ P.stopTimeThreshold)

instance : Decidable (StopInForce P pf now s) := inferInstanceAs (Decidable (_ ∧ _))

/-- `/cmd_vel` is gated by the stop in force, and enables the node otherwise. -/
theorem cmdVelCallback_eq (twistAux : Twist K) :
    cmdVelCallback P pf now s twistAux =
      if StopInForce P pf now s then (s, [])
      else limitAndSend P pf now { s with enableRun := true } twistAux := by
  unfold cmdVelCallback
  dsimp only
  by_cases hrun : s.enableRun = false
  · rw [if_pos hrun]
    by_cases hthr : 0 ≤ P.stopTimeThreshold
    · rw [if_pos hthr]
      by_cases htime : P.stopTimeThreshold < pf.float (now - s.enableLastTime)
      · -- expired
        have hout : ¬ StopInForce P pf now s := by
          rintro ⟨-, h | h⟩
          · exact absurd h (not_lt.mpr hthr)
          · exact absurd htime (not_lt.mpr h)
        rw [if_pos htime, if_neg hout]
      · rw [if_neg htime, if_pos ⟨hrun, Or.inr (not_lt.mp htime)⟩]
    · rw [if_neg hthr, if_pos ⟨hrun, Or.inl (not_le.mp hthr)⟩]
  · -- enabled all along, so enabling changes nothing
    have hs : { s with enableRun := true } = s := by
      have htrue : true = s.enableRun := by simpa using Ne.symm hrun
      rw [htrue]
    rw [if_neg hrun, if_neg (fun h => hrun h.1), hs]

/-- **What a command string does.** A repeated string is dropped. A "stop" sends its
zero frames only if it finds the node enabled, and restarts the hold either way. -/
theorem runStaticCallback_cases (data : String) :
    (data = s.lastRunStaticCommand ∧ runStaticCallback pf now s data = (s, [])) ∨
    data ≠ s.lastRunStaticCommand ∧
      ((data = "start" ∧ runStaticCallback pf now s data =
          ({ s with lastRunStaticCommand := data, enableRun := true }, [])) ∨
       (data = "stop" ∧ s.enableRun = true ∧ runStaticCallback pf now s data =
          stop pf now
            { s with lastRunStaticCommand := data, enableLastTime := now, enableRun := false }) ∨
       (data = "stop" ∧ s.enableRun = false ∧ runStaticCallback pf now s data =
          ({ s with lastRunStaticCommand := data, enableLastTime := now }, [])) ∨
       (data ≠ "start" ∧ data ≠ "stop" ∧ runStaticCallback pf now s data =
          ({ s with lastRunStaticCommand := data }, []))) := by
  unfold runStaticCallback
  dsimp only
  by_cases hdup : data = s.lastRunStaticCommand
  · rw [if_pos hdup]
    exact Or.inl ⟨hdup, rfl⟩
  · refine Or.inr ⟨hdup, ?_⟩
    rw [if_neg hdup]
    by_cases hstart : data = "start"
    · -- whether the node was disabled or not, it is enabled now
      rw [if_pos hstart]
      refine Or.inl ⟨hstart, ?_⟩
      cases s.enableRun <;> rfl
    · rw [if_neg hstart]
      refine Or.inr ?_
      by_cases hstop : data = "stop"
      · rw [if_pos hstop]
        cases hrun : s.enableRun with
        | true => exact Or.inl ⟨hstop, rfl, rfl⟩
        | false => exact Or.inr (Or.inl ⟨hstop, rfl, rfl⟩)
      · rw [if_neg hstop]
        exact Or.inr (Or.inr ⟨hstart, hstop, rfl⟩)

theorem frameGear_akmFrame_fin (c : BitVec 8) (v : K) (angle : Flt K) :
    frameGear (akmFrame pf now c (.fin v) angle) = if pf.float v < 0 then .R else .D := by
  rw [frameGear_akmFrame]
  exact if_congr Flt.fin_lt_fin rfl rfl

omit [Field K] [FloorRing K] in
theorem limitSpeed_fin (v : K) : limitSpeed P (.fin v) = .fin (min v P.maxSpeed) := by
  unfold limitSpeed
  split
  · next h => rw [min_eq_right (le_of_lt h)]
  · next h => rw [min_eq_left (not_lt.mp h)]

variable [IsStrictOrderedRing K]

/-- The command path is untouched. -/
structure SameCommandPath (s s' : State K) : Prop where
  aliveCounter : s'.aliveCounter = s.aliveCounter
  enableRun : s'.enableRun = s.enableRun
  enableLastTime : s'.enableLastTime = s.enableLastTime
  lastRunStaticCommand : s'.lastRunStaticCommand = s.lastRunStaticCommand

theorem calculateAndPublished_frame :
    SameCommandPath s (calculateAndPublished P pf now s).1 ∧
      frames (calculateAndPublished P pf now s).2 = [] := by
  unfold calculateAndPublished
  dsimp only
  split
  · exact ⟨⟨rfl, rfl, rfl, rfl⟩, rfl⟩
  · exact ⟨⟨rfl, rfl, rfl, rfl⟩, rfl⟩

/-- The state with the speed, the angle and the stamp of a feedback frame stored. -/
def withFeedback (s : State K) (msg : Frame K) : State K :=
  { s with
    latestLinearVelocity := feedbackSpeed (parseCtrlFb msg.data)
    latestSteeringAngle := (parseCtrlFb msg.data : Gear × K × K).2.2 * pf.pi / 180
    latestStamp := msg.header.stamp }

/-- Feedback from the chassis sends no control frame, and leaves the command
path untouched. -/
theorem canTx_frame (msg : Frame K) :
    SameCommandPath s (canTxCallback P pf now s msg).1 ∧
      frames (canTxCallback P pf now s msg).2 = [] := by
  unfold canTxCallback
  split
  · -- a feedback frame: odometry from the members just stored, and a `CarMsg`
    dsimp only
    obtain ⟨hsame, hout⟩ := calculateAndPublished_frame P pf now (withFeedback pf s msg)
    refine ⟨⟨hsame.1, hsame.2, hsame.3, hsame.4⟩, ?_⟩
    rw [frames_append]
    exact List.append_eq_nil_iff.mpr ⟨hout, rfl⟩
  · -- the battery frame, or one that the node ignores
    split
    · exact ⟨⟨rfl, rfl, rfl, rfl⟩, rfl⟩
    · exact ⟨⟨rfl, rfl, rfl, rfl⟩, rfl⟩

/-- Every frame that a step sends for a velocity command carries that command,
with its speed limited. -/
theorem frame_of_command {e : Timed K (Event K)} {tw : Twist K} (h : e.ev.command = some tw)
    {f : Frame K} (hf : f ∈ frames (step P pf s e).2) :
    ∃ c, f = akmFrame pf e.time c (limitSpeed P tw.linearX) tw.angularZ := by
  obtain ⟨now, ev⟩ := e
  cases ev with
  | cmdVel twistAux =>
    obtain rfl := Option.some.inj h
    change f ∈ frames (cmdVelCallback P pf now s twistAux).2 at hf
    rw [cmdVelCallback_eq] at hf
    by_cases hforce : StopInForce P pf now s
    · -- gated: there is no frame at all
      rw [if_pos hforce] at hf
      exact absurd hf List.not_mem_nil
    · rw [if_neg hforce] at hf
      exact mem_frames_sendSpeedToAKM pf now _ hf
  | twistCmd twistAux =>
    obtain rfl := Option.some.inj h
    exact mem_frames_sendSpeedToAKM pf now s hf
  | runStatic data => exact absurd h (by simp [Event.command])
  | canTx msg => exact absurd h (by simp [Event.command])

/-- A command is sent in three frames, unless it comes on `/cmd_vel` under a stop in
force. -/
theorem frames_of_command {e : Timed K (Event K)} {tw : Twist K} (h : e.ev.command = some tw)
    (hopen : ∀ tw', e.ev = .cmdVel tw' → ¬ StopInForce P pf e.time s) :
    akmFrame pf e.time s.aliveCounter (limitSpeed P tw.linearX) tw.angularZ ∈
      frames (step P pf s e).2 := by
  obtain ⟨now, ev⟩ := e
  cases ev with
  | cmdVel twistAux =>
    obtain rfl := Option.some.inj h
    change _ ∈ frames (cmdVelCallback P pf now s twistAux).2
    rw [cmdVelCallback_eq, if_neg (hopen twistAux rfl)]
    exact List.mem_cons_self
  | twistCmd twistAux =>
    obtain rfl := Option.some.inj h
    exact List.mem_cons_self
  | runStatic data => exact absurd h (by simp [Event.command])
  | canTx msg => exact absurd h (by simp [Event.command])

/-- A property that the counter does not decide holds of all frames of a command
that is sent, or of none. -/
theorem forall_frames_command {e : Timed K (Event K)} {tw : Twist K}
    (h : e.ev.command = some tw)
    (hopen : ∀ tw', e.ev = .cmdVel tw' → ¬ StopInForce P pf e.time s) {Q : Frame K → Prop}
    {X : Prop}
    (hQ : ∀ c, Q (akmFrame pf e.time c (limitSpeed P tw.linearX) tw.angularZ) ↔ X) :
    (∀ f ∈ frames (step P pf s e).2, Q f) ↔ X := by
  refine ⟨?_, ?_⟩
  · intro hall
    exact (hQ s.aliveCounter).mp (hall _ (frames_of_command P pf s h hopen))
  · intro hX f hf
    obtain ⟨c, rfl⟩ := frame_of_command P pf s h hf
    exact (hQ c).mpr hX

/-- Nothing gates `/twist_cmd`. -/
theorem forall_frames_twistCmd {t : K} {twistAux : TwistStamped K} {Q : Frame K → Prop} {X : Prop}
    (hQ : ∀ c, Q (akmFrame pf t c (limitSpeed P twistAux.twist.linearX) twistAux.twist.angularZ) ↔
      X) :
    (∀ f ∈ frames (step P pf s ⟨t, .twistCmd twistAux⟩).2, Q f) ↔ X :=
  forall_frames_command P pf s (e := ⟨t, .twistCmd twistAux⟩) rfl
    (fun _ heq => absurd heq (by simp)) hQ

end Spec

end Driver
end WtbAutoware
