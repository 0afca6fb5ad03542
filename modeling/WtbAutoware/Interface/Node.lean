import WtbAutoware.Framework.Machine
import WtbAutoware.Platform

/-!
# The vehicle interface

`VehicleInterface` as a reactive machine, between Autoware and the chassis
driver. It takes control commands, gear commands and control-mode requests from
Autoware, odometry and `CarMsg` from the driver, and a tick every 100 ms. It
publishes *chassis commands* (on `/twist_cmd`, or on `/cmd_vel`), the heartbeat
"start" on `/run_static`, and the status reports. Each callback reads the clock
once; the reading is the `time` of the event.

The callbacks are translated one by one, and `step` dispatches on the event. Two
equations say what a step does:

* `state_step` — the state it leaves, from which the members that other callbacks
  read are taken one by one (`currentGear_step`, `currentControlMode_step`,
  `lastControlTime_step`, `latestSteeringAngle_step`);
* `commands_step` — one chassis command or none, and a nonzero one only for a
  control command.

The codes of `autoware_vehicle_msgs` are a parameter, `VehicleMsgs`: the source
uses their names and relies on their being different, and on the service request
and the mode report using the same ones.
-/

namespace WtbAutoware
namespace Interface

open Reactive

/-! ### Message codes -/

/-- The codes of `GearCommand` that the node compares with. `GearReport` has the
same. -/
structure GearCodes where
  neutral : BitVec 8
  drive : BitVec 8
  reverse : BitVec 8
  park : BitVec 8
  nodup : [neutral, drive, reverse, park].Nodup

/-- The control modes of `ControlModeCommand` and `ControlModeReport`. -/
structure ModeCodes where
  noCommand : BitVec 8
  autonomous : BitVec 8
  autonomousSteerOnly : BitVec 8
  autonomousVelocityOnly : BitVec 8
  manual : BitVec 8
  nodup : [noCommand, autonomous, autonomousSteerOnly, autonomousVelocityOnly, manual].Nodup

/-- The codes of `autoware_vehicle_msgs`. -/
structure VehicleMsgs where
  gearCommand : GearCodes
  /-- `ControlModeCommand::Request`. -/
  request : ModeCodes
  /-- `ControlModeReport`. -/
  report : ModeCodes
  request_eq_report : request = report

/-- The codes as `autoware_vehicle_msgs` defines them. -/
def VehicleMsgs.autoware : VehicleMsgs where
  gearCommand := ⟨1, 2, 20, 22, by decide⟩
  request := ⟨0, 1, 2, 3, 4, by decide⟩
  report := ⟨0, 1, 2, 3, 4, by decide⟩
  request_eq_report := rfl

/-! ### The node -/

/-- The parameters of `VehicleInterface`. -/
structure Params (K : Type) where
  maxSpeed : K
  maxSteeringAngle : K
  commandTimeoutSec : K
  publishTwistCmd : Bool

/-- The values that the constructor declares. -/
def Params.default {K : Type} [Field K] : Params K where
  maxSpeed := 1
  maxSteeringAngle := 6109 / 10000
  commandTimeoutSec := 1 / 2
  publishTwistCmd := true

/-- The members of `VehicleInterface` that its callbacks write. -/
structure State (K : Type) where
  currentGear : BitVec 8
  currentControlMode : BitVec 8
  lastControlTime : K
  latestVelocity : Flt K
  latestLateralVelocity : Flt K
  latestHeadingRate : Flt K
  latestSteeringAngle : Flt K

/-- `autoware_control_msgs/Control`: the two fields the node reads. -/
structure Control (K : Type) where
  velocity : Flt K
  steeringTireAngle : Flt K
  deriving DecidableEq

/-- The messages a callback is called with; `timer` is the 100 ms tick. -/
inductive Event (K : Type) where
  | controlCmd (msg : Control K)
  | gearCmd (command : BitVec 8)
  | odom (msg : Odometry K)
  | carStatus (msg : CarMsg K)
  | timer
  | controlModeRequest (mode : BitVec 8)
  deriving DecidableEq

/-- `autoware_vehicle_msgs/VelocityReport`. -/
structure VelocityReport (K : Type) where
  header : Header K
  longitudinalVelocity : Flt K
  lateralVelocity : Flt K
  headingRate : Flt K
  deriving DecidableEq

/-- `autoware_vehicle_msgs/SteeringReport`. -/
structure SteeringReport (K : Type) where
  stamp : K
  steeringTireAngle : Flt K
  deriving DecidableEq

/-- A stamped code: `ControlModeReport` and `GearReport`. -/
structure CodeReport (K : Type) where
  stamp : K
  code : BitVec 8
  deriving DecidableEq

/-- The messages the node publishes, and its answer to a service request. -/
inductive Output (K : Type) where
  | cmdVel (cmd : Twist K)
  | twistCmd (cmd : TwistStamped K)
  | runStatic (data : String)
  | velocityReport (report : VelocityReport K)
  | steeringReport (report : SteeringReport K)
  | controlModeReport (report : CodeReport K)
  | gearReport (report : CodeReport K)
  | response (success : Bool)
  deriving DecidableEq

variable {K : Type} [Field K] [LinearOrder K]

/-- The members after construction at time `t₀`. -/
def State.initial (msgs : VehicleMsgs) (t₀ : K) : State K where
  currentGear := msgs.gearCommand.drive
  currentControlMode := msgs.report.manual
  lastControlTime := t₀
  latestVelocity := .fin 0
  latestLateralVelocity := .fin 0
  latestHeadingRate := .fin 0
  latestSteeringAngle := .fin 0

variable (P : Params K) (msgs : VehicleMsgs)

/-- `isAutonomousControlMode`, of a mode. -/
def IsAutonomous (mode : BitVec 8) : Prop :=
  mode = msgs.report.autonomous ∨
    mode = msgs.report.autonomousSteerOnly ∨
    mode = msgs.report.autonomousVelocityOnly

instance (mode : BitVec 8) : Decidable (IsAutonomous msgs mode) :=
  inferInstanceAs (Decidable (_ ∨ _ ∨ _))

/-- `publishChassisCommand`. -/
def publishChassisCommand (now : K) (speed steer : Flt K) : List (Output K) :=
  if P.publishTwistCmd then [.twistCmd ⟨⟨now, "base_link"⟩, ⟨speed, steer⟩⟩]
  else [.cmdVel ⟨speed, steer⟩]

/-- `publishGearReport`. -/
def publishGearReport (now : K) (s : State K) : List (Output K) :=
  [.gearReport ⟨now, s.currentGear⟩]

/-- `onControlCmd`. -/
def onControlCmd (now : K) (s : State K) (msg : Control K) : State K × List (Output K) :=
  if ¬ IsAutonomous msgs s.currentControlMode then (s, [])
  else
    -- the gear plays no part here
    let speed := stdClamp msg.velocity (.fin (-P.maxSpeed)) (.fin P.maxSpeed)
    let steer := stdClamp msg.steeringTireAngle (.fin (-P.maxSteeringAngle))
      (.fin P.maxSteeringAngle)
    ({ s with lastControlTime := now }, publishChassisCommand P now speed steer)

/-- `onGearCmd`. -/
def onGearCmd (now : K) (s : State K) (command : BitVec 8) : State K × List (Output K) :=
  let s := { s with currentGear := command }
  -- PARK and NEUTRAL stop the car, in whatever mode
  let stopped :=
    if command = msgs.gearCommand.park ∨ command = msgs.gearCommand.neutral then
      publishChassisCommand P now (.fin 0) (.fin 0)
    else []
  (s, stopped ++ publishGearReport now s)

/-- `onOdom`. -/
def onOdom (s : State K) (msg : Odometry K) : State K × List (Output K) :=
  ({ s with
      latestVelocity := msg.linearX
      latestLateralVelocity := msg.linearY
      latestHeadingRate := msg.angularZ },
    [.velocityReport ⟨⟨msg.header.stamp, "base_link"⟩, msg.linearX, msg.linearY, msg.angularZ⟩])

/-- `onCarStatus`. -/
def onCarStatus (s : State K) (msg : CarMsg K) : State K × List (Output K) :=
  ({ s with
      latestSteeringAngle :=
        stdClamp msg.angle (.fin (-P.maxSteeringAngle)) (.fin P.maxSteeringAngle) }, [])

/-- `onTimer`. -/
def onTimer (now : K) (s : State K) : State K × List (Output K) :=
  let elapsed := now - s.lastControlTime
  -- the watchdog
  let stopped :=
    if IsAutonomous msgs s.currentControlMode ∧ P.commandTimeoutSec < elapsed then
      publishChassisCommand P now (.fin 0) (.fin 0)
    else []
  -- the heartbeat
  let start := if s.currentGear = msgs.gearCommand.drive then [.runStatic "start"] else []
  (s, stopped ++ [.steeringReport ⟨now, s.latestSteeringAngle⟩,
    .controlModeReport ⟨now, s.currentControlMode⟩] ++ start ++ publishGearReport now s)

/-- The modes of the first `case` labels of `onControlModeRequest`. -/
def AcceptedMode (mode : BitVec 8) : Prop :=
  mode = msgs.request.autonomous ∨
    mode = msgs.request.autonomousSteerOnly ∨
    mode = msgs.request.autonomousVelocityOnly ∨
    mode = msgs.request.manual

instance (mode : BitVec 8) : Decidable (AcceptedMode msgs mode) :=
  inferInstanceAs (Decidable (_ ∨ _ ∨ _ ∨ _))

/-- `onControlModeRequest`. -/
def onControlModeRequest (now : K) (s : State K) (mode : BitVec 8) :
    State K × List (Output K) :=
  if AcceptedMode msgs mode then
    let s := { s with currentControlMode := mode }
    -- of the accepted modes, only MANUAL is not autonomous
    let stopped :=
      if ¬ IsAutonomous msgs s.currentControlMode then
        publishChassisCommand P now (.fin 0) (.fin 0)
      else []
    ({ s with lastControlTime := now }, stopped ++ [.response true])
  else if mode = msgs.request.noCommand then (s, [.response true])
  else (s, [.response false])

/-- One callback, dispatched on the message. -/
def step (s : State K) (e : Timed K (Event K)) : State K × List (Output K) :=
  match e.ev with
  | .controlCmd msg => onControlCmd P msgs e.time s msg
  | .gearCmd command => onGearCmd P msgs e.time s command
  | .odom msg => onOdom s msg
  | .carStatus msg => onCarStatus P s msg
  | .timer => onTimer P msgs e.time s
  | .controlModeRequest mode => onControlModeRequest P msgs e.time s mode

/-- `VehicleInterface`, constructed at time `t₀`. -/
def vehicleInterface (t₀ : K) : Machine (State K) (Timed K (Event K)) (Output K) where
  init := State.initial msgs t₀
  step := step P msgs

/-- A run of the node. -/
abbrev Run (K : Type) := List (Timed K (Event K))

/-- The node after a run from construction at `t₀`. -/
abbrev stateAfter (t₀ : K) (es : Run K) : State K := (vehicleInterface P msgs t₀).run es

/-! ### Chassis commands -/

/-- The chassis command that a message is, on whichever topic. -/
def Output.chassisCommand {K : Type} : Output K → Option (Twist K)
  | .twistCmd cmd => some cmd.twist
  | .cmdVel cmd => some cmd
  | _ => none

/-- The chassis commands among the published messages. -/
def chassisCommands {K : Type} (os : List (Output K)) : List (Twist K) :=
  os.filterMap Output.chassisCommand

@[simp] theorem chassisCommands_nil {K : Type} : chassisCommands ([] : List (Output K)) = [] := rfl

@[simp] theorem chassisCommands_append {K : Type} (os os' : List (Output K)) :
    chassisCommands (os ++ os') = chassisCommands os ++ chassisCommands os' :=
  List.filterMap_append

omit [Field K] [LinearOrder K] in
@[simp] theorem chassisCommands_publish (now : K) (speed steer : Flt K) :
    chassisCommands (publishChassisCommand P now speed steer) = [⟨speed, steer⟩] := by
  unfold publishChassisCommand
  split <;> rfl

omit [Field K] [LinearOrder K] in
/-- A conditional command. -/
theorem chassisCommands_ite_publish (c : Prop) [Decidable c] (now : K) (speed steer : Flt K) :
    chassisCommands (if c then publishChassisCommand P now speed steer else []) =
      if c then [⟨speed, steer⟩] else [] := by
  by_cases hc : c
  · rw [if_pos hc, if_pos hc, chassisCommands_publish]
  · rw [if_neg hc, if_neg hc, chassisCommands_nil]

omit [Field K] [LinearOrder K] in
/-- Nothing but chassis commands comes out of `publishChassisCommand`. -/
theorem notMem_publish {o : Output K} (ho : o.chassisCommand = none) (now : K)
    (speed steer : Flt K) : o ∉ publishChassisCommand P now speed steer := by
  intro h
  have hmem : o.chassisCommand ∈ (publishChassisCommand P now speed steer).map
      Output.chassisCommand := List.mem_map_of_mem h
  rw [ho] at hmem
  unfold publishChassisCommand at hmem
  split at hmem <;> simp [Output.chassisCommand] at hmem

omit [Field K] [LinearOrder K] in
theorem notMem_ite_publish {o : Output K} (ho : o.chassisCommand = none) (c : Prop) [Decidable c]
    (now : K) (speed steer : Flt K) :
    o ∉ if c then publishChassisCommand P now speed steer else [] := by
  split
  · exact notMem_publish P ho now speed steer
  · exact List.not_mem_nil

/-- The chassis command that stops the car. -/
def zeroTwist : Twist K := ⟨.fin 0, .fin 0⟩

/-- The chassis command for a control command: both values clamped. -/
def clampCommand (msg : Control K) : Twist K :=
  ⟨stdClamp msg.velocity (.fin (-P.maxSpeed)) (.fin P.maxSpeed),
    stdClamp msg.steeringTireAngle (.fin (-P.maxSteeringAngle)) (.fin P.maxSteeringAngle)⟩

/-! ### What a step does -/

theorem acceptedMode_iff (mode : BitVec 8) :
    AcceptedMode msgs mode ↔ IsAutonomous msgs mode ∨ mode = msgs.report.manual := by
  unfold AcceptedMode IsAutonomous
  rw [msgs.request_eq_report]
  refine ⟨?_, ?_⟩
  · rintro (h | h | h | h)
    · exact Or.inl (Or.inl h)
    · exact Or.inl (Or.inr (Or.inl h))
    · exact Or.inl (Or.inr (Or.inr h))
    · exact Or.inr h
  · rintro ((h | h | h) | h)
    · exact Or.inl h
    · exact Or.inr (Or.inl h)
    · exact Or.inr (Or.inr (Or.inl h))
    · exact Or.inr (Or.inr (Or.inr h))

theorem not_isAutonomous_manual : ¬ IsAutonomous msgs msgs.report.manual := by
  -- MANUAL has a code of its own
  have h := msgs.report.nodup
  simp only [List.nodup_cons, List.mem_cons, List.not_mem_nil, or_false, not_or] at h
  obtain ⟨-, ⟨-, -, hauto⟩, ⟨-, hsteer⟩, hvel, -⟩ := h
  rintro (heq | heq | heq)
  · exact hauto heq.symm
  · exact hsteer heq.symm
  · exact hvel heq.symm

theorem not_acceptedMode_noCommand : ¬ AcceptedMode msgs msgs.request.noCommand := by
  -- and so has NO_COMMAND
  have h := msgs.request.nodup
  simp only [List.nodup_cons, List.mem_cons, List.not_mem_nil, or_false, not_or] at h
  obtain ⟨⟨hauto, hsteer, hvel, hman⟩, -⟩ := h
  rintro (heq | heq | heq | heq)
  · exact hauto heq
  · exact hsteer heq
  · exact hvel heq
  · exact hman heq

section Spec

variable (s : State K) (e : Timed K (Event K))

/-- **The state after a step.** A control command leaves only its time, and only in
an autonomous mode; a mode request leaves its mode and its time, if it is accepted. -/
theorem state_step :
    (step P msgs s e).1 =
      match e.ev with
      | .controlCmd _ =>
        if IsAutonomous msgs s.currentControlMode then { s with lastControlTime := e.time } else s
      | .gearCmd command => { s with currentGear := command }
      | .odom msg =>
        { s with
          latestVelocity := msg.linearX
          latestLateralVelocity := msg.linearY
          latestHeadingRate := msg.angularZ }
      | .carStatus msg =>
        { s with
          latestSteeringAngle :=
            stdClamp msg.angle (.fin (-P.maxSteeringAngle)) (.fin P.maxSteeringAngle) }
      | .timer => s
      | .controlModeRequest mode =>
        if AcceptedMode msgs mode then
          { s with currentControlMode := mode, lastControlTime := e.time }
        else s := by
  obtain ⟨now, ev⟩ := e
  cases ev with
  | controlCmd msg =>
    change (onControlCmd P msgs now s msg).1 = if _ then _ else _
    unfold onControlCmd
    by_cases hauto : IsAutonomous msgs s.currentControlMode
    · rw [if_neg (not_not.mpr hauto), if_pos hauto]
    · rw [if_pos hauto, if_neg hauto]
  | controlModeRequest mode =>
    change (onControlModeRequest P msgs now s mode).1 = if _ then _ else _
    unfold onControlModeRequest
    by_cases hacc : AcceptedMode msgs mode
    · rw [if_pos hacc, if_pos hacc]
    · rw [if_neg hacc, if_neg hacc]
      -- NO_COMMAND and an unsupported mode differ in the answer alone
      split <;> rfl
  | _ => rfl

theorem currentGear_step :
    (step P msgs s e).1.currentGear =
      match e.ev with
      | .gearCmd command => command
      | _ => s.currentGear := by
  rw [state_step]
  obtain ⟨now, ev⟩ := e
  cases ev with
  | controlCmd msg => exact (apply_ite State.currentGear ..).trans (ite_self _)
  | controlModeRequest mode => exact (apply_ite State.currentGear ..).trans (ite_self _)
  | _ => rfl

theorem currentControlMode_step :
    (step P msgs s e).1.currentControlMode =
      match e.ev with
      | .controlModeRequest mode => if AcceptedMode msgs mode then mode else s.currentControlMode
      | _ => s.currentControlMode := by
  rw [state_step]
  obtain ⟨now, ev⟩ := e
  cases ev with
  | controlCmd msg => exact (apply_ite State.currentControlMode ..).trans (ite_self _)
  | controlModeRequest mode => exact apply_ite State.currentControlMode ..
  | _ => rfl

/-- The time stamp that the watchdog reads is written by every control command
in an autonomous mode, and by every accepted mode request. -/
theorem lastControlTime_step :
    (step P msgs s e).1.lastControlTime =
      match e.ev with
      | .controlCmd _ =>
        if IsAutonomous msgs s.currentControlMode then e.time else s.lastControlTime
      | .controlModeRequest mode => if AcceptedMode msgs mode then e.time else s.lastControlTime
      | _ => s.lastControlTime := by
  rw [state_step]
  obtain ⟨now, ev⟩ := e
  cases ev with
  | controlCmd msg => exact apply_ite State.lastControlTime ..
  | controlModeRequest mode => exact apply_ite State.lastControlTime ..
  | _ => rfl

theorem latestSteeringAngle_step :
    (step P msgs s e).1.latestSteeringAngle =
      match e.ev with
      | .carStatus msg =>
        stdClamp msg.angle (.fin (-P.maxSteeringAngle)) (.fin P.maxSteeringAngle)
      | _ => s.latestSteeringAngle := by
  rw [state_step]
  obtain ⟨now, ev⟩ := e
  cases ev with
  | controlCmd msg => exact (apply_ite State.latestSteeringAngle ..).trans (ite_self _)
  | controlModeRequest mode => exact (apply_ite State.latestSteeringAngle ..).trans (ite_self _)
  | _ => rfl

theorem chassisCommands_onControlCmd (now : K) (msg : Control K) :
    chassisCommands (onControlCmd P msgs now s msg).2 =
      if IsAutonomous msgs s.currentControlMode then [clampCommand P msg] else [] := by
  unfold onControlCmd
  by_cases hauto : IsAutonomous msgs s.currentControlMode
  · rw [if_neg (not_not.mpr hauto)]
    simp [hauto, clampCommand]
  · -- ignored
    rw [if_pos hauto]
    simp [hauto]

omit [LinearOrder K] in
theorem chassisCommands_onGearCmd (now : K) (command : BitVec 8) :
    chassisCommands (onGearCmd P msgs now s command).2 =
      if command = msgs.gearCommand.park ∨ command = msgs.gearCommand.neutral then [zeroTwist]
      else [] := by
  unfold onGearCmd
  dsimp only
  rw [chassisCommands_append, chassisCommands_ite_publish]
  exact List.append_nil _

theorem chassisCommands_onTimer (now : K) :
    chassisCommands (onTimer P msgs now s).2 =
      if IsAutonomous msgs s.currentControlMode ∧
        P.commandTimeoutSec < now - s.lastControlTime then [zeroTwist] else [] := by
  unfold onTimer
  dsimp only
  have hstart : chassisCommands (if s.currentGear = msgs.gearCommand.drive then
      [(.runStatic "start" : Output K)] else []) = [] := by
    split <;> rfl
  rw [chassisCommands_append, chassisCommands_append, chassisCommands_append, hstart,
    chassisCommands_ite_publish, List.append_nil]
  -- what is left are the reports
  exact (List.append_nil _).trans (List.append_nil _)

omit [LinearOrder K] in
theorem chassisCommands_onControlModeRequest (now : K) (mode : BitVec 8) :
    chassisCommands (onControlModeRequest P msgs now s mode).2 =
      if mode = msgs.report.manual then [zeroTwist] else [] := by
  unfold onControlModeRequest
  by_cases hacc : AcceptedMode msgs mode
  · rw [if_pos hacc]
    dsimp only
    rw [chassisCommands_append, chassisCommands_ite_publish]
    rcases (acceptedMode_iff msgs mode).mp hacc with hauto | rfl
    · -- an autonomous mode stops nothing
      have hne : mode ≠ msgs.report.manual := by
        rintro rfl
        exact not_isAutonomous_manual msgs hauto
      rw [if_neg (not_not.mpr hauto), if_neg hne]
      rfl
    · rw [if_pos (not_isAutonomous_manual msgs), if_pos rfl]
      rfl
  · -- a mode that is not accepted is not MANUAL
    have hne : mode ≠ msgs.report.manual := by
      rintro rfl
      exact hacc ((acceptedMode_iff msgs _).mpr (Or.inr rfl))
    rw [if_neg hacc, if_neg hne]
    split <;> rfl

/-- **The chassis commands of a step.** Four of the six callbacks can publish
one, and only a control command makes it other than `zeroTwist`. -/
theorem commands_step :
    chassisCommands (step P msgs s e).2 =
      match e.ev with
      | .controlCmd msg =>
        if IsAutonomous msgs s.currentControlMode then [clampCommand P msg] else []
      | .gearCmd command =>
        if command = msgs.gearCommand.park ∨ command = msgs.gearCommand.neutral then [zeroTwist]
        else []
      | .timer =>
        if IsAutonomous msgs s.currentControlMode ∧
          P.commandTimeoutSec < e.time - s.lastControlTime then [zeroTwist] else []
      | .controlModeRequest mode => if mode = msgs.report.manual then [zeroTwist] else []
      | _ => [] := by
  obtain ⟨now, ev⟩ := e
  cases ev with
  | controlCmd msg => exact chassisCommands_onControlCmd P msgs s now msg
  | gearCmd command => exact chassisCommands_onGearCmd P msgs s now command
  | odom msg => rfl
  | carStatus msg => rfl
  | timer => exact chassisCommands_onTimer P msgs s now
  | controlModeRequest mode => exact chassisCommands_onControlModeRequest P msgs s now mode

/-- A chassis command other than `zeroTwist` comes from a control command, in an
autonomous mode. -/
theorem controlCmd_of_nonzero {c : Twist K} (hc : c ∈ chassisCommands (step P msgs s e).2)
    (hne : c ≠ zeroTwist) :
    ∃ msg, e.ev = .controlCmd msg ∧ IsAutonomous msgs s.currentControlMode ∧
      c = clampCommand P msg := by
  rw [commands_step] at hc
  obtain ⟨now, ev⟩ := e
  cases ev with
  | controlCmd msg =>
    change c ∈ if IsAutonomous msgs s.currentControlMode then [clampCommand P msg] else [] at hc
    by_cases hauto : IsAutonomous msgs s.currentControlMode
    · rw [if_pos hauto, List.mem_singleton] at hc
      exact ⟨msg, rfl, hauto, hc⟩
    · rw [if_neg hauto] at hc
      simp at hc
  | gearCmd command => exact absurd (by simp_all) hne
  | odom msg => simp at hc
  | carStatus msg => simp at hc
  | timer => exact absurd (by simp_all) hne
  | controlModeRequest mode => exact absurd (by simp_all) hne

/-- A tick reports the steering angle on record. -/
theorem steeringReport_timer {now : K} {r : SteeringReport K} :
    .steeringReport r ∈ (step P msgs s ⟨now, .timer⟩).2 ↔ r = ⟨now, s.latestSteeringAngle⟩ := by
  change .steeringReport r ∈ (onTimer P msgs now s).2 ↔ _
  unfold onTimer publishGearReport
  have hstopped := notMem_ite_publish P (o := .steeringReport r) rfl
    (IsAutonomous msgs s.currentControlMode ∧ P.commandTimeoutSec < now - s.lastControlTime) now
    (.fin 0) (.fin 0)
  have hstart : .steeringReport r ∉ if s.currentGear = msgs.gearCommand.drive then
      [(.runStatic "start" : Output K)] else [] := by
    split <;> simp
  simp [hstopped, hstart]

/-- The steering angle on record is that of the latest `CarMsg`. -/
theorem latestSteeringAngle_runFrom (t₀ : K) {es : Run K}
    (h : ∀ e ∈ es, ∀ msg, e.ev ≠ .carStatus msg) :
    ((vehicleInterface P msgs t₀).runFrom s es).latestSteeringAngle = s.latestSteeringAngle := by
  refine (vehicleInterface P msgs t₀).invariant_runFrom
    (I := fun s' => s'.latestSteeringAngle = s.latestSteeringAngle) ?_ rfl
  intro s' e he hs'
  change (step P msgs s' e).1.latestSteeringAngle = _
  rw [latestSteeringAngle_step, ← hs']
  have hne := h e he
  obtain ⟨now, ev⟩ := e
  cases ev with
  | carStatus msg => exact absurd rfl (hne msg)
  | _ => rfl

/-- `/run_static` is written by `onTimer` alone: the heartbeat "start", in DRIVE. -/
theorem timer_of_runStatic {data : String} (h : .runStatic data ∈ (step P msgs s e).2) :
    e.ev = .timer ∧ data = "start" ∧ s.currentGear = msgs.gearCommand.drive := by
  obtain ⟨now, ev⟩ := e
  cases ev with
  | controlCmd msg =>
    change _ ∈ (onControlCmd P msgs now s msg).2 at h
    unfold onControlCmd at h
    split at h
    · exact absurd h List.not_mem_nil
    · exact absurd h (notMem_publish P rfl _ _ _)
  | gearCmd command =>
    change _ ∈ (onGearCmd P msgs now s command).2 at h
    unfold onGearCmd publishGearReport at h
    rcases List.mem_append.mp h with hstopped | hreport
    · exact absurd hstopped (notMem_ite_publish P rfl _ _ _ _)
    · exact absurd (List.mem_singleton.mp hreport) (by simp)
  | odom msg => exact absurd (List.mem_singleton.mp h) (by simp)
  | carStatus msg => exact absurd h List.not_mem_nil
  | timer =>
    change _ ∈ (onTimer P msgs now s).2 at h
    unfold onTimer publishGearReport at h
    dsimp only at h
    rw [List.mem_append, List.mem_append, List.mem_append] at h
    -- in the order of the source: the stop, the reports, "start", the gear report
    rcases h with ((hstopped | hreports) | hstart) | hgear
    · exact absurd hstopped (notMem_ite_publish P rfl _ _ _ _)
    · simp at hreports
    · -- the heartbeat
      by_cases hdrive : s.currentGear = msgs.gearCommand.drive
      · rw [if_pos hdrive, List.mem_singleton] at hstart
        exact ⟨rfl, Output.runStatic.inj hstart, hdrive⟩
      · rw [if_neg hdrive] at hstart
        exact absurd hstart List.not_mem_nil
    · exact absurd (List.mem_singleton.mp hgear) (by simp)
  | controlModeRequest mode =>
    change _ ∈ (onControlModeRequest P msgs now s mode).2 at h
    unfold onControlModeRequest at h
    split at h
    · rcases List.mem_append.mp h with hstopped | hresponse
      · exact absurd hstopped (notMem_ite_publish P rfl _ _ _ _)
      · exact absurd (List.mem_singleton.mp hresponse) (by simp)
    · split at h
      · exact absurd (List.mem_singleton.mp h) (by simp)
      · exact absurd (List.mem_singleton.mp h) (by simp)

end Spec

end Interface
end WtbAutoware
