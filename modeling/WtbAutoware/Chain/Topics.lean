import WtbAutoware.Driver.Node
import WtbAutoware.Framework.Link
import WtbAutoware.Interface.Node

/-!
# The vehicle interface and the chassis driver, linked

`VehicleInterface` publishes on `/twist_cmd` (or `/cmd_vel`) and on
`/run_static`, and `WtbCarNode` subscribes to all three. `chain` links the two
machines over these topics: what the interface publishes there is in flight until
it arrives or is lost, and in between anything may happen. The driver's other
messages (an external publisher on `/run_static`, another one on `/cmd_vel`, CAN
frames) come from outside; so do the interface's own inputs.

`Config.chassis_of_posted` and `Config.heartbeat_of_posted` say what the two kinds of messages in
flight can be: a chassis command of the step that posted it, and a heartbeat.
-/

namespace WtbAutoware
namespace Chain

open Reactive

/-- The topics from the interface to the driver. -/
def toDriver {K : Type} : Interface.Output K → Option (Driver.Event K)
  | .cmdVel cmd => some (.cmdVel cmd)
  | .twistCmd cmd => some (.twistCmd cmd)
  | .runStatic data => some (.runStatic data)
  | _ => none

theorem command_toDriver {K : Type} {o : Interface.Output K} {m : Driver.Event K}
    (h : toDriver o = some m) : m.command = o.chassisCommand := by
  cases o with
  | cmdVel cmd =>
    obtain rfl := Option.some.inj h
    rfl
  | twistCmd cmd =>
    obtain rfl := Option.some.inj h
    rfl
  | runStatic data =>
    obtain rfl := Option.some.inj h
    rfl
  | _ => exact absurd h (by simp [toDriver])

section Config

variable (K : Type) [Field K] [LinearOrder K]

/-- The two nodes: their parameters, and the times of their construction. -/
structure Config where
  interface : Interface.Params K
  msgs : Interface.VehicleMsgs
  driver : Driver.Params K
  platform : Platform K
  interfaceStart : K
  driverStart : K

/-- A run of the two nodes. -/
abbrev Run := List (LinkEvent K (Timed K (Interface.Event K)) (Driver.Event K))

/-- A state of the two nodes, with the messages in flight from the interface to
the driver. -/
abbrev State :=
  LinkState (Interface.State K) (Timed K (Interface.Event K)) (Driver.State K) (Driver.Event K)

/-- A message in flight. -/
abbrev Message := Envelope (Interface.State K) (Timed K (Interface.Event K)) (Driver.Event K)

end Config

/-- The nodes as their constructors configure them. -/
def Config.default : Config ℚ where
  interface := Interface.Params.default
  msgs := Interface.VehicleMsgs.autoware
  driver := Driver.Params.default
  platform := Platform.rat
  interfaceStart := 0
  driverStart := 0

/-- The same, in exact arithmetic. -/
def Config.exact : Config ℚ := { Config.default with platform := Platform.ratExact }

variable {K : Type} [Field K] [LinearOrder K] [IsStrictOrderedRing K] [FloorRing K]
  (C : Config K)

/-- The vehicle interface, linked to the driver. -/
def Config.chain : Link (Interface.State K) (Timed K (Interface.Event K)) (Interface.Output K)
    (Driver.State K) (Driver.Event K) (Driver.Output K) K where
  up := Interface.vehicleInterface C.interface C.msgs C.interfaceStart
  down := Driver.wtbCarNode C.driver C.platform C.driverStart
  port := toDriver

/-- The two nodes after a run. -/
abbrev Config.after (es : Run K) : State K := C.chain.machine.run es

/-- The driver's side of a run is a run of the driver. -/
theorem Config.after_down (es : Run K) :
    (C.after es).down = (Driver.wtbCarNode C.driver C.platform C.driverStart).run
      (C.chain.downEvents es) :=
  C.chain.down_run es

section Messages

variable {env : Message K}

/-- A chassis command in flight is one that its step published. -/
theorem Config.chassis_of_posted (h : env ∈ C.chain.posted env.src env.cause) {c : Twist K}
    (hc : env.msg.command = some c) :
    c ∈ Interface.chassisCommands (Interface.step C.interface C.msgs env.src env.cause).2 := by
  obtain ⟨-, -, o, ho, hport⟩ := C.chain.mem_posted h
  -- the topic does not change the command
  rw [command_toDriver hport] at hc
  exact List.mem_filterMap.mpr ⟨o, ho, hc⟩

/-- A `/run_static` message in flight is a heartbeat. -/
theorem Config.heartbeat_of_posted (h : env ∈ C.chain.posted env.src env.cause) {data : String}
    (hdata : env.msg = .runStatic data) :
    env.cause.ev = .timer ∧ data = "start" ∧ env.src.currentGear = C.msgs.gearCommand.drive := by
  obtain ⟨-, -, o, ho, hport⟩ := C.chain.mem_posted h
  rw [hdata] at hport
  -- only `/run_static` carries command strings
  have hout : o = .runStatic data := by
    cases o with
    | runStatic d => exact congrArg _ (Driver.Event.runStatic.inj (Option.some.inj hport))
    | _ => exact absurd hport (by simp [Config.chain, toDriver])
  rw [hout] at ho
  exact Interface.timer_of_runStatic C.interface C.msgs env.src env.cause ho

end Messages

end Chain
end WtbAutoware
