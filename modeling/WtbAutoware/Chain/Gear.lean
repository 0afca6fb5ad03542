import WtbAutoware.Chain.Topics
import WtbAutoware.Driver.Wire

/-!
# Gear discipline

What the gear of the vehicle interface says about the frames that its chassis commands
become. `GearLaw` is the law of one frame under a gear: no motion in PARK and NEUTRAL,
none in gear R under DRIVE, none in gear D under REVERSE. `GearDiscipline` asks it of
every chassis command of a run that the driver handles, under the gear of the interface
at that moment, whatever the delay.

Two things are missing in the code. `onControlCmd` does not look at `current_gear_`, and
the driver picks its gear from the sign of the velocity (`frameGear_akmFrame`), so a
command of 1 m/s in PARK drives; and `onGearCmd` stops the car in PARK and NEUTRAL with
one zero command, which a command that is still on its way overtakes (`park_drives`).

`gear_discipline` has the law in every run in which neither happens (`InputAgrees`): the
control commands that are accepted agree with the gear, and a change of gear finds none in
flight that does not agree with the new one. The invariant is that the chassis commands in
flight agree with the gear of the interface (`FlightAgrees`).
-/

namespace WtbAutoware
namespace Chain

open Reactive

variable {K : Type} [Field K] [LinearOrder K] [IsStrictOrderedRing K] [FloorRing K]
  (C : Config K)

/-! ### The laws -/

/-- What a frame may do under a gear. -/
structure GearLaw (gear : BitVec 8) (f : Frame K) : Prop where
  standstill : gear = C.msgs.gearCommand.park ∨ gear = C.msgs.gearCommand.neutral →
    Driver.speedField f = 0
  drive : gear = C.msgs.gearCommand.drive → Driver.frameGear f = .R → Driver.speedField f = 0
  reverse : gear = C.msgs.gearCommand.reverse → Driver.frameGear f = .D → Driver.speedField f = 0

/-- Every frame that a chassis command of the interface becomes obeys the gear that the
interface has when the driver handles the command. -/
def GearDiscipline (es : Run K) : Prop :=
  ∀ pre i t post env, es = pre ++ .deliver i t :: post → (C.after pre).flight[i]? = some env →
    (∃ c, env.msg.command = some c) →
    ∀ f ∈ Driver.frames (Driver.step C.driver C.platform (C.after pre).down ⟨t, env.msg⟩).2,
      GearLaw C (C.after pre).up.currentGear f

/-- The wire speed of a velocity, cut down to the driver's `max_speed`. -/
def limitedWireSpeed (v : K) : K := Driver.wireSpeed C.platform (min v C.driver.maxSpeed)

/-- A velocity that agrees with a gear, up to one unit of the wire. -/
structure VelocityAgrees (gear : BitVec 8) (v : K) : Prop where
  standstill : gear = C.msgs.gearCommand.park ∨ gear = C.msgs.gearCommand.neutral →
    |limitedWireSpeed C v| < 1
  drive : gear = C.msgs.gearCommand.drive → -1 < limitedWireSpeed C v
  reverse : gear = C.msgs.gearCommand.reverse → limitedWireSpeed C v < 1

/-- A chassis command with a finite velocity that agrees with a gear. -/
def CommandAgrees (gear : BitVec 8) (c : Twist K) : Prop :=
  ∃ v, c.linearX = .fin v ∧ VelocityAgrees C gear v

/-- What is asked of the inputs of the interface, in front of the event `e`. -/
structure InputAgrees (pre : Run K)
    (e : LinkEvent K (Timed K (Interface.Event K)) (Driver.Event K)) : Prop where
  /-- A control command that is accepted agrees, once it is clamped, with the gear. -/
  control : ∀ t msg, e = .up ⟨t, .controlCmd msg⟩ →
    Interface.IsAutonomous C.msgs (C.after pre).up.currentControlMode →
    CommandAgrees C (C.after pre).up.currentGear (Interface.clampCommand C.interface msg)
  /-- The chassis commands in flight agree with a new gear. -/
  gear : ∀ t gear, e = .up ⟨t, .gearCmd gear⟩ → gear ≠ (C.after pre).up.currentGear →
    ∀ env ∈ (C.after pre).flight, ∀ c, env.msg.command = some c → CommandAgrees C gear c

/-! ### One command -/

/-- The frames of a command that agrees with a gear obey it. -/
theorem gearLaw_akmFrame {gear : BitVec 8} {v : K} (h : VelocityAgrees C gear v) (now : K)
    (k : BitVec 8) (angle : Flt K) :
    GearLaw C gear (Driver.akmFrame C.platform now k
      (Driver.limitSpeed C.driver (.fin v)) angle) := by
  rw [Driver.limitSpeed_fin]
  have hgear := Driver.frameGear_akmFrame_fin C.platform now k (min v C.driver.maxSpeed) angle
  have hzero (hsmall : |limitedWireSpeed C v| < 1) : Driver.speedField
      (Driver.akmFrame C.platform now k (.fin (min v C.driver.maxSpeed)) angle) = 0 :=
    Driver.speedField_of_small C.platform hsmall now k angle
  refine ⟨?_, ?_, ?_⟩
  · intro hg
    exact hzero (h.standstill hg)
  · -- gear R is that of a negative speed, which DRIVE leaves less than a unit
    intro hg hR
    have hneg : C.platform.float (min v C.driver.maxSpeed) < 0 := by
      by_contra hnonneg
      rw [hgear, if_neg hnonneg] at hR
      exact absurd hR (by decide)
    have hle : limitedWireSpeed C v ≤ 0 := Driver.wireSpeed_nonpos C.platform hneg.le
    exact hzero (abs_lt.mpr ⟨h.drive hg, hle.trans_lt one_pos⟩)
  · intro hg hD
    have hnonneg : ¬ C.platform.float (min v C.driver.maxSpeed) < 0 := by
      intro hneg
      rw [hgear, if_pos hneg] at hD
      exact absurd hD (by decide)
    have hle : 0 ≤ limitedWireSpeed C v := Driver.wireSpeed_nonneg C.platform (not_lt.mp hnonneg)
    exact hzero (abs_lt.mpr ⟨(neg_neg_of_pos one_pos).trans_le hle, h.reverse hg⟩)

omit [FloorRing K] in
/-- A stop command agrees with every gear. -/
theorem commandAgrees_zeroTwist (hmax : 0 ≤ C.driver.maxSpeed) (gear : BitVec 8) :
    CommandAgrees C gear Interface.zeroTwist := by
  have hzero : limitedWireSpeed C 0 = 0 := by
    rw [limitedWireSpeed, min_eq_left hmax, Driver.wireSpeed, Rounding.round_zero, mul_zero,
      Rounding.round_zero]
  refine ⟨0, rfl, ?_, ?_, ?_⟩
  · intro _
    rw [hzero, abs_zero]
    exact one_pos
  · intro _
    rw [hzero]
    exact neg_neg_of_pos one_pos
  · intro _
    rw [hzero]
    exact one_pos

/-! ### Runs -/

/-- The chassis commands in flight agree with the gear of the interface. -/
def FlightAgrees (s : State K) : Prop :=
  ∀ env ∈ s.flight, ∀ c, env.msg.command = some c → CommandAgrees C s.up.currentGear c

/-- What a step of the interface puts in flight agrees with the gear that it leaves. -/
theorem commandAgrees_posted (hmax : 0 ≤ C.driver.maxSpeed) {pre : Run K}
    {e : Timed K (Interface.Event K)} (h : InputAgrees C pre (.up e)) {env : Message K}
    (henv : env ∈ C.chain.posted (C.after pre).up e) {c : Twist K}
    (hc : env.msg.command = some c) :
    CommandAgrees C (C.chain.up.next (C.after pre).up e).currentGear c := by
  obtain ⟨hsrc, hcause, -⟩ := C.chain.mem_posted henv
  rw [← hsrc, ← hcause] at henv
  have hmem := C.chassis_of_posted henv hc
  rw [hsrc, hcause] at hmem
  by_cases hzero : c = Interface.zeroTwist
  · rw [hzero]
    exact commandAgrees_zeroTwist C hmax _
  · -- a nonzero command is a control command, and that leaves the gear alone
    obtain ⟨msg, hev, hauto, rfl⟩ :=
      Interface.controlCmd_of_nonzero C.interface C.msgs _ e hmem hzero
    obtain ⟨t, ev⟩ := e
    obtain rfl : ev = .controlCmd msg := hev
    have hgear :=
      Interface.currentGear_step C.interface C.msgs (C.after pre).up ⟨t, .controlCmd msg⟩
    change CommandAgrees C (Interface.step C.interface C.msgs (C.after pre).up _).1.currentGear _
    rw [hgear]
    exact h.control t msg rfl hauto

/-- **One step of the linked nodes.** A gear command that changes the gear is met by its
condition; every other event leaves the gear as it is. -/
theorem flightAgrees_concat (hmax : 0 ≤ C.driver.maxSpeed) {pre : Run K}
    {e : LinkEvent K (Timed K (Interface.Event K)) (Driver.Event K)} (h : InputAgrees C pre e)
    (hpre : FlightAgrees C (C.after pre)) : FlightAgrees C (C.after (pre ++ [e])) := by
  intro env henv c hc
  rw [Config.after, Machine.run_concat] at henv ⊢
  rw [C.chain.up_next]
  rcases C.chain.mem_flight_next _ e henv with hold | ⟨e', rfl, hnew⟩
  · have hagrees := hpre env hold c hc
    cases e with
    | up e' =>
      obtain ⟨t, ev⟩ := e'
      change CommandAgrees C
        (Interface.step C.interface C.msgs (C.after pre).up ⟨t, ev⟩).1.currentGear c
      rw [Interface.currentGear_step]
      cases ev with
      | gearCmd gear =>
        by_cases hsame : gear = (C.after pre).up.currentGear
        · rw [hsame]
          exact hagrees
        · exact h.gear t gear rfl hsame env hold c hc
      | _ => exact hagrees
    | _ => exact hagrees
  · exact commandAgrees_posted C hmax h hnew hc

/-- **The commands in flight agree with the gear.** -/
theorem flightAgrees_run (hmax : 0 ≤ C.driver.maxSpeed) {es : Run K}
    (h : Each (InputAgrees C) es) : FlightAgrees C (C.after es) := by
  refine run_induction (I := fun es => FlightAgrees C (C.after es)) ?_ ?_ h
  · -- at the start there are none
    intro env henv
    exact absurd henv List.not_mem_nil
  · intro es e _ hes he
    exact flightAgrees_concat C hmax he hes

/-- **Gear discipline.** In every run of the two nodes whose accepted control commands
agree with the gear, and whose changes of gear find no command in flight that does not
agree with the new one, every frame that comes of a chassis command of the interface obeys
the gear that the interface has when the driver handles the command. -/
theorem gear_discipline (hmax : 0 ≤ C.driver.maxSpeed) {es : Run K}
    (hinputs : Each (InputAgrees C) es) : GearDiscipline C es := by
  rintro pre i t post env hes henv ⟨c, hc⟩ f hf
  have hpre : Each (InputAgrees C) pre := Each.left (hes ▸ hinputs)
  obtain ⟨v, hv, hagrees⟩ :=
    flightAgrees_run C hmax hpre env (List.mem_of_getElem? henv) c hc
  -- the frame is one of the command's, with some counter
  obtain ⟨k, rfl⟩ := Driver.frame_of_command C.driver C.platform (C.after pre).down hc hf
  rw [hv]
  exact gearLaw_akmFrame C hagrees t k c.angularZ

/-! ### Commands that do not agree -/

/-- AUTONOMOUS, PARK, and a control command of 1 m/s, delivered. -/
def parkRun : Run ℚ :=
  [.up ⟨0, .controlModeRequest 1⟩, .up ⟨0, .gearCmd 22⟩, .up ⟨1, .controlCmd ⟨.fin 1, .fin 0⟩⟩,
    .deliver 1 1]

/-- AUTONOMOUS, DRIVE, a control command of 1 m/s, and PARK while it is in flight. -/
def overtakenRun : Run ℚ :=
  [.up ⟨0, .controlModeRequest 1⟩, .up ⟨0, .gearCmd 2⟩, .up ⟨1, .controlCmd ⟨.fin 1, .fin 0⟩⟩,
    .up ⟨1, .gearCmd 22⟩, .deliver 0 2]

/-- With the default parameters the car drives in PARK: on a command that is given in PARK,
and on one that is still in flight when the gear changes. -/
theorem park_drives :
    ¬ GearDiscipline Config.default parkRun ∧ ¬ GearDiscipline Config.default overtakenRun := by
  refine ⟨?_, ?_⟩
  · intro h
    have hlaw := h [.up ⟨0, .controlModeRequest 1⟩, .up ⟨0, .gearCmd 22⟩,
      .up ⟨1, .controlCmd ⟨.fin 1, .fin 0⟩⟩] 1 1 [] _ rfl rfl ⟨_, rfl⟩ _ List.mem_cons_self
    exact absurd (hlaw.standstill (Or.inl (by decide +kernel))) (by decide +kernel)
  · intro h
    have hlaw := h [.up ⟨0, .controlModeRequest 1⟩, .up ⟨0, .gearCmd 2⟩,
      .up ⟨1, .controlCmd ⟨.fin 1, .fin 0⟩⟩, .up ⟨1, .gearCmd 22⟩] 0 2 [] _ rfl rfl ⟨_, rfl⟩ _
      List.mem_cons_self
    exact absurd (hlaw.standstill (Or.inl (by decide +kernel))) (by decide +kernel)

/-- AUTONOMOUS, REVERSE, a control command of -1 m/s, which arrives, and then PARK, whose
zero command arrives as well. -/
def reverseRun : Run ℚ :=
  [.up ⟨0, .controlModeRequest 1⟩, .up ⟨0, .gearCmd 20⟩, .up ⟨1, .controlCmd ⟨.fin (-1), .fin 0⟩⟩,
    .deliver 0 1, .up ⟨2, .gearCmd 22⟩, .deliver 0 2]

/-- `gear_discipline` on `reverseRun`. -/
theorem gear_discipline_reverse : GearDiscipline Config.default reverseRun := by
  refine gear_discipline Config.default (by decide +kernel) (each_iff_getElem.mpr ?_)
  intro i hi
  match i, hi with
  | 0, _ => exact ⟨fun _ _ h => absurd h (by simp [reverseRun]),
      fun _ _ h => absurd h (by simp [reverseRun])⟩
  | 1, _ =>
    refine ⟨fun _ _ h => absurd h (by simp [reverseRun]), ?_⟩
    -- nothing is in flight yet
    intro _ _ _ _ env henv
    exact absurd henv List.not_mem_nil
  | 2, _ =>
    refine ⟨?_, fun _ _ h => absurd h (by simp [reverseRun])⟩
    intro t msg hmsg _
    obtain ⟨-, rfl⟩ : (1 : ℚ) = t ∧ ⟨.fin (-1), .fin 0⟩ = msg := by
      simpa [reverseRun] using hmsg
    exact ⟨-1, by decide +kernel, by decide +kernel, by decide +kernel, by decide +kernel⟩
  | 3, _ => exact ⟨fun _ _ h => absurd h (by simp [reverseRun]),
      fun _ _ h => absurd h (by simp [reverseRun])⟩
  | 4, _ =>
    refine ⟨fun _ _ h => absurd h (by simp [reverseRun]), ?_⟩
    -- the command in reverse has arrived
    intro _ _ _ _ env henv
    exact absurd henv List.not_mem_nil
  | 5, _ => exact ⟨fun _ _ h => absurd h (by simp [reverseRun]),
      fun _ _ h => absurd h (by simp [reverseRun])⟩

end Chain
end WtbAutoware
