import WtbAutoware.Chain.Topics
import WtbAutoware.Driver.Overflow

/-!
# Commands that are not finite

A control command may ask for an infinite velocity or steering angle, or for a NaN. The
interface clamps both. `std::clamp` compares, and takes an infinity to the end of the
range; a NaN compares with nothing, and comes out of the clamp as it went in.

`finite_iff` has both consequences. The chassis command that is published is finite and
within the limits exactly if neither component is a NaN (`withinLimits_clampCommand`);
and the driver's conversions to integers are defined for it exactly if, moreover, the
clamped values fit an `unsigned int` in mm/s and an `int` in hundredths of a degree
(`conversionsDefined_clampCommand`, in exact arithmetic), which limits of a usual size
ensure. `nan_passes` is a velocity that is not a number.
-/

namespace WtbAutoware

namespace Chain

open Reactive Driver

variable {K : Type} [Field K] [LinearOrder K] [IsStrictOrderedRing K] [FloorRing K]
  (C : Config K)

/-- The value is finite, and at most `m` in magnitude. -/
def Within (m : K) (value : Flt K) : Prop := ∃ x, value = .fin x ∧ -m ≤ x ∧ x ≤ m

/-- A chassis command with finite components within the interface's limits. -/
structure WithinLimits (c : Twist K) : Prop where
  speed : Within C.interface.maxSpeed c.linearX
  steer : Within C.interface.maxSteeringAngle c.angularZ

/-- The velocity that the driver sends for a control command, NaN aside: clamped by the
interface, and cut down to the driver's `max_speed`. -/
def sentSpeed (msg : Interface.Control K) : K :=
  min (msg.velocity.clampTo (-C.interface.maxSpeed) C.interface.maxSpeed) C.driver.maxSpeed

/-- The steering angle that it sends. -/
def sentSteering (msg : Interface.Control K) : K :=
  msg.steeringTireAngle.clampTo (-C.interface.maxSteeringAngle) C.interface.maxSteeringAngle

/-- The chassis commands that are published for an accepted control command: what the
driver gets, and converts. -/
def OnlyFinite : Prop :=
  ∀ (s : Interface.State K) (t : K) (msg : Interface.Control K),
    Interface.IsAutonomous C.msgs s.currentControlMode →
    ∀ c ∈ Interface.chassisCommands (Interface.step C.interface C.msgs s ⟨t, .controlCmd msg⟩).2,
      WithinLimits C c ∧
        ConversionsDefined C.platform (limitSpeed C.driver c.linearX) c.angularZ

omit [FloorRing K] in
/-- A clamped value is within its limit, unless it is a NaN. -/
theorem within_stdClamp_iff {m : K} (hm : 0 ≤ m) (value : Flt K) :
    Within m (stdClamp value (.fin (-m)) (.fin m)) ↔ value ≠ .nan := by
  refine ⟨?_, ?_⟩
  · rintro ⟨x, hx, -⟩ rfl
    rw [Flt.stdClamp_nan] at hx
    exact absurd hx (by simp)
  · intro hne
    obtain ⟨hlo, hhi⟩ := Flt.clampTo_bounds (neg_le_self hm) value
    exact ⟨_, Flt.stdClamp_eq_clampTo hne, hlo, hhi⟩

omit [FloorRing K] in
theorem withinLimits_clampCommand (hspeed : 0 ≤ C.interface.maxSpeed)
    (hsteer : 0 ≤ C.interface.maxSteeringAngle) (msg : Interface.Control K) :
    WithinLimits C (Interface.clampCommand C.interface msg) ↔
      msg.velocity ≠ .nan ∧ msg.steeringTireAngle ≠ .nan := by
  refine ⟨?_, ?_⟩
  · rintro ⟨hv, ha⟩
    exact ⟨(within_stdClamp_iff hspeed _).mp hv, (within_stdClamp_iff hsteer _).mp ha⟩
  · rintro ⟨hv, ha⟩
    exact ⟨(within_stdClamp_iff hspeed _).mpr hv, (within_stdClamp_iff hsteer _).mpr ha⟩

omit [IsStrictOrderedRing K] in
/-- A NaN is never converted. -/
theorem not_conversionsDefined_nan (pf : Platform K) {lineSpeed angle : Flt K}
    (h : lineSpeed = .nan ∨ angle = .nan) : ¬ ConversionsDefined pf lineSpeed angle := by
  rintro ⟨hangle, hspeed, -⟩
  rcases h with rfl | rfl
  · -- a NaN is not below 0, and goes out in gear D
    have hcmd : (akmCommand pf .nan angle).2.1 = .nan := by
      have hlt : ¬ (Flt.nan : Flt K).rounded pf.float < .fin 0 := Flt.not_nan_lt _
      unfold akmCommand
      dsimp only
      rw [if_neg hlt]
      rfl
    rw [hcmd] at hspeed
    exact hspeed
  · exact hangle

theorem conversionsDefined_clampCommand (hexact : C.platform.Exact) (msg : Interface.Control K) :
    ConversionsDefined C.platform
        (limitSpeed C.driver (Interface.clampCommand C.interface msg).linearX)
        (Interface.clampCommand C.interface msg).angularZ ↔
      (msg.velocity ≠ .nan ∧ msg.steeringTireAngle ≠ .nan) ∧
        Convertible C.platform (sentSpeed C msg) (sentSteering C msg) := by
  unfold Interface.clampCommand
  dsimp only
  by_cases hv : msg.velocity = .nan
  · have hlimit : limitSpeed C.driver (.nan : Flt K) = .nan := if_neg (Flt.not_lt_nan _)
    rw [hv, Flt.stdClamp_nan, hlimit]
    exact iff_of_false (not_conversionsDefined_nan _ (Or.inl rfl)) (fun h => h.1.1 rfl)
  · by_cases ha : msg.steeringTireAngle = .nan
    · rw [ha, Flt.stdClamp_nan]
      exact iff_of_false (not_conversionsDefined_nan _ (Or.inr rfl)) (fun h => h.1.2 rfl)
    · -- both finite by now
      rw [Flt.stdClamp_eq_clampTo hv, Flt.stdClamp_eq_clampTo ha, limitSpeed_fin,
        conversionsDefined_fin C.platform hexact]
      exact (and_iff_right ⟨hv, ha⟩).symm

/-- **What passes the interface.** For every control command that is accepted: the
published command is finite and within the limits if and only if neither component is a
NaN; and the driver's conversions, in exact arithmetic, are defined for it if and only if,
moreover, the clamped values fit the integers. -/
theorem finite_iff (hexact : C.platform.Exact) (hspeed : 0 ≤ C.interface.maxSpeed)
    (hsteer : 0 ≤ C.interface.maxSteeringAngle) (s : Interface.State K) (t : K)
    (msg : Interface.Control K)
    (hauto : Interface.IsAutonomous C.msgs s.currentControlMode) :
    ((∀ c ∈ Interface.chassisCommands
          (Interface.step C.interface C.msgs s ⟨t, .controlCmd msg⟩).2, WithinLimits C c) ↔
        msg.velocity ≠ .nan ∧ msg.steeringTireAngle ≠ .nan) ∧
      ((∀ c ∈ Interface.chassisCommands
          (Interface.step C.interface C.msgs s ⟨t, .controlCmd msg⟩).2,
          ConversionsDefined C.platform (limitSpeed C.driver c.linearX) c.angularZ) ↔
        (msg.velocity ≠ .nan ∧ msg.steeringTireAngle ≠ .nan) ∧
          Convertible C.platform (sentSpeed C msg) (sentSteering C msg)) := by
  have hsent : Interface.chassisCommands
      (Interface.step C.interface C.msgs s ⟨t, .controlCmd msg⟩).2 =
        [Interface.clampCommand C.interface msg] := by
    rw [Interface.commands_step]
    exact if_pos hauto
  rw [hsent]
  refine ⟨?_, ?_⟩
  · rw [List.forall_mem_singleton]
    exact withinLimits_clampCommand C hspeed hsteer msg
  · rw [List.forall_mem_singleton]
    exact conversionsDefined_clampCommand C hexact msg

/-- A freshly constructed interface, switched to AUTONOMOUS. -/
def switched : Interface.State ℚ :=
  { Interface.State.initial Interface.VehicleMsgs.autoware 0 with currentControlMode := 1 }

/-- In AUTONOMOUS a velocity that is not a number is published as it is. -/
theorem nan_passes : ¬ OnlyFinite Config.exact := by
  intro h
  obtain ⟨⟨hspeed, -⟩, -⟩ := h switched 0 ⟨.nan, .fin 0⟩ (Or.inl rfl) _ List.mem_cons_self
  have hmax : (0 : ℚ) ≤ 1 := zero_le_one
  exact (within_stdClamp_iff hmax .nan).mp hspeed rfl

/-- `finite_iff` at an infinite velocity: 1 m/s is published, and can be converted. -/
theorem finite_iff_infinite :
    (∀ c ∈ Interface.chassisCommands (Interface.step Config.exact.interface Config.exact.msgs
        switched ⟨0, .controlCmd ⟨.posInf, .fin 0⟩⟩).2, WithinLimits Config.exact c) ∧
      (∀ c ∈ Interface.chassisCommands (Interface.step Config.exact.interface
        Config.exact.msgs switched ⟨0, .controlCmd ⟨.posInf, .fin 0⟩⟩).2,
        ConversionsDefined Platform.ratExact (limitSpeed Config.exact.driver c.linearX)
          c.angularZ) :=
  have h := finite_iff Config.exact Platform.ratExact_exact (by decide +kernel) (by decide +kernel)
    switched 0 ⟨.posInf, .fin 0⟩ (Or.inl rfl)
  ⟨h.1.mpr ⟨by simp, by simp⟩,
    h.2.mpr ⟨⟨by simp, by simp⟩, ⟨by decide +kernel, by decide +kernel⟩⟩⟩

end Chain
end WtbAutoware
