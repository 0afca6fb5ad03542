import WtbAutoware.Chain.Accuracy

/-!
# The feedback loop and its signs

A control command goes to the chassis as a control frame; a chassis that does what
it is told echoes the fields of the frame in a feedback frame; the driver turns that
into `CarMsg` and odometry, and the interface into its reports. `LoopAgrees` says
that what comes back has the signs of the command, whatever else the nodes do in
between: the states in which they take the feedback are arbitrary.

`loopAgrees_iff` reduces the loop to the frame, and `signs_iff` the frame to the
command. The velocity comes back with its sign, as long as the driver's `max_speed`
is not negative. The steering angle does so exactly if the command does not go
backwards, or steers by less than one degree as the driver computes it: for reverse,
`SendSpeedToAKM` negates the angle along with the speed, and `can_tx_callback` turns only
the speed back. `reverse_flips_steering` is a command of -1 m/s and 0.1 rad that is
reported as -0.087 rad.
-/

namespace WtbAutoware
namespace Chain

open Reactive Driver

variable {K : Type} [Field K] [LinearOrder K] [IsStrictOrderedRing K] [FloorRing K]
  (C : Config K)

/-! ### The loop -/

/-- The feedback frame `g` echoes the gear, the speed and the steering angle of the
control frame `f`. -/
structure Echoes (f g : Frame K) : Prop where
  id : g.id = 0x18C4D2EF
  payload : SameFields g.data f.data

/-- The value is finite, and zero or of the sign of `x`. -/
def HasSign (value : Flt K) (x : K) : Prop := ∃ y, value = .fin y ∧ SameSign y x

/-- What comes back of the frame `f` has the signs of the command `(v, a)`. -/
structure LoopAgrees (v a : K) (f : Frame K) : Prop where
  /-- The speed of the `CarMsg`. -/
  speed : ∀ g, Echoes f g → ∀ s t m,
    .carMsg m ∈ (step C.driver C.platform s ⟨t, .canTx g⟩).2 → HasSign m.speed v
  /-- The steering report of any tick before the next `CarMsg`. -/
  steering : ∀ g, Echoes f g → ∀ s t m,
    .carMsg m ∈ (step C.driver C.platform s ⟨t, .canTx g⟩).2 →
    ∀ s' t₁ mid t₂ r, (∀ e ∈ mid, ∀ msg, e.ev ≠ .carStatus msg) →
      .steeringReport r ∈ (Interface.step C.interface C.msgs
        ((Interface.vehicleInterface C.interface C.msgs C.interfaceStart).runFrom
          (Interface.step C.interface C.msgs s' ⟨t₁, .carStatus m⟩).1 mid) ⟨t₂, .timer⟩).2 →
      HasSign r.steeringTireAngle a
  /-- The velocity report, unless the calibration factor is negative. -/
  velocity : 0 ≤ C.driver.velScale → ∀ g, Echoes f g → ∀ s t o,
    .odom o ∈ (step C.driver C.platform s ⟨t, .canTx g⟩).2 →
    ∀ s' t₁ r, .velocityReport r ∈ (Interface.step C.interface C.msgs s' ⟨t₁, .odom o⟩).2 →
      HasSign r.longitudinalVelocity v

/-- The velocity of a control command after both limits, the interface's clamp and
the driver's `max_speed`. -/
def sentVelocity (v : K) : K := min (clampedVelocity C v) C.driver.maxSpeed

/-- Whatever control command is in flight after the run, if it fits a control frame,
what comes back of its frames has its signs. -/
def SignsAgree (es : Run K) : Prop :=
  ∀ (i : ℕ) (t : K) (env : Message K) (v a : K), (C.after es).flight[i]? = some env →
    IsControl env v a →
    Representable C.platform (sentVelocity C v) (clampedSteering C a) →
    ∀ f ∈ frames (step C.driver C.platform (C.after es).down ⟨t, env.msg⟩).2, LoopAgrees C v a f

/-! ### From the loop to the frame -/

/-- The steering angle that the interface reports for a feedback angle in degrees. -/
def reportedSteering (deg : K) : K :=
  stdClamp (deg * C.platform.pi / 180) (-C.interface.maxSteeringAngle) C.interface.maxSteeringAngle

omit [LinearOrder K] [IsStrictOrderedRing K] [FloorRing K] in
theorem Echoes.parseCtrlFb {f g : Frame K} (h : Echoes f g) :
    (Driver.parseCtrlFb g.data : Gear × K × K) = Driver.parseCtrlFb f.data :=
  parseCtrlFb_congr h.payload

omit [Field K] [LinearOrder K] [IsStrictOrderedRing K] [FloorRing K] in
/-- There is always a frame that echoes. -/
theorem exists_echo (f : Frame K) : ∃ g, Echoes f g :=
  ⟨{ f with id := 0x18C4D2EF }, rfl, ⟨rfl, rfl, rfl, rfl, rfl⟩⟩

omit [IsStrictOrderedRing K] [FloorRing K] in
/-- The interface's report of a steering angle, after a `CarMsg` and anything but
another one. -/
theorem report_of_carMsg {m : CarMsg K} {x : K} (hangle : m.angle = .fin (x * C.platform.pi / 180))
    (s' : Interface.State K) (t₁ t₂ : K) {mid : Interface.Run K}
    (hmid : ∀ e ∈ mid, ∀ msg, e.ev ≠ .carStatus msg) (r : Interface.SteeringReport K) :
    .steeringReport r ∈ (Interface.step C.interface C.msgs
      ((Interface.vehicleInterface C.interface C.msgs C.interfaceStart).runFrom
        (Interface.step C.interface C.msgs s' ⟨t₁, .carStatus m⟩).1 mid) ⟨t₂, .timer⟩).2 ↔
      r = ⟨t₂, .fin (reportedSteering C x)⟩ := by
  rw [Interface.steeringReport_timer, Interface.latestSteeringAngle_runFrom _ _ _ _ hmid,
    Interface.latestSteeringAngle_step]
  dsimp only
  rw [hangle, Flt.stdClamp_fin]
  rfl

/-- **The loop, read off the frame.** -/
theorem loopAgrees_iff (v a : K) (f : Frame K) :
    LoopAgrees C v a f ↔
      SameSign (feedbackSpeed (parseCtrlFb f.data)) v ∧
        SameSign (reportedSteering C (parseCtrlFb f.data : Gear × K × K).2.2) a := by
  refine ⟨?_, ?_⟩
  · intro h
    obtain ⟨g, hg⟩ := exists_echo f
    -- any state will do: take the ones after construction
    obtain ⟨m, hm⟩ := exists_carMsg_canTx C.driver C.platform C.driverStart
      (Driver.State.initial C.driverStart) hg.id
    obtain ⟨hspeed, hangle⟩ := carMsg_canTx C.driver C.platform _ _ hg.id hm
    rw [hg.parseCtrlFb] at hspeed hangle
    refine ⟨?_, ?_⟩
    · obtain ⟨y, hy, hsign⟩ := h.speed g hg _ _ m hm
      rw [hspeed] at hy
      rw [Flt.fin.inj hy]
      exact hsign
    · obtain ⟨y, hy, hsign⟩ := h.steering g hg _ _ m hm
        (Interface.State.initial C.msgs C.interfaceStart) C.interfaceStart [] C.interfaceStart _
        (by simp) ((report_of_carMsg C hangle _ _ _ (by simp) _).mpr rfl)
      rw [Flt.fin.inj hy]
      exact hsign
  · rintro ⟨hspeed, hsteering⟩
    refine ⟨?_, ?_, ?_⟩
    · intro g hg s t m hm
      obtain ⟨hfin, -⟩ := carMsg_canTx C.driver C.platform t s hg.id hm
      rw [hg.parseCtrlFb] at hfin
      exact ⟨_, hfin, hspeed⟩
    · intro g hg s t m hm s' t₁ mid t₂ r hmid hr
      -- until the next `CarMsg` the interface reports the angle of this one, clamped
      obtain ⟨-, hangle⟩ := carMsg_canTx C.driver C.platform t s hg.id hm
      rw [hg.parseCtrlFb] at hangle
      rw [(report_of_carMsg C hangle s' t₁ t₂ hmid r).mp hr]
      exact ⟨_, rfl, hsteering⟩
    · intro hscale g hg s t o ho s' t₁ r hr
      have hodom := odom_canTx C.driver C.platform t s hg.id ho
      rw [hg.parseCtrlFb] at hodom
      obtain rfl : r = _ := Interface.Output.velocityReport.inj (List.mem_singleton.mp hr)
      rcases hodom with hzero | hscaled
      · -- the dead band of the odometry reports rest
        exact ⟨0, hzero, SameSign.zero_left v⟩
      · exact ⟨_, hscaled, (SameSign.mul_right _ hscale).trans hspeed⟩

/-! ### Signs -/

section Signs

variable (v a : K)

/-- The truncated angle has the sign of the command. -/
theorem sameSign_truncDegrees (hsteer : 0 ≤ C.interface.maxSteeringAngle) :
    SameSign (truncZ (floatDegrees C.platform (clampedSteering C a)) : K) a :=
  calc SameSign (truncZ (floatDegrees C.platform (clampedSteering C a)) : K)
        (floatDegrees C.platform (clampedSteering C a)) := SameSign.truncZ_left _
    SameSign _ (clampedSteering C a) := floatDegrees_sameSign C.platform _
    SameSign _ a := SameSign.stdClamp_left a hsteer

/-- So has the steering angle that is reported for it. -/
theorem sameSign_reported (hsteer : 0 ≤ C.interface.maxSteeringAngle) :
    SameSign (reportedSteering C (truncZ (floatDegrees C.platform (clampedSteering C a)) : K))
      a := by
  have hpi := C.platform.pi_pos
  calc SameSign (reportedSteering C (truncZ (floatDegrees C.platform (clampedSteering C a)) : K))
        ((truncZ (floatDegrees C.platform (clampedSteering C a)) : K) * C.platform.pi / 180) :=
        SameSign.stdClamp_left _ hsteer
    _ = (truncZ (floatDegrees C.platform (clampedSteering C a)) : K) * (C.platform.pi / 180) :=
        mul_div_assoc ..
    SameSign _ (truncZ (floatDegrees C.platform (clampedSteering C a)) : K) :=
        SameSign.mul_right _ (by positivity)
    SameSign _ a := sameSign_truncDegrees C a hsteer

/-- The negated angle has the sign of the command only if nothing is left of it. -/
theorem sameSign_reported_neg (hsteer : 0 ≤ C.interface.maxSteeringAngle) :
    SameSign (reportedSteering C (-(truncZ (floatDegrees C.platform (clampedSteering C a)) : K)))
        a ↔
      |floatDegrees C.platform (clampedSteering C a)| < 1 := by
  have hpi := C.platform.pi_pos
  refine ⟨?_, ?_⟩
  · intro h
    rw [← truncZ_eq_zero_iff, ← Int.cast_eq_zero (α := K)]
    rcases hsteer.lt_or_eq with hpos | hzero
    · -- a clamp of positive width keeps the sign of the negated angle
      refine SameSign.eq_zero_of_neg (sameSign_truncDegrees C a hsteer) ?_
      calc SameSign (-(truncZ (floatDegrees C.platform (clampedSteering C a)) : K))
            (-(truncZ (floatDegrees C.platform (clampedSteering C a)) : K) *
              (C.platform.pi / 180)) :=
            SameSign.self_mul _ (by positivity)
        _ = -(truncZ (floatDegrees C.platform (clampedSteering C a)) : K) * C.platform.pi / 180 :=
            (mul_div_assoc ..).symm
        SameSign _ (reportedSteering C
            (-(truncZ (floatDegrees C.platform (clampedSteering C a)) : K))) :=
            SameSign.stdClamp_right _ hpos
        SameSign _ a := h
    · -- and one of width 0 leaves no angle at all
      have hclamp : clampedSteering C a = 0 := by
        rw [clampedSteering, ← hzero, neg_zero]
        exact le_antisymm (stdClamp_le (le_refl 0)) (le_stdClamp (le_refl 0))
      rw [hclamp, floatDegrees, Rounding.round_zero, zero_mul, Rounding.round_zero, zero_div,
        truncZ_zero, Int.cast_zero]
  · intro h
    -- less than one degree: the frame carries 0, which has every sign
    rw [truncZ_eq_zero_iff.mpr h, Int.cast_zero, neg_zero, reportedSteering, zero_mul, zero_div]
    exact (SameSign.stdClamp_left 0 hsteer).trans (SameSign.zero_left a)

/-- The speed that the driver reads back has the sign of the command, unless the
driver's limit has turned it around. -/
theorem sameSign_speed_iff (hspeed : 0 ≤ C.interface.maxSpeed) :
    SameSign ((truncZ (wireSpeed C.platform (sentVelocity C v)) : K) / 1000) v ↔
      (wireSpeed C.platform (sentVelocity C v) ≤ -1 → v < 0) := by
  have hread : SameSign ((truncZ (wireSpeed C.platform (sentVelocity C v)) : K) / 1000)
      (truncZ (wireSpeed C.platform (sentVelocity C v)) : K) := by
    rw [div_eq_mul_inv]
    exact SameSign.mul_right _ (by positivity)
  refine ⟨?_, ?_⟩
  · intro h hback
    -- a sent speed of -0.001 m/s or less is read back below zero
    have hmono : truncZ (wireSpeed C.platform (sentVelocity C v)) ≤ truncZ (((-1 : ℤ) : K)) := by
      refine truncZ_mono ?_
      push_cast
      linarith
    rw [truncZ_intCast] at hmono
    have hneg : (truncZ (wireSpeed C.platform (sentVelocity C v)) : K) < 0 := by
      exact_mod_cast hmono.trans_lt (by decide)
    exact h.2 (div_neg_of_neg_of_pos hneg (by norm_num))
  · intro h
    refine ⟨?_, ?_⟩
    · intro hpos
      -- a positive speed is below both limits
      have hsent : 0 < sentVelocity C v := by
        by_contra hle
        have hback := wireSpeed_nonpos C.platform (C.platform.float.round_nonpos (not_lt.mp hle))
        exact absurd ((hread.trans (SameSign.truncZ_left _)).1 hpos) (not_lt.mpr hback)
      exact (SameSign.stdClamp_left v hspeed).1 (hsent.trans_le (min_le_left _ _))
    · intro hneg
      refine h ?_
      -- below zero after truncation, so at least one whole unit below
      have hlt : truncZ (wireSpeed C.platform (sentVelocity C v)) < 0 := by
        exact_mod_cast hread.2 hneg
      exact le_neg_one_of_truncZ_neg hlt

end Signs

/-- **The signs of the feedback loop.** After every run, for every control command in
flight that fits a control frame: what comes back has the signs of the command if and
only if the driver's limit does not send it backwards of its own accord, and it goes
forwards, or its clamped steering angle is less than one degree in magnitude. The speed
and the degrees are those that the driver computes, in `float`. -/
theorem signs_iff (hspeed : 0 ≤ C.interface.maxSpeed) (hsteer : 0 ≤ C.interface.maxSteeringAngle)
    (htwist : C.interface.publishTwistCmd = true)
    (es : Run K) (i : ℕ) (t : K) (env : Message K) (v a : K)
    (henv : (C.after es).flight[i]? = some env) (hctrl : IsControl env v a)
    (hrep : Representable C.platform (sentVelocity C v) (clampedSteering C a)) :
    (∀ f ∈ frames (step C.driver C.platform (C.after es).down ⟨t, env.msg⟩).2,
        LoopAgrees C v a f) ↔
      (wireSpeed C.platform (sentVelocity C v) ≤ -1 → v < 0) ∧
        (0 ≤ C.platform.float (sentVelocity C v) ∨
          |floatDegrees C.platform (clampedSteering C a)| < 1) := by
  have hmsg := msg_of_control C (List.mem_of_getElem? henv) hctrl htwist
  -- every frame of the command decodes alike, whatever its counter
  have hloop (c : BitVec 8) : LoopAgrees C v a (akmFrame C.platform t c
      (limitSpeed C.driver (.fin (clampedVelocity C v))) (.fin (clampedSteering C a))) ↔
      (wireSpeed C.platform (sentVelocity C v) ≤ -1 → v < 0) ∧
        (0 ≤ C.platform.float (sentVelocity C v) ∨
          |floatDegrees C.platform (clampedSteering C a)| < 1) := by
    rw [limitSpeed_fin, ← sentVelocity, loopAgrees_iff, feedbackSpeed_akmFrame hrep,
      parseCtrlFb_akmFrame hrep, sameSign_speed_iff C v hspeed]
    dsimp only
    refine and_congr_right fun _ => ?_
    by_cases hneg : C.platform.float (sentVelocity C v) < 0
    · -- backwards: the frame carries the negated angle
      rw [if_pos hneg, sameSign_reported_neg C a hsteer, or_iff_right (not_le.mpr hneg)]
    · rw [if_neg hneg]
      exact iff_of_true (sameSign_reported C a hsteer) (Or.inl (not_lt.mp hneg))
  rw [hmsg]
  exact forall_frames_twistCmd C.driver C.platform _ hloop

/-! ### A sign that is lost -/

/-- AUTONOMOUS, and a control command of -1 m/s and 0.1 rad. -/
def reverseSteerRun : Run ℚ :=
  [.up ⟨0, .controlModeRequest 1⟩, .up ⟨1, .controlCmd ⟨.fin (-1), .fin (1 / 10)⟩⟩]

/-- With the default parameters the steering angle of `reverseSteerRun` comes back
with the opposite sign. -/
theorem reverse_flips_steering : ¬ SignsAgree Config.default reverseSteerRun := by
  intro h
  have hloop := h 0 1 _ (-1) (1 / 10) rfl rfl ⟨by decide +kernel, by decide +kernel⟩ _
    List.mem_cons_self
  obtain ⟨-, hsteering⟩ := (loopAgrees_iff Config.default _ _ _).mp hloop
  -- 5° to the other side
  exact absurd (hsteering.2 (by decide +kernel)) (by norm_num)

/-- `signs_iff` at the command of `reverseSteerRun`. -/
theorem signs_iff_reverse :
    ∃ env, (Config.default.after reverseSteerRun).flight[0]? = some env ∧
      ((∀ f ∈ frames (step Config.default.driver Config.default.platform
          (Config.default.after reverseSteerRun).down ⟨1, env.msg⟩).2,
          LoopAgrees Config.default (-1) (1 / 10) f) ↔
        (wireSpeed Platform.rat (sentVelocity Config.default (-1)) ≤ -1 → (-1 : ℚ) < 0) ∧
          (0 ≤ Platform.rat.float (sentVelocity Config.default (-1)) ∨
            |floatDegrees Platform.rat (clampedSteering Config.default (1 / 10))| < 1)) :=
  ⟨_, rfl, signs_iff Config.default (by decide +kernel) (by decide +kernel) rfl
    reverseSteerRun 0 1 _ (-1) (1 / 10) rfl rfl ⟨by decide +kernel, by decide +kernel⟩⟩

end Chain
end WtbAutoware
