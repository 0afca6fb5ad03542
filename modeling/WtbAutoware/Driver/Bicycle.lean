import WtbAutoware.Driver.Heading
import WtbAutoware.Driver.Odometry

/-!
# One odometry update

A feedback frame is decoded, calibrated and integrated in one callback. `canTx_bicycle`
is the whole update: position along the old heading, heading by the yaw rate of the
bicycle model and normalised, and a twist that repeats the two rates.

Of the calibration parameters `vel_scale`, `steer_offset` and `WHEELBASE` take effect, and
`min_speed` does not: the dead band is the constant `MIN_SPEED = 0.005`. `bicycle_iff`
compares the update with the bicycle model in which `min_speed` is the dead band
(`Calibrated`). They agree exactly on the frames whose calibrated speed is zero, or on the
same side of both bounds. `minSpeed_ignored` is 0.001 m/s, which the default `min_speed`
of 0.0005 lets through and the constant does not.
-/

namespace WtbAutoware
namespace Driver

open Reactive

variable {K : Type} [Field K] [LinearOrder K] [IsStrictOrderedRing K] [FloorRing K]
  (P : Params K) (pf : Platform K)

/-! ### The update -/

/-- The steering angle of a feedback frame, in radians. -/
def feedbackAngle (msg : Frame K) : K := (parseCtrlFb msg.data : Gear × K × K).2.2 * pf.pi / 180

/-- The yaw rate of the bicycle model, at the speed `v` and an uncorrected steering
angle. -/
def yawRate (v steeringAngle : K) : K :=
  if 1 / 1000000 < |P.wheelbase| then v * pf.tan (steeringAngle - P.steerOffset) / P.wheelbase
  else 0

/-- The yaw rate that the callback derives from a feedback frame. -/
def reportedYawRate (msg : Frame K) : K :=
  yawRate P pf (reportedSpeed P msg) (feedbackAngle pf msg)

/-- From `s` to `s'` the pose moves for the interval `dt` at the speed `v` and the yaw rate
`omega`, and `out` is the odometry published for it. -/
structure BicycleStep (now v omega dt : K) (s s' : State K) (out : List (Odometry K)) : Prop where
  x : s'.x = s.x + v * pf.cos s.theta * dt
  y : s'.y = s.y + v * pf.sin s.theta * dt
  theta : s'.theta = normalizeAngle pf (s.theta + omega * dt)
  lastTime : s'.lastTime = now
  out : out = [publishOdom P pf now s'.x s'.y s'.theta v omega]

section Update

variable (now : K) (s : State K) {msg : Frame K}

theorem calculateAndPublished_bicycle {dt : K} (h : updateInterval now s = some dt) :
    BicycleStep P pf now (odomSpeed P s) (odomOmega P pf s) dt s
      (calculateAndPublished P pf now s).1
      (odometryOut (calculateAndPublished P pf now s).2) := by
  rw [calculateAndPublished_eq P pf now s h]
  exact ⟨rfl, rfl, rfl, rfl, rfl⟩

/-- **One update.** A feedback frame moves the pose by its own speed and yaw rate. -/
theorem canTx_bicycle (hid : msg.id = 0x18C4D2EF) {dt : K} (h : updateInterval now s = some dt) :
    BicycleStep P pf now (reportedSpeed P msg) (reportedYawRate P pf msg) dt s
      (canTxCallback P pf now s msg).1 (odometryOut (canTxCallback P pf now s msg).2) := by
  obtain ⟨hpose, hodom⟩ := canTx_feedback P pf now s hid
  -- the members that the frame has just overwritten do not belong to the pose
  have hsame : updateInterval now s = updateInterval now (withFeedback pf s msg) := rfl
  obtain ⟨hx, hy, htheta, htime, hout⟩ :=
    calculateAndPublished_bicycle P pf now (withFeedback pf s msg) (hsame ▸ h)
  refine ⟨hpose.x.trans hx, hpose.y.trans hy, hpose.theta.trans htheta,
    hpose.lastTime.trans htime, ?_⟩
  rw [hodom, hout, hpose.x, hpose.y, hpose.theta]
  rfl

omit [IsStrictOrderedRing K] [FloorRing K] in
theorem updateInterval_of_pos (hdt : 0 < now - s.lastTime) :
    updateInterval now s = some (min (now - s.lastTime) (1 / 10)) := by
  unfold updateInterval
  dsimp only
  rw [if_neg (not_le.mpr hdt)]
  split
  · next hcap => rw [min_eq_right hcap.le]
  · next hcap => rw [min_eq_left (not_lt.mp hcap)]

end Update

/-! ### The model -/

/-- The calibrated speed of a feedback frame. -/
def calibratedSpeed (msg : Frame K) : K := P.velScale * feedbackSpeed (parseCtrlFb msg.data)

/-- With `min_speed` as the dead band. -/
def modelSpeed (msg : Frame K) : K :=
  if |calibratedSpeed P msg| < P.minSpeed then 0 else calibratedSpeed P msg

/-- An update by the calibrated bicycle model: the pose of `s'`, and the twist that is
published. -/
structure Calibrated (v omega h : K) (s s' : State K) (out : List (Odometry K)) : Prop where
  x : s'.x = s.x + v * pf.cos s.theta * h
  y : s'.y = s.y + v * pf.sin s.theta * h
  theta_bounds : -pf.pi ≤ s'.theta ∧ s'.theta ≤ pf.pi
  theta_congr : ∃ n : ℤ, s'.theta = s.theta + omega * h + n * (2 * pf.pi)
  twist : ∃ o, out = [o] ∧ o.linearX = .fin v ∧ o.angularZ = .fin omega

/-- The update for a feedback frame is the one of the model, with its four parameters. -/
def MatchesModel (now : K) (s : State K) (msg : Frame K) : Prop :=
  Calibrated pf (modelSpeed P msg) (yawRate P pf (modelSpeed P msg) (feedbackAngle pf msg))
    (min (now - s.lastTime) (1 / 10)) s (canTxCallback P pf now s msg).1
    (odometryOut (canTxCallback P pf now s msg).2)

omit [IsStrictOrderedRing K] [FloorRing K] in
theorem reportedSpeed_eq (msg : Frame K) :
    reportedSpeed P msg =
      if |calibratedSpeed P msg| < 5 / 1000 then 0 else calibratedSpeed P msg := by
  unfold reportedSpeed calibratedSpeed
  rw [mul_comm]

omit [IsStrictOrderedRing K] [FloorRing K] in
/-- The two dead bands make the same of a speed. -/
theorem modelSpeed_eq_iff (msg : Frame K) :
    modelSpeed P msg = reportedSpeed P msg ↔
      calibratedSpeed P msg = 0 ∨
        (|calibratedSpeed P msg| < P.minSpeed ↔ |calibratedSpeed P msg| < 5 / 1000) := by
  rw [reportedSpeed_eq]
  unfold modelSpeed
  by_cases hmin : |calibratedSpeed P msg| < P.minSpeed
  · by_cases hconst : |calibratedSpeed P msg| < 5 / 1000
    · rw [if_pos hmin, if_pos hconst]
      exact iff_of_true rfl (Or.inr (iff_of_true hmin hconst))
    · -- at rest for the model only
      rw [if_pos hmin, if_neg hconst]
      refine ⟨fun h => Or.inl h.symm, ?_⟩
      rintro (hzero | hiff)
      · exact hzero.symm
      · exact absurd (hiff.mp hmin) hconst
  · by_cases hconst : |calibratedSpeed P msg| < 5 / 1000
    · -- at rest for the code only
      rw [if_neg hmin, if_pos hconst]
      refine ⟨Or.inl, ?_⟩
      rintro (hzero | hiff)
      · exact hzero
      · exact absurd (hiff.mpr hconst) hmin
    · rw [if_neg hmin, if_neg hconst]
      exact iff_of_true rfl (Or.inr (iff_of_false hmin hconst))

/-- **The update and the model.** For every state, every feedback frame and every clock
reading past the last update, whatever the parameters: the update is the one of the
bicycle model with `min_speed` as its dead band if and only if the calibrated speed is
zero, or below both or neither of `min_speed` and 0.005 in magnitude. -/
theorem bicycle_iff (now : K) (s : State K) (msg : Frame K) (hid : msg.id = 0x18C4D2EF)
    (hdt : 0 < now - s.lastTime) :
    MatchesModel P pf now s msg ↔
      calibratedSpeed P msg = 0 ∨
        (|calibratedSpeed P msg| < P.minSpeed ↔ |calibratedSpeed P msg| < 5 / 1000) := by
  rw [← modelSpeed_eq_iff]
  obtain ⟨hx, hy, htheta, -, hout⟩ :=
    canTx_bicycle P pf now s hid (updateInterval_of_pos now s hdt)
  refine ⟨?_, ?_⟩
  · rintro ⟨-, -, -, -, o, ho, hv, -⟩
    -- the twist shows the speed that was used
    obtain rfl := List.singleton_inj.mp (hout.symm.trans ho)
    exact (Flt.fin.inj hv).symm
  · intro hspeed
    unfold MatchesModel
    rw [hspeed]
    refine ⟨hx, hy, ?_, ?_, _, hout, rfl, rfl⟩
    · rw [htheta]
      exact normalizeAngle_bounds pf _
    · rw [htheta]
      exact normalizeAngle_congr pf _

/-- A feedback frame in gear D, at 0.001 m/s times `n` and with the wheels straight. -/
def crawlFrame (n : BitVec 32) : Frame ℚ where
  header := ⟨0, ""⟩
  id := 0x18C4D2EF
  isRtr := false
  isExtended := true
  isError := false
  dlc := 8
  data := ctrlBytes (gearMapping .D) n 0 0

/-- With the default parameters, 0.001 m/s is taken as rest, although `min_speed` is
0.0005. -/
theorem minSpeed_ignored :
    ¬ MatchesModel Params.default Platform.rat (1 / 10) (State.initial 0) (crawlFrame 1) := by
  rintro ⟨-, -, -, -, o, ho, hv, -⟩
  obtain ⟨-, -, -, -, hout⟩ := canTx_bicycle Params.default Platform.rat (1 / 10)
    (State.initial 0) (show (crawlFrame 1).id = 0x18C4D2EF from rfl)
    (updateInterval_of_pos _ _ (by decide +kernel))
  obtain rfl := List.singleton_inj.mp (hout.symm.trans ho)
  have hspeed := Flt.fin.inj hv
  revert hspeed
  decide +kernel

/-- `bicycle_iff` at 1 m/s, which is in neither dead band. -/
theorem bicycle_cruise :
    MatchesModel Params.default Platform.rat (1 / 10) (State.initial 0) (crawlFrame 1000) :=
  (bicycle_iff Params.default Platform.rat (1 / 10) (State.initial 0) (crawlFrame 1000) rfl
    (by decide +kernel)).mpr (Or.inr (by decide +kernel))

end Driver
end WtbAutoware
