import Mathlib.Analysis.SpecialFunctions.Trigonometric.Arctan
import WtbAutoware.Chain.Feedback
import WtbAutoware.DriverOnly.Node

/-!
# To which side the vehicle turns

On `/twist_cmd`, `wtb_car_only` takes `angular.z` for a yaw rate. The sign of the steering
angle is decided three times on the way to the chassis and back: by the ratio and the
arctangent of `angz_to_angle`, by the reverse branch of `SendSpeedToAKM`, and by the speed
that `can_tx_callback` signs after the gear.

`sameSign_sentAngle` is the sign of the steering angle that is sent, and
`sameSign_yawRate_of_nonneg` and `sameSign_neg_yawRate` are the signs of the yaw rate that
an echo of it leads to. `yaw_iff` puts them together. Forwards the yaw rate is zero or has the sign
that was asked for. Backwards it has the other sign, unless it is zero: with the ratio,
the angle is right for a vehicle that moves backwards, and the sender negates it once
more. `reverse_turns_away` is a yaw rate of 2 rad/s at -1 m/s.
-/

namespace WtbAutoware
namespace DriverOnly

open Reactive Chain
open Driver (Gear Representable akmFrame feedbackSpeed feedbackSpeed_akmFrame floatDegrees
  floatDegrees_sameSign nextAlive parseCtrlFb parseCtrlFb_akmFrame wireSpeed wireSpeed_nonneg
  wireSpeed_nonpos)

/-! ### Signs of angles -/

theorem sameSign_arctan (x : ℝ) : SameSign (Real.arctan x) x :=
  ⟨Real.arctan_pos.mp, Real.arctan_lt_zero.mp⟩

/-- Within a quarter turn, a tangent has the sign of its angle. -/
theorem sameSign_tan {x : ℝ} (hx : |x| < Real.pi / 2) : SameSign (Real.tan x) x := by
  obtain ⟨hlo, hhi⟩ := abs_lt.mp hx
  refine ⟨?_, ?_⟩
  · intro htan
    by_contra hneg
    exact absurd htan (not_lt.mpr (Real.tan_nonpos_of_nonpos_of_neg_pi_div_two_le
      (not_lt.mp hneg) hlo.le))
  · intro htan
    by_contra hpos
    exact absurd htan (not_lt.mpr (Real.tan_nonneg_of_nonneg_of_le_pi_div_two
      (not_lt.mp hpos) hhi.le))

/-- And is zero with it only. -/
theorem tan_eq_zero_iff_of_abs_lt {x : ℝ} (hx : |x| < Real.pi / 2) : Real.tan x = 0 ↔ x = 0 := by
  obtain ⟨hlo, hhi⟩ := abs_lt.mp hx
  refine ⟨?_, ?_⟩
  · intro htan
    rcases lt_trichotomy x 0 with hneg | hzero | hpos
    · exact absurd htan (Real.tan_neg_of_neg_of_pi_div_two_lt hneg hlo).ne
    · exact hzero
    · exact absurd htan (Real.tan_pos_of_pos_of_lt_pi_div_two hpos hhi).ne'
  · rintro rfl
    exact Real.tan_zero

/-! ### The command -/

section Command

variable (undefUInt undefInt : Flt ℝ → BitVec 32)

/-- The arctangent of the ratio has the sign of the quotient that the ratio stands for. -/
theorem sameSign_atanRatio (pf : Platform ℝ) {R side : ℝ} (hside : side ≠ 0)
    (hR : SameSign R side) : SameSign (atanRatio pf Real.arctan R side) side := by
  have hpi := pf.pi_pos
  unfold atanRatio
  split
  · -- an underflow keeps the sign
    split
    · next hpos => exact ⟨fun _ => hpos, fun hneg => by linarith⟩
    · next hpos =>
      exact ⟨fun h => by linarith, fun _ => lt_of_le_of_ne (not_lt.mp hpos) hside⟩
  · next hzero =>
    have hbase : (0 : ℝ) < whellbase := by norm_num [whellbase]
    exact ((sameSign_arctan _).trans (SameSign.const_div R hbase)).trans hR

/-- It is less than two. -/
theorem abs_atanRatio_le (R side : ℝ) :
    |atanRatio (Platform.real undefUInt undefInt) Real.arctan R side| ≤ 2 := by
  have hpi := Real.pi_lt_d2
  have hquarter : (Platform.real undefUInt undefInt).pi / 2 ≤ 2 := by
    change (884279719003555 / 281474976710656 : ℝ) / 2 ≤ 2
    norm_num
  have hpos := (Platform.real undefUInt undefInt).pi_pos
  unfold atanRatio
  rw [abs_le]
  split
  · split <;> constructor <;> linarith
  · refine ⟨?_, ?_⟩
    · linarith [Real.neg_pi_div_two_lt_arctan (whellbase / R)]
    · linarith [Real.arctan_lt_pi_div_two (whellbase / R)]

/-- The steering angle has the sign of the yaw rate forwards, and the other one backwards. -/
theorem sameSign_angzToAngle (pf : Platform ℝ) (vx vz : ℝ) :
    (0 ≤ pf.float vx → SameSign (angzToAngleFin pf Real.arctan vx vz) vz) ∧
      (pf.float vx < 0 → SameSign (-angzToAngleFin pf Real.arctan vx vz) vz) := by
  unfold angzToAngleFin
  dsimp only
  by_cases hzero : pf.float vx = 0 ∨ pf.float vz = 0
  · rw [if_pos hzero, neg_zero]
    exact ⟨fun _ => SameSign.zero_left vz, fun _ => SameSign.zero_left vz⟩
  · rw [if_neg hzero]
    obtain ⟨hvx, hvz⟩ := not_or.mp hzero
    have hangle : SameSign (pf.float (7 / 10 * atanRatio pf Real.arctan
        (pf.float (pf.float vx / pf.float vz)) (pf.float vx / pf.float vz)))
        (pf.float vx / pf.float vz) := by
      have hturn := sameSign_atanRatio pf (div_ne_zero hvx hvz)
        (pf.float.sameSign (pf.float vx / pf.float vz))
      refine (pf.float.sameSign _).trans (SameSign.trans ?_ hturn)
      rw [mul_comm]
      exact SameSign.mul_right _ (by norm_num)
    refine ⟨?_, ?_⟩
    · intro hforth
      have hpos : 0 < pf.float vx := lt_of_le_of_ne hforth (Ne.symm hvx)
      exact (hangle.trans (SameSign.const_div _ hpos)).trans (pf.float.sameSign vz)
    · intro hback
      -- the ratio has turned the sign around
      have hturned : SameSign (-(pf.float vx / pf.float vz)) (pf.float vz) := by
        rw [← neg_div]
        exact SameSign.const_div _ (neg_pos.mpr hback)
      exact (hangle.neg.trans hturned).trans (pf.float.sameSign vz)

/-- Every such angle is far inside the field of a control frame. -/
theorem representable_angzToAngle {vx : ℝ}
    (henc : |wireSpeed (Platform.real undefUInt undefInt) vx| < 65536) (vz : ℝ) :
    Representable (Platform.real undefUInt undefInt) vx
      (angzToAngleFin (Platform.real undefUInt undefInt) Real.arctan vx vz) := by
  refine ⟨henc, ?_⟩
  set pf := Platform.real undefUInt undefInt with hpf
  -- narrowing takes nothing across a whole number
  have hround {x : ℝ} {n : ℕ} (hn : n < 2 ^ 24) (hx : |x| ≤ n) : |pf.float x| ≤ n := by
    have hself : pf.float (n : ℝ) = n := by
      rw [← Int.cast_natCast]
      exact pf.float.intCast n (by rw [Nat.abs_cast]; exact_mod_cast hn)
    rw [← pf.float.round_abs]
    exact pf.float.round_le_of_le hself hx
  have hangle : |angzToAngleFin pf Real.arctan vx vz| ≤ (2 : ℕ) := by
    unfold angzToAngleFin
    dsimp only
    split
    · rw [abs_zero]
      norm_num
    · refine hround (by norm_num) ?_
      have hturn := abs_atanRatio_le undefUInt undefInt
        (pf.float (pf.float vx / pf.float vz)) (pf.float vx / pf.float vz)
      rw [abs_mul, abs_of_pos (by norm_num : (0 : ℝ) < 7 / 10)]
      push_cast
      linarith
  have hdeg : |pf.float (pf.float (angzToAngleFin pf Real.arctan vx vz) * 180)| ≤ (360 : ℕ) := by
    refine hround (by norm_num) ?_
    have htwo := hround (by norm_num) hangle
    rw [abs_mul, abs_of_pos (by norm_num : (0 : ℝ) < 180)]
    push_cast at htwo ⊢
    linarith
  have hpi : (3 : ℝ) < pf.pi := by
    change (3 : ℝ) < 884279719003555 / 281474976710656
    norm_num
  rw [floatDegrees, abs_div, abs_of_pos pf.pi_pos, div_lt_iff₀ pf.pi_pos]
  push_cast at hdeg
  linarith

end Command

/-! ### The yaw rate of a feedback frame -/

section Feedback

variable (Q : Params ℝ) (pf : Platform ℝ)

/-- The speed of decoded feedback, calibrated, and 0 in the dead band. -/
noncomputable def fedBackSpeed (fb : Gear × ℝ × ℝ) : ℝ :=
  if |feedbackSpeed fb * Q.velScale| < 5 / 1000 then 0 else feedbackSpeed fb * Q.velScale

/-- The yaw rate that `CalculateAndPublished` derives from decoded feedback. -/
noncomputable def fedBackYawRate (fb : Gear × ℝ × ℝ) : ℝ :=
  if 1 / 1000000 < |Q.wheelbase| then
    fedBackSpeed Q fb * pf.tan (correctedAngle Q pf (fb.2.2 * pf.pi / 180)) / Q.wheelbase
  else 0

/-- The odometry of whatever echoes the frame reports no yaw rate, or one to the side of
`vz`. -/
def TurnsWith (vz : ℝ) (f : Frame ℝ) : Prop :=
  ∀ g, Echoes f g → ∀ s t o, .odom o ∈ (step Q pf Real.arctan s ⟨t, .canTx g⟩).2 →
    HasSign o.angularZ vz

variable (t : ℝ) (s : State ℝ) {msg : Frame ℝ}

theorem odom_canTx (hid : msg.id = 0x18C4D2EF) {o : Odometry ℝ}
    (h : .odom o ∈ (canTxCallback Q pf t s msg).2) :
    o.angularZ = .fin (fedBackYawRate Q pf (parseCtrlFb msg.data)) := by
  unfold canTxCallback at h
  rw [if_pos hid] at h
  dsimp only at h
  by_cases ht : 0 < t - s.lastTime
  · rw [calculateAndPublished_eq] at h
    · obtain rfl := Output.odom.inj (List.mem_singleton.mp h)
      rfl
    · exact ht
  · rw [calculateAndPublished_skip] at h
    · exact absurd h List.not_mem_nil
    · exact not_lt.mp ht

theorem exists_odom_canTx (hid : msg.id = 0x18C4D2EF) (ht : 0 < t - s.lastTime) :
    ∃ o, .odom o ∈ (canTxCallback Q pf t s msg).2 := by
  unfold canTxCallback
  rw [if_pos hid]
  dsimp only
  rw [calculateAndPublished_eq]
  · exact ⟨_, List.mem_singleton.mpr rfl⟩
  · exact ht

/-- **The loop, read off the frame.** -/
theorem turnsWith_iff (vz : ℝ) (f : Frame ℝ) :
    TurnsWith Q pf vz f ↔ SameSign (fedBackYawRate Q pf (parseCtrlFb f.data)) vz := by
  refine ⟨?_, ?_⟩
  · intro h
    obtain ⟨g, hg⟩ := exists_echo f
    -- any state will do, if time has passed
    have ht : (0 : ℝ) < 1 - (State.initial (0 : ℝ)).lastTime := by
      change (0 : ℝ) < 1 - 0
      norm_num
    obtain ⟨o, ho⟩ := exists_odom_canTx Q pf 1 (State.initial 0) hg.id ht
    obtain ⟨y, hy, hsign⟩ := h g hg _ _ o ho
    rw [odom_canTx Q pf _ _ hg.id ho, hg.parseCtrlFb] at hy
    rw [Flt.fin.inj hy]
    exact hsign
  · intro hsign g hg s t o ho
    refine ⟨_, odom_canTx Q pf t s hg.id ho, ?_⟩
    rw [hg.parseCtrlFb]
    exact hsign

end Feedback

/-! ### Its sign -/

section Sign

variable {Q : Params ℝ} (undefUInt undefInt : Flt ℝ → BitVec 32) (fb : Gear × ℝ × ℝ)

theorem correctedAngle_eq_stdClamp (pf : Platform ℝ) (hoffset : Q.steerOffset = 0) (a : ℝ) :
    correctedAngle Q pf a = stdClamp a (-maxDelta pf) (maxDelta pf) := by
  have hdelta : 0 < maxDelta pf := div_pos pf.pi_pos (by norm_num)
  unfold correctedAngle stdClamp
  rw [hoffset, sub_zero]
  split
  · next hlo =>
    have hhi : a ≤ maxDelta pf := by linarith
    rw [min_eq_left hhi, max_eq_right hlo.le]
  · next hlo =>
    split
    · next hhi => rw [min_eq_right hhi.le, max_eq_left (by linarith)]
    · next hhi => rw [min_eq_left (not_lt.mp hhi), max_eq_left (not_lt.mp hlo)]

/-- 30° is less than a quarter turn. -/
theorem maxDelta_lt : maxDelta (Platform.real undefUInt undefInt) < Real.pi / 2 := by
  have hpi := Real.pi_gt_three
  change (884279719003555 / 281474976710656 : ℝ) / 6 < Real.pi / 2
  linarith

/-- The tangent of the corrected angle has the sign of the angle in the frame, and is zero
with it. -/
theorem sameSign_tan_corrected (hoffset : Q.steerOffset = 0) :
    let pf := Platform.real undefUInt undefInt
    let tangent := pf.tan (correctedAngle Q pf (fb.2.2 * pf.pi / 180))
    SameSign tangent fb.2.2 ∧ (tangent = 0 ↔ fb.2.2 = 0) := by
  intro pf tangent
  have hpi := pf.pi_pos
  have hdelta : 0 < maxDelta pf := div_pos hpi (by norm_num)
  have hclamp := correctedAngle_eq_stdClamp pf hoffset (fb.2.2 * pf.pi / 180)
  set delta := correctedAngle Q pf (fb.2.2 * pf.pi / 180) with hset
  -- the limit keeps the angle away from the poles of the tangent
  have hle : |delta| < Real.pi / 2 := by
    have hneg : -maxDelta pf ≤ maxDelta pf := by linarith
    refine lt_of_le_of_lt (abs_le.mpr ⟨?_, ?_⟩) (maxDelta_lt undefUInt undefInt)
    · rw [hclamp]
      exact le_stdClamp hneg
    · rw [hclamp]
      exact stdClamp_le hneg
  have hradians : fb.2.2 * pf.pi / 180 = fb.2.2 * (pf.pi / 180) := mul_div_assoc ..
  -- neither the limit nor the unit changes a sign, in either direction
  have hto : SameSign delta fb.2.2 := by
    rw [hclamp, hradians]
    exact (SameSign.stdClamp_left _ hdelta.le).trans (SameSign.mul_right _ (by positivity))
  have hfrom : SameSign fb.2.2 delta := by
    rw [hclamp, hradians]
    exact (SameSign.self_mul _ (by positivity)).trans (SameSign.stdClamp_right _ hdelta)
  refine ⟨(sameSign_tan hle).trans hto, ?_⟩
  calc tangent = 0 ↔ delta = 0 := tan_eq_zero_iff_of_abs_lt hle
    _ ↔ fb.2.2 = 0 := ⟨fun h => (h ▸ hfrom).eq_zero, fun h => (h ▸ hto).eq_zero⟩

/-- What the yaw rate has besides the tangent. -/
noncomputable def yawFactor (Q : Params ℝ) (fb : Gear × ℝ × ℝ) : ℝ :=
  if 1 / 1000000 < |Q.wheelbase| then fedBackSpeed Q fb / Q.wheelbase else 0

theorem fedBackYawRate_eq (pf : Platform ℝ) :
    fedBackYawRate Q pf fb =
      pf.tan (correctedAngle Q pf (fb.2.2 * pf.pi / 180)) * yawFactor Q fb := by
  unfold fedBackYawRate yawFactor
  split
  · ring
  · rw [mul_zero]

/-- The factor is the speed, up to one that is not negative. -/
theorem exists_yawFactor_eq (hscale : Q.velScale = 1) (hbase : 0 < Q.wheelbase) :
    ∃ c, 0 ≤ c ∧ yawFactor Q fb = feedbackSpeed fb * c := by
  unfold yawFactor fedBackSpeed
  rw [hscale, mul_one]
  split
  · split
    · -- the dead band takes the speed away
      exact ⟨0, le_rfl, by rw [zero_div, mul_zero]⟩
    · exact ⟨1 / Q.wheelbase, by positivity, by rw [mul_one_div]⟩
  · exact ⟨0, le_rfl, (mul_zero _).symm⟩

variable {fb}

/-- It is zero at rest, or without a wheelbase. -/
theorem yawFactor_eq_zero_iff (hscale : Q.velScale = 1) (hbase : 0 < Q.wheelbase) :
    yawFactor Q fb = 0 ↔ |feedbackSpeed fb| < 5 / 1000 ∨ Q.wheelbase ≤ 1 / 1000000 := by
  unfold yawFactor fedBackSpeed
  rw [hscale, mul_one, abs_of_pos hbase]
  by_cases hwheel : 1 / 1000000 < Q.wheelbase
  · rw [if_pos hwheel, div_eq_zero_iff, or_iff_left hbase.ne', or_iff_left (not_le.mpr hwheel)]
    by_cases hrest : |feedbackSpeed fb| < 5 / 1000
    · rw [if_pos hrest]
      exact iff_of_true rfl hrest
    · rw [if_neg hrest]
      refine iff_of_false ?_ hrest
      intro hzero
      rw [hzero, abs_zero] at hrest
      exact hrest (by norm_num)
  · rw [if_neg hwheel]
    exact iff_of_true rfl (Or.inr (not_lt.mp hwheel))

/-- Forwards the yaw rate has the sign of the angle in the frame. -/
theorem sameSign_yawRate_of_nonneg (hoffset : Q.steerOffset = 0) (hscale : Q.velScale = 1)
    (hbase : 0 < Q.wheelbase) (h : 0 ≤ feedbackSpeed fb) :
    SameSign (fedBackYawRate Q (Platform.real undefUInt undefInt) fb) fb.2.2 := by
  obtain ⟨c, hc, hfactor⟩ := exists_yawFactor_eq fb hscale hbase
  rw [fedBackYawRate_eq, hfactor]
  exact (SameSign.mul_right _ (mul_nonneg h hc)).trans
    (sameSign_tan_corrected undefUInt undefInt fb hoffset).1

/-- Backwards it has the other sign. -/
theorem sameSign_neg_yawRate (hoffset : Q.steerOffset = 0) (hscale : Q.velScale = 1)
    (hbase : 0 < Q.wheelbase) (h : feedbackSpeed fb ≤ 0) :
    SameSign (-fedBackYawRate Q (Platform.real undefUInt undefInt) fb) fb.2.2 := by
  obtain ⟨c, hc, hfactor⟩ := exists_yawFactor_eq fb hscale hbase
  rw [fedBackYawRate_eq, hfactor, ← mul_neg, ← neg_mul]
  exact (SameSign.mul_right _ (mul_nonneg (neg_nonneg.mpr h) hc)).trans
    (sameSign_tan_corrected undefUInt undefInt fb hoffset).1

theorem fedBackYawRate_eq_zero_iff (hoffset : Q.steerOffset = 0) (hscale : Q.velScale = 1)
    (hbase : 0 < Q.wheelbase) :
    fedBackYawRate Q (Platform.real undefUInt undefInt) fb = 0 ↔
      fb.2.2 = 0 ∨ |feedbackSpeed fb| < 5 / 1000 ∨ Q.wheelbase ≤ 1 / 1000000 := by
  rw [fedBackYawRate_eq, mul_eq_zero, yawFactor_eq_zero_iff hscale hbase]
  exact or_congr_left (sameSign_tan_corrected undefUInt undefInt fb hoffset).2

end Sign

/-! ### Command and feedback -/

section Loop

variable (Q : Params ℝ) (undefUInt undefInt : Flt ℝ → BitVec 32)

/-- The frames of a command carry a steering angle with the sign of the yaw rate, in
either direction of travel. -/
theorem sameSign_sentAngle (vx vz : ℝ) :
    let pf := Platform.real undefUInt undefInt
    let deg := truncZ (floatDegrees pf (angzToAngleFin pf Real.arctan vx vz))
    SameSign (if pf.float vx < 0 then -(deg : ℝ) else (deg : ℝ)) vz := by
  intro pf deg
  have hdeg : SameSign (deg : ℝ) (angzToAngleFin pf Real.arctan vx vz) :=
    (SameSign.truncZ_left _).trans (floatDegrees_sameSign pf _)
  obtain ⟨hforth, hback⟩ := sameSign_angzToAngle pf vx vz
  by_cases hneg : pf.float vx < 0
  · -- the ratio has turned the sign around, and the sender turns it back
    rw [if_pos hneg]
    exact hdeg.neg.trans (hback hneg)
  · rw [if_neg hneg]
    exact hdeg.trans (hforth (not_lt.mp hneg))

/-- Truncation to 0.001 m/s moves no speed into the dead band, nor out of it. -/
theorem abs_truncated_speed_lt_iff (u : ℝ) :
    |(truncZ u : ℝ) / 1000| < 5 / 1000 ↔ |u| < 5 := by
  have htrunc : |(truncZ u : ℝ)| < 5 ↔ |truncZ u| < 5 := by
    rw [← Int.cast_abs]
    exact_mod_cast Iff.rfl
  rw [abs_div, abs_of_pos (show (0 : ℝ) < 1000 by norm_num),
    div_lt_div_iff_of_pos_right (by norm_num), htrunc, abs_truncZ_lt_iff]
  norm_num

/-- When the feedback of a command turns with the yaw rate that was asked for, for one
frame of it. -/
theorem turnsWith_akmFrame_iff (hoffset : Q.steerOffset = 0) (hscale : Q.velScale = 1)
    (hbase : 0 < Q.wheelbase) {vx : ℝ} (hvx : vx ≠ 0)
    (henc : |wireSpeed (Platform.real undefUInt undefInt) vx| < 65536) (vz t : ℝ)
    (c : BitVec 8) :
    let pf := Platform.real undefUInt undefInt
    let angle := angzToAngleFin pf Real.arctan vx vz
    TurnsWith Q pf vz (akmFrame pf t c (.fin vx) (.fin angle)) ↔
      0 < vx ∨ |wireSpeed pf vx| < 5 ∨ Q.wheelbase ≤ 1 / 1000000 ∨ |floatDegrees pf angle| < 1 := by
  intro pf angle
  have hrep := representable_angzToAngle undefUInt undefInt henc vz
  rw [turnsWith_iff]
  set fb : Gear × ℝ × ℝ := parseCtrlFb (akmFrame pf t c (.fin vx) (.fin angle)).data with hfb
  have hspeed : feedbackSpeed fb = (truncZ (wireSpeed pf vx) : ℝ) / 1000 :=
    feedbackSpeed_akmFrame hrep t c
  have hangle : fb.2.2 = if pf.float vx < 0 then -(truncZ (floatDegrees pf angle) : ℝ)
      else (truncZ (floatDegrees pf angle) : ℝ) := by
    rw [hfb, parseCtrlFb_akmFrame hrep]
  have hsent : SameSign fb.2.2 vz := by
    rw [hangle]
    exact sameSign_sentAngle undefUInt undefInt vx vz
  have hrest : |feedbackSpeed fb| < 5 / 1000 ↔ |wireSpeed pf vx| < 5 := by
    rw [hspeed]
    exact abs_truncated_speed_lt_iff _
  -- truncation to whole degrees takes away what is less than one
  have hsmall : fb.2.2 = 0 ↔ |floatDegrees pf angle| < 1 := by
    rw [← truncZ_eq_zero_iff, ← Int.cast_eq_zero (α := ℝ), hangle]
    split
    · exact neg_eq_zero
    · exact Iff.rfl
  by_cases hneg : vx < 0
  · -- backwards the yaw rate has both signs, so it is zero or the wrong one
    have hback : feedbackSpeed fb ≤ 0 := by
      have htrunc : (truncZ (wireSpeed pf vx) : ℝ) ≤ 0 := by
        exact_mod_cast truncZ_nonpos (wireSpeed_nonpos pf (pf.float.round_nonpos hneg.le))
      rw [hspeed]
      linarith
    have hother := (sameSign_neg_yawRate undefUInt undefInt hoffset hscale hbase hback).trans hsent
    calc SameSign (fedBackYawRate Q pf fb) vz ↔ fedBackYawRate Q pf fb = 0 := by
          refine ⟨fun h => SameSign.eq_zero_of_neg h hother, ?_⟩
          intro hzero
          rw [hzero]
          exact SameSign.zero_left vz
      _ ↔ fb.2.2 = 0 ∨ |feedbackSpeed fb| < 5 / 1000 ∨ Q.wheelbase ≤ 1 / 1000000 :=
          fedBackYawRate_eq_zero_iff undefUInt undefInt hoffset hscale hbase
      _ ↔ _ := by
          rw [hrest, hsmall, or_iff_right (not_lt.mpr hneg.le), or_comm, or_assoc]
  · -- forwards it has the sign of the angle, which has the one that was asked for
    have hforth : 0 ≤ feedbackSpeed fb := by
      have htrunc : (0 : ℝ) ≤ (truncZ (wireSpeed pf vx) : ℝ) := by
        exact_mod_cast truncZ_nonneg
          (wireSpeed_nonneg pf (pf.float.round_nonneg (not_lt.mp hneg)))
      rw [hspeed]
      linarith
    refine iff_of_true ?_ (Or.inl (lt_of_le_of_ne (not_lt.mp hneg) hvx.symm))
    exact (sameSign_yawRate_of_nonneg undefUInt undefInt hoffset hscale hbase hforth).trans hsent

/-- **To which side the vehicle turns.** For every `/twist_cmd` whose speed is not zero and
fits a control frame, in every state, with no steering offset, no calibration of the speed
and a positive wheelbase: whatever echoes a frame of the command, the odometry reports no
yaw rate or one of the sign that was asked for, if and only if the vehicle goes forwards,
or is below 0.005 m/s, or has a wheelbase of at most 0.000001, or steers by less than one
degree. The speed and the degrees are those that the node computes, in `float`. -/
theorem yaw_iff (hoffset : Q.steerOffset = 0) (hscale : Q.velScale = 1)
    (hbase : 0 < Q.wheelbase) (s : State ℝ) (t : ℝ) {vx vz : ℝ} (hvx : vx ≠ 0)
    (henc : |wireSpeed (Platform.real undefUInt undefInt) vx| < 65536)
    {twistAux : TwistStamped ℝ}
    (hx : twistAux.twist.linearX = .fin vx) (hz : twistAux.twist.angularZ = .fin vz) :
    let pf := Platform.real undefUInt undefInt
    (∀ f ∈ frames (step Q pf Real.arctan s ⟨t, .twistCmd twistAux⟩).2, TurnsWith Q pf vz f) ↔
      0 < vx ∨ |wireSpeed pf vx| < 5 ∨ Q.wheelbase ≤ 1 / 1000000 ∨
        |floatDegrees pf (angzToAngleFin pf Real.arctan vx vz)| < 1 := by
  intro pf
  change (∀ f ∈ frames (sendSpeedToAKM pf t s twistAux.twist.linearX
    (angzToAngle pf Real.arctan twistAux.twist.linearX twistAux.twist.angularZ)).2, _) ↔ _
  rw [hx, hz]
  apply forall_frames_sendSpeedToAKM
  intro c
  exact turnsWith_akmFrame_iff Q undefUInt undefInt hoffset hscale hbase hvx henc vz t c

end Loop

/-! ### A turn in reverse -/

/-- A yaw rate of 2 rad/s at the speed `vx`. -/
def turnCmd (vx : ℝ) : TwistStamped ℝ := ⟨⟨0, "base_link"⟩, ⟨.fin vx, .fin 2⟩⟩

/-- A whole number of m/s is sent as such. -/
theorem wireSpeed_intCast {n : ℤ} (hn : |n| < 2 ^ 24) (hn' : |1000 * n| < 2 ^ 24) :
    wireSpeed Platform.x86 (n : ℝ) = 1000 * n := by
  have h1000 : (1000 : ℝ) * n = ((1000 * n : ℤ) : ℝ) := by push_cast; rfl
  rw [wireSpeed, Platform.x86.float.intCast n hn, h1000, Platform.x86.float.intCast _ hn']

theorem float_neg_half : Platform.x86.float (-(1 / 2)) = -(1 / 2) := by
  have hzpow := Rounding.float32_mul_zpow (K := ℝ) (n := -1) (k := -1) (by norm_num) (by norm_num)
  norm_num at hzpow
  norm_num
  exact hzpow

/-- The steering angle for 2 rad/s at -1 m/s is at least half a radian, to the right. -/
theorem angzToAngle_reverse :
    angzToAngleFin Platform.x86 Real.arctan (-1) 2 ≤ -(1 / 2) := by
  set f := Platform.x86.float with hf
  have hone : f (-1) = -1 := by
    have hcast := f.intCast (-1) (by norm_num)
    rwa [Int.cast_neg, Int.cast_one] at hcast
  have htwo : f 2 = 2 := by
    have hcast := f.intCast 2 (by norm_num)
    rwa [Int.cast_ofNat] at hcast
  have hhalf := float_neg_half
  have hratio : (-1 / 2 : ℝ) = -(1 / 2) := by norm_num
  have hbase : (whellbase / -(1 / 2) : ℝ) ≤ -1 := by norm_num [whellbase]
  unfold angzToAngleFin
  dsimp only
  rw [hone, htwo, hratio, hhalf, if_neg (by norm_num), atanRatio, if_neg (by norm_num)]
  -- an eighth of a turn and more, of which 0.7 are sent
  have harctan : Real.arctan (whellbase / -(1 / 2)) ≤ -(Real.pi / 4) := by
    rw [← Real.arctan_one, ← Real.arctan_neg]
    exact Real.arctan_strictMono.monotone hbase
  calc f (7 / 10 * Real.arctan (whellbase / -(1 / 2))) ≤ f (-(1 / 2)) := by
        apply f.mono
        linarith [Real.pi_gt_three]
    _ = -(1 / 2) := hhalf

/-- That is `90 / M_PI` degrees, and more than one. -/
theorem one_le_abs_floatDegrees_reverse :
    1 ≤ |floatDegrees Platform.x86 (angzToAngleFin Platform.x86 Real.arctan (-1) 2)| := by
  have hninety : Platform.x86.float (-90) = -90 := by
    have hcast := Platform.x86.float.intCast (-90) (by norm_num)
    rwa [Int.cast_neg, Int.cast_ofNat] at hcast
  have hangle := Platform.x86.float.mono angzToAngle_reverse
  rw [float_neg_half] at hangle
  have hprod : Platform.x86.float (Platform.x86.float
      (angzToAngleFin Platform.x86 Real.arctan (-1) 2) * 180) ≤ -90 := by
    rw [← hninety]
    apply Platform.x86.float.mono
    linarith
  have hpi : Platform.x86.pi ≤ 90 := by
    change (884279719003555 / 281474976710656 : ℝ) ≤ 90
    norm_num
  rw [floatDegrees, abs_div, abs_of_pos Platform.x86.pi_pos, le_div_iff₀ Platform.x86.pi_pos,
    one_mul]
  exact le_abs.mpr (Or.inr (by linarith))

/-- Reversing at 1 m/s, `wtb_car_only` reports a turn to the right when told to turn left. -/
theorem reverse_turns_away :
    ¬ ∀ f ∈ frames (step Params.default Platform.x86 Real.arctan (State.initial 0)
        ⟨1, .twistCmd (turnCmd (-1))⟩).2,
      TurnsWith Params.default Platform.x86 2 f := by
  intro hall
  have hwire : |wireSpeed Platform.x86 (-1)| = 1000 := by
    have hcast := wireSpeed_intCast (n := -1) (by norm_num) (by norm_num)
    push_cast at hcast
    rw [hcast]
    norm_num
  -- the first of the three frames will do
  have hmem : akmFrame Platform.x86 1 0 (.fin (-1))
      (.fin (angzToAngleFin Platform.x86 Real.arctan (-1) 2)) ∈
      frames (step Params.default Platform.x86 Real.arctan (State.initial 0)
        ⟨1, .twistCmd (turnCmd (-1))⟩).2 :=
    List.mem_cons_self
  rcases (turnsWith_akmFrame_iff Params.default _ _ rfl rfl one_pos (by norm_num)
    (hwire.trans_lt (by norm_num)) 2 1 0).mp (hall _ hmem) with hpos | hrest | hbase | hsmall
  · norm_num at hpos
  · exact absurd (hwire.symm.trans_lt hrest) (by norm_num)
  · norm_num [Params.default] at hbase
  · exact absurd hsmall (not_lt.mpr one_le_abs_floatDegrees_reverse)

/-- `yaw_iff` for the same turn, forwards. -/
theorem yaw_iff_forwards :
    (frames (step Params.default Platform.x86 Real.arctan (State.initial 0)
        ⟨1, .twistCmd (turnCmd 1)⟩).2).length = 3 ∧
      ∀ f ∈ frames (step Params.default Platform.x86 Real.arctan (State.initial 0)
          ⟨1, .twistCmd (turnCmd 1)⟩).2,
        TurnsWith Params.default Platform.x86 2 f := by
  have henc : |wireSpeed Platform.x86 1| < 65536 := by
    have hcast := wireSpeed_intCast (n := 1) (by norm_num) (by norm_num)
    push_cast at hcast
    rw [hcast]
    norm_num
  refine ⟨rfl, ?_⟩
  exact (yaw_iff Params.default _ _ rfl rfl one_pos (State.initial 0) 1 one_ne_zero henc
    (show (turnCmd 1).twist.linearX = .fin 1 from rfl)
    (show (turnCmd 1).twist.angularZ = .fin 2 from rfl)).mpr (Or.inl one_pos)

end DriverOnly
end WtbAutoware
