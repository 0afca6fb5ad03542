import WtbAutoware.Driver.Node

/-!
# Commands and feedback on the wire

What a velocity command becomes in its control frames, and what a feedback frame
becomes in the node's messages, field by field.

* `wireSpeed`, `floatDegrees` — the `float` in the wire unit, and the quotient of `float`
  and `M_PI`, that the two conversions truncate. In exact arithmetic they are `1000 * v`
  and `degrees`.
* `akmCommand_speed`, `akmCommand_fin` — what `SendSpeedToAKM` hands on: the magnitude of
  the speed, its gear, and a whole number of degrees.
* `parseCtrlFb_akmFrame` — the frames of a command decode to its speed, truncated
  to 0.001 m/s, and to its steering angle, truncated to whole degrees: the `int` in
  `SendSpeedToAKM` comes before the conversion to 0.01°. For a negative speed the
  gear is R, and the sign of the angle is turned around.
* `carMsg_canTx`, `odom_canTx` — the messages that a feedback frame leads to report
  a speed signed by the gear, and the angle as the frame has it.
-/

namespace WtbAutoware
namespace Driver

open Reactive

variable {K : Type} [Field K] [LinearOrder K] [IsStrictOrderedRing K] [FloorRing K]
  (P : Params K) (pf : Platform K)

/-! ### Commands -/

/-- An angle in degrees. -/
def degrees (angle : K) : K := angle * 180 / pf.pi

/-- An angle in degrees, as the sender computes it. -/
def floatDegrees (angle : K) : K := pf.float (pf.float angle * 180) / pf.pi

/-- A speed in units of 0.001 m/s, as the sender computes it. -/
def wireSpeed (v : K) : K := pf.float (1000 * pf.float v)

/-- The whole degrees that go into the frames: negated along with the speed. -/
def sentDegrees (v angle : K) : ℤ :=
  if pf.float v < 0 then -truncZ (floatDegrees pf angle) else truncZ (floatDegrees pf angle)

omit [IsStrictOrderedRing K] [FloorRing K] in
theorem floatDegrees_of_exact {pf : Platform K} (hexact : pf.Exact) (angle : K) :
    floatDegrees pf angle = degrees pf angle := by
  rw [floatDegrees, degrees, hexact, hexact]

omit [IsStrictOrderedRing K] [FloorRing K] in
theorem wireSpeed_of_exact {pf : Platform K} (hexact : pf.Exact) (v : K) :
    wireSpeed pf v = 1000 * v := by
  rw [wireSpeed, hexact, hexact]

omit [IsStrictOrderedRing K] in
theorem sentDegrees_of_exact {pf : Platform K} (hexact : pf.Exact) (v angle : K) :
    sentDegrees pf v angle =
      if v < 0 then -truncZ (degrees pf angle) else truncZ (degrees pf angle) := by
  rw [sentDegrees, hexact, floatDegrees_of_exact hexact]

omit [FloorRing K] in
/-- The sender never turns the sign of an angle. -/
theorem floatDegrees_sameSign (angle : K) : SameSign (floatDegrees pf angle) angle := by
  have hpi := pf.pi_pos
  calc SameSign (floatDegrees pf angle) _ := SameSign.refl _
    _ = pf.float (pf.float angle * 180) * pf.pi⁻¹ := div_eq_mul_inv ..
    SameSign _ (pf.float (pf.float angle * 180)) := SameSign.mul_right _ (by positivity)
    SameSign _ (pf.float angle * 180) := pf.float.sameSign _
    SameSign _ (pf.float angle) := SameSign.mul_right _ (by norm_num)
    SameSign _ angle := pf.float.sameSign _

omit [FloorRing K] in
theorem wireSpeed_nonneg {v : K} (h : 0 ≤ pf.float v) : 0 ≤ wireSpeed pf v :=
  pf.float.round_nonneg (by positivity)

omit [FloorRing K] in
theorem wireSpeed_nonpos {v : K} (h : pf.float v ≤ 0) : wireSpeed pf v ≤ 0 :=
  pf.float.round_nonpos (mul_nonpos_of_nonneg_of_nonpos (by norm_num) h)

omit [FloorRing K] in
/-- The magnitude of a speed goes to the wire as the magnitude of what the speed would. -/
theorem float_mul_abs (v : K) : pf.float (1000 * |pf.float v|) = |wireSpeed pf v| := by
  have habs : 1000 * |pf.float v| = |1000 * pf.float v| := by
    rw [abs_mul, abs_of_pos (by norm_num : (0 : K) < 1000)]
  rw [habs, pf.float.round_abs]
  rfl

/-- Gear, speed and angle of a command that steers by fewer than `2 ^ 31` degrees. -/
theorem akmCommand_fin {v angle : K}
    (hdeg : -2 ^ 31 < truncZ (floatDegrees pf angle) ∧ truncZ (floatDegrees pf angle) < 2 ^ 31) :
    akmCommand pf (.fin v) (.fin angle) =
      (if pf.float v < 0 then .R else .D, .fin |pf.float v|,
        .fin (pf.float (sentDegrees pf v angle : K))) := by
  obtain ⟨hlo, hhi⟩ := hdeg
  have hread : (angleDeg pf (.fin (pf.float angle))).toInt = truncZ (floatDegrees pf angle) :=
    Flt.toInt_toInt32 (show _ ∧ _ from ⟨hlo.le, hhi⟩)
  unfold akmCommand sentDegrees
  simp only [Flt.rounded_fin, Flt.fin_lt_fin]
  by_cases hneg : pf.float v < 0
  · -- `Angle = -Angle` stays within the `int`
    have hnegread : (-angleDeg pf (.fin (pf.float angle))).toInt =
        -truncZ (floatDegrees pf angle) := by
      rw [BitVec.toInt_neg, hread]
      exact Int.bmod_eq_of_le (by omega) (by omega)
    rw [if_pos hneg, if_pos hneg, if_pos hneg, hnegread, abs_of_neg hneg]
    rfl
  · rw [if_neg hneg, if_neg hneg, if_neg hneg, hread, abs_of_nonneg (not_lt.mp hneg)]

/-- The speed goes out as a magnitude. -/
theorem akmCommand_speed (w : K) (angle : Flt K) :
    (akmCommand pf (.fin w) angle).2.1 = .fin |pf.float w| := by
  unfold akmCommand
  dsimp only
  split
  · next h => exact congrArg Flt.fin (abs_of_neg (Flt.fin_lt_fin.mp h)).symm
  · next h =>
    have hw : 0 ≤ pf.float w := not_lt.mp fun hlt => h (Flt.fin_lt_fin.mpr hlt)
    exact congrArg Flt.fin (abs_of_nonneg hw).symm

/-- A speed of less than 0.001 m/s leaves the speed field zero. -/
theorem speedField_of_small {w : K} (h : |wireSpeed pf w| < 1) (now : K) (c : BitVec 8)
    (angle : Flt K) : speedField (akmFrame pf now c (.fin w) angle) = 0 := by
  rw [speedField_akmFrame, akmCommand_speed, Flt.mulConst_fin, mul_comm, Flt.rounded_fin,
    float_mul_abs]
  have htrunc : truncZ |wireSpeed pf w| = 0 := by
    rw [truncZ_eq_zero_iff, abs_abs]
    exact h
  have hin : (Flt.fin |wireSpeed pf w|).InUInt32 :=
    show _ ∧ _ from ⟨by rw [htrunc], by rw [htrunc]; decide⟩
  rw [Flt.toUInt32_fin hin, htrunc]
  rfl

/-- The same in exact arithmetic. -/
theorem akmCommand_exact {pf : Platform K} (hexact : pf.Exact) {v angle : K}
    (hdeg : -2 ^ 31 < truncZ (degrees pf angle) ∧ truncZ (degrees pf angle) < 2 ^ 31) :
    akmCommand pf (.fin v) (.fin angle) =
      (if v < 0 then .R else .D, .fin |v|, .fin (sentDegrees pf v angle : K)) := by
  rw [← floatDegrees_of_exact hexact] at hdeg
  rw [akmCommand_fin pf hdeg, hexact, hexact]

/-- A command that fits the fields of a control frame. -/
structure Representable (v angle : K) : Prop where
  speed : |wireSpeed pf v| < 65536
  angle : |floatDegrees pf angle| < 328

section Truncated

variable {pf} {v angle : K}

/-- The truncated speed fits sixteen bits. -/
theorem Representable.speed_bounds (h : Representable pf v angle) :
    0 ≤ truncZ |wireSpeed pf v| ∧ truncZ |wireSpeed pf v| ≤ 65535 := by
  have h0 : 0 ≤ |wireSpeed pf v| := abs_nonneg _
  refine ⟨truncZ_nonneg h0, ?_⟩
  have hlt : (truncZ |wireSpeed pf v| : K) < 65536 := (truncZ_le h0).trans_lt h.speed
  have : truncZ |wireSpeed pf v| < 65536 := by exact_mod_cast hlt
  omega

/-- The truncated angle has at most 327 degrees, to either side. -/
theorem Representable.angle_bounds (h : Representable pf v angle) :
    -327 ≤ truncZ (floatDegrees pf angle) ∧ truncZ (floatDegrees pf angle) ≤ 327 := by
  have hlt : |(truncZ (floatDegrees pf angle) : K)| < 328 := (abs_truncZ_le _).trans_lt h.angle
  rw [← Int.cast_abs] at hlt
  have habs : |truncZ (floatDegrees pf angle)| < 328 := by exact_mod_cast hlt
  obtain ⟨hlo, hhi⟩ := abs_lt.mp habs
  constructor <;> omega

/-- Gear, speed and angle in the frames of a command, after truncation. -/
theorem parseCtrlFb_akmFrame (h : Representable pf v angle) (now : K) (c : BitVec 8) :
    (parseCtrlFb (akmFrame pf now c (.fin v) (.fin angle)).data : Gear × K × K) =
      (if pf.float v < 0 then .R else .D, (truncZ |wireSpeed pf v| : K) / 1000,
        if pf.float v < 0 then -(truncZ (floatDegrees pf angle) : K)
        else (truncZ (floatDegrees pf angle) : K)) := by
  obtain ⟨hlo, hhi⟩ := h.angle_bounds
  -- the angle goes into the frame as a whole number of degrees
  have hsent : -327 ≤ sentDegrees pf v angle ∧ sentDegrees pf v angle ≤ 327 := by
    unfold sentDegrees
    split <;> constructor <;> omega
  have hcast : truncZ (100 * (sentDegrees pf v angle : K)) = 100 * sentDegrees pf v angle := by
    have hint : (100 : K) * sentDegrees pf v angle = ((100 * sentDegrees pf v angle : ℤ) : K) := by
      push_cast
      rfl
    rw [hint, truncZ_intCast]
  have hback : ((100 * sentDegrees pf v angle : ℤ) : K) / 100 = sentDegrees pf v angle := by
    push_cast
    field_simp
  have hsign : (sentDegrees pf v angle : K) =
      if pf.float v < 0 then -(truncZ (floatDegrees pf angle) : K)
      else (truncZ (floatDegrees pf angle) : K) := by
    unfold sentDegrees
    split
    · exact Int.cast_neg _
    · rfl
  have hgear : (if pf.float v < 0 then Gear.R else .D).Known := by
    split <;> trivial
  -- a whole number that small is a `float`
  have hfloat : pf.float (sentDegrees pf v angle : K) = sentDegrees pf v angle :=
    pf.float.intCast _ (abs_lt.mpr ⟨by omega, by omega⟩)
  rw [akmFrame, akmCommand_fin pf ⟨by omega, by omega⟩, hfloat]
  have hspeed := h.speed_bounds
  rw [← float_mul_abs] at hspeed ⊢
  refine (parseCtrlFb_buildCtrlCmdData pf c hgear hspeed ?_).trans ?_
  · rw [hcast]
    constructor <;> omega
  · rw [hcast, hback, hsign]

/-- The driver reads its own command back with the sign that it had. -/
theorem feedbackSpeed_akmFrame (h : Representable pf v angle) (now : K) (c : BitVec 8) :
    feedbackSpeed (parseCtrlFb (akmFrame pf now c (.fin v) (.fin angle)).data) =
      (truncZ (wireSpeed pf v) : K) / 1000 := by
  rw [parseCtrlFb_akmFrame h, feedbackSpeed]
  by_cases hneg : pf.float v < 0
  · -- sent as a magnitude in gear R, and negated for the gear on the way back
    rw [if_pos hneg, if_pos rfl, abs_of_nonpos (wireSpeed_nonpos pf hneg.le)]
    calc -((truncZ (-wireSpeed pf v) : K) / 1000)
        = -((-truncZ (wireSpeed pf v) : ℤ) : K) / 1000 := by rw [truncZ_neg, neg_div]
      _ = (truncZ (wireSpeed pf v) : K) / 1000 := by rw [Int.cast_neg, neg_neg]
  · have hgear : Gear.D ≠ Gear.R := by decide
    rw [if_neg hneg, if_neg hgear, abs_of_nonneg (wireSpeed_nonneg pf (not_lt.mp hneg))]

end Truncated

/-! ### Feedback -/

section Feedback

variable (now : K) (s : State K) {msg : Frame K}

/-- `CalculateAndPublished` publishes at most odometry, with the calibrated speed. -/
theorem calculateAndPublished_out {o : Output K} (h : o ∈ (calculateAndPublished P pf now s).2) :
    ∃ x y theta omega, o = .odom (publishOdom P pf now x y theta (odomSpeed P s) omega) := by
  unfold calculateAndPublished at h
  dsimp only at h
  split at h
  · simp at h
  · exact ⟨_, _, _, _, List.mem_singleton.mp h⟩

/-- The `CarMsg` of a feedback frame. -/
theorem carMsg_canTx (hid : msg.id = 0x18C4D2EF) {m : CarMsg K}
    (h : .carMsg m ∈ (canTxCallback P pf now s msg).2) :
    m.speed = .fin (feedbackSpeed (parseCtrlFb msg.data)) ∧
      m.angle = .fin ((parseCtrlFb msg.data : Gear × K × K).2.2 * pf.pi / 180) := by
  unfold canTxCallback at h
  rw [if_pos hid] at h
  rcases List.mem_append.mp h with hodom | hcar
  · -- the odometry comes first, and is no `CarMsg`
    obtain ⟨_, _, _, _, heq⟩ := calculateAndPublished_out P pf now _ hodom
    exact absurd heq (by simp)
  · obtain rfl := Output.carMsg.inj (List.mem_singleton.mp hcar)
    exact ⟨rfl, rfl⟩

/-- A feedback frame is always answered with a `CarMsg`. -/
theorem exists_carMsg_canTx (hid : msg.id = 0x18C4D2EF) :
    ∃ m, Output.carMsg m ∈ (canTxCallback P pf now s msg).2 := by
  unfold canTxCallback
  rw [if_pos hid]
  exact ⟨_, List.mem_append_right _ (List.mem_singleton.mpr rfl)⟩

/-- The odometry of a feedback frame: its speed is the scaled feedback speed, or 0. -/
theorem odom_canTx (hid : msg.id = 0x18C4D2EF) {o : Odometry K}
    (h : .odom o ∈ (canTxCallback P pf now s msg).2) :
    o.linearX = .fin 0 ∨
      o.linearX = .fin (feedbackSpeed (parseCtrlFb msg.data) * P.velScale) := by
  unfold canTxCallback at h
  rw [if_pos hid] at h
  rcases List.mem_append.mp h with hodom | hcar
  · obtain ⟨_, _, _, _, heq⟩ := calculateAndPublished_out P pf now _ hodom
    obtain rfl := Output.odom.inj heq
    change Flt.fin (odomSpeed P _) = _ ∨ Flt.fin (odomSpeed P _) = _
    unfold odomSpeed
    dsimp only
    split
    · -- inside the dead band
      exact Or.inl rfl
    · exact Or.inr rfl
  · exact absurd (List.mem_singleton.mp hcar) (by simp)

end Feedback

end Driver
end WtbAutoware
