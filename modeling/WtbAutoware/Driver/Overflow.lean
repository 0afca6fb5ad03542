import WtbAutoware.Driver.SpeedLimit
import WtbAutoware.Driver.Wire

/-!
# Commands that overflow a field

The speed and the steering angle of a control frame have sixteen bits each, and
`BuildCtrlCmdData` masks the converted words down to them. A request that does not fit
is therefore not cut off at the end of the range: it comes out short of a multiple of
65.536 m/s, or of 655.36°.

* `Convertible` — the commands whose conversions to `int` and `unsigned int` are
  defined (`conversionsDefined_fin`), which is all that is asked of them here.
* `feedbackSpeed_convertible`, `decodedAngle_convertible` — what the frames of such a
  command decode to: the truncated request, less 65536 units for each time it overflows
  (`speedOverflows`, `steerOverflows`).
* `monotone_iff` — a faster request encodes as a faster one exactly if it is faster by
  at least the 65.536 m/s that each further overflow costs; likewise for steering.

All of this is in exact arithmetic (`Platform.Exact`).

Requests that fit do not overflow. `monotone_lost` has the nearest failures: 66 m/s after
65 m/s, and 328° after 327°.
-/

namespace WtbAutoware
namespace Driver

open Reactive

variable {K : Type} [Field K] [LinearOrder K] [IsStrictOrderedRing K] [FloorRing K]
  (pf : Platform K) (hexact : pf.Exact)

/-- The conversions of `SendSpeedToAKM` and `BuildCtrlCmdData` are defined for a command:
to `Angle`, to `SpeedInt` and to `SteerAngleInt`. -/
structure ConversionsDefined (lineSpeed angle : Flt K) : Prop where
  toAngle : ((((angle.rounded pf.float).mulConst 180).rounded pf.float).divConst pf.pi).InInt32
  speedInt : (((akmCommand pf lineSpeed angle).2.1.mulConst 1000).rounded pf.float).InUInt32
  steerAngleInt : ((akmCommand pf lineSpeed angle).2.2.divConst (1 / 100)).InInt32

/-- The finite commands for which they are (`conversionsDefined_fin`). -/
structure Convertible (v angle : K) : Prop where
  speed : 1000 * |v| < 2 ^ 32
  angle : 100 * |truncZ (degrees pf angle)| < 2 ^ 31

/-- The steering angle that a frame decodes to, in degrees. -/
def decodedAngle (f : Frame K) : K := (parseCtrlFb f.data : Gear × K × K).2.2

/-- The steering angle as it was requested: negated back for a reverse command. -/
def requestedAngle (v : K) (f : Frame K) : K := if v < 0 then -decodedAngle f else decodedAngle f

/-- How often the speed overflows its field: the multiples of 65.536 m/s in it. -/
def speedOverflows (v : K) : ℤ := (truncZ (1000 * v)).tdiv 65536

/-- How often an angle of `n` degrees overflows its field: the range of 655.36° that it
lies in, counted from the one around zero. -/
def angleOverflows (n : ℤ) : ℤ := (100 * n + 32768) / 65536

/-- How often a steering request overflows, counted in its own direction. -/
def steerOverflows (v angle : K) : ℤ :=
  if v < 0 then -angleOverflows (sentDegrees pf v angle)
  else angleOverflows (sentDegrees pf v angle)

/-! ### The words of a frame -/

omit [IsStrictOrderedRing K] [FloorRing K] in
/-- A whole number of degrees in hundredths. -/
theorem divConst_hundredth (n : ℤ) :
    (Flt.fin (n : K)).divConst (1 / 100) = .fin ((100 * n : ℤ) : K) := by
  rw [Flt.divConst_fin]
  push_cast
  field_simp

theorem inInt32_intCast (n : ℤ) : (Flt.fin (n : K)).InInt32 ↔ -2 ^ 31 ≤ n ∧ n < 2 ^ 31 := by
  change -2 ^ 31 ≤ truncZ (n : K) ∧ truncZ (n : K) < 2 ^ 31 ↔ _
  rw [truncZ_intCast]

section Convertible

variable {pf} {v angle : K} (h : Convertible pf v angle)
include h

/-- The magnitude of the speed is converted without loss. -/
theorem Convertible.speed_bounds :
    0 ≤ truncZ (1000 * |v|) ∧ truncZ (1000 * |v|) < 2 ^ 32 := by
  have h0 : (0 : K) ≤ 1000 * |v| := by positivity
  have hlt : (truncZ (1000 * |v|) : K) < 2 ^ 32 := (truncZ_le h0).trans_lt h.speed
  exact ⟨truncZ_nonneg h0, by exact_mod_cast hlt⟩

omit [IsStrictOrderedRing K] in
/-- And so is the angle, even in hundredths of a degree. -/
theorem Convertible.angle_bounds :
    -2 ^ 31 < 100 * truncZ (degrees pf angle) ∧ 100 * truncZ (degrees pf angle) < 2 ^ 31 := by
  have hangle := h.angle
  have hpos := le_abs_self (truncZ (degrees pf angle))
  have hneg := neg_abs_le (truncZ (degrees pf angle))
  constructor <;> omega

include hexact in
omit [IsStrictOrderedRing K] in
theorem Convertible.sent_bounds :
    -2 ^ 31 < 100 * sentDegrees pf v angle ∧ 100 * sentDegrees pf v angle < 2 ^ 31 := by
  obtain ⟨hlo, hhi⟩ := h.angle_bounds
  rw [sentDegrees_of_exact hexact]
  split
  · constructor <;> omega
  · exact ⟨hlo, hhi⟩

include hexact in
/-- Gear, speed and angle of a command, as `SendSpeedToAKM` hands them on. -/
theorem Convertible.akmCommand :
    Driver.akmCommand pf (.fin v) (.fin angle) =
      (if v < 0 then .R else .D, .fin |v|, .fin (sentDegrees pf v angle : K)) := by
  obtain ⟨hlo, hhi⟩ := h.angle_bounds
  exact akmCommand_exact hexact ⟨by omega, by omega⟩

variable (now : K) (c : BitVec 8)

include hexact in
/-- The bytes of the frames. -/
theorem Convertible.data_akmFrame :
    (akmFrame pf now c (.fin v) (.fin angle)).data =
      ctrlBytes (gearMapping (if v < 0 then .R else .D)) (BitVec.ofInt 32 (truncZ (1000 * |v|)))
        (BitVec.ofInt 32 (100 * sentDegrees pf v angle)) c := by
  obtain ⟨hlo, hhi⟩ := h.sent_bounds hexact
  have hspeed : (Flt.fin (1000 * |v|)).InUInt32 := h.speed_bounds
  have hangle : (Flt.fin ((100 * sentDegrees pf v angle : ℤ) : K)).InInt32 :=
    (inInt32_intCast _).mpr ⟨hlo.le, hhi⟩
  unfold akmFrame
  dsimp only
  rw [h.akmCommand hexact]
  change ctrlBytes _ ((((Flt.fin |v|).mulConst 1000).rounded pf.float).toUInt32 _)
    (((Flt.fin (sentDegrees pf v angle : K)).divConst (1 / 100)).toInt32 _) c = _
  rw [Flt.rounded_eq_self hexact, Flt.mulConst_fin, mul_comm, divConst_hundredth,
    Flt.toUInt32_fin hspeed, Flt.toInt32_fin hangle, truncZ_intCast]

include hexact in
/-- **The speed of a command's frames**, signed by the gear. -/
theorem feedbackSpeed_convertible :
    feedbackSpeed (parseCtrlFb (akmFrame pf now c (.fin v) (.fin angle)).data) =
      ((truncZ (1000 * v) - 65536 * speedOverflows v : ℤ) : K) / 1000 := by
  have hmod : truncZ (1000 * v) - 65536 * speedOverflows v = (truncZ (1000 * v)).tmod 65536 :=
    (Int.tmod_def _ _).symm
  have hmag : ((BitVec.ofInt 32 (truncZ (1000 * |v|))).toNat % 65536 : ℕ) =
      |truncZ (1000 * v)|.tmod 65536 := by
    have h1000 : (1000 : K) * |v| = |1000 * v| := by rw [abs_mul, Nat.abs_ofNat]
    obtain ⟨hlo, hhi⟩ := h.speed_bounds
    rw [h1000, truncZ_abs] at hlo hhi ⊢
    rw [Int.tmod_eq_emod_of_nonneg hlo, BitVec.toNat_ofInt]
    omega
  have hgear : (if v < 0 then Gear.R else .D).Known := by
    split <;> trivial
  rw [h.data_akmFrame hexact, parseCtrlFb_ctrlBytes hgear, hmod, feedbackSpeed]
  dsimp only
  rw [← Int.cast_natCast, hmag, mul_one_div]
  by_cases hneg : v < 0
  · -- gear R: the magnitude is negated, and so is the remainder
    rw [if_pos hneg, if_pos rfl, abs_of_nonpos (truncZ_nonpos (by linarith)), Int.neg_tmod]
    push_cast
    ring
  · rw [if_neg hneg, if_neg (by decide), abs_of_nonneg (truncZ_nonneg (by linarith))]

include hexact in
/-- **The steering angle of a command's frames.** -/
theorem decodedAngle_convertible :
    decodedAngle (akmFrame pf now c (.fin v) (.fin angle)) =
      ((100 * sentDegrees pf v angle - 65536 * angleOverflows (sentDegrees pf v angle) : ℤ) : K) /
        100 := by
  unfold decodedAngle
  change ((signed16 (angleRaw _)).toInt : K) * (1 / 100) = _
  rw [h.data_akmFrame hexact, toInt_signed16_wrap _ (toNat_angleRaw_ctrlBytes ..), mul_one_div]
  rfl

include hexact in
omit now c in
/-- The steering angle, negated back for a reverse command. -/
theorem steer_convertible (now : K) (c : BitVec 8) :
    requestedAngle v (akmFrame pf now c (.fin v) (.fin angle)) =
      ((100 * truncZ (degrees pf angle) - 65536 * steerOverflows pf v angle : ℤ) : K) / 100 := by
  unfold requestedAngle steerOverflows
  rw [decodedAngle_convertible hexact h]
  by_cases hneg : v < 0
  · -- both the angle and its overflows are turned around
    rw [if_pos hneg, if_pos hneg, sentDegrees_of_exact hexact, if_pos hneg]
    push_cast
    ring
  · rw [if_neg hneg, if_neg hneg, sentDegrees_of_exact hexact, if_neg hneg]

end Convertible

include hexact in
omit [IsStrictOrderedRing K] in
/-- The most negative `Angle` is its own negation, so it is sent whatever the gear. -/
theorem akmCommand_of_min {v angle : K} (hmin : truncZ (degrees pf angle) = -2 ^ 31) :
    (akmCommand pf (.fin v) (.fin angle)).2.2 = .fin (((-2 ^ 31 : ℤ)) : K) := by
  have hread : angleDeg pf (.fin angle) = BitVec.ofInt 32 (-2 ^ 31) := by
    rw [angleDeg, Flt.rounded_eq_self hexact, ← hmin]
    have hlt : truncZ (degrees pf angle) < 2 ^ 31 := by
      rw [hmin]
      decide
    exact Flt.toInt32_fin (show _ ∧ _ from ⟨hmin.ge, hlt⟩)
  have hneg : (-BitVec.ofInt 32 (-2 ^ 31)).toInt = -2 ^ 31 := by decide
  have hpos : (BitVec.ofInt 32 (-2 ^ 31)).toInt = -2 ^ 31 := by decide
  unfold akmCommand
  simp only [Flt.rounded_eq_self hexact, hexact _]
  rw [hread]
  split
  · rw [hneg]
  · rw [hpos]

include hexact in
/-- **The convertible commands.** They are the finite ones whose conversions are all
defined. -/
theorem conversionsDefined_fin {v angle : K} :
    ConversionsDefined pf (.fin v) (.fin angle) ↔ Convertible pf v angle := by
  refine ⟨?_, ?_⟩
  · rintro ⟨hangle, hspeed, hsteer⟩
    rw [Flt.rounded_eq_self hexact] at hspeed
    rw [Flt.rounded_eq_self hexact, Flt.rounded_eq_self hexact] at hangle
    obtain ⟨hlo, hhi⟩ : -2 ^ 31 ≤ truncZ (degrees pf angle) ∧
        truncZ (degrees pf angle) < 2 ^ 31 := hangle
    rw [akmCommand_speed, hexact, Flt.mulConst_fin, mul_comm] at hspeed
    refine ⟨?_, ?_⟩
    · -- a value that truncates below `2 ^ 32` is below it
      obtain ⟨-, hlt⟩ : 0 ≤ truncZ (1000 * |v|) ∧ truncZ (1000 * |v|) < 2 ^ 32 := hspeed
      have h0 : (0 : K) ≤ 1000 * |v| := by positivity
      have hle : (truncZ (1000 * |v|) : K) + 1 ≤ 2 ^ 32 := by exact_mod_cast hlt
      exact (lt_truncZ_add_one h0).trans_le hle
    · -- the most negative `Angle` would not fit in hundredths, negated or not
      have hmin : truncZ (degrees pf angle) ≠ -2 ^ 31 := by
        intro hmin
        rw [akmCommand_of_min pf hexact hmin, divConst_hundredth, inInt32_intCast] at hsteer
        omega
      rw [akmCommand_exact hexact ⟨by omega, hhi⟩, divConst_hundredth, inInt32_intCast,
        sentDegrees_of_exact hexact] at hsteer
      have habs : |100 * truncZ (degrees pf angle)| < 2 ^ 31 := by
        rw [abs_lt]
        split at hsteer <;> constructor <;> omega
      rw [abs_mul] at habs
      exact habs
  · intro h
    obtain ⟨hlo, hhi⟩ := h.angle_bounds
    obtain ⟨hsentlo, hsenthi⟩ := h.sent_bounds hexact
    refine ⟨?_, ?_, ?_⟩
    · rw [Flt.rounded_eq_self hexact, Flt.rounded_eq_self hexact]
      exact show _ ∧ _ from ⟨by change _ ≤ truncZ (degrees pf angle); omega,
        by change truncZ (degrees pf angle) < _; omega⟩
    · rw [Flt.rounded_eq_self hexact, akmCommand_speed, hexact, Flt.mulConst_fin, mul_comm]
      exact h.speed_bounds
    · rw [h.akmCommand hexact, divConst_hundredth]
      exact (inInt32_intCast _).mpr ⟨hsentlo.le, hsenthi⟩

/-! ### The order of two requests -/

/-- Whenever the two commands are sent, no frame of the first decodes to a greater speed
than one of the second, counted backwards in gear R. -/
def SpeedOrdered (v₁ w₁ v₂ w₂ : K) : Prop :=
  ∀ (now₁ now₂ : K) (s₁ s₂ : State K),
    ∀ f₁ ∈ frames (sendSpeedToAKM pf now₁ s₁ (.fin v₁) (.fin w₁)).2,
    ∀ f₂ ∈ frames (sendSpeedToAKM pf now₂ s₂ (.fin v₂) (.fin w₂)).2,
      feedbackSpeed (parseCtrlFb f₁.data : Gear × K × K) ≤ feedbackSpeed (parseCtrlFb f₂.data)

/-- Nor to a greater steering angle. -/
def SteerOrdered (v w₁ w₂ : K) : Prop :=
  ∀ (now₁ now₂ : K) (s₁ s₂ : State K),
    ∀ f₁ ∈ frames (sendSpeedToAKM pf now₁ s₁ (.fin v) (.fin w₁)).2,
    ∀ f₂ ∈ frames (sendSpeedToAKM pf now₂ s₂ (.fin v) (.fin w₂)).2,
      requestedAngle v f₁ ≤ requestedAngle v f₂

/-- The encoding keeps the order of requests. -/
structure EncodingMonotone : Prop where
  speed : ∀ v₁ w₁ v₂ w₂, Convertible pf v₁ w₁ → Convertible pf v₂ w₂ → v₁ ≤ v₂ →
    SpeedOrdered pf v₁ w₁ v₂ w₂
  steer : ∀ v w₁ w₂, Convertible pf v w₁ → Convertible pf v w₂ → w₁ ≤ w₂ →
    SteerOrdered pf v w₁ w₂

omit [IsStrictOrderedRing K] in
/-- A relation between the frames of two commands that the counters do not decide. -/
theorem forall_frames_pair {l₁ a₁ l₂ a₂ : Flt K} {R : Frame K → Frame K → Prop} {X : Prop}
    (hR : ∀ now₁ now₂ c₁ c₂, R (akmFrame pf now₁ c₁ l₁ a₁) (akmFrame pf now₂ c₂ l₂ a₂) ↔ X) :
    (∀ (now₁ now₂ : K) (s₁ s₂ : State K),
      ∀ f₁ ∈ frames (sendSpeedToAKM pf now₁ s₁ l₁ a₁).2,
      ∀ f₂ ∈ frames (sendSpeedToAKM pf now₂ s₂ l₂ a₂).2, R f₁ f₂) ↔ X := by
  refine ⟨?_, ?_⟩
  · intro hall
    -- the first frame of each command will do
    have hfirst := hall 0 0 (State.initial 0) (State.initial 0) _ List.mem_cons_self _
      List.mem_cons_self
    exact (hR _ _ _ _).mp hfirst
  · intro hX now₁ now₂ s₁ s₂ f₁ hf₁ f₂ hf₂
    obtain ⟨c₁, rfl⟩ := mem_frames_sendSpeedToAKM pf now₁ s₁ hf₁
    obtain ⟨c₂, rfl⟩ := mem_frames_sendSpeedToAKM pf now₂ s₂ hf₂
    exact (hR now₁ now₂ c₁ c₂).mpr hX

include hexact in
theorem speedOrdered_iff {v₁ w₁ v₂ w₂ : K} (h₁ : Convertible pf v₁ w₁)
    (h₂ : Convertible pf v₂ w₂) :
    SpeedOrdered pf v₁ w₁ v₂ w₂ ↔
      65536 * (speedOverflows v₂ - speedOverflows v₁) ≤
        truncZ (1000 * v₂) - truncZ (1000 * v₁) := by
  refine forall_frames_pair pf ?_
  intro now₁ now₂ c₁ c₂
  have hpos : (0 : K) < 1000 := by norm_num
  rw [feedbackSpeed_convertible hexact h₁, feedbackSpeed_convertible hexact h₂,
    div_le_div_iff_of_pos_right hpos, Int.cast_le]
  constructor <;> intro h <;> linarith

include hexact in
theorem steerOrdered_iff {v w₁ w₂ : K} (h₁ : Convertible pf v w₁) (h₂ : Convertible pf v w₂) :
    SteerOrdered pf v w₁ w₂ ↔
      65536 * (steerOverflows pf v w₂ - steerOverflows pf v w₁) ≤
        100 * (truncZ (degrees pf w₂) - truncZ (degrees pf w₁)) := by
  refine forall_frames_pair pf ?_
  intro now₁ now₂ c₁ c₂
  have hpos : (0 : K) < 100 := by norm_num
  rw [steer_convertible hexact h₁, steer_convertible hexact h₂,
    div_le_div_iff_of_pos_right hpos, Int.cast_le]
  constructor <;> intro h <;> linarith

include hexact in
/-- **When the encoding keeps the order.** Of two speeds the greater encodes as the
greater, and of two steering angles likewise, exactly if they are at least 65536 units
apart for each overflow that lies between them. -/
theorem monotone_iff :
    (∀ v₁ w₁ v₂ w₂ : K, Convertible pf v₁ w₁ → Convertible pf v₂ w₂ → v₁ ≤ v₂ →
      (SpeedOrdered pf v₁ w₁ v₂ w₂ ↔
        65536 * (speedOverflows v₂ - speedOverflows v₁) ≤
          truncZ (1000 * v₂) - truncZ (1000 * v₁))) ∧
    (∀ v w₁ w₂ : K, Convertible pf v w₁ → Convertible pf v w₂ → w₁ ≤ w₂ →
      (SteerOrdered pf v w₁ w₂ ↔
        65536 * (steerOverflows pf v w₂ - steerOverflows pf v w₁) ≤
          100 * (truncZ (degrees pf w₂) - truncZ (degrees pf w₁)))) := by
  refine ⟨?_, ?_⟩
  · intro v₁ w₁ v₂ w₂ h₁ h₂ _
    exact speedOrdered_iff pf hexact h₁ h₂
  · intro v w₁ w₂ h₁ h₂ _
    exact steerOrdered_iff pf hexact h₁ h₂

/-- 66 m/s goes out as 0.464 m/s, and 65 m/s as itself; 328° goes out as -327.36°. -/
theorem monotone_lost :
    ¬ EncodingMonotone Platform.ratExact ∧
      ¬ SteerOrdered Platform.ratExact 1 (571 / 100) (573 / 100) := by
  refine ⟨?_, ?_⟩
  · intro h
    have hspeed := h.speed 65 0 66 0 ⟨by decide +kernel, by decide +kernel⟩
      ⟨by decide +kernel, by decide +kernel⟩ (by norm_num) 0 0 (State.initial 0) (State.initial 0)
      _ List.mem_cons_self _ List.mem_cons_self
    -- 65000 against 66000 - 65536
    revert hspeed
    decide +kernel
  · intro h
    have hsteer := h 0 0 (State.initial 0) (State.initial 0) _ List.mem_cons_self _
      List.mem_cons_self
    -- 32700 against 32800 - 65536
    revert hsteer
    decide +kernel

/-- `monotone_iff` at 65 m/s and 131 m/s, and in reverse at 0.1 rad and 12 rad: one
overflow between the two, and more than its 65536 units. -/
theorem monotone_across_overflow :
    SpeedOrdered Platform.ratExact 65 0 131 0 ∧ SteerOrdered Platform.ratExact (-1) (1 / 10) 12 :=
  ⟨((monotone_iff Platform.ratExact Platform.ratExact_exact).1 65 0 131 0
      ⟨by decide +kernel, by decide +kernel⟩ ⟨by decide +kernel, by decide +kernel⟩
      (by norm_num)).mpr (by decide +kernel),
    ((monotone_iff Platform.ratExact Platform.ratExact_exact).2 (-1) (1 / 10) 12
      ⟨by decide +kernel, by decide +kernel⟩ ⟨by decide +kernel, by decide +kernel⟩
      (by norm_num)).mpr (by decide +kernel)⟩

end Driver
end WtbAutoware
