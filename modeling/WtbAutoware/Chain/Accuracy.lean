import WtbAutoware.Chain.Topics
import WtbAutoware.Driver.Wire

/-!
# From a control command to the CAN bus

What is left of the velocity and of the steering angle of a control command in the
frames that the driver sends for it. `Accurate` bounds both errors by one unit of
the frame: 0.001 m/s and 0.01°. `CommandAccuracy` asks it of every delivery that may follow
a run.

The speed meets its bound for every command. The steering angle does so exactly if
it is within 0.01° of a whole number of degrees (`accuracy_iff`): `SendSpeedToAKM`
truncates the angle to an `int` in degrees before the encoder scales it to the
frame's 0.01°, and what the truncation loses is the fractional part of the
magnitude (`abs_truncZ_sub`). `accuracy_lost` is a command of 0.1 rad, 5.73°, that
goes out as 5°. The arithmetic is exact (`Platform.Exact`).
-/

namespace WtbAutoware
namespace Chain

open Reactive Driver

variable {K : Type} [Field K] [LinearOrder K] [IsStrictOrderedRing K] [FloorRing K]
  (C : Config K)

/-! ### The law -/

/-- The velocity of a control command, clamped. -/
def clampedVelocity (v : K) : K := stdClamp v (-C.interface.maxSpeed) C.interface.maxSpeed

/-- The steering angle of a control command, clamped. -/
def clampedSteering (a : K) : K :=
  stdClamp a (-C.interface.maxSteeringAngle) C.interface.maxSteeringAngle

/-- The frame decodes to the clamped command, up to one unit of each field. -/
def Accurate (v a : K) (f : Frame K) : Prop :=
  let fb : Gear × K × K := parseCtrlFb f.data
  clampedVelocity C v - 1 / 1000 < fb.2.1 ∧ fb.2.1 ≤ clampedVelocity C v ∧
    |fb.2.2 - degrees C.platform (clampedSteering C a)| ≤ 1 / 100

instance (v a : K) (f : Frame K) : Decidable (Accurate C v a f) :=
  inferInstanceAs (Decidable (_ ∧ _ ∧ _))

/-- The message is a command that the interface published for the control command
`(v, a)`. -/
def IsControl (env : Message K) (v a : K) : Prop :=
  env.cause.ev = .controlCmd ⟨.fin v, .fin a⟩

/-- Whatever control command with a velocity of at least 0 is in flight after the
run, every frame that the driver sends for it on delivery is accurate. -/
def CommandAccuracy (es : Run K) : Prop :=
  ∀ (i : ℕ) (t : K) (env : Message K) (v a : K), (C.after es).flight[i]? = some env →
    IsControl env v a → 0 ≤ v →
    ∀ f ∈ frames (step C.driver C.platform (C.after es).down ⟨t, env.msg⟩).2, Accurate C v a f

/-! ### One command -/

/-- What the interface puts in flight for a control command. -/
theorem msg_of_control {es : Run K} {env : Message K} (henv : env ∈ (C.after es).flight) {v a : K}
    (hctrl : IsControl env v a) (htwist : C.interface.publishTwistCmd = true) :
    env.msg = .twistCmd ⟨⟨env.cause.time, "base_link"⟩,
      ⟨.fin (clampedVelocity C v), .fin (clampedSteering C a)⟩⟩ := by
  obtain ⟨-, hposted⟩ := C.chain.posted_of_mem_flight henv
  obtain ⟨-, -, o, ho, hport⟩ := C.chain.mem_posted hposted
  -- the step that posted the message handled the control command
  obtain ⟨src, ⟨now, ev⟩, m⟩ := env
  obtain rfl : ev = .controlCmd ⟨.fin v, .fin a⟩ := hctrl
  change o ∈ (Interface.onControlCmd C.interface C.msgs now src ⟨.fin v, .fin a⟩).2 at ho
  unfold Interface.onControlCmd Interface.publishChassisCommand at ho
  by_cases hauto : Interface.IsAutonomous C.msgs src.currentControlMode
  · rw [if_neg (not_not.mpr hauto)] at ho
    dsimp only at ho
    rw [if_pos htwist] at ho
    obtain rfl := List.mem_singleton.mp ho
    obtain rfl := Option.some.inj hport
    simp [clampedVelocity, clampedSteering]
  · -- outside the autonomous modes it would have posted nothing
    rw [if_pos hauto] at ho
    exact absurd ho List.not_mem_nil

omit [FloorRing K] in
theorem clampedVelocity_nonneg (hmax : 0 ≤ C.interface.maxSpeed) {v : K} (hv : 0 ≤ v) :
    0 ≤ clampedVelocity C v := by
  by_contra h
  -- the clamp would have turned a sign around
  exact absurd ((SameSign.stdClamp_left v hmax).2 (not_le.mp h)) (not_lt.mpr hv)

omit [FloorRing K] in
/-- The clamped steering angle in degrees is bounded by the clamp in degrees. -/
theorem abs_degrees_clampedSteering (hmax : 0 ≤ C.interface.maxSteeringAngle) (a : K) :
    |degrees C.platform (clampedSteering C a)| ≤
      degrees C.platform C.interface.maxSteeringAngle := by
  have hpi := C.platform.pi_pos
  have hle : |clampedSteering C a| ≤ C.interface.maxSteeringAngle :=
    abs_le.mpr ⟨le_stdClamp (neg_le_self hmax), stdClamp_le (neg_le_self hmax)⟩
  rw [degrees, degrees, abs_div, abs_mul, abs_of_pos hpi, abs_of_pos (by norm_num : (0 : K) < 180)]
  gcongr

/-- **How accurate a command is on the bus.** In exact arithmetic, for every delivery of
a command of velocity at least 0, after every run: the frames are accurate if and only if
the clamped steering angle, in degrees, exceeds a whole number by at most 0.01 in
magnitude. -/
theorem accuracy_iff (hexact : C.platform.Exact)
    (hsame : C.driver.maxSpeed = C.interface.maxSpeed)
    (hspeed : 0 ≤ C.interface.maxSpeed ∧ C.interface.maxSpeed ≤ 65535 / 1000)
    (hsteer : 0 ≤ C.interface.maxSteeringAngle ∧
      degrees C.platform C.interface.maxSteeringAngle ≤ 327)
    (htwist : C.interface.publishTwistCmd = true)
    (es : Run K) (i : ℕ) (t : K) (env : Message K) (v a : K)
    (henv : (C.after es).flight[i]? = some env) (hctrl : IsControl env v a) (hv : 0 ≤ v) :
    (∀ f ∈ frames (step C.driver C.platform (C.after es).down ⟨t, env.msg⟩).2,
        Accurate C v a f) ↔
      Int.fract |degrees C.platform (clampedSteering C a)| ≤ 1 / 100 := by
  have hmsg := msg_of_control C (List.mem_of_getElem? henv) hctrl htwist
  have hnonneg := clampedVelocity_nonneg C hspeed.1 hv
  have hle : clampedVelocity C v ≤ C.interface.maxSpeed := stdClamp_le (neg_le_self hspeed.1)
  have hrep : Representable C.platform (clampedVelocity C v) (clampedSteering C a) := by
    refine ⟨?_, ?_⟩
    · rw [wireSpeed_of_exact hexact, abs_of_nonneg (by positivity)]
      linarith [hspeed.2]
    · rw [floatDegrees_of_exact hexact]
      exact ((abs_degrees_clampedSteering C hsteer.1 a).trans hsteer.2).trans_lt (by norm_num)
  -- every frame of the command decodes alike, whatever its counter
  have hdecode (c : BitVec 8) : Accurate C v a (akmFrame C.platform t c
      (limitSpeed C.driver (.fin (clampedVelocity C v))) (.fin (clampedSteering C a))) ↔
      Int.fract |degrees C.platform (clampedSteering C a)| ≤ 1 / 100 := by
    have h0 : (0 : K) ≤ 1000 * clampedVelocity C v := by positivity
    rw [limitSpeed_fin, hsame, min_eq_left hle, Accurate, parseCtrlFb_akmFrame hrep, hexact,
      if_neg (not_lt.mpr hnonneg), if_neg (not_lt.mpr hnonneg), wireSpeed_of_exact hexact,
      floatDegrees_of_exact hexact, abs_of_nonneg h0]
    dsimp only
    -- the speed meets its bound in any case, so the angle decides
    rw [abs_truncZ_sub]
    have hlo := truncZ_le h0
    have hhi := lt_truncZ_add_one h0
    refine ⟨?_, ?_⟩
    · rintro ⟨-, -, hangle⟩
      exact hangle
    · intro hangle
      refine ⟨?_, ?_, hangle⟩
      · linarith
      · linarith
  rw [hmsg]
  exact forall_frames_twistCmd C.driver C.platform _ hdecode

/-! ### An angle that is lost -/

/-- AUTONOMOUS, and a control command of 1 m/s and 0.1 rad. -/
def steerRun : Run ℚ :=
  [.up ⟨0, .controlModeRequest 1⟩, .up ⟨1, .controlCmd ⟨.fin 1, .fin (1 / 10)⟩⟩]

/-- With the default parameters the command of `steerRun` goes out with a steering
angle of 5°, while 0.1 rad are 5.73°. -/
theorem accuracy_lost : ¬ CommandAccuracy Config.exact steerRun := by
  intro h
  have hacc := h 0 1 _ 1 (1 / 10) rfl rfl (by norm_num) _ List.mem_cons_self
  -- 5° against 5.73°
  revert hacc
  decide +kernel

/-- `accuracy_iff` at the command of `steerRun`. -/
theorem accuracy_iff_steerRun :
    ∃ env, (Config.exact.after steerRun).flight[0]? = some env ∧
      ((∀ f ∈ frames (step Config.exact.driver Config.exact.platform
          (Config.exact.after steerRun).down ⟨1, env.msg⟩).2,
          Accurate Config.exact 1 (1 / 10) f) ↔
        Int.fract |degrees Platform.ratExact (clampedSteering Config.exact (1 / 10))| ≤ 1 / 100) :=
  ⟨_, rfl, accuracy_iff Config.exact Platform.ratExact_exact rfl
    ⟨by decide +kernel, by decide +kernel⟩ ⟨by decide +kernel, by decide +kernel⟩ rfl
    steerRun 0 1 _ 1 (1 / 10) rfl rfl (by norm_num)⟩

end Chain
end WtbAutoware
