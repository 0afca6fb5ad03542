import WtbAutoware.Driver.Wire

/-!
# The speed limit

Both command callbacks cut a speed above `max_speed_` down to it. They compare the
signed value, so a negative speed is never cut: `SendSpeedToAKM` sends its magnitude
in gear R as it is, and the frame keeps sixteen bits of it. `speedField_limited` is
the magnitude that goes out, and `speed_limit_iff` says for which commands it respects
the limit: all that are not negative, and the negative ones that are small, or small
above a multiple of 65.536 m/s (`ReverseFits`). The arithmetic is exact
(`Platform.Exact`).
-/

namespace WtbAutoware
namespace Driver

open Reactive

variable {K : Type} [Field K] [LinearOrder K] [IsStrictOrderedRing K] [FloorRing K]
  (P : Params K) {pf : Platform K} (hexact : pf.Exact)

/-- The speed that the decoder reads in a frame. -/
def decodedSpeed (f : Frame K) : K := (parseCtrlFb f.data : Gear × K × K).2.1

/-- In units of 0.001 m/s, the magnitude of `v` is above a multiple of `2 ^ 16` (zero
included) by no more than the limit, up to truncation. -/
def ReverseFits (v : K) : Prop :=
  ∃ k : ℕ, (65536 * k : K) ≤ 1000 * |v| ∧
    1000 * |v| < 65536 * k + ⌊1000 * P.maxSpeed⌋ + 1

include hexact in
/-- **The speed field of a command.** The truncated magnitude of the limited speed,
modulo `2 ^ 16`. -/
theorem speedField_limited {v : K} (hdef : 1000 * |min v P.maxSpeed| < 2 ^ 32) (now : K)
    (c : BitVec 8) (angle : Flt K) :
    (speedField (akmFrame pf now c (limitSpeed P (.fin v)) angle) : ℤ) =
      ⌊1000 * |min v P.maxSpeed|⌋ % 65536 := by
  rw [limitSpeed_fin, speedField_akmFrame, akmCommand_speed, hexact, Flt.mulConst_fin,
    Flt.rounded_fin, hexact, mul_comm]
  have hnonneg : (0 : K) ≤ 1000 * |min v P.maxSpeed| := by positivity
  have hlo := Int.floor_nonneg.mpr hnonneg
  have hhi : ⌊1000 * |min v P.maxSpeed|⌋ < 2 ^ 32 := by
    rw [Int.floor_lt]
    exact_mod_cast hdef
  -- so the conversion is defined, and gives the floor
  have htrunc := truncZ_of_nonneg hnonneg
  have hin : (Flt.fin (1000 * |min v P.maxSpeed|)).InUInt32 :=
    show _ ∧ _ from ⟨by rw [htrunc]; exact hlo, by rw [htrunc]; exact hhi⟩
  rw [Flt.toUInt32_fin hin, htrunc, BitVec.toNat_ofInt]
  omega

omit [LinearOrder K] [IsStrictOrderedRing K] [FloorRing K] in
theorem decodedSpeed_eq (f : Frame K) : decodedSpeed f = (speedField f : K) * (1 / 1000) := rfl

/-- A frame respects the limit if its speed field does, in its own unit. -/
theorem abs_decodedSpeed_le_iff (f : Frame K) :
    |decodedSpeed f| ≤ P.maxSpeed ↔ (speedField f : ℤ) ≤ ⌊1000 * P.maxSpeed⌋ := by
  have hnonneg : (0 : K) ≤ (speedField f : K) * (1 / 1000) := by positivity
  rw [decodedSpeed_eq, abs_of_nonneg hnonneg, Int.le_floor]
  push_cast
  refine ⟨?_, ?_⟩
  · intro h
    linarith
  · intro h
    linarith

omit [IsStrictOrderedRing K] in
/-- The bounds of `ReverseFits` on the field that is sent, which is rounded down. -/
theorem reverseFits_iff_floor (v : K) :
    ReverseFits P v ↔ ∃ k : ℕ, 65536 * (k : ℤ) ≤ ⌊1000 * |v|⌋ ∧
      ⌊1000 * |v|⌋ < 65536 * (k : ℤ) + ⌊1000 * P.maxSpeed⌋ + 1 := by
  unfold ReverseFits
  refine exists_congr fun k => and_congr ?_ ?_
  · rw [Int.le_floor]
    push_cast
    rfl
  · rw [Int.floor_lt]
    push_cast
    rfl

include hexact in
/-- **The speed limit.** For every limit up to 65.535 m/s, in every state and on both
topics: the frames of a finite command that is sent, and whose conversion is defined,
all decode to a magnitude within the limit exactly if the command is not negative or
`ReverseFits`. -/
theorem speed_limit_iff (s : State K) {e : Timed K (Event K)} {tw : Twist K} {v : K}
    (hcmd : e.ev.command = some tw) (hv : tw.linearX = .fin v)
    (hopen : ∀ tw', e.ev = .cmdVel tw' → ¬ StopInForce P pf e.time s)
    (hmax : 0 ≤ P.maxSpeed ∧ P.maxSpeed ≤ 65535 / 1000) (hdef : 1000 * |v| < 2 ^ 32) :
    (∀ f ∈ frames (step P pf s e).2, |decodedSpeed f| ≤ P.maxSpeed) ↔
      0 ≤ v ∨ ReverseFits P v := by
  obtain ⟨hmax0, hmax1⟩ := hmax
  have hlimit : ⌊1000 * P.maxSpeed⌋ ≤ 65535 := by
    have hle : (1000 * P.maxSpeed : K) < (65535 : ℤ) + 1 := by
      push_cast
      linarith
    exact Int.lt_add_one_iff.mp (Int.floor_lt.mpr (by exact_mod_cast hle))
  refine forall_frames_command P pf s hcmd hopen ?_
  intro c
  rw [hv, abs_decodedSpeed_le_iff]
  rcases le_or_gt 0 v with hpos | hneg
  · -- cut down to the limit, and the limit fits the field
    refine iff_of_true ?_ (Or.inl hpos)
    have hmin : 0 ≤ min v P.maxSpeed := le_min hpos hmax0
    have hle : 1000 * |min v P.maxSpeed| ≤ 1000 * P.maxSpeed := by
      rw [abs_of_nonneg hmin]
      gcongr
      exact min_le_right v P.maxSpeed
    have hfloor := Int.floor_le_floor hle
    have h0 : 0 ≤ ⌊1000 * |min v P.maxSpeed|⌋ := Int.floor_nonneg.mpr (by positivity)
    rw [speedField_limited P hexact (hle.trans_lt (by linarith)), Int.emod_eq_of_lt h0 (by omega)]
    exact hfloor
  · -- a negative speed is below the limit whatever its magnitude
    have hmin : min v P.maxSpeed = v := min_eq_left (hneg.le.trans hmax0)
    rw [speedField_limited P hexact (by rw [hmin]; exact hdef), hmin]
    have h0 : 0 ≤ ⌊1000 * |v|⌋ := Int.floor_nonneg.mpr (by positivity)
    rw [or_iff_right (not_le.mpr hneg), reverseFits_iff_floor]
    refine ⟨?_, ?_⟩
    · intro hmod
      refine ⟨(⌊1000 * |v|⌋ / 65536).toNat, ?_, ?_⟩ <;> omega
    · rintro ⟨k, hlo, hhi⟩
      -- the limit is below `2 ^ 16`, so `k` is the quotient
      omega

/-- With a limit of 1 m/s, -50 m/s goes out as 50 m/s in gear R, on either topic. -/
theorem reverse_not_limited :
    ¬ (∀ f ∈ frames (step Params.default Platform.ratExact (State.initial 0)
        ⟨1, .cmdVel ⟨.fin (-50), .fin 0⟩⟩).2,
        |decodedSpeed f| ≤ (Params.default : Params ℚ).maxSpeed) ∧
      ¬ (∀ f ∈ frames (step Params.default Platform.ratExact (State.initial 0)
        ⟨1, .twistCmd ⟨⟨1, "base_link"⟩, ⟨.fin (-50), .fin 0⟩⟩⟩).2,
        |decodedSpeed f| ≤ (Params.default : Params ℚ).maxSpeed) := by
  decide +kernel

/-- `speed_limit_iff` at 30 m/s forwards under a limit of 1 m/s: three frames are sent, and
all of them are within it. -/
theorem speed_limit_forward :
    (frames (step Params.default Platform.ratExact (State.initial 0)
      ⟨(1 : ℚ), .cmdVel ⟨.fin 30, .fin 0⟩⟩).2).length = 3 ∧
    ∀ f ∈ frames (step Params.default Platform.ratExact (State.initial 0)
      ⟨1, .cmdVel ⟨.fin 30, .fin 0⟩⟩).2, |decodedSpeed f| ≤ (Params.default : Params ℚ).maxSpeed :=
  ⟨by decide +kernel,
    (speed_limit_iff Params.default Platform.ratExact_exact (State.initial 0) (e := ⟨1, _⟩) rfl rfl
      (fun _ _ h => absurd h.1 (by decide)) (by norm_num [Params.default])
      (by norm_num)).mpr (Or.inl (by norm_num))⟩

end Driver
end WtbAutoware
