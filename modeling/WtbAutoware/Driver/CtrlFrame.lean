import WtbAutoware.Framework.BitField
import WtbAutoware.Platform

/-!
# The control frame and the feedback frame

`buildCtrlCmdData` packs a gear, a speed and a steering angle into the eight
bytes of a control frame, and `parseCtrlFb` reads the same fields back from a
feedback frame. The two use one payload layout:

| bits   | field                                   | unit      |
|--------|-----------------------------------------|-----------|
| 0-3    | gear                                    |           |
| 4-19   | speed, unsigned                         | 0.001 m/s |
| 20-35  | steering angle, two's complement        | 0.01°     |
| 52-55  | rolling counter (control frame only)    |           |
| 56-63  | xor of the other seven bytes (likewise) |           |

`ctrlBytes` is the byte assembly, `speedRaw` and `angleRaw` the two words that
the decoder reassembles. `toNat_speedRaw_ctrlBytes` and its steering twin say
that the words survive the trip modulo `2 ^ 16`, and `ctrlBytes_raw` that the
bytes do. The numeric conversions come on top of these two.
-/

namespace WtbAutoware
namespace Driver

open BitField

/-- The gear names of `GearMapping` and `GearMap`. `unknown raw` stands for the
text that the decoder makes up for any other nibble, `未知(raw)`. -/
inductive Gear where
  | disable
  | P
  | R
  | N
  | D
  | unknown (raw : BitVec 8)
  deriving DecidableEq

/-- `GearMapping[TargetGear]`. A name that the map does not hold is inserted with
the value `0`. -/
def gearMapping : Gear → BitVec 8
  | .disable => 0x00
  | .P => 0x01
  | .R => 0x02
  | .N => 0x03
  | .D => 0x04
  | .unknown _ => 0

/-- `GearMap`, with the text for the nibbles that are not in it. -/
def gearMap (raw : BitVec 8) : Gear :=
  if raw = 0 then .disable
  else if raw = 1 then .P
  else if raw = 2 then .R
  else if raw = 3 then .N
  else if raw = 4 then .D
  else .unknown raw

/-- The byte assembly of `BuildCtrlCmdData`. -/
def ctrlBytes (gearValue : BitVec 8) (speedInt steerAngleInt : BitVec 32)
    (aliveCounter : BitVec 8) : Vector (BitVec 8) 8 :=
  -- the low nibble of a word shares a byte with the field before it
  let data0 := (gearValue &&& 0x0F#8) ||| ((speedInt &&& 0x0F#32) <<< 4).setWidth 8
  let data1 := ((speedInt &&& 0x0FF0#32) >>> 4).setWidth 8
  let data2 := ((speedInt &&& 0xF000#32) >>> 12).setWidth 8 |||
    ((steerAngleInt &&& 0x0F#32) <<< 4).setWidth 8
  let data3 := ((steerAngleInt &&& 0x0FF0#32) >>> 4).setWidth 8
  let data4 := ((steerAngleInt &&& 0xF000#32) >>> 12).setWidth 8
  let data5 := 0#8
  let data6 := (aliveCounter <<< 4) &&& 0xF0#8
  #v[data0, data1, data2, data3, data4, data5, data6,
    data0 ^^^ data1 ^^^ data2 ^^^ data3 ^^^ data4 ^^^ data5 ^^^ data6]

/-- `AliveCounter = (AliveCounter + 1) % 16`. -/
def nextAlive (aliveCounter : BitVec 8) : BitVec 8 :=
  BitVec.ofNat 8 ((aliveCounter.toNat + 1) % 16)

section Encode

variable {K : Type} [Field K] [LinearOrder K] [FloorRing K]

/-- `BuildCtrlCmdData`: the frame's bytes, and the counter it leaves. The speed and the
angle are of type `float`, and so is the product; the quotient is a `double`. -/
def buildCtrlCmdData (pf : Platform K) (aliveCounter : BitVec 8) (targetGear : Gear)
    (targetSpeed targetSteerAngle : Flt K) : Vector (BitVec 8) 8 × BitVec 8 :=
  let gearValue := gearMapping targetGear
  -- the two conversions truncate towards zero, and are undefined outside their range
  let speedInt := ((targetSpeed.mulConst 1000).rounded pf.float).toUInt32 pf.undefUInt
  let steerAngleInt := (targetSteerAngle.divConst (1 / 100)).toInt32 pf.undefInt
  (ctrlBytes gearValue speedInt steerAngleInt aliveCounter, nextAlive aliveCounter)

end Encode

/-- `GearRaw`. -/
def gearRaw (data : Vector (BitVec 8) 8) : BitVec 8 := data[0] &&& 0x0F#8

/-- `SpeedRaw`. -/
def speedRaw (data : Vector (BitVec 8) 8) : BitVec 32 :=
  let speedLow := (data[0] >>> 4).setWidth 32
  let speedMid := data[1].setWidth 32
  let speedHigh := (data[2] &&& 0x0F#8).setWidth 32
  (speedHigh <<< 12) ||| (speedMid <<< 4) ||| speedLow

/-- `AngleRaw`, before the sign is restored. -/
def angleRaw (data : Vector (BitVec 8) 8) : BitVec 32 :=
  let angleLow := (data[2] >>> 4).setWidth 32
  let angleMid := data[3].setWidth 32
  let angleHigh := (data[4] &&& 0x0F#8).setWidth 32
  (angleHigh <<< 12) ||| (angleMid <<< 4) ||| angleLow

/-- The sign of a 16-bit field, restored in an `int`. -/
def signed16 (raw : BitVec 32) : BitVec 32 :=
  if raw &&& 0x8000#32 ≠ 0 then raw - 0x10000#32 else raw

/-- `ParseCtrlFb`: gear, speed in m/s and steering angle in degrees. -/
def parseCtrlFb {K : Type} [Field K] (data : Vector (BitVec 8) 8) : Gear × K × K :=
  (gearMap (gearRaw data), (speedRaw data).toNat * (1 / 1000),
    (signed16 (angleRaw data)).toInt * (1 / 100))

/-- The charge in percent that the battery frame carries. -/
def batteryRaw (data : Vector (BitVec 8) 8) : BitVec 8 := data[0]

/-! ### The layout, digit by digit -/

section Layout

variable (g : BitVec 8) (s a : BitVec 32) (c : BitVec 8)

/-- A nibble moved into the upper half of a byte. -/
private theorem toNat_high_nibble (x : BitVec 32) :
    (((x &&& 0x0F#32) <<< 4).setWidth 8).toNat = x.toNat % 16 * 16 := by
  have hx : (x &&& 0x0F#32).toNat = x.toNat % 16 := toNat_low x (k := 4) (by decide)
  rw [BitVec.toNat_setWidth, BitVec.toNat_shiftLeft, hx, Nat.shiftLeft_eq]
  omega

/-- Two nibbles put into one byte. -/
private theorem toNat_two_nibbles {lo : BitVec 8} (hlo : lo.toNat < 16) (x : BitVec 32) :
    (lo ||| ((x &&& 0x0F#32) <<< 4).setWidth 8).toNat = lo.toNat + x.toNat % 16 * 16 := by
  rw [BitVec.toNat_or, toNat_high_nibble, Nat.or_comm]
  -- the two nibbles share no bit, so the or is a sum
  have h : x.toNat % 16 * 16 + lo.toNat = x.toNat % 16 * 16 ||| lo.toNat := by
    simpa [Nat.shiftLeft_eq] using Nat.shiftLeft_add_eq_or_of_lt (i := 4) hlo (x.toNat % 16)
  omega

private theorem toNat_mid_byte (x : BitVec 32) :
    (((x &&& 0x0FF0#32) >>> 4).setWidth 8).toNat = x.toNat / 16 % 256 := by
  rw [BitVec.toNat_setWidth, toNat_field x (k := 8) (by decide)]
  omega

private theorem toNat_top_nibble (x : BitVec 32) :
    (((x &&& 0xF000#32) >>> 12).setWidth 8).toNat = x.toNat / 4096 % 16 := by
  rw [BitVec.toNat_setWidth, toNat_field x (k := 4) (by decide)]
  omega

theorem toNat_ctrlBytes_zero :
    (ctrlBytes g s a c)[0].toNat = g.toNat % 16 + s.toNat % 16 * 16 := by
  have hg : (g &&& 0x0F#8).toNat = g.toNat % 16 := toNat_low g (k := 4) (by decide)
  rw [← hg]
  exact toNat_two_nibbles (by omega) s

theorem toNat_ctrlBytes_one : (ctrlBytes g s a c)[1].toNat = s.toNat / 16 % 256 :=
  toNat_mid_byte s

theorem toNat_ctrlBytes_two :
    (ctrlBytes g s a c)[2].toNat = s.toNat / 4096 % 16 + a.toNat % 16 * 16 := by
  have hs := toNat_top_nibble s
  rw [← hs]
  exact toNat_two_nibbles (by omega) a

theorem toNat_ctrlBytes_three : (ctrlBytes g s a c)[3].toNat = a.toNat / 16 % 256 :=
  toNat_mid_byte a

theorem toNat_ctrlBytes_four : (ctrlBytes g s a c)[4].toNat = a.toNat / 4096 % 16 :=
  toNat_top_nibble a

theorem ctrlBytes_five : (ctrlBytes g s a c)[5] = 0 := rfl

theorem toNat_ctrlBytes_six : (ctrlBytes g s a c)[6].toNat = c.toNat % 16 * 16 := by
  change ((c <<< 4) &&& 0xF0#8).toNat = _
  -- the shift has cleared the low nibble, so the mask does nothing
  have h : ((c <<< 4) &&& 0xF0#8) = c <<< 4 := by
    ext i hi
    simp only [BitVec.getElem_and, BitVec.getElem_shiftLeft]
    rcases i with _ | _ | _ | _ | _ | _ | _ | _ | i <;> first | omega | simp
  rw [h, BitVec.toNat_shiftLeft, Nat.shiftLeft_eq]
  omega

/-- The checksum byte cancels the other seven. -/
theorem ctrlBytes_xor :
    (ctrlBytes g s a c).toList.foldl (· ^^^ ·) 0 = 0 := by
  simp [ctrlBytes]

/-- A word cut into a high nibble, a middle byte and a low nibble, put together
again. -/
private theorem toNat_reassemble {lo mid hi : BitVec 8} (hlo : lo.toNat < 16)
    (hhi : hi.toNat < 16) :
    ((hi.setWidth 32 <<< 12) ||| (mid.setWidth 32 <<< 4) ||| lo.setWidth 32).toNat =
      lo.toNat + mid.toNat * 16 + hi.toNat * 4096 := by
  have hmid := mid.isLt
  have h1 : ((mid.setWidth 32 <<< 4) ||| lo.setWidth 32).toNat = lo.toNat + mid.toNat * 16 := by
    rw [BitVec.or_comm, toNat_or_shiftLeft] <;> simp <;> omega
  -- the twelve bits below are full at most, so the high nibble is added on top
  rw [BitVec.or_assoc, BitVec.or_comm, toNat_or_shiftLeft, h1] <;> simp [h1] <;> omega

theorem toNat_gearRaw (d : Vector (BitVec 8) 8) : (gearRaw d).toNat = d[0].toNat % 16 :=
  toNat_low d[0] (k := 4) (by decide)

theorem toNat_speedRaw (d : Vector (BitVec 8) 8) :
    (speedRaw d).toNat = d[0].toNat / 16 + d[1].toNat * 16 + d[2].toNat % 16 * 4096 := by
  have h0 : (d[0] >>> 4).toNat = d[0].toNat / 16 := by simp [Nat.shiftRight_eq_div_pow]
  have h2 : (d[2] &&& 0x0F#8).toNat = d[2].toNat % 16 := toNat_low d[2] (k := 4) (by decide)
  have hb := d[0].isLt
  rw [← h0, ← h2]
  exact toNat_reassemble (by omega) (by omega)

theorem toNat_angleRaw (d : Vector (BitVec 8) 8) :
    (angleRaw d).toNat = d[2].toNat / 16 + d[3].toNat * 16 + d[4].toNat % 16 * 4096 := by
  have h2 : (d[2] >>> 4).toNat = d[2].toNat / 16 := by simp [Nat.shiftRight_eq_div_pow]
  have h4 : (d[4] &&& 0x0F#8).toNat = d[4].toNat % 16 := toNat_low d[4] (k := 4) (by decide)
  have hb := d[2].isLt
  rw [← h2, ← h4]
  exact toNat_reassemble (by omega) (by omega)

end Layout

/-! ### The words survive the trip -/

section Words

variable (g : BitVec 8) (s a : BitVec 32) (c : BitVec 8)

theorem toNat_gearRaw_ctrlBytes : (gearRaw (ctrlBytes g s a c)).toNat = g.toNat % 16 := by
  rw [toNat_gearRaw, toNat_ctrlBytes_zero]
  omega

/-- The speed word is carried modulo `2 ^ 16`. -/
theorem toNat_speedRaw_ctrlBytes :
    (speedRaw (ctrlBytes g s a c)).toNat = s.toNat % 65536 := by
  rw [toNat_speedRaw, toNat_ctrlBytes_zero, toNat_ctrlBytes_one, toNat_ctrlBytes_two]
  omega

/-- The steering word is carried modulo `2 ^ 16`. -/
theorem toNat_angleRaw_ctrlBytes :
    (angleRaw (ctrlBytes g s a c)).toNat = a.toNat % 65536 := by
  rw [toNat_angleRaw, toNat_ctrlBytes_two, toNat_ctrlBytes_three, toNat_ctrlBytes_four]
  omega

theorem toNat_angleRaw_lt (d : Vector (BitVec 8) 8) : (angleRaw d).toNat < 65536 := by
  have h2 := d[2].isLt
  have h3 := d[3].isLt
  rw [toNat_angleRaw]
  omega

theorem toNat_speedRaw_lt (d : Vector (BitVec 8) 8) : (speedRaw d).toNat < 65536 := by
  have h0 := d[0].isLt
  have h1 := d[1].isLt
  rw [toNat_speedRaw]
  omega

/-- Restoring the sign reads a 16-bit word as two's complement. -/
theorem toInt_signed16 {r : BitVec 32} (h : r.toNat < 65536) :
    (signed16 r).toInt = if r.toNat < 32768 then (r.toNat : ℤ) else r.toNat - 65536 := by
  have hbit : r &&& 0x8000#32 = 0 ↔ r.toNat / 32768 % 2 = 0 :=
    and_bit_eq_zero_iff r (i := 15) (by decide)
  unfold signed16
  by_cases hr : r.toNat < 32768
  · -- the sign bit is clear, and the word is its own value
    rw [if_neg (not_not.mpr (hbit.mpr (by omega))), if_pos hr, BitVec.toInt_eq_toNat_cond,
      if_pos (by omega)]
  · -- subtracting `2 ^ 16` wraps around in 32 bits, to the negative value
    have hsub : (r - 0x10000#32).toNat = r.toNat + 4294901760 := by
      rw [BitVec.toNat_sub]
      simp
      omega
    rw [if_pos (fun h0 => by have := hbit.mp h0; omega), if_neg hr, BitVec.toInt_eq_toNat_cond,
      if_neg (by omega), hsub]
    omega

/-- **A word in sixteen signed bits.** It comes back less 65536 for each overflow. -/
theorem toInt_signed16_wrap (A : ℤ) {r : BitVec 32}
    (hr : r.toNat = (BitVec.ofInt 32 A).toNat % 65536) :
    (signed16 r).toInt = A - 65536 * ((A + 32768) / 65536) := by
  rw [BitVec.toNat_ofInt] at hr
  rw [toInt_signed16 (by omega)]
  split <;> omega

/-- A word that fits sixteen signed bits is read back as it was written. -/
theorem toInt_signed16_ofInt {A : ℤ} (hlo : -32768 ≤ A) (hhi : A ≤ 32767) {r : BitVec 32}
    (hr : r.toNat = (BitVec.ofInt 32 A).toNat % 65536) : (signed16 r).toInt = A := by
  have hnone : (A + 32768) / 65536 = 0 := by omega
  rw [toInt_signed16_wrap A hr, hnone, mul_zero, sub_zero]

/-- The signed reading of a decoded angle word, and the word it came from. -/
theorem toNat_ofInt_signed16 {r : BitVec 32} (h : r.toNat < 65536) :
    (BitVec.ofInt 32 (signed16 r).toInt).toNat % 65536 = r.toNat := by
  rw [toInt_signed16 h, BitVec.toNat_ofInt]
  split <;> omega

/-- Two payloads with the same gear, speed and steering angle: they agree in bytes
0 to 3 and in the low nibble of byte 4. -/
structure SameFields (d d' : Vector (BitVec 8) 8) : Prop where
  byte0 : d[0] = d'[0]
  byte1 : d[1] = d'[1]
  byte2 : d[2] = d'[2]
  byte3 : d[3] = d'[3]
  byte4_low : d[4] &&& 0x0F#8 = d'[4] &&& 0x0F#8

/-- The decoder looks at these fields alone. -/
theorem parseCtrlFb_congr {K : Type} [Field K] {d d' : Vector (BitVec 8) 8}
    (h : SameFields d d') : (parseCtrlFb d : Gear × K × K) = parseCtrlFb d' := by
  simp only [parseCtrlFb, gearRaw, speedRaw, angleRaw, h.byte0, h.byte1, h.byte2, h.byte3,
    h.byte4_low]

end Words

/-! ### Gear names and gear codes -/

/-- The five names that have a code of their own. -/
def Gear.Known : Gear → Prop
  | .unknown _ => False
  | _ => True

theorem gearMap_gearMapping {g : Gear} (hg : g.Known) : gearMap (gearMapping g) = g := by
  cases g with
  | unknown raw => exact absurd hg id
  | _ => rfl

theorem gearMapping_gearMap {raw : BitVec 8} (h : raw.toNat ≤ 4) :
    gearMapping (gearMap raw) = raw := by
  obtain ⟨k, hk, rfl⟩ : ∃ k, k ≤ 4 ∧ raw = BitVec.ofNat 8 k :=
    ⟨raw.toNat, h, by simp⟩
  interval_cases k <;> rfl

theorem toNat_gearMapping_lt (g : Gear) : (gearMapping g).toNat < 16 := by
  cases g <;> simp [gearMapping]

/-- The gear code survives the trip. -/
theorem gearRaw_ctrlBytes (g : Gear) (s a : BitVec 32) (c : BitVec 8) :
    gearRaw (ctrlBytes (gearMapping g) s a c) = gearMapping g := by
  apply BitVec.eq_of_toNat_eq
  rw [toNat_gearRaw_ctrlBytes]
  exact Nat.mod_eq_of_lt (toNat_gearMapping_lt g)

/-! ### A well-formed payload -/

/-- The payload of a well-formed control frame with the number `k`, in gear D or R. -/
structure WellFormedPayload (k : ℕ) (d : Vector (BitVec 8) 8) : Prop where
  counter : (d[6] >>> 4).toNat = k % 16
  byte6_low : d[6] &&& 0x0F#8 = 0
  byte5 : d[5] = 0
  byte4_high : d[4] >>> 4 = 0
  gear : gearRaw d = gearMapping .D ∨ gearRaw d = gearMapping .R
  /-- The checksum cancels the rest. -/
  checksum : d.toList.foldl (· ^^^ ·) 0 = 0

theorem ctrlBytes_wellFormed {g : Gear} (hg : g = .D ∨ g = .R) (s a : BitVec 32) {c : BitVec 8}
    {k : ℕ} (hc : c.toNat = k % 16) :
    WellFormedPayload k (ctrlBytes (gearMapping g) s a c) where
  counter := by
    rw [BitVec.toNat_ushiftRight, Nat.shiftRight_eq_div_pow, toNat_ctrlBytes_six]
    omega
  byte6_low := by
    apply BitVec.eq_of_toNat_eq
    rw [toNat_low _ (k := 4) (by decide), toNat_ctrlBytes_six]
    exact Nat.mul_mod_left _ _
  byte5 := ctrlBytes_five ..
  byte4_high := by
    apply BitVec.eq_of_toNat_eq
    rw [BitVec.toNat_ushiftRight, Nat.shiftRight_eq_div_pow, toNat_ctrlBytes_four]
    exact Nat.div_eq_of_lt (Nat.mod_lt _ (by decide))
  gear := by
    rw [gearRaw_ctrlBytes]
    exact hg.imp (congrArg gearMapping) (congrArg gearMapping)
  checksum := ctrlBytes_xor ..

/-! ### Encoder and decoder -/

/-- What the decoder reads in a control frame: the gear, and the two words with
the rest of the layout stripped off. -/
theorem parseCtrlFb_ctrlBytes {K : Type} [Field K] {g : Gear} (hg : g.Known)
    (s a : BitVec 32) (c : BitVec 8) :
    (parseCtrlFb (ctrlBytes (gearMapping g) s a c) : Gear × K × K) =
      (g, ((s.toNat % 65536 : ℕ) : K) * (1 / 1000),
        ((signed16 (angleRaw (ctrlBytes (gearMapping g) s a c))).toInt : K) * (1 / 100)) := by
  simp only [parseCtrlFb, gearRaw_ctrlBytes, gearMap_gearMapping hg, toNat_speedRaw_ctrlBytes]

section Inverse

variable {K : Type} [Field K] [LinearOrder K] [FloorRing K] (pf : Platform K) (c : BitVec 8)

/-- Encoding, then decoding: each field comes back truncated to its unit. -/
theorem parseCtrlFb_buildCtrlCmdData {g : Gear} (hg : g.Known) {v a : K}
    (hS : 0 ≤ truncZ (pf.float (1000 * v)) ∧ truncZ (pf.float (1000 * v)) ≤ 65535)
    (hA : -32768 ≤ truncZ (100 * a) ∧ truncZ (100 * a) ≤ 32767) :
    (parseCtrlFb (buildCtrlCmdData pf c g (.fin v) (.fin a)).1 : Gear × K × K) =
      (g, (truncZ (pf.float (1000 * v)) : K) / 1000, (truncZ (100 * a) : K) / 100) := by
  have hv : v * 1000 = 1000 * v := mul_comm v 1000
  have ha : a / (1 / 100) = 100 * a := by field_simp
  simp only [buildCtrlCmdData, Flt.mulConst_fin, Flt.divConst_fin, Flt.rounded_fin, hv, ha]
  -- a field that fits its sixteen bits is converted without loss
  rw [Flt.toUInt32_fin (show _ ∧ _ from ⟨hS.1, by omega⟩),
    Flt.toInt32_fin (show _ ∧ _ from ⟨by omega, by omega⟩), parseCtrlFb_ctrlBytes hg,
    toInt_signed16_ofInt hA.1 hA.2 (toNat_angleRaw_ctrlBytes ..)]
  generalize truncZ (pf.float (1000 * v)) = speed at hS ⊢
  have hs : (BitVec.ofInt 32 speed).toNat % 65536 = speed.toNat := by
    rw [BitVec.toNat_ofInt]
    omega
  have hcast : ((speed.toNat : ℕ) : K) = (speed : K) := by
    calc ((speed.toNat : ℕ) : K) = ((speed.toNat : ℤ) : K) := (Int.cast_natCast _).symm
      _ = (speed : K) := by rw [Int.toNat_of_nonneg hS.1]
  rw [hs, hcast, mul_one_div, mul_one_div]

variable [IsStrictOrderedRing K]

/-- Decoding, then encoding: the words that go back into the frame. -/
theorem buildCtrlCmdData_parseCtrlFb (hexact : pf.Exact) (d : Vector (BitVec 8) 8) :
    (buildCtrlCmdData pf c (parseCtrlFb d : Gear × K × K).1
        (.fin (parseCtrlFb d : Gear × K × K).2.1) (.fin (parseCtrlFb d : Gear × K × K).2.2)).1 =
      ctrlBytes (gearMapping (gearMap (gearRaw d))) (speedRaw d)
        (BitVec.ofInt 32 (signed16 (angleRaw d)).toInt) c := by
  have hs : ((speedRaw d).toNat : K) * (1 / 1000) * 1000 = (((speedRaw d).toNat : ℤ) : K) := by
    push_cast
    field_simp
  have ha : ((signed16 (angleRaw d)).toInt : K) * (1 / 100) / (1 / 100) =
      ((signed16 (angleRaw d)).toInt : K) := by field_simp
  -- both fields go back to the integers they were read from, which fit
  have hlt := toNat_speedRaw_lt d
  have hint := toInt_signed16 (toNat_angleRaw_lt d)
  have hang := toNat_angleRaw_lt d
  simp only [parseCtrlFb, buildCtrlCmdData, Flt.mulConst_fin, Flt.divConst_fin,
    Flt.rounded_fin, hexact _, hs, ha]
  rw [Flt.toUInt32_fin (show _ ∧ _ by rw [truncZ_intCast]; omega),
    Flt.toInt32_fin (show _ ∧ _ by rw [truncZ_intCast, hint]; split <;> omega),
    truncZ_intCast, truncZ_intCast, BitVec.ofInt_natCast, BitVec.ofNat_toNat, BitVec.setWidth_eq]

/-- **The encoder and the decoder are mutually inverse** on the shared layout, in exact
arithmetic. Every field that fits comes back truncated to its unit, whatever the counter, and
re-encoding a decoded frame with a known gear gives the payload back: bytes 0 to
3 and the low nibble of byte 4. -/
theorem ctrlFrame_inverse (hexact : pf.Exact) :
    (∀ (c : BitVec 8) (g : Gear) (v a : K), g.Known →
      0 ≤ truncZ (1000 * v) ∧ truncZ (1000 * v) ≤ 65535 →
      -32768 ≤ truncZ (100 * a) ∧ truncZ (100 * a) ≤ 32767 →
      (parseCtrlFb (buildCtrlCmdData pf c g (.fin v) (.fin a)).1 : Gear × K × K) =
        (g, (truncZ (1000 * v) : K) / 1000, (truncZ (100 * a) : K) / 100)) ∧
    (∀ (c : BitVec 8) (d : Vector (BitVec 8) 8), (d[0] &&& 0x0F#8).toNat ≤ 4 →
      let fb : Gear × K × K := parseCtrlFb d
      let e := (buildCtrlCmdData pf c fb.1 (.fin fb.2.1) (.fin fb.2.2)).1
      e[0] = d[0] ∧ e[1] = d[1] ∧ e[2] = d[2] ∧ e[3] = d[3] ∧
        e[4] &&& 0x0F#8 = d[4] &&& 0x0F#8) := by
  refine ⟨?_, ?_⟩
  · intro c g v a hg hS hA
    rw [← hexact (1000 * v)] at hS ⊢
    exact parseCtrlFb_buildCtrlCmdData pf c hg hS hA
  intro c d hgear fb e
  have he : e = ctrlBytes (gearMapping (gearMap (gearRaw d))) (speedRaw d)
      (BitVec.ofInt 32 (signed16 (angleRaw d)).toInt) c :=
    buildCtrlCmdData_parseCtrlFb pf c hexact d
  rw [gearMapping_gearMap (show (gearRaw d).toNat ≤ 4 from hgear)] at he
  -- the two words that go back in, by the bytes they were read from
  have hs := toNat_speedRaw d
  have ha := toNat_ofInt_signed16 (toNat_angleRaw_lt d)
  rw [toNat_angleRaw d] at ha
  have hlow := toNat_gearRaw d
  have hlow4 : (d[4] &&& 0x0F#8).toNat = d[4].toNat % 16 := toNat_low _ (k := 4) (by decide)
  have h0 := d[0].isLt
  have h1 := d[1].isLt
  have h2 := d[2].isLt
  have h3 := d[3].isLt
  rw [he]
  refine ⟨?_, ?_, ?_, ?_, ?_⟩ <;> rw [← BitVec.toNat_inj]
  · rw [toNat_ctrlBytes_zero]
    omega
  · rw [toNat_ctrlBytes_one]
    omega
  · rw [toNat_ctrlBytes_two]
    omega
  · rw [toNat_ctrlBytes_three]
    omega
  · rw [toNat_low _ (k := 4) (by decide), toNat_ctrlBytes_four, hlow4]
    omega

/-- A feedback frame in gear R, at 1.5 m/s and -1.75°. -/
def reverseFrame : Vector (BitVec 8) 8 := #v[0xC2#8, 0x5D#8, 0x10#8, 0xF5#8, 0x0F#8, 0, 0, 0]

/-- `ctrlFrame_inverse` both ways at the fields of `reverseFrame`. -/
theorem ctrlFrame_inverse_reverse :
    (parseCtrlFb (buildCtrlCmdData Platform.ratExact 5 .R (.fin (3 / 2)) (.fin (-7 / 4))).1 :
        Gear × ℚ × ℚ) =
      (.R, (truncZ (1000 * (3 / 2 : ℚ)) : ℚ) / 1000, (truncZ (100 * (-7 / 4 : ℚ)) : ℚ) / 100) ∧
    (let fb : Gear × ℚ × ℚ := parseCtrlFb reverseFrame
     (buildCtrlCmdData Platform.ratExact 0 fb.1 (.fin fb.2.1) (.fin fb.2.2)).1[3] =
      reverseFrame[3]) := by
  obtain ⟨hdecode, hencode⟩ := ctrlFrame_inverse Platform.ratExact Platform.ratExact_exact
  refine ⟨hdecode 5 .R (3 / 2) (-7 / 4) trivial (by decide +kernel) (by decide +kernel), ?_⟩
  obtain ⟨-, -, -, hthree, -⟩ := hencode 0 reverseFrame (by decide)
  exact hthree

end Inverse

end Driver
end WtbAutoware
