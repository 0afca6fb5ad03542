import Mathlib.Algebra.Order.Floor.Ring
import Mathlib.Algebra.Order.Field.Basic
import Mathlib.Tactic.Linarith
import Mathlib.Tactic.Ring

/-!
# Floating-point values in exact arithmetic

`Flt K` is a floating-point number whose finite values are read exactly, as
elements of an ordered field `K`: a finite value, an infinity or a NaN.
Comparison is the IEEE one, so every comparison with a NaN is false, and
`stdClamp` is `std::clamp` for whatever order it is given. Rounding and the sign
of zero are abstracted away.

A conversion to a machine integer truncates towards zero (`truncZ`). Where the
truncated value does not fit, C++ leaves the result undefined. `Flt.toInt32` and
`Flt.toUInt32` take what such a conversion leaves behind as a parameter, and
`Flt.InInt32` and `Flt.InUInt32` say that the conversion is defined.
-/

section Trunc

variable {K : Type} [Field K] [LinearOrder K] [FloorRing K]

/-- Truncation towards zero. -/
def truncZ (x : K) : ℤ := if 0 ≤ x then ⌊x⌋ else ⌈x⌉

theorem truncZ_of_nonneg {x : K} (h : 0 ≤ x) : truncZ x = ⌊x⌋ := if_pos h

theorem truncZ_nonneg {x : K} (h : 0 ≤ x) : 0 ≤ truncZ x := by
  rw [truncZ_of_nonneg h]
  exact Int.floor_nonneg.mpr h

theorem truncZ_le {x : K} (h : 0 ≤ x) : (truncZ x : K) ≤ x := by
  rw [truncZ_of_nonneg h]
  exact Int.floor_le x

theorem lt_truncZ_add_one {x : K} (h : 0 ≤ x) : x < truncZ x + 1 := by
  rw [truncZ_of_nonneg h]
  exact Int.lt_floor_add_one x

variable [IsStrictOrderedRing K]

@[simp] theorem truncZ_intCast (n : ℤ) : truncZ (n : K) = n := by
  unfold truncZ; split <;> simp

@[simp] theorem truncZ_zero : truncZ (0 : K) = 0 := by
  simpa using truncZ_intCast (K := K) 0

theorem truncZ_of_nonpos {x : K} (h : x ≤ 0) : truncZ x = ⌈x⌉ := by
  rcases h.lt_or_eq with h | rfl
  · exact if_neg (not_le.mpr h)
  · simp

@[simp] theorem truncZ_neg (x : K) : truncZ (-x) = -truncZ x := by
  rcases le_total 0 x with h | h
  · rw [truncZ_of_nonpos (neg_nonpos.mpr h), truncZ_of_nonneg h, Int.ceil_neg]
  · rw [truncZ_of_nonneg (neg_nonneg.mpr h), truncZ_of_nonpos h, Int.floor_neg]

theorem truncZ_nonpos {x : K} (h : x ≤ 0) : truncZ x ≤ 0 := by
  have h0 := truncZ_nonneg (neg_nonneg.mpr h)
  rw [truncZ_neg] at h0
  omega

/-- Truncation keeps the order. -/
theorem truncZ_mono {x y : K} (h : x ≤ y) : truncZ x ≤ truncZ y := by
  rcases le_total 0 x with hx | hx
  · rw [truncZ_of_nonneg hx, truncZ_of_nonneg (hx.trans h)]
    exact Int.floor_le_floor h
  · rcases le_total 0 y with hy | hy
    · -- the two lie on either side of zero, and truncation keeps them there
      exact (truncZ_nonpos hx).trans (truncZ_nonneg hy)
    · rw [truncZ_of_nonpos hx, truncZ_of_nonpos hy]
      exact Int.ceil_le_ceil h

@[simp] theorem truncZ_abs (x : K) : truncZ |x| = |truncZ x| := by
  rcases le_total 0 x with h | h
  · rw [abs_of_nonneg h, abs_of_nonneg (truncZ_nonneg h)]
  · rw [abs_of_nonpos h, truncZ_neg, abs_of_nonpos (truncZ_nonpos h)]

/-- What truncation loses is the fractional part of the magnitude. -/
theorem abs_truncZ_sub (x : K) : |(truncZ x : K) - x| = Int.fract |x| := by
  have key : ∀ y : K, 0 ≤ y → |(truncZ y : K) - y| = Int.fract |y| := by
    intro y hy
    rw [abs_of_nonneg hy, abs_of_nonpos (sub_nonpos.mpr (truncZ_le hy)),
      truncZ_of_nonneg hy, neg_sub, Int.self_sub_floor]
  rcases le_total 0 x with h | h
  · exact key x h
  · -- below zero, both sides are those of `-x`
    calc |(truncZ x : K) - x| = |(truncZ (-x) : K) - -x| := by
          rw [truncZ_neg, Int.cast_neg, neg_sub_neg, abs_sub_comm]
      _ = Int.fract |-x| := key (-x) (neg_nonneg.mpr h)
      _ = Int.fract |x| := by rw [abs_neg]

theorem truncZ_eq_zero_iff {x : K} : truncZ x = 0 ↔ |x| < 1 := by
  rw [← abs_eq_zero, ← truncZ_abs, truncZ_of_nonneg (abs_nonneg x), Int.floor_eq_zero_iff]
  simp [abs_nonneg]

theorem abs_truncZ_lt_iff {x : K} {n : ℤ} : |truncZ x| < n ↔ |x| < n := by
  rw [← truncZ_abs, truncZ_of_nonneg (abs_nonneg x), Int.floor_lt]

theorem le_neg_one_of_truncZ_neg {x : K} (h : truncZ x < 0) : x ≤ -1 := by
  by_contra hx
  -- anything above `-1` truncates to an integer that is not negative
  rcases le_or_gt 0 x with h0 | h0
  · exact absurd (truncZ_nonneg h0) (not_le.mpr h)
  · exact absurd (truncZ_eq_zero_iff.mpr (abs_lt.mpr ⟨not_le.mp hx, h0.trans one_pos⟩)) h.ne

theorem abs_truncZ_le (x : K) : |(truncZ x : K)| ≤ |x| := by
  rw [← Int.cast_abs, ← truncZ_abs]
  exact truncZ_le (abs_nonneg x)

end Trunc

/-- `std::clamp(v, lo, hi)`. -/
def stdClamp {α : Type} [LT α] [DecidableLT α] (v lo hi : α) : α :=
  if v < lo then lo else if hi < v then hi else v

section Clamp

variable {K : Type} [LinearOrder K]

theorem le_stdClamp {v lo hi : K} (h : lo ≤ hi) : lo ≤ stdClamp v lo hi := by
  unfold stdClamp
  split
  · exact le_refl lo
  · next hlo =>
    split
    · exact h
    · exact not_lt.mp hlo

theorem stdClamp_le {v lo hi : K} (h : lo ≤ hi) : stdClamp v lo hi ≤ hi := by
  unfold stdClamp
  split
  · exact h
  · split
    · exact le_refl hi
    · next hhi => exact not_lt.mp hhi

end Clamp

/-! ### Signs -/

section Sign

/-- `x` is zero, or has the sign of `y`. -/
def SameSign {K : Type} [Zero K] [LT K] (x y : K) : Prop := (0 < x → 0 < y) ∧ (x < 0 → y < 0)

namespace SameSign

variable {K : Type} [Field K] [LinearOrder K]

theorem refl (x : K) : SameSign x x := ⟨id, id⟩

theorem trans {x y z : K} (h : SameSign x y) (h' : SameSign y z) : SameSign x z :=
  ⟨fun hx => h'.1 (h.1 hx), fun hx => h'.2 (h.2 hx)⟩

instance : Trans (SameSign (K := K)) SameSign SameSign := ⟨SameSign.trans⟩

theorem zero_left (y : K) : SameSign 0 y :=
  ⟨fun h => absurd h (lt_irrefl 0), fun h => absurd h (lt_irrefl 0)⟩

theorem eq_zero {x : K} (h : SameSign x 0) : x = 0 := by
  rcases lt_trichotomy x 0 with hx | hx | hx
  · exact absurd (h.2 hx) (lt_irrefl 0)
  · exact hx
  · exact absurd (h.1 hx) (lt_irrefl 0)

variable [IsStrictOrderedRing K]

/-- A factor that is not negative changes no sign. -/
theorem mul_right (x : K) {c : K} (hc : 0 ≤ c) : SameSign (x * c) x :=
  ⟨fun h => pos_of_mul_pos_left h hc, fun h => neg_of_mul_neg_left h hc⟩

/-- A positive factor changes none back, either. -/
theorem self_mul (x : K) {c : K} (hc : 0 < c) : SameSign x (x * c) :=
  ⟨fun h => mul_pos h hc, fun h => mul_neg_of_neg_of_pos h hc⟩

/-- A positive value is divided with the sign of the divisor. -/
theorem const_div (x : K) {c : K} (hc : 0 < c) : SameSign (c / x) x := by
  refine ⟨(div_pos_iff_of_pos_left hc).mp, ?_⟩
  intro h
  by_contra hx
  exact absurd h (not_lt.mpr (div_nonneg hc.le (not_lt.mp hx)))

theorem neg {x y : K} (h : SameSign x y) : SameSign (-x) (-y) := by
  refine ⟨?_, ?_⟩
  · intro hx
    exact neg_pos.mpr (h.2 (neg_pos.mp hx))
  · intro hx
    exact neg_neg_iff_pos.mpr (h.1 (neg_neg_iff_pos.mp hx))

/-- A value that has the sign of `y` both ways round is zero. -/
theorem eq_zero_of_neg {x y : K} (h : SameSign x y) (h' : SameSign (-x) y) : x = 0 := by
  rcases lt_trichotomy x 0 with hx | hx | hx
  · exact absurd (h.2 hx) (not_lt.mpr (h'.1 (neg_pos.mpr hx)).le)
  · exact hx
  · exact absurd (h.1 hx) (not_lt.mpr (h'.2 (neg_neg_iff_pos.mpr hx)).le)

/-- Nor does a truncation. -/
theorem truncZ_left [FloorRing K] (x : K) : SameSign (truncZ x : K) x := by
  refine ⟨?_, ?_⟩
  · intro h
    by_contra hx
    exact absurd (truncZ_nonpos (not_lt.mp hx)) (not_le.mpr (by exact_mod_cast h))
  · intro h
    by_contra hx
    exact absurd (truncZ_nonneg (not_lt.mp hx)) (not_le.mpr (by exact_mod_cast h))

/-- Nor does a clamp to a symmetric interval. -/
theorem stdClamp_left (x : K) {m : K} (hm : 0 ≤ m) : SameSign (stdClamp x (-m) m) x := by
  have hneg : -m ≤ 0 := neg_nonpos.mpr hm
  refine ⟨?_, ?_⟩
  · intro h
    by_contra hx
    unfold stdClamp at h
    split at h
    · -- cut off at the lower bound, which is not positive
      exact absurd h (not_lt.mpr hneg)
    · rw [if_neg (not_lt.mpr ((not_lt.mp hx).trans hm))] at h
      exact hx h
  · intro h
    by_contra hx
    unfold stdClamp at h
    rw [if_neg (not_lt.mpr (hneg.trans (not_lt.mp hx)))] at h
    split at h
    · -- cut off at the upper bound, which is not negative
      exact absurd h (not_lt.mpr hm)
    · exact hx h

/-- The clamp keeps a sign, unless the interval is a point. -/
theorem stdClamp_right (x : K) {m : K} (hm : 0 < m) : SameSign x (stdClamp x (-m) m) := by
  refine ⟨?_, ?_⟩
  · intro hx
    rw [stdClamp, if_neg (not_lt.mpr ((neg_nonpos.mpr hm.le).trans hx.le))]
    split
    · exact hm
    · exact hx
  · intro hx
    unfold stdClamp
    split
    · exact neg_neg_iff_pos.mpr hm
    · rw [if_neg (not_lt.mpr (hx.le.trans hm.le))]
      exact hx

end SameSign

end Sign

/-- A floating-point value with exact finite part. -/
inductive Flt (K : Type) where
  | fin (x : K)
  | posInf
  | negInf
  | nan
  deriving DecidableEq

namespace Flt

variable {K : Type}

section Order

variable [LT K]

/-- The IEEE order: false as soon as one side is a NaN. -/
protected def Lt : Flt K → Flt K → Prop
  | .fin x, .fin y => x < y
  | .negInf, .fin _ => True
  | .negInf, .posInf => True
  | .fin _, .posInf => True
  | _, _ => False

instance : LT (Flt K) := ⟨Flt.Lt⟩

instance [DecidableLT K] : DecidableLT (Flt K)
  | .fin x, .fin y => inferInstanceAs (Decidable (x < y))
  | .negInf, .fin _ => isTrue trivial
  | .negInf, .posInf => isTrue trivial
  | .fin _, .posInf => isTrue trivial
  | .fin _, .negInf => isFalse id
  | .fin _, .nan => isFalse id
  | .negInf, .negInf => isFalse id
  | .negInf, .nan => isFalse id
  | .posInf, _ => isFalse id
  | .nan, _ => isFalse id

@[simp] theorem fin_lt_fin {x y : K} : (Flt.fin x < Flt.fin y) ↔ x < y := Iff.rfl

@[simp] theorem not_nan_lt (x : Flt K) : ¬ Flt.nan < x := id

@[simp] theorem not_lt_nan (x : Flt K) : ¬ x < Flt.nan := by
  cases x <;> exact id

end Order

/-- Clamping finite values is clamping in `K`. -/
@[simp] theorem stdClamp_fin [LinearOrder K] (v lo hi : K) :
    stdClamp (Flt.fin v) (.fin lo) (.fin hi) = .fin (stdClamp v lo hi) := by
  unfold stdClamp
  simp only [fin_lt_fin]
  split
  · rfl
  · split <;> rfl

section Clamp

variable [LinearOrder K]

/-- Where a value ends up in the range from `lo` to `hi`, NaN aside. -/
def clampTo (lo hi : K) : Flt K → K
  | .fin x => stdClamp x lo hi
  | .posInf => hi
  | .negInf => lo
  | .nan => lo

/-- `std::clamp` of anything but a NaN. -/
theorem stdClamp_eq_clampTo {lo hi : K} {x : Flt K} (hx : x ≠ .nan) :
    stdClamp x (.fin lo) (.fin hi) = .fin (clampTo lo hi x) := by
  cases x with
  | fin x => exact stdClamp_fin x lo hi
  | posInf => rfl
  | negInf => rfl
  | nan => exact absurd rfl hx

/-- Every comparison with a NaN is false, so the clamp returns it. -/
theorem stdClamp_nan (lo hi : Flt K) : stdClamp .nan lo hi = .nan := by
  rw [stdClamp, if_neg (not_nan_lt lo), if_neg (not_lt_nan hi)]

theorem clampTo_bounds {lo hi : K} (h : lo ≤ hi) (x : Flt K) :
    lo ≤ clampTo lo hi x ∧ clampTo lo hi x ≤ hi := by
  cases x with
  | fin x => exact ⟨le_stdClamp h, stdClamp_le h⟩
  | posInf => exact ⟨h, le_refl hi⟩
  | negInf => exact ⟨le_refl lo, h⟩
  | nan => exact ⟨le_refl lo, h⟩

end Clamp

section Arithmetic

variable [Field K]

/-- `-x`. -/
protected def neg : Flt K → Flt K
  | .fin x => .fin (-x)
  | .posInf => .negInf
  | .negInf => .posInf
  | .nan => .nan

instance : Neg (Flt K) := ⟨Flt.neg⟩

@[simp] theorem neg_fin (x : K) : -(Flt.fin x) = .fin (-x) := rfl

/-- `x + y`: the two infinities have no sum. -/
protected def add : Flt K → Flt K → Flt K
  | .fin x, .fin y => .fin (x + y)
  | .nan, _ => .nan
  | _, .nan => .nan
  | .fin _, inf => inf
  | inf, .fin _ => inf
  | .posInf, .posInf => .posInf
  | .negInf, .negInf => .negInf
  | .posInf, .negInf => .nan
  | .negInf, .posInf => .nan

instance : Add (Flt K) := ⟨Flt.add⟩

instance : Sub (Flt K) := ⟨fun x y => x + -y⟩

@[simp] theorem fin_add_fin (x y : K) : Flt.fin x + Flt.fin y = .fin (x + y) := rfl

@[simp] theorem fin_sub_fin (x y : K) : Flt.fin x - Flt.fin y = .fin (x - y) := by
  rw [sub_eq_add_neg]
  rfl

variable [LinearOrder K]

/-- An infinity scaled by a finite constant: the sign of the constant decides. -/
def scaleInf (c : K) (x : Flt K) : Flt K :=
  if 0 < c then x else if c < 0 then -x else .nan

/-- `x * c` for a finite constant `c`. -/
def mulConst (x : Flt K) (c : K) : Flt K :=
  match x with
  | .fin x => .fin (x * c)
  | .nan => .nan
  -- the infinities
  | inf => scaleInf c inf

/-- `x / c` for a finite nonzero constant `c`. -/
def divConst (x : Flt K) (c : K) : Flt K :=
  match x with
  | .fin x => .fin (x / c)
  | .nan => .nan
  | inf => scaleInf c inf

@[simp] theorem mulConst_fin (x c : K) : (Flt.fin x).mulConst c = .fin (x * c) := rfl

@[simp] theorem divConst_fin (x c : K) : (Flt.fin x).divConst c = .fin (x / c) := rfl

end Arithmetic

section Conversion

variable [Field K] [LinearOrder K] [FloorRing K]

/-- `static_cast<unsigned int>(x)` is defined. -/
def InUInt32 : Flt K → Prop
  | .fin x => 0 ≤ truncZ x ∧ truncZ x < 2 ^ 32
  | _ => False

/-- `static_cast<int>(x)` is defined. -/
def InInt32 : Flt K → Prop
  | .fin x => -2 ^ 31 ≤ truncZ x ∧ truncZ x < 2 ^ 31
  | _ => False

instance : DecidablePred (InUInt32 (K := K))
  | .fin x => inferInstanceAs (Decidable (0 ≤ truncZ x ∧ truncZ x < 2 ^ 32))
  | .posInf => isFalse id
  | .negInf => isFalse id
  | .nan => isFalse id

instance : DecidablePred (InInt32 (K := K))
  | .fin x => inferInstanceAs (Decidable (-2 ^ 31 ≤ truncZ x ∧ truncZ x < 2 ^ 31))
  | .posInf => isFalse id
  | .negInf => isFalse id
  | .nan => isFalse id

/-- The integer a conversion truncates to; `0` where there is none. -/
def truncated : Flt K → ℤ
  | .fin x => truncZ x
  | _ => 0

/-- `static_cast<unsigned int>(x)`, with `undef` for the undefined conversions. -/
def toUInt32 (undef : Flt K → BitVec 32) (x : Flt K) : BitVec 32 :=
  if x.InUInt32 then BitVec.ofInt 32 x.truncated else undef x

/-- `static_cast<int>(x)`, with `undef` for the undefined conversions. -/
def toInt32 (undef : Flt K → BitVec 32) (x : Flt K) : BitVec 32 :=
  if x.InInt32 then BitVec.ofInt 32 x.truncated else undef x

theorem toUInt32_fin {undef : Flt K → BitVec 32} {x : K} (h : (Flt.fin x).InUInt32) :
    (Flt.fin x).toUInt32 undef = BitVec.ofInt 32 (truncZ x) := if_pos h

theorem toInt32_fin {undef : Flt K → BitVec 32} {x : K} (h : (Flt.fin x).InInt32) :
    (Flt.fin x).toInt32 undef = BitVec.ofInt 32 (truncZ x) := if_pos h

/-- A defined signed conversion reads back as the truncated value. -/
theorem toInt_toInt32 {undef : Flt K → BitVec 32} {x : K} (h : (Flt.fin x).InInt32) :
    ((Flt.fin x).toInt32 undef).toInt = truncZ x := by
  rw [toInt32_fin h]
  obtain ⟨hlo, hhi⟩ : -2 ^ 31 ≤ truncZ x ∧ truncZ x < 2 ^ 31 := h
  exact BitVec.toInt_ofInt_eq_self (by decide) (by simpa using hlo) (by simpa using hhi)

end Conversion

end Flt
