import WtbAutoware.Framework.Flt
import Mathlib.Data.Int.Log
import Mathlib.Data.Rat.Floor
import Mathlib.Tactic.FieldSimp
import Mathlib.Tactic.NormNum
import Mathlib.Tactic.Positivity

/-!
# Rounding to a floating-point format

A `Rounding K p` is how values of `K` are stored in a binary format with `p` significant
bits: it keeps the order and the sign, and leaves the integers below `2 ^ p` as they are.
Two instances are of interest.

* `Rounding.exact` stores every value as it is: exact arithmetic.
* `Rounding.nearest` rounds to the nearest value of the format, ties to even, down to a
  smallest exponent; `Rounding.float32` is that of the single format of IEEE 754.

There is no largest exponent. What is too large for the format stays finite here, where
IEEE 754 has an infinity. `Flt.rounded` stores a floating-point value.
-/

/-- How values are stored in a format with `p` significant bits. -/
structure Rounding (K : Type) [Field K] [LinearOrder K] (p : ℕ) where
  round : K → K
  mono : Monotone round
  neg : ∀ x, round (-x) = -round x
  intCast : ∀ n : ℤ, |n| < 2 ^ p → round n = n

namespace Rounding

section Laws

variable {K : Type} [Field K] [LinearOrder K] [IsStrictOrderedRing K] {p : ℕ}
  (f : Rounding K p)

instance : CoeFun (Rounding K p) fun _ => K → K := ⟨Rounding.round⟩

/-- Exact arithmetic. -/
def exact : Rounding K p where
  round x := x
  mono := monotone_id
  neg _ := rfl
  intCast _ _ := rfl

omit [IsStrictOrderedRing K] in
@[simp] theorem exact_apply (x : K) : (exact : Rounding K p) x = x := rfl

omit [IsStrictOrderedRing K] in
@[simp] theorem round_zero : f 0 = 0 := by
  have hzero := f.intCast 0 (by simp)
  rwa [Int.cast_zero] at hzero

omit [IsStrictOrderedRing K] in
theorem round_nonneg {x : K} (h : 0 ≤ x) : 0 ≤ f x :=
  f.round_zero.symm.trans_le (f.mono h)

omit [IsStrictOrderedRing K] in
theorem round_nonpos {x : K} (h : x ≤ 0) : f x ≤ 0 :=
  (f.mono h).trans_eq f.round_zero

theorem round_abs (x : K) : f |x| = |f x| := by
  rcases le_total 0 x with h | h
  · rw [abs_of_nonneg h, abs_of_nonneg (f.round_nonneg h)]
  · rw [abs_of_nonpos h, f.neg, abs_of_nonpos (f.round_nonpos h)]

omit [IsStrictOrderedRing K] in
/-- A value may be rounded to 0, but not to the other side of it. -/
theorem sameSign (x : K) : SameSign (f x) x := by
  refine ⟨fun h => ?_, fun h => ?_⟩
  · exact not_le.mp fun hx => absurd (f.round_nonpos hx) (not_le.mpr h)
  · exact not_le.mp fun hx => absurd (f.round_nonneg hx) (not_le.mpr h)

omit [IsStrictOrderedRing K] in
/-- What lies below a value of the format is not rounded above it. -/
theorem round_le_of_le {x y : K} (hy : f y = y) (h : x ≤ y) : f x ≤ y :=
  (f.mono h).trans_eq hy

end Laws

end Rounding

/-- A floating-point value, stored in the format. -/
def Flt.rounded {K : Type} [Field K] [LinearOrder K] {p : ℕ} (f : Rounding K p) : Flt K → Flt K
  | .fin x => .fin (f x)
  | .posInf => .posInf
  | .negInf => .negInf
  | .nan => .nan

@[simp] theorem Flt.rounded_fin {K : Type} [Field K] [LinearOrder K] {p : ℕ} (f : Rounding K p)
    (x : K) : (Flt.fin x).rounded f = .fin (f x) := rfl

/-- What is not finite is stored as it is. -/
theorem Flt.rounded_eq_of_not_fin {K : Type} [Field K] [LinearOrder K] {p : ℕ} (f : Rounding K p)
    {x : Flt K} (h : ∀ r, x ≠ .fin r) : x.rounded f = x := by
  cases x with
  | fin r => exact absurd rfl (h r)
  | _ => rfl

theorem Flt.exists_fin_of_rounded {K : Type} [Field K] [LinearOrder K] {p : ℕ} {f : Rounding K p}
    {x : Flt K} {r : K} (h : x.rounded f = .fin r) : ∃ a, x = .fin a := by
  cases x with
  | fin a => exact ⟨a, rfl⟩
  | _ => cases h

theorem Flt.rounded_eq_self {K : Type} [Field K] [LinearOrder K] {p : ℕ} {f : Rounding K p}
    (h : ∀ x, f x = x) (x : Flt K) : x.rounded f = x := by
  cases x with
  | fin x => exact congrArg Flt.fin (h x)
  | _ => rfl

namespace Rounding

/-! ### To the nearest integer -/

section Even

variable {K : Type} [Field K] [LinearOrder K] [FloorRing K]

/-- The nearest integer, the even one of two. -/
def toEven (x : K) : ℤ :=
  let n := ⌊x⌋
  if x - n < 1 / 2 then n
  else if 1 / 2 < x - n then n + 1
  else if n % 2 = 0 then n else n + 1

theorem toEven_bounds (x : K) : ⌊x⌋ ≤ toEven x ∧ toEven x ≤ ⌊x⌋ + 1 := by
  unfold toEven
  dsimp only
  split
  · omega
  · split
    · omega
    · split <;> omega

variable [IsStrictOrderedRing K]

theorem toEven_mono {x y : K} (h : x ≤ y) : toEven x ≤ toEven y := by
  have hx := toEven_bounds x
  have hy := toEven_bounds y
  rcases (Int.floor_le_floor h).lt_or_eq with hlt | heq
  · omega
  · -- with one floor for both, the fractions decide
    unfold toEven
    dsimp only
    rw [heq]
    have hfrac : x - ⌊y⌋ ≤ y - ⌊y⌋ := sub_le_sub_right h _
    split
    · split
      · exact le_rfl
      · split
        · omega
        · split <;> omega
    · next hxlow =>
      rw [if_neg fun hylow => hxlow (hfrac.trans_lt hylow)]
      split
      · next hxhigh => rw [if_pos (hxhigh.trans_le hfrac)]
      · split
        · split
          · omega
          · exact le_rfl
        · split <;> exact le_rfl

@[simp] theorem toEven_intCast (n : ℤ) : toEven (n : K) = n := by
  unfold toEven
  dsimp only
  rw [Int.floor_intCast, sub_self, if_pos (by norm_num)]

theorem toEven_neg (x : K) : toEven (-x) = -toEven x := by
  by_cases hint : (⌊x⌋ : K) = x
  · rw [← hint, ← Int.cast_neg, toEven_intCast, toEven_intCast]
  · -- the fraction of `-x` is what is missing to 1
    have hlo : 0 < x - ⌊x⌋ := sub_pos.mpr ((Int.floor_le x).lt_of_ne hint)
    have hhi : x < ⌊x⌋ + 1 := Int.lt_floor_add_one x
    have hfloor : ⌊-x⌋ = -⌊x⌋ - 1 := by
      rw [Int.floor_eq_iff]
      push_cast
      constructor <;> linarith
    unfold toEven
    dsimp only
    rw [hfloor]
    push_cast
    rcases lt_trichotomy (x - ⌊x⌋) (1 / 2) with hlt | heq | hgt
    · rw [if_neg (by linarith), if_pos (by linarith), if_pos hlt]
      ring
    · rw [if_neg (by linarith), if_neg (by linarith), if_neg heq.not_lt, if_neg heq.not_gt]
      split <;> split <;> omega
    · rw [if_pos (by linarith), if_neg hgt.not_gt, if_pos hgt]
      ring

end Even

/-! ### To the nearest value of a format -/

section Nearest

variable {K : Type} [Field K] [LinearOrder K] [IsStrictOrderedRing K] [FloorRing K]

/-- The exponent of the last bit of `x`, in a format with `p` bits. -/
def lastBit (p : ℕ) (emin : ℤ) (x : K) : ℤ := max (Int.log 2 |x| + 1 - p) emin

/-- The nearest value of the format, ties to even. -/
def nearestValue (p : ℕ) (emin : ℤ) (x : K) : K :=
  toEven (x / 2 ^ lastBit p emin x) * 2 ^ lastBit p emin x

omit [FloorRing K] in
theorem two_zpow_pos (e : ℤ) : (0 : K) < 2 ^ e := zpow_pos two_pos e

omit [FloorRing K] in
/-- A power of two is on the grid of every lower one. -/
theorem two_zpow_eq {e k : ℤ} (he : e ≤ k) :
    (2 : K) ^ k = ((2 ^ (k - e).toNat : ℤ) : K) * 2 ^ e := by
  push_cast
  rw [← zpow_natCast, Int.toNat_of_nonneg (sub_nonneg.mpr he), ← zpow_add₀ two_ne_zero,
    sub_add_cancel]

theorem toEven_le_zpow {x : K} {e k : ℤ} (he : e ≤ k) (h : x ≤ 2 ^ k) :
    (toEven (x / 2 ^ e) : K) * 2 ^ e ≤ 2 ^ k := by
  have hpos := two_zpow_pos (K := K) e
  rw [two_zpow_eq he] at h ⊢
  have hle := toEven_mono ((div_le_iff₀ hpos).mpr h)
  rw [toEven_intCast] at hle
  exact mul_le_mul_of_nonneg_right (Int.cast_le.mpr hle) hpos.le

theorem zpow_le_toEven {x : K} {e k : ℤ} (he : e ≤ k) (h : 2 ^ k ≤ x) :
    2 ^ k ≤ (toEven (x / 2 ^ e) : K) * 2 ^ e := by
  have hpos := two_zpow_pos (K := K) e
  rw [two_zpow_eq he] at h ⊢
  have hle := toEven_mono ((le_div_iff₀ hpos).mpr h)
  rw [toEven_intCast] at hle
  exact mul_le_mul_of_nonneg_right (Int.cast_le.mpr hle) hpos.le

theorem nearestValue_neg (p : ℕ) (emin : ℤ) (x : K) :
    nearestValue p emin (-x) = -nearestValue p emin x := by
  unfold nearestValue lastBit
  rw [abs_neg, neg_div, toEven_neg, Int.cast_neg, neg_mul]

theorem nearestValue_nonneg (p : ℕ) (emin : ℤ) {x : K} (h : 0 ≤ x) :
    0 ≤ nearestValue p emin x := by
  have hpos := two_zpow_pos (K := K) (lastBit p emin x)
  have hle := toEven_mono (div_nonneg h hpos.le)
  rw [← Int.cast_zero, toEven_intCast] at hle
  exact mul_nonneg (Int.cast_nonneg hle) hpos.le

/-- Above 0 the order is kept: within one binade the grid is the same, and between two of
them there is a power of two that is on both grids. -/
theorem nearestValue_mono_of_pos {p : ℕ} (hp : 0 < p) (emin : ℤ) {x y : K} (hx : 0 < x)
    (h : x ≤ y) : nearestValue p emin x ≤ nearestValue p emin y := by
  have hy : 0 < y := hx.trans_le h
  have hlog : Int.log 2 |x| ≤ Int.log 2 |y| := by
    rw [abs_of_pos hx, abs_of_pos hy]
    exact Int.log_mono_right hx h
  have hbit : lastBit p emin x ≤ lastBit p emin y := by
    unfold lastBit
    omega
  rcases hbit.lt_or_eq with hlt | heq
  · have hlt' : Int.log 2 |x| < Int.log 2 |y| ∧ lastBit p emin x ≤ Int.log 2 |y| ∧
        lastBit p emin y ≤ Int.log 2 |y| := by
      unfold lastBit at hlt ⊢
      omega
    obtain ⟨hbinade, hxbit, hybit⟩ := hlt'
    calc nearestValue p emin x ≤ 2 ^ Int.log 2 |y| := by
          refine toEven_le_zpow hxbit ?_
          have hpow : x < 2 ^ (Int.log 2 |x| + 1) := by
            have hself := Int.lt_zpow_succ_log_self (R := K) one_lt_two x
            rw [abs_of_pos hx]
            rwa [Nat.cast_ofNat] at hself
          exact hpow.le.trans (zpow_le_zpow_right₀ one_le_two (by omega))
      _ ≤ nearestValue p emin y := by
          refine zpow_le_toEven hybit ?_
          have hself := Int.zpow_log_le_self (R := K) one_lt_two hy
          rw [abs_of_pos hy]
          rwa [Nat.cast_ofNat] at hself
  · have hpos := two_zpow_pos (K := K) (lastBit p emin y)
    unfold nearestValue
    rw [heq]
    have hle := toEven_mono (div_le_div_of_nonneg_right h hpos.le)
    exact mul_le_mul_of_nonneg_right (Int.cast_le.mpr hle) hpos.le

theorem nearestValue_mono {p : ℕ} (hp : 0 < p) (emin : ℤ) :
    Monotone (nearestValue p emin : K → K) := by
  intro x y h
  rcases lt_or_ge 0 x with hx | hx
  · exact nearestValue_mono_of_pos hp emin hx h
  · have hxneg := nearestValue_nonneg p emin (neg_nonneg.mpr hx)
    rw [nearestValue_neg] at hxneg
    rcases le_or_gt 0 y with hy | hy
    · exact (neg_nonneg.mp hxneg).trans (nearestValue_nonneg p emin hy)
    · -- below 0 it is the order above 0, turned around
      have hle := nearestValue_mono_of_pos hp emin (neg_pos.mpr hy) (neg_le_neg h)
      rw [nearestValue_neg, nearestValue_neg] at hle
      exact neg_le_neg_iff.mp hle

/-- The values of the format are left as they are. -/
theorem nearestValue_mul_zpow (p : ℕ) {emin k : ℤ} (hmin : emin ≤ k) {n : ℤ} (h : |n| < 2 ^ p) :
    nearestValue p emin ((n : K) * 2 ^ k) = n * 2 ^ k := by
  have hk := two_zpow_pos (K := K) k
  rcases eq_or_ne n 0 with rfl | hn
  · rw [Int.cast_zero, zero_mul, nearestValue, zero_div, ← Int.cast_zero (R := K), toEven_intCast,
      Int.cast_zero, zero_mul]
  have hbit : lastBit p emin ((n : K) * 2 ^ k) ≤ k := by
    have habs : |(n : K) * 2 ^ k| = (|n| : ℤ) * 2 ^ k := by
      rw [abs_mul, abs_of_pos hk, Int.cast_abs]
    have hpos : (0 : K) < (|n| : ℤ) * 2 ^ k := mul_pos (by exact_mod_cast abs_pos.mpr hn) hk
    have hlog : Int.log 2 |(n : K) * 2 ^ k| < p + k := by
      rw [habs, ← Int.lt_zpow_iff_log_lt one_lt_two hpos, Nat.cast_ofNat,
        zpow_add₀ two_ne_zero, zpow_natCast]
      exact mul_lt_mul_of_pos_right (by exact_mod_cast h) hk
    unfold lastBit
    omega
  -- the last bit is a whole fraction of `2 ^ k`
  have hgrid : (n : K) * 2 ^ k / 2 ^ lastBit p emin ((n : K) * 2 ^ k) =
      ((n * 2 ^ (k - lastBit p emin ((n : K) * 2 ^ k)).toNat : ℤ) : K) := by
    rw [div_eq_iff (two_zpow_pos _).ne', Int.cast_mul, mul_assoc, ← two_zpow_eq hbit]
  unfold nearestValue
  rw [hgrid, toEven_intCast, ← hgrid, div_mul_cancel₀ _ (two_zpow_pos _).ne']

/-- Rounding to the nearest value. -/
def nearest (p : ℕ) (hp : 0 < p) (emin : ℤ) (hmin : emin ≤ 0) : Rounding K p where
  round := nearestValue p emin
  mono := nearestValue_mono hp emin
  neg := nearestValue_neg p emin
  intCast n h := by
    have hself := nearestValue_mul_zpow (K := K) p hmin h
    rwa [zpow_zero, mul_one] at hself

/-- The single format: 24 bits, and no last bit below `2 ^ -149`. -/
def float32 : Rounding K 24 := nearest 24 (by decide) (-149) (by decide)

/-- What has 24 bits is a `float`. -/
theorem float32_mul_zpow {n k : ℤ} (hn : |n| < 2 ^ 24) (hk : -149 ≤ k) :
    (float32 : Rounding K 24) ((n : K) * 2 ^ k) = n * 2 ^ k :=
  nearestValue_mul_zpow 24 hk hn

example : (float32 : Rounding ℚ 24) (11 / 10) = 9227469 / 8388608 := by decide +kernel

end Nearest

end Rounding
