import Mathlib.Algebra.Field.ZMod
import Mathlib.Algebra.Polynomial.FieldDivision
import Mathlib.Data.List.Iterate
import Mathlib.Tactic

/-!
# Cyclic redundancy checks

A list of bits is a polynomial over the field of two elements, the first bit its highest
coefficient (`poly`). The check of a message, `run`, is a register of `w` bits that takes
one bit of the message at a time; `g` is the generator without its leading term `X ^ w`.

* `run_eq_iff` — the register ends with `s` exactly if the message followed by the bits of
  `s` is a multiple of the generator, a `Codeword`;
* `run_lookup` — several bits may be taken at once, which is what a table is for;
* `Codeword.eq_of_burst` — two codewords that differ within `w` bits only are equal;
* `Codeword.four_le_distance` — two codewords that differ do so in at least four bits, if
  the generator has an even number of terms and they are not longer than its period.
-/

namespace Crc

open Polynomial

/-! ### Bits as polynomials -/

/-- The coefficient that a bit stands for. -/
def coef (b : Bool) : ZMod 2 := if b then 1 else 0

/-- The polynomial of a list of bits. -/
noncomputable def poly : List Bool → (ZMod 2)[X]
  | [] => 0
  | b :: bs => C (coef b) * X ^ bs.length + poly bs

/-- The bits in which two lists of the same length differ. -/
def diff (a b : List Bool) : List Bool := List.zipWith (fun x y => x ^^ y) a b

/-- In how many bits two lists of the same length differ. -/
def distance (a b : List Bool) : ℕ := (diff a b).count true

theorem coef_xor (a b : Bool) : coef (a ^^ b) = coef a + coef b := by
  cases a <;> cases b <;> decide

theorem add_self (p : (ZMod 2)[X]) : p + p = 0 := CharTwo.add_self_eq_zero p

@[simp] theorem poly_nil : poly [] = 0 := rfl

theorem poly_cons (b : Bool) (bs : List Bool) :
    poly (b :: bs) = C (coef b) * X ^ bs.length + poly bs := rfl

theorem poly_append (a b : List Bool) : poly (a ++ b) = poly a * X ^ b.length + poly b := by
  induction a with
  | nil => simp
  | cons x a ih =>
    rw [List.cons_append, poly_cons, poly_cons, ih, List.length_append, pow_add]
    ring

@[simp] theorem poly_replicate (n : ℕ) : poly (List.replicate n false) = 0 := by
  induction n with
  | zero => rfl
  | succ n ih => simp [List.replicate_succ, poly_cons, ih, coef]

theorem degree_poly_lt (bs : List Bool) : (poly bs).degree < bs.length := by
  induction bs with
  | nil => simp
  | cons b bs ih =>
    have hlt : ((bs.length : ℕ) : WithBot ℕ) < (b :: bs).length := by
      exact_mod_cast Nat.lt_succ_self bs.length
    rw [poly_cons]
    refine (degree_add_le _ _).trans_lt (max_lt ?_ (ih.trans hlt))
    exact (degree_C_mul_X_pow_le _ _).trans_lt hlt

theorem poly_eq_zero {bs : List Bool} (h : poly bs = 0) : true ∉ bs := by
  induction bs with
  | nil => exact List.not_mem_nil
  | cons b bs ih =>
    have hcoeff := congrArg (fun p => p.coeff bs.length) h
    -- the other bits have lower degrees
    have hlow : (poly bs).coeff bs.length = 0 := coeff_eq_zero_of_degree_lt (degree_poly_lt bs)
    simp only [poly_cons, coeff_add, coeff_C_mul, coeff_X_pow, hlow, coeff_zero, if_true,
      mul_one, add_zero] at hcoeff
    cases b with
    | true => exact absurd hcoeff (by decide)
    | false =>
      rw [poly_cons, hcoeff, C_0, zero_mul, zero_add] at h
      simpa using ih h

section Diff

variable {a b : List Bool}

@[simp] theorem length_diff (h : a.length = b.length) : (diff a b).length = a.length := by
  simp [diff, h]

theorem poly_diff (h : a.length = b.length) : poly (diff a b) = poly a + poly b := by
  induction a generalizing b with
  | nil =>
    obtain rfl := List.length_eq_zero_iff.mp h.symm
    simp [diff]
  | cons x a ih =>
    cases b with
    | nil => simp at h
    | cons y b =>
      have hlen : a.length = b.length := by simpa using h
      have hdiff : diff (x :: a) (y :: b) = (x ^^ y) :: diff a b := rfl
      rw [hdiff, poly_cons, poly_cons, poly_cons, ih hlen, length_diff hlen, coef_xor, C_add,
        hlen]
      ring

theorem diff_diff_left (h : a.length = b.length) : diff a (diff a b) = b := by
  induction a generalizing b with
  | nil => exact (List.length_eq_zero_iff.mp h.symm).symm
  | cons x a ih =>
    cases b with
    | nil => simp at h
    | cons y b =>
      have hcons : diff (x :: a) (diff (x :: a) (y :: b)) =
          (x ^^ (x ^^ y)) :: diff a (diff a b) := rfl
      rw [hcons, ih (by simpa using h)]
      simp

theorem distance_append (h : a.length = b.length) (c d : List Bool) :
    distance (a ++ c) (b ++ d) = distance a b + distance c d := by
  rw [distance, diff, List.zipWith_append h, List.count_append]
  rfl

/-- Lists that differ in no bit are equal. -/
theorem eq_of_true_notMem_diff (hlen : a.length = b.length) (h : true ∉ diff a b) : a = b := by
  induction a generalizing b with
  | nil => exact (List.length_eq_zero_iff.mp hlen.symm).symm
  | cons x a ih =>
    cases b with
    | nil => simp at hlen
    | cons y b =>
      have hcons : diff (x :: a) (y :: b) = (x ^^ y) :: diff a b := rfl
      rw [hcons, List.mem_cons, not_or] at h
      have hxy : x = y := by
        have h1 := h.1
        cases x <;> cases y <;> simp at h1 <;> rfl
      rw [hxy, ih (by simpa using hlen) h.2]

end Diff

/-- Polynomials tell lists of one length apart. -/
theorem poly_injective {a b : List Bool} (hlen : a.length = b.length) (h : poly a = poly b) :
    a = b := by
  refine eq_of_true_notMem_diff hlen (poly_eq_zero ?_)
  rw [poly_diff hlen, h, add_self]

/-! ### The register -/

variable {w : ℕ}

/-- The bits of a register, the highest first. -/
def bits (v : BitVec w) : List Bool := (List.range w).map v.getMsbD

/-- The register takes a bit of the message. -/
def feed (g s : BitVec w) (b : Bool) : BitVec w :=
  (s <<< 1) ^^^ (if s.msb ^^ b then g else 0)

/-- The register takes a message. -/
def run (g s : BitVec w) (message : List Bool) : BitVec w := message.foldl (feed g) s

@[simp] theorem length_bits (v : BitVec w) : (bits v).length = w := by simp [bits]

theorem bits_injective {v v' : BitVec w} (h : bits v = bits v') : v = v' := by
  apply BitVec.eq_of_getMsbD_eq
  intro i hi
  have hget := congrArg (fun l => l[i]?) h
  simpa [bits, List.getElem?_range hi] using hget

theorem bits_xor (v v' : BitVec w) : bits (v ^^^ v') = diff (bits v) (bits v') := by
  apply List.ext_getElem?
  intro i
  rcases Nat.lt_or_ge i w with hi | hi
  · simp [bits, diff, List.getElem?_range hi]
  · simp [bits, diff, hi]

@[simp] theorem poly_bits_zero : poly (bits 0#w) = 0 := by
  have hbits : bits 0#w = List.replicate w false := by
    apply List.ext_getElem?
    intro i
    rcases Nat.lt_or_ge i w with hi | hi
    · simp [bits, hi]
    · simp [bits, hi]
  rw [hbits, poly_replicate]

theorem poly_bits_xor (v v' : BitVec w) :
    poly (bits (v ^^^ v')) = poly (bits v) + poly (bits v') := by
  rw [bits_xor, poly_diff (by simp)]

/-- A shift multiplies by `X`, up to the bit that it drops. -/
theorem poly_bits_shiftLeft (s : BitVec w) :
    poly (bits (s <<< 1)) + C (coef s.msb) * X ^ w = poly (bits s) * X := by
  cases w with
  | zero => simp [bits, BitVec.of_length_zero, coef]
  | succ n =>
    -- all bits but the highest, in both registers
    have hs : bits s = s.msb :: (List.range n).map fun i => s.getMsbD (i + 1) := by
      rw [bits, List.range_succ_eq_map, List.map_cons, List.map_map, BitVec.msb_eq_getMsbD_zero]
      rfl
    have hshift : bits (s <<< 1) = ((List.range n).map fun i => s.getMsbD (i + 1)) ++ [false] := by
      rw [bits, List.range_succ, List.map_append]
      simp [BitVec.getMsbD_shiftLeft]
    have hfalse : poly [false] = 0 := poly_replicate 1
    rw [hs, hshift, poly_append, hfalse, poly_cons, List.length_map, List.length_range,
      List.length_singleton]
    ring

theorem poly_bits_feed (g s : BitVec w) (b : Bool) :
    poly (bits (feed g s b)) = poly (bits s) * X + C (coef b) * X ^ w +
      C (coef (s.msb ^^ b)) * (X ^ w + poly (bits g)) := by
  have hshift := poly_bits_shiftLeft s
  have hg : poly (bits (if s.msb ^^ b then g else 0)) =
      C (coef (s.msb ^^ b)) * poly (bits g) := by
    cases s.msb ^^ b <;> simp [coef]
  -- the terms with `X ^ w` cancel, up to the one that the shift drops
  have hcancel := add_self (C (coef b) * X ^ w)
  have hcancel' := add_self (C (coef s.msb) * X ^ w)
  rw [feed, poly_bits_xor, hg, coef_xor, C_add]
  linear_combination hshift - hcancel - hcancel'

@[simp] theorem run_nil (g s : BitVec w) : run g s [] = s := rfl

theorem run_cons (g s : BitVec w) (b : Bool) (bs : List Bool) :
    run g s (b :: bs) = run g (feed g s b) bs := rfl

theorem run_append (g s : BitVec w) (a b : List Bool) :
    run g s (a ++ b) = run g (run g s a) b := List.foldl_append

/-! ### Remainders -/

/-- The generator, with its leading term. -/
noncomputable def gen (g : BitVec w) : (ZMod 2)[X] := X ^ w + poly (bits g)

theorem degree_poly_bits_lt (v : BitVec w) : (poly (bits v)).degree < w := by
  have hlt := degree_poly_lt (bits v)
  rwa [length_bits] at hlt

theorem monic_gen (g : BitVec w) : (gen g).Monic := monic_X_pow_add (degree_poly_bits_lt g)

theorem natDegree_gen (g : BitVec w) : (gen g).natDegree = w := by
  have hdeg : (gen g).degree = w := by
    rw [gen, degree_add_eq_left_of_degree_lt] <;> rw [degree_X_pow]
    exact degree_poly_bits_lt g
  exact natDegree_eq_of_degree_eq_some hdeg

/-- A multiple of the generator with a lower degree is zero. -/
theorem eq_zero_of_gen_dvd {g : BitVec w} {p : (ZMod 2)[X]} (hdvd : gen g ∣ p)
    (hdeg : p.degree < w) : p = 0 := by
  refine eq_zero_of_dvd_of_degree_lt hdvd ?_
  rwa [degree_eq_natDegree (monic_gen g).ne_zero, natDegree_gen]

/-- The register holds the message behind its first value, reduced by the generator. -/
theorem gen_dvd_run (g s : BitVec w) (message : List Bool) :
    gen g ∣ poly (bits (run g s message)) +
      (poly (bits s) * X ^ message.length + poly message * X ^ w) := by
  induction message generalizing s with
  | nil =>
    rw [run_nil, List.length_nil, pow_zero, mul_one, poly_nil, zero_mul, add_zero, add_self]
    exact dvd_zero _
  | cons b bs ih =>
    rw [run_cons, poly_cons, List.length_cons]
    -- a bit adds a multiple of the generator, and the rest of the message shifts it
    have hstep : gen g ∣ C (coef (s.msb ^^ b)) * gen g * X ^ bs.length :=
      (dvd_mul_left _ _).mul_right _
    have hsum := dvd_add (ih (feed g s b)) hstep
    have hcancel := add_self (C (coef (s.msb ^^ b)) * gen g * X ^ bs.length)
    rw [poly_bits_feed, ← gen] at hsum
    convert hsum using 1
    linear_combination - hcancel

/-- A multiple of the generator: a message and its check. -/
def Codeword (g : BitVec w) (xs : List Bool) : Prop := gen g ∣ poly xs

/-- **What the register computes.** It ends with `s` exactly if `s` makes the message a
codeword. -/
theorem run_eq_iff (g s : BitVec w) (message : List Bool) :
    run g 0#w message = s ↔ Codeword g (message ++ bits s) := by
  have hrun := gen_dvd_run g 0#w message
  rw [poly_bits_zero, zero_mul, zero_add] at hrun
  have hsplit : poly (message ++ bits s) = poly message * X ^ w + poly (bits s) := by
    rw [poly_append, length_bits]
  constructor
  · rintro rfl
    rw [Codeword, hsplit, add_comm]
    exact hrun
  · intro hcode
    rw [Codeword, hsplit] at hcode
    -- the two registers agree up to a multiple of the generator, and have lower degrees
    have hsum : gen g ∣ poly (bits (run g 0#w message ^^^ s)) := by
      have hadd := dvd_add hrun hcode
      have hcancel := add_self (poly message * X ^ w)
      rw [poly_bits_xor]
      convert hadd using 1
      linear_combination - hcancel
    have hzero := eq_zero_of_gen_dvd hsum (degree_poly_bits_lt _)
    rw [poly_bits_xor] at hzero
    have hpoly : poly (bits (run g 0#w message)) = poly (bits s) := by
      have hcancel := add_self (poly (bits s))
      linear_combination hzero - hcancel
    exact bits_injective (poly_injective (by simp) hpoly)

/-! ### Several bits at once -/

theorem feed_xor (g s s' : BitVec w) (b b' : Bool) :
    feed g (s ^^^ s') (b ^^ b') = feed g s b ^^^ feed g s' b' := by
  have hbit : ((s ^^^ s').msb ^^ (b ^^ b')) = ((s.msb ^^ b) ^^ (s'.msb ^^ b')) := by
    rw [BitVec.msb_xor]
    cases s.msb <;> cases b <;> simp
  unfold feed
  rw [hbit, BitVec.shiftLeft_xor_distrib]
  cases s.msb ^^ b <;> cases s'.msb ^^ b'
  · simp
  · simp [BitVec.xor_assoc]
  · simp only [Bool.xor_false, if_true, if_false, Bool.false_eq_true]
    ac_rfl
  · -- the generator is added twice
    have hcancel : (s <<< 1 ^^^ g) ^^^ (s' <<< 1 ^^^ g) =
        (s <<< 1 ^^^ s' <<< 1) ^^^ (g ^^^ g) := by ac_rfl
    simp [hcancel]

theorem run_xor (g s s' : BitVec w) {a b : List Bool} (hlen : a.length = b.length) :
    run g (s ^^^ s') (diff a b) = run g s a ^^^ run g s' b := by
  induction a generalizing s s' b with
  | nil =>
    obtain rfl := List.length_eq_zero_iff.mp hlen.symm
    rfl
  | cons x a ih =>
    cases b with
    | nil => simp at hlen
    | cons y b =>
      have hdiff : diff (x :: a) (y :: b) = (x ^^ y) :: diff a b := rfl
      rw [hdiff, run_cons, run_cons, run_cons, feed_xor, ih _ _ (by simpa using hlen)]

/-- A register that takes its own highest bits is shifted. -/
theorem run_top (g s : BitVec w) (k : ℕ) : run g s ((List.range k).map s.getMsbD) = s <<< k := by
  induction k with
  | zero => simp
  | succ k ih =>
    have hmsb : (s <<< k).msb = s.getMsbD k := by
      rw [BitVec.msb_eq_getMsbD_zero, BitVec.getMsbD_shiftLeft, Nat.zero_add]
    rw [List.range_succ, List.map_append, run_append, ih, List.map_singleton, run_cons, run_nil,
      feed, hmsb, Bool.xor_self, if_neg (by simp), BitVec.shiftLeft_add]
    exact BitVec.xor_zero

/-- The register takes several bits at once: what it does to them depends only on where
they differ from its own highest bits. -/
theorem run_lookup (g s : BitVec w) (xs : List Bool) :
    run g s xs =
      run g 0#w (diff ((List.range xs.length).map s.getMsbD) xs) ^^^ s <<< xs.length := by
  have hlen : ((List.range xs.length).map s.getMsbD).length = xs.length := by simp
  have hdiff := diff_diff_left hlen
  have hrun := run_xor g s 0#w
    (hlen.trans ((length_diff hlen).trans hlen).symm)
  rw [hdiff, run_top, BitVec.xor_zero] at hrun
  rw [hrun, BitVec.xor_comm]

/-! ### The errors that a check detects -/

/-- What is asked of a generator to detect errors in words of at most `n + 1` bits: it has
a constant term and an even number of terms, and `X` does not come back to `1` within `n`
steps. -/
structure Generator (g : BitVec w) (n : ℕ) : Prop where
  const_term : g.getLsbD 0 = true
  odd_count : Odd ((bits g).count true)
  period : 1#w ∉ List.iterate (fun s => feed g s false) (feed g 1#w false) n

theorem Codeword.add {g : BitVec w} {a b : List Bool} (ha : Codeword g a) (hb : Codeword g b)
    (hlen : a.length = b.length) : Codeword g (diff a b) := by
  rw [Codeword, poly_diff hlen]
  exact dvd_add ha hb

section Detection

variable {g : BitVec w} {n : ℕ}

theorem coprime_X_gen (hw : 0 < w) (hg : g.getLsbD 0 = true) : IsCoprime (gen g) X := by
  refine (irreducible_X.coprime_iff_not_dvd.mpr fun hdvd => ?_).symm
  obtain ⟨m, rfl⟩ : ∃ m, w = m + 1 := ⟨w - 1, by omega⟩
  -- the constant term of the generator is the last bit of `g`
  have hlast : bits g = (List.range m).map g.getMsbD ++ [true] := by
    rw [bits, List.range_succ, List.map_append, List.map_singleton, BitVec.getMsbD_eq_getLsbD]
    simp [hg]
  rw [X_dvd_iff, gen, hlast, poly_append, poly_cons] at hdvd
  simp [coef] at hdvd

theorem gen_dvd_of_dvd_mul_X_pow (hw : 0 < w) (hg : g.getLsbD 0 = true) {p : (ZMod 2)[X]}
    {k : ℕ} (h : gen g ∣ p * X ^ k) : gen g ∣ p :=
  (coprime_X_gen hw hg).pow_right.dvd_of_dvd_mul_right h

/-- **Bursts are detected.** Two codewords that differ only within as many bits as the
register has are equal. -/
theorem Codeword.eq_of_burst (hg : g.getLsbD 0 = true) {p x y q : List Bool}
    (hx : Codeword g (p ++ x ++ q)) (hy : Codeword g (p ++ y ++ q))
    (hlen : x.length = y.length) (hw : x.length ≤ w) : x = y := by
  rcases Nat.eq_zero_or_pos w with rfl | hpos
  · obtain rfl := List.length_eq_zero_iff.mp (Nat.le_zero.mp hw)
    exact (List.length_eq_zero_iff.mp hlen.symm).symm
  have hsum : gen g ∣ poly (diff x y) * X ^ q.length := by
    have hadd := dvd_add hx hy
    have hp := add_self (poly p * X ^ y.length * X ^ q.length)
    have hq := add_self (poly q)
    rw [poly_append, poly_append, poly_append, poly_append, hlen] at hadd
    rw [poly_diff hlen]
    convert hadd using 1
    linear_combination - hp - hq
  have hdvd := gen_dvd_of_dvd_mul_X_pow hpos hg hsum
  have hdeg : (poly (diff x y)).degree < w := by
    refine (degree_poly_lt _).trans_le ?_
    rw [length_diff hlen]
    exact_mod_cast hw
  exact eq_of_true_notMem_diff hlen (poly_eq_zero (eq_zero_of_gen_dvd hdvd hdeg))

theorem eval_one_poly (xs : List Bool) : (poly xs).eval 1 = (xs.count true : ℕ) := by
  induction xs with
  | nil => simp
  | cons b xs ih =>
    rw [poly_cons, eval_add, ih]
    cases b <;> simp [coef, add_comm]

/-- With an even number of terms in the generator, a codeword has an even number of ones. -/
theorem Codeword.even_count (hg : Odd ((bits g).count true)) {xs : List Bool}
    (h : Codeword g xs) : Even (xs.count true) := by
  have hroot : (gen g).eval 1 = 0 := by
    rw [gen, eval_add, eval_pow, eval_X, one_pow, eval_one_poly,
      ZMod.natCast_eq_one_iff_odd.mpr hg]
    decide
  have heval := eval_dvd (x := 1) h
  rw [hroot, zero_dvd_iff, eval_one_poly] at heval
  exact ZMod.natCast_eq_zero_iff_even.mp heval

/-- A list with a one in it, up to its first one. -/
theorem exists_first {xs : List Bool} (h : xs.count true ≠ 0) :
    ∃ k ys, xs = List.replicate k false ++ true :: ys ∧ xs.count true = ys.count true + 1 := by
  induction xs with
  | nil => simp at h
  | cons b xs ih =>
    cases b with
    | true => exact ⟨0, xs, rfl, by simp⟩
    | false =>
      obtain ⟨k, ys, hxs, hcount⟩ := ih (by simpa using h)
      refine ⟨k + 1, ys, ?_, by simpa using hcount⟩
      rw [List.replicate_succ, List.cons_append, ← hxs]

theorem eq_replicate_of_count {xs : List Bool} (h : xs.count true = 0) :
    xs = List.replicate xs.length false := by
  refine List.eq_replicate_iff.mpr ⟨rfl, fun b hb => ?_⟩
  cases b with
  | false => rfl
  | true => exact absurd hb (List.count_eq_zero.mp h)

theorem iterate_feed (s : BitVec w) (k : ℕ) :
    (fun s => feed g s false)^[k] s = run g s (List.replicate k false) := by
  induction k generalizing s with
  | zero => rfl
  | succ k ih => rw [Function.iterate_succ_apply, ih, List.replicate_succ, run_cons]

theorem poly_bits_one (hw : 0 < w) : poly (bits 1#w) = 1 := by
  obtain ⟨m, rfl⟩ : ∃ m, w = m + 1 := ⟨w - 1, by omega⟩
  have hbits : bits 1#(m + 1) = List.replicate m false ++ [true] := by
    apply List.ext_getElem?
    intro i
    rcases Nat.lt_trichotomy i m with hi | rfl | hi
    · have hlt : i < m + 1 := by omega
      have hne : i ≠ m := hi.ne
      simp [bits, hi, hlt, hne]
    · simp [bits]
    · simp [bits, hi]
  rw [hbits, poly_append, poly_replicate]
  simp [poly_cons, coef]

/-- Two ones alone are no codeword within the period. -/
theorem not_codeword_of_two (hw : 0 < w) (hg : Generator g n) {xs : List Bool}
    (hlen : xs.length ≤ n + 1) (hcount : xs.count true = 2) : ¬ Codeword g xs := by
  intro hcode
  obtain ⟨k, ys, rfl, h1⟩ := exists_first (by omega : xs.count true ≠ 0)
  obtain ⟨d, zs, rfl, h2⟩ := exists_first (by omega : ys.count true ≠ 0)
  have hzs := eq_replicate_of_count (by omega : zs.count true = 0)
  -- the generator divides `X ^ (d + 1) + 1`, so the register is back at `1`
  have hpoly : gen g ∣ (X ^ (d + 1) + 1) * X ^ zs.length := by
    rw [Codeword, hzs] at hcode
    simp [poly_append, poly_cons, coef] at hcode
    convert hcode using 1
    ring
  have hdvd := gen_dvd_of_dvd_mul_X_pow hw hg.const_term hpoly
  have hrun := gen_dvd_run g 1#w (List.replicate (d + 1) false)
  rw [poly_bits_one hw, poly_replicate, List.length_replicate, zero_mul, add_zero, one_mul]
    at hrun
  have hback : run g 1#w (List.replicate (d + 1) false) = 1#w := by
    have hsum := dvd_add hrun hdvd
    have hcancel := add_self (X ^ (d + 1) : (ZMod 2)[X])
    have hzero : poly (bits (run g 1#w (List.replicate (d + 1) false) ^^^ 1#w)) = 0 := by
      refine eq_zero_of_gen_dvd (g := g) ?_ (degree_poly_bits_lt _)
      rw [poly_bits_xor, poly_bits_one hw]
      convert hsum using 1
      linear_combination - hcancel
    have hpoly' := poly_bits_xor (run g 1#w (List.replicate (d + 1) false)) 1#w
    have hone := add_self (poly (bits 1#w))
    refine bits_injective (poly_injective (by simp) ?_)
    linear_combination hzero - hpoly' - hone
  refine hg.period (List.mem_iterate.mpr ⟨d, ?_, ?_⟩)
  · simp at hlen
    omega
  · rw [iterate_feed]
    exact hback.symm

/-- **Distance four.** Two codewords of one length differ in at least four bits, or not
at all. -/
theorem Codeword.four_le_distance (hw : 0 < w) (hg : Generator g n) {a b : List Bool}
    (ha : Codeword g a) (hb : Codeword g b) (hlen : a.length = b.length)
    (hn : a.length ≤ n + 1) (hne : a ≠ b) : 4 ≤ distance a b := by
  have hcode := ha.add hb hlen
  have heven := hcode.even_count hg.odd_count
  have hpos : distance a b ≠ 0 := fun h0 =>
    hne (eq_of_true_notMem_diff hlen (List.count_eq_zero.mp h0))
  have htwo : distance a b ≠ 2 := fun h2 =>
    not_codeword_of_two hw hg (by rwa [length_diff hlen]) h2 hcode
  unfold distance at hpos htwo ⊢
  obtain ⟨m, hm⟩ := heven
  omega

end Detection

end Crc
