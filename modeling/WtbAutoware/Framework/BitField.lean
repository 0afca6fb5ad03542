import Mathlib.Data.Nat.Bitwise
import Mathlib.Tactic.Ring

/-!
# Bit fields read as digits

A packed frame stores a number as a few bit fields. Masks, shifts and bitwise
ors move the fields about; these lemmas read each of them as arithmetic on
`toNat`, so that a layout is checked by `omega` on quotients and remainders:

* `BitField.toNat_low` — a mask of `k` low ones keeps the remainder by `2 ^ k`;
* `BitField.toNat_field` — masking `k` ones at position `i` and shifting them
  down extracts the field;
* `BitField.toNat_or_shiftLeft` — an or with a field shifted past the bits that
  are set adds the field at its weight.
-/

namespace BitField

variable {w : ℕ}

theorem toNat_low (x : BitVec w) {mask : BitVec w} {k : ℕ} (hm : mask.toNat = 2 ^ k - 1) :
    (x &&& mask).toNat = x.toNat % 2 ^ k := by
  rw [BitVec.toNat_and, hm, Nat.and_two_pow_sub_one_eq_mod]

theorem toNat_field (x : BitVec w) {mask : BitVec w} {i k : ℕ}
    (hm : mask.toNat = (2 ^ k - 1) <<< i) :
    ((x &&& mask) >>> i).toNat = x.toNat / 2 ^ i % 2 ^ k := by
  rw [BitVec.toNat_ushiftRight, BitVec.toNat_and, hm, Nat.shiftRight_and_distrib,
    Nat.shiftLeft_shiftRight, Nat.and_two_pow_sub_one_eq_mod, Nat.shiftRight_eq_div_pow]

theorem toNat_or_shiftLeft {lo hi : BitVec w} {k : ℕ} (hlo : lo.toNat < 2 ^ k)
    (hfit : hi.toNat * 2 ^ k < 2 ^ w) :
    (lo ||| hi <<< k).toNat = lo.toNat + hi.toNat * 2 ^ k := by
  -- the shift loses no bit, and the two parts share none
  rw [BitVec.toNat_or, BitVec.toNat_shiftLeft, Nat.shiftLeft_eq, Nat.mod_eq_of_lt hfit,
    Nat.or_comm, ← Nat.shiftLeft_eq, ← Nat.shiftLeft_add_eq_or_of_lt hlo, Nat.shiftLeft_eq,
    Nat.add_comm]

/-- A single bit, tested with its mask. -/
theorem and_bit_eq_zero_iff (x : BitVec w) {mask : BitVec w} {i : ℕ}
    (hm : mask.toNat = 2 ^ i) : x &&& mask = 0 ↔ x.toNat / 2 ^ i % 2 = 0 := by
  rw [← BitVec.toNat_inj, BitVec.toNat_and, hm, Nat.and_two_pow,
    Nat.testBit_eq_decide_div_mod_eq]
  rcases Nat.mod_two_eq_zero_or_one (x.toNat / 2 ^ i) with h | h <;> simp [h]

end BitField
