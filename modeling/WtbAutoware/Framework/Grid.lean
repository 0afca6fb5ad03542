import Mathlib.Data.List.Flatten
import Mathlib.Data.List.Nodup
import Mathlib.Data.List.ProdSigma
import Mathlib.Tactic.Ring

/-!
# Grids in row-major order

A loop over the rows of a grid, with a loop over its columns inside, visits the cells in
row-major order. `rowMajor_eq_map` numbers them: the `i`-th cell is that of row `i / w` and
column `i % w`. `rowIndex_lt` bounds the number of a cell.

A loop with a stride visits the numbers `0, k, 2 * k, …` below its end, which are the
multiples of the stride (`steps_eq_filter`). With a stride in both loops, the cells are those
of the whole grid whose row and column are multiples of it, in the same order
(`strided_eq_filter`).
-/

namespace Grid

variable {α : Type}

/-- What a loop over rows and columns lists. -/
def rowMajor (h w : ℕ) (f : ℕ → ℕ → α) : List α :=
  (List.range h).flatMap fun r => (List.range w).map fun c => f r c

theorem rowMajor_succ (h w : ℕ) (f : ℕ → ℕ → α) :
    rowMajor (h + 1) w f = rowMajor h w f ++ (List.range w).map fun c => f h c := by
  unfold rowMajor
  rw [List.range_succ, List.flatMap_append, List.flatMap_singleton]

/-- The cells, by their number. -/
theorem rowMajor_eq_map (h w : ℕ) (f : ℕ → ℕ → α) :
    rowMajor h w f = (List.range (h * w)).map fun i => f (i / w) (i % w) := by
  induction h with
  | zero =>
    rw [Nat.zero_mul]
    rfl
  | succ h ih =>
    rw [rowMajor_succ, ih, Nat.succ_mul, List.range_add, List.map_append, List.map_map]
    -- the row that comes last starts at index `h * w`
    congr 1
    refine List.map_congr_left ?_
    intro c hc
    have hlt : c < w := List.mem_range.mp hc
    have hpos : 0 < w := Nat.zero_lt_of_lt hlt
    change f h c = f ((h * w + c) / w) ((h * w + c) % w)
    rw [Nat.mul_comm h w, Nat.mul_add_div hpos, Nat.mul_add_mod, Nat.div_eq_of_lt hlt,
      Nat.mod_eq_of_lt hlt, Nat.add_zero]

/-- A cell of the grid has a number in the grid. -/
theorem rowIndex_lt {h w r c : ℕ} (hr : r < h) (hc : c < w) : r * w + c < h * w :=
  calc r * w + c < r * w + w := Nat.add_lt_add_left hc _
    _ = (r + 1) * w := (Nat.succ_mul r w).symm
    _ ≤ h * w := Nat.mul_le_mul_right w hr

/-- No cell is visited twice. -/
theorem nodup_rowMajor (h w : ℕ) : (rowMajor h w Prod.mk).Nodup :=
  List.Nodup.product List.nodup_range List.nodup_range

theorem mem_rowMajor {h w : ℕ} {cell : ℕ × ℕ} :
    cell ∈ rowMajor h w Prod.mk ↔ cell.1 < h ∧ cell.2 < w := by
  rw [← List.mem_range, ← List.mem_range]
  exact List.mem_product

/-! ### Strides -/

/-- The numbers that a loop from zero with a stride of `k` visits below `n`. -/
def steps (n k : ℕ) : List ℕ := (List.range ((n + k - 1) / k)).map fun i => i * k

/-- They are the multiples of the stride. -/
theorem steps_eq_filter {k : ℕ} (hk : 1 ≤ k) (n : ℕ) :
    steps n k = (List.range n).filter (k ∣ ·) := by
  unfold steps
  induction n with
  | zero =>
    rw [Nat.zero_add, Nat.div_eq_of_lt (by omega)]
    rfl
  | succ n ih =>
    have hsucc : (n + 1 + k - 1) / k = n / k + 1 := by
      rw [show n + 1 + k - 1 = n + k by omega, Nat.add_div_right _ hk]
    rw [List.range_succ, List.filter_append, ← ih, hsucc]
    by_cases hdvd : k ∣ n
    · -- one more number
      obtain ⟨m, rfl⟩ := hdvd
      have hcount : (k * m + k - 1) / k = m := by
        rw [Nat.add_sub_assoc hk, Nat.mul_add_div hk, Nat.div_eq_of_lt (by omega), Nat.add_zero]
      rw [hcount, Nat.mul_div_cancel_left m hk, List.range_succ, List.map_append,
        List.filter_cons_of_pos (by simp), List.map_singleton, Nat.mul_comm m k]
      rfl
    · have hcount : (n + k - 1) / k = n / k + 1 := by
        have hmod : 0 < n % k := Nat.pos_of_ne_zero fun h => hdvd (Nat.dvd_of_mod_eq_zero h)
        have hless : n % k < k := Nat.mod_lt n hk
        calc (n + k - 1) / k = (k * (n / k) + (n % k + k - 1)) / k := by
              congr 1
              have := Nat.div_add_mod n k
              omega
          _ = n / k + (n % k + k - 1) / k := Nat.mul_add_div hk _ _
          _ = n / k + 1 := by
              rw [show n % k + k - 1 = (n % k - 1) + k by omega, Nat.add_div_right _ hk,
                Nat.div_eq_of_lt (lt_of_le_of_lt (Nat.sub_le _ 1) hless)]
      rw [hcount, List.filter_cons_of_neg (by simpa using hdvd), List.filter_nil, List.append_nil]

/-- The cells that both loops visit. -/
theorem strided_eq_filter {k : ℕ} (hk : 1 ≤ k) (h w : ℕ) :
    ((steps h k).flatMap fun r => (steps w k).map fun c => (r, c)) =
      (rowMajor h w Prod.mk).filter fun cell => k ∣ cell.1 ∧ k ∣ cell.2 := by
  unfold rowMajor
  rw [steps_eq_filter hk, steps_eq_filter hk, List.filter_flatMap]
  induction List.range h with
  | nil => rfl
  | cons r rows ih =>
    rw [List.flatMap_cons, List.filter_map]
    by_cases hr : k ∣ r
    · rw [List.filter_cons_of_pos (by simpa using hr), List.flatMap_cons, ih]
      congr 2
      refine List.filter_congr fun c _ => ?_
      exact decide_eq_decide.mpr (and_iff_right hr).symm
    · -- nothing of a row in between
      rw [List.filter_cons_of_neg (by simpa using hr), ih, List.filter_eq_nil_iff.mpr]
      · rfl
      · exact fun c _ hc => hr (of_decide_eq_true hc).1

end Grid
