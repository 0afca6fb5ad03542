import Mathlib.Data.Int.Range
import Mathlib.Logic.Function.Basic

/-!
# Buffers and the loops over them

A buffer has a fixed number of cells and an index that may be any integer. `Buffer.load` and
`Buffer.store` are `none` outside, which is where an array without checks goes wrong; the cells
inside hold whatever was last written, or what was there when the buffer was made.

`run_of_steps` is the rule for a loop that may go wrong: if every pass from a state in
the invariant of the passes so far goes well and meets the invariant again, the loop goes well
and ends in the invariant of all of its passes. `simulate_foldl` relates such a loop to one that
cannot go wrong, and `foldlM_eq_none` is about one that must. `Buffer.foldl_write_cell` says what
a loop that writes one cell in each pass leaves behind.

A `Sheet` is the same with a row and a column for an index, and `assign` writes to an entry of a
list that has it.
-/

namespace Buffers

variable {α : Type}

/-- An array of a fixed size. -/
structure Buffer (α : Type) where
  size : ℕ
  cell : ℤ → α

namespace Buffer

variable (b : Buffer α)

/-- The index is one of a cell. -/
def Inside (i : ℤ) : Prop := 0 ≤ i ∧ i < b.size

instance (i : ℤ) : Decidable (b.Inside i) := inferInstanceAs (Decidable (_ ∧ _))

/-- The value of a cell. -/
def load (i : ℤ) : Option α := if b.Inside i then some (b.cell i) else none

/-- The buffer with another value in one place. -/
def write (i : ℤ) (v : α) : Buffer α := ⟨b.size, Function.update b.cell i v⟩

/-- A write to a cell. -/
def store (i : ℤ) (v : α) : Option (Buffer α) := if b.Inside i then some (b.write i v) else none

variable {b} {i j : ℤ} {v : α}

@[simp] theorem size_write : (b.write i v).size = b.size := rfl

@[simp] theorem inside_write : (b.write i v).Inside j ↔ b.Inside j := Iff.rfl

theorem cell_write : (b.write i v).cell j = if j = i then v else b.cell j :=
  Function.update_apply b.cell i v j

theorem load_of_inside (h : b.Inside i) : b.load i = some (b.cell i) := if_pos h

theorem store_of_inside (h : b.Inside i) : b.store i v = some (b.write i v) := if_pos h

theorem load_eq_some {x : α} : b.load i = some x ↔ b.Inside i ∧ b.cell i = x := by
  unfold load
  split
  · next h => simp [h]
  · next h => simp [h]

theorem store_eq_some {b' : Buffer α} : b.store i v = some b' ↔ b.Inside i ∧ b.write i v = b' := by
  unfold store
  split
  · next h => simp [h]
  · next h => simp [h]

/-! ### Loops -/

/-- A loop that writes cell `i` in the pass for `i` leaves the rest as it is. -/
theorem foldl_write_cell (f : ℤ → α) (is : List ℤ) (b : Buffer α) (j : ℤ) :
    (is.foldl (fun b i => b.write i (f i)) b).cell j = if j ∈ is then f j else b.cell j := by
  induction is generalizing b with
  | nil => rfl
  | cons i is ih =>
    rw [List.foldl_cons, ih, cell_write]
    by_cases hj : j ∈ is
    · rw [if_pos hj, if_pos (List.mem_cons_of_mem _ hj)]
    · rw [if_neg hj]
      by_cases hi : j = i
      · subst hi
        rw [if_pos rfl, if_pos List.mem_cons_self]
      · rw [if_neg hi, if_neg (by simp [hi, hj])]

theorem foldl_write_size (f : ℤ → α) (is : List ℤ) (b : Buffer α) :
    (is.foldl (fun b i => b.write i (f i)) b).size = b.size := by
  induction is generalizing b with
  | nil => rfl
  | cons i is ih => exact ih _

end Buffer

/-! ### Sheets and lists -/

/-- An array with rows and columns. -/
structure Sheet (α : Type) where
  rows : ℤ
  cols : ℤ
  cell : ℤ × ℤ → α

namespace Sheet

variable (m : Sheet α)

/-- The indices are those of a row and a column. -/
def Inside (c : ℤ × ℤ) : Prop := (0 ≤ c.1 ∧ c.1 < m.rows) ∧ 0 ≤ c.2 ∧ c.2 < m.cols

instance (c : ℤ × ℤ) : Decidable (m.Inside c) := inferInstanceAs (Decidable (_ ∧ _))

def load (c : ℤ × ℤ) : Option α := if m.Inside c then some (m.cell c) else none

/-- The sheet with another value in one place. -/
def write (c : ℤ × ℤ) (v : α) : Sheet α := ⟨m.rows, m.cols, Function.update m.cell c v⟩

def store (c : ℤ × ℤ) (v : α) : Option (Sheet α) := if m.Inside c then some (m.write c v) else none

variable {m} {c c' : ℤ × ℤ} {v : α}

theorem cell_write : (m.write c v).cell c' = if c' = c then v else m.cell c' :=
  Function.update_apply m.cell c v c'

theorem load_of_inside (h : m.Inside c) : m.load c = some (m.cell c) := if_pos h

theorem store_of_inside (h : m.Inside c) : m.store c v = some (m.write c v) := if_pos h

end Sheet

/-- A write to an entry of a list. -/
def assign (xs : List α) (i : ℕ) (x : α) : Option (List α) :=
  if i < xs.length then some (xs.set i x) else none

theorem assign_of_lt {xs : List α} {i : ℕ} {x : α} (h : i < xs.length) :
    assign xs i x = some (xs.set i x) := if_pos h

/-- **Loop rule.** A loop whose passes all go well goes well, and ends in the invariant. -/
theorem run_of_steps {σ ι : Type} {f : σ → ι → Option σ} {I : List ι → σ → Prop}
    {is : List ι} {s : σ} (h : I [] s)
    (hstep : ∀ pre i post, is = pre ++ i :: post → ∀ s, I pre s →
      ∃ s', f s i = some s' ∧ I (pre ++ [i]) s') :
    ∃ s', is.foldlM f s = some s' ∧ I is s' := by
  suffices hall : ∀ post pre s, is = pre ++ post → I pre s →
      ∃ s', post.foldlM f s = some s' ∧ I is s' from hall is [] s rfl h
  intro post
  induction post with
  | nil =>
    intro pre s heq hs
    rw [List.append_nil] at heq
    exact ⟨s, rfl, heq ▸ hs⟩
  | cons i post ih =>
    intro pre s heq hs
    obtain ⟨s', hpass, hs'⟩ := hstep pre i post heq s hs
    obtain ⟨t, hrest, ht⟩ := ih (pre ++ [i]) s' (by rw [heq, List.append_assoc]; rfl) hs'
    refine ⟨t, ?_, ht⟩
    rw [List.foldlM_cons, hpass]
    exact hrest

/-- **Simulation.** A loop over buffers that goes well in every pass, and stays related to a
loop over something simpler, goes well and ends related to it. -/
theorem simulate_foldl {σ τ ι : Type} {f : σ → ι → σ} {g : τ → ι → Option τ}
    {R : σ → τ → Prop} {is : List ι}
    (hstep : ∀ i ∈ is, ∀ s t, R s t → ∃ t', g t i = some t' ∧ R (f s i) t')
    {s : σ} {t : τ} (h : R s t) : ∃ t', is.foldlM g t = some t' ∧ R (is.foldl f s) t' := by
  induction is generalizing s t with
  | nil => exact ⟨t, rfl, h⟩
  | cons i is ih =>
    obtain ⟨t₁, hpass, h₁⟩ := hstep i List.mem_cons_self s t h
    obtain ⟨t', hrest, h'⟩ := ih (fun j hj => hstep j (List.mem_cons_of_mem i hj)) h₁
    refine ⟨t', ?_, h'⟩
    rw [List.foldlM_cons, hpass]
    exact hrest

/-- A loop with a pass that goes wrong in every state goes wrong. -/
theorem foldlM_eq_none {σ ι : Type} {f : σ → ι → Option σ} {is : List ι} {i : ι} (hi : i ∈ is)
    (h : ∀ s, f s i = none) (s : σ) : is.foldlM f s = none := by
  induction is generalizing s with
  | nil => exact absurd hi List.not_mem_nil
  | cons j is ih =>
    rw [List.foldlM_cons]
    rcases List.mem_cons.mp hi with rfl | hrest
    · rw [h s]
      rfl
    · cases f s j with
      | none => rfl
      | some s' => exact ih hrest s'

/-! ### Index ranges -/

theorem range_eq_nil {lo hi : ℤ} (h : hi ≤ lo) : Int.range lo hi = [] := by
  unfold Int.range
  rw [Int.toNat_of_nonpos (by omega)]
  rfl

/-- A loop goes to any index in between first. -/
theorem range_append (lo mid hi : ℤ) (h₁ : lo ≤ mid) (h₂ : mid ≤ hi) :
    Int.range lo hi = Int.range lo mid ++ Int.range mid hi := by
  unfold Int.range
  obtain ⟨m, rfl⟩ := Int.le.dest h₁
  obtain ⟨n, rfl⟩ := Int.le.dest h₂
  rw [show (lo + m + n - lo).toNat = m + n by omega, show (lo + m - lo).toNat = m by omega,
    show (lo + m + n - (lo + m)).toNat = n by omega, List.range_add, List.map_append,
    List.map_map]
  congr 1
  refine List.map_congr_left fun k _ => ?_
  change lo + ((m + k : ℕ) : ℤ) = lo + m + k
  omega

theorem range_cons (lo hi : ℤ) (h : lo < hi) : Int.range lo hi = lo :: Int.range (lo + 1) hi := by
  rw [range_append lo (lo + 1) hi (by omega) (by omega)]
  have hone : Int.range lo (lo + 1) = [lo] := by
    unfold Int.range
    rw [show (lo + 1 - lo).toNat = 1 by omega]
    simp
  rw [hone]
  rfl

theorem length_range (lo hi : ℤ) : (Int.range lo hi).length = (hi - lo).toNat := by
  unfold Int.range
  rw [List.length_map, List.length_range]

/-- What a loop reaches that ends at the first index where the condition fails. -/
theorem mem_takeWhile_range {p : ℤ → Bool} {lo hi m : ℤ} :
    m ∈ (Int.range lo hi).takeWhile p ↔
      lo ≤ m ∧ m < hi ∧ ∀ k, lo ≤ k → k ≤ m → p k = true := by
  induction hn : (hi - lo).toNat generalizing lo with
  | zero =>
    rw [range_eq_nil (by omega), List.takeWhile_nil]
    refine ⟨fun h => absurd h List.not_mem_nil, fun ⟨hlo, hhi, _⟩ => by omega⟩
  | succ n ih =>
    rw [range_cons lo hi (by omega)]
    cases hp : p lo with
    | false =>
      rw [List.takeWhile_cons_of_neg (by simp [hp])]
      refine ⟨fun h => absurd h List.not_mem_nil, fun ⟨hlo, _, hall⟩ => ?_⟩
      exact Bool.noConfusion (hp.symm.trans (hall lo le_rfl hlo))
    | true =>
      rw [List.takeWhile_cons_of_pos hp, List.mem_cons, ih (by omega)]
      refine ⟨?_, ?_⟩
      · rintro (rfl | ⟨hlo, hhi, hall⟩)
        · exact ⟨le_rfl, by omega, fun k hk hk' => le_antisymm hk' hk ▸ hp⟩
        · refine ⟨by omega, hhi, fun k hk hk' => ?_⟩
          rcases eq_or_lt_of_le hk with rfl | hlt
          · exact hp
          · exact hall k hlt hk'
      · rintro ⟨hlo, hhi, hall⟩
        rcases eq_or_lt_of_le hlo with heq | hlt
        · exact Or.inl heq.symm
        · exact Or.inr ⟨hlt, hhi, fun k hk => hall k (by omega)⟩

/-- What holds between the indices of a loop in their order. -/
theorem rel_of_pairwise_range {R : ℤ → ℤ → Prop} {lo hi k k' : ℤ}
    (h : (Int.range lo hi).Pairwise R) (hlo : lo ≤ k) (hlt : k < k') (hhi : k' < hi) : R k k' := by
  rw [range_append lo k' hi (by omega) (by omega)] at h
  exact (List.pairwise_append.mp h).2.2 k (Int.mem_range_iff.mpr ⟨hlo, hlt⟩) k'
    (Int.mem_range_iff.mpr ⟨le_refl k', hhi⟩)

theorem getElem?_range {lo hi k : ℤ} (hlo : lo ≤ k) (hhi : k < hi) :
    (Int.range lo hi)[(k - lo).toNat]? = some k := by
  unfold Int.range
  rw [List.getElem?_map, List.getElem?_range (by omega)]
  change some (lo + ((k - lo).toNat : ℤ)) = some k
  rw [Int.toNat_of_nonneg (by omega), add_sub_cancel]

/-- The index of a pass is as far from the first as there have been passes. -/
theorem eq_of_range_eq {lo hi k : ℤ} {pre post : List ℤ} (h : Int.range lo hi = pre ++ k :: post) :
    k = lo + pre.length := by
  have hlen := congrArg List.length h
  rw [length_range, List.length_append, List.length_cons] at hlen
  have hget := getElem?_range (show lo ≤ lo + pre.length by omega)
    (show lo + pre.length < hi by omega)
  rw [show (lo + (pre.length : ℤ) - lo).toNat = pre.length by omega, h,
    List.getElem?_append_right (le_refl _), Nat.sub_self, List.getElem?_cons_zero] at hget
  exact Option.some.inj hget

end Buffers
