import Mathlib.Data.List.Basic
import Mathlib.Order.Basic

/-!
# Greedy selection with suppression

Candidates are looked at one after the other. A candidate that meets the condition and is not
marked is selected, and everything near it is marked; the selection ends when one more than
`limit` candidates would be selected. `choose` is the list of the selected candidates in the
order of their selection.

The laws hold for any relation `near` and any condition `ok`:

* the selected are candidates, in their order (`choose_sublist`), at most `limit` of them
  (`length_choose_le`), each of them free at the start and meeting the condition
  (`spec_of_mem_choose`);
* no selected candidate is near an earlier one (`choose_pairwise`);
* behind a selection, the marks are those in front of it and what is near a selected candidate
  (`foldl_mark`);
* a candidate that meets the condition is passed over for one of three reasons: it was marked
  at the start, or one that came first is near it, or the selection was full (`near_or_full`).
-/

namespace Greedy

variable {ι : Type} (near : ι → ι → Prop) [DecidableRel near] (ok : ι → Prop) [DecidablePred ok]

/-- The marks, with everything near `i` marked as well. -/
def mark (m : ι → Bool) (i : ι) : ι → Bool := fun j => m j || decide (near i j)

/-- The selected candidates, in the order of their selection. -/
def choose : ℕ → List ι → (ι → Bool) → List ι
  | _, [], _ => []
  | limit, i :: is, m =>
    if m i = false ∧ ok i then
      match limit with
      | 0 => []
      | limit + 1 => i :: choose limit is (mark near m i)
    else choose limit is m

variable {near ok} {limit : ℕ} {is : List ι} {m : ι → Bool} {i j : ι}

theorem mark_eq_true : mark near m i j = true ↔ m j = true ∨ near i j := by simp [mark]

theorem mark_eq_false : mark near m i j = false ↔ m j = false ∧ ¬ near i j := by simp [mark]

/-! ### Equations -/

theorem choose_cons_of_skip (h : ¬ (m i = false ∧ ok i)) :
    choose near ok limit (i :: is) m = choose near ok limit is m := by
  cases limit <;> rw [choose, if_neg h]

theorem choose_cons_of_full (h : m i = false ∧ ok i) : choose near ok 0 (i :: is) m = [] := by
  rw [choose, if_pos h]

theorem choose_cons_of_pick (h : m i = false ∧ ok i) :
    choose near ok (limit + 1) (i :: is) m = i :: choose near ok limit is (mark near m i) := by
  rw [choose, if_pos h]

/-- An induction over the candidates, with a case for each of the three things that can
become of one. -/
theorem choose_induction (near : ι → ι → Prop) [DecidableRel near] (ok : ι → Prop)
    [DecidablePred ok] {Q : ℕ → List ι → (ι → Bool) → Prop} (nil : ∀ limit m, Q limit [] m)
    (skip : ∀ limit i is m, ¬ (m i = false ∧ ok i) → Q limit is m → Q limit (i :: is) m)
    (full : ∀ i is m, m i = false ∧ ok i → Q 0 (i :: is) m)
    (pick : ∀ limit i is m, m i = false ∧ ok i → Q limit is (mark near m i) →
      Q (limit + 1) (i :: is) m) (limit : ℕ) (is : List ι) (m : ι → Bool) : Q limit is m := by
  induction is generalizing limit m with
  | nil => exact nil limit m
  | cons i is ih =>
    by_cases h : m i = false ∧ ok i
    · cases limit with
      | zero => exact full i is m h
      | succ limit => exact pick limit i is m h (ih limit _)
    · exact skip limit i is m h (ih limit m)

/-! ### The selected candidates -/

theorem choose_sublist : (choose near ok limit is m).Sublist is := by
  induction limit, is, m using choose_induction near ok with
  | nil limit m => exact List.Sublist.refl []
  | skip limit i is m h ih =>
    rw [choose_cons_of_skip h]
    exact ih.cons i
  | full i is m h =>
    rw [choose_cons_of_full h]
    exact List.nil_sublist _
  | pick limit i is m h ih =>
    rw [choose_cons_of_pick h]
    exact ih.cons_cons i

theorem length_choose_le : (choose near ok limit is m).length ≤ limit := by
  induction limit, is, m using choose_induction near ok with
  | nil limit m => exact Nat.zero_le limit
  | skip limit i is m h ih =>
    rw [choose_cons_of_skip h]
    exact ih
  | full i is m h =>
    rw [choose_cons_of_full h]
    exact Nat.le_refl 0
  | pick limit i is m h ih =>
    rw [choose_cons_of_pick h, List.length_cons]
    exact Nat.succ_le_succ ih

/-- A selected candidate meets the condition and was not marked at the start. -/
theorem spec_of_mem_choose (h : j ∈ choose near ok limit is m) : m j = false ∧ ok j := by
  induction limit, is, m using choose_induction near ok with
  | nil limit m => exact absurd h List.not_mem_nil
  | skip limit i is m hskip ih =>
    rw [choose_cons_of_skip hskip] at h
    exact ih h
  | full i is m hfull =>
    rw [choose_cons_of_full hfull] at h
    exact absurd h List.not_mem_nil
  | pick limit i is m hpick ih =>
    rw [choose_cons_of_pick hpick] at h
    rcases List.mem_cons.mp h with rfl | hrest
    · exact hpick
    · obtain ⟨hfree, hok⟩ := ih hrest
      exact ⟨(mark_eq_false.mp hfree).1, hok⟩

theorem free_of_mem_choose (h : j ∈ choose near ok limit is m) : m j = false :=
  (spec_of_mem_choose h).1

/-- No selected candidate is near one that was selected before it. -/
theorem choose_pairwise : (choose near ok limit is m).Pairwise fun i j => ¬ near i j := by
  induction limit, is, m using choose_induction near ok with
  | nil limit m => exact List.Pairwise.nil
  | skip limit i is m h ih =>
    rw [choose_cons_of_skip h]
    exact ih
  | full i is m h =>
    rw [choose_cons_of_full h]
    exact List.Pairwise.nil
  | pick limit i is m h ih =>
    rw [choose_cons_of_pick h]
    -- what comes later was still free when everything near `i` had been marked
    exact List.pairwise_cons.mpr
      ⟨fun j hj => (mark_eq_false.mp (free_of_mem_choose hj)).2, ih⟩

/-! ### The marks -/

theorem foldl_mark (l : List ι) (m : ι → Bool) :
    l.foldl (mark near) m j = true ↔ m j = true ∨ ∃ i ∈ l, near i j := by
  induction l generalizing m with
  | nil => simp
  | cons i l ih =>
    rw [List.foldl_cons, ih, mark_eq_true, or_assoc]
    simp

/-! ### What comes first -/

/-- What comes later does not change what is selected first. -/
theorem choose_prefix_append (near : ι → ι → Prop) [DecidableRel near] (ok : ι → Prop)
    [DecidablePred ok] (limit : ℕ) (is js : List ι) (m : ι → Bool) :
    choose near ok limit is m <+: choose near ok limit (is ++ js) m := by
  induction limit, is, m using choose_induction near ok with
  | nil limit m => exact List.nil_prefix
  | skip limit i is m h ih =>
    rw [List.cons_append, choose_cons_of_skip h, choose_cons_of_skip h]
    exact ih
  | full i is m h =>
    rw [List.cons_append, choose_cons_of_full h]
    exact List.nil_prefix
  | pick limit i is m h ih =>
    rw [List.cons_append, choose_cons_of_pick h, choose_cons_of_pick h]
    exact (List.prefix_cons_inj i).mpr ih

/-- **Suppression.** A candidate that meets the condition is marked at the start, or near one
that is selected no later than itself, or the selection was full before it. -/
theorem near_or_full (limit : ℕ) (is : List ι) (m : ι → Bool) (hrefl : ∀ i, near i i)
    (hok : ok j) :
    m j = true ∨ (∃ i ∈ choose near ok limit (is ++ [j]) m, near i j) ∨
      (choose near ok limit is m).length = limit := by
  induction limit, is, m using choose_induction near ok with
  | nil limit m =>
    cases hm : m j with
    | true => exact Or.inl rfl
    | false =>
      cases limit with
      | zero => exact Or.inr (Or.inr rfl)
      | succ limit =>
        refine Or.inr (Or.inl ⟨j, ?_, hrefl j⟩)
        rw [List.nil_append, choose_cons_of_pick ⟨hm, hok⟩]
        exact List.mem_cons_self
  | skip limit i is m h ih =>
    rw [List.cons_append, choose_cons_of_skip h, choose_cons_of_skip h]
    exact ih
  | full i is m h =>
    rw [choose_cons_of_full h]
    exact Or.inr (Or.inr rfl)
  | pick limit i is m h ih =>
    rw [List.cons_append, choose_cons_of_pick h, choose_cons_of_pick h, List.length_cons]
    rcases ih with hmark | ⟨i', hi', hnear⟩ | hfull
    · -- marked by now: from the start, or on account of `i`
      exact (mark_eq_true.mp hmark).imp_right fun hnear =>
        Or.inl ⟨i, List.mem_cons_self, hnear⟩
    · exact Or.inr (Or.inl ⟨i', List.mem_cons_of_mem _ hi', hnear⟩)
    · exact Or.inr (Or.inr (congrArg (· + 1) hfull))

end Greedy
