import Mathlib.Data.Nat.Notation

/-!
# While loops

`while (cond) body` over a state, with no bound on the number of its rounds.
`Rounds cond body n s t` says that the loop goes `n` rounds from `s` and stops at `t`. A loop
that goes on for ever has no such derivation, and one that stops has a single one
(`Rounds.unique`).

* `Rounds.of_countdown` is the rule for termination. A counter that is positive exactly where
  the loop goes on, and that goes down by one in a round, is the number of rounds.
* `Rounds.eq_of_equation` is the rule for the result. A function that meets the equation of
  the loop is its result wherever the loop stops.
-/

namespace While

variable {σ : Type} {cond : σ → Prop} {body : σ → σ}

/-- The loop goes `n` rounds from the first state, and stops at the second. -/
inductive Rounds (cond : σ → Prop) (body : σ → σ) : ℕ → σ → σ → Prop
  | stop {s : σ} (h : ¬ cond s) : Rounds cond body 0 s s
  | round {n : ℕ} {s t : σ} (h : cond s) (rest : Rounds cond body n (body s) t) :
      Rounds cond body (n + 1) s t

/-- The number of rounds and the state at the end are those of the start. -/
theorem Rounds.unique {n m : ℕ} {s t u : σ} (h : Rounds cond body n s t)
    (h' : Rounds cond body m s u) : n = m ∧ t = u := by
  induction h generalizing m with
  | stop hstop =>
    cases h' with
    | stop => exact ⟨rfl, rfl⟩
    | round hgo => exact absurd hgo hstop
  | round hgo rest ih =>
    cases h' with
    | stop hstop => exact absurd hgo hstop
    | round _ rest' =>
      obtain ⟨rfl, rfl⟩ := ih rest'
      exact ⟨rfl, rfl⟩

/-- **Termination by a countdown.** -/
theorem Rounds.of_countdown (counter : σ → ℕ) (hcond : ∀ s, cond s ↔ 0 < counter s)
    (hbody : ∀ s, cond s → counter (body s) + 1 = counter s) (s : σ) :
    ∃ t, Rounds cond body (counter s) s t := by
  induction hn : counter s generalizing s with
  | zero =>
    have hstop : ¬ cond s := by
      rw [hcond, hn]
      exact Nat.lt_irrefl 0
    exact ⟨s, .stop hstop⟩
  | succ n ih =>
    have hgo : cond s := (hcond s).mpr (hn ▸ Nat.succ_pos n)
    -- one round takes the counter to `n`
    obtain ⟨t, rest⟩ := ih (body s) (Nat.succ.inj ((hbody s hgo).trans hn))
    exact ⟨t, .round hgo rest⟩

/-- **The result, by the equation of the loop.** -/
theorem Rounds.eq_of_equation [DecidablePred cond] {f : σ → σ}
    (hf : ∀ s, f s = if cond s then f (body s) else s) {n : ℕ} {s t : σ}
    (h : Rounds cond body n s t) : t = f s := by
  induction h with
  | stop hstop => rw [hf, if_neg hstop]
  | round hgo _ ih => rw [hf, if_pos hgo, ih]

end While
