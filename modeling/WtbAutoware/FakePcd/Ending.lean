import WtbAutoware.FakePcd.Pgm

/-!
# Whether loading ends

Everything in `load_pgm` takes a fixed number of steps, or goes once through what is left of
the file, but for the loop that waits until it has two tokens. Each iteration adds the
tokens of the next line that has any. `dataTokens` are the tokens that are still to come,
and an iteration moves some of them to those that are there (`nextTokens_append`), so the
sum of the two is the same throughout. The loop ends if that is two or more
(`exists_gather`), as each iteration uses up a line, and if it is less, it does not
(`gather_eq_running`), since at the end of the file an iteration changes nothing.
-/

namespace WtbAutoware
namespace FakePcd

open Text

/-- A line that `next_tokens` does not skip. -/
def IsData (line : List Byte) : Prop := ¬ (strip line = [] ∨ (strip line).head? = some 35)

instance (line : List Byte) : Decidable (IsData line) := inferInstanceAs (Decidable (¬ _))

/-- The tokens on the lines of a file that are neither blank nor comments. -/
def dataTokens (f : File) : List (List Byte) :=
  (f.filter IsData).flatMap fun line => words (strip line)

/-! ### One iteration -/

theorem nextTokens_of_not_data {line : List Byte} (h : ¬ IsData line) (f : File) :
    nextTokens (line :: f) = nextTokens f := by
  rw [nextTokens, if_pos (not_not.mp h)]

theorem nextTokens_of_data {line : List Byte} (h : IsData line) (f : File) :
    nextTokens (line :: f) = (words (strip line), f) := by
  rw [nextTokens, if_neg h]

/-- The tokens of the next line, and those behind it. -/
theorem nextTokens_append (f : File) :
    (nextTokens f).1 ++ dataTokens (nextTokens f).2 = dataTokens f := by
  induction f with
  | nil => rfl
  | cons line f ih =>
    unfold dataTokens at ih ⊢
    by_cases h : IsData line
    · rw [nextTokens_of_data h, List.filter_cons_of_pos (by simpa using h), List.flatMap_cons]
    · rw [nextTokens_of_not_data h, ih, List.filter_cons_of_neg (by simpa using h)]

/-- While there are tokens to come, an iteration has some, and uses up a line. -/
theorem nextTokens_progress {f : File} (h : dataTokens f ≠ []) :
    (nextTokens f).1 ≠ [] ∧ (nextTokens f).2.length < f.length := by
  induction f with
  | nil => exact absurd rfl h
  | cons line f ih =>
    by_cases hdata : IsData line
    · -- the words of this line are returned
      rw [nextTokens_of_data hdata]
      exact ⟨words_strip_ne_nil fun hnil => hdata (Or.inl hnil), Nat.lt_succ_self _⟩
    · -- a blank line or a comment is passed over
      have hrest : dataTokens f ≠ [] := by
        rw [dataTokens, List.filter_cons_of_neg (by simpa using hdata)] at h
        exact h
      rw [nextTokens_of_not_data hdata]
      exact ⟨(ih hrest).1, (ih hrest).2.trans (Nat.lt_succ_self _)⟩

/-! ### The loop -/

/-- Enough tokens: the loop ends, and with two of them or more. -/
theorem exists_gather {tokens : List (List Byte)} {f : File}
    (h : 2 ≤ tokens.length + (dataTokens f).length) :
    ∃ bound tokens' f', gather bound tokens f = .returned (tokens', f') := by
  induction hlen : f.length using Nat.strong_induction_on generalizing tokens f with
  | _ n ih =>
    by_cases hdone : 2 ≤ tokens.length
    · exact ⟨0, tokens, f, by rw [gather, if_pos hdone]⟩
    · -- one more iteration, which leaves fewer lines
      have hsome : dataTokens f ≠ [] := by
        intro hnil
        rw [hnil, List.length_nil] at h
        omega
      obtain ⟨-, hless⟩ := nextTokens_progress hsome
      have hsum := congrArg List.length (nextTokens_append f)
      rw [List.length_append] at hsum
      have hmore :
          2 ≤ (tokens ++ (nextTokens f).1).length + (dataTokens (nextTokens f).2).length := by
        rw [List.length_append]
        omega
      obtain ⟨bound, tokens', f', hgather⟩ := ih _ (hlen ▸ hless) hmore rfl
      refine ⟨bound + 1, tokens', f', ?_⟩
      rw [gather, if_neg hdone]
      exact hgather

/-- Too few tokens: it does not. -/
theorem gather_eq_running {tokens : List (List Byte)} {f : File}
    (h : tokens.length + (dataTokens f).length < 2) (bound : ℕ) :
    gather bound tokens f = .running := by
  have hfew : ¬ 2 ≤ tokens.length := by omega
  induction bound generalizing tokens f with
  | zero => rw [gather, if_neg hfew]
  | succ bound ih =>
    -- what a line adds is taken from what is left, so the sum stays below two
    have hsum := congrArg List.length (nextTokens_append f)
    rw [List.length_append] at hsum
    rw [gather, if_neg hfew]
    refine ih ?_ ?_
    · rw [List.length_append]
      omega
    · rw [List.length_append]
      omega

/-! ### Everything else -/

theorem Outcome.bind_ne_running {α β : Type} {x : Outcome α} {g : α → Outcome β}
    (hx : x ≠ .running) (hg : ∀ value, g value ≠ .running) : x.bind g ≠ .running := by
  cases x with
  | returned value => exact hg value
  | raised error => exact fun h => nomatch h
  | running => exact absurd rfl hx

theorem parse_ne_running (token : List Byte) : parse token ≠ .running := by
  unfold parse
  split
  · exact fun h => nomatch h
  · exact fun h => nomatch h

theorem parseAll_ne_running (tokens : List (List Byte)) : parseAll tokens ≠ .running := by
  induction tokens with
  | nil => exact fun h => nomatch h
  | cons token tokens ih =>
    refine Outcome.bind_ne_running (parse_ne_running token) fun value => ?_
    exact Outcome.bind_ne_running ih fun values h => nomatch h

theorem rawPixels_ne_running (payload : List Byte) (expected : ℤ) :
    rawPixels payload expected ≠ .running := by
  unfold rawPixels
  split
  · exact fun h => nomatch h
  · exact fun h => nomatch h

theorem plainPixels_ne_running (payload : List Byte) (expected : ℤ) :
    plainPixels payload expected ≠ .running := by
  refine Outcome.bind_ne_running (parseAll_ne_running _) fun pixels => ?_
  split
  · exact fun h => nomatch h
  · exact fun h => nomatch h

theorem loadPixels_ne_running (magic : List Byte) (width height : ℤ) (f : File) :
    loadPixels magic width height f ≠ .running := by
  unfold loadPixels
  split
  · exact fun h => nomatch h
  · refine Outcome.bind_ne_running (parse_ne_running _) fun maxValue => ?_
    refine Outcome.bind_ne_running ?_ fun pixels h => nomatch h
    split
    · exact rawPixels_ne_running _ _
    · exact plainPixels_ne_running _ _

theorem loadBody_eq_running_iff (bound : ℕ) (magic : List Byte) (f : File) :
    loadBody bound magic f = .running ↔
      gather bound (nextTokens f).1 (nextTokens f).2 = .running := by
  unfold loadBody
  refine ⟨?_, ?_⟩
  · intro h
    by_contra hne
    -- behind the loop every step returns or raises
    refine Outcome.bind_ne_running hne (fun value => ?_) h
    refine Outcome.bind_ne_running (parse_ne_running _) fun width => ?_
    refine Outcome.bind_ne_running (parse_ne_running _) fun height => ?_
    exact loadPixels_ne_running magic width height value.2
  · intro h
    rw [h]
    rfl

/-! ### The law -/

/-- Loading ends, with an image or an error. -/
def Terminates (contents : List Byte) : Prop := ∃ bound, loadPgm bound contents ≠ .running

/-- **When loading ends.** For every file: if and only if its first line is not one of the
two magic numbers, or there are two tokens or more on the other lines that are neither blank
nor comments. -/
theorem terminates_iff (contents : List Byte) :
    Terminates contents ↔
      ¬ (strip (readline (splitLines contents)).1 = P2 ∨
          strip (readline (splitLines contents)).1 = P5) ∨
        2 ≤ (dataTokens (readline (splitLines contents)).2).length := by
  by_cases hmagic : strip (readline (splitLines contents)).1 = P2 ∨
      strip (readline (splitLines contents)).1 = P5
  · rw [or_iff_right (not_not.mpr hmagic)]
    set f := (readline (splitLines contents)).2 with hf
    -- only the loop for the size can run on
    have hload (bound : ℕ) : loadPgm bound contents = .running ↔
        gather bound (nextTokens f).1 (nextTokens f).2 = .running := by
      rw [← loadBody_eq_running_iff bound (strip (readline (splitLines contents)).1) f, hf]
      unfold loadPgm
      dsimp only
      rw [if_pos hmagic]
    have hsum := congrArg List.length (nextTokens_append f)
    rw [List.length_append] at hsum
    refine ⟨?_, ?_⟩
    · rintro ⟨bound, hbound⟩
      by_contra hfew
      exact hbound ((hload bound).mpr (gather_eq_running (by omega) bound))
    · intro h
      rw [← hsum] at h
      obtain ⟨bound, tokens, f', hgather⟩ := exists_gather h
      refine ⟨bound, fun hrun => ?_⟩
      rw [hload, hgather] at hrun
      exact nomatch hrun
  · -- another magic number is refused at once
    refine iff_of_true ⟨0, ?_⟩ (Or.inl hmagic)
    unfold loadPgm
    dsimp only
    rw [if_neg hmagic]
    exact fun h => nomatch h

/-- A file with nothing but a magic number is read for ever. -/
theorem magicOnly_hangs : ¬ Terminates [80, 53, 10] := by
  rintro ⟨bound, hbound⟩
  refine hbound ?_
  change loadBody bound P5 [] = .running
  exact (loadBody_eq_running_iff bound P5 []).mpr (gather_eq_running (by decide) bound)

end FakePcd
end WtbAutoware
