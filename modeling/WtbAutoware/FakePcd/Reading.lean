import WtbAutoware.FakePcd.Ending
import WtbAutoware.FakePcd.Format

/-!
# Reading the header

`load_pgm` takes a header line by line. On a text, the next tokens are the words of its
first line, unless that is blank or a comment, and then those of what follows it
(`nextTokens_take`, `nextTokens_skip`). So in front of a number, a gap is passed over
altogether, and the number comes with everything else on its line (`nextTokens_closed`). But if
the last comment of the gap ends with a carriage return, it has no line to itself, and the
number is passed over with it (`nextTokens_open`).

What the loop over the first tokens returns does not depend on the bound, and starts with
the tokens that were there (`gather_unique`, `prefix_of_gather`).
-/

namespace WtbAutoware
namespace FakePcd

open Text

/-! ### Lines with data -/

theorem isData_append {line stop : List Byte} (h : ∀ b ∈ stop, isSpace b = true) :
    IsData (line ++ stop) ↔ IsData line := by
  unfold IsData
  rw [strip_append_blank h]

theorem lastLine_of_comment (blank text gap : List Byte) :
    lastLine (blank ++ 35 :: (text ++ newline :: gap)) = lastLine gap := by
  have happend := lastLine_append (blank ++ 35 :: text) gap
  simpa using happend

section Blank

variable {blank : List Byte} (h : ∀ b ∈ blank, IsWhite b ∧ b ≠ newline)
include h

theorem isSpace_of_blank : ∀ b ∈ blank, isSpace b = true := fun b hb => (h b hb).1.isSpace

theorem newline_notMem_of_blank : newline ∉ blank := fun hmem => (h newline hmem).2 rfl

theorem newline_notMem_of_comment {text : List Byte} (htext : newline ∉ text) :
    newline ∉ blank ++ 35 :: text := fun hmem =>
  (List.mem_append.mp hmem).elim (newline_notMem_of_blank h) fun hmem =>
    (List.mem_cons.mp hmem).elim (by decide) htext

theorem line_of_clean (gap rest : List Byte) :
    lineOf (blank ++ newline :: gap ++ rest) = blank ∧
      afterLine (blank ++ newline :: gap ++ rest) = gap ++ rest := by
  have hfront := newline_notMem_of_blank h
  rw [List.append_assoc, List.cons_append, lineOf_append hfront, lineOf_newline, List.append_nil,
    afterLine_append hfront, afterLine_newline]
  exact ⟨rfl, rfl⟩

theorem line_of_comment {text : List Byte} (htext : newline ∉ text) (gap rest : List Byte) :
    lineOf (blank ++ 35 :: (text ++ newline :: gap) ++ rest) = blank ++ 35 :: text ∧
      afterLine (blank ++ 35 :: (text ++ newline :: gap) ++ rest) = gap ++ rest := by
  have hfront := newline_notMem_of_comment h htext
  have hassoc : blank ++ 35 :: (text ++ newline :: gap) ++ rest =
      (blank ++ 35 :: text) ++ newline :: (gap ++ rest) := by
    simp only [List.append_assoc, List.cons_append]
  rw [hassoc, lineOf_append hfront, lineOf_newline, List.append_nil, afterLine_append hfront,
    afterLine_newline]
  exact ⟨rfl, rfl⟩

/-! Whether the first line of a gap has a comment on it. -/

theorem hash_notMem_of_blank : (35 : Byte) ∉ blank := fun hmem => absurd (h 35 hmem).1 (by decide)

theorem hash_notMem_lineOf_clean (gap : List Byte) :
    (35 : Byte) ∉ lineOf (blank ++ newline :: gap) := by
  rw [lineOf_append (newline_notMem_of_blank h), lineOf_newline, List.append_nil]
  exact hash_notMem_of_blank h

theorem hash_mem_lineOf_comment {text : List Byte} (gap : List Byte) :
    (35 : Byte) ∈ lineOf (blank ++ 35 :: (text ++ newline :: gap)) := by
  rw [lineOf_append (newline_notMem_of_blank h), lineOf_cons (by decide)]
  exact List.mem_append_right blank List.mem_cons_self

theorem not_isData_blank : ¬ IsData blank := fun hdata =>
  hdata (Or.inl (strip_blank (isSpace_of_blank h)))

theorem not_isData_comment (text : List Byte) : ¬ IsData (blank ++ 35 :: text) := by
  refine fun hdata => hdata (Or.inr ?_)
  rw [strip_blank_append (isSpace_of_blank h), strip_cons rfl]
  rfl

theorem isData_start {b : Byte} (hb : isSpace b = false) (hhash : b ≠ 35) (text : List Byte) :
    IsData (blank ++ b :: text) := by
  unfold IsData
  rw [strip_blank_append (isSpace_of_blank h), strip_cons hb]
  rintro (hnil | hhead)
  · exact List.cons_ne_nil _ _ hnil
  · rw [List.head?_cons] at hhead
    exact hhash (Option.some.inj hhead)

theorem lastLine_of_lastComment {text : List Byte} (htext : newline ∉ text) :
    lastLine (blank ++ 35 :: text) = blank ++ 35 :: text :=
  lastLine_of_notMem (newline_notMem_of_comment h htext)

end Blank

/-! ### Shown numbers -/

section Shown

variable {text : List Byte} {n : ℕ}

theorem Shown.clean (h : Shown text n) {blank : List Byte}
    (hblank : ∀ b ∈ blank, IsWhite b ∧ b ≠ newline) : Shown (blank ++ newline :: text) n := by
  obtain ⟨gap, digits, rfl, hgap, hclosed, hdigits⟩ := h
  refine ⟨blank ++ newline :: gap, digits, by simp, .clean hblank hgap, ?_, hdigits⟩
  rwa [lastLine_append]

theorem Shown.comment (h : Shown text n) {blank line : List Byte}
    (hblank : ∀ b ∈ blank, IsWhite b ∧ b ≠ newline) (hline : newline ∉ line) :
    Shown (blank ++ 35 :: (line ++ newline :: text)) n := by
  obtain ⟨gap, digits, rfl, hgap, hclosed, hdigits⟩ := h
  refine ⟨blank ++ 35 :: (line ++ newline :: gap), digits, by simp, .comment hblank hline hgap, ?_,
    hdigits⟩
  rwa [lastLine_of_comment]

/-- Behind a gap with a comment on its last line, the next line counts. -/
theorem Shown.append_line (h : Shown text n) {gap line : List Byte} (hgap : GapLines gap)
    (hopen : (35 : Byte) ∈ lastLine gap) (hline : newline ∉ line) :
    Shown (gap ++ (line ++ newline :: text)) n := by
  induction hgap with
  | @last blank hblank =>
    rw [lastLine_of_notMem (newline_notMem_of_blank hblank)] at hopen
    exact absurd hopen (hash_notMem_of_blank hblank)
  | @lastComment blank text' hblank htext =>
    have hmem : newline ∉ text' ++ line := fun h => (List.mem_append.mp h).elim htext hline
    simpa using h.comment hblank hmem
  | @clean blank gap hblank _ ih =>
    rw [lastLine_append] at hopen
    simpa using (ih hopen).clean hblank
  | @comment blank text' gap hblank htext _ ih =>
    rw [lastLine_of_comment] at hopen
    simpa using (ih hopen).comment hblank htext

end Shown

/-! ### The next tokens of a text -/

theorem isSpace_of_stop {stop text : List Byte}
    (h : stop = [newline] ∨ stop = [] ∧ afterLine text = []) : ∀ b ∈ stop, isSpace b = true := by
  rcases h with rfl | ⟨rfl, -⟩
  · exact List.forall_mem_singleton.mpr rfl
  · exact fun b hb => absurd hb List.not_mem_nil

theorem nextTokens_skip {text : List Byte} (h : ¬ IsData (lineOf text)) :
    nextTokens (splitLines text) = nextTokens (splitLines (afterLine text)) := by
  by_cases hne : text = []
  · rw [hne]
    rfl
  · obtain ⟨stop, hstop, -, hlines⟩ := splitLines_eq_cons hne
    rw [hlines, nextTokens_of_not_data]
    rwa [isData_append (isSpace_of_stop hstop)]

theorem nextTokens_take {text : List Byte} (h : IsData (lineOf text)) :
    nextTokens (splitLines text) = (words (lineOf text), splitLines (afterLine text)) := by
  have hne : text ≠ [] := by
    rintro rfl
    exact h (Or.inl rfl)
  obtain ⟨stop, hstop, -, hlines⟩ := splitLines_eq_cons hne
  rw [hlines, nextTokens_of_data ((isData_append (isSpace_of_stop hstop)).mpr h), words_strip,
    words_append_blank (isSpace_of_stop hstop)]

/-- **A gap in front of a number is passed over**, and the number is read with everything
else on its line. -/
theorem nextTokens_closed {gap : List Byte} (hgap : GapLines gap)
    (hclosed : (35 : Byte) ∉ lastLine gap) {b : Byte} (hb : isSpace b = false) (hhash : b ≠ 35)
    (text : List Byte) :
    nextTokens (splitLines (gap ++ b :: text)) =
      (words (lineOf (b :: text)), splitLines (Text.afterLine (b :: text))) := by
  induction hgap with
  | @last blank hblank =>
    -- the number is on this line
    have hfront := newline_notMem_of_blank hblank
    have hne : b ≠ newline := by
      rintro rfl
      exact absurd hb (by decide)
    have hline : lineOf (blank ++ b :: text) = blank ++ lineOf (b :: text) := lineOf_append hfront _
    rw [nextTokens_take (by rw [hline, lineOf_cons hne]; exact isData_start hblank hb hhash _),
      hline, words_blank_append (isSpace_of_blank hblank), afterLine_append hfront]
  | @lastComment blank text' hblank htext =>
    rw [lastLine_of_lastComment hblank htext] at hclosed
    exact absurd (List.mem_append_right blank List.mem_cons_self) hclosed
  | @clean blank gap hblank _ ih =>
    -- a blank line, and the rest of the gap
    rw [lastLine_append] at hclosed
    obtain ⟨hline, hafter⟩ := line_of_clean hblank gap (b :: text)
    rw [nextTokens_skip (by rw [hline]; exact not_isData_blank hblank), hafter, ih hclosed]
  | @comment blank text' gap hblank htext _ ih =>
    -- a comment, and the rest of the gap
    rw [lastLine_of_comment] at hclosed
    obtain ⟨hline, hafter⟩ := line_of_comment hblank htext gap (b :: text)
    rw [nextTokens_skip (by rw [hline]; exact not_isData_comment hblank text'), hafter, ih hclosed]

/-- With a comment on its last line, the rest of that line is passed over as well. -/
theorem nextTokens_open {gap : List Byte} (hgap : GapLines gap) (hopen : (35 : Byte) ∈ lastLine gap)
    (rest : List Byte) :
    nextTokens (splitLines (gap ++ rest)) = nextTokens (splitLines (Text.afterLine rest)) := by
  induction hgap with
  | @last blank hblank =>
    rw [lastLine_of_notMem (newline_notMem_of_blank hblank)] at hopen
    exact absurd hopen (hash_notMem_of_blank hblank)
  | @lastComment blank text hblank htext =>
    have hfront := newline_notMem_of_comment hblank htext
    have hline : lineOf (blank ++ 35 :: text ++ rest) = blank ++ 35 :: (text ++ lineOf rest) := by
      rw [lineOf_append hfront, List.append_assoc, List.cons_append]
    rw [nextTokens_skip (by rw [hline]; exact not_isData_comment hblank _), afterLine_append hfront]
  | @clean blank gap hblank _ ih =>
    rw [lastLine_append] at hopen
    obtain ⟨hline, hafter⟩ := line_of_clean hblank gap rest
    rw [nextTokens_skip (by rw [hline]; exact not_isData_blank hblank), hafter, ih hopen]
  | @comment blank text gap hblank htext _ ih =>
    rw [lastLine_of_comment] at hopen
    obtain ⟨hline, hafter⟩ := line_of_comment hblank htext gap rest
    rw [nextTokens_skip (by rw [hline]; exact not_isData_comment hblank text), hafter, ih hopen]

/-- The line of a decimal number. -/
theorem Decimal.line {token : List Byte} {n : ℕ} (h : Decimal token n) (rest : List Byte) :
    lineOf (token ++ rest) = token ++ lineOf rest ∧
      Text.afterLine (token ++ rest) = Text.afterLine rest :=
  ⟨lineOf_append (h.notMem (by decide)) rest, afterLine_append (h.notMem (by decide)) rest⟩

/-- A number that whitespace follows is a word. -/
theorem words_number {token : List Byte} {n : ℕ} (htoken : Decimal token n) {b : Byte}
    (hb : isSpace b = true) (text : List Byte) :
    words (token ++ b :: text) = token :: words text :=
  words_token_append htoken.isSpace_eq htoken.ne_nil hb text

/-- So it is if the whitespace ends the line. -/
theorem words_number_line {token : List Byte} {n : ℕ} (htoken : Decimal token n) {b : Byte}
    (hb : isSpace b = true) (text : List Byte) :
    ∃ others, words (token ++ lineOf (b :: text)) = token :: others := by
  by_cases hnewline : b = newline
  · rw [hnewline, lineOf_newline, List.append_nil]
    exact ⟨_, words_token htoken.isSpace_eq htoken.ne_nil⟩
  · rw [lineOf_cons hnewline]
    exact ⟨_, words_number htoken hb _⟩

theorem nextTokens_number {gap : List Byte} (hgap : GapLines gap)
    (hclosed : (35 : Byte) ∉ lastLine gap) {text : List Byte} {n : ℕ} (h : Numeral text n)
    (rest : List Byte) :
    nextTokens (splitLines (gap ++ (text ++ rest))) =
      (words (lineOf (text ++ rest)), splitLines (Text.afterLine (text ++ rest))) := by
  obtain ⟨b, text, rfl, hb⟩ := h.digit
  refine nextTokens_closed hgap hclosed hb.not_isSpace ?_ (text ++ rest)
  rintro rfl
  exact absurd hb (by decide)

theorem nextTokens_decimal {gap : List Byte} (hgap : GapLines gap)
    (hclosed : (35 : Byte) ∉ lastLine gap) {token : List Byte} {n : ℕ} (h : Decimal token n)
    (rest : List Byte) :
    nextTokens (splitLines (gap ++ (token ++ rest))) =
      (words (token ++ lineOf rest), splitLines (Text.afterLine rest)) := by
  obtain ⟨hline, hafter⟩ := h.line rest
  rw [nextTokens_number hgap hclosed h.numeral, hline, hafter]

/-- A comment is part of the word in front of it, unless there is whitespace in between. -/
theorem exists_hash_word {word : List Byte} (hword : ∀ b ∈ word, isSpace b = false)
    (text : List Byte) :
    ∃ w others, words (word ++ 35 :: text) = w :: others ∧ (35 : Byte) ∈ w := by
  have hspace : ∀ b ∈ word ++ [35], isSpace b = false := by
    intro b hb
    rcases List.mem_append.mp hb with hb | hb
    · exact hword b hb
    · rw [List.mem_singleton.mp hb]
      rfl
  have hassoc : word ++ 35 :: text = word ++ [35] ++ text := by simp
  rw [hassoc, words_append hspace (by simp)]
  exact ⟨_, _, rfl, List.mem_append_left _ (List.mem_append_right _ List.mem_cons_self)⟩

theorem exists_hash_comment (text : List Byte) :
    ∃ w others, words (35 :: text) = w :: others ∧ (35 : Byte) ∈ w :=
  @exists_hash_word [] (fun _ hb => absurd hb List.not_mem_nil) text

/-- With a comment among the digits, the first word has a `#` in it. -/
theorem Spelled.exists_hash {piece token : List Byte} (h : Spelled piece token)
    (hhash : (35 : Byte) ∈ piece) (rest : List Byte) :
    ∃ w others, words (lineOf (piece ++ rest)) = w :: others ∧ (35 : Byte) ∈ w := by
  obtain ⟨digits, text, rfl, hdigits⟩ := h.exists_comment hhash
  have hspace : ∀ b ∈ digits, isSpace b = false := fun b hb => (hdigits b hb).not_isSpace
  have hnewline : newline ∉ digits := fun hmem => absurd (hspace newline hmem) (by decide)
  rw [List.append_assoc, lineOf_append hnewline, List.cons_append, lineOf_cons (by decide)]
  exact exists_hash_word hspace _

/-! ### The first two tokens -/

theorem Outcome.bind_eq_returned {α β : Type} {x : Outcome α} {g : α → Outcome β} {b : β} :
    x.bind g = .returned b ↔ ∃ a, x = .returned a ∧ g a = .returned b := by
  cases x with
  | returned a =>
    refine ⟨fun h => ⟨a, rfl, h⟩, ?_⟩
    rintro ⟨a', ha', hb⟩
    cases ha'
    exact hb
  | raised error => exact ⟨fun h => (nomatch h), fun ⟨_, ha, _⟩ => (nomatch ha)⟩
  | running => exact ⟨fun h => (nomatch h), fun ⟨_, ha, _⟩ => (nomatch ha)⟩

/-- The bound makes no difference to what is returned. -/
theorem gather_unique {m n : ℕ} {tokens : List (List Byte)} {f : File}
    {x y : List (List Byte) × File} (hx : gather m tokens f = .returned x)
    (hy : gather n tokens f = .returned y) : x = y := by
  -- both calls stop in the same iteration, as they see the same tokens
  induction m generalizing n tokens f with
  | zero =>
    unfold gather at hx hy
    split at hx
    · next hdone =>
      rw [if_pos hdone] at hy
      exact Outcome.returned.inj (hx.symm.trans hy)
    · cases hx
  | succ m ih =>
    unfold gather at hx hy
    split at hx
    · next hdone =>
      rw [if_pos hdone] at hy
      exact Outcome.returned.inj (hx.symm.trans hy)
    · next hmore =>
      rw [if_neg hmore] at hy
      cases n with
      | zero => cases hy
      | succ n => exact ih hx hy

theorem prefix_of_gather {n : ℕ} {tokens : List (List Byte)} {f : File}
    {x : List (List Byte) × File} (h : gather n tokens f = .returned x) : tokens <+: x.1 := by
  induction n generalizing tokens f with
  | zero =>
    unfold gather at h
    split at h
    · rw [← Outcome.returned.inj h]
    · cases h
  | succ n ih =>
    unfold gather at h
    split at h
    · rw [← Outcome.returned.inj h]
    · -- another line only adds words
      exact (List.prefix_append _ _).trans (ih h)

/-- A word of the first two is still one of them when more are added. -/
theorem getD_of_mem_take {w : List Byte} {tokens others : List (List Byte)}
    (hw : w ∈ tokens.take 2) (hstart : tokens <+: others) :
    w = others.getD 0 [] ∨ w = others.getD 1 [] := by
  obtain ⟨t, rfl⟩ := hstart
  match tokens with
  | [] => exact absurd hw List.not_mem_nil
  | [a] => exact Or.inl (List.mem_singleton.mp hw)
  | a :: b :: tokens =>
    exact (List.mem_cons.mp hw).imp id fun h => List.mem_singleton.mp h

theorem parse_eq_returned {token : List Byte} {value : ℤ} :
    parse token = .returned value ↔ int token = some value := by
  unfold parse
  split
  · next n hn =>
    rw [hn, Option.some.injEq]
    exact ⟨fun h => Outcome.returned.inj h, congrArg _⟩
  · next hnone =>
    rw [hnone]
    exact ⟨fun h => (nomatch h), fun h => (nomatch h)⟩

/-- What it takes to return: two tokens that are numbers, and the pixels. -/
theorem loadBody_eq_returned {n : ℕ} {magic : List Byte} {f : File} {pgm : Pgm} :
    loadBody n magic f = .returned pgm ↔
      ∃ tokens g width height, gather n (nextTokens f).1 (nextTokens f).2 = .returned (tokens, g) ∧
        int (tokens.getD 0 []) = some width ∧ int (tokens.getD 1 []) = some height ∧
          loadPixels magic width height g = .returned pgm := by
  -- the steps in their order, none of which may raise
  unfold loadBody
  simp only [Outcome.bind_eq_returned, parse_eq_returned, Prod.exists]
  refine exists_congr fun tokens => exists_congr fun g => ?_
  refine ⟨?_, ?_⟩
  · rintro ⟨hgather, width, hwidth, height, hheight, hpixels⟩
    exact ⟨width, height, hgather, hwidth, hheight, hpixels⟩
  · rintro ⟨width, height, hgather, hwidth, hheight, hpixels⟩
    exact ⟨hgather, width, hwidth, height, hheight, hpixels⟩

theorem loadPixels_eq_returned {magic : List Byte} {width height : ℤ} {f : File} {pgm : Pgm} :
    loadPixels magic width height f = .returned pgm ↔
      ∃ token others maxValue pixels, (nextTokens f).1 = token :: others ∧
        int token = some maxValue ∧
        (if magic = P5 then rawPixels (read (nextTokens f).2) (width * height)
          else plainPixels (read (nextTokens f).2) (width * height)) = .returned pixels ∧
        ⟨width, height, maxValue, pixels⟩ = pgm := by
  unfold loadPixels
  rcases nextTokens f with ⟨_ | ⟨token, others⟩, g⟩
  · -- the end of the file: `_next_tokens` has nothing to return
    exact ⟨fun h => (nomatch h), fun ⟨_, _, _, _, h, _⟩ => (nomatch h)⟩
  · simp only [Outcome.bind_eq_returned, parse_eq_returned]
    refine ⟨?_, ?_⟩
    · rintro ⟨maxValue, hmax, pixels, hpixels, hpgm⟩
      exact ⟨token, others, maxValue, pixels, rfl, hmax, hpixels, Outcome.returned.inj hpgm⟩
    · rintro ⟨_, _, maxValue, pixels, htokens, hmax, hpixels, hpgm⟩
      obtain ⟨rfl, -⟩ := List.cons.inj htokens
      exact ⟨maxValue, hmax, pixels, hpixels, congrArg _ hpgm⟩

end FakePcd
end WtbAutoware
