import Mathlib.Data.BitVec
import Mathlib.Data.List.DropRight
import Mathlib.Data.List.Flatten

/-!
# Lines and words of a text

A text is a list of bytes. `splitLines` cuts it behind every newline, which is how a file is
read line by line: the lines are the text again when they are put together
(`flatten_splitLines`), and the first of them ends at the first newline
(`splitLines_append`). `words` are what stands between the whitespace of a text, and `strip`
removes the whitespace at its ends.

A word ends at the first whitespace behind it (`words_token`), and to strip a text changes
no word of it (`words_strip`). So the words of a text are those of its two parts whenever
one of the parts ends, or the other starts, in whitespace (`words_append_space`).

`lineOf` and `afterLine` are the first line of a text, without its end, and what follows it.
Text in front that has no newline belongs to the first line (`lineOf_append`,
`afterLine_append`). `lastLine` is what follows the last newline.
-/

namespace Text

/-- A byte. -/
abbrev Byte := BitVec 8

/-- The end of a line. -/
def newline : Byte := 10

/-- Space, tab, newline, carriage return, vertical tab and form feed. -/
def isSpace (b : Byte) : Bool :=
  b = 32 || b = 9 || b = 10 || b = 13 || b = 11 || b = 12

/-- The lines of a text, each with the newline that ends it. -/
def splitLines : List Byte → List (List Byte)
  | [] => []
  | b :: bs =>
    if b = newline then [b] :: splitLines bs
    else
      match splitLines bs with
      | [] => [[b]]
      | line :: lines => (b :: line) :: lines

/-- The words of a text. -/
def words (text : List Byte) : List (List Byte) :=
  (text.splitOnP isSpace).filter fun word => word ≠ []

/-- The text without the whitespace at its ends. -/
def strip (text : List Byte) : List Byte := (text.dropWhile isSpace).rdropWhile isSpace

/-- The text up to the first newline. -/
def lineOf (text : List Byte) : List Byte := text.takeWhile fun b => b ≠ newline

/-- The text behind the first newline. -/
def afterLine (text : List Byte) : List Byte := (text.dropWhile fun b => b ≠ newline).drop 1

/-- The text behind the last newline. -/
def lastLine (text : List Byte) : List Byte := text.rtakeWhile fun b => b ≠ newline

/-! ### Lines -/

theorem flatten_splitLines (text : List Byte) : (splitLines text).flatten = text := by
  induction text with
  | nil => rfl
  | cons b bs ih =>
    unfold splitLines
    split
    · -- a newline ends the first line
      rw [List.flatten_cons, ih]
      rfl
    · -- any other byte goes in front of the first line, which may not exist yet
      split
      · next hnil =>
        rw [hnil] at ih
        rw [← ih]
        rfl
      · next line lines hcons =>
        rw [hcons] at ih
        rw [← ih]
        rfl

/-- The first line ends at the first newline. -/
theorem splitLines_append {line : List Byte} (h : newline ∉ line) (rest : List Byte) :
    splitLines (line ++ newline :: rest) = (line ++ [newline]) :: splitLines rest := by
  induction line with
  | nil => rw [List.nil_append, splitLines, if_pos rfl, List.nil_append]
  | cons b line ih =>
    obtain ⟨hb, hline⟩ := not_or.mp (mt List.mem_cons.mpr h)
    rw [List.cons_append, splitLines, if_neg (Ne.symm hb), ih hline]
    rfl

/-- Without a newline, there is one line. -/
theorem splitLines_of_not_mem {line : List Byte} (h : newline ∉ line) (hne : line ≠ []) :
    splitLines line = [line] := by
  induction line with
  | nil => exact absurd rfl hne
  | cons b line ih =>
    obtain ⟨hb, hline⟩ := not_or.mp (mt List.mem_cons.mpr h)
    rw [splitLines, if_neg (Ne.symm hb)]
    cases line with
    | nil => rfl
    | cons c line => rw [ih hline (List.cons_ne_nil c line)]

theorem lineOf_append {front : List Byte} (h : newline ∉ front) (back : List Byte) :
    lineOf (front ++ back) = front ++ lineOf back := by
  unfold lineOf
  refine List.takeWhile_append_of_pos fun b hb => decide_eq_true ?_
  exact fun heq => h (heq ▸ hb)

theorem lineOf_cons {b : Byte} (h : b ≠ newline) (text : List Byte) :
    lineOf (b :: text) = b :: lineOf text :=
  List.takeWhile_cons_of_pos (decide_eq_true h)

theorem afterLine_append {front : List Byte} (h : newline ∉ front) (back : List Byte) :
    afterLine (front ++ back) = afterLine back := by
  unfold afterLine
  rw [List.dropWhile_append_of_pos]
  exact fun b hb => decide_eq_true fun heq => h (heq ▸ hb)

theorem lineOf_newline (rest : List Byte) : lineOf (newline :: rest) = [] :=
  List.takeWhile_cons_of_neg (by simp)

theorem afterLine_newline (rest : List Byte) : afterLine (newline :: rest) = rest := by
  unfold afterLine
  rw [List.dropWhile_cons_of_neg (by simp)]
  rfl

/-- With a newline in front, the text behind does not belong to the first line. -/
theorem line_append_of_mem {front : List Byte} (h : newline ∈ front) (back : List Byte) :
    lineOf (front ++ back) = lineOf front ∧
      afterLine (front ++ back) = afterLine front ++ back := by
  obtain ⟨line, rest, rfl, hline⟩ := List.eq_append_cons_of_mem h
  rw [List.append_assoc, List.cons_append, lineOf_append hline, lineOf_append hline,
    lineOf_newline, lineOf_newline, afterLine_append hline, afterLine_append hline,
    afterLine_newline, afterLine_newline]
  exact ⟨rfl, rfl⟩

theorem lineOf_of_notMem {text : List Byte} (h : newline ∉ text) : lineOf text = text := by
  have happend := lineOf_append h []
  rw [List.append_nil] at happend
  rw [happend]
  exact List.append_nil text

theorem lineOf_subset_append (front back : List Byte) : lineOf front ⊆ lineOf (front ++ back) := by
  by_cases h : newline ∈ front
  · rw [(line_append_of_mem h back).1]
    exact List.Subset.refl _
  · rw [lineOf_of_notMem h, lineOf_append h]
    exact List.subset_append_left front _

theorem length_afterLine_lt {text : List Byte} (h : text ≠ []) :
    (afterLine text).length < text.length := by
  have hdrop := (List.dropWhile_sublist (fun b => decide (b ≠ newline)) (l := text)).length_le
  have hpos := List.length_pos_of_ne_nil h
  unfold afterLine
  rw [List.length_drop]
  omega

theorem lastLine_of_notMem {text : List Byte} (h : newline ∉ text) : lastLine text = text := by
  refine List.rtakeWhile_eq_self_iff.mpr fun b hb => decide_eq_true ?_
  exact fun heq => h (heq ▸ hb)

theorem lastLine_append (front back : List Byte) :
    lastLine (front ++ newline :: back) = lastLine back := by
  unfold lastLine List.rtakeWhile
  rw [List.reverse_append, List.reverse_cons, List.append_assoc, List.takeWhile_append]
  -- the newline stops it
  split
  · next hall =>
    rw [(List.takeWhile_prefix _).eq_of_length hall]
    simp
  · rfl

theorem newline_notMem_lineOf (text : List Byte) : newline ∉ lineOf text := by
  intro h
  have hne := List.mem_takeWhile_imp h
  simp at hne

/-- A text is its first line, the end of it, and what follows. -/
theorem exists_lineEnd (text : List Byte) :
    ∃ stop, (stop = [newline] ∨ stop = [] ∧ afterLine text = []) ∧
      text = lineOf text ++ stop ++ afterLine text := by
  have happend := List.takeWhile_append_dropWhile (p := fun b => decide (b ≠ newline)) (l := text)
  unfold lineOf afterLine
  cases hdrop : text.dropWhile fun b => decide (b ≠ newline) with
  | nil =>
    refine ⟨[], Or.inr ⟨rfl, rfl⟩, ?_⟩
    rw [hdrop, List.append_nil] at happend
    rw [happend, List.append_nil]
    exact (List.append_nil text).symm
  | cons b rest =>
    -- the lines in front have no newline, so this byte is one
    have hb : b = newline := by
      have := List.head_dropWhile_not (fun b => decide (b ≠ newline)) (l := text)
        (by rw [hdrop]; exact List.cons_ne_nil b rest)
      simp only [hdrop, List.head_cons] at this
      simpa using this
    refine ⟨[newline], Or.inl rfl, ?_⟩
    rw [hdrop, hb] at happend
    rw [List.append_assoc]
    exact happend.symm

/-- The first of the lines. -/
theorem splitLines_eq_cons {text : List Byte} (h : text ≠ []) :
    ∃ stop, (stop = [newline] ∨ stop = [] ∧ afterLine text = []) ∧
      text = lineOf text ++ stop ++ afterLine text ∧
      splitLines text = (lineOf text ++ stop) :: splitLines (afterLine text) := by
  obtain ⟨stop, hstop, htext⟩ := exists_lineEnd text
  refine ⟨stop, hstop, htext, ?_⟩
  have hline := newline_notMem_lineOf text
  rcases hstop with hstop | ⟨hstop, hafter⟩
  · conv_lhs => rw [htext, hstop]
    rw [List.append_assoc, hstop]
    exact splitLines_append hline _
  · rw [hstop, hafter, List.append_nil, List.append_nil] at htext
    rw [hstop, hafter, List.append_nil, ← htext]
    exact splitLines_of_not_mem (htext ▸ hline) h

/-! ### Words -/

theorem words_nil : words [] = [] := by
  unfold words
  rw [List.splitOnP_nil]
  rfl

/-- Whitespace separates the words in front of it from those behind it. -/
theorem words_append_space {b : Byte} (hb : isSpace b = true) (front back : List Byte) :
    words (front ++ b :: back) = words front ++ words back := by
  unfold words
  rw [List.splitOnP_append_cons front back hb, List.filter_append]

theorem words_token {word : List Byte} (h : ∀ b ∈ word, isSpace b = false) (hne : word ≠ []) :
    words word = [word] := by
  unfold words
  rw [List.splitOnP_eq_singleton h, List.filter_singleton]
  rw [decide_eq_true hne]
  rfl

/-- A word ends at the first whitespace behind it. -/
theorem words_token_append {word : List Byte} (h : ∀ b ∈ word, isSpace b = false)
    (hne : word ≠ []) {b : Byte} (hb : isSpace b = true) (rest : List Byte) :
    words (word ++ b :: rest) = word :: words rest := by
  rw [words_append_space hb, words_token h hne]
  rfl

/-- The first word goes on to the first whitespace. -/
theorem words_append {word : List Byte} (h : ∀ b ∈ word, isSpace b = false) (hne : word ≠ [])
    (text : List Byte) :
    words (word ++ text) =
      (word ++ text.takeWhile fun b => !isSpace b) ::
        words (text.dropWhile fun b => !isSpace b) := by
  have hword : ∀ b ∈ word ++ text.takeWhile fun b => !isSpace b, isSpace b = false := by
    intro b hb
    rcases List.mem_append.mp hb with hb | hb
    · exact h b hb
    · simpa using List.mem_takeWhile_imp hb
  have hword_ne : word ++ (text.takeWhile fun b => !isSpace b) ≠ [] :=
    List.append_ne_nil_of_left_ne_nil hne _
  -- the word ends where the first space of the text is
  conv_lhs => rw [← List.takeWhile_append_dropWhile (p := fun b => !isSpace b) (l := text)]
  rw [← List.append_assoc]
  cases hdrop : text.dropWhile fun b => !isSpace b with
  | nil => rw [List.append_nil, words_token hword hword_ne, words_nil]
  | cons b rest =>
    have hb : isSpace b = true := by
      have := List.head_dropWhile_not (fun b => !isSpace b) (l := text)
        (by rw [hdrop]; exact List.cons_ne_nil b rest)
      simp only [hdrop, List.head_cons] at this
      simpa using this
    -- and that space starts no word
    have hrest : words (b :: rest) = words rest := by
      rw [← List.nil_append (b :: rest), words_append_space hb, words_nil, List.nil_append]
    rw [words_token_append hword hword_ne hb, hrest]

/-- A text without words is blank. -/
theorem blank_of_words_eq_nil {text : List Byte} (h : words text = []) :
    ∀ b ∈ text, isSpace b = true := by
  induction text with
  | nil => exact fun b hb => absurd hb List.not_mem_nil
  | cons b text ih =>
    by_cases hb : isSpace b = true
    · rw [← List.nil_append (b :: text), words_append_space hb, words_nil, List.nil_append] at h
      exact List.forall_mem_cons.mpr ⟨hb, ih h⟩
    · -- the first word starts with `b`
      obtain ⟨word, rest, hsplit⟩ :=
        List.exists_cons_of_ne_nil (List.splitOnP_ne_nil isSpace text)
      have hmem : b :: word ∈ words (b :: text) := by
        unfold words
        rw [List.splitOnP_cons_eq_if_modifyHead, if_neg hb, hsplit]
        exact List.mem_filter.mpr ⟨List.mem_cons_self, decide_eq_true (List.cons_ne_nil b word)⟩
      rw [h] at hmem
      exact absurd hmem List.not_mem_nil

section Blank

variable {blank : List Byte} (h : ∀ b ∈ blank, isSpace b = true)
include h

theorem words_blank_append (text : List Byte) : words (blank ++ text) = words text := by
  induction blank with
  | nil => rfl
  | cons b blank ih =>
    obtain ⟨hb, hblank⟩ := List.forall_mem_cons.mp h
    rw [List.cons_append, ← List.nil_append (b :: (blank ++ text)), words_append_space hb,
      words_nil, List.nil_append, ih hblank]

/-- A word ends at the whitespace behind it, however much there is. -/
theorem words_token_blank_append (hblank : blank ≠ []) {word : List Byte}
    (hword : ∀ b ∈ word, isSpace b = false) (hne : word ≠ []) (text : List Byte) :
    words (word ++ (blank ++ text)) = word :: words text := by
  obtain ⟨b, blank, rfl⟩ := List.exists_cons_of_ne_nil hblank
  obtain ⟨hb, hblank'⟩ := List.forall_mem_cons.mp h
  rw [List.cons_append, words_token_append hword hne hb, words_blank_append hblank']

theorem words_append_blank (text : List Byte) : words (text ++ blank) = words text := by
  induction blank generalizing text with
  | nil => rw [List.append_nil]
  | cons b blank ih =>
    obtain ⟨hb, hblank⟩ := List.forall_mem_cons.mp h
    have hwords : words blank = [] := by
      have := ih hblank []
      rwa [List.nil_append, words_nil] at this
    rw [words_append_space hb, hwords, List.append_nil]

theorem words_blank : words blank = [] := by
  have happend := words_blank_append h []
  rwa [List.append_nil, words_nil] at happend

theorem strip_blank : strip blank = [] := by
  have hdrop : blank.dropWhile isSpace = [] := List.dropWhile_eq_nil_iff.mpr h
  rw [strip, hdrop]
  exact List.rdropWhile_nil isSpace

theorem strip_append_blank (text : List Byte) : strip (text ++ blank) = strip text := by
  have hback (t : List Byte) : (t ++ blank).rdropWhile isSpace = t.rdropWhile isSpace := by
    unfold List.rdropWhile
    rw [List.reverse_append, List.dropWhile_append_of_pos]
    exact fun b hb => h b (List.mem_reverse.mp hb)
  unfold strip
  rw [List.dropWhile_append]
  split
  · next hnil =>
    rw [List.isEmpty_iff.mp hnil, List.dropWhile_eq_nil_iff.mpr h]
  · exact hback _

/-- The whitespace in front goes. -/
theorem strip_blank_append (text : List Byte) : strip (blank ++ text) = strip text := by
  unfold strip
  rw [List.dropWhile_append_of_pos h]

end Blank

/-- No word goes on behind the end of a line. -/
theorem words_append_line {front back : List Byte}
    (h : back = [] ∨ ∃ init, front = init ++ [newline]) :
    words (front ++ back) = words front ++ words back := by
  rcases h with rfl | ⟨init, rfl⟩
  · rw [words_nil, List.append_nil, List.append_nil]
  · rw [List.append_assoc, List.singleton_append, words_append_space rfl,
      words_append_blank (List.forall_mem_singleton.mpr rfl)]

/-- To strip a text changes no word. -/
theorem words_strip (text : List Byte) : words (strip text) = words text := by
  have hfront : words (text.dropWhile isSpace) = words text := by
    conv_rhs => rw [← List.takeWhile_append_dropWhile (p := isSpace) (l := text)]
    rw [words_blank_append]
    exact fun b hb => List.mem_takeWhile_imp hb
  have hback (t : List Byte) : words (t.rdropWhile isSpace) = words t := by
    conv_rhs => rw [← List.rdropWhile_append_rtakeWhile (p := isSpace) (l := t)]
    rw [words_append_blank]
    exact fun b hb => List.mem_rtakeWhile_imp hb
  rw [strip, hback, hfront]

/-- What is left of a text that is not blank has words. -/
theorem words_strip_ne_nil {text : List Byte} (h : strip text ≠ []) : words (strip text) ≠ [] := by
  rw [words_strip]
  intro hnil
  exact h (strip_blank (blank_of_words_eq_nil hnil))

theorem rdropWhile_cons {b : Byte} (hb : isSpace b = false) (text : List Byte) :
    (b :: text).rdropWhile isSpace = b :: text.rdropWhile isSpace := by
  have hneg : ¬ isSpace b = true := by
    rw [hb]
    exact Bool.false_ne_true
  induction text using List.reverseRecOn with
  | nil => rw [List.rdropWhile_singleton, if_neg hneg, List.rdropWhile_nil]
  | append_singleton text c ih =>
    rw [← List.cons_append, List.rdropWhile_concat, List.rdropWhile_concat]
    split
    · exact ih
    · rfl

/-- A text that starts with anything but whitespace keeps its start. -/
theorem strip_cons {b : Byte} (hb : isSpace b = false) (text : List Byte) :
    strip (b :: text) = b :: text.rdropWhile isSpace := by
  have hneg : ¬ isSpace b = true := by
    rw [hb]
    exact Bool.false_ne_true
  rw [strip, List.dropWhile_cons_of_neg hneg, rdropWhile_cons hb]

end Text
