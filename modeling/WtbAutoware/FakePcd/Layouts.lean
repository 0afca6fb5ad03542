import WtbAutoware.FakePcd.Shortage

/-!
# Which layouts of an image are read

The format lets a writer choose what is between the tokens of the header: any whitespace,
and comments. `load_pgm` goes by lines, so for it the choice makes a difference. What it
needs is that

* the magic number has a line to itself (`loadPgm_of_clean`, `loadPgm_of_not_clean`),
* each of the three numbers is `Shown`: lines that are blank or comments, and then its digits
  without a comment among them (`Encoding.LoadsFrom.shown`, `Encoding.maxval_shown`),
* there is no comment behind the width on its line, up to the height (`gather_of_clean`,
  `exists_hash_of_not_clean`), nor right behind the height (`words_height`,
  `words_height_of_comment`),
* the greatest value is on a later line than the height (`exists_shown_of_loadPixels`), and
* the samples start on a line of their own, and bytes that come in pairs are zero
  (`Body.pixels_iff`).

These are the layouts that are read, and no others (`loads_iff`). A number that is not shown is
passed over with a comment that a carriage return has ended, and does not come back
(`Left.gather`, `Past.loadPixels_ne`), or has a comment among its digits (`Spelled.exists_hash`).
-/

namespace WtbAutoware
namespace FakePcd

open Text

/-! ### Tokens on a line -/

/-- A comment behind a word on the same line is part of the first two words. -/
theorem exists_hash_take {word blank : List Byte} (hword : ∀ b ∈ word, isSpace b = false)
    (hne : word ≠ []) (hblank : ∀ b ∈ blank, isSpace b = true) (text : List Byte) :
    ∃ w ∈ (words (word ++ (blank ++ 35 :: text))).take 2, (35 : Byte) ∈ w := by
  by_cases hnil : blank = []
  · -- the comment is glued to the word
    obtain ⟨w, others, hwords, hw⟩ := exists_hash_word hword text
    rw [hnil, List.nil_append, hwords]
    exact ⟨w, List.mem_cons_self, hw⟩
  · -- the comment starts the second word
    obtain ⟨w, others, hwords, hw⟩ := exists_hash_comment text
    rw [words_token_blank_append hblank hnil hword hne, hwords]
    exact ⟨w, List.mem_cons_of_mem _ List.mem_cons_self, hw⟩

theorem words_ne_nil {b : Byte} (hb : isSpace b = false) (text : List Byte) :
    words (b :: text) ≠ [] := by
  rw [← List.singleton_append, words_append (List.forall_mem_singleton.mpr hb)
    (List.cons_ne_nil b [])]
  exact List.cons_ne_nil _ _

theorem Numeral.words_ne_nil {text : List Byte} {n : ℕ} (h : Numeral text n) (rest : List Byte) :
    words (lineOf (text ++ rest)) ≠ [] := by
  obtain ⟨b, text, rfl, hb⟩ := h.digit
  have hne : b ≠ newline := by
    rintro rfl
    exact absurd hb (by decide)
  rw [List.cons_append, lineOf_cons hne]
  exact FakePcd.words_ne_nil hb.not_isSpace _

/-! ### The magic number -/

section Magic

variable {magic : List Byte} (hmagic : magic = P2 ∨ magic = P5)
include hmagic

theorem magic_spec : (∀ b ∈ magic, isSpace b = false) ∧ magic ≠ [] ∧ newline ∉ magic ∧
    (35 : Byte) ∉ magic := by
  rcases hmagic with rfl | rfl <;> decide

theorem strip_magic {blank : List Byte} (hblank : ∀ b ∈ blank, isSpace b = true) :
    strip (magic ++ blank) = magic := by
  rw [strip_append_blank hblank]
  rcases hmagic with rfl | rfl <;> decide

/-- The first line of a file. -/
theorem loadPgm_eq (n : ℕ) (rest : List Byte) :
    ∃ stop, (∀ b ∈ stop, isSpace b = true) ∧
      loadPgm n (magic ++ rest) =
        if strip (magic ++ lineOf rest ++ stop) = P2 ∨
            strip (magic ++ lineOf rest ++ stop) = P5 then
          loadBody n (strip (magic ++ lineOf rest ++ stop)) (splitLines (afterLine rest))
        else .raised (.unsupportedFormat (strip (magic ++ lineOf rest ++ stop))) := by
  obtain ⟨-, hne, hnewline, -⟩ := magic_spec hmagic
  obtain ⟨stop, hstop, -, hlines⟩ :=
    splitLines_eq_cons (List.append_ne_nil_of_left_ne_nil hne rest)
  rw [lineOf_append hnewline] at hlines
  refine ⟨stop, isSpace_of_stop hstop, ?_⟩
  unfold loadPgm
  rw [hlines, afterLine_append hnewline]
  rfl

/-- On a line of its own, it is read. -/
theorem loadPgm_of_clean (n : ℕ) {blank : List Byte}
    (hblank : ∀ b ∈ blank, IsWhite b ∧ b ≠ newline) (rest : List Byte) :
    loadPgm n (magic ++ (blank ++ newline :: rest)) = loadBody n magic (splitLines rest) := by
  have hfront := newline_notMem_of_blank hblank
  obtain ⟨stop, hstop, hload⟩ := loadPgm_eq hmagic n (blank ++ newline :: rest)
  rw [lineOf_append hfront, lineOf_newline, List.append_nil, afterLine_append hfront,
    afterLine_newline, strip_append_blank hstop,
    strip_magic hmagic (isSpace_of_blank hblank)] at hload
  rw [hload, if_pos hmagic]

/-- With anything else on its line, it is not. -/
theorem loadPgm_of_not_clean (n : ℕ) {sep token rest : List Byte} {value : ℕ}
    (hsep : GapLines sep) (hne : sep ≠ []) (htoken : Numeral token value)
    (h : ¬ (newline ∈ sep ∧ (35 : Byte) ∉ lineOf sep)) (pgm : Pgm) :
    loadPgm n (magic ++ (sep ++ (token ++ rest))) ≠ .returned pgm := by
  obtain ⟨hspace, hmagic_ne, -, hhash⟩ := magic_spec hmagic
  obtain ⟨stop, hstop, hload⟩ := loadPgm_eq hmagic n (sep ++ (token ++ rest))
  -- a stripped line is one word only if the line is
  have hwords {w : List Byte} (hw : w = P2 ∨ w = P5)
      (hstrip : strip (magic ++ lineOf (sep ++ (token ++ rest)) ++ stop) = w) :
      words (magic ++ lineOf (sep ++ (token ++ rest))) = [w] := by
    obtain ⟨hw_space, hw_ne, -, -⟩ := magic_spec hw
    rw [← words_append_blank hstop, ← words_strip, hstrip, words_token hw_space hw_ne]
  have hother {w : List Byte} (hw : w = P2 ∨ w = P5) :
      words (magic ++ lineOf (sep ++ (token ++ rest))) ≠ [w] := by
    intro hone
    cases hsep with
    | last hblank =>
      -- the number is on the line too
      rw [lineOf_append (newline_notMem_of_blank hblank),
        words_token_blank_append (isSpace_of_blank hblank) hne hspace hmagic_ne] at hone
      exact htoken.words_ne_nil rest (List.cons.inj hone).2
    | @lastComment blank text hblank htext =>
      -- so is a comment, and the number is part of it
      rw [lineOf_append (newline_notMem_of_comment hblank htext), List.append_assoc,
        List.cons_append] at hone
      obtain ⟨w', hmem, hw'⟩ := exists_hash_take hspace hmagic_ne (isSpace_of_blank hblank)
        (text ++ lineOf (token ++ rest))
      rw [hone] at hmem
      have heq : w' = w := List.mem_singleton.mp hmem
      exact (magic_spec hw).2.2.2 (heq ▸ hw')
    | clean hblank _ =>
      exact h ⟨List.mem_append_right _ List.mem_cons_self, hash_notMem_lineOf_clean hblank _⟩
    | @comment blank text gap hblank htext _ =>
      -- the comment is
      obtain ⟨hline, -⟩ := line_of_comment hblank htext gap (token ++ rest)
      obtain ⟨w', hmem, hw'⟩ := exists_hash_take hspace hmagic_ne (isSpace_of_blank hblank) text
      rw [← hline, hone] at hmem
      have heq : w' = w := List.mem_singleton.mp hmem
      exact (magic_spec hw).2.2.2 (heq ▸ hw')
  rw [hload, if_neg]
  · exact fun h => nomatch h
  · rintro (hP | hP)
    · exact hother (Or.inl rfl) (hwords (Or.inl rfl) hP)
    · exact hother (Or.inr rfl) (hwords (Or.inr rfl) hP)

end Magic

/-! ### Width and height -/

section Size

variable {gap width sep : List Byte} {w : ℕ} (hgap : GapLines gap)
  (hclosed : (35 : Byte) ∉ lastLine gap) (hwidth : Decimal width w) (hsep : GapLines sep)
include hgap hclosed hwidth hsep

/-- Width and height are read, with what is on the line of the height. -/
theorem gather_of_clean (hne : sep ≠ []) (hclosed' : (35 : Byte) ∉ lastLine sep)
    (hclean : (35 : Byte) ∉ lineOf sep) {height : List Byte} {h : ℕ} (hheight : Decimal height h)
    (rest : List Byte) :
    gather 2 [] (splitLines (gap ++ (width ++ (sep ++ (height ++ rest))))) =
      .returned (width :: words (height ++ lineOf rest), splitLines (afterLine rest)) := by
  obtain ⟨hline', hafter'⟩ := hheight.line rest
  have hsome : 1 ≤ (words (height ++ lineOf rest)).length := by
    rw [← hline']
    exact List.length_pos_of_ne_nil (hheight.numeral.words_ne_nil rest)
  rw [gather, if_neg (by decide), nextTokens_decimal hgap hclosed hwidth]
  dsimp only [List.nil_append]
  cases hsep with
  | last hblank =>
    -- the height is on the line of the width
    have hfront := newline_notMem_of_blank hblank
    rw [lineOf_append hfront, hline', afterLine_append hfront, hafter',
      words_token_blank_append (isSpace_of_blank hblank) hne hwidth.isSpace_eq hwidth.ne_nil,
      gather, if_pos (by simpa using hsome)]
  | @lastComment blank text hblank htext =>
    rw [lastLine_of_lastComment hblank htext] at hclosed'
    exact absurd (List.mem_append_right blank List.mem_cons_self) hclosed'
  | @clean blank rest' hblank hrest' =>
    -- the height is on a later line
    rw [lastLine_append] at hclosed'
    obtain ⟨hline, hafter⟩ := line_of_clean hblank rest' (height ++ rest)
    rw [hline, hafter, words_append_blank (isSpace_of_blank hblank),
      words_token hwidth.isSpace_eq hwidth.ne_nil, gather, if_neg (by simp),
      nextTokens_decimal hrest' hclosed' hheight, gather, List.singleton_append,
      if_pos (by simpa using hsome)]
  | comment hblank _ _ => exact absurd (hash_mem_lineOf_comment hblank _) hclean

/-- A comment on the line of the width is taken for a number. -/
theorem exists_hash_of_not_clean (hmem : (35 : Byte) ∈ lineOf sep) (rest : List Byte) :
    ∃ w ∈ (nextTokens (splitLines (gap ++ (width ++ (sep ++ rest))))).1.take 2,
      (35 : Byte) ∈ w := by
  rw [nextTokens_decimal hgap hclosed hwidth]
  cases hsep with
  | last hblank =>
    exact absurd ((List.takeWhile_sublist _).subset hmem) (hash_notMem_of_blank hblank)
  | clean hblank _ => exact absurd hmem (hash_notMem_lineOf_clean hblank _)
  | @lastComment blank text hblank htext =>
    rw [lineOf_append (newline_notMem_of_comment hblank htext), List.append_assoc,
      List.cons_append]
    exact exists_hash_take hwidth.isSpace_eq hwidth.ne_nil (isSpace_of_blank hblank) _
  | @comment blank text rest' hblank htext _ =>
    obtain ⟨hline, -⟩ := line_of_comment hblank htext rest' rest
    rw [hline]
    exact exists_hash_take hwidth.isSpace_eq hwidth.ne_nil (isSpace_of_blank hblank) text

end Size

/-! ### What follows the height -/

section Height

variable {sep height : List Byte} {h : ℕ} (hheight : Decimal height h) (rest : List Byte)
include hheight

/-- The height is a word if no comment starts right behind it. -/
theorem words_height (hsep : GapLines sep) (hne : sep ≠ []) (hhead : sep.head? ≠ some 35) :
    ∃ others, words (height ++ lineOf (sep ++ rest)) = height :: others := by
  cases hsep with
  | last hblank =>
    obtain ⟨b, blank, rfl⟩ := List.exists_cons_of_ne_nil hne
    exact words_number_line hheight (hblank b List.mem_cons_self).1.isSpace _
  | @clean blank _ hblank _ =>
    cases blank with
    | nil => exact words_number_line hheight rfl _
    | cons b blank => exact words_number_line hheight (hblank b List.mem_cons_self).1.isSpace _
  | @comment blank _ _ hblank _ _ =>
    cases blank with
    | nil => exact absurd rfl hhead
    | cons b blank => exact words_number_line hheight (hblank b List.mem_cons_self).1.isSpace _
  | @lastComment blank _ hblank _ =>
    cases blank with
    | nil => exact absurd rfl hhead
    | cons b blank => exact words_number_line hheight (hblank b List.mem_cons_self).1.isSpace _

/-- Otherwise the first word has the `#` in it. -/
theorem words_height_of_comment (hhead : sep.head? = some 35) :
    ∃ w others, words (height ++ lineOf (sep ++ rest)) = w :: others ∧ (35 : Byte) ∈ w := by
  obtain ⟨sep, rfl⟩ := List.head?_eq_some_iff.mp hhead
  have hline : lineOf (35 :: sep ++ rest) = 35 :: lineOf (sep ++ rest) :=
    lineOf_cons (by decide) (sep ++ rest)
  rw [hline]
  exact exists_hash_word hheight.isSpace_eq _

end Height

/-! ### The greatest value -/

/-- Behind its first newline, a gap goes on line by line. -/
theorem GapLines.exists_afterLine {sep : List Byte} (h : GapLines sep) (hmem : newline ∈ sep) :
    ∃ gap, GapLines gap ∧ ∀ rest, Text.afterLine (sep ++ rest) = gap ++ rest := by
  cases h with
  | last hblank => exact absurd hmem (newline_notMem_of_blank hblank)
  | lastComment hblank htext => exact absurd hmem (newline_notMem_of_comment hblank htext)
  | clean hblank hgap =>
    exact ⟨_, hgap, fun rest => (line_of_clean hblank _ rest).2⟩
  | comment hblank htext hgap =>
    exact ⟨_, hgap, fun rest => (line_of_comment hblank htext _ rest).2⟩

/-- If no comment is in the way, its first line is blank. -/
theorem GapLines.split {sep : List Byte} (h : GapLines sep) (hmem : newline ∈ sep)
    (hclean : (35 : Byte) ∉ lineOf sep) :
    ∃ blank gap, (∀ b ∈ blank, IsWhite b ∧ b ≠ newline) ∧ GapLines gap ∧
      sep = blank ++ newline :: gap := by
  cases h with
  | last hblank => exact absurd hmem (newline_notMem_of_blank hblank)
  | lastComment hblank htext => exact absurd hmem (newline_notMem_of_comment hblank htext)
  | clean hblank hgap => exact ⟨_, _, hblank, hgap, rfl⟩
  | comment hblank _ _ => exact absurd (hash_mem_lineOf_comment hblank _) hclean

variable {image : Image}

/-- On a later line than the height, the greatest value is read, and then the samples. -/
theorem loadPixels_iff_of_closed (body : Body image) {gap maxval : List Byte} (hgap : GapLines gap)
    (hclosed : (35 : Byte) ∉ lastLine gap) (hmaxval : Decimal maxval image.maxval) :
    loadPixels body.magic image.width image.height
        (splitLines (gap ++ (maxval ++ body.text))) = .returned image.result ↔
      body.Readable := by
  obtain ⟨b, text, hb, htext⟩ := body.exists_space
  obtain ⟨others, hwords⟩ := words_number_line hmaxval hb text
  -- the greatest value starts a line, and what is behind it on that line is dropped
  have hnext : nextTokens (splitLines (gap ++ (maxval ++ body.text))) =
      (maxval :: others, splitLines (afterLine body.text)) := by
    rw [nextTokens_decimal hgap hclosed hmaxval, htext, hwords]
  rw [loadPixels_eq_returned, ← Body.pixels_iff, hnext]
  dsimp only
  rw [read, flatten_splitLines]
  refine ⟨?_, ?_⟩
  · rintro ⟨_, _, _, pixels, -, -, hpixels, hresult⟩
    have hsamples : pixels = image.samples.map fun s : ℕ => (s : ℤ) := congrArg Pgm.pixels hresult
    exact hsamples ▸ hpixels
  · intro hpixels
    exact ⟨maxval, others, image.maxval, _, rfl, hmaxval.int_eq, hpixels, rfl⟩

/-- Passed over, it is not read, and a line of samples is taken for it, unless the rest of its
digits are as good. -/
theorem exists_shown_of_loadPixels (e : Encoding image) {f : File}
    (h : nextTokens f = nextTokens (splitLines (afterLine (e.maxval ++ e.body.text))))
    (hload : loadPixels e.body.magic image.width image.height f = .returned image.result) :
    ∃ line digits, e.maxval = line ++ newline :: digits ∧ newline ∉ line ∧
      Shown digits image.maxval := by
  obtain ⟨b, text, hb, htext⟩ := e.body.exists_space
  rcases e.numeral_maxval.skipped (.past (past_text e.body)) ⟨b, text, htext, Or.inl hb⟩ with
    ⟨t, others, hnext, hint⟩ | ⟨k, hk, text', hleft, hnext⟩ | hshown
  · -- what is read is another number
    obtain ⟨_, _, maxValue, _, htokens, hmax, -, hresult⟩ := loadPixels_eq_returned.mp hload
    rw [h, hnext] at htokens
    obtain ⟨rfl, -⟩ := List.cons.inj htokens
    have hvalue : maxValue = (image.maxval : ℤ) := congrArg Pgm.maxValue hresult
    exact absurd (hmax.trans (congrArg some hvalue)) hint
  · obtain rfl : k = 0 := Nat.le_zero.mp hk
    cases hleft with
    | past hpast =>
      refine absurd ?_ hpast.loadPixels_ne
      unfold loadPixels at hload ⊢
      rwa [h, hnext] at hload
  · exact hshown

/-! ### Loading from a place in the header -/

/-- With the tokens that have been read, and from this place on, the image is returned. -/
def Encoding.LoadsFrom (e : Encoding image) (n : ℕ) (tokens : List (List Byte)) (f : File) : Prop :=
  ∃ tokens' g, gather n tokens f = .returned (tokens', g) ∧
    int (tokens'.getD 0 []) = some (image.width : ℤ) ∧
    int (tokens'.getD 1 []) = some (image.height : ℤ) ∧
    loadPixels e.body.magic image.width image.height g = .returned image.result

theorem Encoding.loadBody_eq_returned_iff (e : Encoding image) {n : ℕ} {f : File} :
    loadBody n e.body.magic f = .returned image.result ↔ e.LoadsFrom (n + 1) [] f := by
  have hfirst : gather (n + 1) [] f = gather n (nextTokens f).1 (nextTokens f).2 := rfl
  rw [loadBody_eq_returned, Encoding.LoadsFrom, hfirst]
  refine ⟨?_, ?_⟩
  · rintro ⟨tokens, g, width, height, hgather, hwidth, hheight, hpixels⟩
    -- width and height are part of what is returned
    obtain ⟨_, _, _, _, -, -, -, hresult⟩ := loadPixels_eq_returned.mp hpixels
    obtain rfl : width = image.width := congrArg Pgm.width hresult
    obtain rfl : height = image.height := congrArg Pgm.height hresult
    exact ⟨tokens, g, hgather, hwidth, hheight, hpixels⟩
  · rintro ⟨tokens, g, hgather, hwidth, hheight, hpixels⟩
    exact ⟨tokens, g, image.width, image.height, hgather, hwidth, hheight, hpixels⟩

namespace Encoding.LoadsFrom

variable {e : Encoding image} {n : ℕ} {tokens : List (List Byte)} {f : File}
  (h : e.LoadsFrom n tokens f)
include h

/-- With fewer than two tokens, the next ones are read. -/
theorem next (hfew : tokens.length < 2) :
    ∃ n', e.LoadsFrom n' (tokens ++ (nextTokens f).1) (nextTokens f).2 ∧
      ∀ f', nextTokens f = nextTokens f' → e.LoadsFrom (n' + 1) tokens f' := by
  obtain ⟨tokens', g, hgather, hrest⟩ := h
  have hmore : ¬ 2 ≤ tokens.length := Nat.not_le.mpr hfew
  cases n with
  | zero =>
    rw [gather, if_neg hmore] at hgather
    cases hgather
  | succ n =>
    rw [gather, if_neg hmore] at hgather
    refine ⟨n, ⟨tokens', g, hgather, hrest⟩, fun f' hf' => ⟨tokens', g, ?_, hrest⟩⟩
    rw [gather, if_neg hmore, ← hf']
    exact hgather

/-- The first two tokens are numbers. -/
theorem hash_notMem (hfew : tokens.length < 2) :
    ∀ w ∈ (tokens ++ (nextTokens f).1).take 2, (35 : Byte) ∉ w := by
  obtain ⟨n', ⟨tokens', g, hgather, hwidth, hheight, -⟩, -⟩ := h.next hfew
  intro w hw
  rcases getD_of_mem_take hw (prefix_of_gather hgather) with rfl | rfl
  · exact hash_notMem_of_int hwidth
  · exact hash_notMem_of_int hheight

omit h in
/-- Too few numbers are left. -/
theorem not_of_left {k : ℕ} {text : List Byte} (hleft : Left e.body k text)
    (hfew : k = 0 ∨ tokens.length + k < 3) : ¬ e.LoadsFrom n tokens (splitLines text) := by
  rintro ⟨tokens', g, hgather, hwidth, hheight, hpixels⟩
  obtain ⟨text', rfl, hpast⟩ :=
    hleft.gather hfew hgather (hash_notMem_of_int hwidth) (hash_notMem_of_int hheight)
  exact hpast.loadPixels_ne hpixels

/-- Where the width or the height is to be read, it is there on a line. -/
theorem shown {gap number rest : List Byte} {value k : ℕ} (hgap : GapLines gap)
    (hnumber : Numeral number value) (hf : f = splitLines (gap ++ (number ++ rest)))
    (hvalue : tokens = [] ∧ value = image.width ∨ tokens.length = 1 ∧ value = image.height)
    (hrest : Left e.body k rest) (hk : tokens.length + k < 3)
    (hstart : ∃ b text, rest = b :: text ∧ (isSpace b = true ∨ b = 35)) :
    Shown (gap ++ number) value := by
  have hfew : tokens.length < 2 := by
    rcases hvalue with ⟨rfl, -⟩ | ⟨hone, -⟩
    · exact Nat.two_pos
    · omega
  by_cases hopen : (35 : Byte) ∈ lastLine gap
  · have hskip : nextTokens f = nextTokens (splitLines (afterLine (number ++ rest))) :=
      hf ▸ nextTokens_open hgap hopen _
    obtain ⟨n', ⟨tokens', g, hgather, hwidth, hheight, -⟩, hcongr⟩ := h.next hfew
    rcases hnumber.skipped hrest hstart with
      ⟨t, others, hnext, hint⟩ | ⟨k', hk', text, hleft, hnext⟩ | ⟨line, digits, rfl, hline, hdigits⟩
    · -- another number is read in its place
      rw [hskip, hnext] at hgather
      obtain ⟨more, rfl⟩ := prefix_of_gather hgather
      rcases hvalue with ⟨rfl, rfl⟩ | ⟨hone, rfl⟩
      · exact absurd hwidth hint
      · obtain ⟨first, rfl⟩ := List.length_eq_one_iff.mp hone
        exact absurd hheight hint
    · -- what is read in its place is the next number
      exact absurd (hcongr _ (hskip.trans hnext)) (not_of_left hleft (Or.inr (by omega)))
    · exact hdigits.append_line hgap hopen hline
  · -- its own line is read
    have hwhole : (35 : Byte) ∉ number := by
      intro hmem
      obtain ⟨token, hspelled, -⟩ := hnumber.spelled
      obtain ⟨w, others, hwords, hw⟩ := hspelled.exists_hash hmem rest
      refine h.hash_notMem hfew w ?_ hw
      rw [hf, nextTokens_number hgap hopen hnumber, hwords]
      rcases hvalue with ⟨rfl, -⟩ | ⟨hone, -⟩
      · exact List.mem_cons_self
      · obtain ⟨first, rfl⟩ := List.length_eq_one_iff.mp hone
        exact List.mem_cons_of_mem _ List.mem_cons_self
    exact ⟨gap, number, rfl, hgap, hopen, hnumber.decimal hwhole⟩

end Encoding.LoadsFrom

/-! ### The law -/

/-- `load_pgm` returns the image that the file encodes. -/
def Encoding.Loads (e : Encoding image) : Prop :=
  ∃ bound, loadPgm bound e.text = .returned image.result

/-- A layout that can be read line by line. -/
structure Encoding.LineOriented (e : Encoding image) : Prop where
  /-- The magic number has a line to itself. -/
  magic : newline ∈ e.sep₁ ∧ (35 : Byte) ∉ lineOf e.sep₁
  /-- The digits of the width follow lines that are blank or comments, and no comment is behind
  them on their line, up to the height. -/
  width : Shown (e.sep₁ ++ e.width) image.width ∧ (35 : Byte) ∉ lineOf (e.sep₂ ++ e.height)
  /-- So do the digits of the height, if they are not on the same line, and no comment is right
  behind them. -/
  height : Shown (e.sep₂ ++ e.height) image.height ∧ e.sep₃.head? ≠ some 35
  /-- The digits of the greatest value are on a later line, with such lines in between. -/
  maxval : Shown (afterLine (e.sep₃ ++ e.maxval)) image.maxval
  /-- The samples start on a line of their own, and pairs of bytes are zero. -/
  samples : e.body.Readable

theorem Body.magic_eq (body : Body image) : body.magic = P2 ∨ body.magic = P5 := by
  cases body with
  | plain => exact Or.inl rfl
  | raw => exact Or.inr rfl

theorem Encoding.left_afterHeight (e : Encoding image) : Left e.body 1 e.afterHeight := by
  obtain ⟨token, hspelled, -⟩ := e.numeral_maxval.spelled
  exact .number e.gap₃.1.lines hspelled (.past (past_text e.body))

theorem Encoding.left_afterWidth (e : Encoding image) : Left e.body 2 e.afterWidth := by
  obtain ⟨token, hspelled, -⟩ := e.numeral_height.spelled
  exact .number e.gap₂.1.lines hspelled e.left_afterHeight

theorem Gap.start_append {gap : List Byte} (h : Gap gap ∧ gap ≠ []) (rest : List Byte) :
    ∃ b text, gap ++ rest = b :: text ∧ (isSpace b = true ∨ b = 35) := by
  obtain ⟨b, text, rfl, hb⟩ := h.1.exists_start h.2
  exact ⟨b, text ++ rest, rfl, hb⟩

/-- With the width on a line, the height is too. -/
theorem Encoding.LoadsFrom.height {e : Encoding image} {n : ℕ} {gap digits : List Byte}
    (hgap : GapLines gap) (hclosed : (35 : Byte) ∉ lastLine gap)
    (hdigits : Decimal digits image.width)
    (h : e.LoadsFrom n [] (splitLines (gap ++ (digits ++ e.afterWidth)))) :
    Shown (e.sep₂ ++ e.height) image.height ∧ (35 : Byte) ∉ lineOf (e.sep₂ ++ e.height) := by
  have hfree := h.hash_notMem (by decide)
  obtain ⟨n', hrest, -⟩ := h.next (by decide)
  rw [List.nil_append] at hfree hrest
  obtain ⟨hsep, hne⟩ := e.gap₂
  have hlines := hsep.lines
  have hclean : (35 : Byte) ∉ lineOf e.sep₂ := by
    intro hmem
    obtain ⟨w, hw, hhash⟩ := exists_hash_of_not_clean hgap hclosed hdigits hlines hmem
      (e.height ++ e.afterHeight)
    exact hfree w hw hhash
  rw [nextTokens_decimal hgap hclosed hdigits] at hfree hrest
  unfold Encoding.afterWidth at hfree hrest
  clear h hsep
  generalize e.sep₂ = sep at hclean hfree hrest hlines hne ⊢
  cases hlines with
  | last hblank =>
    -- the height is on the line of the width
    have hnewline := newline_notMem_of_blank hblank
    rw [lineOf_append hnewline, words_token_blank_append (isSpace_of_blank hblank) hne
      hdigits.isSpace_eq hdigits.ne_nil] at hfree
    have hwhole : (35 : Byte) ∉ e.height := by
      intro hmem
      obtain ⟨token, hspelled, -⟩ := e.numeral_height.spelled
      obtain ⟨w, others, hwords, hw⟩ := hspelled.exists_hash hmem e.afterHeight
      rw [hwords] at hfree
      exact hfree w (List.mem_cons_of_mem _ List.mem_cons_self) hw
    refine ⟨⟨_, e.height, rfl, .last hblank, ?_, e.numeral_height.decimal hwhole⟩, ?_⟩
    · rw [lastLine_of_notMem hnewline]
      exact hash_notMem_of_blank hblank
    · intro hmem
      exact (List.mem_append.mp ((List.takeWhile_sublist _).subset hmem)).elim
        (hash_notMem_of_blank hblank) hwhole
  | @lastComment blank text hblank htext =>
    rw [lineOf_of_notMem (newline_notMem_of_comment hblank htext)] at hclean
    exact absurd (List.mem_append_right blank List.mem_cons_self) hclean
  | comment hblank _ _ => exact absurd (hash_mem_lineOf_comment hblank _) hclean
  | @clean blank gap' hblank hgap' =>
    -- the height is on a later line
    obtain ⟨hline, hafter⟩ := line_of_clean hblank gap' (e.height ++ e.afterHeight)
    rw [hline, hafter, words_append_blank (isSpace_of_blank hblank),
      words_token hdigits.isSpace_eq hdigits.ne_nil] at hrest
    have hshown := hrest.shown hgap' e.numeral_height rfl (Or.inr ⟨rfl, rfl⟩) e.left_afterHeight
      (Nat.lt_succ_self _) (Gap.start_append e.gap₃ _)
    rw [(line_of_clean hblank gap' e.height).1, List.append_assoc, List.cons_append]
    exact ⟨hshown.clean hblank, hash_notMem_of_blank hblank⟩

/-- So width and height are what is read. -/
theorem Encoding.gather_of_shown (e : Encoding image) {gap digits : List Byte}
    (hgap : GapLines gap) (hclosed : (35 : Byte) ∉ lastLine gap)
    (hdigits : Decimal digits image.width) (hshown : Shown (e.sep₂ ++ e.height) image.height)
    (hclean : (35 : Byte) ∉ lineOf (e.sep₂ ++ e.height)) :
    ∃ height, Decimal height image.height ∧
      gather 2 [] (splitLines (gap ++ (digits ++ e.afterWidth))) =
        .returned (digits :: words (height ++ lineOf e.afterHeight),
          splitLines (afterLine e.afterHeight)) := by
  obtain ⟨gap', height, happend, hgap', hclosed', hheight⟩ := hshown
  have hne : gap' ≠ [] := by
    rintro rfl
    -- a gap does not start with a digit
    obtain ⟨b, text, hstart, hb⟩ := Gap.start_append e.gap₂ e.height
    have hdigit := hheight.digits b (by rw [← List.nil_append height, ← happend, hstart]; simp)
    rcases hb with hspace | rfl
    · exact absurd hspace (by rw [hdigit.not_isSpace]; decide)
    · exact absurd hdigit (by decide)
  have hafter : e.afterWidth = gap' ++ (height ++ e.afterHeight) := by
    unfold Encoding.afterWidth
    rw [← List.append_assoc, happend, List.append_assoc]
  rw [happend] at hclean
  refine ⟨height, hheight, ?_⟩
  rw [hafter]
  exact gather_of_clean hgap hclosed hdigits hgap' hne hclosed'
    (fun hmem => hclean (lineOf_subset_append gap' height hmem)) hheight e.afterHeight

/-- The greatest value is on a later line than the height. -/
theorem Encoding.maxval_shown (e : Encoding image)
    (hload : loadPixels e.body.magic image.width image.height
      (splitLines (afterLine e.afterHeight)) = .returned image.result) :
    Shown (afterLine (e.sep₃ ++ e.maxval)) image.maxval := by
  unfold Encoding.afterHeight at hload
  by_cases hmem : newline ∈ e.sep₃
  · obtain ⟨gap, hgap, hafter⟩ := GapLines.exists_afterLine e.gap₃.1.lines hmem
    rw [hafter] at hload ⊢
    by_cases hopen : (35 : Byte) ∈ lastLine gap
    · obtain ⟨line, digits, hmaxval, hline, hdigits⟩ :=
        exists_shown_of_loadPixels e (nextTokens_open hgap hopen _) hload
      rw [hmaxval]
      exact hdigits.append_line hgap hopen hline
    · have hwhole : (35 : Byte) ∉ e.maxval := by
        intro hhash
        obtain ⟨token, hspelled, -⟩ := e.numeral_maxval.spelled
        obtain ⟨w, others, hwords, hw⟩ := hspelled.exists_hash hhash e.body.text
        obtain ⟨_, _, _, _, htokens, hmax, -⟩ := loadPixels_eq_returned.mp hload
        rw [nextTokens_number hgap hopen e.numeral_maxval, hwords] at htokens
        obtain ⟨rfl, -⟩ := List.cons.inj htokens
        exact hash_notMem_of_int hmax hw
      exact ⟨gap, e.maxval, rfl, hgap, hopen, e.numeral_maxval.decimal hwhole⟩
  · -- then it starts on the line of the height
    rw [afterLine_append hmem] at hload ⊢
    obtain ⟨line, digits, hmaxval, hline, hdigits⟩ := exists_shown_of_loadPixels e rfl hload
    rwa [hmaxval, afterLine_append hline, afterLine_newline]

/-- Then the samples decide. -/
theorem Encoding.loadPixels_iff (e : Encoding image)
    (hshown : Shown (afterLine (e.sep₃ ++ e.maxval)) image.maxval) :
    loadPixels e.body.magic image.width image.height (splitLines (afterLine e.afterHeight)) =
      .returned image.result ↔ e.body.Readable := by
  obtain ⟨gap, digits, happend, hgap, hclosed, hdigits⟩ := hshown
  have hmem : newline ∈ e.sep₃ ++ e.maxval := by
    by_contra hnot
    -- there would be no later line
    have hnil := afterLine_append hnot []
    rw [List.append_nil] at hnil
    exact hdigits.ne_nil (List.append_eq_nil_iff.mp (happend.symm.trans hnil)).2
  have hafter : afterLine e.afterHeight = gap ++ (digits ++ e.body.text) := by
    unfold Encoding.afterHeight
    rw [← List.append_assoc, (line_append_of_mem hmem _).2, happend, List.append_assoc]
  rw [hafter]
  exact loadPixels_iff_of_closed e.body hgap hclosed hdigits

/-- A file that is decoded is laid out in lines. -/
theorem Encoding.Loads.lineOriented {e : Encoding image} (h : e.Loads) : e.LineOriented := by
  obtain ⟨n, hload⟩ := h
  have hmagic : newline ∈ e.sep₁ ∧ (35 : Byte) ∉ lineOf e.sep₁ := by
    by_contra hnot
    exact loadPgm_of_not_clean e.body.magic_eq n e.gap₁.1.lines e.gap₁.2 e.numeral_width hnot
      image.result hload
  obtain ⟨blank, gap, hblank, hgap, hsep⟩ := e.gap₁.1.lines.split hmagic.1 hmagic.2
  unfold Encoding.text at hload
  rw [hsep, List.append_assoc, List.cons_append, loadPgm_of_clean e.body.magic_eq n hblank] at hload
  have hfrom := e.loadBody_eq_returned_iff.mp hload
  -- the width
  have hwidth := hfrom.shown hgap e.numeral_width rfl (Or.inl ⟨rfl, rfl⟩) e.left_afterWidth
    (by decide) (Gap.start_append e.gap₂ _)
  have hwidth' : Shown (e.sep₁ ++ e.width) image.width := by
    rw [hsep, List.append_assoc, List.cons_append]
    exact hwidth.clean hblank
  obtain ⟨gap', digits, happend, hgap', hclosed', hdigits⟩ := hwidth
  rw [← List.append_assoc, happend, List.append_assoc] at hfrom
  -- the height
  obtain ⟨hheight, hclean⟩ := hfrom.height hgap' hclosed' hdigits
  obtain ⟨height, hdecimal, hsize⟩ := e.gather_of_shown hgap' hclosed' hdigits hheight hclean
  obtain ⟨tokens, g, hgather, -, hint, hpixels⟩ := hfrom
  obtain ⟨rfl, rfl⟩ := Prod.mk.inj (gather_unique hgather hsize)
  have hhead : e.sep₃.head? ≠ some 35 := by
    intro hhead
    obtain ⟨w, others, hwords, hw⟩ :=
      words_height_of_comment hdecimal (e.maxval ++ e.body.text) hhead
    unfold Encoding.afterHeight at hint
    rw [hwords] at hint
    exact hash_notMem_of_int hint hw
  -- the greatest value, and the samples
  have hmaxval := e.maxval_shown hpixels
  exact ⟨hmagic, ⟨hwidth', hclean⟩, ⟨hheight, hhead⟩, hmaxval,
    (e.loadPixels_iff hmaxval).mp hpixels⟩

/-- **Which files are decoded.** For every image, and every way of writing it down that the
format allows: those that are laid out in lines, and no others. -/
theorem loads_iff (e : Encoding image) : e.Loads ↔ e.LineOriented := by
  refine ⟨Encoding.Loads.lineOriented, ?_⟩
  rintro ⟨⟨hmem, hclean₁⟩, ⟨⟨gap₁, digits, happend, hgap₁, hclosed₁, hdigits⟩, hclean₂⟩,
    ⟨hheight, hhead⟩, hmaxval, hreadable⟩
  -- the line of the magic number ends in front of the digits of the width
  have hmem₁ : newline ∈ gap₁ := by
    have hmem' : newline ∈ gap₁ ++ digits := happend ▸ List.mem_append_left e.width hmem
    exact (List.mem_append.mp hmem').resolve_right (hdigits.notMem (by decide))
  have hclean₁' : (35 : Byte) ∉ lineOf gap₁ := by
    rwa [← (line_append_of_mem hmem₁ digits).1, ← happend, (line_append_of_mem hmem e.width).1]
  obtain ⟨blank, gap, hblank, hgap, rfl⟩ := hgap₁.split hmem₁ hclean₁'
  rw [lastLine_append] at hclosed₁
  have htext : e.text =
      e.body.magic ++ (blank ++ newline :: (gap ++ (digits ++ e.afterWidth))) := by
    unfold Encoding.text
    rw [← List.append_assoc e.sep₁, happend]
    simp
  obtain ⟨height, hdecimal, hsize⟩ := e.gather_of_shown hgap hclosed₁ hdigits hheight hclean₂
  obtain ⟨others, hwords⟩ :=
    words_height hdecimal (e.maxval ++ e.body.text) e.gap₃.1.lines e.gap₃.2 hhead
  -- the loop for the size needs two lines at most
  refine ⟨1, ?_⟩
  rw [htext, loadPgm_of_clean e.body.magic_eq 1 hblank]
  refine e.loadBody_eq_returned_iff.mpr ⟨_, _, hsize, hdigits.int_eq, ?_,
    (e.loadPixels_iff hmaxval).mpr hreadable⟩
  unfold Encoding.afterHeight
  rw [hwords]
  exact hdecimal.int_eq

/-- Two samples. -/
def Image.pair (maxval : ℕ) (h₁ : 7 ≤ maxval) (h₂ : maxval ≤ 65535) : Image where
  width := 2
  height := 1
  maxval := maxval
  samples := [3, 7]
  one_le_width := by decide
  one_le_height := by decide
  one_le_maxval := le_trans (by decide) h₁
  maxval_le := h₂
  length_samples := rfl
  le_maxval := List.forall_mem_cons.mpr
    ⟨le_trans (by decide) h₁, List.forall_mem_singleton.mpr h₁⟩

theorem numeral_of_digits {token : List Byte} {n : ℕ} (hne : token ≠ [])
    (hdigits : ∀ b ∈ token, IsDigit b) (hvalue : valueFrom 0 token = n) : Numeral token n :=
  Decimal.numeral ⟨hne, hdigits, hvalue⟩

theorem gap_singleton {b : Byte} (hb : IsWhite b) : Gap [b] ∧ [b] ≠ [] :=
  ⟨.white hb .nil, List.cons_ne_nil b []⟩

/-- Two samples of one byte, with the whole header on one line. -/
def Encoding.oneLine : Encoding (Image.pair 255 (by decide) (by decide)) where
  sep₁ := [32]
  width := [50]
  sep₂ := [32]
  height := [49]
  sep₃ := [32]
  maxval := [50, 53, 53]
  body := .raw newline (by decide)
  gap₁ := gap_singleton (by decide)
  numeral_width := numeral_of_digits (by decide) (by decide) rfl
  gap₂ := gap_singleton (by decide)
  numeral_height := numeral_of_digits (by decide) (by decide) rfl
  gap₃ := gap_singleton (by decide)
  numeral_maxval := numeral_of_digits (by decide) (by decide) rfl

/-- Two samples of two bytes, with the header on three lines. -/
def Encoding.twoBytes : Encoding (Image.pair 256 (by decide) (by decide)) where
  sep₁ := [newline]
  width := [50]
  sep₂ := [32]
  height := [49]
  sep₃ := [newline]
  maxval := [50, 53, 54]
  body := .raw newline (by decide)
  gap₁ := gap_singleton (by decide)
  numeral_width := numeral_of_digits (by decide) (by decide) rfl
  gap₂ := gap_singleton (by decide)
  numeral_height := numeral_of_digits (by decide) (by decide) rfl
  gap₃ := gap_singleton (by decide)
  numeral_maxval := numeral_of_digits (by decide) (by decide) rfl

/-- The first is taken for a file of an unknown format. Of the second, each byte is taken for
a sample. -/
theorem oneLine_twoBytes_lost : ¬ Encoding.oneLine.Loads ∧ ¬ Encoding.twoBytes.Loads := by
  refine ⟨?_, ?_⟩
  · rintro ⟨n, hload⟩
    exact absurd (hload : loadPgm n _ = _) (by
      change Outcome.raised _ ≠ _
      exact fun h => nomatch h)
  · rintro ⟨n, hload⟩
    -- the loop needs no iteration here, whatever the bound
    have hfour : loadPgm n Encoding.twoBytes.text = .returned ⟨2, 1, 256, [0, 3]⟩ := by
      cases n with
      | zero => rfl
      | succ n => rfl
    rw [hfour] at hload
    exact absurd (congrArg Pgm.pixels (Outcome.returned.inj hload)) (by decide)

end FakePcd
end WtbAutoware
