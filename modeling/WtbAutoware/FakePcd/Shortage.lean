import WtbAutoware.FakePcd.Payload

/-!
# Numbers that are passed over

A reader of lines can miss a number of the header. It takes the three numbers that it needs from
the lines that it does not skip, so once it has missed one, it needs more of them than the header
has left, and goes on to take them from the samples. Then it is too late
(`Body.pixels_ne_of_enters`).

`Left body k text` says that at most `k` numbers of the header are still in `text`, and none of
them if it is `Past body text`. A line holds no more words that can be numbers than numbers of
the header (`Left.line`), so what is needed and what is left do not come closer while lines are
read (`Left.gather`).

A comment among the digits of a number may end its line. If the line is passed over, the rest of
the digits are read, which are the number only if those in front are zero (`Numeral.skipped`).
-/

namespace WtbAutoware
namespace FakePcd

open Text

variable {image : Image} {body : Body image}

/-! ### Behind the numbers -/

/-- Whitespace follows the greatest value. -/
theorem Body.exists_space (body : Body image) :
    ∃ b text, isSpace b = true ∧ body.text = b :: text := by
  cases body with
  | plain sep raster hne hwhite _ =>
    obtain ⟨b, sep, rfl⟩ := List.exists_cons_of_ne_nil hne
    exact ⟨b, sep ++ raster, (hwhite b List.mem_cons_self).isSpace, rfl⟩
  | raw delimiter hwhite => exact ⟨delimiter, image.raster, hwhite.isSpace, rfl⟩

/-- Text that has a word in it goes into the samples. -/
theorem Body.enters_of_words {front back : List Byte} (htext : body.text = front ++ back)
    (hwords : words front ≠ []) : body.Enters front := by
  cases body with
  | plain => exact hwords
  | raw delimiter hwhite =>
    -- the delimiter alone has none
    change 2 ≤ front.length
    rcases front with _ | ⟨b, _ | ⟨c, front⟩⟩
    · exact absurd words_nil hwords
    · obtain rfl : delimiter = b := (List.cons.inj htext).1
      refine absurd ?_ hwords
      rw [← List.nil_append [delimiter], words_append_space hwhite.isSpace, words_nil,
        List.nil_append]
    · exact Nat.le_add_left 2 front.length

/-- There are no numbers in front of the samples any more, or some of these have been read. -/
def Past (body : Body image) (text : List Byte) : Prop :=
  (∃ gap, GapLines gap ∧ text = gap ++ body.text) ∨
    ∃ front, front ≠ [] ∧ body.text = front ++ text ∧
      (text = [] ∨ ∃ init, front = init ++ [newline])

theorem past_text (body : Body image) : Past body body.text :=
  Or.inl ⟨[], gapLines_nil, rfl⟩

theorem past_afterLine_text (body : Body image) : Past body (Text.afterLine body.text) := by
  obtain ⟨stop, hstop, htext⟩ := exists_lineEnd body.text
  refine Or.inr ⟨lineOf body.text ++ stop, ?_, htext, ?_⟩
  · intro hnil
    rcases hstop with rfl | ⟨-, hafter⟩
    · exact absurd hnil (by simp)
    · obtain ⟨b, text, -, hcons⟩ := body.exists_space
      rw [hnil, hafter, hcons] at htext
      exact List.cons_ne_nil b text htext
  · rcases hstop with rfl | ⟨-, hafter⟩
    · exact Or.inr ⟨_, rfl⟩
    · exact Or.inl hafter

theorem Past.afterLine {text : List Byte} (h : Past body text) :
    Past body (Text.afterLine text) := by
  rcases h with ⟨gap, hgap, rfl⟩ | ⟨front, hne, htext, -⟩
  · cases hgap with
    | last hblank =>
      rw [afterLine_append (newline_notMem_of_blank hblank)]
      exact past_afterLine_text body
    | lastComment hblank hcomment =>
      rw [afterLine_append (newline_notMem_of_comment hblank hcomment)]
      exact past_afterLine_text body
    | clean hblank hrest => exact Or.inl ⟨_, hrest, (line_of_clean hblank _ _).2⟩
    | comment hblank hcomment hrest =>
      exact Or.inl ⟨_, hrest, (line_of_comment hblank hcomment _ _).2⟩
  · -- among the samples
    obtain ⟨stop, hstop, hline⟩ := exists_lineEnd text
    refine Or.inr ⟨front ++ (lineOf text ++ stop), List.append_ne_nil_of_left_ne_nil hne _, ?_, ?_⟩
    · rw [List.append_assoc, ← hline]
      exact htext
    · rcases hstop with rfl | ⟨-, hafter⟩
      · exact Or.inr ⟨front ++ lineOf text, by rw [List.append_assoc]⟩
      · exact Or.inl hafter

theorem words_of_isData {line : List Byte} (h : IsData line) : words line ≠ [] := by
  rw [← words_strip]
  exact words_strip_ne_nil fun hnil => h (Or.inl hnil)

/-- What is read there goes into the samples. -/
theorem Past.read {text : List Byte} (h : Past body text)
    (hsome : (nextTokens (splitLines text)).1 ≠ []) :
    ∃ front back, (nextTokens (splitLines text)).2 = splitLines back ∧
      body.text = front ++ back ∧ (back = [] ∨ ∃ init, front = init ++ [newline]) ∧
      body.Enters front := by
  induction hlen : text.length using Nat.strong_induction_on generalizing text with
  | _ n ih =>
    by_cases hdata : IsData (lineOf text)
    · -- the first line is read
      rw [nextTokens_take hdata]
      obtain ⟨stop, hstop, hline⟩ := exists_lineEnd text
      have hwords := words_of_isData hdata
      rcases h with ⟨gap, hgap, rfl⟩ | ⟨front, -, htext, hfront⟩
      · -- in a gap, only the last line can be one of data, and it is blank up to the samples
        cases hgap with
        | @last blank hblank =>
          have hnewline := newline_notMem_of_blank hblank
          rw [lineOf_append hnewline, words_blank_append (isSpace_of_blank hblank)] at hwords
          obtain ⟨stop', hstop', htext⟩ := exists_lineEnd body.text
          refine ⟨lineOf body.text ++ stop', Text.afterLine body.text,
            congrArg splitLines (afterLine_append hnewline _), htext, ?_,
            Body.enters_of_words htext ?_⟩
          · rcases hstop' with rfl | ⟨-, hafter⟩
            · exact Or.inr ⟨_, rfl⟩
            · exact Or.inl hafter
          · rwa [words_append_blank (isSpace_of_stop hstop')]
        | @lastComment blank comment hblank hcomment =>
          rw [lineOf_append (newline_notMem_of_comment hblank hcomment), List.append_assoc,
            List.cons_append] at hdata
          exact absurd hdata (not_isData_comment hblank _)
        | clean hblank _ =>
          rw [(line_of_clean hblank _ _).1] at hdata
          exact absurd hdata (not_isData_blank hblank)
        | comment hblank hcomment _ =>
          rw [(line_of_comment hblank hcomment _ _).1] at hdata
          exact absurd hdata (not_isData_comment hblank _)
      · -- among the samples
        have htotal : body.text = front ++ (lineOf text ++ stop) ++ Text.afterLine text := by
          rw [List.append_assoc, ← hline]
          exact htext
        refine ⟨_, _, rfl, htotal, ?_, Body.enters_of_words htotal ?_⟩
        · rcases hstop with rfl | ⟨-, hafter⟩
          · exact Or.inr ⟨front ++ lineOf text, by rw [List.append_assoc]⟩
          · exact Or.inl hafter
        · have hfront' : lineOf text ++ stop = [] ∨ ∃ init, front = init ++ [newline] := by
            refine hfront.imp_left fun hnil => ?_
            rw [hnil] at hdata
            exact absurd hdata (not_isData_blank blank_nil)
          rw [words_append_line hfront', words_append_blank (isSpace_of_stop hstop)]
          exact List.append_ne_nil_of_right_ne_nil _ hwords
    · rw [nextTokens_skip hdata] at hsome ⊢
      have hne : text ≠ [] := by
        rintro rfl
        exact hsome rfl
      exact ih _ (hlen ▸ length_afterLine_lt hne) h.afterLine hsome rfl

/-- **Too late for the greatest value.** -/
theorem Past.loadPixels_ne {text : List Byte} (h : Past body text) :
    loadPixels body.magic image.width image.height (splitLines text) ≠ .returned image.result := by
  intro hload
  obtain ⟨token, others, _, pixels, hnext, -, hpixels, hresult⟩ := loadPixels_eq_returned.mp hload
  obtain ⟨front, back, hrest, htext, hline, henters⟩ :=
    h.read (hnext ▸ List.cons_ne_nil token others)
  have hsamples : pixels = image.samples.map fun s : ℕ => (s : ℤ) := congrArg Pgm.pixels hresult
  rw [hrest, FakePcd.read, flatten_splitLines, hsamples] at hpixels
  exact body.pixels_ne_of_enters htext hline henters hpixels

/-! ### Words without a comment -/

/-- The tokens in front of the first that has a `#` in it. -/
def hashFree (tokens : List (List Byte)) : ℕ :=
  (tokens.takeWhile fun w => (35 : Byte) ∉ w).length

theorem hashFree_of_mem {w : List Byte} (h : (35 : Byte) ∈ w) (others : List (List Byte)) :
    hashFree (w :: others) = 0 := by
  unfold hashFree
  rw [List.takeWhile_cons_of_neg (by simpa using h), List.length_nil]

theorem hashFree_of_notMem {w : List Byte} (h : (35 : Byte) ∉ w) (others : List (List Byte)) :
    hashFree (w :: others) = hashFree others + 1 := by
  unfold hashFree
  rw [List.takeWhile_cons_of_pos (by simpa using h), List.length_cons]

theorem hashFree_comment {blank : List Byte} (h : ∀ b ∈ blank, IsWhite b ∧ b ≠ newline)
    (text : List Byte) : hashFree (words (blank ++ 35 :: text)) = 0 := by
  obtain ⟨w, others, hwords, hw⟩ := exists_hash_comment text
  rw [words_blank_append (isSpace_of_blank h), hwords, hashFree_of_mem hw]

theorem le_hashFree {tokens : List (List Byte)} {m : ℕ}
    (h : ∀ w ∈ tokens.take m, (35 : Byte) ∉ w) : min m tokens.length ≤ hashFree tokens := by
  induction tokens generalizing m with
  | nil => exact (Nat.min_le_right _ _).trans (Nat.zero_le _)
  | cons w tokens ih =>
    cases m with
    | zero => exact (Nat.min_le_left _ _).trans (Nat.zero_le _)
    | succ m =>
      rw [List.take_succ_cons] at h
      obtain ⟨hw, htokens⟩ := List.forall_mem_cons.mp h
      rw [hashFree_of_notMem hw, List.length_cons, Nat.add_min_add_right]
      exact Nat.succ_le_succ (ih htokens)

/-- Bytes in front of a text that have no space among them make at most one more word. -/
theorem hashFree_words_append {word : List Byte} (h : ∀ b ∈ word, isSpace b = false)
    (text : List Byte) :
    hashFree (words (word ++ text)) ≤ hashFree (words text) + 1 := by
  by_cases hne : word = []
  · rw [hne, List.nil_append]
    exact Nat.le_succ _
  · rw [words_append h hne]
    by_cases hhash : (35 : Byte) ∈ word ++ text.takeWhile fun b => !isSpace b
    · rw [hashFree_of_mem hhash]
      exact Nat.zero_le _
    · rw [hashFree_of_notMem hhash]
      refine Nat.succ_le_succ ?_
      -- the first word of the text is joined to those bytes, and its others are as they were
      cases text with
      | nil => exact le_rfl
      | cons b text =>
        by_cases hb : isSpace b = true
        · rw [List.dropWhile_cons_of_neg (by simpa using hb)]
        · have hb' : isSpace b = false := Bool.eq_false_iff.mpr hb
          rw [List.takeWhile_cons_of_pos (by simpa using hb')] at hhash
          have hwords := words_append (List.forall_mem_singleton.mpr hb') (List.cons_ne_nil b [])
            text
          rw [List.singleton_append] at hwords
          rw [List.dropWhile_cons_of_pos (by simpa using hb'), hwords, hashFree_of_notMem]
          · exact Nat.le_succ _
          · exact fun hmem => hhash (List.mem_append_right word hmem)

/-! ### Numbers that are left -/

/-- At most so many numbers of the header are left in a text. Of the first of them, a part may be
gone. -/
inductive Left (body : Body image) : ℕ → List Byte → Prop where
  | past {text : List Byte} : Past body text → Left body 0 text
  | number {gap piece token rest : List Byte} {k : ℕ} : GapLines gap → Spelled piece token →
      Left body k rest → Left body (k + 1) (gap ++ (piece ++ rest))

theorem Left.piece {piece token rest : List Byte} {k : ℕ} (hpiece : Spelled piece token)
    (h : Left body k rest) : Left body (k + 1) (piece ++ rest) :=
  .number gapLines_nil hpiece h

/-- Behind the line of a number. -/
theorem Spelled.left_afterLine {piece token rest : List Byte} {k k' : ℕ}
    (hpiece : Spelled piece token) (h : Left body k rest)
    (hafter : Left body k' (Text.afterLine rest)) (hle : k' ≤ k) :
    ∃ k'' ≤ k + 1, Left body k'' (Text.afterLine (piece ++ rest)) := by
  by_cases hmem : newline ∈ piece
  · obtain ⟨line, piece', token', rfl, hline, hpiece'⟩ := hpiece.exists_newline hmem
    rw [List.append_assoc, List.cons_append, afterLine_append hline, afterLine_newline]
    exact ⟨k + 1, le_rfl, h.piece hpiece'⟩
  · rw [afterLine_append hmem]
    exact ⟨k', hle.trans (Nat.le_succ k), hafter⟩

/-- **A line uses up a number for each word** that could be one, or else the samples are
reached. -/
theorem Left.line {k : ℕ} {text : List Byte} (h : Left body k text) :
    ∃ k' ≤ k, Left body k' (Text.afterLine text) ∧
      (k' = 0 ∨ hashFree (words (lineOf text)) + k' ≤ k) := by
  induction h with
  | past h => exact ⟨0, le_rfl, .past h.afterLine, Or.inl rfl⟩
  | @number gap piece token rest k hgap hpiece hrest ih =>
    obtain ⟨k₁, hk₁, hafter, hcount⟩ := ih
    obtain ⟨k₂, hk₂, hafter'⟩ := hpiece.left_afterLine hrest hafter hk₁
    cases hgap with
    | @last blank hblank =>
      have hnewline := newline_notMem_of_blank hblank
      rw [afterLine_append hnewline, lineOf_append hnewline,
        words_blank_append (isSpace_of_blank hblank)]
      by_cases hhash : (35 : Byte) ∈ piece
      · -- a comment follows the first digits, and whatever is on the line behind it does not count
        obtain ⟨w, others, hwords, hw⟩ := hpiece.exists_hash hhash rest
        rw [hwords, hashFree_of_mem hw]
        exact ⟨k₂, hk₂, hafter', Or.inr (by omega)⟩
      · -- the digits make one word
        obtain rfl := hpiece.eq_of_notMem hhash
        have hspace : ∀ b ∈ piece, isSpace b = false := fun b hb =>
          (hpiece.digits b hb).not_isSpace
        have hfront : newline ∉ piece := fun hmem => absurd (hspace newline hmem) (by decide)
        rw [afterLine_append hfront, lineOf_append hfront]
        have hword := hashFree_words_append hspace (lineOf rest)
        exact ⟨k₁, hk₁.trans (Nat.le_succ k), hafter, hcount.imp_right fun hle => by omega⟩
    | @lastComment blank text hblank htext =>
      -- the line is a comment, with the number on it
      have hnewline := newline_notMem_of_comment hblank htext
      rw [afterLine_append hnewline, lineOf_append hnewline, List.append_assoc, List.cons_append,
        hashFree_comment hblank]
      exact ⟨k₂, hk₂, hafter', Or.inr (by omega)⟩
    | @clean blank gap hblank hgap =>
      obtain ⟨hline, hafter''⟩ := line_of_clean hblank gap (piece ++ rest)
      rw [hline, hafter'', words_blank (isSpace_of_blank hblank)]
      exact ⟨k + 1, le_rfl, .number hgap hpiece hrest, Or.inr (by simp [hashFree])⟩
    | @comment blank text gap hblank htext hgap =>
      obtain ⟨hline, hafter''⟩ := line_of_comment hblank htext gap (piece ++ rest)
      rw [hline, hafter'', hashFree_comment hblank]
      exact ⟨k + 1, le_rfl, .number hgap hpiece hrest, Or.inr (by omega)⟩

/-- So do the next tokens. -/
theorem Left.nextTokens {k : ℕ} {text : List Byte} (h : Left body k text) :
    ∃ k' ≤ k, ∃ text', (FakePcd.nextTokens (splitLines text)).2 = splitLines text' ∧
      Left body k' text' ∧
      (k' = 0 ∨ hashFree (FakePcd.nextTokens (splitLines text)).1 + k' ≤ k) := by
  induction hlen : text.length using Nat.strong_induction_on generalizing k text with
  | _ n ih =>
    by_cases hne : text = []
    · rw [hne] at h ⊢
      exact ⟨k, le_rfl, [], rfl, h, Or.inr (Nat.zero_add k).le⟩
    · obtain ⟨k₁, hk₁, hafter, hcount⟩ := h.line
      by_cases hdata : IsData (lineOf text)
      · rw [nextTokens_take hdata]
        exact ⟨k₁, hk₁, Text.afterLine text, rfl, hafter, hcount⟩
      · -- a line that is skipped gives no tokens
        rw [nextTokens_skip hdata]
        obtain ⟨k₂, hk₂, text', hrest, hleft, hcount'⟩ :=
          ih _ (hlen ▸ length_afterLine_lt hne) hafter rfl
        exact ⟨k₂, hk₂.trans hk₁, text', hrest, hleft, hcount'.imp_right (le_trans · hk₁)⟩

/-- **Too few numbers.** If there are not three of them, counting those that have been read, the
loop for width and height ends among the samples. -/
theorem Left.gather {n : ℕ} {tokens tokens' : List (List Byte)} {k : ℕ} {text : List Byte}
    {g : File} (h : Left body k text) (hfew : k = 0 ∨ tokens.length + k < 3)
    (hgather : FakePcd.gather n tokens (splitLines text) = .returned (tokens', g))
    (h₀ : (35 : Byte) ∉ tokens'.getD 0 []) (h₁ : (35 : Byte) ∉ tokens'.getD 1 []) :
    ∃ text', g = splitLines text' ∧ Past body text' := by
  induction n generalizing tokens k text with
  | zero =>
    unfold FakePcd.gather at hgather
    split at hgather
    · next hdone =>
      obtain ⟨-, rfl⟩ := Prod.mk.inj (Outcome.returned.inj hgather)
      obtain rfl : k = 0 := by omega
      cases h with
      | past hpast => exact ⟨text, rfl, hpast⟩
    · cases hgather
  | succ n ih =>
    unfold FakePcd.gather at hgather
    split at hgather
    · next hdone =>
      obtain ⟨-, rfl⟩ := Prod.mk.inj (Outcome.returned.inj hgather)
      obtain rfl : k = 0 := by omega
      cases h with
      | past hpast => exact ⟨text, rfl, hpast⟩
    · next hmore =>
      obtain ⟨k', hk', text', hrest, hleft, hcount⟩ := h.nextTokens
      dsimp only at hgather
      rw [hrest] at hgather
      refine ih hleft ?_ hgather
      by_contra hnot
      obtain ⟨hpos, hmany⟩ := not_or.mp hnot
      -- the first two tokens are numbers, so each of those read now has used one up
      have hfree : ∀ w ∈ (FakePcd.nextTokens (splitLines text)).1.take (2 - tokens.length),
          (35 : Byte) ∉ w := by
        intro w hw
        have hw' : w ∈ (tokens ++ (FakePcd.nextTokens (splitLines text)).1).take 2 := by
          rw [List.take_append]
          exact List.mem_append_right _ hw
        rcases getD_of_mem_take hw' (prefix_of_gather hgather) with rfl | rfl
        · exact h₀
        · exact h₁
      have hmin := le_hashFree hfree
      rw [List.length_append] at hmany
      omega

/-! ### A number that is cut -/

/-- Digits are read as their number, unless a comment is among them or joined to them. -/
theorem Spelled.exists_other {piece token rest : List Byte} (n : ℕ) (h : Spelled piece token)
    (hdigit : ∃ b text, piece = b :: text ∧ IsDigit b)
    (hstart : ∃ b text, rest = b :: text ∧ (isSpace b = true ∨ b = 35))
    (hother : ¬ Decimal piece n) :
    ∃ t others, (FakePcd.nextTokens (splitLines (piece ++ rest))).1 = t :: others ∧
      int t ≠ some (n : ℤ) := by
  have hnumeral : Numeral piece (valueFrom 0 token) := ⟨⟨token, h, rfl⟩, hdigit⟩
  have hnext := nextTokens_number gapLines_nil (by decide) hnumeral rest
  rw [List.nil_append] at hnext
  rw [hnext]
  by_cases hhash : (35 : Byte) ∈ piece
  · obtain ⟨w, others, hwords, hw⟩ := h.exists_hash hhash rest
    exact ⟨w, others, hwords, fun hint => hash_notMem_of_int hint hw⟩
  · have hdecimal := hnumeral.decimal hhash
    have hvalue : valueFrom 0 token ≠ n := fun heq => hother (heq ▸ hdecimal)
    obtain ⟨c, text, rfl, hc⟩ := hstart
    dsimp only
    rw [(hdecimal.line _).1]
    by_cases hspace : isSpace c = true
    · obtain ⟨others, hwords⟩ := words_number_line hdecimal hspace text
      refine ⟨piece, others, hwords, ?_⟩
      rw [hdecimal.int_eq]
      exact fun heq => hvalue (Int.ofNat_inj.mp (Option.some.inj heq))
    · obtain rfl := hc.resolve_left hspace
      rw [lineOf_cons (by decide)]
      obtain ⟨w, others, hwords, hw⟩ := exists_hash_word hdecimal.isSpace_eq (lineOf text)
      exact ⟨w, others, hwords, fun hint => hash_notMem_of_int hint hw⟩

/-- Behind a part of a number that is passed over, what is read next is another number, or what
follows, unless the rest of the digits are the number. -/
theorem Spelled.skipped {piece token rest : List Byte} {k : ℕ} (n : ℕ)
    (hpiece : Spelled piece token) (hrest : Left body k rest)
    (hstart : ∃ b text, rest = b :: text ∧ (isSpace b = true ∨ b = 35)) (hshown : ¬ Shown piece n) :
    (∃ t others, (FakePcd.nextTokens (splitLines (piece ++ rest))).1 = t :: others ∧
        int t ≠ some (n : ℤ)) ∨
      ∃ k' ≤ k, ∃ text, Left body k' text ∧
        FakePcd.nextTokens (splitLines (piece ++ rest)) =
          FakePcd.nextTokens (splitLines text) := by
  induction hlen : piece.length using Nat.strong_induction_on generalizing piece token with
  | _ m ih =>
    cases hpiece with
    | nil => exact Or.inr ⟨k, le_rfl, rest, hrest, rfl⟩
    | @digit b piece token hb hspelled =>
      exact Or.inl ((Spelled.digit hb hspelled).exists_other n ⟨b, piece, rfl, hb⟩ hstart
        fun hdecimal => hshown ⟨[], _, rfl, gapLines_nil, by decide, hdecimal⟩)
    | @comment text piece token stop htext hstop hspelled =>
      have hwhole := Spelled.comment htext hstop hspelled
      have hline : lineOf (35 :: (text ++ stop :: piece) ++ rest) =
          35 :: lineOf (text ++ stop :: piece ++ rest) := lineOf_cons (by decide) _
      have hskip : ¬ IsData (lineOf (35 :: (text ++ stop :: piece) ++ rest)) := by
        rw [hline]
        exact @not_isData_comment [] blank_nil _
      rw [nextTokens_skip hskip]
      by_cases hmem : newline ∈ 35 :: (text ++ stop :: piece)
      · -- the line of the comment ends, and some of the number follows
        obtain ⟨line, piece', token', heq, hnewline, hpiece'⟩ := hwhole.exists_newline hmem
        have hafter : Text.afterLine (line ++ newline :: piece' ++ rest) = piece' ++ rest := by
          rw [List.append_assoc, afterLine_append hnewline]
          exact afterLine_newline _
        have hopen : ∃ line', line = 35 :: line' := by
          cases line with
          | nil => exact absurd (List.cons.inj heq).1 (by decide)
          | cons b line => exact ⟨line, congrArg (· :: line) (List.cons.inj heq).1.symm⟩
        obtain ⟨line, rfl⟩ := hopen
        rw [heq] at hshown hlen ⊢
        rw [hafter]
        refine ih _ ?_ hpiece' (fun hrest => hshown ?_) rfl
        · simp only [← hlen, List.length_append, List.length_cons]
          omega
        · exact @Shown.comment _ _ hrest [] _ blank_nil fun hmem =>
            hnewline (List.mem_cons_of_mem _ hmem)
      · -- all of it is on that line
        rw [afterLine_append hmem]
        obtain ⟨k', hk', hleft, -⟩ := hrest.line
        exact Or.inr ⟨k', hk', _, hleft, rfl⟩

/-- **A number that is passed over is not read**, unless its digits go on behind a newline and
those that do are the number. -/
theorem Numeral.skipped {text rest : List Byte} {k n : ℕ} (h : Numeral text n)
    (hrest : Left body k rest)
    (hstart : ∃ b text, rest = b :: text ∧ (isSpace b = true ∨ b = 35)) :
    (∃ t others, (nextTokens (splitLines (Text.afterLine (text ++ rest)))).1 = t :: others ∧
        int t ≠ some (n : ℤ)) ∨
      (∃ k' ≤ k, ∃ text', Left body k' text' ∧
        nextTokens (splitLines (Text.afterLine (text ++ rest))) =
          nextTokens (splitLines text')) ∨
      ∃ line digits, text = line ++ newline :: digits ∧ newline ∉ line ∧ Shown digits n := by
  by_cases hmem : newline ∈ text
  · obtain ⟨token, hspelled, -⟩ := h.spelled
    obtain ⟨line, piece, token, rfl, hline, hpiece⟩ := hspelled.exists_newline hmem
    by_cases hshown : Shown piece n
    · exact Or.inr (Or.inr ⟨line, piece, rfl, hline, hshown⟩)
    · rw [List.append_assoc, List.cons_append, afterLine_append hline, afterLine_newline]
      exact (hpiece.skipped n hrest hstart hshown).imp_right Or.inl
  · rw [afterLine_append hmem]
    obtain ⟨k', hk', hleft, -⟩ := hrest.line
    exact Or.inr (Or.inl ⟨k', hk', _, hleft, rfl⟩)

end FakePcd
end WtbAutoware
