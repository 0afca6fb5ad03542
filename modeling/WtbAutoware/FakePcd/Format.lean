import Mathlib.Data.List.Forall2
import WtbAutoware.FakePcd.Pgm

/-!
# The image format

What a PGM file is, whatever `load_pgm` makes of it. A file starts with a magic number, the
width, the height and the greatest value. They are decimal numbers, and between any two of
them there is whitespace (`Gap`). Then come the samples: after a single whitespace byte, as one
or two bytes each, or after any whitespace, as decimal numbers.

Up to that whitespace, the format ignores what goes from a `#` to the next carriage return or
newline, which are part of the comment. Such a comment may stand between two numbers, behind the
greatest value, and even among the digits of a number (`Numeral`). Whether its end counts as
whitespace is left open: a gap may be made of comments alone.

An `Image` keeps its samples in range, and an `Encoding` of it is one way of writing it
down. To `int`, a decimal number is its value (`Decimal.int_eq`), and what has a `#` in it
is no number (`int_eq_none`). `GapLines` is a gap as a reader of lines sees it, and a number is
`Shown` to it if its digits follow such lines.
-/

namespace WtbAutoware
namespace FakePcd

open Text

/-! ### Images -/

/-- A map image. -/
structure Image where
  width : ℕ
  height : ℕ
  maxval : ℕ
  samples : List ℕ
  one_le_width : 1 ≤ width
  one_le_height : 1 ≤ height
  one_le_maxval : 1 ≤ maxval
  maxval_le : maxval ≤ 65535
  length_samples : samples.length = width * height
  le_maxval : ∀ s ∈ samples, s ≤ maxval

/-- What a reader should make of it. -/
def Image.result (image : Image) : Pgm :=
  ⟨image.width, image.height, image.maxval, image.samples.map fun s : ℕ => (s : ℤ)⟩

theorem Image.samples_ne_nil (image : Image) : image.samples ≠ [] := by
  intro h
  have hlength := image.length_samples
  rw [h, List.length_nil] at hlength
  exact absurd hlength.symm (Nat.mul_pos image.one_le_width image.one_le_height).ne'

/-! ### Numbers -/

/-- The digits `0` to `9`. -/
def IsDigit (b : Byte) : Prop := 48 ≤ b.toNat ∧ b.toNat ≤ 57

instance (b : Byte) : Decidable (IsDigit b) := inferInstanceAs (Decidable (_ ∧ _))

theorem IsDigit.not_isSpace {b : Byte} (h : IsDigit b) : isSpace b = false := by
  by_contra hspace
  have hlt : b.toNat < 48 := by
    simp only [isSpace, Bool.not_eq_false, Bool.or_eq_true, decide_eq_true_eq] at hspace
    rcases hspace with ((((rfl | rfl) | rfl) | rfl) | rfl) | rfl <;> decide
  exact absurd h.1 (Nat.not_le.mpr hlt)

/-- The value of these digits, behind others whose value is `front`. -/
def valueFrom (front : ℕ) (token : List Byte) : ℕ :=
  token.foldl (fun value b => 10 * value + (b.toNat - 48)) front

/-- A token of digits, and its value. -/
structure Decimal (token : List Byte) (n : ℕ) : Prop where
  ne_nil : token ≠ []
  digits : ∀ b ∈ token, IsDigit b
  value : valueFrom 0 token = n

theorem Decimal.notMem {token : List Byte} {n : ℕ} (h : Decimal token n) {b : Byte}
    (hb : b.toNat < 48) : b ∉ token := fun hmem =>
  absurd (h.digits b hmem).1 (Nat.not_le.mpr hb)

theorem Decimal.isSpace_eq {token : List Byte} {n : ℕ} (h : Decimal token n) :
    ∀ b ∈ token, isSpace b = false := fun b hb => (h.digits b hb).not_isSpace

/-- Digits are read one after the other. -/
theorem digitsFrom_eq {token : List Byte} (h : ∀ b ∈ token, IsDigit b)
    (need : Bool) (hneed : token = [] → need = false) (value : ℕ) :
    digitsFrom need value token = some (valueFrom value token) := by
  induction token generalizing need value with
  | nil =>
    rw [digitsFrom, hneed rfl]
    rfl
  | cons b token ih =>
    obtain ⟨hb, htoken⟩ := List.forall_mem_cons.mp h
    rw [digitsFrom, digit, if_pos (show 48 ≤ b.toNat ∧ b.toNat ≤ 57 from hb)]
    exact ih htoken false (fun _ => rfl) _

theorem Decimal.int_eq {token : List Byte} {n : ℕ} (h : Decimal token n) :
    int token = some (n : ℤ) := by
  have hdigits := digitsFrom_eq h.digits true (fun hnil => absurd hnil h.ne_nil) 0
  have hminus := h.notMem (b := 45) (by decide)
  have hplus := h.notMem (b := 43) (by decide)
  rw [h.value] at hdigits
  cases token with
  | nil => exact absurd rfl h.ne_nil
  | cons b token =>
    -- neither sign is a digit
    obtain ⟨hminus, -⟩ := not_or.mp (mt List.mem_cons.mpr hminus)
    obtain ⟨hplus, -⟩ := not_or.mp (mt List.mem_cons.mpr hplus)
    rw [int, if_neg (Ne.symm hminus), if_neg (Ne.symm hplus), hdigits]
    rfl

theorem digitsFrom_eq_none {token : List Byte} (h : (35 : Byte) ∈ token) (need : Bool)
    (value : ℕ) : digitsFrom need value token = none := by
  induction token generalizing need value with
  | nil => exact absurd h List.not_mem_nil
  | cons b token ih =>
    rw [digitsFrom]
    rcases List.mem_cons.mp h with rfl | hmem
    · -- `#` is no digit and no underscore
      rfl
    · -- any other byte is read, if it can be, and the `#` is still to come
      split
      · exact ih hmem false _
      · split
        · exact ih hmem true value
        · rfl

/-- No number has a `#` in it. -/
theorem int_eq_none {token : List Byte} (h : (35 : Byte) ∈ token) : int token = none := by
  cases token with
  | nil => rfl
  | cons b token =>
    -- a sign leaves the `#` to the digits
    have htail (hb : b ≠ 35) : (35 : Byte) ∈ token :=
      (List.mem_cons.mp h).resolve_left hb.symm
    rw [int]
    by_cases hminus : b = 45
    · rw [if_pos hminus, digitsFrom_eq_none (htail (by rw [hminus]; decide)), Option.map_none]
    · rw [if_neg hminus]
      by_cases hplus : b = 43
      · rw [if_pos hplus, digitsFrom_eq_none (htail (by rw [hplus]; decide)), Option.map_none]
      · rw [if_neg hplus, digitsFrom_eq_none h, Option.map_none]

theorem hash_notMem_of_int {token : List Byte} {value : ℤ} (h : int token = some value) :
    (35 : Byte) ∉ token := by
  intro hmem
  rw [int_eq_none hmem] at h
  cases h

/-! ### Whitespace and comments -/

/-- Space, tab, carriage return, newline, vertical tab and form feed. -/
def IsWhite (b : Byte) : Prop := b = 32 ∨ b = 9 ∨ b = 13 ∨ b = 10 ∨ b = 11 ∨ b = 12

instance (b : Byte) : Decidable (IsWhite b) := inferInstanceAs (Decidable (_ ∨ _))

theorem IsWhite.isSpace {b : Byte} (h : IsWhite b) : isSpace b = true := by
  rcases h with rfl | rfl | rfl | rfl | rfl | rfl <;> rfl

/-- A comment ends with a carriage return or a newline. -/
def IsStop (b : Byte) : Prop := b = 13 ∨ b = newline

instance (b : Byte) : Decidable (IsStop b) := inferInstanceAs (Decidable (_ ∨ _))

/-- Whitespace and comments. -/
inductive Gap : List Byte → Prop where
  | nil : Gap []
  | white {b : Byte} {gap : List Byte} : IsWhite b → Gap gap → Gap (b :: gap)
  | comment {text gap : List Byte} {stop : Byte} : (∀ b ∈ text, ¬ IsStop b) → IsStop stop →
      Gap gap → Gap (35 :: (text ++ stop :: gap))

/-- A gap line by line. A line is blank, or has a comment that whitespace may precede. What
follows the last newline is such a line as well, since a carriage return ends a comment, but not
the line. -/
inductive GapLines : List Byte → Prop where
  | last {blank : List Byte} : (∀ b ∈ blank, IsWhite b ∧ b ≠ newline) → GapLines blank
  | lastComment {blank text : List Byte} : (∀ b ∈ blank, IsWhite b ∧ b ≠ newline) →
      newline ∉ text → GapLines (blank ++ 35 :: text)
  | clean {blank gap : List Byte} : (∀ b ∈ blank, IsWhite b ∧ b ≠ newline) → GapLines gap →
      GapLines (blank ++ newline :: gap)
  | comment {blank text gap : List Byte} : (∀ b ∈ blank, IsWhite b ∧ b ≠ newline) →
      newline ∉ text → GapLines gap → GapLines (blank ++ 35 :: (text ++ newline :: gap))

theorem blank_nil : ∀ b ∈ ([] : List Byte), IsWhite b ∧ b ≠ newline := fun _ hb =>
  absurd hb List.not_mem_nil

theorem gapLines_nil : GapLines [] := .last blank_nil

theorem Gap.lines {gap : List Byte} (h : Gap gap) : GapLines gap := by
  induction h with
  | nil => exact gapLines_nil
  | @white b gap hb _ ih =>
    by_cases hnewline : b = newline
    · rw [hnewline]
      exact @GapLines.clean [] _ blank_nil ih
    · -- one more byte in front of the first line
      cases ih with
      | last hblank => exact .last (List.forall_mem_cons.mpr ⟨⟨hb, hnewline⟩, hblank⟩)
      | @lastComment blank _ hblank htext =>
        exact @GapLines.lastComment (b :: blank) _
          (List.forall_mem_cons.mpr ⟨⟨hb, hnewline⟩, hblank⟩) htext
      | @clean blank _ hblank hrest =>
        exact @GapLines.clean (b :: blank) _
          (List.forall_mem_cons.mpr ⟨⟨hb, hnewline⟩, hblank⟩) hrest
      | @comment blank _ _ hblank htext hrest =>
        exact @GapLines.comment (b :: blank) _ _
          (List.forall_mem_cons.mpr ⟨⟨hb, hnewline⟩, hblank⟩) htext hrest
  | @comment text gap stop htext hstop _ ih =>
    have hfront : newline ∉ text := fun hmem => htext newline hmem (Or.inr rfl)
    rcases hstop with rfl | rfl
    · -- what follows a carriage return is on the same line
      have hline {line : List Byte} (h : newline ∉ line) : newline ∉ text ++ 13 :: line :=
        fun hmem => (List.mem_append.mp hmem).elim hfront fun hmem =>
          (List.mem_cons.mp hmem).elim (by decide) h
      cases ih with
      | last hblank =>
        exact @GapLines.lastComment [] _ blank_nil
          (hline fun hmem => (hblank newline hmem).2 rfl)
      | @lastComment blank text' hblank htext' =>
        refine @GapLines.lastComment [] _ blank_nil
          (hline fun hmem => (List.mem_append.mp hmem).elim
            (fun hmem => (hblank newline hmem).2 rfl) fun hmem =>
              (List.mem_cons.mp hmem).elim (by decide) htext')
      | @clean blank rest hblank hrest =>
        have hgap := @GapLines.comment [] (text ++ 13 :: blank) rest blank_nil
          (hline fun hmem => (hblank newline hmem).2 rfl) hrest
        simpa using hgap
      | @comment blank text' rest hblank htext' hrest =>
        have hgap := @GapLines.comment [] (text ++ 13 :: (blank ++ 35 :: text')) rest blank_nil
          (hline fun hmem => (List.mem_append.mp hmem).elim
            (fun hmem => (hblank newline hmem).2 rfl) fun hmem =>
              (List.mem_cons.mp hmem).elim (by decide) htext') hrest
        simpa using hgap
    · exact @GapLines.comment [] _ _ blank_nil hfront ih

/-- A gap starts with whitespace or a comment. -/
theorem Gap.exists_start {gap : List Byte} (h : Gap gap) (hne : gap ≠ []) :
    ∃ b text, gap = b :: text ∧ (isSpace b = true ∨ b = 35) := by
  cases h with
  | nil => exact absurd rfl hne
  | white hb _ => exact ⟨_, _, rfl, Or.inl hb.isSpace⟩
  | comment _ _ _ => exact ⟨_, _, rfl, Or.inr rfl⟩

/-! ### Numbers with comments -/

/-- Digits, with comments among them. -/
inductive Spelled : List Byte → List Byte → Prop where
  | nil : Spelled [] []
  | digit {b : Byte} {piece token : List Byte} : IsDigit b → Spelled piece token →
      Spelled (b :: piece) (b :: token)
  | comment {text piece token : List Byte} {stop : Byte} : (∀ b ∈ text, ¬ IsStop b) →
      IsStop stop → Spelled piece token → Spelled (35 :: (text ++ stop :: piece)) token

/-- A number of the header. Comments may be among its digits, and behind them, but not in
front. -/
structure Numeral (text : List Byte) (n : ℕ) : Prop where
  spelled : ∃ token, Spelled text token ∧ valueFrom 0 token = n
  digit : ∃ b rest, text = b :: rest ∧ IsDigit b

theorem Spelled.digits {piece token : List Byte} (h : Spelled piece token) :
    ∀ b ∈ token, IsDigit b := by
  induction h with
  | nil => exact fun b hb => absurd hb List.not_mem_nil
  | digit hb _ ih => exact List.forall_mem_cons.mpr ⟨hb, ih⟩
  | comment _ _ _ ih => exact ih

/-- Without a comment, they are the digits. -/
theorem Spelled.eq_of_notMem {piece token : List Byte} (h : Spelled piece token)
    (hhash : (35 : Byte) ∉ piece) : piece = token := by
  induction h with
  | nil => rfl
  | digit _ _ ih => rw [ih fun hmem => hhash (List.mem_cons_of_mem _ hmem)]
  | comment _ _ _ _ => exact absurd List.mem_cons_self hhash

/-- The digits in front of the first comment. -/
theorem Spelled.exists_comment {piece token : List Byte} (h : Spelled piece token)
    (hhash : (35 : Byte) ∈ piece) :
    ∃ digits text, piece = digits ++ 35 :: text ∧ ∀ b ∈ digits, IsDigit b := by
  induction h with
  | nil => exact absurd hhash List.not_mem_nil
  | @digit b piece token hb _ ih =>
    have hne : (35 : Byte) ≠ b := by
      rintro rfl
      exact absurd hb (by decide)
    obtain ⟨digits, text, rfl, hdigits⟩ := ih ((List.mem_cons.mp hhash).resolve_left hne)
    exact ⟨b :: digits, text, rfl, List.forall_mem_cons.mpr ⟨hb, hdigits⟩⟩
  | comment _ _ _ _ => exact ⟨[], _, rfl, fun b hb => absurd hb List.not_mem_nil⟩

/-- A newline is in a comment, and more digits may follow. -/
theorem Spelled.exists_newline {piece token : List Byte} (h : Spelled piece token)
    (hmem : newline ∈ piece) :
    ∃ line piece' token', piece = line ++ newline :: piece' ∧ newline ∉ line ∧
      Spelled piece' token' := by
  induction h with
  | nil => exact absurd hmem List.not_mem_nil
  | @digit b piece token hb _ ih =>
    have hne : newline ≠ b := by
      rintro rfl
      exact absurd hb (by decide)
    obtain ⟨line, piece', token', rfl, hline, hspelled⟩ :=
      ih ((List.mem_cons.mp hmem).resolve_left hne)
    exact ⟨b :: line, piece', token', rfl, fun hmem => (List.mem_cons.mp hmem).elim hne hline,
      hspelled⟩
  | @comment text piece token stop htext hstop hpiece ih =>
    have hfront : newline ∉ 35 :: text := fun hmem =>
      (List.mem_cons.mp hmem).elim (by decide) fun hmem => htext newline hmem (Or.inr rfl)
    rcases hstop with rfl | rfl
    · -- the line goes on behind the comment
      have hmem' : newline ∈ piece := by
        rcases List.mem_append.mp (show newline ∈ (35 :: text) ++ 13 :: piece from hmem) with h | h
        · exact absurd h hfront
        · exact (List.mem_cons.mp h).resolve_left (by decide)
      obtain ⟨line, piece', token', rfl, hline, hspelled⟩ := ih hmem'
      refine ⟨35 :: (text ++ 13 :: line), piece', token', by simp, fun hmem => ?_, hspelled⟩
      rcases List.mem_append.mp (show newline ∈ (35 :: text) ++ 13 :: line from hmem) with h | h
      · exact hfront h
      · exact (List.mem_cons.mp h).elim (by decide) hline
    · exact ⟨35 :: text, piece, token, rfl, hfront, hpiece⟩

theorem Decimal.spelled {token : List Byte} (h : ∀ b ∈ token, IsDigit b) :
    Spelled token token := by
  induction token with
  | nil => exact .nil
  | cons b token ih =>
    obtain ⟨hb, htoken⟩ := List.forall_mem_cons.mp h
    exact .digit hb (ih htoken)

theorem Decimal.numeral {token : List Byte} {n : ℕ} (h : Decimal token n) : Numeral token n := by
  obtain ⟨b, rest, rfl⟩ := List.exists_cons_of_ne_nil h.ne_nil
  exact ⟨⟨_, Decimal.spelled h.digits, h.value⟩, b, rest, rfl, h.digits b List.mem_cons_self⟩

/-- A number without a comment is a decimal number. -/
theorem Numeral.decimal {text : List Byte} {n : ℕ} (h : Numeral text n)
    (hhash : (35 : Byte) ∉ text) : Decimal text n := by
  obtain ⟨⟨token, hspelled, hvalue⟩, b, rest, htext, -⟩ := h
  have heq := hspelled.eq_of_notMem hhash
  refine ⟨?_, ?_, ?_⟩
  · rw [htext]
    exact List.cons_ne_nil b rest
  · rw [heq]
    exact hspelled.digits
  · rw [heq]
    exact hvalue

/-- Behind lines that are blank or comments, the rest of a text is the digits of a number. What
is on those lines may be a part of the number as well. -/
def Shown (text : List Byte) (n : ℕ) : Prop :=
  ∃ gap digits, text = gap ++ digits ∧ GapLines gap ∧ (35 : Byte) ∉ lastLine gap ∧
    Decimal digits n

/-! ### Samples -/

/-- The samples of a plain image, with whitespace behind each but possibly the last. -/
inductive PlainRaster : List Byte → List ℕ → Prop where
  | last {token blank : List Byte} {s : ℕ} : Decimal token s → (∀ b ∈ blank, IsWhite b) →
      PlainRaster (token ++ blank) [s]
  | cons {token blank raster : List Byte} {s : ℕ} {samples : List ℕ} : Decimal token s →
      blank ≠ [] → (∀ b ∈ blank, IsWhite b) → PlainRaster raster samples →
      PlainRaster (token ++ (blank ++ raster)) (s :: samples)

/-- The bytes of a sample: one, or two with the greater one first. -/
def rawSample (maxval s : ℕ) : List Byte :=
  if maxval ≤ 255 then [BitVec.ofNat 8 s]
  else [BitVec.ofNat 8 (s / 256), BitVec.ofNat 8 (s % 256)]

theorem PlainRaster.words {raster : List Byte} {samples : List ℕ}
    (h : PlainRaster raster samples) : List.Forall₂ Decimal (Text.words raster) samples := by
  induction h with
  | last htoken hblank =>
    rw [words_append_blank fun b hb => (hblank b hb).isSpace,
      words_token htoken.isSpace_eq htoken.ne_nil]
    exact .cons htoken .nil
  | cons htoken hne hblank _ ih =>
    rw [words_token_blank_append (fun b hb => (hblank b hb).isSpace) hne htoken.isSpace_eq
      htoken.ne_nil]
    exact .cons htoken ih

/-- It starts with a digit. -/
theorem PlainRaster.exists_token {raster : List Byte} {samples : List ℕ}
    (h : PlainRaster raster samples) :
    ∃ token rest n, Decimal token n ∧ raster = token ++ rest := by
  cases h with
  | last htoken _ => exact ⟨_, _, _, htoken, rfl⟩
  | cons htoken _ _ _ => exact ⟨_, _, _, htoken, rfl⟩

/-- The samples of a binary image. -/
def Image.raster (image : Image) : List Byte := image.samples.flatMap (rawSample image.maxval)

/-! ### Files -/

/-- The samples of an image, and what is between them and the greatest value. -/
inductive Body (image : Image) where
  /-- Decimal numbers. -/
  | plain (sep raster : List Byte) (ne_nil : sep ≠ []) (white : ∀ b ∈ sep, IsWhite b)
      (raster_spec : PlainRaster raster image.samples)
  /-- Bytes. -/
  | raw (delimiter : Byte) (white : IsWhite delimiter)

def Body.magic {image : Image} : Body image → List Byte
  | plain .. => P2
  | raw .. => P5

def Body.text {image : Image} : Body image → List Byte
  | plain sep raster .. => sep ++ raster
  | raw delimiter _ => delimiter :: image.raster

/-- One way of writing an image down. Comments behind the greatest value are part of it. -/
structure Encoding (image : Image) where
  sep₁ : List Byte
  width : List Byte
  sep₂ : List Byte
  height : List Byte
  sep₃ : List Byte
  maxval : List Byte
  body : Body image
  gap₁ : Gap sep₁ ∧ sep₁ ≠ []
  numeral_width : Numeral width image.width
  gap₂ : Gap sep₂ ∧ sep₂ ≠ []
  numeral_height : Numeral height image.height
  gap₃ : Gap sep₃ ∧ sep₃ ≠ []
  numeral_maxval : Numeral maxval image.maxval

variable {image : Image}

/-- What follows the height. -/
def Encoding.afterHeight (e : Encoding image) : List Byte :=
  e.sep₃ ++ (e.maxval ++ e.body.text)

/-- What follows the width. -/
def Encoding.afterWidth (e : Encoding image) : List Byte :=
  e.sep₂ ++ (e.height ++ e.afterHeight)

/-- The bytes of the file. -/
def Encoding.text (e : Encoding image) : List Byte :=
  e.body.magic ++ (e.sep₁ ++ (e.width ++ e.afterWidth))

end FakePcd
end WtbAutoware
