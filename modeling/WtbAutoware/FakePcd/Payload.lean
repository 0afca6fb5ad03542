import WtbAutoware.FakePcd.Reading

/-!
# Reading the samples

`load_pgm` takes what is left of the file for the samples. It should start with the first
of them. It starts behind the line of the greatest value, and so, if that line goes on into
the samples, or a later line is taken for it, somewhere among them (`Body.Enters`).

Then there are too few samples left, and the image is not returned. This takes an argument
only for samples of two bytes, of which `load_pgm` takes one for each: there are enough, and
the question is whether they could be right (`zero_of_shift`). All of them would be less
than 256, so every other byte of the file would be zero. The samples would then be zero
where their place is even, and half of the others the same as the next half, down to the one
whose second byte ended the line. But a newline is not zero.

From the start, samples of two bytes are right if all of them are zero (`zero_of_same`), and
everything else is (`Body.pixels_iff`).
-/

namespace WtbAutoware
namespace FakePcd

open Text

/-! ### Bytes and numbers -/

theorem sliceTo_natCast {α : Type} (list : List α) (n : ℕ) :
    sliceTo list (n : ℤ) = list.take n := by
  unfold sliceTo
  rw [if_pos (Int.natCast_nonneg n), Int.toNat_natCast]

/-- Both readers check that there are enough samples. -/
theorem checked_eq_returned {m n : ℕ} {xs pixels : List ℤ} :
    (if (m : ℤ) < n then Outcome.raised .shortPayload else .returned xs) = .returned pixels ↔
      n ≤ m ∧ pixels = xs := by
  split
  · next hless =>
    refine iff_of_false (fun h => (nomatch h)) fun h => ?_
    exact absurd (Int.ofNat_lt.mp hless) (Nat.not_lt.mpr h.1)
  · next hle =>
    rw [and_iff_right (Int.ofNat_le.mp (not_lt.mp hle)), Outcome.returned.injEq]
    exact eq_comm

theorem rawPixels_eq_returned {payload : List Byte} {n : ℕ} {pixels : List ℤ} :
    rawPixels payload n = .returned pixels ↔
      n ≤ payload.length ∧ pixels = (payload.take n).map fun b => (b.toNat : ℤ) := by
  unfold rawPixels
  rw [sliceTo_natCast]
  exact checked_eq_returned

theorem parseAll_eq_returned {tokens : List (List Byte)} {values : List ℤ} :
    parseAll tokens = .returned values ↔
      List.Forall₂ (fun token value => int token = some value) tokens values := by
  induction tokens generalizing values with
  | nil =>
    rw [List.forall₂_nil_left_iff]
    exact ⟨fun h => (Outcome.returned.inj h).symm, fun h => h ▸ rfl⟩
  | cons token tokens ih =>
    -- the first word is a number, and so are the others
    rw [List.forall₂_cons_left_iff]
    simp only [parseAll, Outcome.bind_eq_returned, parse_eq_returned, ih]
    refine ⟨?_, ?_⟩
    · rintro ⟨value, hvalue, values', hvalues, heq⟩
      exact ⟨value, values', hvalue, hvalues, (Outcome.returned.inj heq).symm⟩
    · rintro ⟨value, values', hvalue, hvalues, rfl⟩
      exact ⟨value, hvalue, values', hvalues, rfl⟩

theorem plainPixels_eq_returned {payload : List Byte} {n : ℕ} {pixels : List ℤ} :
    plainPixels payload n = .returned pixels ↔
      ∃ values, List.Forall₂ (fun token value => int token = some value) (words payload) values ∧
        n ≤ values.length ∧ pixels = values.take n := by
  unfold plainPixels
  rw [Outcome.bind_eq_returned]
  refine exists_congr fun values => ?_
  rw [parseAll_eq_returned, sliceTo_natCast]
  -- too few numbers are an error, and of more than enough the first ones are taken
  exact and_congr_right fun _ => checked_eq_returned

/-! ### Samples of two bytes

`s` are the samples and `r` the bytes of the raster, of which each sample has a zero and
itself. -/

section Wide

variable {n k : ℕ} {s r : ℕ → ℕ} (heven : ∀ i < n, r (2 * i) = 0)
  (hodd : ∀ i < n, r (2 * i + 1) = s i)
include heven hodd

/-- If the bytes from some place on are the samples, then the byte in front of it is zero. -/
theorem zero_of_shift (hshift : ∀ i < n, s i = r (k + 1 + i)) (hk : k + 1 + n ≤ 2 * n) :
    r k = 0 := by
  rcases Nat.even_or_odd' k with ⟨j, rfl | rfl⟩
  · exact heven j (by omega)
  · rw [hodd j (by omega)]
    -- count the places down from the one that is its own source
    have hzero (d : ℕ) (hpos : 1 ≤ d) (hd : d ≤ 2 * j + 1) : s (2 * j + 1 - d) = 0 := by
      induction d using Nat.strong_induction_on with
      | _ d ih =>
        rw [hshift _ (by omega)]
        rcases Nat.even_or_odd' d with ⟨c, rfl | rfl⟩
        · -- the second byte of a pair, at half the distance
          rw [show 2 * j + 1 + 1 + (2 * j + 1 - 2 * c) = 2 * (2 * j + 1 - c) + 1 by omega,
            hodd _ (by omega)]
          exact ih c (by omega) (by omega) (by omega)
        · -- the first byte of a pair
          rw [show 2 * j + 1 + 1 + (2 * j + 1 - (2 * c + 1)) = 2 * (2 * j + 1 - c) by omega]
          exact heven _ (by omega)
    have hj := hzero (j + 1) (by omega) (by omega)
    rwa [show 2 * j + 1 - (j + 1) = j by omega] at hj

/-- If the bytes are the samples, then all of them are zero. -/
theorem zero_of_same (hsame : ∀ i < n, s i = r i) : ∀ i < n, s i = 0 := by
  intro i hi
  induction i using Nat.strong_induction_on with
  | _ i ih =>
    rw [hsame i hi]
    rcases Nat.even_or_odd' i with ⟨j, rfl | rfl⟩
    · exact heven j (by omega)
    · rw [hodd j (by omega)]
      exact ih j (by omega) (by omega)

end Wide

/-! ### The raster -/

variable {image : Image}

theorem Image.raster_of_narrow (h : image.maxval ≤ 255) :
    image.raster = image.samples.map (BitVec.ofNat 8) := by
  unfold Image.raster
  rw [← List.flatMap_pure_eq_map]
  refine congrArg (List.flatMap · image.samples) ?_
  ext1 s
  exact if_pos h

section Pairs

variable (f g : ℕ → Byte) (samples : List ℕ)

theorem length_pairs : (samples.flatMap fun s => [f s, g s]).length = 2 * samples.length := by
  induction samples with
  | nil => rfl
  | cons s samples ih =>
    rw [List.flatMap_cons, List.length_append, ih, List.length_cons, List.length_cons,
      List.length_cons, List.length_nil]
    omega

theorem getElem?_pairs (i : ℕ) :
    (samples.flatMap fun s => [f s, g s])[2 * i]? = samples[i]?.map f ∧
      (samples.flatMap fun s => [f s, g s])[2 * i + 1]? = samples[i]?.map g := by
  induction samples generalizing i with
  | nil => exact ⟨rfl, rfl⟩
  | cons s samples ih =>
    cases i with
    | zero => exact ⟨rfl, rfl⟩
    | succ i => exact ih i

end Pairs

theorem Image.raster_of_wide (h : 255 < image.maxval) :
    image.raster = image.samples.flatMap fun s =>
      [BitVec.ofNat 8 (s / 256), BitVec.ofNat 8 (s % 256)] := by
  unfold Image.raster
  refine congrArg (List.flatMap · image.samples) ?_
  ext1 s
  exact if_neg (Nat.not_le.mpr h)

/-- The two bytes of a sample in the raster. -/
theorem Image.getD_raster_of_wide (h : 255 < image.maxval) {i : ℕ}
    (hi : i < image.samples.length) :
    (image.raster.getD (2 * i) 0).toNat = image.samples.getD i 0 / 256 % 256 ∧
      (image.raster.getD (2 * i + 1) 0).toNat = image.samples.getD i 0 % 256 % 256 := by
  rw [image.raster_of_wide h]
  obtain ⟨hfirst, hsecond⟩ := getElem?_pairs (fun s => BitVec.ofNat 8 (s / 256))
    (fun s => BitVec.ofNat 8 (s % 256)) image.samples i
  refine ⟨?_, ?_⟩
  · rw [List.getD_eq_getElem?_getD, List.getD_eq_getElem?_getD, hfirst,
      List.getElem?_eq_getElem hi]
    exact BitVec.toNat_ofNat _ _
  · rw [List.getD_eq_getElem?_getD, List.getD_eq_getElem?_getD, hsecond,
      List.getElem?_eq_getElem hi]
    exact BitVec.toNat_ofNat _ _

/-- The bytes of wide samples from some place on are the samples only if the bytes of each
are a zero and itself. -/
theorem Image.bytes_of_wide (h : 255 < image.maxval) {k : ℕ}
    (hlength : image.samples.length ≤ (image.raster.drop k).length)
    (hsame : (image.samples.map fun s : ℕ => (s : ℤ)) =
      ((image.raster.drop k).take image.samples.length).map fun b => (b.toNat : ℤ)) :
    (∀ i < image.samples.length, image.samples.getD i 0 = (image.raster.getD (k + i) 0).toNat) ∧
    (∀ i < image.samples.length, (image.raster.getD (2 * i) 0).toNat = 0) ∧
    ∀ i < image.samples.length,
      (image.raster.getD (2 * i + 1) 0).toNat = image.samples.getD i 0 := by
  -- the samples are the bytes at their own indices
  have hsamples (i : ℕ) (hi : i < image.samples.length) :
      image.samples.getD i 0 = (image.raster.getD (k + i) 0).toNat := by
    have hget := congrArg (fun l : List ℤ => l[i]?) hsame
    rw [List.length_drop] at hlength
    have hbyte : k + i < image.raster.length := by omega
    simp only [List.getElem?_map, List.getElem?_take_of_lt hi, List.getElem?_drop,
      List.getElem?_eq_getElem hi, List.getElem?_eq_getElem hbyte, Option.map_some,
      Option.some.injEq, Int.ofNat_inj] at hget
    rw [List.getD_eq_getElem?_getD, List.getD_eq_getElem?_getD, List.getElem?_eq_getElem hi,
      List.getElem?_eq_getElem hbyte]
    exact hget
  -- so each is less than 256, and the first of its two bytes is zero
  have hless (i : ℕ) (hi : i < image.samples.length) : image.samples.getD i 0 < 256 := by
    rw [hsamples i hi]
    exact BitVec.isLt _
  refine ⟨hsamples, fun i hi => ?_, fun i hi => ?_⟩
  · rw [(image.getD_raster_of_wide h hi).1, Nat.div_eq_of_lt (hless i hi)]
  · rw [(image.getD_raster_of_wide h hi).2, Nat.mod_mod, Nat.mod_eq_of_lt (hless i hi)]

/-! ### The law of the samples -/

/-- The samples, as `load_pgm` takes them from what is left of the file. -/
def Body.pixels (body : Body image) (payload : List Byte) : Outcome (List ℤ) :=
  if body.magic = P5 then rawPixels payload ((image.width : ℤ) * (image.height : ℤ))
  else plainPixels payload ((image.width : ℤ) * (image.height : ℤ))

/-- The samples start on a line of their own, and are bytes or numbers or zeros. -/
def Body.Readable : Body image → Prop
  | plain sep .. => newline ∈ sep
  | raw delimiter _ => delimiter = newline ∧ (image.maxval ≤ 255 ∨ ∀ s ∈ image.samples, s = 0)

/-- Some of the text that follows the greatest value has a sample in it. -/
def Body.Enters : Body image → List Byte → Prop
  | plain .., front => words front ≠ []
  | raw .., front => 2 ≤ front.length

theorem expected_eq (image : Image) :
    (image.width : ℤ) * (image.height : ℤ) = (image.samples.length : ℕ) := by
  rw [image.length_samples, Nat.cast_mul]

theorem Body.pixels_plain {sep raster : List Byte} (hne : sep ≠ []) (hwhite : ∀ b ∈ sep, IsWhite b)
    (hraster : PlainRaster raster image.samples) (payload : List Byte) :
    (Body.plain sep raster hne hwhite hraster).pixels payload =
      plainPixels payload image.samples.length := by
  unfold Body.pixels
  rw [expected_eq]
  exact if_neg (show ¬ P2 = P5 by decide)

theorem Body.pixels_raw {delimiter : Byte} (hwhite : IsWhite delimiter) (payload : List Byte) :
    (Body.raw delimiter hwhite : Body image).pixels payload =
      rawPixels payload image.samples.length := by
  unfold Body.pixels
  rw [expected_eq]
  exact if_pos rfl

/-- Behind a line of plain samples, there are not enough of them. -/
theorem PlainRaster.pixels_ne {raster : List Byte} (hraster : PlainRaster raster image.samples)
    {front back : List Byte} (hline : back = [] ∨ ∃ init, front = init ++ [newline])
    (hwords : Text.words (front ++ back) = Text.words raster) (hfront : Text.words front ≠ [])
    (pixels : List ℤ) :
    plainPixels back image.samples.length ≠ .returned pixels := by
  rw [ne_eq, plainPixels_eq_returned]
  rintro ⟨values, hvalues, hlength, -⟩
  -- at least one of the words is gone
  have htotal := congrArg List.length (words_append_line hline)
  rw [hwords, hraster.words.length_eq, List.length_append, hvalues.length_eq] at htotal
  have hsome : 0 < (Text.words front).length := List.length_pos_of_ne_nil hfront
  omega

/-- Behind a newline among the bytes of a raster, there are not enough of them, or they are not
the samples. -/
theorem Image.rawPixels_ne {init back : List Byte}
    (hraster : image.raster = init ++ newline :: back) :
    rawPixels back image.samples.length ≠
      .returned (image.samples.map fun s : ℕ => (s : ℤ)) := by
  rw [ne_eq, rawPixels_eq_returned]
  rintro ⟨hlength, hsame⟩
  by_cases hnarrow : image.maxval ≤ 255
  · -- one byte for each sample: there are not enough left
    have htotal := congrArg List.length (image.raster_of_narrow hnarrow)
    rw [hraster, List.length_append, List.length_cons, List.length_map] at htotal
    omega
  · have hwide := Nat.lt_of_not_le hnarrow
    have hdrop : image.raster.drop (init.length + 1) = back := by
      rw [hraster, ← List.singleton_append, ← List.append_assoc]
      exact List.drop_left' (List.length_append)
    rw [← hdrop] at hsame hlength
    obtain ⟨hshift, heven, hodd⟩ := image.bytes_of_wide hwide hlength hsame
    rw [List.length_drop, image.raster_of_wide hwide, length_pairs] at hlength
    have hsome : 0 < image.samples.length := List.length_pos_of_ne_nil image.samples_ne_nil
    have hzero := zero_of_shift (n := image.samples.length) (k := init.length)
      (s := fun i => image.samples.getD i 0) (r := fun i => (image.raster.getD i 0).toNat)
      heven hodd hshift (by omega)
    -- but the byte in front of what is left ends a line
    rw [hraster, List.getD_eq_getElem?_getD, List.getElem?_append_right le_rfl,
      Nat.sub_self] at hzero
    exact absurd hzero (show ¬ newline.toNat = 0 by decide)

/-- **Too late.** Behind a line that has a sample in it, the samples are not returned. -/
theorem Body.pixels_ne_of_enters (body : Body image) {front back : List Byte}
    (htext : body.text = front ++ back) (hline : back = [] ∨ ∃ init, front = init ++ [newline])
    (henters : body.Enters front) :
    body.pixels back ≠ .returned (image.samples.map fun s : ℕ => (s : ℤ)) := by
  cases body with
  | plain sep raster hne hwhite hraster =>
    rw [pixels_plain]
    refine hraster.pixels_ne hline ?_ henters _
    have hsep : sep ++ raster = front ++ back := htext
    rw [← hsep, words_blank_append fun b hb => (hwhite b hb).isSpace]
  | raw delimiter hwhite =>
    rw [pixels_raw]
    rcases hline with rfl | ⟨init, rfl⟩
    · -- nothing is left
      rw [ne_eq, rawPixels_eq_returned]
      rintro ⟨hlength, -⟩
      exact absurd hlength (Nat.not_le.mpr (List.length_pos_of_ne_nil image.samples_ne_nil))
    · -- the delimiter is gone, and bytes of the raster up to the end of a line
      cases init with
      | nil => exact absurd henters (show ¬ 2 ≤ 1 by decide)
      | cons b init =>
        refine @Image.rawPixels_ne _ init _ ?_
        have htail : image.raster = init ++ [newline] ++ back := (List.cons.inj htext).2
        rwa [List.append_assoc] at htail

theorem Body.pixels_plain_of_mem {sep raster : List Byte} (hne : sep ≠ [])
    (hwhite : ∀ b ∈ sep, IsWhite b) (hraster : PlainRaster raster image.samples)
    (hmem : newline ∈ sep) :
    (Body.plain sep raster hne hwhite hraster).pixels (afterLine (sep ++ raster)) =
      .returned (image.samples.map fun s : ℕ => (s : ℤ)) := by
  obtain ⟨x, y, hsep, hx⟩ := List.eq_append_cons_of_mem hmem
  have hy : ∀ b ∈ y, isSpace b = true := fun b hb =>
    (hwhite b (by rw [hsep]; exact List.mem_append_right x (List.mem_cons_of_mem _ hb))).isSpace
  -- the rest of the first line is dropped, and only spaces are in it
  have hafter : afterLine (sep ++ raster) = y ++ raster := by
    rw [hsep, List.append_assoc, List.cons_append, afterLine_append hx, afterLine_newline]
  rw [pixels_plain, plainPixels_eq_returned, hafter, words_blank_append hy]
  refine ⟨image.samples.map fun s : ℕ => (s : ℤ), ?_, (List.length_map _).ge, ?_⟩
  · rw [List.forall₂_map_right_iff]
    exact hraster.words.imp fun token s h => h.int_eq
  · rw [List.take_of_length_le (List.length_map _).le]

theorem Body.enters_plain {sep raster : List Byte} (hne : sep ≠ [])
    (hwhite : ∀ b ∈ sep, IsWhite b) (hraster : PlainRaster raster image.samples)
    (hmem : newline ∉ sep) {stop : List Byte} (hstop : ∀ b ∈ stop, isSpace b = true) :
    (Body.plain sep raster hne hwhite hraster).Enters (lineOf (sep ++ raster) ++ stop) := by
  obtain ⟨token, rest, n, htoken, rfl⟩ := hraster.exists_token
  have htoken_newline : newline ∉ token := htoken.notMem (by decide)
  change words (lineOf (sep ++ (token ++ rest)) ++ stop) ≠ []
  rw [words_append_blank hstop, lineOf_append hmem, lineOf_append htoken_newline,
    words_blank_append fun b hb => (hwhite b hb).isSpace,
    words_append htoken.isSpace_eq htoken.ne_nil]
  exact List.cons_ne_nil _ _

theorem Image.raster_ne_nil (image : Image) : image.raster ≠ [] := by
  intro hnil
  have hbytes := List.flatMap_eq_nil_iff.mp hnil
  obtain ⟨s, hs⟩ := List.exists_mem_of_ne_nil _ image.samples_ne_nil
  have hs' := hbytes s hs
  unfold rawSample at hs'
  split at hs'
  · exact List.cons_ne_nil _ _ hs'
  · exact List.cons_ne_nil _ _ hs'

theorem Body.enters_raw {delimiter : Byte} (hwhite : IsWhite delimiter) (hne : delimiter ≠ newline)
    {stop : List Byte} (hstop : stop = [newline] ∨ stop = [] ∧ afterLine image.raster = [])
    (htext : image.raster = lineOf image.raster ++ stop ++ afterLine image.raster) :
    (Body.raw delimiter hwhite : Body image).Enters
      (lineOf (delimiter :: image.raster) ++ stop) := by
  have hline : lineOf (delimiter :: image.raster) = delimiter :: lineOf image.raster :=
    lineOf_cons hne image.raster
  change 2 ≤ (lineOf (delimiter :: image.raster) ++ stop).length
  rw [hline, List.cons_append, List.length_cons]
  refine Nat.succ_le_succ (List.length_pos_of_ne_nil fun hnil => ?_)
  rcases hstop with rfl | ⟨-, hafter⟩
  · exact List.append_ne_nil_of_right_ne_nil _ (List.cons_ne_nil _ _) hnil
  · rw [hnil, hafter] at htext
    exact image.raster_ne_nil htext

/-- Samples of one byte are their bytes. -/
theorem Image.rawPixels_of_narrow (hnarrow : image.maxval ≤ 255) :
    rawPixels image.raster image.samples.length =
      .returned (image.samples.map fun s : ℕ => (s : ℤ)) := by
  rw [rawPixels_eq_returned, image.raster_of_narrow hnarrow]
  refine ⟨(List.length_map _).ge, ?_⟩
  rw [List.take_of_length_le (List.length_map _).le, List.map_map]
  refine List.map_congr_left fun s hs => ?_
  have hless : s < 2 ^ 8 := lt_of_le_of_lt ((image.le_maxval s hs).trans hnarrow) (by decide)
  change (s : ℤ) = ((BitVec.ofNat 8 s).toNat : ℤ)
  rw [BitVec.toNat_ofNat, Nat.mod_eq_of_lt hless]

/-- Samples of two bytes are not, unless they are zero. -/
theorem Image.zero_of_rawPixels (hwide : 255 < image.maxval)
    (h : rawPixels image.raster image.samples.length =
      .returned (image.samples.map fun s : ℕ => (s : ℤ))) : ∀ s ∈ image.samples, s = 0 := by
  obtain ⟨hlength, hsame⟩ := rawPixels_eq_returned.mp h
  rw [← List.drop_zero (l := image.raster)] at hsame hlength
  obtain ⟨hfirst, heven, hodd⟩ := image.bytes_of_wide hwide hlength hsame
  simp only [Nat.zero_add] at hfirst
  have hzero := zero_of_same (n := image.samples.length) (s := fun i => image.samples.getD i 0)
    (r := fun i => (image.raster.getD i 0).toNat) heven hodd hfirst
  intro s hs
  obtain ⟨i, hi, rfl⟩ := List.mem_iff_getElem.mp hs
  have hi0 := hzero i hi
  rwa [List.getD_eq_getElem?_getD, List.getElem?_eq_getElem hi] at hi0

/-- Zeros are zeros, wherever they are taken from. -/
theorem Image.rawPixels_of_zero (hwide : 255 < image.maxval) (hzero : ∀ s ∈ image.samples, s = 0) :
    rawPixels image.raster image.samples.length =
      .returned (image.samples.map fun s : ℕ => (s : ℤ)) := by
  have hsamples := List.eq_replicate_of_mem hzero
  have hraster : image.raster = List.replicate (2 * image.samples.length) 0 := by
    refine List.eq_replicate_iff.mpr ⟨?_, fun b hb => ?_⟩
    · rw [image.raster_of_wide hwide, length_pairs]
    · rw [image.raster_of_wide hwide, List.mem_flatMap] at hb
      obtain ⟨s, hs, hb⟩ := hb
      rw [hzero s hs] at hb
      simpa using hb
  rw [rawPixels_eq_returned, hraster, List.length_replicate, List.take_replicate,
    List.map_replicate]
  refine ⟨by omega, ?_⟩
  conv_lhs => rw [hsamples, List.map_replicate]
  rw [min_eq_left (by omega)]
  rfl

/-- From their start, the samples are returned if they have a byte each, or are zero. -/
theorem Body.pixels_raster_iff {delimiter : Byte} (hwhite : IsWhite delimiter) :
    (Body.raw delimiter hwhite : Body image).pixels image.raster =
        .returned (image.samples.map fun s : ℕ => (s : ℤ)) ↔
      image.maxval ≤ 255 ∨ ∀ s ∈ image.samples, s = 0 := by
  rw [pixels_raw]
  by_cases hnarrow : image.maxval ≤ 255
  · exact iff_of_true (Image.rawPixels_of_narrow hnarrow) (Or.inl hnarrow)
  · have hwide := Nat.lt_of_not_le hnarrow
    rw [or_iff_right hnarrow]
    exact ⟨Image.zero_of_rawPixels hwide, Image.rawPixels_of_zero hwide⟩

/-- **When the samples are returned** from behind the line of the greatest value. -/
theorem Body.pixels_iff (body : Body image) :
    body.pixels (afterLine body.text) = .returned (image.samples.map fun s : ℕ => (s : ℤ)) ↔
      body.Readable := by
  obtain ⟨stop, hstop, htext⟩ := exists_lineEnd body.text
  -- the line that is dropped ends the text or ends with a newline
  have hline : afterLine body.text = [] ∨ ∃ init, lineOf body.text ++ stop = init ++ [newline] := by
    rcases hstop with rfl | ⟨-, hnil⟩
    · exact Or.inr ⟨_, rfl⟩
    · exact Or.inl hnil
  -- what is dropped has a sample in it, unless a newline comes first
  cases body with
  | plain sep raster hne hwhite hraster =>
    by_cases hmem : newline ∈ sep
    · exact iff_of_true (pixels_plain_of_mem hne hwhite hraster hmem) hmem
    · refine iff_of_false (pixels_ne_of_enters _ htext hline ?_) hmem
      exact enters_plain hne hwhite hraster hmem (isSpace_of_stop hstop)
  | raw delimiter hwhite =>
    by_cases hdelimiter : delimiter = newline
    · subst hdelimiter
      have hafter : afterLine (Body.raw newline hwhite : Body image).text = image.raster :=
        afterLine_newline _
      rw [hafter, pixels_raster_iff hwhite]
      exact (and_iff_right rfl).symm
    · refine iff_of_false (pixels_ne_of_enters _ htext hline ?_) fun h => hdelimiter h.1
      have hfront : newline ∉ [delimiter] := by simpa using Ne.symm hdelimiter
      refine enters_raw hwhite hdelimiter ?_ ?_
      · rwa [← afterLine_append hfront image.raster]
      · have hcons : delimiter :: image.raster =
            (delimiter :: lineOf image.raster) ++ stop ++ afterLine image.raster := by
          rw [show delimiter :: lineOf image.raster = lineOf (delimiter :: image.raster) from
              (lineOf_cons hdelimiter image.raster).symm,
            ← afterLine_append hfront image.raster]
          exact htext
        exact (List.cons.inj hcons).2

end FakePcd
end WtbAutoware
