import WtbAutoware.Framework.Text

/-!
# Reading a map image

`pgm_to_fake_pcd.py` turns an occupancy map into a point cloud. `load_pgm` reads the image,
which is a PGM file, line by line: the magic number, a line or two with width and height, a
line with the greatest value, and then the samples, which are bytes (`P5`) or decimal
numbers (`P2`).

An open file is the lines that are still to be read. At its end, `readline` returns an empty
line again and again, and `next_tokens` an empty list. The loop that waits for width and
height may therefore go on for ever, and takes a bound on its iterations (`gather`). A
result `running` says that the bound was too small.
-/

namespace WtbAutoware
namespace FakePcd

open Text

/-! ### Files -/

/-- An open file: its lines from the current position on. -/
abbrev File := List (List Byte)

/-- `f.readline()`. -/
def readline : File → List Byte × File
  | [] => ([], [])
  | line :: lines => (line, lines)

/-- `f.read()`. -/
def read (f : File) : List Byte := f.flatten

/-! ### Numbers -/

/-- The value of a decimal digit. -/
def digit (b : Byte) : Option ℕ :=
  if 48 ≤ b.toNat ∧ b.toNat ≤ 57 then some (b.toNat - 48) else none

/-- The digits of a number, which single underscores may separate. -/
def digitsFrom (needDigit : Bool) (value : ℕ) : List Byte → Option ℕ
  | [] => if needDigit then none else some value
  | b :: bs =>
    match digit b with
    | some d => digitsFrom false (10 * value + d) bs
    | none => if b = 95 ∧ needDigit = false then digitsFrom true value bs else none

/-- `int(token)`, for an interpreter that does not limit the number of digits; `none` where it
raises. -/
def int : List Byte → Option ℤ
  | [] => none
  | b :: bs =>
    if b = 45 then (digitsFrom true 0 bs).map fun n : ℕ => -(n : ℤ)
    else if b = 43 then (digitsFrom true 0 bs).map Nat.cast
    else (digitsFrom true 0 (b :: bs)).map Nat.cast

/-! ### Loading -/

/-- The errors that `load_pgm` raises. -/
inductive Error where
  /-- "Unsupported PGM format", with the magic number. -/
  | unsupportedFormat (magic : List Byte)
  /-- "Missing PGM max value". -/
  | missingMaxValue
  /-- "PGM payload shorter than expected". -/
  | shortPayload
  /-- What `int` raises for a token. -/
  | invalidLiteral (token : List Byte)
  deriving DecidableEq

/-- What has become of a call after so many iterations. -/
inductive Outcome (α : Type) where
  | returned (value : α)
  | raised (error : Error)
  | running
  deriving DecidableEq

/-- Continue with the value, if there is one. -/
def Outcome.bind {α β : Type} (x : Outcome α) (f : α → Outcome β) : Outcome β :=
  match x with
  | .returned value => f value
  | .raised error => .raised error
  | .running => .running

/-- What `load_pgm` returns. -/
structure Pgm where
  width : ℤ
  height : ℤ
  maxValue : ℤ
  pixels : List ℤ
  deriving DecidableEq

/-- `b"P2"`. -/
def P2 : List Byte := [80, 50]

/-- `b"P5"`. -/
def P5 : List Byte := [80, 53]

/-- `next_tokens`: the tokens of the next line that is neither blank nor a comment, or none
at the end of the file. -/
def nextTokens : File → List (List Byte) × File
  | [] => ([], [])
  | line :: f =>
    if strip line = [] ∨ (strip line).head? = some 35 then nextTokens f
    else (words (strip line), f)

/-- `while len(tokens) < 2: tokens.extend(next_tokens())`, for at most `bound` iterations. -/
def gather (bound : ℕ) (tokens : List (List Byte)) (f : File) :
    Outcome (List (List Byte) × File) :=
  if 2 ≤ tokens.length then .returned (tokens, f)
  else
    match bound with
    | 0 => .running
    | bound + 1 => gather bound (tokens ++ (nextTokens f).1) (nextTokens f).2

/-- `int(token)`. -/
def parse (token : List Byte) : Outcome ℤ :=
  match int token with
  | some value => .returned value
  | none => .raised (.invalidLiteral token)

/-- `list[:n]`. -/
def sliceTo {α : Type} (list : List α) (n : ℤ) : List α :=
  if 0 ≤ n then list.take n.toNat else list.take (list.length - (-n).toNat)

/-- The pixels of a binary image. -/
def rawPixels (payload : List Byte) (expected : ℤ) : Outcome (List ℤ) :=
  if (payload.length : ℤ) < expected then .raised .shortPayload
  else .returned ((sliceTo payload expected).map fun b => (b.toNat : ℤ))

/-- `[int(x) for x in remaining]`. -/
def parseAll : List (List Byte) → Outcome (List ℤ)
  | [] => .returned []
  | token :: tokens => (parse token).bind fun value =>
      (parseAll tokens).bind fun values => .returned (value :: values)

/-- The pixels of a plain image. -/
def plainPixels (payload : List Byte) (expected : ℤ) : Outcome (List ℤ) :=
  (parseAll (words payload)).bind fun pixels =>
    if (pixels.length : ℤ) < expected then .raised .shortPayload
    else .returned (sliceTo pixels expected)

/-- What follows the size: the greatest value and the pixels. -/
def loadPixels (magic : List Byte) (width height : ℤ) (f : File) : Outcome Pgm :=
  match nextTokens f with
  | ([], _) => .raised .missingMaxValue
  | (token :: _, f) => (parse token).bind fun maxValue =>
      (if magic = P5 then rawPixels (read f) (width * height)
        else plainPixels (read f) (width * height)).bind fun pixels =>
          .returned ⟨width, height, maxValue, pixels⟩

/-- What follows the magic number. -/
def loadBody (bound : ℕ) (magic : List Byte) (f : File) : Outcome Pgm :=
  (gather bound (nextTokens f).1 (nextTokens f).2).bind fun (tokens, f) =>
    (parse (tokens.getD 0 [])).bind fun width =>
      (parse (tokens.getD 1 [])).bind fun height => loadPixels magic width height f

/-- `load_pgm`, for a file with these contents. -/
def loadPgm (bound : ℕ) (contents : List Byte) : Outcome Pgm :=
  let (line, f) := readline (splitLines contents)
  let magic := strip line
  if magic = P2 ∨ magic = P5 then loadBody bound magic f
  else .raised (.unsupportedFormat magic)

/-- An image of two by one samples, each token on a line of its own. -/
example : loadPgm 2 [80, 53, 10, 50, 10, 49, 10, 55, 10, 3, 7] = .returned ⟨2, 1, 7, [3, 7]⟩ := by
  decide +kernel

end FakePcd
end WtbAutoware
