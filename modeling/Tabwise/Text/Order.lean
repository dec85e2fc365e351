import Tabwise.Text.Case

/-! # Orders for showing candidates

Both orders ignore case first and fall back to the texts as written, so that only equal texts
compare equal. The natural order reads a run of ASCII digits as one number.
-/

namespace Tabwise.Text

def compareChars (as bs : List Char) : Ordering := List.compareLex compare as bs

def alphabetical (as bs : List Char) : Ordering :=
  (compareChars (fold as) (fold bs)).then (compareChars as bs)

inductive Chunk where
  | digits (first : Char) (rest : List Char)
  | letter (c : Char)

/-- Joins runs of digits. -/
def chunks : List Char → List Chunk
  | [] => []
  | c :: cs =>
    if c.isDigit then
      match chunks cs with
      | .digits d ds :: rest => .digits c (d :: ds) :: rest
      | rest => .digits c [] :: rest
    else .letter c :: chunks cs

/-- Digit runs by value, then by length. No run is too long to compare. -/
def compareDigits (as bs : List Char) : Ordering :=
  let ma := as.dropWhile (· == '0')
  let mb := bs.dropWhile (· == '0')
  (compare ma.length mb.length).then
    ((compareChars ma mb).then (compare as.length bs.length))

def Chunk.compare : Chunk → Chunk → Ordering
  | .digits a as, .digits b bs => compareDigits (a :: as) (b :: bs)
  | .digits a _, .letter b => compareChars [a] (lowerChar b)
  | .letter a, .digits b _ => compareChars (lowerChar a) [b]
  | .letter a, .letter b => compareChars (lowerChar a) (lowerChar b)

/-- Order without case in which digit runs compare as numbers. -/
def natural (as bs : List Char) : Ordering :=
  (List.compareLex Chunk.compare (chunks as) (chunks bs)).then (compareChars as bs)

end Tabwise.Text
