import Tabwise.Config.Value
import Tabwise.Number.Decimal

/-! # Scalars of a TOML document

Strings come in four kinds: with escapes or literal, on one line or on several. Words are
numbers, truth values, dates and times. Integers have 64 bits; a floating-point number must be
finite unless it says otherwise.
-/

namespace Tabwise.Config

/-- Reads a value from the start of a text and leaves the rest. -/
abbrev Reader (α : Type) := List Char → Option (α × List Char)

def isSpace (c : Char) : Bool := c = ' ' || c = '\t'

def skipSpaces (cs : List Char) : List Char := cs.dropWhile isSpace

/-- Characters that may stand in comments and strings. -/
def isPlain (c : Char) : Bool := c = '\t' || (0x20 ≤ c.toNat && c.toNat ≠ 0x7f)

def newline? : List Char → Option (List Char)
  | '\n' :: cs | '\r' :: '\n' :: cs => some cs
  | _ => none

def hexValue? (c : Char) : Option Nat :=
  if c.isDigit then some (c.toNat - '0'.toNat)
  else if 'a' ≤ c && c ≤ 'f' then some (c.toNat - 'a'.toNat + 10)
  else if 'A' ≤ c && c ≤ 'F' then some (c.toNat - 'A'.toNat + 10)
  else none

/-- The number that digits of a base write. -/
def natOfBase (base : Nat) (cs : List Char) : Nat :=
  cs.foldl (fun n c => n * base + (hexValue? c).getD 0) 0

/-- A character given by a number of hexadecimal digits. -/
def codePoint (count : Nat) : Reader Char := fun cs =>
  let digits := cs.take count
  let n := natOfBase 16 digits
  if digits.length = count && digits.all (hexValue? · |>.isSome) && n.isValidChar then
    some (Char.ofNat n, cs.drop count)
  else none

def escaped : Reader Char
  | 'b' :: cs => some ('\x08', cs)
  | 't' :: cs => some ('\t', cs)
  | 'n' :: cs => some ('\n', cs)
  | 'f' :: cs => some ('\x0c', cs)
  | 'r' :: cs => some ('\r', cs)
  | 'e' :: cs => some ('\x1b', cs)
  | '"' :: cs => some ('"', cs)
  | '\\' :: cs => some ('\\', cs)
  | 'x' :: cs => codePoint 2 cs
  | 'u' :: cs => codePoint 4 cs
  | 'U' :: cs => codePoint 8 cs
  | _ => none

/-- The rest of a string on one line, after its opening quote. -/
def lineString (quote : Char) (escapes : Bool) : Nat → List Char → Reader (List Char)
  | 0, _, _ => none
  | _, _, [] => none
  | fuel + 1, read, c :: cs =>
    if c = quote then some (read.reverse, cs)
    else if c = '\\' && escapes then
      (escaped cs).bind fun (e, cs) => lineString quote escapes fuel (e :: read) cs
    else if isPlain c then lineString quote escapes fuel (c :: read) cs
    else none

/-- What a backslash at the end of a line leaves out: all blanks and line ends after it. -/
def lineContinuation? (cs : List Char) : Option (List Char) :=
  (newline? (skipSpaces cs)).map fun rest =>
    rest.dropWhile fun c => isSpace c || c = '\n' || c = '\r'

/-- The rest of a string on several lines. Two of the closing quotes may belong to the string. -/
def blockString (quote : Char) (escapes : Bool) : Nat → List Char → Reader (List Char)
  | 0, _, _ => none
  | _, _, [] => none
  | fuel + 1, read, c :: cs =>
    if c = quote then
      let run := cs.takeWhile (· = quote)
      let rest := cs.dropWhile (· = quote)
      if run.length < 2 then blockString quote escapes fuel (run ++ c :: read) rest
      else if run.length ≤ 4 then some ((run.drop 2 ++ read).reverse, rest)
      else none
    else if c = '\\' && escapes then
      match lineContinuation? cs with
      | some rest => blockString quote escapes fuel read rest
      | none => (escaped cs).bind fun (e, cs) => blockString quote escapes fuel (e :: read) cs
    else if c = '\r' then
      match cs with
      | '\n' :: cs => blockString quote escapes fuel ('\n' :: c :: read) cs
      | _ => none
    else if c = '\n' || isPlain c then blockString quote escapes fuel (c :: read) cs
    else none

def quoted : Reader (List Char)
  | '"' :: '"' :: '"' :: cs => blockString '"' true (cs.length + 1) [] ((newline? cs).getD cs)
  | '\'' :: '\'' :: '\'' :: cs => blockString '\'' false (cs.length + 1) [] ((newline? cs).getD cs)
  | '"' :: cs => lineString '"' true (cs.length + 1) [] cs
  | '\'' :: cs => lineString '\'' false (cs.length + 1) [] cs
  | _ => none

/-- Digits with single underscores between them, without the underscores. -/
def grouped? (isDigit : Char → Bool) : List Char → Option (List Char)
  | [] => none
  | [c] => if isDigit c then some [c] else none
  | c :: '_' :: d :: cs =>
    if isDigit c && isDigit d then (grouped? isDigit (d :: cs)).map (c :: ·) else none
  | c :: cs => if isDigit c then (grouped? isDigit cs).map (c :: ·) else none

def isBaseDigit (base : Nat) (c : Char) : Bool := (hexValue? c).any (· < base)

/-- A whole part has no leading zero. -/
def wholePart? (cs : List Char) : Option (List Char) :=
  (grouped? Char.isDigit cs).filter fun ds => ds.length = 1 || ds.head? ≠ some '0'

def isWord64 (n : Int) : Bool := -0x8000000000000000 ≤ n && n ≤ 0x7fffffffffffffff

def integer? (cs : List Char) : Option Int :=
  let n : Option Int := match cs with
    | '0' :: 'x' :: ds => (grouped? (isBaseDigit 16) ds).map fun ds => natOfBase 16 ds
    | '0' :: 'o' :: ds => (grouped? (isBaseDigit 8) ds).map fun ds => natOfBase 8 ds
    | '0' :: 'b' :: ds => (grouped? (isBaseDigit 2) ds).map fun ds => natOfBase 2 ds
    | cs =>
      let (negative, ds) := Number.takeSign cs
      (wholePart? ds).map fun ds => if negative then -(natOfBase 10 ds : Int) else natOfBase 10 ds
  n.filter isWord64

def exponent? (cs : List Char) : Option (List Char) :=
  let sign := cs.takeWhile fun c => c = '+' || c = '-'
  if sign.length ≤ 1 then (grouped? Char.isDigit (cs.drop sign.length)).map (sign ++ ·) else none

/-- A floating-point number without its underscores. -/
def plainFloat? (cs : List Char) : Option (List Char) := do
  let isExponent := fun c => c = 'e' || c = 'E'
  let front := cs.takeWhile (!isExponent ·)
  let back := cs.dropWhile (!isExponent ·)
  let sign := front.takeWhile fun c => c = '+' || c = '-'
  if 1 < sign.length then none
  let digits := front.drop sign.length
  let whole ← wholePart? (digits.takeWhile (· ≠ '.'))
  let part ← match digits.dropWhile (· ≠ '.') with
    | [] => if back.isEmpty then none else some []
    | _ :: part => (grouped? Char.isDigit part).map ('.' :: ·)
  let power ← match back with
    | [] => some []
    | _ :: power => (exponent? power).map ('e' :: ·)
  return sign ++ whole ++ part ++ power

def isFloat (cs : List Char) : Bool :=
  let unsigned := (Number.takeSign cs).2
  unsigned = "inf".toList || unsigned = "nan".toList ||
    ((plainFloat? cs).bind Number.read?).isSome

/-- A number of fixed digits within bounds. -/
def fixedNat? (count low high : Nat) : Reader Nat := fun cs =>
  let ds := cs.take count
  let n := natOfBase 10 ds
  if ds.length = count && ds.all Char.isDigit && low ≤ n && n ≤ high then some (n, cs.drop count)
  else none

def expect (c : Char) : Reader Unit
  | d :: cs => if c = d then some ((), cs) else none
  | [] => none

def daysIn (year month : Nat) : Nat :=
  if month = 2 then
    if year % 4 = 0 && (year % 100 ≠ 0 || year % 400 = 0) then 29 else 28
  else if month = 4 || month = 6 || month = 9 || month = 11 then 30
  else 31

def readDate : Reader Unit := fun cs => do
  let (year, cs) ← fixedNat? 4 0 9999 cs
  let (_, cs) ← expect '-' cs
  let (month, cs) ← fixedNat? 2 1 12 cs
  let (_, cs) ← expect '-' cs
  let (_, cs) ← fixedNat? 2 1 (daysIn year month) cs
  return ((), cs)

/-- Hours and minutes, with optional seconds and a fraction of them. -/
def readTime : Reader Unit := fun cs => do
  let (_, cs) ← fixedNat? 2 0 23 cs
  let (_, cs) ← expect ':' cs
  let (_, cs) ← fixedNat? 2 0 59 cs
  match cs with
  | ':' :: cs =>
    let (_, cs) ← fixedNat? 2 0 60 cs
    match cs with
    | '.' :: cs =>
      if cs.head?.any Char.isDigit then return ((), cs.dropWhile Char.isDigit) else none
    | cs => return ((), cs)
  | cs => return ((), cs)

def isOffset : List Char → Bool
  | [] | ['Z'] | ['z'] => true
  | c :: cs =>
    (c = '+' || c = '-') && (do
      let (_, cs) ← fixedNat? 2 0 23 cs
      let (_, cs) ← expect ':' cs
      let (_, cs) ← fixedNat? 2 0 59 cs
      return cs.isEmpty).getD false

/-- A date, a time, or a date with a time and an optional offset. -/
def isDatetime (cs : List Char) : Bool :=
  match readDate cs with
  | some (_, []) => true
  | some (_, c :: rest) =>
    (c = 'T' || c = 't' || c = ' ') && (match readTime rest with
      | some (_, offset) => isOffset offset
      | none => false)
  | none => match readTime cs with
    | some (_, []) => true
    | _ => false

def isWordChar (c : Char) : Bool :=
  c.isAlphanum || c = '_' || c = '+' || c = '-' || c = '.' || c = ':'

/-- The characters of a word. A space may stand between a date and a time. -/
def word (cs : List Char) : List Char × List Char :=
  let first := cs.takeWhile isWordChar
  let rest := cs.dropWhile isWordChar
  match rest with
  | ' ' :: d :: more =>
    if (readDate first).any (·.2.isEmpty) && d.isDigit then
      (first ++ ' ' :: (d :: more).takeWhile isWordChar, (d :: more).dropWhile isWordChar)
    else (first, rest)
  | _ => (first, rest)

def wordValue? (cs : List Char) : Option Value :=
  let written := String.ofList cs
  if written = "true" then some (.boolean true)
  else if written = "false" then some (.boolean false)
  else match integer? cs with
    | some n => some (.integer n)
    | none =>
      if isFloat cs then some (.float written)
      else if isDatetime cs then some (.datetime written)
      else none

def scalar : Reader Value := fun cs =>
  if cs.head?.any fun c => c = '"' || c = '\'' then
    (quoted cs).map fun (s, rest) => (.string (String.ofList s), rest)
  else
    let (w, rest) := word cs
    (wordValue? w).map (·, rest)

end Tabwise.Config
