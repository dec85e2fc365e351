import Tabwise.Number.Binary64
import Tabwise.Text.Chars

/-! # Numbers as a user types them

A decimal has an optional sign, digits with an optional point and an optional exponent; there is
a digit before or after the point. Words for infinite values are not numbers.
-/

namespace Tabwise.Number

def digitValue (c : Char) : Nat := c.toNat - '0'.toNat

def natOfDigits (cs : List Char) : Nat := cs.foldl (fun n c => 10 * n + digitValue c) 0

/-- The number `digits * 10 ^ scale`, of `length` written digits. -/
structure Decimal where
  negative : Bool
  digits : Nat
  length : Nat
  scale : Int
  deriving DecidableEq

def takeSign : List Char → Bool × List Char
  | '+' :: cs => (false, cs)
  | '-' :: cs => (true, cs)
  | cs => (false, cs)

/-- Reads what may follow the digits: nothing, or an exponent. -/
def readExponent? : List Char → Option Int
  | [] => some 0
  | c :: cs =>
    let (negative, digits) := takeSign cs
    if (c = 'e' || c = 'E') && !digits.isEmpty && digits.all Char.isDigit then
      some (if negative then -(natOfDigits digits : Int) else natOfDigits digits)
    else none

def readDecimal? (cs : List Char) : Option Decimal :=
  let (negative, cs) := takeSign cs
  let whole := cs.takeWhile Char.isDigit
  let rest := cs.dropWhile Char.isDigit
  let (part, rest) := match rest with
    | '.' :: r => (r.takeWhile Char.isDigit, r.dropWhile Char.isDigit)
    | r => ([], r)
  if whole.isEmpty && part.isEmpty then none
  else (readExponent? rest).map fun e =>
    { negative
      digits := natOfDigits (whole ++ part)
      length := (whole ++ part).length
      scale := e - part.length }

/-- The encoding of the magnitude nearest to a decimal. Numbers from `10 ^ 310` on overflow and
those below `10 ^ -330` vanish, whatever their digits. -/
def Decimal.magnitude (d : Decimal) : Nat :=
  let size := (Nat.repr d.digits).length + d.scale
  if d.digits = 0 || size < -330 then 0
  else if 310 < size then infinity
  else if 0 ≤ d.scale then nearest (d.digits * Nat.pow 10 d.scale.toNat) 1
  else nearest d.digits (Nat.pow 10 (-d.scale).toNat)

def Decimal.toBinary64? (d : Decimal) : Option Binary64 :=
  if d.magnitude < infinity then some ⟨d.negative, d.magnitude⟩ else none

/-- Reads a text as a finite number; white space around it does not count. -/
def read? (cs : List Char) : Option Binary64 :=
  (readDecimal? (Text.trim cs)).bind Decimal.toBinary64?

end Tabwise.Number
