import Tabwise.Number.Decimal

/-! # Bounded natural numbers

A count is written as digits, with an optional plus sign, and has an upper bound. The first
character that makes the text wrong decides the error.
-/

namespace Tabwise.Number

inductive CountError where
  | empty
  | invalidDigit
  | tooLarge
  deriving DecidableEq

def CountError.message : CountError → String
  | .empty => "cannot parse integer from empty string"
  | .invalidDigit => "invalid digit found in string"
  | .tooLarge => "number too large to fit in target type"

def readDigits (bound : Nat) : Nat → List Char → Except CountError Nat
  | n, [] => .ok n
  | n, c :: cs =>
    if !c.isDigit then .error .invalidDigit
    else if bound < 10 * n + digitValue c then .error .tooLarge
    else readDigits bound (10 * n + digitValue c) cs

def readCount (bound : Nat) : List Char → Except CountError Nat
  | [] => .error .empty
  | '+' :: cs => if cs.isEmpty then .error .invalidDigit else readDigits bound 0 cs
  | cs => readDigits bound 0 cs

def maxWord : Nat := 0xffffffffffffffff

def maxHalfWord : Nat := 0xffffffff

end Tabwise.Number
