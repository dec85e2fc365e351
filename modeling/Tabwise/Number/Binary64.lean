/-! # Nearest binary64 numbers

A nonnegative rational is rounded to the nearest number of binary64, a tie to the even one, in
exact arithmetic. A finite number is kept as its sign and the encoding of its magnitude, which
grows with the magnitude, so that comparing needs no floating-point operation.
-/

namespace Tabwise.Number

/-- The quotient rounded to a whole number, a half to the even neighbour. -/
def roundQuotient (num den : Nat) : Nat :=
  let q := num / den
  let twice := 2 * (num % den)
  if twice < den then q
  else if den < twice then q + 1
  else if q % 2 = 0 then q else q + 1

def infinity : Nat := 0x7ff <<< 52

/-- The encoding of the magnitude nearest to a quotient; at least `infinity` on overflow. -/
def nearest (num den : Nat) : Nat :=
  let least := num <<< 1074
  let shift := (least / den).log2 - 52
  (shift <<< 52) + roundQuotient least (den <<< shift)

/-- A finite binary64 number. -/
structure Binary64 where
  negative : Bool
  magnitude : Nat
  deriving DecidableEq

namespace Binary64

/-- Orders finite numbers by value, with the negative zero below the positive one. -/
def key (x : Binary64) : Int := if x.negative then -(x.magnitude : Int) - 1 else x.magnitude

def le (x y : Binary64) : Bool := x.key ≤ y.key

def bits (x : Binary64) : Nat := (if x.negative then 1 <<< 63 else 0) + x.magnitude

end Binary64

end Tabwise.Number
