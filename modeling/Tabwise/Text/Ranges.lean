/-! # Sets of code points

A character class is a list of inclusive ranges in increasing order. A search stops at the first
range that begins above the code point.
-/

namespace Tabwise.Text

abbrev Ranges := List (Nat × Nat)

def Ranges.has : Ranges → Nat → Bool
  | [], _ => false
  | (first, last) :: rest, n => if n < first then false else n ≤ last || Ranges.has rest n

end Tabwise.Text
