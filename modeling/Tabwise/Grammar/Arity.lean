/-! # How many values an argument takes

An argument has a number of values and an action. Actions that only record an occurrence take
no values, whatever the number says.
-/

namespace Tabwise

inductive Arity where
  | exactly (n : Nat)
  /-- Zero or one. -/
  | optional
  | zeroOrMore
  | oneOrMore
  /-- At least `min` and at most `max`, without a bound if there is no `max`. -/
  | range (min : Nat) (max : Option Nat)
  /-- All further tokens, even if they look like flags. -/
  | remainder
  deriving DecidableEq

namespace Arity

def min : Arity → Nat
  | exactly n => n
  | optional | zeroOrMore | remainder => 0
  | oneOrMore => 1
  | range min _ => min

def max : Arity → Option Nat
  | exactly n => some n
  | optional => some 1
  | zeroOrMore | oneOrMore | remainder => none
  | range _ max => max

def format (metavar : String) : Arity → String
  | exactly n => " ".intercalate (List.replicate n metavar)
  | optional => s!"[{metavar}]"
  | zeroOrMore => s!"[{metavar} ...]"
  | oneOrMore => s!"{metavar} [{metavar} ...]"
  | range min (some max) => metavar ++ s!"\x7b{min}..{max}\x7d"
  | range min none => metavar ++ s!"\x7b{min}..\x7d"
  | remainder => "..."

/-- A range that is empty or holds one number, and `exactly 0`, as the bounds to complain of. -/
def invalidRange? : Arity → Option (Nat × Nat)
  | range min (some max) => if max ≤ min then some (min, max) else none
  | exactly 0 => some (0, 0)
  | _ => none

end Arity

inductive Action where
  /-- Keeps the values of the last occurrence. -/
  | store
  | storeTrue
  | count
  /-- Collects the values of all occurrences. -/
  | append
  /-- Appends a constant of the argument for every occurrence. -/
  | appendConst
  /-- Asks for the help text of the command. -/
  | help
  deriving DecidableEq

namespace Action

def takesValues : Action → Bool
  | store | append => true
  | _ => false

/-- A repeatable flag is still offered after it was used. -/
def isRepeatable : Action → Bool
  | count | append | appendConst => true
  | _ => false

def name : Action → String
  | store => "Store"
  | storeTrue => "StoreTrue"
  | count => "Count"
  | append => "Append"
  | appendConst => "AppendConst"
  | help => "Help"

end Action

end Tabwise
