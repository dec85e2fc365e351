import Tabwise.Replay.Basic

/-! # What completion answers

Either candidates, or help for the argument being filled, or nothing, or the reason why the line
is malformed.
-/

namespace Tabwise

structure Completions where
  candidates : List Candidate
  /-- Lines to list in place of the candidates. -/
  display : List String := []
  /-- Whether the candidates are in the order to show them. -/
  sorted : Bool := false
  /-- The title above the candidates. -/
  metavar : Option String := none
  descriptiveHeader : Option String := none
  deriving DecidableEq

inductive Outcome where
  | candidates (completions : Completions)
  | hint (text : String)
  | nothing
  | malformed (reason : Malformed)
  deriving DecidableEq

def Outcome.completions? : Outcome → Option Completions
  | candidates c => some c
  | _ => none

end Tabwise
