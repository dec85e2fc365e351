import Tabwise.Grammar.Flags

/-! # Assigning tokens to arguments

Completion and parsing feed tokens one by one through the same replay, so they agree on which
argument a token belongs to. A flag or a positional may be open, that is, collecting values; a
remainder takes every token. An open remainder positional is closed by `--`, a remainder flag
runs to the end of the line.
-/

namespace Tabwise

inductive Malformed where
  | unfinishedFlag (flag : String) (min : Nat) (max : Option Nat) (count : Nat)
  | notAllowedWith (argument other : String)
  deriving DecidableEq

/-- The number of values that was expected. -/
def expectedArgs (min : Nat) (max : Option Nat) : String :=
  let plural := if min = 1 then "" else "s"
  match max with
  | some max =>
    if max = min then s!"expected {min} argument{plural}"
    else s!"expected {min} to {max} arguments"
  | none => s!"expected at least {min} argument{plural}"

def unfinishedMessage (flag : String) (min : Nat) (max : Option Nat) (count : Nat) : String :=
  s!"argument {flag}: {expectedArgs min max} ({count} entered)"

def notAllowedMessage (argument other : String) : String :=
  s!"argument {argument}: not allowed with argument {other}"

def Malformed.message : Malformed → String
  | unfinishedFlag flag min max count => unfinishedMessage flag min max count
  | notAllowedWith argument other => notAllowedMessage argument other

structure Slot where
  id : Nat
  min : Nat
  max : Option Nat
  count : Nat
  remainder : Bool
  deriving DecidableEq

namespace Slot

def new (g : Grammar) (id : Nat) : Slot :=
  let a := g.argument id
  ⟨id, a.minArgs, a.maxArgs, 0, a.isRemainder⟩

def isFull (s : Slot) : Bool := s.max.any (· ≤ s.count)

def isUnfinished (s : Slot) : Bool := s.count < s.min

def next (s : Slot) : Slot := { s with count := s.count + 1 }

def unfinished (g : Grammar) (s : Slot) : Malformed :=
  .unfinishedFlag (g.argument s.id).displayName s.min s.max s.count

end Slot

/-- What a token turned out to be. -/
inductive Step where
  /-- A `--` that ended flags or an open remainder. -/
  | separator
  | flag (id : Nat)
  | unknownFlag
  | value (id : Nat)
  /-- The token selected a subcommand, which the rest of the line belongs to. -/
  | subcommand (id : Nat) (command : Subcommand)
  | unknownSubcommand (id : Nat)
  /-- A value that no positional is left for. -/
  | extra

/-- What is known after a number of tokens. -/
structure Replay where
  openFlag : Option Slot
  openPositional : Option Slot
  /-- Positionals that have not started. -/
  remaining : List Nat
  /-- Whether tokens are no longer read as flags. -/
  flagsOff : Bool
  /-- Whether a `--` outside of any remainder was seen. -/
  separated : Bool
  /-- Flags that are no longer offered. -/
  matched : List Nat
  /-- The values of the current occurrence. -/
  consumed : InsertionMap Nat (List String)
  /-- The values kept, as the action of the argument says. -/
  values : InsertionMap Nat (List String)
  occurrences : InsertionMap Nat Nat
  /-- The used member of an exclusive group. -/
  used : InsertionMap Nat Nat

namespace Replay

def start (g : Grammar) : Replay where
  openFlag := none
  openPositional := none
  remaining := g.positionals
  flagsOff := false
  separated := false
  matched := []
  consumed := .empty
  values := .empty
  occurrences := .empty
  used := .empty

def unfinishedFlag? (r : Replay) : Option Slot := r.openFlag.filter Slot.isUnfinished

def nextPositional? (g : Grammar) (r : Replay) : Option Slot :=
  r.openPositional.or (r.remaining.head?.map (Slot.new g))

def isMatched (r : Replay) (id : Nat) : Bool := r.matched.contains id

def consumedBy (r : Replay) (id : Nat) : List String := r.consumed.findD id []

def occurrencesOf (r : Replay) (id : Nat) : Nat := r.occurrences.findD id 0

def given (g : Grammar) (r : Replay) : List (String × List String) :=
  r.values.entries.map fun e => ((g.argument e.1).dest, e.2)

def matchFlag (r : Replay) (id : Nat) : Replay :=
  { r with matched := if r.matched.contains id then r.matched else r.matched ++ [id] }

def countOccurrence (r : Replay) (id : Nat) : Replay :=
  { r with occurrences := r.occurrences.update id 0 (· + 1) }

def pushValue (r : Replay) (id : Nat) (token : String) : Replay :=
  { r with
    consumed := r.consumed.update id [] (· ++ [token])
    values := r.values.update id [] (· ++ [token]) }

end Replay

end Tabwise
