import Tabwise.Completion.Options
import Tabwise.Completion.Outcome
import Tabwise.Number.Decimal
import Tabwise.Replay.Basic

/-! # Completing the values of an argument

Values that the current occurrence has already used are left out, and so is what the typed text
does not start. If all that remain are numbers they are put in numeric order, unless their source
has put them in order.
-/

namespace Tabwise

/-- The candidates of an argument without those already used, and whether they are in order. -/
def Argument.resolve (a : Argument) (consumed : List String) (context : Context) :
    Except String (List Candidate × Bool) := do
  let (all, presorted) ← match a.subcommands? with
    | some set => pure (set.candidates, false)
    | none => (a.choices.candidates context).map (·, a.choices.isPresorted)
  return (all.filter fun c => !consumed.contains c.value, presorted)

namespace Completion

/-- The numbers that the candidates are, if they all are. -/
def numbers? (cs : List Candidate) : Option (List (Number.Binary64 × Candidate)) :=
  cs.mapM fun c => (Number.read? c.value.toList).map (·, c)

/-- Numbers in numeric order, as they were where they are equal. -/
def sortNumbers (keyed : List (Number.Binary64 × Candidate)) : List Candidate :=
  (keyed.mergeSort fun a b => a.1.le b.1).map (·.2)

/-- Candidates in the order found or in numeric order, and whether that is the order to show. -/
def arrange (presorted : Bool) (cs : List Candidate) : List Candidate × Bool :=
  if presorted || cs.isEmpty then (cs, presorted)
  else match numbers? cs with
    | some keyed => (sortNumbers keyed, true)
    | none => (cs, false)

/-- The candidates for the next value of an open or starting argument. -/
def values (g : Grammar) (o : Options) (r : Replay) (context : Context) (s : Slot) :
    Except String Completions := do
  let a := g.argument s.id
  let (found, presorted) ← a.resolve (r.consumedBy s.id) context
  let (candidates, sorted) := arrange presorted (found.filter fun c => o.accepts c.value context.text)
  return {
    candidates, sorted
    metavar := some a.header
    descriptiveHeader := a.descriptiveHeader }

def hint (g : Grammar) (s : Slot) : Outcome :=
  let a := g.argument s.id
  if a.hidden || a.suppressHint then .nothing
  else match a.help with
    | some help => .hint s!"Hint:\n  {a.invocation}  {help}"
    | none => if s.isUnfinished then .hint s!"Hint:\n  {a.invocation}" else .nothing

end Completion

end Tabwise
