import Tabwise.Completion.Options
import Tabwise.Completion.Outcome

/-! # Completing flag names

All aliases are offered that the typed text starts and whose flag can still be given. They are
listed with one line for each flag, in brackets if the flag can be left out.
-/

namespace Tabwise.Completion

def offersAlias (g : Grammar) (o : Options) (r : Replay) (text : String)
    (f : String × Nat) : Bool :=
  !(g.argument f.2).hidden && !r.isMatched f.2 && o.accepts f.1 text

/-- The offered aliases of each flag, in order of declaration. -/
def offeredFlags (g : Grammar) (o : Options) (r : Replay) (text : String) :
    InsertionMap Nat (List String) :=
  (g.flags.filter (offersAlias g o r text)).foldl
    (fun groups f => groups.update f.2 [] (· ++ [f.1])) .empty

def flagLine (g : Grammar) (entry : Nat × List String) : String :=
  let names := ", ".intercalate entry.2
  if (g.argument entry.1).isRequired then names else s!"[{names}]"

def flagNames (g : Grammar) (o : Options) (r : Replay) (text : String) : Outcome :=
  let offered := offeredFlags g o r text
  if offered.entries.isEmpty then .nothing
  else .candidates {
    candidates := offered.values.flatten.map .plain
    display := offered.entries.map (flagLine g) }

end Tabwise.Completion
