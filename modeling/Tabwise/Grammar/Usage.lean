import Tabwise.Grammar.Basic
import Tabwise.Text.Display

/-! # Usage lines and help texts

Hidden arguments are left out. The help text lists positionals and then flags, each with its
help in one column; an invocation that is wider than the column has its help on the next line.
-/

namespace Tabwise

abbrev widthOf (s : String) : Nat := Text.unicode.widthOf s

abbrev padTo (width : Nat) (s : String) : String := Text.unicode.padTo width s

abbrev truncateTo (width : Nat) (s : String) : String := Text.unicode.truncateTo width s

def spaces (n : Nat) : String := String.ofList (List.replicate n ' ')

namespace Grammar

def shownFlags (g : Grammar) : List Argument := g.arguments.filter fun a => a.isFlag && !a.hidden

def shownPositionals (g : Grammar) : List Argument :=
  (g.positionals.map g.argument).filter (!·.hidden)

def usageFlag (a : Argument) : String :=
  let name := a.aliases.head?.getD ""
  let part := if a.usageArgs.isEmpty then name else s!"{name} {a.usageArgs}"
  if a.isRequired then part else s!"[{part}]"

def usage (g : Grammar) : String :=
  "usage: " ++ " ".intercalate
    (g.prog :: g.shownFlags.map usageFlag ++ g.shownPositionals.map (·.usageArgs))

abbrev HelpRow := String × Option String

def positionalRows (g : Grammar) : List HelpRow :=
  g.shownPositionals.flatMap fun a =>
    (a.invocation, a.help) :: match a.subcommands? with
      | some s => s.commands.map fun c => ("  " ++ c.name, c.help)
      | none => []

def flagRows (g : Grammar) : List HelpRow := g.shownFlags.map fun a => (a.invocation, a.help)

/-- Wider invocations do not widen the column. -/
def maxHelpColumn : Nat := 24

def helpColumn (rows : List HelpRow) : Nat :=
  ((rows.map fun r => widthOf r.1).filter (· ≤ maxHelpColumn)).foldl max 0

def helpLine (column : Nat) : HelpRow → String
  | (invocation, none) => s!"\n  {invocation}"
  | (invocation, some text) =>
    if column < widthOf invocation then s!"\n  {invocation}\n  {spaces (column + 2)}{text}"
    else s!"\n  {padTo column invocation}  {text}"

def helpSection (column : Nat) (title : String) (rows : List HelpRow) : String :=
  if rows.isEmpty then "" else s!"\n\n{title}:" ++ String.join (rows.map (helpLine column))

def help (g : Grammar) : String :=
  let column := helpColumn (g.positionalRows ++ g.flagRows)
  g.usage ++ (match g.description with
    | some d => "\n\n" ++ d
    | none => "") ++
    helpSection column "positional arguments" g.positionalRows ++
    helpSection column "options" g.flagRows

end Grammar

end Tabwise
