import Tabwise.Grammar.Candidate
import Tabwise.Grammar.Arity
import Tabwise.Text.Chars
import Tabwise.Text.Case

/-! # Grammars of commands

A grammar declares the flags and positionals of a command. A selector is a positional that picks
a nested grammar by name or alias. Arguments are referred to by their place in the declaration.
-/

namespace Tabwise

mutual

inductive Argument.Kind where
  | flag (aliases : List String)
  | positional
  | selector (set : Subcommands)

/-- The nested commands of a selector; an alias stands for the name of one of them. -/
structure Subcommands where
  commands : List Subcommand
  aliases : List (String × String)

structure Subcommand where
  name : String
  help : Option String
  grammar : Grammar

structure Argument where
  kind : Argument.Kind
  /-- The name that values are stored under. -/
  dest : String
  arity : Arity
  action : Action
  choices : Choices
  help : Option String
  metavar : Option String
  /-- The label above descriptions of this argument's candidates. -/
  descriptiveHeader : Option String
  /-- The value that `Action.appendConst` appends. -/
  constant : Option String
  /-- Whether a flag or selector must be given. -/
  mandatory : Bool
  /-- Hidden arguments are not offered and have no line in the help text. -/
  hidden : Bool
  suppressHint : Bool

structure Grammar where
  prog : String
  description : Option String
  /-- The characters that a flag may start with. -/
  prefixChars : String
  arguments : List Argument
  /-- Arguments of which at most one may be given. -/
  groups : List (List Nat)

end

def Argument.new (kind : Argument.Kind) (dest : String) : Argument where
  kind := kind
  dest := dest
  arity := .exactly 1
  action := .store
  choices := .absent
  help := none
  metavar := none
  descriptiveHeader := none
  constant := none
  mandatory := match kind with
    | .selector _ => true
    | _ => false
  hidden := false
  suppressHint := false

instance : Inhabited Argument := ⟨.new .positional ""⟩

namespace Subcommands

/-- The subcommand that a token selects; an alias wins over a name. -/
def select? (s : Subcommands) (token : String) : Option Subcommand :=
  let name := ((s.aliases.find? (·.1 == token)).map (·.2)).getD token
  s.commands.find? (·.name == name)

def names (s : Subcommands) : List String := s.commands.map (·.name)

/-- All tokens that select something, names first. -/
def tokens (s : Subcommands) : List String := s.names ++ s.aliases.map (·.1)

def candidates (s : Subcommands) : List Candidate :=
  s.commands.map (fun c => ⟨c.name, c.help⟩) ++ s.aliases.map fun a => .plain a.1

end Subcommands

namespace Argument

def braced (values : List String) : String := "\x7b" ++ ",".intercalate values ++ "\x7d"

def aliases (a : Argument) : List String :=
  match a.kind with
  | .flag aliases => aliases
  | _ => []

def isFlag (a : Argument) : Bool :=
  match a.kind with
  | .flag _ => true
  | _ => false

def subcommands? (a : Argument) : Option Subcommands :=
  match a.kind with
  | .selector s => some s
  | _ => none

def minArgs (a : Argument) : Nat :=
  match a.kind with
  | .selector _ => 1
  | _ => if a.action.takesValues then a.arity.min else 0

def maxArgs (a : Argument) : Option Nat :=
  match a.kind with
  | .selector _ => some 1
  | _ => if a.action.takesValues then a.arity.max else some 0

def isRemainder (a : Argument) : Bool := a.action.takesValues && a.arity = .remainder

/-- A positional is required by its arity, other arguments by declaration. -/
def isRequired (a : Argument) : Bool :=
  match a.kind with
  | .positional => 0 < a.minArgs
  | _ => a.mandatory

def displayName (a : Argument) : String :=
  match a.kind with
  | .flag aliases => "/".intercalate aliases
  | _ => a.metavar.getD a.dest

def placeholder (a : Argument) : String :=
  match a.metavar, a.choices.listedValues?, a.kind with
  | some m, _, _ => m
  | none, some values, _ => braced values
  | none, none, .flag _ => Text.upperString a.dest
  | none, none, .positional => a.dest
  | none, none, .selector s => braced s.names

/-- The title above the column of this argument's candidates. -/
def header (a : Argument) : String := Text.upperString (a.metavar.getD a.dest)

def usageArgs (a : Argument) : String :=
  match a.kind with
  | .selector _ => s!"{a.placeholder} ..."
  | _ => if a.action.takesValues then a.arity.format a.placeholder else ""

def invocation (a : Argument) : String :=
  match a.kind with
  | .flag aliases =>
    let names := ", ".intercalate aliases
    if a.usageArgs.isEmpty then names else s!"{names} {a.usageArgs}"
  | _ => a.placeholder

end Argument

namespace Grammar

/-- The argument at a place of the declaration. -/
def argument (g : Grammar) (id : Nat) : Argument := g.arguments[id]?.getD default

/-- The places of all arguments. -/
def ids (g : Grammar) : List Nat := List.range g.arguments.length

def find? (g : Grammar) (dest : String) : Option Nat := g.ids.find? fun i => (g.argument i).dest == dest

/-- Every alias of a flag with the place of the flag, in order of declaration. -/
def flags (g : Grammar) : List (String × Nat) :=
  g.ids.flatMap fun i => (g.argument i).aliases.map (·, i)

/-- The places of positionals and selectors. -/
def positionals (g : Grammar) : List Nat := g.ids.filter fun i => !(g.argument i).isFlag

def subcommands? (g : Grammar) : Option Subcommands :=
  g.positionals.findSome? fun i => (g.argument i).subcommands?

end Grammar

end Tabwise
