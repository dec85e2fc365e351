import Tabwise.Grammar.Flags

/-! # Building a grammar

A draft is what was declared. Building adds the help flag, names flags without a name after
their first long alias, and rejects drafts that cannot be used: the first mistake found decides
the error. Nested grammars are renamed after the way that leads to them.
-/

namespace Tabwise

structure Draft where
  prog : String
  description : Option String
  prefixChars : String
  arguments : List Argument
  /-- Names of arguments of which at most one may be given. -/
  groups : List (List String)
  helpFlag : Bool

inductive BuildError where
  | invalidRange (name : String) (min max : Nat)
  | unboundedNotLast (name : String)
  | duplicateAlias (name : String)
  | invalidFlagAlias (name prefixChars : String)
  | missingAlias
  | duplicateSubcommand (name : String)
  | unknownAliasTarget (name target : String)
  | valuelessPositional (name : String) (action : Action)
  | unknownExclusiveMember (name : String)
  | positionalInExclusiveGroup (name : String)
  deriving DecidableEq

def BuildError.message : BuildError → String
  | invalidRange name min max =>
    s!"argument '{name}': invalid nargs range {min}..{max}, the maximum must exceed the minimum"
  | unboundedNotLast name =>
    s!"positional '{name}' takes an unbounded number of values or selects a subcommand, " ++
      "so it must be the last positional"
  | duplicateAlias name => s!"flag alias '{name}' is declared more than once"
  | invalidFlagAlias name prefixChars =>
    s!"flag alias '{name}' must start with one of '{prefixChars}' followed by a name"
  | missingAlias => "a flag must declare at least one alias"
  | duplicateSubcommand name => s!"subcommand '{name}' is declared more than once"
  | unknownAliasTarget name target =>
    s!"subcommand alias '{name}' refers to unknown subcommand '{target}'"
  | valuelessPositional name action =>
    s!"positional '{name}' uses {action.name}, which takes no values"
  | unknownExclusiveMember name => s!"mutually exclusive group member '{name}' is not an argument"
  | positionalInExclusiveGroup name =>
    s!"positional '{name}' is required so it cannot be in a mutually exclusive group"

mutual

/-- Gives a grammar its name, and every nested grammar the name of the way to it. -/
def Grammar.rename (prog : String) : Grammar → Grammar
  | ⟨_, description, prefixChars, arguments, groups⟩ =>
    ⟨prog, description, prefixChars, renameArguments prog arguments, groups⟩

def renameArguments (prog : String) : List Argument → List Argument
  | [] => []
  | a :: rest => a.rename prog :: renameArguments prog rest

def Argument.rename (prog : String) : Argument → Argument
  | ⟨kind, dest, arity, action, choices, help, metavar, header, constant, mandatory, hidden,
      suppressHint⟩ =>
    ⟨kind.rename prog, dest, arity, action, choices, help, metavar, header, constant, mandatory,
      hidden, suppressHint⟩

def Argument.Kind.rename (prog : String) : Argument.Kind → Argument.Kind
  | .flag aliases => .flag aliases
  | .positional => .positional
  | .selector ⟨commands, aliases⟩ => .selector ⟨renameSubcommands prog commands, aliases⟩

def renameSubcommands (prog : String) : List Subcommand → List Subcommand
  | [] => []
  | ⟨name, help, grammar⟩ :: rest =>
    ⟨name, help, grammar.rename (prog ++ " " ++ name)⟩ :: renameSubcommands prog rest

end

/-- An alias starts with a prefix character, goes on and has no white space. -/
def isValidAlias (prefixChars name : String) : Bool :=
  match name.toList with
  | c :: _ :: _ => isPrefixChar prefixChars c && !name.toList.any Text.isWhite
  | _ => false

/-- A long alias starts with two prefix characters and goes on. -/
def isLongAlias (prefixChars name : String) : Bool :=
  match name.toList with
  | a :: b :: _ :: _ => isPrefixChar prefixChars a && isPrefixChar prefixChars b
  | _ => false

/-- The name of a flag: its first long alias, or else its first alias, without the prefix
characters and with underscores for dashes. -/
def flagDest (prefixChars : String) (aliases : List String) : String :=
  let name := ((aliases.find? (isLongAlias prefixChars)).or aliases.head?).getD ""
  String.ofList <| (name.toList.dropWhile (isPrefixChar prefixChars)).map fun c =>
    if c = '-' then '_' else c

def Argument.named (prefixChars : String) (a : Argument) : Argument :=
  match a.kind with
  | .flag aliases => if a.dest.isEmpty then { a with dest := flagDest prefixChars aliases } else a
  | _ => a

def helpFlag (prefixChars : String) : Argument :=
  let c := prefixChars.toList.head?.getD '-'
  { Argument.new (.flag [String.ofList [c, 'h'], String.ofList [c, c, 'h', 'e', 'l', 'p']]) "" with
    action := .help
    help := some "show this help message and exit" }

def firstRepeated? (seen : List String) : List String → Option String
  | [] => none
  | s :: rest => if seen.contains s then some s else firstRepeated? (seen ++ [s]) rest

def Subcommands.check (s : Subcommands) : Except BuildError Unit :=
  match firstRepeated? [] s.tokens with
  | some name => .error (.duplicateSubcommand name)
  | none =>
    match s.aliases.find? fun a => !s.names.contains a.2 with
    | some (name, target) => .error (.unknownAliasTarget name target)
    | none => .ok ()

/-- Checks aliases of a flag against those before them and returns all. -/
def checkAliases (prefixChars : String) (seen : List String) :
    List String → Except BuildError (List String)
  | [] => .ok seen
  | name :: rest =>
    if !isValidAlias prefixChars name then .error (.invalidFlagAlias name prefixChars)
    else if seen.contains name then .error (.duplicateAlias name)
    else checkAliases prefixChars (seen ++ [name]) rest

/-- Checks what an argument of its kind must have and returns all aliases so far. -/
def Argument.checkKind (prefixChars : String) (seen : List String) (a : Argument) :
    Except BuildError (List String) :=
  match a.kind with
  | .flag [] => .error .missingAlias
  | .flag aliases => checkAliases prefixChars seen aliases
  | .positional =>
    if a.action.takesValues then .ok seen else .error (.valuelessPositional a.dest a.action)
  | .selector s => s.check.map fun _ => seen

/-- The number of values matters if the action takes values. -/
def Argument.checkRange (a : Argument) : Except BuildError Unit :=
  match a.action.takesValues, a.arity.invalidRange? with
  | true, some (min, max) => .error (.invalidRange a.displayName min max)
  | _, _ => .ok ()

def Argument.check (prefixChars : String) (seen : List String) (a : Argument) :
    Except BuildError (List String) := do
  let seen ← a.checkKind prefixChars seen
  a.checkRange
  return seen

def checkArguments (prefixChars : String) (seen : List String) :
    List Argument → Except BuildError Unit
  | [] => .ok ()
  | a :: rest => do checkArguments prefixChars (← a.check prefixChars seen) rest

/-- Only the last positional may be unbounded or a selector. -/
def checkPositionals (positionals : List Argument) : Except BuildError Unit :=
  match positionals.dropLast.find? fun a => a.maxArgs.isNone || a.subcommands?.isSome with
  | some a => .error (.unboundedNotLast a.dest)
  | none => .ok ()

def memberIndex? (arguments : List Argument) (name : String) : Option Nat :=
  arguments.findIdx? (·.dest == name)

/-- A group member must be an argument that can be left out. -/
def checkMember (arguments : List Argument) (name : String) : Except BuildError Unit :=
  match arguments.find? (·.dest == name) with
  | none => .error (.unknownExclusiveMember name)
  | some a =>
    if !a.isFlag && 0 < a.minArgs then .error (.positionalInExclusiveGroup name) else .ok ()

def checkMembers (arguments : List Argument) : List String → Except BuildError Unit
  | [] => .ok ()
  | name :: rest => do
    checkMember arguments name
    checkMembers arguments rest

namespace Draft

def new (prog : String) : Draft := ⟨prog, none, "-", [], [], false⟩

/-- The declared arguments with the help flag in front and all flags named. -/
def finished (d : Draft) : List Argument :=
  ((if d.helpFlag then [Tabwise.helpFlag d.prefixChars] else []) ++ d.arguments).map
    (·.named d.prefixChars)

def check (d : Draft) : Except BuildError Unit := do
  checkArguments d.prefixChars [] d.finished
  checkPositionals (d.finished.filter (!·.isFlag))
  checkMembers d.finished d.groups.flatten

/-- What a draft declares, before grammars get their names. -/
def unnamed (d : Draft) : Grammar where
  prog := ""
  description := d.description
  prefixChars := d.prefixChars
  arguments := d.finished
  groups := d.groups.map (·.filterMap (memberIndex? d.finished))

/-- The grammar that a draft without mistakes declares. -/
def grammar (d : Draft) : Grammar := d.unnamed.rename d.prog

def build (d : Draft) : Except BuildError Grammar := d.check.map fun _ => d.grammar

/-- A draft from its flags, positionals and an optional selector, in this order. -/
def ofParts (prog : String) (flags positionals : List Argument)
    (selector : Option Argument) : Draft :=
  { new prog with arguments := flags ++ positionals ++ selector.toList }

end Draft

end Tabwise
