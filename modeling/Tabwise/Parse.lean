import Tabwise.Line.Token
import Tabwise.Replay.Step

/-! # Parsing a finished line

Parsing replays the tokens as completion does and is strict: unknown flags, missing values and
unlisted choices are errors. Asking for help lifts the checks that are made at the end.
-/

namespace Tabwise

inductive ParseError where
  | unknownFlag (flag : String)
  | flagMissingArgument (flag : String) (min : Nat) (max : Option Nat) (count : Nat)
  | unexpectedArgument (token : String)
  | missingRequired (argument : String)
  | invalidChoice (argument value : String) (choices : List String)
  | unknownSubcommand (name : String) (choices : List String)
  | notAllowedWith (argument other : String)
  | unterminatedQuote (cause : Line.Unterminated)
  deriving DecidableEq

/-- Choices as a message lists them. -/
def quotedList (choices : List String) : String :=
  ", ".intercalate (choices.map fun c => s!"'{c}'")

def ParseError.message : ParseError → String
  | unknownFlag flag => s!"unknown flag '{flag}'"
  | flagMissingArgument flag min max count => unfinishedMessage flag min max count
  | unexpectedArgument token => s!"unrecognized argument '{token}'"
  | missingRequired argument => s!"the following argument is required: {argument}"
  | invalidChoice argument value choices =>
    s!"argument {argument}: invalid choice '{value}' (choose from {quotedList choices})"
  | unknownSubcommand name choices =>
    s!"unknown subcommand '{name}' (choose from {quotedList choices})"
  | notAllowedWith argument other => notAllowedMessage argument other
  | unterminatedQuote cause => cause.message

def Malformed.toParseError : Malformed → ParseError
  | unfinishedFlag flag min max count => .flagMissingArgument flag min max count
  | notAllowedWith argument other => .notAllowedWith argument other

structure Args where
  values : InsertionMap String (List String)
  counts : InsertionMap String Nat
  /-- The values of all positionals, in the order of the line. -/
  positionals : List String
  /-- The chosen subcommand and its own arguments. -/
  subcommand : Option (String × Args)
  /-- Whether help was asked for at this level. -/
  help : Bool

namespace Args

def getAll (a : Args) (name : String) : List String := a.values.findD name []

def get? (a : Args) (name : String) : Option String := (a.getAll name).getLast?

def count (a : Args) (name : String) : Nat := a.counts.findD name 0

def has (a : Args) (name : String) : Bool := 0 < a.count name

/-- Whether help was asked for at this level or below. -/
def helpRequested : Args → Bool
  | ⟨_, _, _, none, help⟩ => help
  | ⟨_, _, _, some (_, nested), help⟩ => help || nested.helpRequested

end Args

namespace Grammar

/-- The first argument that had to be given and was not: a flag before a positional. -/
def missing? (g : Grammar) (r : Replay) : Option Nat :=
  let flag := g.ids.find? fun i =>
    (g.argument i).isFlag && (g.argument i).mandatory && r.occurrencesOf i == 0
  let started := (r.openPositional.filter Slot.isUnfinished).map Slot.id
  let waiting := r.remaining.find? fun i => (g.argument i).isRequired
  flag.or (started.or waiting)

def unlisted? (g : Grammar) (r : Replay) : Option ParseError :=
  r.values.entries.findSome? fun (id, values) =>
    (g.argument id).choices.listedValues?.bind fun choices =>
      (values.find? fun v => !choices.contains v).map fun v =>
        .invalidChoice (g.argument id).displayName v choices

def validate (g : Grammar) (r : Replay) : Except ParseError Unit :=
  match r.unfinishedFlag?, g.missing? r, g.unlisted? r with
  | some s, _, _ => .error (s.unfinished g).toParseError
  | none, some id, _ => .error (.missingRequired (g.argument id).displayName)
  | none, none, some e => .error e
  | none, none, none => .ok ()

def helpGiven (g : Grammar) (r : Replay) : Bool :=
  g.ids.any fun i => (g.argument i).action = .help && 0 < r.occurrencesOf i

def collect (g : Grammar) (r : Replay) (positionals : List String)
    (subcommand : Option (String × Args)) : Args where
  values := .ofList (r.given g)
  counts := .ofList ((g.ids.filter fun i => 0 < r.occurrencesOf i).map fun i =>
    ((g.argument i).dest, r.occurrencesOf i))
  positionals := positionals
  subcommand := subcommand
  help := g.helpGiven r

def finish (g : Grammar) (r : Replay) (positionals : List String)
    (subcommand : Option (String × Args)) : Except ParseError Args := do
  if !g.helpGiven r then g.validate r
  return g.collect r positionals subcommand

/-- The names that an unknown subcommand could have been. -/
def subcommandNames (g : Grammar) (id : Nat) : List String :=
  ((g.argument id).subcommands?.map Subcommands.names).getD []

/-- Parses the tokens after a replay that has taken some positional values. -/
def parseFrom (abbreviated : Bool) (g : Grammar) (r : Replay) (positionals : List String) :
    List String → Except ParseError Args
  | [] => g.finish r positionals none
  | token :: rest =>
    match r.step g abbreviated token with
    | .error m => .error m.toParseError
    | .ok (.unknownFlag, _) => .error (.unknownFlag token)
    | .ok (.extra, _) => .error (.unexpectedArgument token)
    | .ok (.unknownSubcommand id, _) => .error (.unknownSubcommand token (g.subcommandNames id))
    | .ok (.subcommand _ command, r) => do
      let nested ← parseFrom abbreviated command.grammar (.start command.grammar) [] rest
      g.finish r positionals (some (command.name, nested))
    | .ok (.value id, r) =>
      let positionals := if (g.argument id).isFlag then positionals else positionals ++ [token]
      parseFrom abbreviated g r positionals rest
    | .ok (_, r) => parseFrom abbreviated g r positionals rest

def parse (g : Grammar) (abbreviated : Bool) (tokens : List String) : Except ParseError Args :=
  parseFrom abbreviated g (.start g) [] tokens

def parseLine (g : Grammar) (line : String) : Except ParseError Args := do
  let tokens ← (Line.tokenize line.toList).mapError .unterminatedQuote
  g.parse true (tokens.map Line.Token.content)

end Grammar

end Tabwise
