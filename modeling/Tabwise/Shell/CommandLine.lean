import Tabwise.Grammar.Usage
import Tabwise.Number.Count
import Tabwise.Text.Bytes

/-! # The command line of the shell

Flags can be clustered after one dash. The value of an option is attached to it or is the next
word, unless that looks like a flag. What was given to an option is looked at only when the next
option or the end of the line is reached, so a flag that is not known is reported before a wrong
value in front of it.
-/

namespace Tabwise.Shell

inductive Key where
  | verbosity | log | config | width | complete | cursor | help | version
  deriving DecidableEq

/-- A flag, or an option if it has a placeholder for its value. -/
structure Switch where
  key : Key
  short : Option Char
  long : Option String
  placeholder : Option String
  help : String

def switches : List Switch := [
  ⟨.verbosity, some 'v', none, none, "Increase logging verbosity (repeat for more detail)"⟩,
  ⟨.log, none, some "log", some "FILE", "Save logs to a specific file"⟩,
  ⟨.config, some 'c', some "config", some "FILE", "Load configuration from a specific file"⟩,
  ⟨.width, some 'w', some "width", some "COLUMNS",
    "Lay out completions for a terminal this many columns wide"⟩,
  ⟨.complete, none, some "complete", some "LINE", "Print the completions for LINE and exit"⟩,
  ⟨.cursor, none, some "cursor", some "OFFSET",
    "Byte offset of the cursor in the completed line (defaults to its end)"⟩,
  ⟨.help, some 'h', some "help", none, "Print help"⟩,
  ⟨.version, some 'V', some "version", none, "Print version"⟩]

inductive UsageError where
  | helpAsked
  | versionAsked
  | unknown
  /-- An option without a value, or with an empty one. -/
  | missingValue
  | notANumber
  | repeated
  /-- A value attached to a flag. -/
  | surplusValue
  /-- A cursor without a line to complete. -/
  | cursorWithoutLine
  | badCursor (cursor length : Nat)
  deriving DecidableEq

structure Values where
  verbosity : Nat := 0
  log : Option String := none
  config : Option String := none
  width : Option Nat := none
  line : Option String := none
  cursor : Option Nat := none

namespace Values

def given (v : Values) : Key → Bool
  | .log => v.log.isSome
  | .config => v.config.isSome
  | .width => v.width.isSome
  | .complete => v.line.isSome
  | .cursor => v.cursor.isSome
  | .verbosity | .help | .version => false

def fileName (text : String) : Except UsageError String :=
  if text.isEmpty then .error .missingValue else .ok text

def number (text : String) : Except UsageError Nat :=
  (Number.readCount Number.maxWord text.toList).mapError fun _ => .notANumber

def set (v : Values) (key : Key) (text : String) : Except UsageError Values :=
  if v.given key then .error .repeated
  else match key with
    | .log => (fileName text).map ({ v with log := some · })
    | .config => (fileName text).map ({ v with config := some · })
    | .width => (number text).map ({ v with width := some · })
    | .complete => .ok { v with line := some text }
    | .cursor => (number text).map ({ v with cursor := some · })
    | .verbosity | .help | .version => .ok v

/-- The verbosity is kept in a byte. -/
def maxVerbosity : Nat := 255

def raise (v : Values) : Key → Except UsageError Values
  | .verbosity => .ok { v with verbosity := min (v.verbosity + 1) maxVerbosity }
  | .help => .error .helpAsked
  | .version => .error .versionAsked
  | _ => .ok v

end Values

structure Intake where
  values : Values := {}
  pending : Option (Key × Option String) := none

namespace Intake

def settle (i : Intake) : Except UsageError Values :=
  match i.pending with
  | none => .ok i.values
  | some (_, none) => .error .missingValue
  | some (key, some text) => i.values.set key text

def raise (i : Intake) (key : Key) : Except UsageError Intake :=
  (i.settle.bind (·.raise key)).map fun values => { values }

def takeOption (i : Intake) (key : Key) : Option String → Except UsageError Intake
  | none => i.settle.map fun values => { values, pending := some (key, none) }
  | some text => (i.settle.bind (·.set key text)).map fun values => { values }

/-- The name of a long option and the value attached to it. -/
def splitLong (name : List Char) : String × Option String :=
  (String.ofList (name.takeWhile (· ≠ '=')), match name.dropWhile (· ≠ '=') with
    | [] => none
    | _ :: value => some (String.ofList value))

def takeLong (i : Intake) (name : List Char) : Except UsageError Intake :=
  let (name, value) := splitLong name
  match switches.find? (·.long = some name), value with
  | none, _ => .error .unknown
  | some s, value =>
    if s.placeholder.isSome then i.takeOption s.key value
    else if value.isSome then .error .surplusValue
    else i.raise s.key

/-- The value that follows a short option in its cluster, after an equals sign or at once. -/
def attached : List Char → Option String
  | [] => none
  | '=' :: cs => some (String.ofList cs)
  | cs => some (String.ofList cs)

def takeShort (i : Intake) : List Char → Except UsageError Intake
  | [] => .ok i
  | c :: cs =>
    match switches.find? (·.short = some c) with
    | none => .error .unknown
    | some s =>
      if s.placeholder.isSome then i.takeOption s.key (attached cs)
      else (i.raise s.key).bind fun i => i.takeShort cs

/-- Takes a word that is no flag: only an option without a value has a place for it. -/
def takeValue (i : Intake) (word : String) : Except UsageError Intake :=
  match i.pending with
  | some (key, none) => .ok { i with pending := some (key, some word) }
  | _ => .error .unknown

def takeWord (i : Intake) (word : String) : Except UsageError Intake :=
  match word.toList with
  | '-' :: '-' :: name => i.takeLong name
  | '-' :: c :: cs => i.takeShort (c :: cs)
  | _ => i.takeValue word

/-- Takes all words. Nothing may follow two dashes. -/
def takeWords (i : Intake) : List String → Except UsageError Intake
  | [] => .ok i
  | word :: rest =>
    if word = "--" then if rest.isEmpty then .ok i else .error .unknown
    else (i.takeWord word).bind fun i => i.takeWords rest

end Intake

structure Invocation where
  verbosity : Nat
  logFile : Option String
  configFile : Option String
  width : Option Nat
  /-- A line to complete, with the cursor in it. -/
  complete : Option (String × Nat)
  deriving DecidableEq

/-- The line to complete with its cursor, which stands at the end if none is given. -/
def Values.complete (v : Values) : Except UsageError (Option (String × Nat)) :=
  match v.line, v.cursor with
  | none, none => .ok none
  | none, some _ => .error .cursorWithoutLine
  | some line, given =>
    let cursor := given.getD line.utf8ByteSize
    if Text.isBoundary cursor line.toList then .ok (some (line, cursor))
    else .error (.badCursor cursor line.utf8ByteSize)

def Invocation.ofArguments (arguments : List String) : Except UsageError Invocation := do
  let values ← (← Intake.takeWords {} arguments).settle
  return {
    verbosity := values.verbosity
    logFile := values.log
    configFile := values.config
    width := values.width
    complete := ← values.complete }

/-- The forms of a switch, as the help text shows them. -/
def Switch.forms (s : Switch) : String :=
  let value := match s.placeholder with
    | some p => s!" <{p}>"
    | none => ""
  match s.short, s.long with
  | some c, some name => s!"-{c}, --{name}{value}"
  | none, some name => s!"    --{name}{value}"
  | some c, none => s!"-{c}..."
  | none, none => ""

def commandName : String := "the-shell"

def version : String := "0.1.0"

def versionText : String := s!"{commandName} {version}\n"

def helpText : String :=
  let column := (switches.map (·.forms.length)).foldl max 0
  s!"Usage: {commandName} [OPTIONS]\n\nOptions:\n" ++ String.join (switches.map fun s =>
    s!"  {padTo column s.forms}  {s.help}\n")

end Tabwise.Shell
