import Tabwise.Completion.Complete
import Tabwise.Grammar.Build
import Tabwise.Listing
import Tabwise.Parse

/-! # Commands by name

A registry holds commands under their names and aliases; a later command takes a name over. It
always has a `help` command, whose argument lists the other commands and which is declared anew
with every command that is added. A command's grammar may depend on the state of the session.
-/

namespace Tabwise.Shell

inductive CommandError where
  | notFound (name : String)
  | invalidArgs (name : String) (cause : ParseError)
  | failed (message : String)
  deriving DecidableEq

def CommandError.message : CommandError → String
  | notFound name => s!"command not found: {name}"
  | invalidArgs name cause => s!"{name}: {cause.message}"
  | failed message => message

/-- What the shell knows about a command. -/
structure Entry (σ : Type) where
  name : String
  aliases : List String
  doc : String
  grammar : σ → Grammar

/-- All commands as a running command sees them. -/
abbrev Directory (σ : Type) := InsertionMap String (Entry σ)

structure Reply (σ : Type) where
  state : σ
  printed : List String
  result : Except CommandError Unit

namespace Reply

variable {σ : Type}

def print (state : σ) (printed : List String) : Reply σ := ⟨state, printed, .ok ()⟩

def fail (state : σ) (e : CommandError) : Reply σ := ⟨state, [], .error e⟩

end Reply

structure Command (σ : Type) extends Entry σ where
  run : σ → Args → Directory σ → Reply σ

/-- The distinct names in lexical order. -/
def sortedNames (names : List String) : List String :=
  (Listing.firstOf id names).mergeSort fun a b => (Text.compareChars a.toList b.toList).isLE

namespace Directory

variable {σ : Type}

def names (d : Directory σ) : List String := sortedNames (d.values.map (·.name))

def listed (d : Directory σ) : List (Entry σ) := d.names.filterMap d.find?

end Directory

structure Registry (σ : Type) where
  commands : InsertionMap String (Command σ)

namespace Registry

variable {σ : Type}

def find? (r : Registry σ) (name : String) : Option (Command σ) := r.commands.find? name

def directory (r : Registry σ) : Directory σ :=
  ⟨r.commands.entries.map fun e => (e.1, e.2.toEntry)⟩

def names (r : Registry σ) : List String := r.directory.names

def insert (r : Registry σ) (c : Command σ) : Registry σ :=
  ⟨r.commands.extend ((c.name :: c.aliases).map (·, c))⟩

def helpDoc : String := "show the commands, or the usage of one command"

def overview (d : Directory σ) : String :=
  let width := (d.names.map (·.utf8ByteSize)).foldl max 0
  let lines := d.listed.map fun e => s!"  {e.name}{spaces (width - e.name.length)}  {e.doc}"
  "commands:\n" ++ "\n".intercalate lines

def manual (state : σ) (e : Entry σ) : String :=
  (e.grammar state).help ++
    if e.aliases.isEmpty then "" else "\n\naliases: " ++ ", ".intercalate e.aliases

def runHelp (state : σ) (args : Args) (d : Directory σ) : Reply σ :=
  match args.get? "command" with
  | none => .print state [overview d]
  | some name =>
    match d.find? name with
    | none => .fail state (.notFound name)
    | some e => .print state [manual state e]

/-- The commands that help tells about, itself last. -/
def helpTopics (d : Directory σ) : List Candidate :=
  ((d.names.filter (· ≠ "help")).filterMap d.find?).map (fun e => .described e.name e.doc) ++
    [.described "help" helpDoc]

def helpDraft (topics : List Candidate) : Draft :=
  { Draft.new "help" with
    description := some helpDoc
    arguments := [{ Argument.new .positional "command" with
      arity := .optional
      choices := .listed topics
      help := some "command to describe" }] }

def helpCommand (d : Directory σ) : Command σ where
  name := "help"
  aliases := []
  doc := helpDoc
  grammar := fun _ => (helpDraft (helpTopics d)).grammar
  run := runHelp

def refreshHelp (r : Registry σ) : Registry σ := r.insert (helpCommand r.directory)

def new : Registry σ := refreshHelp ⟨.empty⟩

def register (r : Registry σ) (c : Command σ) : Registry σ := (r.insert c).refreshHelp

def commandNames (r : Registry σ) (o : Options) (typed : String) : Outcome :=
  let found := (r.names.filter (o.accepts · typed)).filterMap r.find?
  if found.isEmpty then .nothing
  else .candidates {
    candidates := found.map fun c => .described c.name c.doc
    metavar := some "COMMAND" }

/-- Completes a line at the cursor: the first word to a command name, the rest by the grammar of
the command. -/
def completeLine (r : Registry σ) (state : σ) (o : Options) (line : String) (start cursor : Nat) :
    Except String Outcome :=
  let split := Line.split (Text.takeBytes cursor line.toList)
  if split.completesCommand then .ok (r.commandNames o split.command)
  else match r.find? split.command with
    | some c => Completion.complete (c.grammar state) o line start cursor
    | none => .ok .nothing

/-- Parses a line and runs the command it names. A blank line does nothing. -/
def execute (r : Registry σ) (state : σ) (line : String) : Reply σ :=
  let split := Line.split line.toList
  if split.command.isEmpty then .print state []
  else match r.find? split.command with
    | none => .fail state (.notFound split.command)
    | some c =>
      match (c.grammar state).parseLine split.rest with
      | .error e => .fail state (.invalidArgs c.name e)
      | .ok args =>
        if args.helpRequested then .print state [(c.grammar state).help]
        else c.run state args r.directory

end Registry

end Tabwise.Shell
