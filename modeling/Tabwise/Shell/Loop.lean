import Tabwise.Config.Settings
import Tabwise.Prompt
import Tabwise.Shell.Registry

/-! # The read loop

The shell prompts for a line and executes it, until the input ends or a line says `quit` or
`exit`. A line that ends in a tab shows the completions of what stands before the tab. An error
is reported and does not end the loop; only input that is no text does.
-/

namespace Tabwise.Shell

/-- What the shell writes, in order. -/
inductive Event where
  | prompt (text : String)
  | printed (text : String)
  | shown (line : String)
  | complaint (message : String)
  deriving DecidableEq

namespace Event

def output : Event → String
  | prompt text => text
  | printed line | shown line => line ++ "\n"
  | complaint _ => ""

def errorOutput : Event → String
  | complaint message => s!"error: {message}\n"
  | _ => ""

end Event

/-- The lines that show an outcome: its listing and the completed line. -/
def completionLines (o : Options) (width : Nat) (line : String) (start cursor : Nat)
    (outcome : Outcome) : List String :=
  Prompt.render o width outcome ++ match outcome.completions? with
    | none => []
    | some c =>
      (Prompt.completedLine? line start cursor (Listing.ofCompletions o width c).matched).toList

def showCompletions {σ : Type} (r : Registry σ) (state : σ) (o : Options) (width : Nat)
    (line : String) (cursor : Nat) : Except String (List String) :=
  let start := Line.tokenStart line.toList cursor
  match r.completeLine state o line start cursor with
  | .ok outcome => .ok (completionLines o width line start cursor outcome)
  | .error e => .error s!"completion failed: {e}"

/-- The text before a tab at the end of a line. -/
def beforeTab? (line : List Char) : Option (List Char) :=
  if line.getLast? = some '\t' then some line.dropLast else none

def isQuit (line : List Char) : Bool :=
  let word := String.ofList (Text.trim line)
  word = "quit" || word = "exit"

structure Setup (σ : Type) where
  registry : Registry σ
  settings : Config.Settings
  width : Nat

structure Finish (σ : Type) where
  state : σ
  events : List Event
  /-- Whether a line of the input was no text. -/
  broken : Bool

def Finish.after {σ : Type} (events : List Event) (f : Finish σ) : Finish σ :=
  { f with events := events ++ f.events }

namespace Setup

variable {σ : Type}

def prompt (s : Setup σ) : Event := .prompt s.settings.prompt

def executeLine (s : Setup σ) (state : σ) (line : String) : σ × List Event :=
  let reply := s.registry.execute state line
  (reply.state, reply.printed.map .printed ++ match reply.result with
    | .ok () => []
    | .error e => [.complaint e.message])

def completeLine (s : Setup σ) (state : σ) (line : String) : List Event :=
  match showCompletions s.registry state s.settings.completion s.width line line.utf8ByteSize with
  | .ok lines => lines.map .shown
  | .error e => [.complaint e]

/-- Takes one line of input; none if it ends the loop. -/
def step (s : Setup σ) (state : σ) (line : String) : Option (σ × List Event) :=
  let chars := Text.dropEndWhile (· == '\r') line.toList
  if isQuit chars then none
  else match beforeTab? chars with
    | some typed => some (state, s.completeLine state (String.ofList typed))
    | none => some (s.executeLine state (String.ofList chars))

/-- Runs the loop over the lines of its input; a line that is no text is none. -/
def run (s : Setup σ) (state : σ) : List (Option String) → Finish σ
  | [] => ⟨state, [s.prompt], false⟩
  | none :: _ => ⟨state, [s.prompt], true⟩
  | some line :: rest =>
    match s.step state line with
    | none => ⟨state, [s.prompt], false⟩
    | some (state, events) => (s.run state rest).after (s.prompt :: events)

end Setup

/-- The text of bytes that were read in reverse, if they are UTF-8. -/
def decodeReversed? (bytes : List UInt8) : Option String :=
  String.fromUTF8? ⟨bytes.reverse.toArray⟩

/-- The lines of an input in bytes, with the line being read in reverse. -/
def inputLinesFrom (current : List UInt8) : List UInt8 → List (Option String)
  | [] => if current.isEmpty then [] else [decodeReversed? current]
  | b :: bs =>
    if b = 10 then decodeReversed? current :: inputLinesFrom [] bs
    else inputLinesFrom (b :: current) bs

def inputLines (input : ByteArray) : List (Option String) := inputLinesFrom [] input.toList

end Tabwise.Shell
