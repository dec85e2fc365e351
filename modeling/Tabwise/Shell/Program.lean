import Tabwise.Shell.CommandLine
import Tabwise.Shell.Demo
import Tabwise.Shell.Loop

/-! # The program

From its arguments and what it finds around it the program makes a shell: the settings of the
user, with those of the working directory laid over them, and the width of the terminal. It then
completes one line or runs the read loop.
-/

namespace Tabwise.Shell

structure Host where
  /-- The variables of the environment. -/
  env : String → Option String
  read : String → Config.Source
  /-- Whether a file can take the log. -/
  canLog : String → Bool

def localSettingsFile : String := ".the-shell.toml"

def environment : List String := ["THE_SHELL_CONFIG_DIR", "XDG_CONFIG_HOME", "HOME", "COLUMNS"]

def joinPath (directory name : String) : String :=
  if directory.isEmpty || directory.toList.getLast? = some '/' then directory ++ name
  else directory ++ "/" ++ name

def isAbsolute (path : String) : Bool := path.toList.head? = some '/'

namespace Host

/-- The directory for the settings of all programs. -/
def configHome? (h : Host) : Option String :=
  match (h.env "XDG_CONFIG_HOME").filter isAbsolute with
  | some directory => some directory
  | none => (h.env "HOME").map (joinPath · ".config")

def configDirectory? (h : Host) : Option String :=
  match h.env "THE_SHELL_CONFIG_DIR" with
  | some directory => some directory
  | none => h.configHome?.map (joinPath · commandName)

/-- The file with the settings of the user: the one that is asked for, or else the usual one. -/
def settingsFile? (h : Host) (asked : Option String) : Option String :=
  match asked with
  | some path => some path
  | none => h.configDirectory?.map (joinPath · "config.toml")

def settings (h : Host) (asked : Option String) : Except Config.LoadError Config.Settings :=
  Config.load (((h.settingsFile? asked).map h.read).getD .missing) (h.read localSettingsFile)

def columns? (h : Host) : Option Nat := do
  (Number.readCount Number.maxWord (← h.env "COLUMNS").toList).toOption

end Host

/-- The width of a terminal that nothing is known about. -/
def usualWidth : Nat := 80

inductive Stop where
  | usage (e : UsageError)
  | noLog (path : String)
  | noSettings
  | failed (message : String)
  deriving DecidableEq

inductive Start where
  /-- The completions that were asked for. -/
  | completions (lines : List String)
  | shell (setup : Setup Demo.Shelves)

def terminalWidth (h : Host) (i : Invocation) (settings : Config.Settings) : Nat :=
  ((i.width.or settings.terminalWidth).or h.columns?).getD usualWidth

def Setup.start (s : Setup Demo.Shelves) : Option (String × Nat) → Except Stop Start
  | none => .ok (.shell s)
  | some (line, cursor) =>
    match showCompletions s.registry .empty s.settings.completion s.width line cursor with
    | .ok lines => .ok (.completions lines)
    | .error e => .error (.failed e)

def checkLog (h : Host) : Option String → Except Stop Unit
  | some path => if h.canLog path then .ok () else .error (.noLog path)
  | none => .ok ()

def start (h : Host) (arguments : List String) : Except Stop Start := do
  let i ← (Invocation.ofArguments arguments).mapError .usage
  checkLog h i.logFile
  let settings ← (h.settings i.configFile).mapError fun _ => .noSettings
  let width := terminalWidth h i settings
  Setup.start { registry := Demo.registry, settings, width } i.complete

structure Report where
  code : Nat
  output : String
  errors : String
  deriving DecidableEq

def UsageError.message : UsageError → String
  | helpAsked => helpText
  | versionAsked => versionText
  | unknown => "unexpected argument"
  | missingValue => "a value is required"
  | notANumber => "invalid number"
  | repeated => "an option cannot be used multiple times"
  | surplusValue => "a flag takes no value"
  | cursorWithoutLine => "--cursor requires --complete"
  | badCursor cursor length =>
    s!"cursor {cursor} is not a character boundary of a {length} byte line"

def failureReport (message : String) : Report := ⟨1, "", s!"Error: {message}\n"⟩

def brokenInput : String := "failed to read from stdin"

def Stop.report : Stop → Report
  | usage .helpAsked => ⟨0, helpText, ""⟩
  | usage .versionAsked => ⟨0, versionText, ""⟩
  | usage (.badCursor cursor length) => failureReport (UsageError.badCursor cursor length).message
  | usage e => ⟨2, "", s!"error: {e.message}\n"⟩
  | noLog path => failureReport s!"failed to open log file {path}"
  | noSettings => failureReport "failed to load config"
  | failed message => failureReport message

namespace Finish

variable {σ : Type}

def output (f : Finish σ) : String := String.join (f.events.map Event.output)

def report (f : Finish σ) : Report :=
  let errors := String.join (f.events.map Event.errorOutput)
  if f.broken then ⟨1, f.output, s!"{errors}Error: {brokenInput}\n"⟩ else ⟨0, f.output, errors⟩

end Finish

def report (h : Host) (arguments : List String) (input : ByteArray) : Report :=
  match start h arguments with
  | .error stop => stop.report
  | .ok (.completions lines) => ⟨0, String.join (lines.map (· ++ "\n")), ""⟩
  | .ok (.shell setup) => (setup.run .empty (inputLines input)).report

end Tabwise.Shell
