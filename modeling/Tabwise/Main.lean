import Tabwise.Shell.Program

/-! # The executable

Looks at files and the environment, passes lines of the input on and writes what comes back.
-/

namespace Tabwise.Shell

def readSource (path : String) : IO Config.Source := do
  try
    return match String.fromUTF8? (← IO.FS.readBinFile path) with
      | some document => .text document
      | none => .failed "stream did not contain valid UTF-8"
  catch e => return match e with
    | .noFileOrDirectory .. => .missing
    | e => .failed (toString e)

def opensLog (path : String) : IO Bool := do
  try
    discard (IO.FS.Handle.mk path .append)
    return true
  catch _ => return false

/-- Looks at all that a run with these arguments depends on. -/
def survey (arguments : List String) : IO Host := do
  let values ← environment.mapM fun name => return (name, ← IO.getEnv name)
  let host : Host := {
    env := fun name => (values.lookup name).join
    read := fun _ => .missing
    canLog := fun _ => true }
  match Invocation.ofArguments arguments with
  | .error _ => return host
  | .ok i =>
    let logs ← i.logFile.mapM opensLog
    let files := localSettingsFile :: (host.settingsFile? i.configFile).toList
    let sources ← files.mapM fun path => return (path, ← readSource path)
    return { host with
      read := fun path => (sources.lookup path).getD .missing
      canLog := fun _ => logs.getD true }

def emit (event : Event) : IO Unit := do
  let output ← IO.getStdout
  output.putStr event.output
  output.flush
  (← IO.getStderr).putStr event.errorOutput

def leave (r : Report) : IO UInt32 := do
  (← IO.getStdout).putStr r.output
  (← IO.getStderr).putStr r.errors
  return r.code.toUInt32

/-- The bytes of the next line, without its end; none at the end of the input. -/
partial def nextLine (input : IO.FS.Stream) (read : ByteArray) : IO (Option ByteArray) := do
  let byte ← input.read 1
  if byte.isEmpty then return if read.isEmpty then none else some read
  else if byte[0]? = some 10 then return some read
  else nextLine input (read ++ byte)

partial def converse (s : Setup Demo.Shelves) (state : Demo.Shelves) (input : IO.FS.Stream) :
    IO UInt32 := do
  emit s.prompt
  match ← nextLine input .empty with
  | none => return 0
  | some bytes => match String.fromUTF8? bytes with
    | none => leave (failureReport brokenInput)
    | some line => match s.step state line with
      | none => return 0
      | some (state, events) =>
        events.forM emit
        converse s state input

end Tabwise.Shell

open Tabwise.Shell in
def main (arguments : List String) : IO UInt32 := do
  match start (← survey arguments) arguments with
  | .error stop => leave stop.report
  | .ok (.completions lines) => leave ⟨0, String.join (lines.map (· ++ "\n")), ""⟩
  | .ok (.shell setup) => converse setup .empty (← IO.getStdin)
