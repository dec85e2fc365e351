import Tabwise.Number.Count
import Tabwise.Shell.Registry

/-! # The commands of the demo shell

They show listed and numeric choices, subcommands, choices computed from the state of the session
and free lists of words. The state is what lies on the shelves of a library.
-/

namespace Tabwise.Shell.Demo

/-- Items with the shelf each lies on, in the order of the items. -/
structure Shelves where
  items : List (String × String)
  deriving DecidableEq

namespace Shelves

def empty : Shelves := ⟨[]⟩

def place (item shelf : String) : List (String × String) → List (String × String)
  | [] => [(item, shelf)]
  | (other, its) :: rest =>
    match Text.compareChars item.toList other.toList with
    | .lt => (item, shelf) :: (other, its) :: rest
    | .eq => (item, shelf) :: rest
    | .gt => (other, its) :: place item shelf rest

def put (s : Shelves) (item shelf : String) : Shelves := ⟨place item shelf s.items⟩

def find? (s : Shelves) (item : String) : Option String := s.items.lookup item

def remove (s : Shelves) (item : String) : Shelves := ⟨s.items.filter (·.1 ≠ item)⟩

end Shelves

def flag (aliases : List String) (help : String) : Argument :=
  { Argument.new (.flag aliases) "" with help := some help }

def positional (name help : String) : Argument :=
  { Argument.new .positional name with help := some help }

def listed (values : List String) : Choices := .listed (values.map .plain)

def draft (prog : String) (arguments : List Argument) : Draft :=
  { Draft.new prog with helpFlag := true, arguments }

def suggestDraft : Draft :=
  { draft "suggest" [
      { flag ["-t", "--type"] "what to suggest" with
        mandatory := true
        choices := listed ["movie", "show"] },
      { flag ["-d", "--duration"] "shortest and longest running time" with
        arity := .range 1 (some 2)
        metavar := some "MINUTES"
        choices := .fetched (.ok (["90", "120", "30", "45", "60"].map .plain)) false }] with
    description := some "Suggests a movie or a show." }

/-- The minutes that values give, or the first value that gives none. -/
def minutes : List String → Except CommandError (List Nat)
  | [] => .ok []
  | v :: rest =>
    match Number.readCount Number.maxHalfWord v.toList with
    | .ok n => (minutes rest).map (n :: ·)
    | .error _ => .error (.failed s!"duration must be a number of minutes: {v}")

def suggestion (kind : String) : List Nat → String
  | [] => s!"suggesting a {kind}"
  | [max] => s!"suggesting a {kind} of at most {max} minutes"
  | min :: max :: _ => s!"suggesting a {kind} between {min} and {max} minutes"

def suggest : Command Shelves where
  name := "suggest"
  aliases := []
  doc := "suggest something to watch"
  grammar := fun _ => suggestDraft.grammar
  run := fun state args _ =>
    match minutes (args.getAll "duration") with
    | .error e => .fail state e
    | .ok ms => .print state [suggestion ((args.get? "type").getD "movie") ms]

def catalog : List (String × String) := [
  ("A1", "The Rust Programming Language"),
  ("A2", "Programming Rust"),
  ("B1", "Rust for Rustaceans"),
  ("B2", "Rust Atomics and Locks"),
  ("C1", "Zero To Production In Rust")]

def addDraft : Draft := draft "add" [
  { positional "item_id" "item to shelve" with
    choices := .fetched (.ok (catalog.map fun e => .described e.1 e.2)) true
    descriptiveHeader := some "Title" },
  { positional "shelf" "shelf to put it on" with
    arity := .optional
    choices := listed ["top", "middle", "bottom"] }]

def shelved (state : Shelves) (context : Context) : List Candidate :=
  let chosen := context.given.findD "item_id" []
  (state.items.filter fun e => !chosen.contains e.1).map fun e =>
    .described e.1 s!"on the {e.2} shelf"

def removeDraft (state : Shelves) : Draft := draft "remove" [
  { positional "item_id" "items to take off the shelves" with
    arity := .oneOrMore
    choices := .computed (fun context => .ok (shelved state context)) false }]

def listDraft : Draft := draft "list" []

def actions (state : Shelves) : Subcommands where
  commands := [
    ⟨"add", some "put an item on a shelf", addDraft.grammar⟩,
    ⟨"remove", some "take items off the shelves", (removeDraft state).grammar⟩,
    ⟨"list", some "show what is shelved", listDraft.grammar⟩]
  aliases := [("rm", "remove")]

def libraryDraft (state : Shelves) : Draft := draft "library" [
  { flag ["-u", "--user"] "who is asking" with choices := listed ["alice", "bob"] },
  .new (.selector (actions state)) "action"]

def takeOff (user : String) (state : Shelves) : List String → Shelves × List String
  | [] => (state, [])
  | item :: rest =>
    match state.find? item with
    | some shelf =>
      let (after, lines) := takeOff user (state.remove item) rest
      (after, s!"{user} took {item} off the {shelf} shelf" :: lines)
    | none =>
      let (after, lines) := takeOff user state rest
      (after, s!"{item} is not on a shelf" :: lines)

def runAction (user : String) (state : Shelves) (action : String) (args : Args) :
    Shelves × List String :=
  match action with
  | "add" =>
    let item := (args.get? "item_id").getD ""
    let shelf := (args.get? "shelf").getD "top"
    (state.put item shelf, [s!"{user} put {item} on the {shelf} shelf"])
  | "remove" => takeOff user state (args.getAll "item_id")
  | _ => (state, state.items.map fun e => s!"{e.1}: {e.2}")

def library : Command Shelves where
  name := "library"
  aliases := ["lib"]
  doc := "manage the library shelves"
  grammar := fun state => (libraryDraft state).grammar
  run := fun state args _ =>
    match args.subcommand with
    | none => .fail state (.failed "library: missing action")
    | some (action, nested) =>
      let (after, lines) := runAction ((args.get? "user").getD "someone") state action nested
      .print after lines

def speakDraft : Draft := draft "speak" [
  { flag ["-u", "--upper"] "shout the words" with action := .storeTrue },
  { flag ["-r", "--repeat"] "how many times to say it" with
    metavar := some "N"
    choices := listed ["1", "2", "3", "10"] },
  { positional "words" "words to say" with arity := .oneOrMore }]

def repeats (given : Option String) : Except CommandError Nat :=
  match given with
  | none => .ok 1
  | some v =>
    match Number.readCount Number.maxWord v.toList with
    | .ok n => .ok n
    | .error e => .error (.failed s!"bad repeat count: {e.message}")

def speak : Command Shelves where
  name := "speak"
  aliases := ["say"]
  doc := "repeat what you say"
  grammar := fun _ => speakDraft.grammar
  run := fun state args _ =>
    let words := " ".intercalate (args.getAll "words")
    let said := if args.has "upper" then Text.upperString words else words
    match repeats (args.get? "repeat") with
    | .error e => .fail state e
    | .ok n => .print state (List.replicate n said)

def registry : Registry Shelves :=
  ((Registry.new.register suggest).register library).register speak

end Tabwise.Shell.Demo
