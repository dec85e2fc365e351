import Tabwise.Listing
import Tabwise.Quoting

/-! # What the prompt shows and inserts

Below the prompt stand the lines of the listing, the hint or the error. The line itself is
completed by what all matches have in common; a single match at the end of the line is followed
by a space.
-/

namespace Tabwise.Prompt

def render (o : Options) (terminalWidth : Nat) : Outcome → List String
  | .candidates c =>
    let listing := Listing.ofCompletions o terminalWidth c
    listing.header.toList ++ listing.lines
  | .hint text => (Text.lines text.toList).map String.ofList
  | .malformed reason => [s!"Error: {reason.message}"]
  | .nothing => []

/-- What replaces the typed token. -/
def replacement (typed : String) (matched : List String) : String :=
  let shared := commonStart matched
  match Quoting.decide? matched typed with
  | some q =>
    if q.insertOpening then q.apply shared else String.singleton q.quote ++ q.apply shared
  | none => shared

def unquoted : List Char → List Char
  | [] => []
  | c :: cs => if Text.isQuote c then cs else c :: cs

/-- The line with the text between two byte offsets replaced by what the matches share. -/
def completedLine? (line : String) (start stop : Nat) (matched : List String) : Option String := do
  let (before, typed, after) ← Text.cutOut? start stop line.toList
  if matched.isEmpty then none
  let shared := (commonStart matched).toList
  if Text.byteLength shared < Text.byteLength (unquoted typed) then none
  let inserted := replacement (String.ofList typed) matched
  if inserted.toList = typed && 1 < matched.length then none
  let final := matched.length == 1 && stop == Text.byteLength line.toList
  return String.ofList before ++ inserted ++ String.ofList after ++ (if final then " " else "")

end Tabwise.Prompt
