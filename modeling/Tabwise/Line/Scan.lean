import Tabwise.Line.Token

/-! # The line before the cursor

Completion looks at the tokens before the cursor. A line that ends in an open quote is closed on
trial with each quote in turn; the tokens as written come from the line itself, so the opening
quote of the last token is kept and the closing one is not seen.
-/

namespace Tabwise.Line
open Text

/-- Tokens before the cursor. The last one is being completed; it is empty after a blank. -/
structure Scan where
  tokens : List String
  rawTokens : List String
  start : Nat
  stop : Nat
  deriving DecidableEq

namespace Scan

def text (s : Scan) : String := s.tokens.getLast?.getD ""

def rawText (s : Scan) : String := s.rawTokens.getLast?.getD ""

/-- Whether the command name is being completed. -/
def completesCommand (s : Scan) : Bool := s.tokens.length == 1

end Scan

/-- The tokens of a text that may end in an open quote, by closing it. -/
def closedTokens (text : List Char) : Except Unterminated (List Token) :=
  match tokenize text with
  | .ok ts => .ok ts
  | .error e =>
    match quotes.findSome? fun q => (tokenize (text ++ [q])).toOption with
    | some ts => .ok ts
    | none => .error e

def scan (line : List Char) (cursor : Nat) : Except Unterminated Scan := do
  let text := takeBytes cursor line
  let stop := byteLength text
  let ts ← closedTokens text
  let contents := ts.map Token.content
  let raws := ts.map fun t => String.ofList (slice t.start (min t.stop stop) text)
  match ts.getLast? with
  | some t =>
    if t.stop < stop then return ⟨contents ++ [""], raws ++ [""], stop, stop⟩
    else return ⟨contents, raws, t.start, stop⟩
  | none => return ⟨[""], [""], stop, stop⟩

/-- Where the token under the cursor starts; the cursor itself in a line that cannot be scanned. -/
def tokenStart (line : List Char) (cursor : Nat) : Nat :=
  match scan line cursor with
  | .ok s => s.start
  | .error _ => cursor

/-- A line as its command word and the rest, and whether the command word is being typed. -/
structure Split where
  command : String
  rest : String
  completesCommand : Bool
  deriving DecidableEq

def split (line : List Char) : Split :=
  let line := line.dropWhile isBlank
  let command := line.takeWhile (!isBlank ·)
  let rest := (line.dropWhile (!isBlank ·)).tail
  { command := String.ofList command
    rest := String.ofList rest
    completesCommand :=
      command.isEmpty || ((trim rest).isEmpty && !line.getLast?.any isBlank) }

end Tabwise.Line
