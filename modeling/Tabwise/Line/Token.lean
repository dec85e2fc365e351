import Tabwise.Text.Chars
import Tabwise.Text.Bytes

/-! # Tokens of a command line

Blanks separate tokens. A quote opens a region that runs to the same quote and may hold blanks;
it does not end the token, and nothing escapes a quote. A token is kept as written and with a
pair of quotes around all of it removed.
-/

namespace Tabwise.Line
open Text

structure OpenQuote where
  quote : Char
  start : Nat
  deriving DecidableEq

structure Token where
  start : Nat
  stop : Nat
  /-- The token as written. -/
  raw : String
  /-- The token without quotes around it. -/
  content : String
  /-- The quote that is still open where the line ends. -/
  openQuote : Option OpenQuote
  deriving DecidableEq

/-- An unfinished quote of a line that had to be complete. -/
structure Unterminated where
  quote : Char
  start : Nat
  deriving DecidableEq

def Unterminated.message (e : Unterminated) : String :=
  s!"unterminated {e.quote} quote starting at byte {e.start}"

/-- Removes one pair of quotes around the whole text. -/
def stripQuotes : List Char → List Char
  | [] => []
  | q :: cs => if isQuote q && cs.getLast? = some q then cs.dropLast else q :: cs

def Token.emptyAt (start : Nat) : Token := ⟨start, start, "", "", none⟩

def Token.isQuoted (t : Token) : Bool := t.raw.toList.head?.any isQuote

/-- The region after a character: a quote closes its own region and opens one outside of any. -/
def regionAfter (region : Option OpenQuote) (pos : Nat) (c : Char) : Option OpenQuote :=
  match region with
  | some q => if c = q.quote then none else some q
  | none => if isQuote c then some ⟨c, pos⟩ else none

/-- A token from its characters; an open quote at its start does not belong to the content. -/
def Token.make (start : Nat) (raw : List Char) (region : Option OpenQuote) : Token where
  start := start
  stop := start + byteLength raw
  raw := String.ofList raw
  content := String.ofList <| match region with
    | none => stripQuotes raw
    | some q => if q.start = start then raw.tail else raw
  openQuote := region

structure Pending where
  start : Nat
  chars : List Char
  region : Option OpenQuote

def Pending.finish (p : Pending) : Token := .make p.start p.chars.reverse p.region

/-- The tokens of a line read from a byte on, with the token being read. -/
def tokensFrom (pos : Nat) (current : Option Pending) : List Char → List Token
  | [] => (current.map Pending.finish).toList
  | c :: cs =>
    let next := pos + c.utf8Size
    match current with
    | none =>
      if isBlank c then tokensFrom next none cs
      else tokensFrom next (some ⟨pos, [c], regionAfter none pos c⟩) cs
    | some p =>
      if p.region.isNone && isBlank c then p.finish :: tokensFrom next none cs
      else tokensFrom next (some ⟨p.start, c :: p.chars, regionAfter p.region pos c⟩) cs

def tokens (line : List Char) : List Token := tokensFrom 0 none line

/-- The open quote of a line, as the error it is in a complete line. -/
def unterminated? (ts : List Token) : Option Unterminated :=
  (ts.getLast?.bind Token.openQuote).map fun q => ⟨q.quote, q.start⟩

/-- The tokens of a complete line. -/
def tokenize (line : List Char) : Except Unterminated (List Token) :=
  match unterminated? (tokens line) with
  | some e => .error e
  | none => .ok (tokens line)

end Tabwise.Line
