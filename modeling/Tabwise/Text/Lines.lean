/-! # Lines of a text

A line ends at a line feed, with a carriage return before it taken off as well. Nothing after
the last line feed is no line.
-/

namespace Tabwise.Text

/-- Takes off a carriage return before a line feed. -/
def endLine (cs : List Char) : List Char := if cs.getLast? = some '\r' then cs.dropLast else cs

/-- The lines of a text, with the line being read in reverse. -/
def linesFrom (current : List Char) : List Char → List (List Char)
  | [] => if current.isEmpty then [] else [current.reverse]
  | c :: cs =>
    if c = '\n' then endLine current.reverse :: linesFrom [] cs else linesFrom (c :: current) cs

def lines (cs : List Char) : List (List Char) := linesFrom [] cs

end Tabwise.Text
