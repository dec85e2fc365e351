import Tabwise.Text.Ranges

/-! # Character classes of a command line

Blanks separate tokens, quotes hold them together and gaps make an inserted value need quotes.
White space is the Unicode property: it matters where text is trimmed, not where it is split.
-/

namespace Tabwise.Text

/-- Only a space and a tab separate tokens. -/
def isBlank (c : Char) : Bool := c == ' ' || c == '\t'

/-- The quotes, in the order in which an open token is closed on trial. -/
def quotes : List Char := ['\'', '"']

def isQuote (c : Char) : Bool := quotes.contains c

/-- Characters that show as a gap in a line. -/
def isGap (c : Char) : Bool :=
  c == '\t' || c == ' ' || c == '\u00a0' || c == '\u180e' || ('\u2000' ≤ c && c ≤ '\u200b') ||
    c == '\u202f' || c == '\u205f' || c == '\u3000' || c == '\ufeff'

def whiteSpaces : Ranges := [
  (0x9, 0xd), (0x20, 0x20), (0x85, 0x85), (0xa0, 0xa0), (0x1680, 0x1680), (0x2000, 0x200a),
  (0x2028, 0x2029), (0x202f, 0x202f), (0x205f, 0x205f), (0x3000, 0x3000)]

def isWhite (c : Char) : Bool := whiteSpaces.has c.toNat

/-- Leaves out what satisfies `p` at the end of a text. -/
def dropEndWhile (p : Char → Bool) (cs : List Char) : List Char := (cs.reverse.dropWhile p).reverse

def trim (cs : List Char) : List Char := dropEndWhile isWhite (cs.dropWhile isWhite)

end Tabwise.Text
