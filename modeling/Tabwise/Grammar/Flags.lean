import Tabwise.Grammar.Basic

/-! # Reading a token as a flag

A token looks like a flag if it starts with a prefix character, goes on and holds no space.
Negative numbers are values unless some flag is one itself. An exact alias always wins; an
abbreviation counts if all aliases that it starts belong to one argument.
-/

namespace Tabwise

def isPrefixChar (prefixChars : String) (c : Char) : Bool := prefixChars.toList.contains c

/-- Whole numbers and fractions with a minus sign; a digit must come last. -/
def isNegativeNumber (token : String) : Bool :=
  match token.toList with
  | '-' :: number =>
    let whole := number.takeWhile (· != '.')
    match number.dropWhile (· != '.') with
    | [] => !whole.isEmpty && whole.all Char.isDigit
    | _ :: part => whole.all Char.isDigit && !part.isEmpty && part.all Char.isDigit
  | _ => false

def startsWith (text start : String) : Bool := start.toList.isPrefixOf text.toList

namespace Grammar

def hasNegativeNumberFlags (g : Grammar) : Bool := g.flags.any (isNegativeNumber ·.1)

def looksLikeFlag (g : Grammar) (token : String) : Bool :=
  match token.toList with
  | c :: _ :: _ =>
    isPrefixChar g.prefixChars c && !(isNegativeNumber token && !g.hasNegativeNumberFlags) &&
      !token.toList.contains ' '
  | _ => false

def isSinglePrefix (g : Grammar) (text : String) : Bool :=
  match text.toList with
  | [c] => isPrefixChar g.prefixChars c
  | _ => false

/-- The flag that a token stands for. -/
def lookupFlag (g : Grammar) (abbreviated : Bool) (token : String) : Option Nat :=
  match g.flags.lookup token with
  | some id => some id
  | none =>
    if abbreviated && g.looksLikeFlag token then
      match (g.flags.filter fun f => startsWith f.1 token).map (·.2) with
      | [] => none
      | id :: rest => if rest.all (· == id) then some id else none
    else none

end Grammar

end Tabwise
