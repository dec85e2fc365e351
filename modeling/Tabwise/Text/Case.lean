import Tabwise.Text.Case.Table

/-! # Upper and lower case

A letter may have an upper case of several letters. A lower-case sigma that ends a word has its
own form, which only the mapping of a whole text can see.
-/

namespace Tabwise.Text

namespace Case

def Run.has (r : Run) (n : Nat) : Bool :=
  r.first ≤ n && n ≤ r.last && (n - r.first) % r.stride == 0

def partner (runs : List Run) (n : Nat) : Nat :=
  match runs.find? (·.has n) with
  | some r => (n + r.offset).toNat
  | none => n

def expansion? (c : Char) : Option (List Char) :=
  (upperExpansions.find? (·.1 == c.toNat)).map (·.2.map Char.ofNat)

def isCased (c : Char) : Bool := cased.has c.toNat

def isIgnorable (c : Char) : Bool := caseIgnorable.has c.toNat

/-- Whether the first character that counts has case. -/
def meetsCased (cs : List Char) : Bool :=
  match cs.dropWhile isIgnorable with
  | [] => false
  | c :: _ => isCased c

end Case

open Case

def lowerChar (c : Char) : List Char :=
  if c.toNat < 0x80 then [c.toLower]
  else if c = 'İ' then ['i', '\u0307']
  else [Char.ofNat (partner lowerRuns c.toNat)]

def upperChar (c : Char) : List Char :=
  if c.toNat < 0x80 then [c.toUpper]
  else (expansion? c).getD [Char.ofNat (partner upperRuns c.toNat)]

/-- Lower case of a text read after the given characters, nearest first. -/
def lowerAfter (before : List Char) : List Char → List Char
  | [] => []
  | c :: cs =>
    (if c = 'Σ' then [if meetsCased before && !meetsCased cs then 'ς' else 'σ'] else lowerChar c) ++
      lowerAfter (c :: before) cs

def lower (cs : List Char) : List Char := lowerAfter [] cs

def upper (cs : List Char) : List Char := cs.flatMap upperChar

def lowerString (s : String) : String := String.ofList (lower s.toList)

def upperString (s : String) : String := String.ofList (upper s.toList)

/-- Lower case of each character alone, for comparing. -/
def fold (cs : List Char) : List Char := cs.flatMap lowerChar

end Tabwise.Text
