import Tabwise.Config.Node
import Tabwise.Config.Scalar

/-! # TOML documents

A document is a list of lines: a key with its value, the header of a table, the header of an
element of an array of tables, or nothing, each with an optional comment. A document that breaks
a rule has no value.
-/

namespace Tabwise.Config

def skipComment? : List Char → Option (List Char)
  | '#' :: cs =>
    let rest := cs.dropWhile isPlain
    if rest.isEmpty || (newline? rest).isSome then some rest else none
  | cs => some cs

def skipLines : Nat → List Char → Option (List Char)
  | 0, cs => some cs
  | fuel + 1, cs => do
    let cs ← skipComment? (skipSpaces cs)
    match newline? cs with
    | some cs => skipLines fuel cs
    | none => some cs

/-- What may stand between the parts of an array or an inline table. -/
def skipGap (cs : List Char) : Option (List Char) := skipLines cs.length cs

def isBareKeyChar (c : Char) : Bool := c.isAlphanum || c = '_' || c = '-'

def keyPart : Reader String := fun cs =>
  match cs with
  | '"' :: rest => (lineString '"' true (rest.length + 1) [] rest).map fun (s, r) => (.ofList s, r)
  | '\'' :: rest =>
    (lineString '\'' false (rest.length + 1) [] rest).map fun (s, r) => (.ofList s, r)
  | cs =>
    let bare := cs.takeWhile isBareKeyChar
    if bare.isEmpty then none else some (.ofList bare, cs.dropWhile isBareKeyChar)

def keyParts : Nat → Reader (List String)
  | 0, _ => none
  | fuel + 1, cs => do
    let (part, rest) ← keyPart (skipSpaces cs)
    match skipSpaces rest with
    | '.' :: more => (keyParts fuel more).map fun (parts, rest) => (part :: parts, rest)
    | rest => some ([part], rest)

def dottedKey : Reader (List String) := fun cs => keyParts (cs.length + 1) cs

mutual

def readValue : Nat → Reader Value
  | 0, _ => none
  | fuel + 1, cs =>
    match cs with
    | '[' :: cs => readElements fuel [] cs
    | '\x7b' :: cs => readFields fuel [] cs
    | cs => scalar cs

def readElements : Nat → List Value → Reader Value
  | 0, _, _ => none
  | fuel + 1, read, cs => do
    match ← skipGap cs with
    | ']' :: rest => some (.array read.reverse, rest)
    | cs =>
      let (v, rest) ← readValue fuel cs
      match ← skipGap rest with
      | ',' :: rest => readElements fuel (v :: read) rest
      | ']' :: rest => some (.array (v :: read).reverse, rest)
      | _ => none

def readFields : Nat → Fields → Reader Value
  | 0, _, _ => none
  | fuel + 1, read, cs => do
    match ← skipGap cs with
    | '\x7d' :: rest => some ((Node.table .header read).toValue, rest)
    | cs =>
      let (keys, rest) ← dottedKey cs
      let (_, rest) ← expect '=' rest
      let (v, rest) ← readValue fuel (skipSpaces rest)
      let read ← Node.addValue false false keys v read
      match ← skipGap rest with
      | ',' :: rest => readFields fuel read rest
      | '\x7d' :: rest => some ((Node.table .header read).toValue, rest)
      | _ => none

end

/-- A document being read: its tables and the path of the last header. -/
structure Reading where
  fields : Fields
  path : List String

def readStatement (r : Reading) (cs : List Char) : Option (Reading × List Char) :=
  match cs with
  | '[' :: '[' :: cs => do
    let (path, rest) ← dottedKey cs
    match rest with
    | ']' :: ']' :: rest => some (⟨← Node.addElement path r.fields, path⟩, rest)
    | _ => none
  | '[' :: cs => do
    let (path, rest) ← dottedKey cs
    match rest with
    | ']' :: rest => some (⟨← Node.addTable path r.fields, path⟩, rest)
    | _ => none
  | cs => do
    let (keys, rest) ← dottedKey cs
    let (_, rest) ← expect '=' rest
    let (v, rest) ← readValue (2 * cs.length + 2) (skipSpaces rest)
    some ({ r with fields := ← Node.addUnder r.path keys v r.fields }, rest)

def readLines : Nat → Reading → List Char → Option Reading
  | 0, _, _ => none
  | fuel + 1, r, cs => do
    match ← skipGap cs with
    | [] => some r
    | cs =>
      let (r, rest) ← readStatement r cs
      match ← skipComment? (skipSpaces rest) with
      | [] => some r
      | rest => readLines fuel r (← newline? rest)

/-- The table that a document writes. A byte order mark may stand in front. -/
def parseToml? (text : String) : Option Table :=
  let cs := match text.toList with
    | '\ufeff' :: cs => cs
    | cs => cs
  (readLines (cs.length + 1) ⟨[], []⟩ cs).map fun r => ⟨Node.fieldValues r.fields⟩

end Tabwise.Config
