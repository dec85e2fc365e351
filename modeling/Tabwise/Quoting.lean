import Tabwise.Text.Bytes
import Tabwise.Text.Chars

/-! # Quoting what is inserted

A quote that the user has opened is kept. Otherwise values with a gap are put in double quotes,
or in single ones if a value holds a double quote. Only a single match is closed.
-/

namespace Tabwise

structure Quoting where
  quote : Char
  /-- Whether the opening quote is not typed yet. -/
  insertOpening : Bool
  /-- Whether the value is final, so that its quote can be closed. -/
  close : Bool
  deriving DecidableEq

namespace Quoting

def apply (q : Quoting) (value : String) : String :=
  (if q.insertOpening then String.singleton q.quote else "") ++ value ++
    (if q.close then String.singleton q.quote else "")

/-- The quoting of matches for a token as the user typed it. -/
def decide? (matched : List String) (raw : String) : Option Quoting :=
  if matched.isEmpty then none
  else
    let close := matched.length == 1
    match raw.toList.head?.filter Text.isQuote with
    | some quote => some ⟨quote, false, close⟩
    | none =>
      if matched.any fun m => m.toList.any Text.isGap then
        some ⟨if matched.any fun m => m.toList.contains '"' then '\'' else '"', true, close⟩
      else none

end Quoting

/-- The offset of the first character in which a text differs from another one. -/
def difference? : List Char → List Char → Option Nat
  | a :: as, b :: bs => if a = b then (difference? as bs).map (a.utf8Size + ·) else some 0
  | _, _ => none

/-- How many bytes a text shares with another one. If they do not differ, one has run out. -/
def sharedBytes (s t : List Char) : Nat :=
  (difference? s t).getD (min (Text.byteLength s) (Text.byteLength t))

def commonBytes (s : List Char) (rest : List String) : Nat :=
  rest.foldl (fun stop t => min stop (sharedBytes s t.toList)) (Text.byteLength s)

/-- What all matches start with. -/
def commonStart : List String → String
  | [] => ""
  | s :: rest => String.ofList (Text.takeBytes (commonBytes s.toList rest) s.toList)

end Tabwise
