import Tabwise.Text.Order
import Tabwise.Grammar.Flags

/-! # Options of completion

They are given with every request; nothing is kept between requests.
-/

namespace Tabwise

/-- The order in which candidates are shown. -/
inductive SortOrder where
  | alphabetical
  | natural
  deriving DecidableEq

namespace SortOrder

def compare : SortOrder → String → String → Ordering
  | alphabetical, a, b => Text.alphabetical a.toList b.toList
  | natural, a, b => Text.natural a.toList b.toList

def le (o : SortOrder) (a b : String) : Bool := (o.compare a b).isLE

end SortOrder

structure Options where
  /-- Whether a start of a flag stands for it if no other flag begins so. -/
  abbreviated : Bool := true
  /-- Whether candidates match the typed text without regard to case. -/
  ignoreCase : Bool := false
  order : SortOrder := .alphabetical
  /-- Descriptions are shown for at most so many candidates. -/
  maxDescribed : Nat := 50
  /-- The label above descriptions whose argument has none. -/
  descriptiveHeader : String := "Description"
  deriving DecidableEq

def Options.accepts (o : Options) (candidate text : String) : Bool :=
  if o.ignoreCase then startsWith (Text.lowerString candidate) (Text.lowerString text)
  else startsWith candidate text

end Tabwise
