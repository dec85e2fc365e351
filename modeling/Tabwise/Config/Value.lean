import Tabwise.InsertionMap

/-! # Configuration values

Values of a configuration document. Documents are laid over each other by merging their tables
key by key down to a depth; below it, and for all other values, the later document wins.
-/

namespace Tabwise.Config

inductive Value where
  | string (text : String)
  | integer (n : Int)
  /-- A floating-point number as it is written. -/
  | float (written : String)
  | boolean (b : Bool)
  /-- A date, a time or both, as written. -/
  | datetime (written : String)
  | array (elements : List Value)
  | table (fields : InsertionMap String Value)

abbrev Table := InsertionMap String Value

/-- Lays a value over another one. -/
def Value.merge : Nat → Value → Value → Value
  | depth + 1, .table left, .table right =>
    .table <| right.entries.foldl
      (fun fields e => fields.insert e.1 <| match fields.find? e.1 with
        | some v => Value.merge depth v e.2
        | none => e.2)
      left
  | _, _, right => right

end Tabwise.Config
