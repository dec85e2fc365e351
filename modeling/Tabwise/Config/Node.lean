import Tabwise.Config.Value

/-! # Tables while a document is read

A table remembers how it came about, because that decides what may still be added to it: a header
defines a table once, a longer header implies the tables on its way, and dotted keys add only to
tables that dotted keys have made. A value that was written out is closed.
-/

namespace Tabwise.Config

inductive Origin where
  | header | implied | dotted
  deriving DecidableEq

inductive Node where
  | closed (v : Value)
  | table (origin : Origin) (fields : List (String × Node))
  /-- An array of tables that headers have made, the last table first. -/
  | tables (last : List (String × Node)) (earlier : List (List (String × Node)))

abbrev Fields := List (String × Node)

namespace Node

def put (k : String) (n : Node) : Fields → Fields
  | [] => [(k, n)]
  | (j, m) :: rest => if j = k then (k, n) :: rest else (j, m) :: put k n rest

/-- Changes the fields that a key leads to; a missing table gets the given origin. -/
def within (origin : Origin) (k : String) (f : Bool → Fields → Option Fields)
    (fields : Fields) : Option Fields :=
  match fields.lookup k with
  | none => (f (origin = .dotted) []).map fun inner => put k (.table origin inner) fields
  | some (.table o inner) =>
    if origin = .dotted && o = .header then none
    else (f (o = .dotted) inner).map fun inner => put k (.table o inner) fields
  | some (.tables last earlier) =>
    (f false last).map fun last => put k (.tables last earlier) fields
  | some (.closed _) => none

/-- Adds a value under a dotted key. A key with dots ends in a table that dotted keys made. -/
def addValue (deep dotted : Bool) : List String → Value → Fields → Option Fields
  | [], _, _ => none
  | [k], v, fields =>
    if deep = dotted && (fields.lookup k).isNone then some (put k (.closed v) fields) else none
  | k :: path, v, fields =>
    within .dotted k (fun dotted inner => addValue true dotted path v inner) fields

/-- Defines the table of a header. -/
def addTable : List String → Fields → Option Fields
  | [], _ => none
  | [k], fields =>
    match fields.lookup k with
    | none => some (put k (.table .header []) fields)
    | some (.table .implied inner) => some (put k (.table .header inner) fields)
    | some _ => none
  | k :: path, fields => within .implied k (fun _ inner => addTable path inner) fields

def addElement : List String → Fields → Option Fields
  | [], _ => none
  | [k], fields =>
    match fields.lookup k with
    | none => some (put k (.tables [] []) fields)
    | some (.tables last earlier) => some (put k (.tables [] (last :: earlier)) fields)
    | some _ => none
  | k :: path, fields => within .implied k (fun _ inner => addElement path inner) fields

def addUnder (path : List String) (keys : List String) (v : Value) (fields : Fields) :
    Option Fields :=
  match path with
  | [] => addValue false false keys v fields
  | k :: path => within .implied k (fun _ inner => addUnder path keys v inner) fields

mutual

def toValue : Node → Value
  | closed v => v
  | table _ fields => .table ⟨fieldValues fields⟩
  | tables last earlier => .array ((tableValues earlier).reverse ++ [.table ⟨fieldValues last⟩])

def fieldValues : List (String × Node) → List (String × Value)
  | [] => []
  | (k, n) :: rest => (k, n.toValue) :: fieldValues rest

def tableValues : List (List (String × Node)) → List Value
  | [] => []
  | fields :: rest => .table ⟨fieldValues fields⟩ :: tableValues rest

end

end Node

end Tabwise.Config
