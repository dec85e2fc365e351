import Tabwise.InsertionMap

/-! # Candidates and where they come from

An argument's values may be listed in its declaration, fetched anew for every completion, or
computed from the line being completed. Fetching and computing may fail with a message.
-/

namespace Tabwise

structure Candidate where
  value : String
  description : Option String
  deriving DecidableEq

def Candidate.plain (value : String) : Candidate := ⟨value, none⟩

def Candidate.described (value description : String) : Candidate := ⟨value, some description⟩

/-- Values given so far, by argument name. -/
abbrev Given := InsertionMap String (List String)

structure Context where
  /-- The text being completed, without quotes. -/
  text : String
  line : String
  start : Nat
  stop : Nat
  /-- Values given to this command and to its parent commands. -/
  given : Given

/-- The source of an argument's candidates. -/
inductive Choices where
  | absent
  | listed (candidates : List Candidate)
  | fetched (result : Except String (List Candidate)) (presorted : Bool)
  | computed (completer : Context → Except String (List Candidate)) (presorted : Bool)

namespace Choices

instance : Inhabited Choices := ⟨absent⟩

/-- Marks the candidates as being in display order. Listed ones are always sorted. -/
def presort : Choices → Choices
  | fetched r _ => fetched r true
  | computed f _ => computed f true
  | c => c

def isPresorted : Choices → Bool
  | fetched _ p | computed _ p => p
  | _ => false

def listedValues? : Choices → Option (List String)
  | listed cs => some (cs.map Candidate.value)
  | _ => none

def candidates (context : Context) : Choices → Except String (List Candidate)
  | absent => .ok []
  | listed cs => .ok cs
  | fetched r _ => r
  | computed f _ => f context

end Choices

end Tabwise
