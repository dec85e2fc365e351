import Tabwise.Text.Cluster.Table

/-! # Grapheme clusters

A text is cut into extended grapheme clusters by the rules of Unicode text segmentation. The
rules look at the character before a position and at how it was reached: whether it ends an odd
run of regional indicators, a picture with a joiner, or a consonant with a linker.
-/

namespace Tabwise.Text

namespace Cluster

/-- What a character does at a cluster boundary. -/
inductive Kind where
  | carriageReturn | lineFeed | control | extend | joiner | regional | leading | spacing
  | hangulL | hangulV | hangulT | hangulLV | hangulLVT | pictograph | other
  deriving DecidableEq

def hangulKind? (n : Nat) : Option Kind :=
  if (0x1100 ≤ n && n ≤ 0x115f) || (0xa960 ≤ n && n ≤ 0xa97c) then some .hangulL
  else if (0x1160 ≤ n && n ≤ 0x11a7) || (0xd7b0 ≤ n && n ≤ 0xd7c6) then some .hangulV
  else if (0x11a8 ≤ n && n ≤ 0x11ff) || (0xd7cb ≤ n && n ≤ 0xd7fb) then some .hangulT
  else if 0xac00 ≤ n && n ≤ 0xd7a3 then
    some (if (n - 0xac00) % 28 == 0 then .hangulLV else .hangulLVT)
  else if n = 0x16d63 || (0x16d67 ≤ n && n ≤ 0x16d6a) then some .hangulV
  else none

def kind (c : Char) : Kind :=
  let n := c.toNat
  if n = 0xd then .carriageReturn
  else if n = 0xa then .lineFeed
  else if controls.has n then .control
  else if n < 0x80 then .other
  else if n = 0x200d then .joiner
  else if marks.has n || (0x1f3fb ≤ n && n ≤ 0x1f3ff) then .extend
  else if 0x1f1e6 ≤ n && n ≤ 0x1f1ff then .regional
  else if prepends.has n then .leading
  else if spacingMarks.has n then .spacing
  else if pictographs.has n then .pictograph
  else (hangulKind? n).getD .other

/-- How far a picture that a joiner may continue has come. -/
inductive Picture where
  | none | seen | joined
  deriving DecidableEq

/-- How far a conjunct has come: a consonant was read, and then a linker. -/
inductive Conjunct where
  | none | consonant | linked
  deriving DecidableEq

/-- What a boundary decision remembers of the characters before it. -/
structure State where
  last : Kind
  oddRegional : Bool
  picture : Picture
  conjunct : Conjunct

def isConsonant (c : Char) : Bool := conjunctConsonants.has c.toNat

def conjunctAfter (before : Conjunct) (c : Char) : Conjunct :=
  if c.toNat < 0x300 then .none
  else if isConsonant c then .consonant
  else match before with
    | .none => .none
    | b =>
      if conjunctLinkers.has c.toNat then .linked
      else match kind c with
        | .joiner => b
        | .extend => if c.toNat = 0x200c then .none else b
        | _ => .none

def pictureAfter : Picture → Kind → Picture
  | _, .pictograph => .seen
  | .seen, .extend => .seen
  | .seen, .joiner => .joined
  | _, _ => .none

/-- The state after a character, at the start of a text or after another state. -/
def State.after (before : Option State) (c : Char) : State :=
  let k := kind c
  { last := k
    oddRegional := k = .regional && !(before.any (·.oddRegional))
    picture := pictureAfter ((before.map (·.picture)).getD .none) k
    conjunct := conjunctAfter ((before.map (·.conjunct)).getD .none) c }

/-- Whether no boundary lies between what was read and the character. -/
def joins (s : State) (c : Char) : Bool :=
  let k := kind c
  match s.last, k with
  | .carriageReturn, .lineFeed => true
  | .carriageReturn, _ | .lineFeed, _ | .control, _ => false
  | _, .carriageReturn | _, .lineFeed | _, .control => false
  | _, .extend | _, .joiner | _, .spacing => true
  | .leading, _ => true
  | .hangulL, .hangulL | .hangulL, .hangulV | .hangulL, .hangulLV | .hangulL, .hangulLVT => true
  | .hangulLV, .hangulV | .hangulV, .hangulV | .hangulLV, .hangulT | .hangulV, .hangulT => true
  | .hangulLVT, .hangulT | .hangulT, .hangulT => true
  | .regional, .regional => s.oddRegional
  | .joiner, .pictograph => s.picture = .joined
  | _, _ => s.conjunct = .linked && isConsonant c

end Cluster

open Cluster

/-- The clusters of a text read after a state, with the open cluster in reverse. -/
def clustersFrom (s : State) (current : List Char) : List Char → List (List Char)
  | [] => [current.reverse]
  | c :: cs =>
    if joins s c then clustersFrom (.after (some s) c) (c :: current) cs
    else current.reverse :: clustersFrom (.after (some s) c) [c] cs

/-- The user-perceived characters of a text. -/
def clusters : List Char → List (List Char)
  | [] => []
  | c :: cs => clustersFrom (.after none c) [c] cs

theorem flatten_clustersFrom (s : State) (current cs : List Char) :
    (clustersFrom s current cs).flatten = current.reverse ++ cs := by
  induction cs generalizing s current with
  | nil => simp [clustersFrom]
  | cons c cs ih =>
    unfold clustersFrom
    split <;> simp [ih]

theorem flatten_clusters (cs : List Char) : (clusters cs).flatten = cs := by
  cases cs with
  | nil => rfl
  | cons c cs => simp [clusters, flatten_clustersFrom]

end Tabwise.Text
