import Tabwise.Text.Cluster
import Tabwise.Text.Column
import Tabwise.Text.Escape

/-! # Text in terminal columns

Width is summed over grapheme clusters and leaves escape sequences out. A text that is cut short
ends in an ellipsis and keeps every escape sequence, so that styling opened before the cut is
still closed after it. What a cluster is and which columns it takes is a matter of the metrics.
-/

namespace Tabwise.Text

/-- Columns of a tab in a table. -/
def tabWidth : Nat := 4

def ellipsis : Char := '…'

/-- What a terminal draws as one, and the columns that it takes. -/
structure Metrics where
  clusters : List Char → List (List Char)
  clusterWidth : List Char → Nat

namespace Metrics

variable (m : Metrics)

def clustersWidth : List (List Char) → Nat
  | [] => 0
  | g :: gs => m.clusterWidth g + clustersWidth gs

def segmentWidth : Segment → Nat
  | .visible t => m.clustersWidth (m.clusters t)
  | .escape _ => 0

def segmentsWidth : List Segment → Nat
  | [] => 0
  | s :: rest => m.segmentWidth s + segmentsWidth rest

def displayWidth (cs : List Char) : Nat := m.segmentsWidth (segments cs)

/-- The clusters that fit into a number of columns, and whether a cluster was left out. -/
def fitClusters (room : Nat) : List (List Char) → List (List Char) × Bool
  | [] => ([], false)
  | g :: gs =>
    if m.clusterWidth g ≤ room then
      let (kept, cut) := fitClusters (room - m.clusterWidth g) gs
      (g :: kept, cut)
    else ([], true)

/-- Cuts visible text at a number of columns; nothing visible follows the ellipsis. -/
def fitSegments (room : Nat) : List Segment → List Char
  | [] => []
  | .escape t :: rest => t ++ fitSegments room rest
  | .visible t :: rest =>
    let (kept, cut) := m.fitClusters room (m.clusters t)
    if cut then kept.flatten ++ ellipsis :: rest.flatMap fun
      | .escape e => e
      | .visible _ => []
    else kept.flatten ++ fitSegments (room - m.clustersWidth kept) rest

def truncate (width : Nat) (cs : List Char) : List Char :=
  if m.displayWidth cs ≤ width then cs
  else if width = 0 then []
  else m.fitSegments (width - 1) (segments cs)

def pad (width : Nat) (cs : List Char) : List Char :=
  cs ++ List.replicate (width - m.displayWidth cs) ' '

def widthOf (s : String) : Nat := m.displayWidth s.toList

def padTo (width : Nat) (s : String) : String := String.ofList (m.pad width s.toList)

def truncateTo (width : Nat) (s : String) : String := String.ofList (m.truncate width s.toList)

end Metrics

def clusterWidth (cs : List Char) : Nat :=
  if cs = ['\t'] then tabWidth
  else if cs.all (·.toNat < 0x80) then cs.length
  else sequenceWidth cs

def unicode : Metrics := ⟨clusters, clusterWidth⟩

abbrev displayWidth (cs : List Char) : Nat := unicode.displayWidth cs

abbrev pad (width : Nat) (cs : List Char) : List Char := unicode.pad width cs

abbrev truncate (width : Nat) (cs : List Char) : List Char := unicode.truncate width cs

end Tabwise.Text
