/-! # Terminal escape sequences

A text is split into visible pieces and escape sequences, which take no column. A control
sequence (`ESC [`) runs to its final byte, a command string (`ESC ]`) to a bell or to `ESC \`,
and any other sequence has one character after the `ESC`. A sequence that the text does not
finish runs to its end.
-/

namespace Tabwise.Text

def esc : Char := '\u001b'

def bell : Char := '\u0007'

inductive Segment where
  | visible (text : List Char)
  | escape (text : List Char)
  deriving DecidableEq

def Segment.text : Segment → List Char
  | .visible t | .escape t => t

/-- Where a reader of segments stands. -/
inductive Segment.Mode where
  | visible
  | opened
  | control
  | command (afterEsc : Bool)
  deriving DecidableEq

def isFinal (c : Char) : Bool := '@' ≤ c && c ≤ '~'

/-- The piece that ends here, if it is not empty. -/
def Segment.flush (mode : Segment.Mode) (current : List Char) : List Segment :=
  match mode, current with
  | _, [] => []
  | .visible, cs => [.visible cs.reverse]
  | _, cs => [.escape cs.reverse]

/-- The segments of a text read in a mode, with the open piece in reverse. -/
def segmentsFrom (mode : Segment.Mode) (current : List Char) : List Char → List Segment
  | [] => Segment.flush mode current
  | c :: cs =>
    match mode with
    | .visible =>
      if c = esc then Segment.flush .visible current ++ segmentsFrom .opened [c] cs
      else segmentsFrom .visible (c :: current) cs
    | .opened =>
      if c = '[' then segmentsFrom .control (c :: current) cs
      else if c = ']' then segmentsFrom (.command false) (c :: current) cs
      else .escape (c :: current).reverse :: segmentsFrom .visible [] cs
    | .control =>
      if isFinal c then .escape (c :: current).reverse :: segmentsFrom .visible [] cs
      else segmentsFrom .control (c :: current) cs
    | .command afterEsc =>
      if c = bell || (afterEsc && c = '\\') then
        .escape (c :: current).reverse :: segmentsFrom .visible [] cs
      else segmentsFrom (.command (c = esc)) (c :: current) cs

def segments (cs : List Char) : List Segment := segmentsFrom .visible [] cs

theorem flatMap_flush (mode : Segment.Mode) (current : List Char) :
    (Segment.flush mode current).flatMap Segment.text = current.reverse := by
  cases mode <;> cases current <;> simp [Segment.flush, Segment.text]

theorem flatMap_segmentsFrom (mode : Segment.Mode) (current cs : List Char) :
    (segmentsFrom mode current cs).flatMap Segment.text = current.reverse ++ cs := by
  induction cs generalizing mode current with
  | nil => simp [segmentsFrom, flatMap_flush]
  | cons c cs ih =>
    cases mode <;> simp only [segmentsFrom] <;> (repeat' split) <;>
      simp [flatMap_flush, ih, Segment.text]

theorem flatMap_segments (cs : List Char) : (segments cs).flatMap Segment.text = cs := by
  simp [segments, flatMap_segmentsFrom]

end Tabwise.Text
