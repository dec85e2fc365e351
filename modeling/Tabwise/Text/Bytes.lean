/-! # Byte offsets

Positions in a line count the bytes of its UTF-8 form. A cut is only made between characters:
an offset inside a character is taken down to where the character begins.
-/

namespace Tabwise.Text

def byteLength : List Char → Nat
  | [] => 0
  | c :: cs => c.utf8Size + byteLength cs

@[simp] theorem byteLength_nil : byteLength [] = 0 := rfl

@[simp] theorem byteLength_cons (c : Char) (cs : List Char) :
    byteLength (c :: cs) = c.utf8Size + byteLength cs := rfl

@[simp] theorem byteLength_append (as bs : List Char) :
    byteLength (as ++ bs) = byteLength as + byteLength bs := by
  induction as with
  | nil => simp
  | cons a as ih => simp [ih, Nat.add_assoc]

/-- Splits at the last character boundary that is not above the offset. -/
def splitAtByte : Nat → List Char → List Char × List Char
  | _, [] => ([], [])
  | n, c :: cs =>
    if c.utf8Size ≤ n then
      let (before, after) := splitAtByte (n - c.utf8Size) cs
      (c :: before, after)
    else ([], c :: cs)

def takeBytes (n : Nat) (cs : List Char) : List Char := (splitAtByte n cs).1

def dropBytes (n : Nat) (cs : List Char) : List Char := (splitAtByte n cs).2

def slice (start stop : Nat) (cs : List Char) : List Char :=
  takeBytes (stop - start) (dropBytes start cs)

def isBoundary (n : Nat) (cs : List Char) : Bool := byteLength (takeBytes n cs) == n

def cutOut? (start stop : Nat) (cs : List Char) : Option (List Char × List Char × List Char) :=
  if start ≤ stop && isBoundary start cs && isBoundary stop cs then
    some (takeBytes start cs, slice start stop cs, dropBytes stop cs)
  else none

theorem splitAtByte_append (n : Nat) (cs : List Char) :
    (splitAtByte n cs).1 ++ (splitAtByte n cs).2 = cs := by
  induction cs generalizing n with
  | nil => rfl
  | cons c cs ih =>
    unfold splitAtByte
    split
    · simpa using ih (n - c.utf8Size)
    · rfl

theorem byteLength_takeBytes_le (n : Nat) (cs : List Char) : byteLength (takeBytes n cs) ≤ n := by
  induction cs generalizing n with
  | nil => simp [takeBytes, splitAtByte]
  | cons c cs ih =>
    unfold takeBytes splitAtByte
    split
    · have := ih (n - c.utf8Size)
      simp only [takeBytes] at this
      simp only [byteLength_cons]
      omega
    · simp

end Tabwise.Text
