import Tabwise.Text.Column.Table
import Tabwise.Text.Cluster.Table

/-! # Terminal columns of a character sequence

A sequence is measured from its end, because what a character takes depends on what it is
followed by: a selector that asks for a picture, a joiner, a skin tone, a second half of a flag,
or the second letter of a ligature.
-/

namespace Tabwise.Text

namespace Column

/-- A ligature letter, waiting for the letters before it. -/
inductive Ligature where
  | hebrewLamed | joinedHebrewLamed
  | khmerLetter
  | bugineseYa | joinedBugineseYa | bugineseVowelYa
  | tifinagh | joinedTifinagh | linkedTifinagh
  | lisuTone
  | turkicI | joinedTurkicI
  deriving DecidableEq

/-- What the characters after a position ask of the one before it. -/
inductive Follow where
  | plain
  | lineFeed
  | skinTone
  | regional | regionals
  | picture
  | joinedPicture | joinedKeycap
  | joinedRegional | joinedEvenRegionals | joinedOddRegionals
  | joinedTag (letters digits : Nat)
  | arabicAlef
  | kiratVowelE | kiratVowelAi
  | ligature (letter : Ligature)
  deriving DecidableEq

inductive Selector where
  | asPicture | asText
  deriving DecidableEq

/-- The demand on the next character to the left, with a selector in between. -/
structure Demand where
  follow : Follow
  selector : Option Selector
  deriving DecidableEq

def Demand.none : Demand := ⟨.plain, .none⟩

def Follow.demand (f : Follow) : Demand := ⟨f, .none⟩

def isKhmerLetter (n : Nat) : Bool :=
  (0x1780 ≤ n && n ≤ 0x1782) || (0x1784 ≤ n && n ≤ 0x1787) || (0x1789 ≤ n && n ≤ 0x178c) ||
    (0x178e ≤ n && n ≤ 0x1793) || (0x1795 ≤ n && n ≤ 0x1798) || (0x179b ≤ n && n ≤ 0x179d) ||
    n == 0x17a0 || n == 0x17a2 || n == 0x17a7 || n == 0x17ab || n == 0x17ac || n == 0x17af

def isArabicAlef (n : Nat) : Bool :=
  n == 0x622 || n == 0x623 || n == 0x625 || n == 0x627 || (0x671 ≤ n && n ≤ 0x673) ||
    n == 0x675 || n == 0x773 || n == 0x774 || (0x870 ≤ n && n ≤ 0x882)

def isArabicLam (n : Nat) : Bool :=
  n == 0x644 || (0x6b5 ≤ n && n ≤ 0x6b8) || n == 0x76a || n == 0x8a6 || n == 0x8c7

def isTifinagh (n : Nat) : Bool := (0x2d31 ≤ n && n ≤ 0x2d65) || n == 0x2d6f

def isRegional (n : Nat) : Bool := 0x1f1e6 ≤ n && n ≤ 0x1f1ff

def isInvisible (n : Nat) : Bool := n != 0x2d7f && (invisible.has n || Cluster.marks.has n)

def alone (n : Nat) : Nat :=
  if n < 0xa1 then 1
  else if n = 0x17d8 then 3
  else if isInvisible n then 0
  else if wide.has n then 2
  else 1

def demandOf (n : Nat) : Follow :=
  if n = 0xa then .lineFeed
  else if n < 0xa1 then .plain
  else if n = 0x5dc then .ligature .hebrewLamed
  else if isArabicAlef n then .arabicAlef
  else if isKhmerLetter n then .ligature .khmerLetter
  else if n = 0x1a10 then .ligature .bugineseYa
  else if isTifinagh n then .ligature .tifinagh
  else if n = 0xa4fc || n = 0xa4fd then .ligature .lisuTone
  else if n = 0x10c03 then .ligature .turkicI
  else if n = 0x16d67 then .kiratVowelE
  else if n = 0x16d68 then .kiratVowelAi
  else if isRegional n then .regional
  else if 0x1f3fb ≤ n && n ≤ 0x1f3ff then .skinTone
  else if emoji.has n then .picture
  else .plain

def becomesPicture (n : Nat) : Bool := narrowPictures.has n || widePictures.has n

def becomesText (n : Nat) : Bool := !(0x1f200 ≤ n && n ≤ 0x1f2ff) && widePictures.has n

/-- Joining marks that a ligature looks through. -/
def isTransparent (n : Nat) : Bool :=
  n == 0x34f || n == 0x17b4 || n == 0x17b5 || (0x180b ≤ n && n ≤ 0x180d) || n == 0x180f ||
    (0xfe00 ≤ n && n ≤ 0xfe0f) || (0xe0100 ≤ n && n ≤ 0xe01ef)

def Ligature.joined : Ligature → Ligature
  | .hebrewLamed => .joinedHebrewLamed
  | .bugineseYa => .joinedBugineseYa
  | .tifinagh => .joinedTifinagh
  | .turkicI => .joinedTurkicI
  | l => l

/-- A picture selector keeps what a joiner or a ligature letter asks. -/
def Follow.throughPictureSelector : Follow → Follow
  | .joinedPicture => .joinedPicture
  | .joinedKeycap => .joinedKeycap
  | .ligature l => .ligature l
  | _ => .plain

/-- A selector that was not obeyed lets a ligature letter through and nothing else. -/
def Follow.pastSelector : Follow → Follow
  | .ligature l => .ligature l
  | _ => .plain

/-- The effect of a letter before a ligature letter, as columns to add and what it asks. -/
def Ligature.meets (l : Ligature) (n : Nat) : Option (Int × Follow) :=
  match l with
  | .joinedHebrewLamed => if n = 0x5d0 then some (0, .plain) else none
  | .khmerLetter => if n = 0x17d2 then some (-1, .plain) else none
  | .joinedBugineseYa => if n = 0x1a17 then some (0, .ligature .bugineseVowelYa) else none
  | .bugineseVowelYa => if n = 0x1a15 then some (0, .plain) else none
  | .tifinagh => if n = 0x2d7f then some (1, .ligature .linkedTifinagh) else none
  | .joinedTifinagh =>
    if n = 0x2d7f then some (1, .ligature .linkedTifinagh)
    else if isTifinagh n then some (0, .plain) else none
  | .linkedTifinagh => if isTifinagh n then some (-1, .plain) else none
  | .lisuTone => if 0xa4f8 ≤ n && n ≤ 0xa4fb then some (0, .plain) else none
  | .joinedTurkicI => if n = 0x10c32 then some (0, .plain) else none
  | .hebrewLamed | .bugineseYa | .turkicI => none

/-- A tag sequence before a joiner is read back to its black flag. -/
def meetsTag (letters digits n : Nat) : Option (Int × Follow) :=
  if digits = 0 && letters < 6 && 0xe0061 ≤ n && n ≤ 0xe007a then
    some (0, .joinedTag (letters + 1) 0)
  else if letters ≤ 4 && digits < 3 && 0xe0030 ≤ n && n ≤ 0xe0039 then
    some (0, .joinedTag letters (digits + 1))
  else if n = 0x1f3f4 && ((digits = 0 && 3 ≤ letters) || digits = 3) then some (0, .picture)
  else none

/-- The effect of a character on a sequence that asks something of it. -/
def Follow.meets (f : Follow) (n : Nat) : Option (Int × Follow) :=
  match f with
  | .arabicAlef =>
    if isArabicLam n then some (0, .plain)
    else if alone n = 0 && !joinBreakers.has n then some (0, .arabicAlef) else none
  | .kiratVowelE =>
    if n = 0x16d63 then some (0, .plain)
    else if n = 0x16d67 then some (0, .kiratVowelAi)
    else if n = 0x16d68 then some (1, .kiratVowelE)
    else if n = 0x16d69 then some (0, .plain) else none
  | .kiratVowelAi => if n = 0x16d63 then some (0, .plain) else none
  | .skinTone =>
    if modifierBases.has n then some (0, .picture)
    else if n = 0x200d then some (0, .joinedPicture) else none
  | .regional => if isRegional n then some (1, .regionals) else none
  | .regionals =>
    if isRegional n then some (1, .regionals)
    else if n = 0x200d then some (0, .joinedPicture) else none
  | .picture => if n = 0x200d then some (0, .joinedPicture) else none
  | .joinedPicture =>
    if n = 0x20e3 then some (0, .joinedKeycap)
    else if isRegional n then some (1, .joinedRegional)
    else if 0x1f3fb ≤ n && n ≤ 0x1f3ff then some (0, .skinTone)
    else if n = 0xe007f then some (0, .joinedTag 0 0)
    else if demandOf n = .picture then some (0, .picture) else none
  | .joinedRegional => if isRegional n then some (-1, .joinedEvenRegionals) else none
  | .joinedEvenRegionals =>
    if isRegional n then some (3, .joinedOddRegionals)
    else if n = 0x200d then some (0, .joinedPicture) else none
  | .joinedOddRegionals =>
    if isRegional n then some (-1, .joinedEvenRegionals)
    else if n = 0x200d then some (0, .joinedPicture) else none
  | .joinedTag letters digits => meetsTag letters digits n
  | .ligature l => l.meets n
  | .plain | .lineFeed | .joinedKeycap => none

/-- Columns that a character adds before a sequence with the given demand, and the new demand. -/
def before (d : Demand) (c : Char) : Int × Demand :=
  let n := c.toNat
  if d.selector = some .asPicture && becomesPicture n then
    let joined := d.follow = .joinedPicture || d.follow = .joinedKeycap
    (if joined then 0 else 2, Follow.picture.demand)
  else
    let d := if d.selector = some .asPicture then d.follow.pastSelector.demand else d
    if n < 0xa1 then
      (if n = 0xd && d.follow = .lineFeed then 0 else 1, (demandOf n).demand)
    else if n = 0xfe0f then (0, ⟨d.follow.throughPictureSelector, some .asPicture⟩)
    else if n = 0xfe0e then (0, ⟨d.follow.pastSelector, some .asText⟩)
    else if d.selector = some .asText && becomesText n then (1, .none)
    else
      let f := if d.selector = some .asText then d.follow.pastSelector else d.follow
      match f with
      | .ligature l =>
        if n = 0x200d then (0, (Follow.ligature l.joined).demand)
        else if isTransparent n then (0, (Follow.ligature l).demand)
        else match l.meets n with
          | some (w, g) => (w, g.demand)
          | none => (alone n, (demandOf n).demand)
      | f => match f.meets n with
        | some (w, g) => (w, g.demand)
        | none => (alone n, (demandOf n).demand)

def measure : List Char → Int × Demand
  | [] => (0, .none)
  | c :: cs =>
    let (w, d) := measure cs
    let (more, d) := before d c
    (w + more, d)

end Column

/-- Columns that a sequence takes when it is drawn as one. -/
def sequenceWidth (cs : List Char) : Nat := (Column.measure cs).1.toNat

end Tabwise.Text
