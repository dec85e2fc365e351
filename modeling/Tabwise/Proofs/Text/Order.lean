import Mathlib.Data.Char
import Mathlib.Order.Compare
import Tabwise.Completion.Options

/-! # Both orders are linear

Texts are compared lexically by their characters in lower case, or by their chunks, and at last as
they are written, so only equal texts are equal in either order. Among chunks a number stands where
the digits stand among characters. There it is compared as the digit zero, because no character
that is not a digit becomes one in lower case; numbers are compared with each other only if nothing
else decides.
-/

namespace Tabwise

open Std (TransCmp OrientedCmp LawfulEqCmp)

namespace Text
open Case

variable {as bs : List Char} {a b c d : Char}

instance : TransCmp compareChars := inferInstanceAs (TransCmp (List.compareLex compare))

instance : LawfulEqCmp compareChars := inferInstanceAs (LawfulEqCmp (List.compareLex compare))

instance : TransCmp alphabetical :=
  inferInstanceAs (TransCmp (compareLex (Ordering.byKey fold compareChars) compareChars))

instance : TransCmp compareDigits :=
  inferInstanceAs (TransCmp (compareLex
    (compareOn fun ds : List Char => (ds.dropWhile (· == '0')).length)
    (compareLex (Ordering.byKey (List.dropWhile (· == '0')) compareChars)
      (compareOn List.length))))

theorem isDigit_iff : c.isDigit = true ↔ '0' ≤ c ∧ c ≤ '9' := by
  simp [Char.isDigit, Char.le_def]

theorem isDigit_ofNat {n : Nat} (h : '9'.toNat < n) : (Char.ofNat n).isDigit = false := by
  by_cases hvalid : n.isValidChar
  · rw [Char.ofNat, dif_pos hvalid]
    have hval : (Char.ofNatAux n hvalid).val.toNat = n := rfl
    rw [Bool.eq_false_iff, ne_eq, isDigit_iff, not_and, Char.le_def, Char.le_def,
      UInt32.le_iff_toNat_le, UInt32.le_iff_toNat_le, hval]
    exact fun _ => Nat.not_le.mpr h
  · rw [Char.ofNat, dif_neg hvalid]
    rfl

/-- No code point beyond ASCII is mapped to a digit or below. -/
theorem nine_lt_partner {n : Nat} (h : 0x80 ≤ n) : '9'.toNat < partner lowerRuns n := by
  -- a run maps its first code point lowest, so the table need not be read further
  have hruns : ∀ r ∈ lowerRuns, '9'.toNat < (r.first : Int) + r.offset := by decide +kernel
  unfold partner
  split
  · next r hr =>
    have hrun := hruns r (List.mem_of_find?_eq_some hr)
    have hhas : r.has n = true := by simpa using List.find?_some hr
    simp only [Run.has, Bool.and_eq_true, decide_eq_true_eq] at hhas
    omega
  · exact Nat.lt_of_lt_of_le (by decide) h

theorem isDigit_toLower (hascii : c.toNat < 0x80) (h : c.isDigit = false) :
    c.toLower.isDigit = false := by
  have hall : ∀ n < 0x80, (Char.ofNat n).isDigit = false →
      (Char.ofNat n).toLower.isDigit = false := by decide
  have hc := hall c.toNat hascii
  rw [Char.ofNat_toNat] at hc
  exact hc h

theorem lowerChar_eq_cons (h : c.isDigit = false) :
    ∃ d rest, lowerChar c = d :: rest ∧ d.isDigit = false := by
  unfold lowerChar
  split
  · next hascii => exact ⟨_, _, rfl, isDigit_toLower hascii h⟩
  · next hascii =>
    split
    · exact ⟨_, _, rfl, by decide⟩
    · exact ⟨_, _, rfl, isDigit_ofNat (nine_lt_partner (Nat.not_lt.mp hascii))⟩

theorem compare_of_isDigit (ha : a.isDigit = true) (hb : b.isDigit = true)
    (hd : d.isDigit = false) : compare a d = compare b d := by
  obtain ⟨ha₀, ha₉⟩ := isDigit_iff.mp ha
  obtain ⟨hb₀, hb₉⟩ := isDigit_iff.mp hb
  rw [Bool.eq_false_iff, ne_eq, isDigit_iff, not_and_or, not_le, not_le] at hd
  rcases hd with hbelow | habove
  · rw [compare_gt_iff_gt.mpr (hbelow.trans_le ha₀), compare_gt_iff_gt.mpr (hbelow.trans_le hb₀)]
  · rw [compare_lt_iff_lt.mpr (ha₉.trans_lt habove), compare_lt_iff_lt.mpr (hb₉.trans_lt habove)]

/-- A digit and the lower case of another character compare as the digit zero would, and what is
compared next does not count. -/
theorem compareChars_digit (ha : a.isDigit = true) (hc : c.isDigit = false) (next : Ordering) :
    compareChars [a] (lowerChar c) = (compareChars ['0'] (lowerChar c)).then next := by
  obtain ⟨d, rest, hlower, hd⟩ := lowerChar_eq_cons hc
  have hzero : '0'.isDigit = true := rfl
  have hne : compare '0' d ≠ .eq := by
    intro he
    rw [compare_eq_iff_eq.mp he, hd] at hzero
    cases hzero
  rw [hlower, compareChars, compareChars, List.compareLex_cons_cons, List.compareLex_cons_cons,
    compare_of_isDigit ha hzero hd]
  cases hcompare : compare '0' d with
  | lt => rfl
  | eq => exact absurd hcompare hne
  | gt => rfl

namespace Chunk

variable {x y : Chunk}

/-- What is compared first: a letter in lower case, and the digit zero for a number. -/
def folded : Chunk → List Char
  | .digits _ _ => ['0']
  | .letter c => lowerChar c

def number : Chunk → List Char
  | .digits d ds => d :: ds
  | .letter _ => []

def Sound : Chunk → Prop
  | .digits d _ => d.isDigit = true
  | .letter c => c.isDigit = false

def compareKeys (x y : Chunk) : Ordering :=
  (compareChars x.folded y.folded).then (compareDigits x.number y.number)

instance : TransCmp compareKeys :=
  inferInstanceAs (TransCmp (compareLex (Ordering.byKey folded compareChars)
    (Ordering.byKey number compareDigits)))

theorem compare_eq_compareKeys (hx : x.Sound) (hy : y.Sound) : x.compare y = x.compareKeys y := by
  cases x with
  | digits a as =>
    cases y with
    | digits b bs => rfl
    | letter d => exact compareChars_digit hx hy _
  | letter c =>
    cases y with
    | digits b bs =>
      have hswap := congrArg Ordering.swap (compareChars_digit hy hx (compareDigits (b :: bs) []))
      rwa [Ordering.swap_then, ← OrientedCmp.eq_swap, ← OrientedCmp.eq_swap,
        ← OrientedCmp.eq_swap] at hswap
    | letter d => exact Ordering.then_eq.symm

end Chunk

theorem sound_of_mem_chunks {cs : List Char} : ∀ x ∈ chunks cs, x.Sound := by
  induction cs with
  | nil => simp [chunks]
  | cons c cs ih =>
    rw [chunks]
    split
    · next hdigit =>
      split
      · next d ds rest hrest =>
        rw [hrest, List.forall_mem_cons] at ih
        exact List.forall_mem_cons.mpr ⟨hdigit, ih.2⟩
      · exact List.forall_mem_cons.mpr ⟨hdigit, ih⟩
    · next hletter => exact List.forall_mem_cons.mpr ⟨eq_false_of_ne_true hletter, ih⟩

theorem compareLex_congr {α : Type} {cmp cmp' : α → α → Ordering} {xs ys : List α}
    (h : ∀ x ∈ xs, ∀ y ∈ ys, cmp x y = cmp' x y) :
    List.compareLex cmp xs ys = List.compareLex cmp' xs ys := by
  induction xs generalizing ys with
  | nil => cases ys <;> rfl
  | cons x xs ih =>
    cases ys with
    | nil => rfl
    | cons y ys =>
      rw [List.compareLex_cons_cons, List.compareLex_cons_cons,
        h x List.mem_cons_self y List.mem_cons_self,
        ih fun x hx y hy => h x (List.mem_cons_of_mem _ hx) y (List.mem_cons_of_mem _ hy)]

/-- In natural order texts are compared by the keys of their chunks. -/
theorem natural_eq : natural = compareLex
    (Ordering.byKey chunks (List.compareLex Chunk.compareKeys)) compareChars := by
  funext as bs
  have hkeys : List.compareLex Chunk.compare (chunks as) (chunks bs) =
      List.compareLex Chunk.compareKeys (chunks as) (chunks bs) :=
    compareLex_congr fun x hx y hy =>
      Chunk.compare_eq_compareKeys (sound_of_mem_chunks x hx) (sound_of_mem_chunks y hy)
  rw [natural, hkeys]
  rfl

instance : TransCmp natural := natural_eq ▸ inferInstance

end Text

namespace SortOrder

variable {o : SortOrder} {a b c : String}

instance (o : SortOrder) : TransCmp o.compare :=
  match o with
  | alphabetical => inferInstanceAs (TransCmp (Ordering.byKey String.toList Text.alphabetical))
  | natural => inferInstanceAs (TransCmp (Ordering.byKey String.toList Text.natural))

theorem eq_of_compare (h : o.compare a b = .eq) : a = b := by
  have hchars : Text.compareChars a.toList b.toList = .eq := by
    cases o with
    | alphabetical => exact (Ordering.then_eq_eq.mp h).2
    | natural => exact (Ordering.then_eq_eq.mp h).2
  exact String.toList_inj.mp (LawfulEqCmp.eq_of_compare hchars)

instance (o : SortOrder) : LawfulEqCmp o.compare where
  eq_of_compare := eq_of_compare

/-- Either order is linear: only equal texts are equal in it, to exchange two texts reverses it,
and it is transitive. -/
theorem compare_linear (o : SortOrder) (a b c : String) :
    (o.compare a b = .eq ↔ a = b) ∧ o.compare b a = (o.compare a b).swap ∧
      (o.compare a b ≠ .gt → o.compare b c ≠ .gt → o.compare a c ≠ .gt) := by
  refine ⟨LawfulEqCmp.compare_eq_iff_eq, OrientedCmp.eq_swap, fun hab hbc => ?_⟩
  apply Ordering.isLE_iff_ne_gt.mp
  exact TransCmp.isLE_trans (Ordering.isLE_iff_ne_gt.mpr hab) (Ordering.isLE_iff_ne_gt.mpr hbc)

example : natural.compare "x9" "X10" = .lt ∧ natural.compare "x01" "x1" = .gt ∧
    alphabetical.compare "x9" "X10" = .gt := by decide

end SortOrder

end Tabwise
