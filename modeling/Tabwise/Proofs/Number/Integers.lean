import Mathlib.Algebra.Order.Ring.Int
import Mathlib.Data.List.TakeWhile
import Mathlib.Data.Nat.Digits.Defs
import Tabwise.Proofs.Number.Rounding
import Tabwise.Proofs.Text.Numerals

/-! # Integers as a user types them

An integer is a text of digits behind a minus sign or none. It is read as the nearest number with
its sign, unless that is not finite. Two integers that are read are never in the wrong order; large
ones may be read as the same number.
-/

namespace Tabwise.Number
open Text

variable {cs : List Char} {i j : Int} {x y : Binary64} {n : Nat} {negative : Bool}

def digits? (cs : List Char) : Option Nat :=
  if cs ≠ [] ∧ cs.all Char.isDigit then some (natOfDigits cs) else none

/-- The integer that a text is, of any length. -/
def integer? : List Char → Option Int
  | '-' :: cs => (digits? cs).map fun n : Nat => -n
  | cs => (digits? cs).map fun n : Nat => n

theorem digits?_eq_some (h : digits? cs = some n) : ∃ d : Numeral, d.digits = cs ∧ d.value = n := by
  unfold digits? at h
  split at h
  · next hdigits =>
    exact ⟨⟨cs, hdigits.1, List.all_eq_true.mp hdigits.2⟩, rfl, Option.some.inj h⟩
  · cases h

theorem integer?_eq_some (h : integer? cs = some i) : ∃ (negative : Bool) (d : Numeral),
    cs = (if negative then ['-'] else []) ++ d.digits ∧
      i = if negative then -(d.value : Int) else d.value := by
  unfold integer? at h
  split at h
  · obtain ⟨n, hn, rfl⟩ := Option.map_eq_some_iff.mp h
    obtain ⟨d, rfl, rfl⟩ := digits?_eq_some hn
    exact ⟨true, d, rfl, rfl⟩
  · obtain ⟨n, hn, rfl⟩ := Option.map_eq_some_iff.mp h
    obtain ⟨d, rfl, rfl⟩ := digits?_eq_some hn
    exact ⟨false, d, rfl, rfl⟩

theorem isWhite_of_isDigit {c : Char} (h : c.isDigit = true) : isWhite c = false := by
  have hbounds := Char.isDigit_iff_toNat.mp h
  simp only [Char.reduceToNat] at hbounds
  simp [isWhite, Ranges.has, whiteSpaces]
  omega

theorem trim_eq_self (h : ∀ c ∈ cs, isWhite c = false) : trim cs = cs := by
  have hstay {cs : List Char} (h : ∀ c ∈ cs, isWhite c = false) : cs.dropWhile isWhite = cs :=
    List.dropWhile_eq_self_iff.mpr fun hl => by simp [h _ (List.getElem_mem hl)]
  rw [trim, dropEndWhile, hstay h, hstay fun c hc => h c (List.mem_reverse.mp hc),
    List.reverse_reverse]

theorem readDecimal?_eq (d : Numeral) (h : takeSign cs = (negative, d.digits)) :
    readDecimal? cs = some ⟨negative, d.value, d.digits.length, 0⟩ := by
  have hwhole : d.digits.takeWhile Char.isDigit = d.digits :=
    List.takeWhile_eq_self_iff.mpr d.isDigit
  have hrest : d.digits.dropWhile Char.isDigit = [] := List.dropWhile_eq_nil_iff.mpr d.isDigit
  have hne : d.digits.isEmpty = false := by simpa using d.ne_nil
  simp [readDecimal?, h, hwhole, hrest, hne, readExponent?, Numeral.value]

/-- The cut at `10 ^ 310` stands in for numbers that overflow anyway. -/
theorem magnitude_whole (negative : Bool) (n length : Nat) :
    (Decimal.mk negative n length 0).magnitude =
      if (Nat.repr n).length ≤ 310 then nearest n 1 else infinity := by
  have hpower : n * Nat.pow 10 (0 : Int).toNat = n := Nat.mul_one n
  have hlength : (Nat.repr 0).length = 1 := by decide
  simp only [Decimal.magnitude, hpower]
  grind [nearest_zero]

theorem toBinary64?_whole (negative : Bool) (n length : Nat) :
    (Decimal.mk negative n length 0).toBinary64? =
      if n < overflow then some ⟨negative, nearest n 1⟩ else none := by
  have hbound : overflow ≤ 10 ^ 310 := by decide +kernel
  have hlength (h : n < overflow) : (Nat.repr n).length ≤ 310 :=
    Nat.repr_length n 310 (by decide) (h.trans_le hbound)
  rw [Decimal.toBinary64?, magnitude_whole]
  split
  · simp only [nearest_lt_infinity]
  · next hlong =>
    rw [if_neg (Nat.lt_irrefl _), if_neg fun h => hlong (hlength h)]

theorem isWhite_eq_false_of_integer? (h : integer? cs = some i) : ∀ c ∈ cs, isWhite c = false := by
  obtain ⟨negative, d, rfl, -⟩ := integer?_eq_some h
  intro c hc
  rcases List.mem_append.mp hc with hsign | hdigit
  · cases negative with
    | false => cases hsign
    | true =>
      rw [List.mem_singleton.mp hsign]
      decide
  · exact isWhite_of_isDigit (d.isDigit c hdigit)

theorem takeSign_digits (d : Numeral) : takeSign d.digits = (false, d.digits) := by
  obtain ⟨digits, hne, hdigits⟩ := d
  obtain ⟨c, cs, rfl⟩ := List.exists_cons_of_ne_nil hne
  have hdigit := (onlyDigits_cons.mp hdigits).1
  unfold takeSign
  split
  · next heq =>
    cases heq
    cases hdigit
  · next heq =>
    cases heq
    cases hdigit
  · rfl

/-- A number is an integer with its sign, rounded. The sign says nothing about zero. -/
structure Binary64.Rounds (x : Binary64) (i : Int) : Prop where
  nonpos : x.negative = true → i ≤ 0
  nonneg : x.negative = false → 0 ≤ i
  magnitude : x.magnitude = nearest i.natAbs 1

/-- An integer is read if it is finite once it is rounded. -/
theorem read?_of_integer? (h : integer? cs = some i) :
    if i.natAbs < overflow then ∃ x, read? cs = some x ∧ x.Rounds i else read? cs = none := by
  obtain ⟨negative, d, hcs, hi⟩ := integer?_eq_some h
  have hsign : takeSign cs = (negative, d.digits) := by
    rw [hcs]
    cases negative with
    | false => exact takeSign_digits d
    | true => rfl
  have habs : i.natAbs = d.value := by
    rw [hi]
    cases negative <;> simp
  have hread : read? cs =
      if i.natAbs < overflow then some ⟨negative, nearest i.natAbs 1⟩ else none := by
    rw [read?, trim_eq_self (isWhite_eq_false_of_integer? h), readDecimal?_eq d hsign,
      Option.bind_some, toBinary64?_whole, habs]
  split
  · next hfinite =>
    rw [if_pos hfinite] at hread
    refine ⟨_, hread, ⟨?_, ?_, rfl⟩⟩
    · rintro rfl
      simp [hi]
    · rintro rfl
      simp [hi]
  · next hlarge => rw [hread, if_neg hlarge]

/-- Integers so large and so near to each other that they may be read as one number. -/
structure Indistinct (i j : Int) : Prop where
  left : 2 ^ 53 ≤ i.natAbs
  right : 2 ^ 53 ≤ j.natAbs
  near : 2 ^ 52 * (i - j).natAbs ≤ max i.natAbs j.natAbs

theorem Indistinct.symm (h : Indistinct i j) : Indistinct j i where
  left := h.right
  right := h.left
  near := by
    have hnear := h.near
    omega

namespace Binary64

/-- The smaller of two integers has the smaller number, unless they are indistinct and rounded to
the same one. -/
theorem Rounds.key_lt (hx : x.Rounds i) (hy : y.Rounds j) (h : i < j) :
    x.key < y.key ∨ x = y ∧ Indistinct i j := by
  obtain ⟨negative, _⟩ := x
  obtain ⟨negative', _⟩ := y
  obtain ⟨hnonpos, hnonneg, rfl⟩ := hx
  obtain ⟨hnonpos', hnonneg', rfl⟩ := hy
  cases negative <;> cases negative'
  case false.false =>
    have hi : 0 ≤ i := hnonneg rfl
    have hlt : i.natAbs < j.natAbs := by omega
    rcases nearest_lt_or_eq hlt with hkey | ⟨heq, hlarge, hnear⟩
    · exact .inl (Int.ofNat_lt.mpr hkey)
    · exact .inr ⟨by rw [heq], hlarge, by omega, by omega⟩
  case false.true =>
    have hi : 0 ≤ i := hnonneg rfl
    have hj : j ≤ 0 := hnonpos' rfl
    omega
  case true.false =>
    -- the negative zero has a smaller key than the positive one
    refine .inl ?_
    simp only [key]
    grind
  case true.true =>
    have hj : j ≤ 0 := hnonpos' rfl
    have hlt : j.natAbs < i.natAbs := by omega
    rcases nearest_lt_or_eq hlt with hkey | ⟨heq, hlarge, hnear⟩
    · refine .inl ?_
      simp only [key, if_true]
      omega
    · exact .inr ⟨by rw [heq], by omega, hlarge, by omega⟩

/-- Numbers in order stand for integers in order, or for indistinct ones. -/
theorem Rounds.le_of_le (hx : x.Rounds i) (hy : y.Rounds j) (h : x.le y = true) :
    i ≤ j ∨ x = y ∧ Indistinct i j := by
  have hkey : x.key ≤ y.key := of_decide_eq_true h
  rcases lt_or_ge j i with hlt | hle
  · rcases hy.key_lt hx hlt with hkey' | ⟨heq, hindistinct⟩
    · omega
    · exact .inr ⟨heq.symm, hindistinct.symm⟩
  · exact .inl hle

end Binary64

end Tabwise.Number
