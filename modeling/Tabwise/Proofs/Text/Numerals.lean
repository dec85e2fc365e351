import Mathlib.Algebra.Group.Nat.Defs
import Mathlib.Order.Monotone.Basic
import Tabwise.Number.Decimal
import Tabwise.Proofs.Text.Order

/-! # Numbers in natural order

Digits are compared without reading them as a number: without leading zeros the longer run is the
larger number, and runs of one length compare as texts. This is the order of the numbers they stand
for. Behind a common start that does not end in a digit, the numbers decide before what follows.
-/

namespace Tabwise.Text
open Number

variable {c d : Char} {as bs cs ds : List Char}

def OnlyDigits (cs : List Char) : Prop := ∀ c ∈ cs, c.isDigit = true

theorem onlyDigits_cons : OnlyDigits (c :: cs) ↔ c.isDigit = true ∧ OnlyDigits cs :=
  List.forall_mem_cons

theorem digitValue_lt (hc : c.isDigit = true) : digitValue c < 10 := by
  have hbounds := Char.isDigit_iff_toNat.mp hc
  simp only [digitValue, Char.reduceToNat] at hbounds ⊢
  omega

theorem digitValue_pos (hc : c.isDigit = true) (hzero : c ≠ '0') : 0 < digitValue c := by
  have hbounds := Char.isDigit_iff_toNat.mp hc
  have hne : c.toNat ≠ '0'.toNat := fun h => hzero (Char.toNat_inj.mp h)
  simp only [digitValue, Char.reduceToNat] at hbounds hne ⊢
  omega

theorem digitValue_lt_digitValue (hc : c.isDigit = true) (h : c < d) :
    digitValue c < digitValue d := by
  have hbounds := (Char.isDigit_iff_toNat.mp hc).1
  have hval : c.toNat < d.toNat := UInt32.lt_iff_toNat_lt.mp (Char.lt_def.mp h)
  simp only [digitValue, Char.reduceToNat] at hbounds ⊢
  omega

theorem compare_digitValue (hc : c.isDigit = true) (hd : d.isDigit = true) :
    compare (digitValue c) (digitValue d) = compare c d := by
  have hmono : StrictMonoOn digitValue {c | c.isDigit = true} :=
    fun _ hc _ _ h => digitValue_lt_digitValue hc h
  rw [← cmp_eq_compare, hmono.cmp_map_eq hc hd, cmp_eq_compare]

theorem natOfDigits_cons (c : Char) (cs : List Char) :
    natOfDigits (c :: cs) = digitValue c * 10 ^ cs.length + natOfDigits cs := by
  have hfold (n : Nat) : cs.foldl (fun n c => 10 * n + digitValue c) n =
      10 ^ cs.length * n + natOfDigits cs := Nat.ofDigitChars_eq_ofDigitChars_zero
  rw [natOfDigits, List.foldl_cons, hfold, Nat.mul_zero, Nat.zero_add, Nat.mul_comm]

theorem natOfDigits_lt (h : OnlyDigits cs) : natOfDigits cs < 10 ^ cs.length := by
  induction cs with
  | nil => decide
  | cons c cs ih =>
    rw [onlyDigits_cons] at h
    have hrest := ih h.2
    have hfirst := Nat.mul_le_mul_right (10 ^ cs.length) (digitValue_lt h.1)
    rw [Nat.succ_mul] at hfirst
    rw [natOfDigits_cons, List.length_cons, Nat.pow_succ']
    omega

theorem natOfDigits_dropWhile (cs : List Char) :
    natOfDigits (cs.dropWhile (· == '0')) = natOfDigits cs := by
  induction cs with
  | nil => rfl
  | cons c cs ih =>
    by_cases hc : c = '0'
    · rw [List.dropWhile_cons_of_pos (by simp [hc]), ih, natOfDigits_cons, hc]
      simp [digitValue]
    · rw [List.dropWhile_cons_of_neg (by simp [hc])]

theorem compare_place {m a b x y : Nat} (hx : x < m) (hy : y < m) :
    compare (a * m + x) (b * m + y) = (compare a b).then (compare x y) := by
  have hlt {a b x y : Nat} (hx : x < m) (h : a < b) : a * m + x < b * m + y := by
    have hplace := Nat.mul_le_mul_right m h
    rw [Nat.succ_mul] at hplace
    omega
  rcases lt_trichotomy a b with h | rfl | h
  · rw [compare_lt_iff_lt.mpr h, compare_lt_iff_lt.mpr (hlt hx h)]
    rfl
  · have hmono : StrictMono fun x => a * m + x := fun _ _ h => Nat.add_lt_add_left h _
    rw [compare_eq_iff_eq.mpr rfl, Ordering.eq_then, ← cmp_eq_compare, ← cmp_eq_compare,
      hmono.cmp_map_eq]
  · rw [compare_gt_iff_gt.mpr h, compare_gt_iff_gt.mpr (hlt hy h)]
    rfl

theorem compareChars_of_length_eq (ha : OnlyDigits as) (hb : OnlyDigits bs)
    (h : as.length = bs.length) :
    compareChars as bs = compare (natOfDigits as) (natOfDigits bs) := by
  induction as generalizing bs with
  | nil =>
    rw [List.length_eq_zero_iff.mp h.symm]
    rfl
  | cons a as ih =>
    cases bs with
    | nil => cases h
    | cons b bs =>
      rw [onlyDigits_cons] at ha hb
      have hlength : as.length = bs.length := Nat.succ.inj h
      have hrest := ih ha.2 hb.2 hlength
      rw [compareChars] at hrest
      rw [compareChars, List.compareLex_cons_cons, hrest, natOfDigits_cons, natOfDigits_cons,
        ← compare_digitValue ha.1 hb.1, hlength,
        compare_place (hlength ▸ natOfDigits_lt ha.2) (natOfDigits_lt hb.2)]

theorem natOfDigits_lt_of_length_lt (ha : OnlyDigits as) (hb : OnlyDigits bs)
    (hzero : bs.head? ≠ some '0') (h : as.length < bs.length) :
    natOfDigits as < natOfDigits bs := by
  cases bs with
  | nil => cases h
  | cons b bs =>
    rw [onlyDigits_cons] at hb
    have hne : b ≠ '0' := by simpa using hzero
    have hpos := Nat.mul_le_mul_right (10 ^ bs.length) (digitValue_pos hb.1 hne)
    rw [natOfDigits_cons]
    calc natOfDigits as < 10 ^ as.length := natOfDigits_lt ha
      _ ≤ 10 ^ bs.length := Nat.pow_le_pow_right (by decide) (Nat.le_of_lt_succ h)
      _ ≤ digitValue b * 10 ^ bs.length + natOfDigits bs := by omega

theorem compare_significant (ha : OnlyDigits as) (hb : OnlyDigits bs)
    (hazero : as.head? ≠ some '0') (hbzero : bs.head? ≠ some '0') :
    (compare as.length bs.length).then (compareChars as bs) =
      compare (natOfDigits as) (natOfDigits bs) := by
  rcases lt_trichotomy as.length bs.length with h | h | h
  · rw [compare_lt_iff_lt.mpr h,
      compare_lt_iff_lt.mpr (natOfDigits_lt_of_length_lt ha hb hbzero h)]
    rfl
  · rw [compare_eq_iff_eq.mpr h, Ordering.eq_then, compareChars_of_length_eq ha hb h]
  · rw [compare_gt_iff_gt.mpr h,
      compare_gt_iff_gt.mpr (natOfDigits_lt_of_length_lt hb ha hazero h)]
    rfl

/-- Runs of digits compare as their numbers, and by their lengths where these are the same. -/
theorem compareDigits_eq (ha : OnlyDigits as) (hb : OnlyDigits bs) :
    compareDigits as bs =
      (compare (natOfDigits as) (natOfDigits bs)).then (compare as.length bs.length) := by
  have hdigits {cs : List Char} (h : OnlyDigits cs) : OnlyDigits (cs.dropWhile (· == '0')) :=
    fun c hc => h c ((List.dropWhile_sublist _).subset hc)
  have hzero (cs : List Char) : (cs.dropWhile (· == '0')).head? ≠ some '0' := by
    intro hhead
    simpa [hhead] using List.head?_dropWhile_not (· == '0') cs
  rw [compareDigits, ← Ordering.then_assoc,
    compare_significant (hdigits ha) (hdigits hb) (hzero as) (hzero bs), natOfDigits_dropWhile,
    natOfDigits_dropWhile]

structure Numeral where
  digits : List Char
  ne_nil : digits ≠ []
  isDigit : OnlyDigits digits

def Numeral.value (n : Numeral) : Nat := natOfDigits n.digits

theorem chunks_cons_ne_nil (c : Char) (cs : List Char) : chunks (c :: cs) ≠ [] := by
  rw [chunks]
  split
  · split <;> exact List.cons_ne_nil _ _
  · exact List.cons_ne_nil _ _

theorem chunks_digit_cons (hc : c.isDigit = true) (hcs : cs.head?.any Char.isDigit = false) :
    chunks (c :: cs) = .digits c [] :: chunks cs := by
  cases cs with
  | nil => simp [chunks, hc]
  | cons d cs =>
    have hd : d.isDigit = false := hcs
    simp [chunks, hc, hd]

/-- Texts are read apart where no run of digits goes on from one to the other. -/
theorem chunks_append
    (h : as.getLast?.any Char.isDigit = false ∨ bs.head?.any Char.isDigit = false) :
    chunks (as ++ bs) = chunks as ++ chunks bs := by
  induction as with
  | nil => rfl
  | cons a as ih =>
    cases as with
    | nil =>
      -- Only here does the end of the one text meet the start of the other.
      cases ha : a.isDigit with
      | true =>
        have hbs : bs.head?.any Char.isDigit = false := by simpa [ha] using h
        rw [List.singleton_append, chunks_digit_cons ha hbs]
        simp [chunks, ha]
      | false => simp [chunks, ha]
    | cons b as =>
      have hrest := ih (by simpa using h)
      rw [List.cons_append, chunks, hrest]
      cases hchunks : chunks (b :: as) with
      | nil => exact absurd hchunks (chunks_cons_ne_nil b as)
      | cons x xs =>
        rw [chunks, hchunks]
        cases x <;> split <;> rfl

theorem Numeral.chunks_eq (n : Numeral) :
    ∃ c cs, n.digits = c :: cs ∧ chunks n.digits = [.digits c cs] := by
  obtain ⟨digits, hne, hdigits⟩ := n
  induction digits with
  | nil => exact absurd rfl hne
  | cons c cs ih =>
    rw [onlyDigits_cons] at hdigits
    refine ⟨c, cs, rfl, ?_⟩
    cases cs with
    | nil => simp [chunks, hdigits.1]
    | cons d ds =>
      obtain ⟨d', ds', heq, hchunks⟩ := ih (List.cons_ne_nil d ds) hdigits.2
      cases heq
      rw [chunks, if_pos hdigits.1, hchunks]

theorem Chunk.compare_self (x : Chunk) : x.compare x = .eq := by
  cases x with
  | digits a as =>
    have hself : compareDigits (a :: as) (a :: as) = .eq := Std.ReflCmp.compare_self
    exact hself
  | letter c =>
    have hself : compareChars (lowerChar c) (lowerChar c) = .eq := Std.ReflCmp.compare_self
    exact hself

theorem compareLex_append {xs ys zs : List Chunk} :
    List.compareLex Chunk.compare (xs ++ ys) (xs ++ zs) = List.compareLex Chunk.compare ys zs := by
  induction xs with
  | nil => rfl
  | cons x xs ih =>
    rw [List.cons_append, List.cons_append, List.compareLex_cons_cons, Chunk.compare_self, ih]
    rfl

variable {before after after' : List Char}

/-- Behind a common start the numbers decide, and what follows only where they have the same value
and the same length. -/
theorem natural_numerals (n n' : Numeral) (hbefore : before.getLast?.any Char.isDigit = false)
    (hafter : after.head?.any Char.isDigit = false)
    (hafter' : after'.head?.any Char.isDigit = false) :
    ∃ rest, natural (before ++ n.digits ++ after) (before ++ n'.digits ++ after') =
      ((compare n.value n'.value).then (compare n.digits.length n'.digits.length)).then rest := by
  obtain ⟨c, cs, hdigits, hchunks⟩ := n.chunks_eq
  obtain ⟨c', cs', hdigits', hchunks'⟩ := n'.chunks_eq
  rw [Numeral.value, Numeral.value, ← compareDigits_eq n.isDigit n'.isDigit, natural,
    List.append_assoc, List.append_assoc, chunks_append (.inl hbefore),
    chunks_append (.inl hbefore), chunks_append (.inr hafter), chunks_append (.inr hafter'),
    compareLex_append, hchunks, hchunks', List.singleton_append, List.singleton_append,
    List.compareLex_cons_cons, Chunk.compare, ← hdigits, ← hdigits', Ordering.then_assoc]
  exact ⟨_, rfl⟩

/-- Behind a common start that does not end in a digit, the text with the smaller number comes
first, and of two with the same number the one with fewer digits, whatever follows. -/
theorem natural_lt_of_numerals (n n' : Numeral) (hbefore : before.getLast?.any Char.isDigit = false)
    (hafter : after.head?.any Char.isDigit = false)
    (hafter' : after'.head?.any Char.isDigit = false)
    (h : n.value < n'.value ∨ n.value = n'.value ∧ n.digits.length < n'.digits.length) :
    natural (before ++ n.digits ++ after) (before ++ n'.digits ++ after') = .lt := by
  obtain ⟨rest, hnatural⟩ := natural_numerals n n' hbefore hafter hafter'
  rw [hnatural]
  rcases h with hvalue | ⟨hvalue, hlength⟩
  · rw [compare_lt_iff_lt.mpr hvalue]
    rfl
  · rw [compare_eq_iff_eq.mpr hvalue, compare_lt_iff_lt.mpr hlength]
    rfl

/-- A version with fewer leading zeros, although what follows is in the other order. -/
theorem natural_lt_of_numerals_version :
    natural "v10-7b".toList "v10-007a".toList = .lt := by
  let n : Numeral := ⟨['7'], List.cons_ne_nil _ _, List.all_eq_true.mp rfl⟩
  let n' : Numeral := ⟨['0', '0', '7'], List.cons_ne_nil _ _, List.all_eq_true.mp rfl⟩
  have hvalue : n.value = n'.value ∧ n.digits.length < n'.digits.length := by decide
  have hnatural : natural ("v10-".toList ++ n.digits ++ ['b'])
      ("v10-".toList ++ n'.digits ++ ['a']) = .lt :=
    natural_lt_of_numerals n n' rfl rfl rfl (.inr hvalue)
  exact hnatural

end Tabwise.Text
