import Mathlib.Tactic.SplitIfs
import Tabwise.Text.Column

/-! # Columns of joined sequences

A sequence is measured from its end. A character may take back a column that was counted for what
it joins, and never one that was not, so no sequence has a negative width. Where the part that is
measured first asks nothing of the one before it, their columns add up.
-/

namespace Tabwise.Text

namespace Column

variable {f g : Follow} {w : Int} {n : Nat} {as bs : List Char}

/-- Columns counted so far that the character before them may take back. -/
def Follow.credit : Follow → Int
  | .joinedRegional | .joinedOddRegionals => 1
  | .ligature .khmerLetter | .ligature .linkedTifinagh => 1
  | _ => 0

theorem Follow.credit_nonneg (f : Follow) : 0 ≤ f.credit := by
  unfold credit
  split <;> decide

theorem isInvisible_of_isKhmerLetter (h : isKhmerLetter n = true) : isInvisible n = false := by
  have hall : ∀ i < 0x30, isInvisible (0x1780 + i) = false := by decide +kernel
  have hlow : 0x1780 ≤ n ∧ n < 0x17b0 := by
    simp only [isKhmerLetter, Bool.or_eq_true, Bool.and_eq_true, decide_eq_true_eq, beq_iff_eq] at h
    omega
  have hn := hall (n - 0x1780) (by omega)
  rwa [Nat.add_sub_cancel' hlow.1] at hn

theorem credit_demandOf_le (n : Nat) : (demandOf n).credit ≤ alone n := by
  have hnonneg : (0 : Int) ≤ alone n := Int.natCast_nonneg _
  fun_cases demandOf n with
  | case5 _ _ _ _ hletter =>
    have halone : 1 ≤ alone n := by
      simp only [alone, isInvisible_of_isKhmerLetter hletter, Bool.false_eq_true, if_false]
      split_ifs <;> decide
    exact Int.ofNat_le.mpr halone
  | _ => exact hnonneg

theorem credit_demandOf_of_lt (h : n < 0xa1) : (demandOf n).credit = 0 := by
  fun_cases demandOf n with
  | case1 => rfl
  | case2 => rfl
  | _ => contradiction

theorem Ligature.credit_meets {l : Ligature} (h : l.meets n = some (w, g)) :
    g.credit ≤ (Follow.ligature l).credit + w := by
  unfold Ligature.meets at h
  split at h <;> (repeat' split at h) <;> cases h <;> decide

theorem Follow.credit_meets (h : f.meets n = some (w, g)) : g.credit ≤ f.credit + w := by
  cases f with
  | ligature l => exact Ligature.credit_meets h
  | joinedTag letters digits =>
    simp only [Follow.meets, meetsTag] at h
    (repeat' split at h) <;> cases h <;> exact Int.le_refl 0
  | _ =>
    simp only [Follow.meets] at h
    (repeat' split at h) <;> cases h <;> decide

theorem Follow.credit_pastSelector (f : Follow) : f.pastSelector.credit ≤ f.credit := by
  cases f with
  | ligature l => exact Int.le_refl _
  | _ => exact credit_nonneg _

theorem Follow.credit_throughPictureSelector (f : Follow) :
    f.throughPictureSelector.credit ≤ f.credit := by
  cases f with
  | ligature l => exact Int.le_refl _
  | _ => exact credit_nonneg _

theorem Ligature.credit_joined (l : Ligature) :
    (Follow.ligature l.joined).credit ≤ (Follow.ligature l).credit := by
  cases l <;> decide

/-- A selector may take away what was asked, whether it is obeyed or not. -/
theorem credit_passed (d : Demand) (p : Prop) [Decidable p] :
    (if p then d.follow.pastSelector.demand else d).follow.credit ≤ d.follow.credit ∧
      (if p then d.follow.pastSelector else d.follow).credit ≤ d.follow.credit := by
  split
  · exact ⟨d.follow.credit_pastSelector, d.follow.credit_pastSelector⟩
  · exact ⟨Int.le_refl _, Int.le_refl _⟩

theorem credit_before (d : Demand) (c : Char) :
    (before d c).2.follow.credit ≤ d.follow.credit + (before d c).1 := by
  have hnonneg := d.follow.credit_nonneg
  have hpassed := (credit_passed d (d.selector = some .asPicture)).1
  -- either what was asked of the character is passed on, or it asks for no more than it counts
  fun_cases before d c with
  | case1 n _ joined =>
    have hpicture : Follow.picture.demand.follow.credit = 0 := rfl
    rw [hpicture]
    dsimp only
    split <;> omega
  | case2 n _ d' hn =>
    have hzero : (demandOf n).demand.follow.credit = 0 := credit_demandOf_of_lt hn
    rw [hzero]
    dsimp only
    split <;> omega
  | case3 n _ d' =>
    rw [Int.add_zero]
    exact Int.le_trans d'.follow.credit_throughPictureSelector hpassed
  | case4 n _ d' =>
    rw [Int.add_zero]
    exact Int.le_trans d'.follow.credit_pastSelector hpassed
  | case5 n _ d' =>
    have hzero : Demand.none.follow.credit = 0 := rfl
    dsimp only
    omega
  | case6 n _ d' _ _ _ _ f l hf =>
    have hle : f.credit ≤ d.follow.credit := Int.le_trans (credit_passed d' _).2 hpassed
    rw [Int.add_zero]
    exact Int.le_trans l.credit_joined (hf ▸ hle)
  | case7 n _ d' _ _ _ _ f l hf =>
    have hle : f.credit ≤ d.follow.credit := Int.le_trans (credit_passed d' _).2 hpassed
    rw [Int.add_zero]
    exact hf ▸ hle
  | case8 n _ d' _ _ _ _ f l hf _ _ w g hg =>
    have hle : f.credit ≤ d.follow.credit := Int.le_trans (credit_passed d' _).2 hpassed
    have hmeets : g.credit ≤ f.credit + w := hf ▸ l.credit_meets hg
    exact Int.le_trans hmeets (Int.add_le_add_right hle w)
  | case10 n _ d' _ _ _ _ f w g _ hg =>
    have hle : f.credit ≤ d.follow.credit := Int.le_trans (credit_passed d' _).2 hpassed
    exact Int.le_trans (f.credit_meets hg) (Int.add_le_add_right hle w)
  | case9 n | case11 n =>
    have halone : (demandOf n).demand.follow.credit ≤ alone n := credit_demandOf_le n
    dsimp only
    omega

/-- What a sequence may still take back was counted. -/
theorem credit_measure (cs : List Char) : (measure cs).2.follow.credit ≤ (measure cs).1 := by
  induction cs with
  | nil => exact Int.le_refl 0
  | cons c cs ih =>
    have hstep := credit_before (measure cs).2 c
    rw [measure]
    dsimp only
    omega

theorem measure_nonneg (cs : List Char) : 0 ≤ (measure cs).1 :=
  Int.le_trans (measure cs).2.follow.credit_nonneg (credit_measure cs)

theorem measure_cons (c : Char) (cs : List Char) :
    measure (c :: cs) =
      ((measure cs).1 + (before (measure cs).2 c).1, (before (measure cs).2 c).2) := rfl

/-- Before a part that asks nothing, a sequence is measured as if it ended there. -/
theorem measure_append (h : (measure bs).2 = .none) :
    measure (as ++ bs) = ((measure as).1 + (measure bs).1, (measure as).2) := by
  induction as with
  | nil =>
    have hempty : measure [] = (0, .none) := rfl
    rw [List.nil_append, hempty, Int.zero_add, ← h]
  | cons a as ih =>
    rw [List.cons_append, measure_cons, ih, measure_cons]
    dsimp only
    rw [Int.add_right_comm]

end Column

theorem sequenceWidth_append {as bs : List Char} (h : (Column.measure bs).2 = .none) :
    sequenceWidth (as ++ bs) = sequenceWidth as + sequenceWidth bs := by
  rw [sequenceWidth, Column.measure_append h]
  exact Int.toNat_add (Column.measure_nonneg as) (Column.measure_nonneg bs)

end Tabwise.Text
