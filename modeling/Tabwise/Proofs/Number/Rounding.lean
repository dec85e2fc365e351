import Mathlib.Algebra.Order.Group.Nat
import Mathlib.Data.Nat.Log
import Tabwise.Number.Decimal

/-! # Rounding whole numbers

Rounding never puts two whole numbers in the wrong order, and up to `2 ^ 53` it keeps them apart,
for each of them is exact. Above, numbers may share an encoding if they differ by one part in
`2 ^ 52` at most. The encoding is finite up to half a step above the largest finite number.
-/

namespace Tabwise.Number

variable {m n k : Nat}

theorem div_le_roundQuotient (num den : Nat) : num / den ≤ roundQuotient num den := by
  unfold roundQuotient
  grind

theorem roundQuotient_le (num den : Nat) : roundQuotient num den ≤ num / den + 1 := by
  unfold roundQuotient
  grind

/-- Of two quotients with one whole part the larger has the larger remainder, and only the
remainder decides whether a quotient is rounded up. -/
theorem roundQuotient_mono (den : Nat) (h : m ≤ n) : roundQuotient m den ≤ roundQuotient n den := by
  rcases (Nat.div_le_div_right (c := den) h).lt_or_eq with hquot | hquot
  · calc roundQuotient m den ≤ m / den + 1 := roundQuotient_le m den
      _ ≤ n / den := hquot
      _ ≤ roundQuotient n den := div_le_roundQuotient n den
  · have hrem : m % den ≤ n % den := by
      have hm := Nat.div_add_mod m den
      have hn := Nat.div_add_mod n den
      rw [hquot] at hm
      omega
    unfold roundQuotient
    rw [hquot]
    grind

theorem roundQuotient_mul_self (n : Nat) {den : Nat} (hden : 0 < den) :
    roundQuotient (n * den) den = n := by
  simp [roundQuotient, Nat.mul_div_cancel _ hden, hden]

theorem roundQuotient_near (num : Nat) {den : Nat} (hden : 0 < den) :
    2 * num ≤ 2 * (roundQuotient num den * den) + den ∧
      2 * (roundQuotient num den * den) ≤ 2 * num + den := by
  have hsplit : num / den * den + num % den = num := Nat.div_add_mod' num den
  have hnext : (num / den + 1) * den = num / den * den + den := Nat.succ_mul _ _
  have hrem := Nat.mod_lt num hden
  unfold roundQuotient
  grind

theorem roundQuotient_shiftLeft (num den k : Nat) :
    roundQuotient (num <<< k) (den <<< k) = roundQuotient num den := by
  have hk : 0 < 2 ^ k := Nat.two_pow_pos k
  have htwice : 2 * (num % den * 2 ^ k) = 2 * (num % den) * 2 ^ k := (Nat.mul_assoc ..).symm
  unfold roundQuotient
  rw [Nat.shiftLeft_eq, Nat.shiftLeft_eq, Nat.mul_div_mul_right _ _ hk, Nat.mul_mod_mul_right,
    htwice]
  simp only [Nat.mul_lt_mul_right hk]

/-- The significand of a whole number: 53 bits, or `2 ^ 53` where it is rounded up to the next
power of two. -/
def significand (n : Nat) : Nat := roundQuotient (n <<< 52) (1 <<< n.log2)

theorem le_significand (hn : n ≠ 0) : 2 ^ 52 ≤ significand n := by
  have hlow : 2 ^ 52 * 2 ^ n.log2 ≤ n * 2 ^ 52 := by
    rw [Nat.mul_comm]
    exact Nat.mul_le_mul_right _ (Nat.log2_self_le hn)
  rw [significand, Nat.shiftLeft_eq, Nat.one_shiftLeft]
  calc 2 ^ 52 ≤ n * 2 ^ 52 / 2 ^ n.log2 := (Nat.le_div_iff_mul_le (Nat.two_pow_pos _)).mpr hlow
    _ ≤ roundQuotient (n * 2 ^ 52) (2 ^ n.log2) := div_le_roundQuotient _ _

theorem significand_le (n : Nat) : significand n ≤ 2 ^ 53 := by
  have hhigh : n * 2 ^ 52 < 2 ^ 53 * 2 ^ n.log2 := by
    have hlog : n < 2 ^ n.log2 * 2 := Nat.lt_log2_self
    omega
  rw [significand, Nat.shiftLeft_eq, Nat.one_shiftLeft]
  calc roundQuotient (n * 2 ^ 52) (2 ^ n.log2)
    _ ≤ n * 2 ^ 52 / 2 ^ n.log2 + 1 := roundQuotient_le _ _
    _ ≤ 2 ^ 53 := (Nat.div_lt_iff_lt_mul (Nat.two_pow_pos _)).mpr hhigh

theorem significand_mono (hlog : m.log2 = n.log2) (h : m ≤ n) : significand m ≤ significand n := by
  rw [significand, significand, hlog, Nat.shiftLeft_eq m, Nat.shiftLeft_eq n]
  exact roundQuotient_mono _ (Nat.mul_le_mul_right _ h)

theorem significand_near (n : Nat) :
    2 * (n * 2 ^ 52) ≤ 2 * (significand n * 2 ^ n.log2) + 2 ^ n.log2 ∧
      2 * (significand n * 2 ^ n.log2) ≤ 2 * (n * 2 ^ 52) + 2 ^ n.log2 := by
  rw [significand, Nat.shiftLeft_eq n, Nat.one_shiftLeft]
  exact roundQuotient_near _ (Nat.two_pow_pos _)

/-- A number of at most 53 bits is its significand without zeros at the end. -/
theorem significand_exact (h : n.log2 ≤ 52) : significand n = n * 2 ^ (52 - n.log2) := by
  have hsplit : n * 2 ^ 52 = n * 2 ^ (52 - n.log2) * 2 ^ n.log2 := by
    rw [Nat.mul_assoc, Nat.pow_sub_mul_pow 2 h]
  rw [significand, Nat.shiftLeft_eq, Nat.one_shiftLeft, hsplit,
    roundQuotient_mul_self _ (Nat.two_pow_pos _)]

theorem significand_lt (h : n.log2 ≤ 52) : significand n < 2 ^ 53 := by
  have hlog : n < 2 ^ (n.log2 + 1) := Nat.lt_log2_self
  calc significand n = n * 2 ^ (52 - n.log2) := significand_exact h
    _ < 2 ^ (n.log2 + 1) * 2 ^ (52 - n.log2) :=
      (Nat.mul_lt_mul_right (Nat.two_pow_pos _)).mpr hlog
    _ = 2 ^ 53 := by
      rw [← Nat.pow_add]
      congr 1
      omega

theorem log2_mono (hm : m ≠ 0) (h : m ≤ n) : m.log2 ≤ n.log2 :=
  (Nat.le_log2 (by omega)).mpr ((Nat.log2_self_le hm).trans h)

theorem log2_shiftLeft (hn : n ≠ 0) (k : Nat) : (n <<< k).log2 = n.log2 + k := by
  induction k generalizing n with
  | zero => rfl
  | succ k ih =>
    rw [Nat.shiftLeft_succ_inside, ih (by omega), Nat.log2_two_mul hn]
    omega

theorem nearest_zero : nearest 0 1 = 0 := by decide

theorem nearest_of_ne_zero (hn : n ≠ 0) :
    nearest n 1 = (n.log2 + 1022) * 2 ^ 52 + significand n := by
  have hshift : (n <<< 1074).log2 - 52 = n.log2 + 1022 := by
    rw [log2_shiftLeft hn]
    omega
  have hround : roundQuotient (n <<< 1074) (1 <<< (n.log2 + 1022)) = significand n := by
    rw [Nat.shiftLeft_add, show n <<< 1074 = n <<< 52 <<< 1022 from Nat.shiftLeft_add n 52 1022,
      roundQuotient_shiftLeft, significand]
  simp only [nearest, Nat.div_one, hshift, hround]
  rw [Nat.shiftLeft_eq]

/-- Numbers of one length have the order of their significands. A longer number is above all
shorter ones: the significand of a shorter one ends where its own starts. -/
theorem nearest_mono (h : m ≤ n) : nearest m 1 ≤ nearest n 1 := by
  rcases Nat.eq_zero_or_pos m with rfl | hm
  · rw [nearest_zero]
    exact Nat.zero_le _
  · have hm : m ≠ 0 := by omega
    have hn : n ≠ 0 := by omega
    -- significands of one length are in order, those of two lengths meet at a power of two
    rw [nearest_of_ne_zero hm, nearest_of_ne_zero hn]
    rcases (log2_mono hm h).lt_or_eq with hlog | hlog
    · have hlow := significand_le m
      have hhigh := le_significand hn
      omega
    · have hmono := significand_mono hlog h
      omega

/-- Up to `2 ^ 53` the next number has another encoding. -/
theorem nearest_lt_succ (h : m < 2 ^ 53) : nearest m 1 < nearest (m + 1) 1 := by
  rcases Nat.eq_zero_or_pos m with rfl | hm
  · decide +kernel
  · have hm : m ≠ 0 := by omega
    have hexact : m.log2 ≤ 52 := Nat.le_of_lt_succ ((Nat.log2_lt hm).mpr h)
    rw [nearest_of_ne_zero hm, nearest_of_ne_zero (by omega)]
    rcases (log2_mono hm (Nat.le_add_right m 1)).lt_or_eq with hlog | hlog
    · have hlow := significand_lt hexact
      have hhigh := le_significand (n := m + 1) (by omega)
      omega
    · have hstep : 0 < 2 ^ (52 - m.log2) := Nat.two_pow_pos _
      rw [significand_exact hexact, significand_exact (hlog ▸ hexact), ← hlog, Nat.succ_mul m]
      omega

/-- Numbers that share an encoding differ by one part in `2 ^ 52` at most. -/
theorem near_of_nearest_eq (hm : m ≠ 0) (h : m ≤ n) (heq : nearest m 1 = nearest n 1) :
    2 ^ 52 * (n - m) ≤ n := by
  have hn : n ≠ 0 := by omega
  have hpower := Nat.log2_self_le hn
  obtain ⟨-, habove⟩ := significand_near m
  obtain ⟨hbelow, -⟩ := significand_near n
  rw [nearest_of_ne_zero hm, nearest_of_ne_zero hn] at heq
  rcases (log2_mono hm h).lt_or_eq with hlog | hlog
  · -- the shorter one was rounded up to a power of two, and the longer one down to the same one
    have hle := significand_le m
    have hge := le_significand hn
    have hnext : n.log2 = m.log2 + 1 := by omega
    have hup : significand m = 2 ^ 53 := by omega
    have hdown : significand n = 2 ^ 52 := by omega
    rw [hup] at habove
    rw [hdown] at hbelow
    rw [hnext, Nat.pow_succ] at hbelow hpower
    omega
  · have hsame : significand m = significand n := by omega
    rw [hsame, hlog] at habove
    omega

/-- Different numbers share an encoding only from `2 ^ 53` on, and only if they are near. -/
theorem nearest_lt_or_eq (h : m < n) : nearest m 1 < nearest n 1 ∨
    nearest m 1 = nearest n 1 ∧ 2 ^ 53 ≤ m ∧ 2 ^ 52 * (n - m) ≤ n := by
  by_cases hm : m < 2 ^ 53
  · exact .inl ((nearest_lt_succ hm).trans_le (nearest_mono h))
  · rcases (nearest_mono h.le).lt_or_eq with hlt | heq
    · exact .inl hlt
    · have hnear := near_of_nearest_eq (by omega) h.le heq
      exact .inr ⟨heq, Nat.not_lt.mp hm, hnear⟩

/-- The least number that is not finite once it is rounded: it is as near to `2 ^ 1024` as to the
largest finite number, and the tie goes to the even one. -/
def overflow : Nat := 1 <<< 1024 - 1 <<< 970

theorem nearest_lt_infinity : nearest n 1 < infinity ↔ n < overflow := by
  have hbelow : nearest (overflow - 1) 1 < infinity := by decide +kernel
  have habove : infinity ≤ nearest overflow 1 := by decide +kernel
  refine ⟨fun h => ?_, fun h => ?_⟩
  · by_contra hn
    exact absurd (habove.trans (nearest_mono (Nat.not_lt.mp hn))) (Nat.not_le.mpr h)
  · exact (nearest_mono (Nat.le_sub_one_of_lt h)).trans_lt hbelow

end Tabwise.Number
