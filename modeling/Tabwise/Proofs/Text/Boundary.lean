import Tabwise.Text.Bytes

/-! # Cutting at boundaries

A text is cut where a part of it ends: the part is before the cut and the rest behind it. At any
other offset the cut is the last boundary before it.
-/

namespace Tabwise.Text

@[simp] theorem byteLength_reverse (cs : List Char) : byteLength cs.reverse = byteLength cs := by
  induction cs with
  | nil => rfl
  | cons c cs ih =>
    simp [ih]
    omega

theorem byteLength_toList (s : String) : byteLength s.toList = s.utf8ByteSize := by
  induction s using String.push_induction with
  | empty => rfl
  | push s c ih => simp [ih, String.utf8ByteSize_push]

theorem byteLength_pos {cs : List Char} (hne : cs ≠ []) : 0 < byteLength cs := by
  cases cs with
  | nil => cases hne rfl
  | cons c cs => exact Nat.add_pos_left (Char.utf8Size_pos c) _

theorem byteLength_mono {as bs : List Char} (h : as <+: bs) :
    byteLength as ≤ byteLength bs := by
  obtain ⟨cs, rfl⟩ := h
  rw [byteLength_append]
  exact Nat.le_add_right _ _

theorem splitAtByte_byteLength (as bs : List Char) :
    splitAtByte (byteLength as) (as ++ bs) = (as, bs) := by
  induction as with
  | nil =>
    cases bs with
    | nil => rfl
    | cons b bs =>
      have hpos := Char.utf8Size_pos b
      rw [List.nil_append, splitAtByte, byteLength_nil, if_neg (by omega)]
  | cons a as ih =>
    rw [List.cons_append, splitAtByte, byteLength_cons, if_pos (Nat.le_add_right _ _),
      Nat.add_sub_cancel_left, ih]

@[simp] theorem takeBytes_byteLength (as bs : List Char) :
    takeBytes (byteLength as) (as ++ bs) = as := by
  rw [takeBytes, splitAtByte_byteLength]

@[simp] theorem takeBytes_self (cs : List Char) : takeBytes (byteLength cs) cs = cs := by
  simpa using takeBytes_byteLength cs []

@[simp] theorem dropBytes_byteLength (as bs : List Char) :
    dropBytes (byteLength as) (as ++ bs) = bs := by
  rw [dropBytes, splitAtByte_byteLength]

theorem takeBytes_append_dropBytes (n : Nat) (cs : List Char) :
    takeBytes n cs ++ dropBytes n cs = cs := splitAtByte_append n cs

theorem isBoundary_iff {n : Nat} {cs : List Char} :
    isBoundary n cs = true ↔ byteLength (takeBytes n cs) = n := by
  rw [isBoundary, beq_iff_eq]

theorem isBoundary_byteLength (as bs : List Char) : isBoundary (byteLength as) (as ++ bs) = true := by
  rw [isBoundary_iff, takeBytes_byteLength]

theorem slice_append (as bs cs : List Char) :
    slice (byteLength as) (byteLength as + byteLength bs) (as ++ bs ++ cs) = bs := by
  rw [slice, Nat.add_sub_cancel_left, List.append_assoc, dropBytes_byteLength, takeBytes_byteLength]

theorem cutOut?_append (as bs cs : List Char) :
    cutOut? (byteLength as) (byteLength as + byteLength bs) (as ++ bs ++ cs) = some (as, bs, cs) := by
  have hstop : isBoundary (byteLength as + byteLength bs) (as ++ bs ++ cs) = true := by
    rw [← byteLength_append]
    exact isBoundary_byteLength (as ++ bs) cs
  have hdrop : dropBytes (byteLength as + byteLength bs) (as ++ bs ++ cs) = cs := by
    rw [← byteLength_append]
    exact dropBytes_byteLength (as ++ bs) cs
  have hslice := slice_append as bs cs
  rw [List.append_assoc] at hstop hdrop hslice ⊢
  rw [cutOut?, isBoundary_byteLength, hstop, hdrop, hslice, takeBytes_byteLength]
  simp

/-- The longest beginning of a text that has at most so many bytes. -/
structure IsCut (n : Nat) (cs cut : List Char) : Prop where
  begins : cut <+: cs
  fits : byteLength cut ≤ n
  longest : ∀ p, p <+: cs → byteLength p ≤ n → p <+: cut

theorem takeBytes_cons (n : Nat) (c : Char) (cs : List Char) :
    takeBytes n (c :: cs) =
      if c.utf8Size ≤ n then c :: takeBytes (n - c.utf8Size) cs else [] := by
  rw [takeBytes, splitAtByte]
  split <;> rfl

theorem isCut_takeBytes (n : Nat) (cs : List Char) : IsCut n cs (takeBytes n cs) := by
  refine ⟨⟨_, takeBytes_append_dropBytes n cs⟩, byteLength_takeBytes_le n cs, fun p hp hfits => ?_⟩
  induction cs generalizing n p with
  | nil =>
    rw [List.prefix_nil.mp hp]
    exact List.nil_prefix
  | cons c cs ih =>
    cases p with
    | nil => exact List.nil_prefix
    | cons d p =>
      obtain ⟨rfl, hrest⟩ := List.cons_prefix_cons.mp hp
      rw [byteLength_cons] at hfits
      rw [takeBytes_cons, if_pos (by omega), List.cons_prefix_cons]
      exact ⟨rfl, ih _ p hrest (by omega)⟩

theorem prefix_takeBytes {n : Nat} {p cs : List Char} :
    p <+: takeBytes n cs ↔ p <+: cs ∧ byteLength p ≤ n := by
  have hcut := isCut_takeBytes n cs
  refine ⟨fun h => ⟨h.trans hcut.begins, ?_⟩, fun h => hcut.longest p h.1 h.2⟩
  exact Nat.le_trans (byteLength_mono h) hcut.fits

theorem takeBytes_prefix {m n : Nat} (h : m ≤ n) (cs : List Char) :
    takeBytes m cs <+: takeBytes n cs :=
  have hcut := isCut_takeBytes m cs
  (isCut_takeBytes n cs).longest _ hcut.begins (Nat.le_trans hcut.fits h)

theorem takeBytes_byteLength_takeBytes (n : Nat) (cs : List Char) :
    takeBytes (byteLength (takeBytes n cs)) cs = takeBytes n cs := by
  have hcut := takeBytes_byteLength (takeBytes n cs) (dropBytes n cs)
  rwa [takeBytes_append_dropBytes] at hcut

/-- A cut ends at a boundary, and no other boundary lies between it and the offset. -/
theorem isBoundary_cut (n : Nat) (cs : List Char) :
    isBoundary (byteLength (takeBytes n cs)) cs = true ∧
      ∀ m ≤ n, isBoundary m cs = true → m ≤ byteLength (takeBytes n cs) := by
  refine ⟨isBoundary_iff.mpr (by rw [takeBytes_byteLength_takeBytes]), fun m hm hboundary => ?_⟩
  have hlength := isBoundary_iff.mp hboundary
  rw [← hlength] at hm ⊢
  exact byteLength_mono
    ((isCut_takeBytes n cs).longest _ ⟨_, takeBytes_append_dropBytes m cs⟩ hm)

theorem IsCut.takeBytes_eq {n : Nat} {cs cut : List Char} (h : IsCut n cs cut) :
    takeBytes n cs = cut := by
  have htake := isCut_takeBytes n cs
  have hshorter := h.longest _ htake.begins htake.fits
  exact hshorter.eq_of_length_le (htake.longest cut h.begins h.fits).length_le

end Tabwise.Text
