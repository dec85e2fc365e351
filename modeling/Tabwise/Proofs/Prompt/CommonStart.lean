import Tabwise.Proofs.Text.Boundary
import Tabwise.Quoting

/-! # The common start of all matches

Matches are compared character by character, and the first one is cut at a byte offset. The offset
is always a boundary, and the cut is the longest text that all matches begin with, so neither their
order nor how often each is given matters.
-/

namespace Tabwise
open Text

variable {matched rest : List String} {p s t : List Char} {c : Char} {n start : Nat}

theorem sharedBytes_cons_cons (a b : Char) (as bs : List Char) :
    sharedBytes (a :: as) (b :: bs) = if a = b then a.utf8Size + sharedBytes as bs else 0 := by
  by_cases h : a = b
  · subst h
    rw [if_pos rfl, sharedBytes, sharedBytes, difference?, if_pos rfl, byteLength_cons,
      byteLength_cons, Nat.add_min_add_left]
    cases difference? as bs <;> rfl
  · simp [sharedBytes, difference?, h]

theorem sharedBytes_nil (s : List Char) : sharedBytes s [] = 0 := by
  cases s <;> simp [sharedBytes, difference?]

/-- A text begins with those of its beginnings that another text begins with as well up to the
offset that the two share. -/
theorem byteLength_le_sharedBytes (h : p <+: s) : byteLength p ≤ sharedBytes s t ↔ p <+: t := by
  induction s generalizing p t with
  | nil => simp [List.prefix_nil.mp h]
  | cons a as ih =>
    cases p with
    | nil => simp
    | cons x p =>
      obtain ⟨rfl, hp⟩ := List.cons_prefix_cons.mp h
      have hpos := Char.utf8Size_pos x
      cases t with
      | nil =>
        rw [sharedBytes_nil, byteLength_cons, List.prefix_nil]
        exact iff_of_false (by omega) (List.cons_ne_nil x p)
      | cons b bs =>
        rw [sharedBytes_cons_cons, byteLength_cons, List.cons_prefix_cons]
        by_cases hb : x = b
        · rw [if_pos hb, Nat.add_le_add_iff_left, ih hp]
          exact (and_iff_right hb).symm
        · rw [if_neg hb]
          exact iff_of_false (by omega) fun hboth => hb hboth.1

theorem isBoundary_sharedBytes (s t : List Char) : isBoundary (sharedBytes s t) s = true := by
  suffices h : ∃ p q, s = p ++ q ∧ sharedBytes s t = byteLength p by
    obtain ⟨p, q, hs, hp⟩ := h
    rw [hp, hs]
    exact isBoundary_byteLength p q
  induction s generalizing t with
  | nil => exact ⟨[], [], rfl, by simp [sharedBytes, difference?]⟩
  | cons a as ih =>
    cases t with
    | nil => exact ⟨[], a :: as, rfl, sharedBytes_nil _⟩
    | cons b bs =>
      rw [sharedBytes_cons_cons]
      split
      · obtain ⟨p, q, has, hp⟩ := ih bs
        exact ⟨a :: p, q, by rw [has, List.cons_append], by rw [hp, byteLength_cons]⟩
      · exact ⟨[], a :: as, rfl, rfl⟩

theorem le_commonBytes :
    n ≤ commonBytes s rest ↔ n ≤ byteLength s ∧ ∀ t ∈ rest, n ≤ sharedBytes s t.toList := by
  unfold commonBytes
  generalize byteLength s = start
  induction rest generalizing start with
  | nil => simp
  | cons t rest ih => rw [List.foldl_cons, ih, Nat.le_min, List.forall_mem_cons, and_assoc]

theorem isBoundary_commonBytes (s : List Char) (rest : List String) :
    isBoundary (commonBytes s rest) s = true := by
  have hstart : isBoundary (byteLength s) s = true := by
    simpa using isBoundary_byteLength s []
  unfold commonBytes
  generalize byteLength s = start at hstart
  induction rest generalizing start with
  | nil => exact hstart
  | cons t rest ih =>
    -- the smaller one of two boundaries is one of them
    refine ih _ ?_
    dsimp only
    rw [Nat.min_def]
    split
    · exact hstart
    · exact isBoundary_sharedBytes s t.toList

/-- The common start is what all matches begin with and begins with all that they begin with. -/
theorem prefix_commonStart (hne : matched ≠ []) :
    p <+: (commonStart matched).toList ↔ ∀ m ∈ matched, p <+: m.toList := by
  cases matched with
  | nil => cases hne rfl
  | cons m rest =>
    rw [commonStart, String.toList_ofList, prefix_takeBytes, le_commonBytes, List.forall_mem_cons]
    refine and_congr_right fun hp => ?_
    rw [and_iff_right (byteLength_mono hp)]
    exact forall₂_congr fun t _ => byteLength_le_sharedBytes hp

theorem mem_of_mem_commonStart (hc : c ∈ (commonStart matched).toList) :
    ∃ m ∈ matched, c ∈ m.toList := by
  cases matched with
  | nil => simp [commonStart] at hc
  | cons m rest =>
    have hprefix := (prefix_commonStart (List.cons_ne_nil m rest)).mp List.prefix_rfl m
      (List.mem_cons_self ..)
    exact ⟨m, List.mem_cons_self .., hprefix.subset hc⟩

@[simp] theorem commonStart_singleton (m : String) : commonStart [m] = m := by
  simp [commonStart, commonBytes]

/-- The longest text that all of a list begin with. -/
structure IsCommonStart (matched : List String) (start : String) : Prop where
  begins : ∀ m ∈ matched, start.toList <+: m.toList
  boundary : ∀ m ∈ matched, isBoundary (byteLength start.toList) m.toList = true
  longest : ∀ p : String, (∀ m ∈ matched, p.toList <+: m.toList) → p.toList <+: start.toList

theorem isCommonStart_commonStart (hne : matched ≠ []) :
    IsCommonStart matched (commonStart matched) where
  begins := (prefix_commonStart hne).mp List.prefix_rfl
  boundary m hm := by
    obtain ⟨after, hafter⟩ := (prefix_commonStart hne).mp List.prefix_rfl m hm
    rw [← hafter]
    exact isBoundary_byteLength _ after
  longest _ := (prefix_commonStart hne).mpr

theorem IsCommonStart.eq {start start' : String} (h : IsCommonStart matched start)
    (h' : IsCommonStart matched start') : start = start' := by
  have hshorter := h'.longest start h.begins
  have hlonger := h.longest start' h'.begins
  exact String.toList_injective (hshorter.eq_of_length_le hlonger.length_le)

theorem IsCommonStart.of_same {matched' : List String} {start : String}
    (h : IsCommonStart matched start) (hsame : ∀ m, m ∈ matched ↔ m ∈ matched') :
    IsCommonStart matched' start where
  begins m hm := h.begins m ((hsame m).mpr hm)
  boundary m hm := h.boundary m ((hsame m).mpr hm)
  longest p hp := h.longest p fun m hm => hp m ((hsame m).mp hm)

/-- The first match is cut at a boundary, and the cut is the longest text that all matches begin
with. Matches in another order, or given more often, have the same one. -/
theorem commonStart_greatest (m : String) (rest : List String) :
    isBoundary (commonBytes m.toList rest) m.toList = true ∧
    IsCommonStart (m :: rest) (commonStart (m :: rest)) ∧
    ∀ matched, (∀ t, t ∈ matched ↔ t ∈ m :: rest) →
      commonStart matched = commonStart (m :: rest) := by
  have hstart := isCommonStart_commonStart (List.cons_ne_nil m rest)
  refine ⟨isBoundary_commonBytes m.toList rest, hstart, fun matched hsame => ?_⟩
  have hne : matched ≠ [] := List.ne_nil_of_mem ((hsame m).mpr List.mem_cons_self)
  exact ((isCommonStart_commonStart hne).of_same hsame).eq hstart

/-- Two of the three characters are shared, of three bytes each. -/
theorem commonStart_greatest_wide :
    commonBytes "日本語".toList ["日本"] = 6 ∧ isBoundary 6 "日本語".toList = true ∧
    IsCommonStart ["日本語", "日本"] "日本" ∧
    commonStart ["日本", "日本語", "日本"] = "日本" := by
  have hbytes : commonBytes "日本語".toList ["日本"] = 6 := rfl
  have hstart : commonStart ["日本語", "日本"] = "日本" := by decide
  obtain ⟨hboundary, hcommon, hsame⟩ := commonStart_greatest "日本語" ["日本"]
  rw [hbytes] at hboundary
  rw [hstart] at hcommon hsame
  exact ⟨hbytes, hboundary, hcommon, hsame _ (by simp [or_comm])⟩

end Tabwise
