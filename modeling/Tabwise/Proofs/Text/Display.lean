import Tabwise.Proofs.Text.Segments
import Tabwise.Text.Chars
import Tabwise.Text.Display

/-! # Columns side by side

Where a space takes one column and keeps apart what stands on its sides, a text that is filled up
has the width it is filled up to, as long as no escape sequence takes in the spaces. Where white
space takes nothing back, a text with white space at its end is no narrower than without.
-/

namespace Tabwise.Text

namespace Metrics

/-- What metrics must promise for texts to be filled up and cut short. -/
structure Laws (m : Metrics) : Prop where
  joined : ∀ t, (m.clusters t).flatten = t
  /-- Behind a cut between clusters the ones in front of it are found again. -/
  leading : ∀ t run, run <+: m.clusters t → m.clusters run.flatten = run
  space : ∀ t u, m.clustersWidth (m.clusters (t ++ ' ' :: u)) =
    m.clustersWidth (m.clusters t) + 1 + m.clustersWidth (m.clusters u)
  ellipsis : ∀ t, m.clustersWidth (m.clusters (t ++ [Text.ellipsis])) =
    m.clustersWidth (m.clusters t) + 1
  white : ∀ t c, isWhite c = true →
    m.clustersWidth (m.clusters t) ≤ m.clustersWidth (m.clusters (t ++ [c]))

variable {m : Metrics} {c : Char} {t u : List Char}

theorem Laws.clusters_nil (hm : m.Laws) : m.clusters [] = [] := hm.leading [] [] List.nil_prefix

@[simp] theorem clustersWidth_append (gs hs : List (List Char)) :
    m.clustersWidth (gs ++ hs) = m.clustersWidth gs + m.clustersWidth hs := by
  induction gs with
  | nil => simp [clustersWidth]
  | cons g gs ih => simp [clustersWidth, ih, Nat.add_assoc]

@[simp] theorem segmentsWidth_append (ps qs : List Segment) :
    m.segmentsWidth (ps ++ qs) = m.segmentsWidth ps + m.segmentsWidth qs := by
  induction ps with
  | nil => simp [segmentsWidth]
  | cons p ps ih => simp [segmentsWidth, ih, Nat.add_assoc]

theorem segmentsWidth_flush_visible (hm : m.Laws) (current : List Char) :
    m.segmentsWidth (Segment.flush .visible current) =
      m.clustersWidth (m.clusters current.reverse) := by
  cases current <;>
    simp [Segment.flush, segmentsWidth, segmentWidth, hm.clusters_nil, clustersWidth]

theorem segmentsWidth_flush_of_ne {mode : Segment.Mode} (h : mode ≠ .visible)
    (current : List Char) : m.segmentsWidth (Segment.flush mode current) = 0 := by
  cases mode with
  | visible => exact absurd rfl h
  | _ => cases current <;> rfl

theorem displayWidth_nil : m.displayWidth [] = 0 := rfl

namespace Laws

/-- A space adds a column to what stands on its two sides, if it is not part of a sequence. -/
theorem displayWidth_append_space (hm : m.Laws) (ht : Finished t) (u : List Char) :
    m.displayWidth (t ++ ' ' :: u) = m.displayWidth t + 1 + m.displayWidth u := by
  obtain ⟨ps, last, happend, hlast⟩ := segmentsFrom_append .visible [] t (' ' :: u)
  obtain ⟨seen, rest, rfl, hu⟩ := exists_visible u
  have hspace : segmentsFrom .visible last (' ' :: (seen ++ rest)) =
      segmentsFrom .visible (' ' :: last) (seen ++ rest) := rfl
  rw [ht, hspace, hu] at happend
  rw [ht] at hlast
  have hopen := hu []
  simp only [displayWidth, segments, happend, hlast, hopen, segmentsWidth_append,
    segmentsWidth_flush_visible hm, List.append_nil, List.reverse_append, List.reverse_cons,
    List.reverse_reverse, List.append_assoc, List.singleton_append, hm.space]
  omega

theorem displayWidth_spaces_append (hm : m.Laws) (n : Nat) (u : List Char) :
    m.displayWidth (List.replicate n ' ' ++ u) = n + m.displayWidth u := by
  induction n with
  | zero => simp
  | succ n ih =>
    have hspace := hm.displayWidth_append_space finished_nil (List.replicate n ' ' ++ u)
    rw [List.nil_append, displayWidth_nil, ih] at hspace
    rw [List.replicate_succ, List.cons_append, hspace]
    omega

theorem displayWidth_append_spaces (hm : m.Laws) (ht : Finished t) {n : Nat} (hn : 0 < n)
    (u : List Char) :
    m.displayWidth (t ++ (List.replicate n ' ' ++ u)) =
      m.displayWidth t + n + m.displayWidth u := by
  cases n with
  | zero => exact absurd hn (Nat.lt_irrefl 0)
  | succ n =>
    rw [List.replicate_succ, List.cons_append, hm.displayWidth_append_space ht,
      hm.displayWidth_spaces_append]
    omega

/-- A finished text that is filled up has the width asked for, unless it is wider already. -/
theorem displayWidth_pad (hm : m.Laws) (ht : Finished t) (width : Nat) :
    m.displayWidth (m.pad width t) = max width (m.displayWidth t) := by
  rw [pad]
  by_cases hwide : width ≤ m.displayWidth t
  · rw [Nat.sub_eq_zero_of_le hwide, List.replicate_zero, List.append_nil, Nat.max_eq_right hwide]
  · have hspaces := hm.displayWidth_append_spaces ht (n := width - m.displayWidth t) (by omega) []
    rw [List.append_nil, displayWidth_nil] at hspaces
    rw [hspaces]
    omega

theorem displayWidth_le_concat (hm : m.Laws) (hc : isWhite c = true) (t : List Char) :
    m.displayWidth t ≤ m.displayWidth (t ++ [c]) := by
  obtain ⟨ps, last, happend, hlast⟩ := segmentsFrom_append .visible [] t [c]
  rw [displayWidth, displayWidth, segments, segments, happend, hlast, segmentsWidth_append,
    segmentsWidth_append]
  refine Nat.add_le_add_left ?_ _
  by_cases hmode : Segment.Mode.visible.read t = .visible
  · have hesc : c ≠ esc := by
      rintro rfl
      cases hc
    have hvisible : segmentsFrom .visible last [c] = Segment.flush .visible (c :: last) := by
      rw [segmentsFrom, if_neg hesc, segmentsFrom]
    rw [hmode, hvisible, segmentsWidth_flush_visible hm, segmentsWidth_flush_visible hm,
      List.reverse_cons]
    exact hm.white _ c hc
  · rw [segmentsWidth_flush_of_ne hmode]
    exact Nat.zero_le _

theorem displayWidth_le_append (hm : m.Laws) {blanks : List Char}
    (h : ∀ c ∈ blanks, isWhite c = true) (t : List Char) :
    m.displayWidth t ≤ m.displayWidth (t ++ blanks) := by
  induction blanks generalizing t with
  | nil => rw [List.append_nil]
  | cons c blanks ih =>
    obtain ⟨hc, hblanks⟩ := List.forall_mem_cons.mp h
    have hrest := ih hblanks (t ++ [c])
    rw [List.append_assoc] at hrest
    exact Nat.le_trans (hm.displayWidth_le_concat hc t) hrest

end Laws

end Metrics

end Tabwise.Text
