import Tabwise.Proofs.Text.Unicode

/-! # Texts cut short

A text that is too wide is cut between two clusters, in one of its visible pieces. What is left of
that piece, the ellipsis and the escape sequences of the whole text are again the segments of a
text, so the result can be measured from them.
-/

namespace Tabwise.Text

variable {m : Metrics} {cs t : List Char} {gs run : List (List Char)} {ps : List Segment}
  {room width : Nat}

def Segment.isEscape : Segment → Bool
  | .visible _ => false
  | .escape _ => true

@[simp] theorem Segment.isEscape_visible (t : List Char) : (visible t).isEscape = false := rfl

@[simp] theorem Segment.isEscape_escape (t : List Char) : (escape t).isEscape = true := rfl

def Segment.shown : Segment → List Char
  | .visible t => t
  | .escape _ => []

def escapes (cs : List Char) : List Segment := (segments cs).filter Segment.isEscape

def visibleText (cs : List Char) : List Char := (segments cs).flatMap Segment.shown

theorem Segmented.filter (h : Segmented ps) : Segmented (ps.filter Segment.isEscape) := by
  induction h with
  | nil => exact .nil
  | visible hne ht hnext hps ih => exact ih
  | escape hbody hps ih => exact .escape hbody ih
  | unfinished hbody => exact .unfinished hbody

theorem head_filter_ne (ps : List Segment) (u : List Char) :
    (ps.filter Segment.isEscape).head? ≠ some (.visible u) := by
  intro hhead
  have hmem := List.mem_filter.mp (List.mem_of_head? hhead)
  exact Bool.false_ne_true hmem.2

theorem flatMap_shown_filter (ps : List Segment) :
    (ps.filter Segment.isEscape).flatMap Segment.shown = [] := by
  induction ps with
  | nil => rfl
  | cons p ps ih => cases p <;> simpa [List.filter_cons, Segment.shown] using ih

namespace Metrics

def segmentClusters (m : Metrics) : Segment → List (List Char)
  | .visible t => m.clusters t
  | .escape _ => []

def visibleClusters (m : Metrics) (cs : List Char) : List (List Char) :=
  (segments cs).flatMap m.segmentClusters

/-- The longest run of clusters from the first one that takes no more than the room. -/
structure LongestRun (m : Metrics) (room : Nat) (gs run : List (List Char)) : Prop where
  isPrefix : run <+: gs
  fits : m.clustersWidth run ≤ room
  longest : ∀ other, other <+: gs → m.clustersWidth other ≤ room → other <+: run

theorem fitClusters_of_le (h : m.clustersWidth gs ≤ room) :
    m.fitClusters room gs = (gs, false) := by
  induction gs generalizing room with
  | nil => rfl
  | cons g gs ih =>
    rw [clustersWidth] at h
    rw [fitClusters, if_pos (by omega), ih (by omega)]

theorem fitClusters_cut (h : room < m.clustersWidth gs) : (m.fitClusters room gs).2 = true := by
  induction gs generalizing room with
  | nil => exact absurd h (Nat.not_lt_zero _)
  | cons g gs ih =>
    rw [clustersWidth] at h
    rw [fitClusters]
    split
    · exact ih (by omega)
    · rfl

theorem fitClusters_longest (m : Metrics) (room : Nat) (gs : List (List Char)) :
    m.LongestRun room gs (m.fitClusters room gs).1 := by
  induction gs generalizing room with
  | nil => exact ⟨List.prefix_rfl, Nat.zero_le _, fun other hother _ => hother⟩
  | cons g gs ih =>
    rw [fitClusters]
    split
    · next hg =>
      have hgs := ih (room - m.clusterWidth g)
      refine ⟨List.cons_prefix_cons.mpr ⟨rfl, hgs.isPrefix⟩, ?_, fun other hother hfits => ?_⟩
      · have hrun := hgs.fits
        simp only [clustersWidth]
        omega
      · -- any other run takes the first cluster as well, and has as much room left for the rest
        obtain rfl | ⟨other, rfl, hrest⟩ := List.prefix_cons_iff.mp hother
        · exact List.nil_prefix
        · rw [clustersWidth] at hfits
          exact List.cons_prefix_cons.mpr ⟨rfl, hgs.longest other hrest (by omega)⟩
    · next hg =>
      refine ⟨List.nil_prefix, Nat.zero_le _, fun other hother hfits => ?_⟩
      obtain rfl | ⟨other, rfl, -⟩ := List.prefix_cons_iff.mp hother
      · exact List.nil_prefix
      · rw [clustersWidth] at hfits
        omega

theorem fitClusters_append_of_le (h : m.clustersWidth gs ≤ room) (hs : List (List Char)) :
    (m.fitClusters room (gs ++ hs)).1 =
      gs ++ (m.fitClusters (room - m.clustersWidth gs) hs).1 := by
  induction gs generalizing room with
  | nil => rfl
  | cons g gs ih =>
    rw [clustersWidth] at h
    have hroom : m.clustersWidth gs ≤ room - m.clusterWidth g := by omega
    have hrest := ih hroom
    rw [List.cons_append, fitClusters, if_pos (by omega), clustersWidth, Nat.sub_add_eq]
    exact congrArg (g :: ·) hrest

theorem fitClusters_append_of_lt (h : room < m.clustersWidth gs) (hs : List (List Char)) :
    m.fitClusters room (gs ++ hs) = m.fitClusters room gs := by
  induction gs generalizing room with
  | nil => exact absurd h (Nat.not_lt_zero _)
  | cons g gs ih =>
    rw [clustersWidth] at h
    rw [List.cons_append, fitClusters, fitClusters]
    split
    · rw [ih (by omega)]
    · rfl

/-- The segments that are left when a text is cut. -/
def fitted (m : Metrics) (room : Nat) : List Segment → List Segment
  | [] => []
  | .escape t :: rest => .escape t :: fitted m room rest
  | .visible t :: rest =>
    if m.clustersWidth (m.clusters t) ≤ room then
      .visible t :: fitted m (room - m.clustersWidth (m.clusters t)) rest
    else .visible ((m.fitClusters room (m.clusters t)).1.flatten ++ [ellipsis]) ::
      rest.filter Segment.isEscape

theorem filter_fitted (room : Nat) (ps : List Segment) :
    (m.fitted room ps).filter Segment.isEscape = ps.filter Segment.isEscape := by
  fun_induction fitted m room ps with
  | case1 => rfl
  | case2 room t rest ih => simp [List.filter_cons, ih]
  | case3 room t rest hfits ih => simpa using ih
  | case4 room t rest hfits => simp

theorem head_fitted_ne (h : ∀ u, ps.head? ≠ some (.visible u)) (room : Nat) (u : List Char) :
    (m.fitted room ps).head? ≠ some (.visible u) := by
  cases ps with
  | nil => simp [fitted]
  | cons p ps =>
    cases p with
    | visible t => exact absurd rfl (h t)
    | escape t => simp [fitted]

theorem segmentsWidth_filter (ps : List Segment) :
    m.segmentsWidth (ps.filter Segment.isEscape) = 0 := by
  induction ps with
  | nil => rfl
  | cons p ps ih =>
    cases p <;> simpa [List.filter_cons, segmentsWidth, segmentWidth] using ih

namespace Laws

/-- An ellipsis behind some of the clusters of a text takes one column. -/
theorem clustersWidth_append_ellipsis (hm : m.Laws) (h : run <+: m.clusters t) :
    m.clustersWidth (m.clusters (run.flatten ++ [Text.ellipsis])) = m.clustersWidth run + 1 := by
  rw [hm.ellipsis, hm.leading t run h]

theorem flatMap_fitted (hm : m.Laws) (room : Nat) (ps : List Segment) :
    (m.fitted room ps).flatMap Segment.text = m.fitSegments room ps := by
  fun_induction fitted m room ps with
  | case1 => rfl
  | case2 room t rest ih => rw [fitSegments, List.flatMap_cons, ih, Segment.text]
  | case3 room t rest hfits ih =>
    rw [fitSegments, fitClusters_of_le hfits, List.flatMap_cons, ih]
    simp [Segment.text, hm.joined]
  | case4 room t rest hfits =>
    have hcut := fitClusters_cut (Nat.lt_of_not_le hfits)
    rw [fitSegments, List.flatMap_cons]
    simp only [Segment.text, hcut, if_true, List.append_assoc, List.singleton_append]
    congr 2
    induction rest with
    | nil => rfl
    | cons p rest ih => cases p <;> simp [List.filter_cons, Segment.text, ih]

theorem segmented_fitted (hm : m.Laws) (h : Segmented ps) (room : Nat) :
    Segmented (m.fitted room ps) := by
  induction h generalizing room with
  | nil => exact .nil
  | @visible t ps hne ht hnext hps ih =>
    rw [fitted]
    split
    · exact .visible hne ht (head_fitted_ne hnext _) (ih _)
    · refine .visible (List.concat_ne_nil _ _) (fun hmem => ?_) (head_filter_ne ps) hps.filter
      rcases List.mem_append.mp hmem with hkept | hmem
      · obtain ⟨g, hg, hchar⟩ := List.mem_flatten.mp hkept
        have hmem := (fitClusters_longest m room (m.clusters t)).isPrefix.subset hg
        refine ht ?_
        rw [← hm.joined t]
        exact List.mem_flatten_of_mem hmem hchar
      · exact absurd (List.mem_singleton.mp hmem) (by decide)
  | escape hbody hps ih => exact .escape hbody (ih room)
  | unfinished hbody => exact .unfinished hbody

theorem shown_fitted (hm : m.Laws) (h : room < m.segmentsWidth ps) :
    (m.fitted room ps).flatMap Segment.shown =
      (m.fitClusters room (ps.flatMap m.segmentClusters)).1.flatten ++ [Text.ellipsis] := by
  fun_induction fitted m room ps with
  | case1 => exact absurd h (Nat.not_lt_zero _)
  | case2 room t rest ih =>
    rw [segmentsWidth, segmentWidth, Nat.zero_add] at h
    simpa [Segment.shown, segmentClusters] using ih h
  | case3 room t rest hfits ih =>
    rw [segmentsWidth, segmentWidth] at h
    rw [List.flatMap_cons, List.flatMap_cons, ih (by omega), segmentClusters,
      fitClusters_append_of_le hfits]
    simp [Segment.shown, hm.joined]
  | case4 room t rest hfits =>
    rw [List.flatMap_cons, List.flatMap_cons, segmentClusters, flatMap_shown_filter,
      fitClusters_append_of_lt (Nat.lt_of_not_le hfits)]
    simp [Segment.shown]

theorem width_fitted (hm : m.Laws) (h : room < m.segmentsWidth ps) :
    m.segmentsWidth (m.fitted room ps) =
      m.clustersWidth (m.fitClusters room (ps.flatMap m.segmentClusters)).1 + 1 := by
  fun_induction fitted m room ps with
  | case1 => exact absurd h (Nat.not_lt_zero _)
  | case2 room t rest ih =>
    rw [segmentsWidth, segmentWidth, Nat.zero_add] at h
    simpa [segmentsWidth, segmentWidth, segmentClusters] using ih h
  | case3 room t rest hfits ih =>
    rw [segmentsWidth, segmentWidth] at h
    rw [segmentsWidth, segmentWidth, List.flatMap_cons, ih (by omega), segmentClusters,
      fitClusters_append_of_le hfits, clustersWidth_append, Nat.add_assoc]
  | case4 room t rest hfits =>
    have hprefix := (fitClusters_longest m room (m.clusters t)).isPrefix
    rw [segmentsWidth, segmentWidth, List.flatMap_cons, segmentClusters, segmentsWidth_filter,
      fitClusters_append_of_lt (Nat.lt_of_not_le hfits), hm.clustersWidth_append_ellipsis hprefix,
      Nat.add_zero]

theorem segments_truncate (hm : m.Laws) (hwide : width < m.displayWidth cs) (hwidth : 1 ≤ width) :
    segments (m.truncate width cs) = m.fitted (width - 1) (segments cs) := by
  rw [truncate, if_neg (by omega), if_neg (by omega), ← hm.flatMap_fitted]
  exact (hm.segmented_fitted (segmented_segments cs) _).segments_eq

/-- A text that is cut takes no more than the columns it is cut to. -/
theorem displayWidth_truncate_le (hm : m.Laws) (width : Nat) (cs : List Char) :
    m.displayWidth (m.truncate width cs) ≤ width := by
  by_cases hwide : width < m.displayWidth cs
  · by_cases hwidth : 1 ≤ width
    · have hcut : width - 1 < m.segmentsWidth (segments cs) :=
        Nat.lt_of_le_of_lt (Nat.sub_le width 1) hwide
      have hrun := (fitClusters_longest m (width - 1) (m.visibleClusters cs)).fits
      rw [visibleClusters] at hrun
      rw [displayWidth, hm.segments_truncate hwide hwidth, hm.width_fitted hcut]
      omega
    · rw [truncate, if_neg (by omega), if_pos (by omega)]
      exact Nat.zero_le _
  · rw [truncate, if_pos (by omega)]
    omega

end Laws

/-- What a text is cut to. -/
structure Truncates (m : Metrics) (width : Nat) (cs out : List Char) : Prop where
  fits : m.displayWidth out ≤ width
  unchanged : m.displayWidth cs ≤ width → out = cs
  escapes : width < m.displayWidth cs → 1 ≤ width → escapes out = escapes cs
  visible : width < m.displayWidth cs → 1 ≤ width → ∃ run,
    m.LongestRun (width - 1) (m.visibleClusters cs) run ∧
      visibleText out = run.flatten ++ [ellipsis]

theorem Laws.truncates (hm : m.Laws) (width : Nat) (cs : List Char) :
    m.Truncates width cs (m.truncate width cs) where
  fits := hm.displayWidth_truncate_le width cs
  unchanged hfits := by rw [truncate, if_pos hfits]
  escapes hwide hwidth := by
    rw [Text.escapes, Text.escapes, hm.segments_truncate hwide hwidth, filter_fitted]
  visible hwide hwidth := by
    have hcut : width - 1 < m.segmentsWidth (segments cs) :=
      Nat.lt_of_le_of_lt (Nat.sub_le width 1) hwide
    refine ⟨_, fitClusters_longest m (width - 1) (m.visibleClusters cs), ?_⟩
    rw [visibleText, hm.segments_truncate hwide hwidth, hm.shown_fitted hcut, visibleClusters]

end Metrics

/-- A text is cut to whole clusters, as many as fit before an ellipsis, and keeps its styling. -/
theorem truncates_truncate (width : Nat) (cs : List Char) :
    unicode.Truncates width cs (truncate width cs) := unicode_laws.truncates width cs

example : truncate 4 "\x1b[1mbold text\x1b[0m".toList = "\x1b[1mbol…\x1b[0m".toList := by
  decide +kernel

end Tabwise.Text
