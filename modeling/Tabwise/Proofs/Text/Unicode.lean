import Tabwise.Proofs.Text.Clusters
import Tabwise.Proofs.Text.Columns
import Tabwise.Proofs.Text.Display

/-! # The metrics of the Unicode tables

A space and an ellipsis stand between the clusters on their sides, or join with the marks of the
last one and the first one; their columns are their own in both cases. So the tables promise what
filling up and cutting short relies on.
-/

namespace Tabwise.Text

open Cluster

variable {c : Char} {as bs cs t u : List Char} {k : Nat}

@[simp] theorem unicode_clusterWidth : unicode.clusterWidth = clusterWidth := rfl

@[simp] theorem clusterWidth_nil : clusterWidth [] = 0 := rfl

@[simp] theorem clustersWidth_piece (cs : List Char) :
    unicode.clustersWidth (piece cs) = clusterWidth cs := by
  unfold piece
  split
  · next hnil => simp [hnil, Metrics.clustersWidth]
  · simp [Metrics.clustersWidth]

theorem clusterWidth_of_reaches (h : Reaches cs) : clusterWidth cs = sequenceWidth cs := by
  obtain rfl | ⟨c, hc, hhigh⟩ := h
  · rfl
  · have hall : cs.all (·.toNat < 0x80) = false := by
      refine Bool.eq_false_iff.mpr fun hall => ?_
      have hlow := List.all_eq_true.mp hall c hc
      simp only [decide_eq_true_eq] at hlow
      omega
    have htab : cs ≠ ['\t'] := by
      rintro rfl
      simp at hall
    rw [clusterWidth, if_neg htab, hall]
    rfl

/-- A divider of `k` columns: what is before it in a sequence is measured as if the sequence ended
there. -/
theorem clusterWidth_append_divider (has : Reaches as) (hbs : Reaches bs)
    (halone : clusterWidth [c] = k)
    (hmeasure : Column.measure (c :: bs) = ((Column.measure bs).1 + k, .none)) :
    clusterWidth (as ++ c :: bs) = clusterWidth as + k + clusterWidth bs := by
  by_cases hsingle : as = [] ∧ bs = []
  · obtain ⟨rfl, rfl⟩ := hsingle
    rw [List.nil_append, clusterWidth_nil, halone, Nat.zero_add, Nat.add_zero]
  · have hreaches : Reaches (as ++ c :: bs) := by
      right
      obtain rfl | ⟨d, hd, hhigh⟩ := has
      · obtain rfl | ⟨d, hd, hhigh⟩ := hbs
        · exact absurd ⟨rfl, rfl⟩ hsingle
        · exact ⟨d, by simp [hd], hhigh⟩
      · exact ⟨d, by simp [hd], hhigh⟩
    have hnone : (Column.measure (c :: bs)).2 = .none := by rw [hmeasure]
    have hwidth : sequenceWidth (c :: bs) = sequenceWidth bs + k := by
      rw [sequenceWidth, hmeasure]
      exact Int.toNat_add (Column.measure_nonneg bs) (Int.natCast_nonneg k)
    rw [clusterWidth_of_reaches hreaches, clusterWidth_of_reaches has, clusterWidth_of_reaches hbs,
      sequenceWidth_append hnone, hwidth]
    omega

theorem clustersWidth_append_divider (hc : Divides c) (halone : clusterWidth [c] = k)
    (hmeasure : ∀ bs, bs <+: u → Column.measure (c :: bs) = ((Column.measure bs).1 + k, .none)) :
    unicode.clustersWidth (clusters (t ++ c :: u)) =
      unicode.clustersWidth (clusters t) + k + unicode.clustersWidth (clusters u) := by
  obtain ⟨xs, as, bs, ys, hsplit, ht, hu, has, hbs⟩ := clusters_append_divider hc t u
  have hbegins : bs <+: u := by
    have hflat := congrArg List.flatten hu
    rw [flatten_clusters] at hflat
    refine ⟨ys.flatten, ?_⟩
    rw [hflat, List.flatten_append, piece]
    split <;> simp_all
  have hcluster := clusterWidth_append_divider has hbs halone (hmeasure bs hbegins)
  rw [hsplit, ht, hu]
  simp [Metrics.clustersWidth, hcluster]
  omega

theorem divides_space : Divides ' ' where
  kind := by decide
  consonant := by decide +kernel
  conjunct before := rfl

theorem measure_space (bs : List Char) :
    Column.measure (' ' :: bs) = ((Column.measure bs).1 + 1, .none) := by
  rw [Column.measure_cons]
  generalize (Column.measure bs).2 = d
  obtain ⟨f, selector⟩ := d
  rcases selector with _ | _ | _ <;> rfl

theorem clustersWidth_append_space (t u : List Char) :
    unicode.clustersWidth (clusters (t ++ ' ' :: u)) =
      unicode.clustersWidth (clusters t) + 1 + unicode.clustersWidth (clusters u) :=
  clustersWidth_append_divider divides_space rfl fun bs _ => measure_space bs

/-- At the end of a text nothing is asked of the last character. -/
theorem measure_last (hbefore : Column.before .none c = (↑k, .none)) (hend : bs <+: []) :
    Column.measure (c :: bs) = ((Column.measure bs).1 + k, .none) := by
  have hempty : Column.measure [] = (0, .none) := rfl
  rw [List.prefix_nil.mp hend, Column.measure_cons, hempty, hbefore, Int.zero_add]

theorem divides_ellipsis : Divides ellipsis where
  kind := by decide +kernel
  consonant := by decide +kernel
  conjunct before := by cases before <;> decide +kernel

theorem clustersWidth_append_ellipsis (t : List Char) :
    unicode.clustersWidth (clusters (t ++ [ellipsis])) =
      unicode.clustersWidth (clusters t) + 1 := by
  have halone : clusterWidth [ellipsis] = 1 := by decide +kernel
  have hbefore : Column.before .none ellipsis = (1, .none) := by decide +kernel
  rw [clustersWidth_append_divider divides_ellipsis halone fun _ => measure_last hbefore]
  rfl

/-- White space that begins a cluster of its own. -/
def breakPoints : List Nat := [0x9, 0xa, 0xb, 0xc, 0xd, 0x85, 0x2028, 0x2029]

/-- White space that keeps apart what stands on its sides, as a space does. -/
def gapPoints : List Nat :=
  [0x20, 0xa0, 0x1680, 0x2000, 0x2001, 0x2002, 0x2003, 0x2004, 0x2005, 0x2006, 0x2007, 0x2008,
    0x2009, 0x200a, 0x202f, 0x205f, 0x3000]

theorem mem_points_of_isWhite (h : isWhite c = true) :
    c.toNat ∈ breakPoints ∨ c.toNat ∈ gapPoints := by
  simp only [isWhite, whiteSpaces, Ranges.has] at h
  simp only [breakPoints, gapPoints, List.mem_cons, List.not_mem_nil, or_false]
  generalize c.toNat = n at h ⊢
  simp at h
  omega

theorem breaks_of_mem (h : c.toNat ∈ breakPoints) :
    Cluster.Breaks c ∧ 1 ≤ clusterWidth ['\r', c] := by
  have hall : ∀ n ∈ breakPoints, (kind (Char.ofNat n) = .carriageReturn ∨
      kind (Char.ofNat n) = .lineFeed ∨ kind (Char.ofNat n) = .control) ∧
        1 ≤ clusterWidth ['\r', Char.ofNat n] := by decide +kernel
  have hc := hall c.toNat h
  rwa [Char.ofNat_toNat] at hc

theorem divides_of_mem (h : c.toNat ∈ gapPoints) : Divides c ∧
    Column.before .none c = (↑(clusterWidth [c]), .none) := by
  have hall : ∀ n ∈ gapPoints, (kind (Char.ofNat n) = .other ∧ isConsonant (Char.ofNat n) = false ∧
      conjunctAfter .none (Char.ofNat n) = .none ∧ conjunctAfter .consonant (Char.ofNat n) = .none ∧
        conjunctAfter .linked (Char.ofNat n) = .none) ∧
      Column.before .none (Char.ofNat n) = (↑(clusterWidth [Char.ofNat n]), .none) := by
    decide +kernel
  have hc := hall c.toNat h
  rw [Char.ofNat_toNat] at hc
  obtain ⟨⟨hkind, hconsonant, hnone, hseen, hlinked⟩, hbefore⟩ := hc
  refine ⟨⟨hkind, hconsonant, fun before => ?_⟩, hbefore⟩
  cases before <;> assumption

theorem clustersWidth_le_concat (hc : isWhite c = true) (t : List Char) :
    unicode.clustersWidth (clusters t) ≤ unicode.clustersWidth (clusters (t ++ [c])) := by
  rcases mem_points_of_isWhite hc with hmem | hmem
  · obtain ⟨hbreaks, hreturn⟩ := breaks_of_mem hmem
    rcases clusters_concat_break hbreaks t with happend | ⟨xs, ht, happend⟩
    · rw [happend, Metrics.clustersWidth_append]
      exact Nat.le_add_right _ _
    · have hsingle : clusterWidth ['\r'] = 1 := rfl
      rw [ht, happend, Metrics.clustersWidth_append, Metrics.clustersWidth_append]
      simp only [Metrics.clustersWidth, unicode_clusterWidth, hsingle]
      omega
  · obtain ⟨hdivides, hbefore⟩ := divides_of_mem hmem
    rw [clustersWidth_append_divider hdivides rfl fun _ => measure_last hbefore]
    omega

theorem unicode_laws : unicode.Laws where
  joined := flatten_clusters
  leading _ _ := clusters_of_prefix
  space := clustersWidth_append_space
  ellipsis := clustersWidth_append_ellipsis
  white t _ hc := clustersWidth_le_concat hc t

end Tabwise.Text
