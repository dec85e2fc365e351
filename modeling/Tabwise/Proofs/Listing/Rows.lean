import Mathlib.Order.Bounds.Basic
import Tabwise.Listing
import Tabwise.Proofs.Text.Truncation

/-! # Rows of a table

A row is a value that is filled up to the width of the first column, a gap of two spaces, and what
the rest of the terminal has room for of the first line of a description. The line that is shown is
the row without the white space at its end.
-/

namespace Tabwise.Listing

open Text

variable {m : Metrics} {cs line : List Char} {vs : List Candidate} {v : Candidate} {n : Nat}
  {metavar : String}

/-- What stands in front of the first line feed of a text, without a carriage return at its end. -/
inductive FirstLine : List Char → List Char → Prop
  | only {line : List Char} (hline : '\n' ∉ line) : FirstLine line line
  | feed {line rest : List Char} (hline : '\n' ∉ line) (hlast : line.getLast? ≠ some '\r') :
      FirstLine (line ++ '\n' :: rest) line
  | returned {line rest : List Char} (hline : '\n' ∉ line) :
      FirstLine (line ++ '\r' :: '\n' :: rest) line

theorem firstLine_endLine (hline : '\n' ∉ line) (rest : List Char) :
    FirstLine (line ++ '\n' :: rest) (endLine line) := by
  unfold endLine
  split
  · next hlast =>
    obtain ⟨init, rfl⟩ := List.getLast?_eq_some_iff.mp hlast
    rw [List.append_assoc, List.dropLast_concat]
    exact .returned fun hmem => hline (List.mem_append_left _ hmem)
  · next hlast => exact .feed hline hlast

theorem firstLine_linesFrom {current : List Char} (hcurrent : '\n' ∉ current) (cs : List Char) :
    FirstLine (current.reverse ++ cs) ((linesFrom current cs).head?.getD []) := by
  have hreverse : '\n' ∉ current.reverse := by simpa using hcurrent
  induction cs generalizing current with
  | nil =>
    rw [linesFrom, List.append_nil]
    cases current with
    | nil => exact .only hcurrent
    | cons c current => exact .only hreverse
  | cons c cs ih =>
    rw [linesFrom]
    split
    · next hc =>
      subst hc
      exact firstLine_endLine hreverse cs
    · next hc =>
      have hnext : '\n' ∉ c :: current := by simp [Ne.symm hc, hcurrent]
      have h := ih hnext (by simpa [and_comm] using hnext)
      rwa [List.reverse_cons, List.append_assoc] at h

theorem firstLine_lines (cs : List Char) : FirstLine cs ((Text.lines cs).head?.getD []) :=
  firstLine_linesFrom List.not_mem_nil cs

def untabbed (cs : List Char) : List Char :=
  cs.flatMap fun c => if c = '\t' then [' ', ' ', ' ', ' '] else [c]

/-- A text without the white space at its end. -/
structure Trimmed (cs line : List Char) : Prop where
  cut : ∃ blanks, cs = line ++ blanks ∧ ∀ c ∈ blanks, isWhite c = true
  last : ∀ c, line.getLast? = some c → isWhite c = false

theorem trimmed_dropEndWhile (cs : List Char) : Trimmed cs (dropEndWhile isWhite cs) := by
  constructor
  · refine ⟨(cs.reverse.takeWhile isWhite).reverse, ?_, fun c hc => ?_⟩
    · rw [dropEndWhile, ← List.reverse_append, List.takeWhile_append_dropWhile,
        List.reverse_reverse]
    · exact List.mem_takeWhile_imp (List.mem_reverse.mp hc)
  · intro c hc
    have hhead := List.head?_dropWhile_not isWhite cs.reverse
    rw [dropEndWhile, List.getLast?_reverse] at hc
    rwa [hc] at hhead

/-- A line of a table with a first column of a width, and what its two columns hold. -/
structure IsLine (m : Metrics) (terminalWidth width : Nat) (v : Candidate)
    (first second line : String) : Prop where
  filled : first.toList = v.value.toList ++ List.replicate (width - m.widthOf v.value) ' '
  described : ∃ description, FirstLine (v.description.getD "").toList description ∧
    m.Truncates (terminalWidth - (width + 2)) (untabbed description) second.toList
  trimmed : Trimmed (first ++ "  " ++ second).toList line.toList

theorem isLine_row (hm : m.Laws) (terminalWidth width : Nat) (v : Candidate) :
    IsLine m terminalWidth width v (m.padTo width v.value)
      (m.truncateTo (terminalWidth - (width + 2)) (summary v.description))
      (trimEnd (row m width (terminalWidth - (width + columnGap.length)) v)) where
  filled := by
    rw [Metrics.padTo, String.toList_ofList]
    rfl
  described := by
    refine ⟨_, firstLine_lines _, ?_⟩
    rw [Metrics.truncateTo, String.toList_ofList, summary, String.toList_ofList]
    exact hm.truncates _ _
  trimmed := by
    rw [trimEnd, String.toList_ofList]
    exact trimmed_dropEndWhile _

theorem valueWidth_le_iff : valueWidth m metavar vs ≤ n ↔
    m.widthOf metavar ≤ n ∧ ∀ s ∈ vs.map Candidate.value, m.widthOf s ≤ n := by
  unfold valueWidth
  generalize m.widthOf metavar = w
  induction vs generalizing w with
  | nil => simp
  | cons v vs ih =>
    rw [List.map_cons, List.foldl_cons, ih, Nat.max_le, and_assoc, List.map_cons,
      List.forall_mem_cons]

theorem isGreatest_valueWidth (m : Metrics) (metavar : String) (vs : List Candidate) :
    IsGreatest {n | n = m.widthOf metavar ∨ ∃ v ∈ vs, n = m.widthOf v.value}
      (valueWidth m metavar vs) := by
  constructor
  · unfold valueWidth
    generalize m.widthOf metavar = w
    induction vs generalizing w with
    | nil => exact .inl rfl
    | cons v vs ih =>
      rw [List.map_cons, List.foldl_cons]
      rcases ih (max w (m.widthOf v.value)) with hmax | ⟨u, hu, hwidth⟩
      · rcases Nat.le_total w (m.widthOf v.value) with hle | hle
        · exact .inr ⟨v, List.mem_cons_self .., hmax.trans (Nat.max_eq_right hle)⟩
        · exact .inl (hmax.trans (Nat.max_eq_left hle))
      · exact .inr ⟨u, List.mem_cons_of_mem _ hu, hwidth⟩
  · obtain ⟨hmetavar, hvalues⟩ := valueWidth_le_iff.mp (Nat.le_refl (valueWidth m metavar vs))
    rintro n (rfl | ⟨v, hv, rfl⟩)
    · exact hmetavar
    · exact hvalues _ (List.mem_map_of_mem hv)

/-- The width depends on the values only. -/
theorem valueWidth_congr {us : List Candidate} (m : Metrics) (metavar : String)
    (h : ∀ s, s ∈ us.map Candidate.value ↔ s ∈ vs.map Candidate.value) :
    valueWidth m metavar us = valueWidth m metavar vs := by
  have hwidths (n : Nat) : (∃ v ∈ us, n = m.widthOf v.value) ↔ ∃ v ∈ vs, n = m.widthOf v.value := by
    have hvalue (vs : List Candidate) : (∃ v ∈ vs, n = m.widthOf v.value) ↔
        ∃ s ∈ vs.map Candidate.value, n = m.widthOf s := by simp
    simp only [hvalue, h]
  have hgreatest := isGreatest_valueWidth m metavar us
  simp only [hwidths] at hgreatest
  exact hgreatest.unique (isGreatest_valueWidth m metavar vs)

end Tabwise.Listing
