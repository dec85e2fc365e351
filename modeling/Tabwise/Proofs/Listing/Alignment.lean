import Tabwise.Proofs.Listing.Matches

/-! # The columns of a table

Every value is filled up to the width of the first column, so the second one begins at the same
place on every line and in the header. What a line is cut to leaves room for the first column, and
the header is cut as a whole.
-/

namespace Tabwise.Listing

open Text

variable {m : Metrics} {o : Options} {c : Completions} {v : Candidate}
  {first second line s : String} {terminalWidth width : Nat}

/-- The first column takes its width, and the second one begins behind it and the gap. -/
structure InColumns (m : Metrics) (width : Nat) (first second : String) : Prop where
  takes : m.widthOf first = width
  gap : m.widthOf (first ++ "  ") = width + 2
  begins : m.widthOf (first ++ "  " ++ second) = width + 2 + m.widthOf second

theorem inColumns_of_filled (hm : m.Laws) (hs : Finished s.toList) (hwidth : m.widthOf s ≤ width)
    (hfilled : first.toList = s.toList ++ List.replicate (width - m.widthOf s) ' ')
    (second : String) : InColumns m width first second := by
  rw [Metrics.widthOf] at hwidth hfilled
  have hgap (t : String) : m.widthOf (first ++ "  " ++ t) = width + 2 + m.widthOf t := by
    have hspaces := hm.displayWidth_append_spaces hs (n := width - m.displayWidth s.toList + 2)
      (Nat.succ_pos _) t.toList
    rw [← List.replicate_append_replicate, List.append_assoc] at hspaces
    have htoList : (first ++ "  " ++ t).toList = s.toList ++
        (List.replicate (width - m.displayWidth s.toList) ' ' ++
          (List.replicate 2 ' ' ++ t.toList)) := by
      rw [String.toList_append, String.toList_append, hfilled, List.append_assoc, List.append_assoc]
      rfl
    rw [Metrics.widthOf, Metrics.widthOf, htoList, hspaces]
    omega
  constructor
  case takes =>
    have hpad := hm.displayWidth_pad hs width
    rw [Metrics.pad, ← hfilled, Nat.max_eq_left hwidth] at hpad
    exact hpad
  case gap =>
    have hempty := hgap ""
    rwa [String.append_empty] at hempty
  case begins => exact hgap second

/-- A line whose value is no wider than the first column has its description in the second one. -/
theorem IsLine.inColumns (h : IsLine m terminalWidth width v first second line) (hm : m.Laws)
    (hs : Finished v.value.toList) (hwidth : m.widthOf v.value ≤ width) :
    InColumns m width first second := inColumns_of_filled hm hs hwidth h.filled second

/-- A line takes no more columns than the terminal has, if it has room for the first column. -/
theorem IsLine.width_le (h : IsLine m terminalWidth width v first second line)
    (hcolumns : InColumns m width first second) (hroom : width + 2 ≤ terminalWidth) :
    m.widthOf (first ++ "  " ++ second) ≤ terminalWidth := by
  obtain ⟨description, -, hcut⟩ := h.described
  have hfits : m.widthOf second ≤ terminalWidth - (width + 2) := hcut.fits
  rw [hcolumns.begins]
  omega

theorem IsLine.trimmed_le (h : IsLine m terminalWidth width v first second line) (hm : m.Laws) :
    m.widthOf line ≤ m.widthOf (first ++ "  " ++ second) := by
  obtain ⟨blanks, hcut, hblanks⟩ := h.trimmed.cut
  rw [Metrics.widthOf, Metrics.widthOf, hcut]
  exact hm.displayWidth_le_append hblanks line.toList

theorem header_of_isSome (h : (layOut m o terminalWidth c).header.isSome = true) :
    (layOut m o terminalWidth c).header = some (m.truncateTo terminalWidth
      (m.padTo (valueWidth m (c.metavar.getD "") c.candidates) (c.metavar.getD "") ++ "  " ++
        c.descriptiveHeader.getD o.descriptiveHeader)) := by
  rw [layOut_of_header h, table, valueWidth_shown]
  rfl

/-- A line under a first column of a width, and what it is cut from. -/
structure AlignedLine (m : Metrics) (terminalWidth width : Nat) (v : Candidate)
    (first second line : String) : Prop extends
    IsLine m terminalWidth width v first second line, InColumns m width first second where
  row_le : width + 2 ≤ terminalWidth → m.widthOf (first ++ "  " ++ second) ≤ terminalWidth
  line_le : width + 2 ≤ terminalWidth → m.widthOf line ≤ terminalWidth

/-- The titles above a first column of a width, and what they are cut from. -/
structure AlignedHeader (m : Metrics) (terminalWidth width : Nat) (metavar title : String)
    (first header : String) : Prop extends InColumns m width first title where
  padded : first.toList = metavar.toList ++ List.replicate (width - m.widthOf metavar) ' '
  cut : m.Truncates terminalWidth (first ++ "  " ++ title).toList header.toList
  header_le : m.widthOf header ≤ terminalWidth

/-- How the lines of a table with a first column of a width are laid out. -/
structure Aligned (m : Metrics) (o : Options) (terminalWidth : Nat) (c : Completions) (width : Nat)
    (l : Listing) : Prop where
  /-- Each line shows the first candidate with its value. -/
  lines : List.Forall₂ (fun s line => ∃ v first second,
    c.candidates.find? (·.value == s) = some v ∧
      AlignedLine m terminalWidth width v first second line) l.matched l.lines
  header : ∃ first header, l.header = some header ∧ AlignedHeader m terminalWidth width
    (c.metavar.getD "") (c.descriptiveHeader.getD o.descriptiveHeader) first header

theorem aligned_layOut (hm : m.Laws) (htable : (layOut m o terminalWidth c).header.isSome = true)
    (hmetavar : Finished (c.metavar.getD "").toList)
    (hvalues : ∀ v ∈ c.candidates, Finished v.value.toList) :
    Aligned m o terminalWidth c (valueWidth m (c.metavar.getD "") c.candidates)
      (layOut m o terminalWidth c) := by
  have hgreatest := isGreatest_valueWidth m (c.metavar.getD "") c.candidates
  generalize hwidth : valueWidth m (c.metavar.getD "") c.candidates = width at hgreatest ⊢
  constructor
  case lines =>
    have hlines := forall₂_matched (lines_of_header hm htable)
    rw [hwidth] at hlines
    rw [matched_layOut]
    refine hlines.imp fun s line ⟨v, hfind, first, second, hline⟩ => ⟨v, first, second, hfind, ?_⟩
    have hv := List.mem_of_find?_eq_some hfind
    have hcolumns := hline.inColumns hm (hvalues v hv) (hgreatest.2 (.inr ⟨v, hv, rfl⟩))
    have hrow := hline.width_le hcolumns
    exact ⟨hline, hcolumns, hrow, fun hroom => Nat.le_trans (hline.trimmed_le hm) (hrow hroom)⟩
  case header =>
    have hheader := header_of_isSome htable
    rw [hwidth] at hheader
    have htruncated := hm.truncates terminalWidth (m.padTo width (c.metavar.getD "") ++ "  " ++
      c.descriptiveHeader.getD o.descriptiveHeader).toList
    have hpadded : (m.padTo width (c.metavar.getD "")).toList = (c.metavar.getD "").toList ++
        List.replicate (width - m.widthOf (c.metavar.getD "")) ' ' := String.toList_ofList
    have hcolumns := inColumns_of_filled hm hmetavar (hgreatest.2 (.inl rfl)) hpadded
      (c.descriptiveHeader.getD o.descriptiveHeader)
    rw [← String.toList_ofList (l := m.truncate _ _)] at htruncated
    exact ⟨_, _, hheader, hcolumns, hpadded, htruncated, htruncated.fits⟩

/-- The second column of a table begins at the same place on every line and in the header, and no
line is wider than the terminal if the first column leaves room for it. -/
theorem aligned_ofCompletions
    (htable : (ofCompletions o terminalWidth c).header.isSome = true)
    (hmetavar : Finished (c.metavar.getD "").toList)
    (hvalues : ∀ v ∈ c.candidates, Finished v.value.toList) :
    ∃ width, IsGreatest {n | n = widthOf (c.metavar.getD "") ∨
        ∃ v ∈ c.candidates, n = widthOf v.value} width ∧
      Aligned unicode o terminalWidth c width (ofCompletions o terminalWidth c) := by
  exact ⟨_, isGreatest_valueWidth unicode _ _, aligned_layOut unicode_laws htable hmetavar hvalues⟩

theorem aligned_items : (ofCompletions {} 14 items).lines =
      ["A1       firs…", "日本     \x1b[1mjapan\x1b[0m"] ∧
    (ofCompletions {} 14 items).header = some "ITEM_ID  Desc…" ∧
    ∃ width, IsGreatest {n | n = widthOf (items.metavar.getD "") ∨
      ∃ v ∈ items.candidates, n = widthOf v.value} width ∧
    Aligned unicode {} 14 items width (ofCompletions {} 14 items) := by
  have hlisting : ofCompletions {} 14 items = ⟨["A1", "日本"],
      ["A1       firs…", "日本     \x1b[1mjapan\x1b[0m"], some "ITEM_ID  Desc…"⟩ := by
    decide +kernel
  have htable : (ofCompletions {} 14 items).header.isSome = true := by rw [hlisting]; rfl
  have hmetavar : Finished (items.metavar.getD "").toList := by decide
  have hvalues : ∀ v ∈ items.candidates, Finished v.value.toList := by decide
  have haligned := aligned_ofCompletions htable hmetavar hvalues
  exact ⟨by rw [hlisting], by rw [hlisting], haligned⟩

end Tabwise.Listing
