import Tabwise.Proofs.Line.Words
import Tabwise.Proofs.Shell.Names

/-! # Commands on lines of words

A line of words runs the command of the first word on what its grammar parses from the others. With
a blank behind it, an empty text is completed behind these.
-/

namespace Tabwise.Shell

open Line (IsWord spaced)

variable {σ : Type} {r : Registry σ} {c : Command σ} {state : σ} {name : String}
  {words : List String}

def lineOf (words : List String) : String := " ".intercalate words

theorem toList_lineOf (words : List String) :
    (lineOf words).toList = spaced (words.map String.toList) := by
  rw [lineOf, String.toList_intercalate]
  rfl

theorem toList_lineOf_cons (hne : words ≠ []) :
    (lineOf (name :: words)).toList = name.toList ++ ' ' :: (lineOf words).toList := by
  obtain ⟨word, words, rfl⟩ := List.exists_cons_of_ne_nil hne
  rw [toList_lineOf, toList_lineOf, List.map_cons, List.map_cons, Line.spaced_cons_cons]

theorem isWord_map (h : ∀ word ∈ words, IsWord word.toList) :
    ∀ w ∈ words.map String.toList, IsWord w := by
  intro w hw
  obtain ⟨word, hword, rfl⟩ := List.mem_map.mp hw
  exact h word hword

theorem map_ofList_toList (words : List String) :
    (words.map String.toList).map String.ofList = words := by
  simp

namespace Registry

/-- The words behind the name of a command are parsed as they are. -/
theorem execute_lineOf {args : Args} (hname : IsWord name.toList)
    (hwords : ∀ word ∈ words, IsWord word.toList) (hne : words ≠ [])
    (hfind : r.find? name = some c) (hparse : (c.grammar state).parse true words = .ok args)
    (hhelp : args.helpRequested = false) :
    r.execute state (lineOf (name :: words)) = c.run state args r.directory := by
  obtain ⟨hcommand, hrest, -⟩ := Line.split_append hname (lineOf words).toList
  rw [← toList_lineOf_cons hne, String.ofList_toList] at hcommand hrest
  obtain ⟨hmatched, hcontents⟩ := Line.tokens_spaced (isWord_map hwords) (by simpa using hne)
    ⟨[], List.forall_mem_nil _⟩
  rw [List.append_nil, ← toList_lineOf] at hmatched hcontents
  have htokenize := Line.tokenize_eq_ok_iff.mpr ⟨hmatched, rfl⟩
  have hparseLine : (c.grammar state).parseLine (lineOf words) = .ok args := by
    rw [Grammar.parseLine, htokenize]
    simpa [Except.mapError, bind, Except.bind, hcontents] using hparse
  have hempty : name.isEmpty = false := by
    simpa using hname.ne_nil
  unfold execute
  simp [hcommand, hrest, hempty, hfind, hparseLine, hhelp]

/-- What is behind a line of words and a blank is completed as an empty text. -/
theorem completeLine_lineOf {line word : String} {black : Char} (o : Options) (start : Nat)
    (hline : line = lineOf (name :: words) ++ " ") (hname : IsWord name.toList)
    (hwords : ∀ word ∈ words, IsWord word.toList) (hword : word ∈ words)
    (hblack : black ∈ word.toList) (hwhite : Text.isWhite black = false)
    (hfind : r.find? name = some c) :
    r.completeLine state o line start line.utf8ByteSize =
      Completion.completeTokens (c.grammar state) o .empty
        ⟨"", line, start, line.utf8ByteSize⟩ (words ++ [""]) := by
  have hne : words ≠ [] := List.ne_nil_of_mem hword
  have hall : ∀ w ∈ (name :: words).map String.toList, IsWord w :=
    isWord_map (List.forall_mem_cons.mpr ⟨hname, hwords⟩)
  have hspaced : line.toList = spaced ((name :: words).map String.toList) ++ [' '] := by
    rw [hline, String.toList_append, toList_lineOf]
    rfl
  have hsplit : line.toList = name.toList ++ ' ' :: ((lineOf words).toList ++ [' ']) := by
    rw [hline, String.toList_append, toList_lineOf_cons hne, List.append_assoc]
    rfl
  have hbehind : ∃ c ∈ (lineOf words).toList ++ [' '], Text.isWhite c = false := by
    refine ⟨black, List.mem_append_left _ ?_, hwhite⟩
    rw [toList_lineOf]
    exact Line.mem_spaced (List.mem_map_of_mem hword) hblack
  have htake : Text.takeBytes line.utf8ByteSize line.toList = line.toList := by
    rw [← Text.byteLength_toList, Text.takeBytes_self]
  obtain ⟨hcommand, -, hcompletes⟩ := Line.split_append hname ((lineOf words).toList ++ [' '])
  rw [← hsplit] at hcommand hcompletes
  rw [String.ofList_toList] at hcommand
  obtain ⟨s, hscan, htokens, htext, hstop⟩ := Line.scan_spaced hall (List.cons_ne_nil _ _)
  rw [← hspaced, Text.byteLength_toList] at hscan hstop
  rw [map_ofList_toList] at htokens
  have hbegun : s.completesCommand = false := by
    simp [Line.Scan.completesCommand, htokens]
  simp only [completeLine, htake, hcompletes hbehind, hcommand, hfind, Bool.false_eq_true, if_false,
    Completion.complete, hscan, hbegun, htokens, htext, hstop]
  rfl

end Registry

end Tabwise.Shell
