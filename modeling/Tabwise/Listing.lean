import Tabwise.Completion.Options
import Tabwise.Completion.Outcome
import Tabwise.Grammar.Usage
import Tabwise.Text.Lines

/-! # Listing completions

Repeated values are shown once, in the given order if that is the order to show them and sorted
otherwise. A few candidates with descriptions make a table of two columns, measured in terminal
columns, under the name of the argument.
-/

namespace Tabwise

structure Listing where
  /-- The values to insert, each once, in the order shown. -/
  matched : List String
  lines : List String
  /-- The titles above the lines of a table. -/
  header : Option String
  deriving DecidableEq

namespace Listing

def firstOf {α : Type} (key : α → String) : List α → List α
  | [] => []
  | a :: as => a :: (firstOf key as).filter fun b => key b ≠ key a

theorem mem_map_firstOf {α : Type} {key : α → String} {k : String} {as : List α} :
    k ∈ (firstOf key as).map key ↔ k ∈ as.map key := by
  induction as with
  | nil => rfl
  | cons a as ih =>
    rw [firstOf, List.map_cons, List.mem_cons, List.map_cons, List.mem_cons, ← ih]
    by_cases hk : k = key a
    · simp [hk]
    · simp only [hk, false_or, List.mem_map, List.mem_filter, decide_eq_true_eq]
      constructor
      · rintro ⟨b, ⟨hb, -⟩, rfl⟩
        exact ⟨b, hb, rfl⟩
      · rintro ⟨b, hb, rfl⟩
        exact ⟨b, ⟨hb, hk⟩, rfl⟩

theorem nodup_map_firstOf {α : Type} (key : α → String) (as : List α) :
    ((firstOf key as).map key).Nodup := by
  induction as with
  | nil => exact List.nodup_nil
  | cons a as ih =>
    rw [firstOf, List.map_cons, List.nodup_cons]
    refine ⟨fun hmem => ?_, (List.filter_sublist.map key).nodup ih⟩
    obtain ⟨b, hb, heq⟩ := List.mem_map.mp hmem
    simp [heq] at hb

def arrange {α : Type} (o : Options) (sorted : Bool) (key : α → String) (as : List α) : List α :=
  if sorted then as else as.mergeSort fun a b => o.order.le (key a) (key b)

def columnGap : String := "  "

/-- The first line of a description, with spaces for tabs. -/
def summary (description : Option String) : String :=
  let line := ((Text.lines (description.getD "").toList).head?).getD []
  String.ofList (line.flatMap fun c => if c = '\t' then List.replicate Text.tabWidth ' ' else [c])

def trimEnd (s : String) : String := String.ofList (Text.dropEndWhile Text.isWhite s.toList)

section

variable (m : Text.Metrics)

def valueWidth (metavar : String) (cs : List Candidate) : Nat :=
  (cs.map fun c => m.widthOf c.value).foldl max (m.widthOf metavar)

def row (width descriptionWidth : Nat) (c : Candidate) : String :=
  m.padTo width c.value ++ columnGap ++ m.truncateTo descriptionWidth (summary c.description)

def table (o : Options) (terminalWidth : Nat) (completions : Completions)
    (cs : List Candidate) : Listing :=
  let metavar := completions.metavar.getD ""
  let width := valueWidth m metavar cs
  let descriptionWidth := terminalWidth - (width + columnGap.length)
  let title := completions.descriptiveHeader.getD o.descriptiveHeader
  { matched := cs.map Candidate.value
    lines := cs.map fun c => trimEnd (row m width descriptionWidth c)
    header := some (m.truncateTo terminalWidth (m.padTo width metavar ++ columnGap ++ title)) }

def isTable (o : Options) (display : List String) (cs : List Candidate) : Bool :=
  display.isEmpty && 2 ≤ cs.length && cs.length ≤ o.maxDescribed &&
    cs.any fun c => c.description.isSome

def layOut (o : Options) (terminalWidth : Nat) (completions : Completions) : Listing :=
  let cs := arrange o completions.sorted Candidate.value
    (firstOf Candidate.value completions.candidates)
  let display := arrange o completions.sorted id (firstOf id completions.display)
  if isTable o display cs then table m o terminalWidth completions cs
  else
    let matched := cs.map Candidate.value
    { matched, lines := if display.isEmpty then matched else display, header := none }

end

def ofCompletions (o : Options) (terminalWidth : Nat) (completions : Completions) : Listing :=
  layOut Text.unicode o terminalWidth completions

end Listing

end Tabwise
