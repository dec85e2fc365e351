import Tabwise.Proofs.Completion.Narrowing
import Tabwise.Proofs.Shell.Names
import Tabwise.Proofs.Text.Boundary

/-! # What is right of the cursor

Completion reads a line up to the last boundary before the cursor. The whole line, the cursor and
the start of the token are only handed on to completers, so without completers nothing but the text
left of the cursor matters.
-/

namespace Tabwise

variable {g : Grammar} {o : Options} {q q' : Request} {parents : Given} {r : Replay}
  {context context' : Context} {s : Slot}

open Completion

theorem Argument.resolve_of_isFixed {a : Argument} (h : a.choices.isFixed = true)
    (consumed : List String) (context context' : Context) :
    a.resolve consumed context = a.resolve consumed context' := by
  rw [resolve, resolve, Choices.candidates_of_isFixed h context context']

namespace Completion

theorem values_of_isFixed (h : (g.argument s.id).choices.isFixed = true)
    (htext : context.text = context'.text) : values g o r context s = values g o r context' s := by
  rw [values, values, Argument.resolve_of_isFixed h _ context context', htext]

/-- With fixed choices the last token is completed by its text alone. -/
theorem completeLast_of_isFixed (h : ∀ a ∈ g.arguments, a.choices.isFixed = true)
    (htext : context.text = context'.text) :
    completeLast g o r context = completeLast g o r context' := by
  have hoffer (s : Slot) (otherwise : Outcome) :
      offer g o r context s otherwise = offer g o r context' s otherwise := by
    rw [offer, offer, values_of_isFixed (Grammar.isFixed_argument h s.id) htext]
  unfold completeLast completeValue
  simp only [htext, hoffer]

theorem completeTokens_of_fixedChoices (h : g.FixedChoices) (htext : q.text = q'.text)
    (tokens : List String) :
    completeTokens g o parents q tokens = completeTokens g o parents q' tokens := by
  refine completeTokens_related rfl rfl (fun _ _ => rfl) fun l hl => ?_
  exact completeLast_of_isFixed (hl.everywhere h).here htext

theorem scan_congr {line line' : List Char} {cursor cursor' : Nat}
    (h : Text.takeBytes cursor line = Text.takeBytes cursor' line') :
    Line.scan line cursor = Line.scan line' cursor' := by
  rw [Line.scan, Line.scan, h]

theorem complete_of_fixedChoices (h : g.FixedChoices) {line line' : String}
    {cursor cursor' : Nat}
    (hcut : Text.takeBytes cursor line.toList = Text.takeBytes cursor' line'.toList)
    (start start' : Nat) : complete g o line start cursor = complete g o line' start' cursor' := by
  unfold complete
  rw [scan_congr hcut]
  cases Line.scan line'.toList cursor' with
  | error e => rfl
  | ok s =>
    -- the requests differ in the line and in where the token starts, which only completers see
    have htokens : completeTokens g o .empty ⟨s.text, line, start, s.stop⟩ s.tokens.tail =
        completeTokens g o .empty ⟨s.text, line', start', s.stop⟩ s.tokens.tail := by
      apply completeTokens_of_fixedChoices h
      rfl
    dsimp only
    rw [htokens]

end Completion

namespace Shell

variable {σ : Type} {commands : List (Command σ)} {r : Registry σ} {state : σ} {line line' : String}
  {cursor cursor' : Nat} {cut : List Char}

namespace Registry

/-- No command that a name leads to computes candidates from the line. -/
def FixedChoices (r : Registry σ) (state : σ) : Prop :=
  ∀ name c, r.find? name = some c → (c.grammar state).FixedChoices

theorem fixedChoices_helpCommand (d : Directory σ) (state : σ) :
    ((helpCommand d).grammar state).FixedChoices := by
  refine Draft.everywhere_grammar Grammar.isFixed_rename ?_ ?_
  · intro a ha
    rw [List.mem_singleton.mp ha]
    rfl
  · intro a ha set hk
    rw [List.mem_singleton.mp ha] at hk
    cases hk

theorem fixedChoices_registered (h : ∀ c ∈ commands, (c.grammar state).FixedChoices) :
    (registered commands).FixedChoices state := by
  intro name c hfind
  rcases mem_of_find?_registered hfind with hc | ⟨d, rfl⟩
  · exact h c hc
  · exact fixedChoices_helpCommand d state

/-- Two lines that are cut to the same text are completed alike, wherever their tokens are said to
start. -/
theorem completeLine_of_cut (h : r.FixedChoices state) (o : Options) (start start' : Nat)
    (hcut : Text.IsCut cursor line.toList cut) (hcut' : Text.IsCut cursor' line'.toList cut) :
    r.completeLine state o line start cursor = r.completeLine state o line' start' cursor' := by
  have hsame : Text.takeBytes cursor line.toList = Text.takeBytes cursor' line'.toList :=
    hcut.takeBytes_eq.trans hcut'.takeBytes_eq.symm
  unfold completeLine
  rw [hsame]
  dsimp only
  split
  · rfl
  · cases hfind : r.find? (Line.split (Text.takeBytes cursor' line'.toList)).command with
    | none => rfl
    | some c => exact Completion.complete_of_fixedChoices (h _ c hfind) hsame start start'

def librarian : Command Unit :=
  { idle "library" ["lib"] "shelve items" with grammar := fun _ => Sample.library.grammar }

/-- With the cursor inside the accented letter, what stands before the letter is completed. -/
theorem completeLine_of_cut_library :
    (registered [librarian]).FixedChoices () ∧
    Text.IsCut 12 "library --dé x".toList "library --d".toList ∧
    Text.IsCut 99 "library --d".toList "library --d".toList ∧
    (registered [librarian]).completeLine () {} "library --dé x" 8 12 =
      (registered [librarian]).completeLine () {} "library --d" 40 99 ∧
    (registered [librarian]).completeLine () {} "library --d" 40 99 = .ok (.candidates {
      candidates := [.plain "--dry-run"]
      display := ["[--dry-run]"] }) := by
  have hfixed : (registered [librarian]).FixedChoices () := by
    apply fixedChoices_registered
    rw [List.forall_mem_singleton]
    exact Sample.library_everywhere Grammar.isFixed_rename (by decide) (by decide)
  have hinside : Text.IsCut 12 "library --dé x".toList "library --d".toList := by
    have htake : Text.takeBytes 12 "library --dé x".toList = "library --d".toList := by decide
    rw [← htake]
    exact Text.isCut_takeBytes 12 _
  have hpast : Text.IsCut 99 "library --d".toList "library --d".toList := by
    have htake : Text.takeBytes 99 "library --d".toList = "library --d".toList := by decide
    have hcut := Text.isCut_takeBytes 99 "library --d".toList
    rwa [htake] at hcut
  exact ⟨hfixed, hinside, hpast, completeLine_of_cut hfixed {} 8 40 hinside hpast, rfl⟩

end Registry

end Shell

end Tabwise
