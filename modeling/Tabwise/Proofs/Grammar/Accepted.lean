import Tabwise.Proofs.Grammar.Names
import Tabwise.Proofs.Grammar.Sample

/-! # Accepted grammars

Building accepts a draft if and only if it has no mistake. The replay of a line relies on what
follows for the grammar: an alias that is typed is read as its own flag, bounds can be met, and a
selector takes the tokens that it lists and no others.
-/

namespace Tabwise

variable {g : Grammar} {id : Nat} {name token : String}

/-- What the replay of a line takes for granted. -/
structure Grammar.Reliable (g : Grammar) : Prop where
  flag : ∀ id, ∀ name ∈ (g.argument id).aliases,
    g.looksLikeFlag name = true ∧ ∀ abbreviated, g.lookupFlag abbreviated name = some id
  min_le_max : ∀ a ∈ g.arguments, ∀ max, a.maxArgs = some max → a.minArgs ≤ max
  takesValues : ∀ a ∈ g.arguments, a.action.takesValues = true → a.maxArgs ≠ some 0
  selects : ∀ a ∈ g.arguments, ∀ set, a.kind = .selector set → ∀ token,
    (∃ c, set.select? token = some c) ↔ token ∈ set.candidates.map Candidate.value

theorem Subcommands.Distinct.select?_iff {set : Subcommands} (h : set.Distinct) :
    (∃ c, set.select? token = some c) ↔ token ∈ set.candidates.map Candidate.value := by
  rw [map_value_candidates]
  exact ⟨fun ⟨_, hc⟩ => mem_tokens_of_select? hc, h.select?_isSome⟩

namespace Grammar

theorem mem_flags_of_mem_aliases (h : name ∈ (g.argument id).aliases) : (name, id) ∈ g.flags := by
  refine mem_flags.mpr ⟨?_, h⟩
  by_contra hlt
  rw [argument, List.getElem?_eq_none (Nat.le_of_not_lt hlt)] at h
  cases h

theorem Reliable.of_valid (hv : g.Valid) (hn : g.WellNamed) : g.Reliable := by
  refine ⟨fun id name hname => ?_, fun a ha _ => (hv.checked a ha).min_le_max,
    fun a ha => (hv.checked a ha).maxArgs_ne_zero_of_takesValues, fun a ha set hk _ => ?_⟩
  · have hflag := mem_flags_of_mem_aliases hname
    exact ⟨hn.looksLikeFlag hflag, fun _ => hn.lookupFlag hflag⟩
  · exact ((hn.arguments a ha).selector set hk).select?_iff

theorem Built.everywhere_reliable (h : g.Built) : g.Everywhere Reliable :=
  h.everywhere_valid.imp₂ (fun _ => Reliable.of_valid) h.everywhere_wellNamed

end Grammar

namespace Draft

variable {d : Draft}

theorem Acceptable.reliable (h : d.Acceptable) : d.grammar.Reliable :=
  .of_valid (h.valid.rename d.prog) (h.wellNamed.rename d.prog)

/-- What is built holds what the draft declares. -/
structure Declares (d : Draft) (g : Grammar) : Prop where
  prog : g.prog = d.prog
  description : g.description = d.description
  prefixChars : g.prefixChars = d.prefixChars
  /-- Nothing but the names of nested grammars is changed. -/
  arguments : g.arguments = d.finished.map (·.rename d.prog)
  groups : g.groups = d.groups.map (·.filterMap (memberIndex? d.finished))

theorem declares_grammar (d : Draft) : d.Declares d.grammar where
  prog := rfl
  description := rfl
  prefixChars := rfl
  arguments := Grammar.rename_arguments
  groups := rfl

/-- Acceptable drafts and no others can be built. What is built holds what they declare and is
reliable, and it is so at every level if all that it nests was built. -/
theorem build_iff_acceptable (d : Draft) :
    ((∃ g, d.build = .ok g) ↔ d.Acceptable) ∧
      ∀ g, d.build = .ok g →
        d.Declares g ∧ g.Reliable ∧ (g.Built → g.Everywhere Grammar.Reliable) := by
  refine ⟨⟨?_, fun h => ⟨d.grammar, build_eq_ok.mpr ⟨h, rfl⟩⟩⟩, fun g hg => ?_⟩
  · rintro ⟨g, hg⟩
    exact (build_eq_ok.mp hg).1
  · obtain ⟨h, rfl⟩ := build_eq_ok.mp hg
    exact ⟨d.declares_grammar, h.reliable, Grammar.Built.everywhere_reliable⟩

/-- The archive with a positional behind its selector. -/
def crowded : Draft :=
  { Sample.archive with
    arguments := Sample.archive.arguments ++ [Argument.new .positional "note"] }

/-- The archive can be relied on two levels down. Nothing may stand behind its selector. -/
theorem build_iff_acceptable_archive :
    Sample.archive.Acceptable ∧ Sample.archive.Declares Sample.archive.grammar ∧
      Sample.archive.grammar.Built ∧ Sample.archive.grammar.Everywhere Grammar.Reliable ∧
        ¬crowded.Acceptable := by
  obtain ⟨hacceptable, hbuilt⟩ := build_iff_acceptable Sample.archive
  obtain ⟨hdeclares, -, hreliable⟩ := hbuilt _ rfl
  refine ⟨hacceptable.mp ⟨_, rfl⟩, hdeclares, Sample.archive_built,
    hreliable Sample.archive_built, fun h => ?_⟩
  obtain ⟨g, hg⟩ := (build_iff_acceptable crowded).1.mpr h
  have hrejected : crowded.build = .error (.unboundedNotLast "area") := rfl
  cases hrejected.symm.trans hg

end Draft

end Tabwise
