import Mathlib.Data.List.Basic
import Tabwise.Grammar.Flags

/-! # Kinds of arguments and their places

An argument is a flag, a positional or a selector. A token can only stand for a flag, and the
positionals of a grammar are the places of all other arguments.
-/

namespace Tabwise

namespace Argument

theorem isFlag_iff {a : Argument} : a.isFlag = true ↔ ∃ aliases, a.kind = .flag aliases := by
  unfold isFlag
  split <;> simp_all

theorem subcommands?_eq_some {a : Argument} {set : Subcommands} :
    a.subcommands? = some set ↔ a.kind = .selector set := by
  unfold subcommands?
  split <;> simp_all

theorem kind_eq_positional {a : Argument} (hf : a.isFlag = false) (hs : a.subcommands? = none) :
    a.kind = .positional := by
  cases hk : a.kind with
  | flag aliases => simp [isFlag, hk] at hf
  | positional => rfl
  | selector set => simp [subcommands?, hk] at hs

theorem isFlag_of_kind_positional {a : Argument} (h : a.kind = .positional) :
    a.isFlag = false := by simp [isFlag, h]

theorem subcommands?_of_isFlag {a : Argument} (h : a.isFlag = true) : a.subcommands? = none := by
  obtain ⟨aliases, hk⟩ := isFlag_iff.mp h
  simp [subcommands?, hk]

theorem subcommands?_of_kind_positional {a : Argument} (h : a.kind = .positional) :
    a.subcommands? = none := by simp [subcommands?, h]

theorem maxArgs_of_isRemainder {a : Argument} (hr : a.isRemainder = true)
    (hs : a.subcommands? = none) : a.maxArgs = none := by
  obtain ⟨ht, ha⟩ : a.action.takesValues = true ∧ a.arity = .remainder := by
    simpa [isRemainder] using hr
  cases hk : a.kind with
  | selector set => simp [subcommands?, hk] at hs
  | flag aliases => simp [maxArgs, hk, ht, ha, Arity.max]
  | positional => simp [maxArgs, hk, ht, ha, Arity.max]

theorem maxArgs_ne_zero_of_isRemainder {a : Argument} (hr : a.isRemainder = true) :
    a.maxArgs ≠ some 0 := by
  cases hs : a.subcommands? with
  | none => simp [maxArgs_of_isRemainder hr hs]
  | some set => simp [maxArgs, subcommands?_eq_some.mp hs]

end Argument

namespace Subcommands

variable {set : Subcommands} {token : String}

theorem map_value_candidates (set : Subcommands) :
    set.candidates.map Candidate.value = set.tokens := by
  rw [candidates, List.map_append, List.map_map, List.map_map]
  rfl

theorem mem_tokens_of_select? {c : Subcommand} (h : set.select? token = some c) :
    token ∈ set.tokens := by
  unfold select? at h
  cases ha : set.aliases.find? (·.1 == token) with
  | some a =>
    have htoken : a.1 = token := by simpa using List.find?_some ha
    rw [← htoken]
    exact List.mem_append_right _ (List.mem_map_of_mem (List.mem_of_find?_eq_some ha))
  | none =>
    rw [ha] at h
    have htoken : c.name = token := by simpa using List.find?_some h
    rw [← htoken]
    exact List.mem_append_left _ (List.mem_map_of_mem (List.mem_of_find?_eq_some h))

end Subcommands

namespace Grammar

variable {g : Grammar} {abbreviated : Bool} {token : String} {id : Nat}

theorem map_argument_ids (g : Grammar) : g.ids.map g.argument = g.arguments := by
  apply List.ext_getElem
  · simp [ids]
  · intro i _ hi
    simp [ids, argument, hi]

theorem forall_argument {P : Argument → Prop} (other : P default) (h : ∀ a ∈ g.arguments, P a)
    (id : Nat) : P (g.argument id) := by
  unfold argument
  cases hi : g.arguments[id]? with
  | none => exact other
  | some a => exact h a (List.mem_of_getElem? hi)

theorem mem_ids : id ∈ g.ids ↔ id < g.arguments.length := List.mem_range

theorem mem_arguments {a : Argument} : a ∈ g.arguments ↔ ∃ i ∈ g.ids, g.argument i = a := by
  rw [← map_argument_ids, List.mem_map]

theorem mem_flags {name : String} :
    (name, id) ∈ g.flags ↔ id < g.arguments.length ∧ name ∈ (g.argument id).aliases := by
  simp [flags, ids, List.mem_flatMap]

theorem argument_isFlag_of_mem_aliases {name : String} (h : name ∈ (g.argument id).aliases) :
    (g.argument id).isFlag = true := by
  cases hk : (g.argument id).kind with
  | flag aliases => simp [Argument.isFlag, hk]
  | positional => simp [Argument.aliases, hk] at h
  | selector set => simp [Argument.aliases, hk] at h

theorem mem_ids_of_isFlag (h : (g.argument id).isFlag = true) : id ∈ g.ids := by
  unfold argument at h
  cases hi : g.arguments[id]? with
  | none =>
    rw [hi] at h
    cases h
  | some a => exact mem_ids.mpr (List.getElem?_eq_some_iff.mp hi).1

theorem lookupFlag_mem (h : g.lookupFlag abbreviated token = some id) :
    ∃ name, (name, id) ∈ g.flags := by
  unfold lookupFlag at h
  split at h
  · next i hl =>
    obtain ⟨l₁, l₂, hl, -⟩ := List.lookup_eq_some_iff.mp hl
    cases h
    exact ⟨token, by simp [hl]⟩
  · split at h
    · split at h
      · cases h
      · next i rest hm =>
        split at h
        · cases h
          have hi : id ∈ (g.flags.filter fun f => startsWith f.1 token).map (·.2) := by simp [hm]
          obtain ⟨⟨name, j⟩, hj, rfl⟩ := List.mem_map.mp hi
          exact ⟨name, (List.mem_filter.mp hj).1⟩
        · cases h
    · cases h

theorem isFlag_of_lookupFlag (h : g.lookupFlag abbreviated token = some id) :
    (g.argument id).isFlag = true := by
  obtain ⟨name, ha⟩ := lookupFlag_mem h
  exact argument_isFlag_of_mem_aliases (mem_flags.mp ha).2

theorem mem_positionals :
    id ∈ g.positionals ↔ id < g.arguments.length ∧ (g.argument id).isFlag = false := by
  simp [positionals, ids]

theorem pairwise_lt_positionals (g : Grammar) : g.positionals.Pairwise (· < ·) := by
  unfold positionals ids
  exact List.pairwise_lt_range.filter _

theorem flag_ne_positional {i j : Nat} (hi : (g.argument i).isFlag = true)
    (hj : (g.argument j).kind = .positional) : i ≠ j := by
  rintro rfl
  simp [Argument.isFlag_of_kind_positional hj] at hi

end Grammar

end Tabwise
