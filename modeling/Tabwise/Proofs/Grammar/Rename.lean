import Mathlib.Data.List.Basic
import Tabwise.Grammar.Build
import Tabwise.Proofs.Grammar.Kinds

/-! # What renaming keeps

Renaming gives names to a grammar and to those nested in it. An argument keeps all that the
replay and the checks at the end of a line look at.
-/

namespace Tabwise

variable {g : Grammar} {prog : String}

theorem renameArguments_eq_map (prog : String) (arguments : List Argument) :
    renameArguments prog arguments = arguments.map (·.rename prog) := by
  induction arguments with
  | nil => rfl
  | cons a rest ih => rw [renameArguments, ih, List.map_cons]

theorem renameSubcommands_eq_map (prog : String) (commands : List Subcommand) :
    renameSubcommands prog commands =
      commands.map fun c => { c with grammar := c.grammar.rename (prog ++ " " ++ c.name) } := by
  induction commands with
  | nil => rfl
  | cons c rest ih =>
    cases c
    rw [renameSubcommands, ih, List.map_cons]

namespace Argument

variable (a : Argument) (prog : String)

@[simp] theorem rename_kind : (a.rename prog).kind = a.kind.rename prog := by
  cases a
  rfl

@[simp] theorem rename_dest : (a.rename prog).dest = a.dest := by
  cases a
  rfl

@[simp] theorem rename_arity : (a.rename prog).arity = a.arity := by
  cases a
  rfl

@[simp] theorem rename_action : (a.rename prog).action = a.action := by
  cases a
  rfl

@[simp] theorem rename_choices : (a.rename prog).choices = a.choices := by
  cases a
  rfl

/-- The kind stays, and a selector picks renamed grammars by the same tokens. -/
theorem Kind.rename_eq_selector {kind : Kind} {set : Subcommands} :
    kind.rename prog = .selector set ↔ ∃ commands,
      kind = .selector ⟨commands, set.aliases⟩ ∧
        set.commands = renameSubcommands prog commands := by
  cases kind with
  | flag aliases => simp [Kind.rename]
  | positional => simp [Kind.rename]
  | selector set' =>
    obtain ⟨commands, aliases⟩ := set'
    obtain ⟨commands', aliases'⟩ := set
    simp only [Kind.rename, Kind.selector.injEq, Subcommands.mk.injEq]
    constructor
    · rintro ⟨rfl, rfl⟩
      exact ⟨commands, ⟨rfl, rfl⟩, rfl⟩
    · rintro ⟨_, ⟨rfl, rfl⟩, rfl⟩
      exact ⟨rfl, rfl⟩

theorem Kind.rename_eq_positional {kind : Kind} :
    kind.rename prog = .positional ↔ kind = .positional := by
  cases kind with
  | flag aliases => simp [Kind.rename]
  | positional => rfl
  | selector set =>
    cases set
    simp [Kind.rename]

@[simp] theorem rename_isFlag : (a.rename prog).isFlag = a.isFlag := by
  unfold isFlag
  rw [rename_kind]
  rcases a.kind with aliases | _ | ⟨commands, aliases⟩ <;> rfl

@[simp] theorem rename_minArgs : (a.rename prog).minArgs = a.minArgs := by
  unfold minArgs
  rw [rename_kind, rename_action, rename_arity]
  rcases a.kind with aliases | _ | ⟨commands, aliases⟩ <;> rfl

end Argument

namespace Grammar

@[simp] theorem rename_arguments :
    (g.rename prog).arguments = g.arguments.map (·.rename prog) := by
  rw [← renameArguments_eq_map]
  cases g
  rfl

@[simp] theorem rename_prefixChars : (g.rename prog).prefixChars = g.prefixChars := by
  cases g
  rfl

@[simp] theorem rename_groups : (g.rename prog).groups = g.groups := by
  cases g
  rfl

theorem argument_rename (i : Nat) :
    (g.rename prog).argument i = (g.argument i).rename prog := by
  rw [argument, argument, rename_arguments, List.getElem?_map]
  cases g.arguments[i]? <;> rfl

end Grammar

end Tabwise
