import Tabwise.Proofs.Grammar.Valid

/-! # The last positional

Only the last positional may be unbounded or a selector. So a grammar has one selector at most,
and no positional waits behind it.
-/

namespace Tabwise

variable {g : Grammar} {prog : String}

/-- All positionals but the last are closed. -/
def Grammar.LastOpen (g : Grammar) : Prop := ∀ i ∈ g.positionals.dropLast, (g.argument i).Closed

namespace Argument

@[simp] theorem rename_maxArgs (a : Argument) (prog : String) :
    (a.rename prog).maxArgs = a.maxArgs := by
  unfold maxArgs
  rw [rename_kind, rename_action, rename_arity]
  rcases a.kind with aliases | _ | ⟨commands, aliases⟩ <;> rfl

theorem Closed.rename {a : Argument} (h : a.Closed) (prog : String) : (a.rename prog).Closed := by
  refine ⟨by simpa using h.bounded, ?_⟩
  have hnone := h.unselecting
  unfold subcommands? at hnone ⊢
  rw [rename_kind]
  rcases hk : a.kind with aliases | _ | ⟨commands, aliases⟩
  · rfl
  · rfl
  · simp [hk] at hnone

end Argument

namespace Grammar

theorem map_argument_positionals (g : Grammar) :
    g.positionals.map g.argument = g.arguments.filter (!·.isFlag) := by
  rw [positionals, ← map_argument_ids, List.filter_map]
  rfl

@[simp] theorem positionals_rename (g : Grammar) (prog : String) :
    (g.rename prog).positionals = g.positionals := by
  simp [positionals, ids, argument_rename]

theorem LastOpen.rename (h : g.LastOpen) (prog : String) : (g.rename prog).LastOpen := by
  intro i hi
  rw [positionals_rename] at hi
  rw [argument_rename]
  exact (h i hi).rename prog

/-- In an accepted grammar only the last positional is open, at every level. -/
theorem Built.everywhere_lastOpen (h : g.Built) : g.Everywhere LastOpen := by
  induction h with
  | @intro d g hb _ ih =>
    obtain ⟨hd, rfl⟩ := Draft.build_eq_ok.mp hb
    refine Draft.everywhere_grammar (fun _ prog hl => hl.rename prog) (fun i hi => ?_) ih
    have hmem := List.mem_map_of_mem (f := d.unnamed.argument) hi
    rw [List.map_dropLast, map_argument_positionals] at hmem
    exact hd.closed _ hmem

end Grammar

end Tabwise
