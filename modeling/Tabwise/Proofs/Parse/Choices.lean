import Tabwise.Proofs.Grammar.Sample
import Tabwise.Proofs.Parse.Levels

/-! # Values that are checked

Choices are checked at the end of a line, for the values that are kept. A flag that stores gives up
its values when it is given again, and these are not checked. All other values of an argument that
lists its choices are among them.
-/

namespace Tabwise

variable {g : Grammar} {abbreviated : Bool} {r : Replay} {t before after : Trace} {args : Args}
  {tokens : List String} {token : String} {i : Nat}

/-- The run of a parse at the level of the grammar: over all tokens, or up to the one that selects a
subcommand. -/
inductive Grammar.OwnRun (g : Grammar) (abbreviated : Bool) : List String → Trace → Replay → Prop
  | line {tokens : List String} {t : Trace} {r : Replay} :
      (Replay.start g).run g abbreviated tokens = .ok (t, r) →
      (∀ e ∈ t, e.2.continues = true) → OwnRun g abbreviated tokens t r
  | command {own rest : List String} {name : String} {t : Trace} {r : Replay} {id : Nat}
      {c : Subcommand} :
      (Replay.start g).run g abbreviated (own ++ [name]) =
        .ok (t ++ [(name, .subcommand id c)], r) →
      (∀ e ∈ t, e.2.continues = true) →
      OwnRun g abbreviated (own ++ name :: rest) (t ++ [(name, .subcommand id c)]) r

/-- The flag stores its values and is given again. -/
def Trace.Overwrites (g : Grammar) (i : Nat) (after : Trace) : Prop :=
  (g.argument i).action = .store ∧ ∃ e ∈ after, e.2 = .flag i

namespace Grammar

theorem OwnRun.run (h : g.OwnRun abbreviated tokens t r) :
    ∃ own, (Replay.start g).run g abbreviated own = .ok (t, r) := by
  cases h with
  | line hrun ht => exact ⟨_, hrun⟩
  | command hrun ht => exact ⟨_, hrun⟩

theorem Parses.ownRun (h : g.Parses abbreviated tokens args) :
    ∃ t r, g.OwnRun abbreviated tokens t r := by
  cases h with
  | line hrun ht _ => exact ⟨_, _, .line hrun ht⟩
  | command hrun ht _ _ => exact ⟨_, _, .command hrun ht⟩

/-- A parse ends with the checks on the state that its run leaves. -/
theorem OwnRun.finish (hown : g.OwnRun abbreviated tokens t r)
    (h : g.parse abbreviated tokens = .ok args) :
    ∃ positionals subcommand, g.finish r positionals subcommand = .ok args := by
  unfold parse at h
  cases hown with
  | line hrun ht =>
    rw [← List.append_nil tokens, parseFrom_append [] [] hrun ht, parseFrom] at h
    exact ⟨_, _, h⟩
  | command hrun ht =>
    obtain ⟨r₁, h₁, hm⟩ := Replay.run_concat_eq_ok.mp hrun
    rw [parseFrom_append [] _ h₁ ht, parseFrom, hm.step_eq] at h
    obtain ⟨nested, -, hf⟩ := bind_eq_ok.mp h
    exact ⟨_, _, hf⟩

end Grammar

theorem Trace.mem_valuesOf (ht : t = before ++ (token, .value i) :: after) :
    token ∈ t.valuesOf i := by
  simp [ht, valuesOf, Step.isValue]

/-- A value belongs to the current occurrence until the flag is given again. -/
theorem Trace.mem_currentValues (hafter : ∀ e ∈ after, e.2 ≠ .flag i) :
    token ∈ currentValues i (before ++ (token, .value i) :: after) := by
  induction after using List.reverseRecOn with
  | nil => simp [Step.isFlag, Step.isValue]
  | append_singleton after e ih =>
    rw [List.forall_mem_append, List.forall_mem_singleton] at hafter
    have hflag : e.2.isFlag i = false := by
      cases hst : e.2 <;> simp_all [Step.isFlag]
    rw [← List.cons_append, ← List.append_assoc, currentValues_concat, hflag]
    exact List.mem_append_left _ (ih hafter.1)

namespace Replay

theorem action_of_run {own : List String} (h : (start g).run g abbreviated own = .ok (t, r)) :
    ∀ e ∈ t, ∀ i, e.2 = .value i → (g.argument i).isFlag = true →
      (g.argument i).action = .store ∨ (g.argument i).action = .append := by
  refine run_recorded_induction (fun t _ => ∀ e ∈ t, ∀ i, e.2 = .value i →
    (g.argument i).isFlag = true →
      (g.argument i).action = .store ∨ (g.argument i).action = .append) ?_ (by simp) h
  intro t r token st r' hc _ ih hm e he i hst hflag
  rcases List.mem_append.mp he with he | he
  · exact ih e he i hst hflag
  · obtain rfl := List.mem_singleton.mp he
    obtain rfl : st = .value i := hst
    rcases hm.value_cases hc with ⟨⟨hk, hx⟩ | hk, -⟩ | ⟨hk, -⟩
    · exact action_of_maxArgs hk hx
    · simp [Argument.isFlag, hk] at hflag
    · simp [Argument.isFlag, hk] at hflag

/-- A value is kept unless its flag stores and is given again. -/
theorem kept_of_run {own : List String} (h : (start g).run g abbreviated own = .ok (t, r))
    (ht : t = before ++ (token, .value i) :: after) (hn : ¬Trace.Overwrites g i after) :
    ∃ values, r.values.find? i = some values ∧ token ∈ values := by
  obtain ⟨-, hr⟩ := run_recorded h
  have hmem := Trace.mem_valuesOf ht
  have hne : t.valuesOf i ≠ [] := List.ne_nil_of_mem hmem
  have hkept := (hr i).kept
  cases hk : (g.argument i).kind with
  | flag aliases =>
    have hflag : (g.argument i).isFlag = true := by simp [Argument.isFlag, hk]
    have hcount : t.flagCount i ≠ 0 := by
      intro hzero
      exact hne ((hr i).silent (by rw [(hr i).occurrences, Trace.occurrences, hk, hzero]))
    have he : (token, Step.value i) ∈ t := by simp [ht]
    rcases action_of_run h _ he i rfl hflag with ha | ha
    · have hlast : ∀ e ∈ after, e.2 ≠ .flag i := fun e he hst => hn ⟨ha, e, he, hst⟩
      simp only [Trace.kept?, hk, hcount, ha] at hkept
      exact ⟨_, hkept, ht ▸ Trace.mem_currentValues hlast⟩
    · simp only [Trace.kept?, hk, hcount, ha] at hkept
      exact ⟨_, hkept, hmem⟩
  | positional =>
    simp only [Trace.kept?, hk, hne] at hkept
    exact ⟨_, hkept, hmem⟩
  | selector set => exact absurd ((hr i).unvalued set hk) hne

end Replay

namespace Grammar

/-- Parsed arguments come from the checks on some state. -/
theorem finish_of_parse (h : g.parse abbreviated tokens = .ok args) :
    ∃ r positionals subcommand, g.finish r positionals subcommand = .ok args := by
  cases parse_eq_ok_iff.mp h with
  | line _ _ hf => exact ⟨_, _, _, hf⟩
  | command _ _ _ hf => exact ⟨_, _, _, hf⟩

theorem mem_getAll_collect {positionals : List String} {subcommand : Option (String × Args)}
    {v dest : String} (hv : v ∈ (g.collect r positionals subcommand).getAll dest) :
    ∃ i values, (i, values) ∈ r.values.entries ∧ (g.argument i).dest = dest ∧ v ∈ values := by
  simp only [Args.getAll, collect, InsertionMap.findD] at hv
  cases hfind : (InsertionMap.ofList (r.given g)).find? dest with
  | none => simp [hfind] at hv
  | some values =>
    rw [hfind] at hv
    rcases InsertionMap.mem_extend (InsertionMap.mem_of_find? hfind) with hempty | hgiven
    · cases hempty
    · obtain ⟨⟨i, kept⟩, hkept, he⟩ := List.mem_map.mp hgiven
      cases he
      exact ⟨i, _, hkept, rfl, hv⟩

/-- What is parsed under a name is listed by an argument of that name, if the argument lists its
choices. -/
theorem listed_of_getAll {v dest : String} (h : g.parse abbreviated tokens = .ok args)
    (hhelp : args.help = false) (hv : v ∈ args.getAll dest) :
    ∃ i, (g.argument i).dest = dest ∧
      ∀ choices, (g.argument i).choices.listedValues? = some choices → v ∈ choices := by
  obtain ⟨r, positionals, subcommand, hf⟩ := finish_of_parse h
  obtain ⟨hval, rfl⟩ := finish_eq_ok.mp hf
  obtain ⟨-, -, hunlisted⟩ := validate_eq_ok.mp (hval hhelp)
  obtain ⟨i, values, hkept, hdest, hmem⟩ := mem_getAll_collect hv
  exact ⟨i, hdest, fun choices hchoices =>
    unlisted?_eq_none.mp hunlisted i values hkept choices hchoices v hmem⟩

theorem help_of_parse (h : g.parse abbreviated tokens = .ok args)
    (haction : ∀ i ∈ g.ids, (g.argument i).action ≠ .help) : args.help = false := by
  obtain ⟨r, positionals, subcommand, hf⟩ := finish_of_parse h
  obtain ⟨-, rfl⟩ := finish_eq_ok.mp hf
  have hnone : g.helpGiven r = false := by
    simpa [helpGiven] using fun i hi ha => absurd ha (haction i hi)
  exact hnone

/-- When a line is parsed and help was not asked for, every value of an argument that lists its
choices is one of them, unless the flag stores and is given again behind the value. -/
theorem listed_of_parse (h : g.parse abbreviated tokens = .ok args) (hhelp : args.help = false) :
    (∃ t r, g.OwnRun abbreviated tokens t r) ∧
    ∀ t r, g.OwnRun abbreviated tokens t r →
      ∀ before token i after, t = before ++ (token, .value i) :: after →
        ∀ choices, (g.argument i).choices.listedValues? = some choices →
          token ∈ choices ∨ Trace.Overwrites g i after := by
  refine ⟨(parse_eq_ok_iff.mp h).ownRun, ?_⟩
  intro t r hown before token i after ht choices hchoices
  refine or_iff_not_imp_right.mpr fun hn => ?_
  obtain ⟨positionals, subcommand, hf⟩ := hown.finish h
  obtain ⟨hval, rfl⟩ := finish_eq_ok.mp hf
  obtain ⟨-, -, hunlisted⟩ := validate_eq_ok.mp (hval hhelp)
  obtain ⟨own, hrun⟩ := hown.run
  obtain ⟨values, hkept, hmem⟩ := Replay.kept_of_run hrun ht hn
  exact unlisted?_eq_none.mp hunlisted i values (InsertionMap.mem_of_find? hkept) choices hchoices
    token hmem

/-- Both tags are checked, and the mode that is given last. -/
theorem listed_of_parse_courier : ∃ args,
    Sample.courier.grammar.parse true ["-t", "a", "-m", "slow", "-t", "b", "--mode", "fast"] =
      .ok args ∧
    args.help = false ∧
    (∃ t r, Sample.courier.grammar.OwnRun true
      ["-t", "a", "-m", "slow", "-t", "b", "--mode", "fast"] t r) ∧
    ∀ t r, Sample.courier.grammar.OwnRun true
      ["-t", "a", "-m", "slow", "-t", "b", "--mode", "fast"] t r →
        ∀ before token i after, t = before ++ (token, .value i) :: after →
          ∀ choices, (Sample.courier.grammar.argument i).choices.listedValues? = some choices →
            token ∈ choices ∨ Trace.Overwrites Sample.courier.grammar i after := by
  obtain ⟨args, h, hhelp⟩ := map_eq_ok.mp (show (Sample.courier.grammar.parse true
    ["-t", "a", "-m", "slow", "-t", "b", "--mode", "fast"]).map (·.help) = .ok false from rfl)
  exact ⟨args, h, hhelp, listed_of_parse h hhelp⟩

/-- The mode that is given first is not listed, and the line is parsed. -/
theorem listed_of_parse_overwritten : Sample.courier.grammar.Built ∧ ∃ args before after r,
    Sample.courier.grammar.parse true ["-m", "slow", "-m", "fast"] = .ok args ∧ args.help = false ∧
    Sample.courier.grammar.OwnRun true ["-m", "slow", "-m", "fast"]
      (before ++ ("slow", .value 0) :: after) r ∧
    ∃ choices, (Sample.courier.grammar.argument 0).choices.listedValues? = some choices ∧
      "slow" ∉ choices := by
  obtain ⟨args, h, hhelp⟩ := map_eq_ok.mp (show (Sample.courier.grammar.parse true
    ["-m", "slow", "-m", "fast"]).map (·.help) = .ok false from rfl)
  have hown : Sample.courier.grammar.OwnRun true ["-m", "slow", "-m", "fast"]
      ([("-m", .flag 0)] ++ ("slow", .value 0) :: [("-m", .flag 0), ("fast", .value 0)]) _ :=
    .line rfl (by simp [Step.continues])
  exact ⟨Sample.courier_built, args, _, _, _, h, hhelp, hown, ["fast", "safe"], rfl, by decide⟩

end Grammar

end Tabwise
