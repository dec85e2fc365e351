import Tabwise.Proofs.Completion.Agreement
import Tabwise.Proofs.Grammar.LastPositional
import Tabwise.Proofs.Replay.Selection

/-! # Delegation to subcommands

A line descends through nested grammars: at each level some tokens belong to the grammar, and the
next one selects a subcommand. Completing such a line is completing what is left of it with the
innermost grammar. Nothing of the outer levels is carried along but the values given there. Parsing
such a line nests, level by level, what the grammars below make of the tokens left to them.
-/

namespace Tabwise

open Completion

variable {g g' : Grammar} {o : Options} {q : Request} {abbreviated : Bool} {parents : Given}
  {r r₁ r₂ : Replay} {id : Nat} {c : Subcommand} {name : String} {tokens rest : List String}
  {t : Trace} {args : Args} {positionals : List String}

/-- A level of a line that goes on below it: the tokens of the grammar, the one that selects a
subcommand, and the replay after both. -/
structure Stage where
  grammar : Grammar
  own : List String
  name : String
  command : Subcommand
  replay : Replay

namespace Stage

variable {s : Stage} {stages : List Stage}

def typed (s : Stage) : List String := s.own ++ [s.name]

/-- The grammar takes the tokens, and the last of them selects the subcommand. -/
def Selects (abbreviated : Bool) (s : Stage) : Prop :=
  ∃ t id, (Replay.start s.grammar).run s.grammar abbreviated s.typed =
    .ok (t ++ [(s.name, .subcommand id s.command)], s.replay)

/-- The tokens of the stages, outermost first, and those left to the innermost grammar. -/
def line (stages : List Stage) (rest : List String) : List String :=
  stages.flatMap typed ++ rest

/-- The values given to the parents and at each stage, outermost first. -/
def given (stages : List Stage) (parents : Given) : Given :=
  stages.foldl (fun given s => given.extend (s.replay.given s.grammar)) parents

/-- The stages lead from a grammar to one that is nested in it. -/
inductive Descends (abbreviated : Bool) : Grammar → List Stage → Grammar → Prop
  | here {g : Grammar} : Descends abbreviated g [] g
  | nested {s : Stage} {stages : List Stage} {g : Grammar} : s.Selects abbreviated →
      Descends abbreviated s.command.grammar stages g → Descends abbreviated s.grammar (s :: stages) g

/-- The nested arguments are, level by level, what the nested grammar parses from the tokens after
its name. -/
def Nested (abbreviated : Bool) (rest : List String) : List Stage → Args → Prop
  | [], _ => True
  | s :: stages, args => ∃ nested, args.subcommand = some (s.command.name, nested) ∧
      s.command.grammar.parse abbreviated (line stages rest) = .ok nested ∧
        Nested abbreviated rest stages nested

theorem line_cons : line (s :: stages) rest = s.own ++ s.name :: line stages rest := by
  simp [line, typed]

theorem line_ne_nil (hrest : rest ≠ []) : line stages rest ≠ [] := by
  simp [line, hrest]

theorem Selects.mem_given (h : s.Selects abbreviated) : ∃ id set,
    (s.grammar.argument id).subcommands? = some set ∧ set.select? s.name = some s.command ∧
      ((s.grammar.argument id).dest, [s.name]) ∈ s.replay.given s.grammar := by
  obtain ⟨t, id, hrun⟩ := h
  obtain ⟨r, -, hm⟩ := Replay.run_concat_eq_ok.mp hrun
  obtain ⟨set, hk, hselect⟩ := hm.selects
  have hrec := (hm.records_selection (beq_self_eq_true id)).2.2
  have hkept : s.replay.values.find? id = some [s.name] := (Prod.mk.inj (Prod.mk.inj hrec).2).2
  have hmem := InsertionMap.mem_of_find? hkept
  exact ⟨id, set, Argument.subcommands?_eq_some.mpr hk, hselect, List.mem_map.mpr ⟨_, hmem, rfl⟩⟩

theorem Selects.completeTokens_eq (hl : s.grammar.LastOpen) (h : s.Selects o.abbreviated)
    (hrest : rest ≠ []) (parents : Given) (q : Request) :
    completeTokens s.grammar o parents q (s.own ++ s.name :: rest) =
      completeTokens s.command.grammar o (parents.extend (s.replay.given s.grammar)) q rest := by
  obtain ⟨t, id, hrun⟩ := h
  obtain ⟨r, hown, hm⟩ := Replay.run_concat_eq_ok.mp hrun
  rw [completeTokens, List.dropLast_append_of_ne_nil (List.cons_ne_nil s.name rest),
    List.dropLast_cons_of_ne_nil hrest,
    completeFrom_append hown (Replay.unselected_of_run hl hrun), completeFrom, hm.step_eq]
  rfl

/-- A parse that gets to a token that selects a subcommand nests the parse of what follows. -/
theorem nested_of_parseFrom (hrun : r.run g abbreviated tokens = .ok (t, r₁))
    (ht : ∀ e ∈ t, e.2.selects = false)
    (hm : Replay.Move g abbreviated r₁ name (.subcommand id c) r₂)
    (h : g.parseFrom abbreviated r positionals (tokens ++ name :: rest) = .ok args) :
    ∃ nested, args.subcommand = some (c.name, nested) ∧
      c.grammar.parse abbreviated rest = .ok nested := by
  induction tokens generalizing r t positionals with
  | nil =>
    cases hrun
    rw [List.nil_append, Grammar.parseFrom, hm.step_eq] at h
    obtain ⟨nested, hn, hf⟩ := bind_eq_ok.mp h
    obtain ⟨-, rfl⟩ := Grammar.finish_eq_ok.mp hf
    exact ⟨nested, rfl, hn⟩
  | cons token tokens ih =>
    obtain ⟨st, r', t', hmove, hrest, rfl⟩ := Replay.run_cons_eq_ok.mp hrun
    rw [List.forall_mem_cons] at ht
    rw [List.cons_append] at h
    obtain ⟨st', r'', hmove', hcont⟩ := Grammar.parseFrom_cons_eq_ok h
    obtain ⟨rfl, rfl⟩ := Prod.mk.inj (Except.ok.inj (hmove.step_eq.symm.trans hmove'.step_eq))
    rcases hcont with hst | ⟨i, c', nested, rfl, -⟩
    · rw [Grammar.parseFrom_of_continues hmove hst] at h
      exact ih hrest ht.2 h
    · cases ht.1

theorem Selects.parse_nested (hl : s.grammar.LastOpen) (h : s.Selects abbreviated)
    (hp : s.grammar.parse abbreviated (s.own ++ s.name :: rest) = .ok args) :
    ∃ nested, args.subcommand = some (s.command.name, nested) ∧
      s.command.grammar.parse abbreviated rest = .ok nested := by
  obtain ⟨t, id, hrun⟩ := h
  obtain ⟨r, hown, hm⟩ := Replay.run_concat_eq_ok.mp hrun
  exact nested_of_parseFrom hown (Replay.unselected_of_run hl hrun) hm hp

theorem Selects.nests (h : s.Selects abbreviated) : s.grammar.Nests s.command := by
  obtain ⟨t, id, hrun⟩ := h
  obtain ⟨r, hown, hm⟩ := Replay.run_concat_eq_ok.mp hrun
  exact hm.nests ((Replay.coherent_start s.grammar).of_run hown)

theorem Descends.completeTokens_eq (h : Descends o.abbreviated g stages g')
    (hl : g.Everywhere Grammar.LastOpen) (hrest : rest ≠ []) (parents : Given) (q : Request) :
    completeTokens g o parents q (line stages rest) =
      completeTokens g' o (given stages parents) q rest := by
  induction h generalizing parents with
  | here => rfl
  | @nested s stages g' hs _ ih =>
    rw [line_cons, hs.completeTokens_eq hl.here (line_ne_nil hrest) parents q,
      ih (hl.nested hs.nests)]
    rfl

theorem Descends.nested_of_parse (h : Descends abbreviated g stages g')
    (hl : g.Everywhere Grammar.LastOpen) (hp : g.parse abbreviated (line stages rest) = .ok args) :
    Nested abbreviated rest stages args := by
  induction h generalizing args with
  | here => exact True.intro
  | @nested s stages g' hs _ ih =>
    rw [line_cons] at hp
    obtain ⟨nested, hsub, hnested⟩ := hs.parse_nested hl.here hp
    exact ⟨nested, hsub, hnested, ih (hl.nested hs.nests) hnested⟩

theorem Descends.selects (h : Descends abbreviated g stages g') :
    ∀ s ∈ stages, s.Selects abbreviated := by
  induction h with
  | here => simp
  | nested hs _ ih =>
    rw [List.forall_mem_cons]
    exact ⟨hs, ih⟩

/-- What follows the names of subcommands is completed by the innermost of them, with the values
given on the way, the names included; and if the line parses, the nested arguments are what each
subcommand parses from the tokens after its name. -/
theorem delegates_of_descends (hb : g.Built) (h : Descends o.abbreviated g stages g')
    (hrest : rest ≠ []) :
    (∀ parents q, completeTokens g o parents q (line stages rest) =
      completeTokens g' o (given stages parents) q rest) ∧
    (∀ s ∈ stages, ∃ id set, (s.grammar.argument id).subcommands? = some set ∧
      set.select? s.name = some s.command ∧
        ((s.grammar.argument id).dest, [s.name]) ∈ s.replay.given s.grammar) ∧
    ∀ args, g.parse o.abbreviated (line stages rest) = .ok args →
      Nested o.abbreviated rest stages args :=
  ⟨h.completeTokens_eq hb.everywhere_lastOpen hrest, fun s hs => (h.selects s hs).mem_given,
    fun _ hp => h.nested_of_parse hb.everywhere_lastOpen hp⟩

theorem selects_of_run (h : (Replay.start s.grammar).run s.grammar abbreviated s.typed =
    .ok (t, s.replay)) (hlast : t.getLast? = some (s.name, .subcommand id s.command)) :
    s.Selects abbreviated := by
  obtain ⟨t, rfl⟩ := List.getLast?_eq_some_iff.mp hlast
  exact ⟨t, id, h⟩

/-- Aliases lead through the archive and the library to the runner. -/
theorem delegates_of_descends_archive : ∃ stages g' args,
    line stages ["-t", "a", "--", "py"] =
      ["-u", "bob", "lib", "--shelf", "top", "r", "-t", "a", "--", "py"] ∧
    Descends true Sample.archive.grammar stages g' ∧
    (∀ parents q,
      completeTokens Sample.archive.grammar {} parents q (line stages ["-t", "a", "--", "py"]) =
        completeTokens g' {} (given stages parents) q ["-t", "a", "--", "py"]) ∧
    (∀ s ∈ stages, ∃ id set, (s.grammar.argument id).subcommands? = some set ∧
      set.select? s.name = some s.command ∧
        ((s.grammar.argument id).dest, [s.name]) ∈ s.replay.given s.grammar) ∧
    Sample.archive.grammar.parse true (line stages ["-t", "a", "--", "py"]) = .ok args ∧
    Nested true ["-t", "a", "--", "py"] stages args := by
  obtain ⟨⟨t₁, r₁⟩, h₁, hlast₁⟩ := map_eq_ok.mp (show ((Replay.start Sample.archive.grammar).run
    Sample.archive.grammar true ["-u", "bob", "lib"]).map (·.1.getLast?) =
      .ok (some ("lib", .subcommand 1
        ⟨"library", none, Sample.library.grammar.rename "archive library"⟩)) from rfl)
  obtain ⟨⟨t₂, r₂⟩, h₂, hlast₂⟩ := map_eq_ok.mp (show ((Replay.start
    (Sample.library.grammar.rename "archive library")).run
      (Sample.library.grammar.rename "archive library") true ["--shelf", "top", "r"]).map
        (·.1.getLast?) = .ok (some ("r", .subcommand 3 ⟨"run", none,
          (Sample.runner.grammar.rename "library run").rename "archive library run"⟩)) from rfl)
  obtain ⟨args, hparse, -⟩ := map_eq_ok.mp (show (Sample.archive.grammar.parse true
    ["-u", "bob", "lib", "--shelf", "top", "r", "-t", "a", "--", "py"]).map (·.help) =
      .ok false from rfl)
  have library : Selects true ⟨Sample.archive.grammar, ["-u", "bob"], "lib", _, r₁⟩ :=
    selects_of_run h₁ hlast₁
  have runner : Selects true ⟨Sample.library.grammar.rename "archive library",
      ["--shelf", "top"], "r", _, r₂⟩ := selects_of_run h₂ hlast₂
  have h : Descends true Sample.archive.grammar _ _ := .nested library (.nested runner .here)
  have hrest : ["-t", "a", "--", "py"] ≠ [] := List.cons_ne_nil _ _
  obtain ⟨hcomplete, hgiven, hnested⟩ :=
    delegates_of_descends (o := {}) Sample.archive_built h hrest
  exact ⟨_, _, args, rfl, h, hcomplete, hgiven, hparse, hnested args hparse⟩

end Stage

end Tabwise
