import Tabwise.Proofs.Completion.Agreement
import Tabwise.Proofs.Completion.Flags
import Tabwise.Proofs.Grammar.Accepted

/-! # Any alias will do

A flag may be written as any of its aliases or as an abbreviation of them. The replay looks at the
flag and forgets how it was written, so neither what a line parses to nor how it is completed
depends on the spelling of its flags. Every declared alias is read as its flag, but for `--`: it
can be declared, and it ends flags wherever it is given.
-/

namespace Tabwise

variable {g : Grammar} {abbreviated : Bool} {r r' : Replay} {t : Trace} {token name : String}
  {id : Nat}

/-- Where a token stands for a flag, any alias of the flag leads to the same state. -/
theorem Replay.Move.flag_of_alias (h : Move g abbreviated r token (.flag id) r')
    (hw : g.WellNamed) (hname : name ∈ (g.argument id).aliases) (hne : name ≠ "--") :
    Move g abbreviated r name (.flag id) r' := by
  cases h with
  | flag id r₁ hu hread hf hl hg =>
    obtain ⟨other, hother⟩ := Grammar.lookupFlag_mem hl
    have hmem : (name, id) ∈ g.flags :=
      Grammar.mem_flags.mpr ⟨(Grammar.mem_flags.mp hother).1, hname⟩
    exact .flag id r₁ hu ⟨hread.1, hne, hw.looksLikeFlag hmem⟩ hf (hw.lookupFlag hmem) hg

/-- A line may start with any alias that an accepted grammar declares, except for `--`. -/
theorem Grammar.usable_iff_ne_separator {d : Draft} (hb : d.build = .ok g)
    (hname : name ∈ (g.argument id).aliases) :
    (∃ r, (Replay.start g).step g abbreviated name = .ok (.flag id, r)) ↔ name ≠ "--" := by
  constructor
  · rintro ⟨r, hstep⟩ rfl
    have hm : Replay.Move g abbreviated (.start g) "--" .separator _ :=
      .separator (Replay.unlocked_of_closed rfl rfl) rfl rfl rfl
    rw [hm.step_eq] at hstep
    cases hstep
  · intro hne
    obtain ⟨hd, rfl⟩ := Draft.build_eq_ok.mp hb
    have hunused : ¬Replay.Excluded d.grammar (.start d.grammar) id := by
      simp [Replay.Excluded, Replay.start, Replay.occurrencesOf]
    exact Completion.step_of_alias (Replay.coherent_start _) (Replay.grouped_start _)
      (hd.wellNamed.rename d.prog) rfl rfl (Grammar.mem_flags_of_mem_aliases hname) hne hunused

theorem Grammar.usable_iff_ne_separator_runner :
    Sample.runner.build = .ok Sample.runner.grammar ∧
    "--env" ∈ (Sample.runner.grammar.argument 2).aliases ∧
    ∃ r, (Replay.start Sample.runner.grammar).step Sample.runner.grammar false "--env" =
      .ok (.flag 2, r) := by
  have hname : "--env" ∈ (Sample.runner.grammar.argument 2).aliases := by decide
  exact ⟨rfl, hname,
    (Grammar.usable_iff_ne_separator (d := Sample.runner) rfl hname).mpr (by decide)⟩

/-- The separator is accepted as an alias, and does not stand for its flag. -/
theorem Grammar.usable_iff_ne_separator_sweeper :
    Sample.sweeper.build = .ok Sample.sweeper.grammar ∧
    "--" ∈ (Sample.sweeper.grammar.argument 0).aliases ∧
    ¬∃ r, (Replay.start Sample.sweeper.grammar).step Sample.sweeper.grammar true "--" =
      .ok (.flag 0, r) := by
  refine ⟨rfl, by decide, ?_⟩
  rintro ⟨r, hstep⟩
  cases hstep

/-- Two lists of tokens parse alike, and what follows them is completed alike. -/
structure Interchangeable (g : Grammar) (abbreviated : Bool) (xs ys : List String) : Prop where
  parse : g.parse abbreviated xs = g.parse abbreviated ys
  complete : ∀ o parents q last, o.abbreviated = abbreviated →
    Completion.completeTokens g o parents q (xs ++ [last]) =
      Completion.completeTokens g o parents q (ys ++ [last])

/-- A token that stands for a flag can be exchanged for any alias of the flag. -/
theorem interchangeable_of_alias {before : List String} (hb : g.Built)
    (hrun : (Replay.start g).run g abbreviated before = .ok (t, r))
    (ht : ∀ e ∈ t, e.2.delegates = false)
    (hstep : r.step g abbreviated token = .ok (.flag id, r'))
    (hname : name ∈ (g.argument id).aliases) (hne : name ≠ "--") (after : List String) :
    Interchangeable g abbreviated (before ++ token :: after) (before ++ name :: after) := by
  have hm := (Replay.Move.of_step hstep).flag_of_alias hb.everywhere_wellNamed.here hname hne
  refine ⟨?_, fun o parents q last ho => ?_⟩
  · refine Grammar.parseFrom_related hrun ht (fun _ => rfl) (fun positionals => ?_) []
    rw [Grammar.parseFrom, Grammar.parseFrom, hstep, hm.step_eq]
  · subst ho
    rw [Completion.completeTokens, Completion.completeTokens, List.dropLast_concat,
      List.dropLast_concat]
    apply Completion.completeFrom_congr hrun ht
    rw [Completion.completeFrom, Completion.completeFrom, hstep, hm.step_eq]

/-- Behind a tag the runner's environment may be abbreviated or given by its short alias. -/
theorem interchangeable_of_alias_runner : ∃ t r r',
    (Replay.start Sample.runner.grammar).run Sample.runner.grammar true ["-t", "a"] = .ok (t, r) ∧
    (∀ e ∈ t, e.2.delegates = false) ∧
    r.step Sample.runner.grammar true "--en" = .ok (.flag 2, r') ∧
    "-e" ∈ (Sample.runner.grammar.argument 2).aliases ∧
    Interchangeable Sample.runner.grammar true
      (["-t", "a"] ++ "--en" :: ["HOME", "/", "python"])
      (["-t", "a"] ++ "-e" :: ["HOME", "/", "python"]) := by
  obtain ⟨⟨t, r⟩, h, hrest⟩ := bind_eq_ok.mp (show ((Replay.start Sample.runner.grammar).run
    Sample.runner.grammar true ["-t", "a"] >>= fun x =>
      (x.2.step Sample.runner.grammar true "--en").map fun y =>
        (x.1.all (!·.2.delegates), y.1)) = .ok (true, .flag 2) from rfl)
  obtain ⟨⟨st, r'⟩, hstep, hchecks⟩ := map_eq_ok.mp hrest
  obtain ⟨hall, rfl⟩ := Prod.mk.inj hchecks
  have ht : ∀ e ∈ t, e.2.delegates = false := by simpa using hall
  have hname : "-e" ∈ (Sample.runner.grammar.argument 2).aliases := by decide
  exact ⟨t, r, r', h, ht, hstep, hname, interchangeable_of_alias Sample.runner_built h ht hstep
    hname (by decide) ["HOME", "/", "python"]⟩

end Tabwise
