import Tabwise.Proofs.Parse.Levels
import Tabwise.Proofs.Replay.Exclusion

/-! # Exclusive groups in a parse

A group lets one of its members through, but a member answers only to the first group that lists
it. What a parse accepts therefore has one used argument at most among the members of a group that
no earlier group lists. Groups that share members promise no more than that.
-/

namespace Tabwise.Grammar

variable {g : Grammar} {abbreviated : Bool} {r : Replay} {tokens : List String} {args : Args}
  {i : Nat}

/-- What a parse has recorded for the grammar that it begins with. Nested arguments come from a
parse of their own. -/
structure RecordedBy (g : Grammar) (abbreviated : Bool) (tokens : List String) (args : Args)
    (r : Replay) : Prop where
  run : ∃ before t, before <+: tokens ∧ (Replay.start g).run g abbreviated before = .ok (t, r)
  collected : args = g.collect r args.positionals args.subcommand
  nested : ∀ name nested, args.subcommand = some (name, nested) → ∃ c rest, g.Nests c ∧
    c.name = name ∧ rest <:+ tokens ∧ c.grammar.parse abbreviated rest = .ok nested

theorem Parses.recordedBy (h : g.Parses abbreviated tokens args) :
    ∃ r, g.RecordedBy abbreviated tokens args r := by
  cases h with
  | @line _ _ t r _ hrun ht hf =>
    obtain ⟨-, rfl⟩ := finish_eq_ok.mp hf
    exact ⟨r, ⟨tokens, t, List.prefix_rfl, hrun⟩, rfl, fun name nested hsub => by cases hsub⟩
  | @command _ before rest token t r id c nested _ hrun ht hn hf =>
    obtain ⟨-, rfl⟩ := finish_eq_ok.mp hf
    obtain ⟨r₁, h₁, hm⟩ := Replay.run_concat_eq_ok.mp hrun
    have hnests := hm.nests ((Replay.coherent_start g).of_run h₁)
    refine ⟨r, ⟨before ++ [token], _, ⟨rest, by simp⟩, hrun⟩, rfl, fun name nested' hsub => ?_⟩
    cases hsub
    exact ⟨c, rest, hnests, rfl, ⟨before ++ [token], by simp⟩, parse_eq_ok_iff.mpr hn⟩

/-- A member that no earlier group lists is looked up in the group. -/
theorem groupIndex?_eq_some {before after : List (List Nat)} {group : List Nat}
    (hg : g.groups = before ++ group :: after) (hi : i ∈ group) (hb : i ∉ before.flatten) :
    g.groupIndex? i = some before.length := by
  have hearlier : before.findIdx? (·.contains i) = none := by
    rw [List.findIdx?_eq_none_iff]
    intro earlier he
    have hout : i ∉ earlier := fun hmem => hb (List.mem_flatten.mpr ⟨earlier, he, hmem⟩)
    simpa using hout
  rw [groupIndex?, hg, List.findIdx?_append, hearlier, List.findIdx?_cons]
  simp [hi]

/-- Of the members of a group that no earlier group lists, a parse accepts one at most. -/
theorem user_unique_of_parse (h : g.parse abbreviated tokens = .ok args) :
    ∃ r, g.RecordedBy abbreviated tokens args r ∧
      ∀ before group after, g.groups = before ++ group :: after →
        ∀ i ∈ group, ∀ j ∈ group, i ∉ before.flatten → j ∉ before.flatten →
          0 < r.occurrencesOf i → 0 < r.occurrencesOf j → i = j := by
  obtain ⟨r, hr⟩ := (parse_eq_ok_iff.mp h).recordedBy
  refine ⟨r, hr, fun before group after hg i hi j hj hbi hbj hoi hoj => ?_⟩
  obtain ⟨past, t, -, hrun⟩ := hr.run
  exact (Replay.run_grouped hrun).user_unique (groupIndex?_eq_some hg hi hbi)
    (groupIndex?_eq_some hg hj hbj) hoi hoj

/-- The packer's first group has one used member. -/
theorem user_unique_of_parse_packer : ∃ args r,
    Sample.packer.grammar.parse true ["--raw", "--tar"] = .ok args ∧
    Sample.packer.grammar.RecordedBy true ["--raw", "--tar"] args r ∧
    ∀ before group after, Sample.packer.grammar.groups = before ++ group :: after →
      ∀ i ∈ group, ∀ j ∈ group, i ∉ before.flatten → j ∉ before.flatten →
        0 < r.occurrencesOf i → 0 < r.occurrencesOf j → i = j := by
  obtain ⟨args, h, -⟩ := map_eq_ok.mp (show (Sample.packer.grammar.parse true
    ["--raw", "--tar"]).map (·.has "tar") = .ok true from rfl)
  obtain ⟨r, hr⟩ := user_unique_of_parse h
  exact ⟨args, r, h, hr⟩

/-- The packer's second group has two used members: the flag that the groups share is looked up in
the first. -/
theorem users_of_shared_flag : Sample.packer.build = .ok Sample.packer.grammar ∧
    ["tar", "raw"] ∈ Sample.packer.groups ∧ ∃ args,
      Sample.packer.grammar.parse true ["--raw", "--tar"] = .ok args ∧
      args.count "tar" = 1 ∧ args.count "raw" = 1 := by
  refine ⟨rfl, by simp [Sample.packer], ?_⟩
  obtain ⟨args, h, hcounts⟩ := map_eq_ok.mp (show (Sample.packer.grammar.parse true
    ["--raw", "--tar"]).map (fun args => (args.count "tar", args.count "raw")) = .ok (1, 1) from rfl)
  obtain ⟨htar, hraw⟩ := Prod.mk.inj hcounts
  exact ⟨args, h, htar, hraw⟩

end Tabwise.Grammar
