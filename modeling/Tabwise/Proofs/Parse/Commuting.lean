import Tabwise.Proofs.Grammar.Names
import Tabwise.Proofs.Parse.Collect
import Tabwise.Proofs.Replay.Ahead

/-! # Flags that can stand anywhere

A flag without values says the same wherever it stands, even between the values of a positional. To
give it once more, at any place where flags are on and no other flag waits for values, counts it
once more and changes nothing else: neither what the line parses to nor the error if it does not.
-/

namespace Tabwise

variable {g : Grammar} {abbreviated : Bool} {r r' : Replay} {t : Trace} {name : String}
  {positionals tokens : List String} {subcommand : Option (String × Args)} {f : Nat}

/-- Both parses fail with the same error, or the second differs from the first in having one name
counted once more. -/
inductive OnceMore (name : String) : Except ParseError Args → Except ParseError Args → Prop
  | error (e : ParseError) : OnceMore name (.error e) (.error e)
  | ok {args args' : Args} : args'.values = args.values → args'.positionals = args.positionals →
      args'.subcommand = args.subcommand → args'.help = args.help →
      (∀ other, args'.count other = args.count other + if other = name then 1 else 0) →
      OnceMore name (.ok args) (.ok args')

namespace Grammar

/-- A flag without values that need not be given and that no group lists. -/
structure Free (g : Grammar) (f : Nat) : Prop where
  action : (g.argument f).action = .storeTrue ∨ (g.argument f).action = .count
  isFlag : (g.argument f).isFlag = true
  optional : (g.argument f).isRequired = false
  ungrouped : ∀ group ∈ g.groups, f ∉ group

theorem Free.maxArgs (h : g.Free f) : (g.argument f).maxArgs = some 0 := by
  obtain ⟨aliases, hk⟩ := Argument.isFlag_iff.mp h.isFlag
  rcases h.action with ha | ha <;> simp [Argument.maxArgs, hk, ha, Action.takesValues]

theorem Free.groupIndex? (h : g.Free f) : g.groupIndex? f = none := by
  rw [Grammar.groupIndex?, List.findIdx?_eq_none_iff]
  intro group hg
  simpa using h.ungrouped group hg

theorem Free.mandatory (h : g.Free f) : (g.argument f).mandatory = false := by
  obtain ⟨aliases, hk⟩ := Argument.isFlag_iff.mp h.isFlag
  simpa [Argument.isRequired, hk] using h.optional

theorem Free.helpGiven (h : g.Free f) (ha : Replay.Ahead f r r') :
    g.helpGiven r' = g.helpGiven r := by
  unfold Grammar.helpGiven
  congr 1
  funext i
  by_cases hi : i = f
  · subst hi
    rcases h.action with hact | hact <;> simp [hact]
  · rw [ha.occurrences i, if_neg hi, Nat.add_zero]

theorem Free.missing? (h : g.Free f) (ha : Replay.Ahead f r r') :
    g.missing? r' = g.missing? r := by
  have hflags : (fun i => (g.argument i).isFlag && (g.argument i).mandatory &&
      r'.occurrencesOf i == 0) = fun i => (g.argument i).isFlag && (g.argument i).mandatory &&
        r.occurrencesOf i == 0 := by
    funext i
    by_cases hi : i = f
    · simp [hi, h.mandatory]
    · rw [ha.occurrences i, if_neg hi, Nat.add_zero]
  unfold Grammar.missing?
  rw [hflags, ha.same]

theorem Free.validate (h : g.Free f) (ha : Replay.Ahead f r r') :
    g.validate r' = g.validate r := by
  unfold Grammar.validate
  rw [h.missing? ha, Grammar.unlisted?, Replay.unfinishedFlag?, ha.same]
  rfl

theorem count_collect_of_undeclared (hn : ∀ i ∈ g.ids, (g.argument i).dest ≠ name) :
    (g.collect r positionals subcommand).count name = 0 := by
  rw [Args.count, InsertionMap.findD]
  cases hfind : (g.collect r positionals subcommand).counts.find? name with
  | none => rfl
  | some n =>
    rcases InsertionMap.mem_extend (InsertionMap.mem_of_find? hfind) with he | he
    · cases he
    · obtain ⟨i, hi, he⟩ := List.mem_map.mp he
      exact absurd (congrArg Prod.fst he) (hn i (List.mem_filter.mp hi).1)

theorem count_collect_ahead (hd : (g.arguments.map (·.dest)).Nodup) (hf : f ∈ g.ids)
    (ha : Replay.Ahead f r r') (name : String) :
    (g.collect r' positionals subcommand).count name =
      (g.collect r positionals subcommand).count name +
        if name = (g.argument f).dest then 1 else 0 := by
  by_cases hn : ∀ i ∈ g.ids, (g.argument i).dest ≠ name
  · rw [count_collect_of_undeclared hn, count_collect_of_undeclared hn, if_neg (hn f hf).symm]
  · push Not at hn
    obtain ⟨i, hi, rfl⟩ := hn
    rw [count_collect hd hi, count_collect hd hi, ha.occurrences i]
    by_cases hif : i = f
    · simp [hif]
    · rw [if_neg hif, if_neg fun he => hif (place_of_dest hd hi hf he)]

theorem Free.finish (h : g.Free f) (hd : (g.arguments.map (·.dest)).Nodup) (hf : f ∈ g.ids)
    (ha : Replay.Ahead f r r') (positionals : List String) (subcommand : Option (String × Args)) :
    OnceMore (g.argument f).dest (g.finish r positionals subcommand)
      (g.finish r' positionals subcommand) := by
  have hcollect : OnceMore (g.argument f).dest (.ok (g.collect r positionals subcommand))
      (.ok (g.collect r' positionals subcommand)) := by
    refine .ok ?_ rfl rfl (h.helpGiven ha) (count_collect_ahead hd hf ha)
    rw [collect, collect, Replay.given, Replay.given, ha.same]
  unfold Grammar.finish
  rw [h.helpGiven ha, h.validate ha]
  cases g.helpGiven r with
  | true => exact hcollect
  | false =>
    cases g.validate r with
    | error e => exact .error e
    | ok u => exact hcollect

/-- From where one replay is ahead the rest of the line parses to the same but for the count. -/
theorem Free.parseFrom (h : g.Free f) (hd : (g.arguments.map (·.dest)).Nodup) (hf : f ∈ g.ids)
    (ha : Replay.Ahead f r r') (abbreviated : Bool) (positionals tokens : List String) :
    OnceMore (g.argument f).dest (g.parseFrom abbreviated r positionals tokens)
      (g.parseFrom abbreviated r' positionals tokens) := by
  induction tokens generalizing r r' positionals with
  | nil => exact h.finish hd hf ha positionals none
  | cons token rest ih =>
    rw [Grammar.parseFrom, Grammar.parseFrom]
    cases hs : r.step g abbreviated token with
    | error m =>
      rw [Replay.step_eq_error_iff.mpr (ha.stuck (Replay.step_eq_error_iff.mp hs))]
      exact .error _
    | ok next =>
      obtain ⟨st, r₁⟩ := next
      -- both replays take the same step, and the second one is still ahead
      obtain ⟨r₁', hm, h₁⟩ := ha.move (Replay.Move.of_step hs)
      rw [hm.step_eq]
      cases st with
      | unknownFlag => exact .error _
      | extra => exact .error _
      | unknownSubcommand i => exact .error _
      | separator => exact ih h₁ positionals
      | flag i => exact ih h₁ positionals
      | value i => exact ih h₁ _
      | subcommand i c =>
        change OnceMore _ (_ >>= _) (_ >>= _)
        cases Grammar.parseFrom abbreviated c.grammar (.start c.grammar) [] rest with
        | error e => exact .error e
        | ok nested => exact h.finish hd hf h₁ positionals _

/-- A flag that is free to stand anywhere counts once more and changes nothing else. -/
theorem onceMore_of_free (hb : g.Built) (hd : (g.arguments.map (·.dest)).Nodup) (hfree : g.Free f)
    (hname : name ∈ (g.argument f).aliases) (hne : name ≠ "--") {before : List String}
    (hrun : (Replay.start g).run g abbreviated before = .ok (t, r))
    (ht : ∀ e ∈ t, e.2.delegates = false) (hopen : r.openFlag = none) (hoff : r.flagsOff = false)
    (after : List String) :
    OnceMore (g.argument f).dest (g.parse abbreviated (before ++ after))
      (g.parse abbreviated (before ++ name :: after)) := by
  have hw := hb.everywhere_wellNamed.here
  have hf := mem_ids_of_isFlag hfree.isFlag
  have hflag : (name, f) ∈ g.flags := mem_flags.mpr ⟨mem_ids.mp hf, hname⟩
  have huse : { r with openFlag := none }.useGroup g f = .ok r := by
    rw [← hopen]
    exact Replay.useGroup_eq_ok.mpr (.inl ⟨hfree.groupIndex?, rfl⟩)
  have hm : Replay.Move g abbreviated r name (.flag f) (r.enterFlag g f) :=
    .flag f r (((Replay.coherent_start g).of_run hrun).unlocked hoff)
      ⟨hoff, hne, hw.looksLikeFlag hflag⟩ (by rw [Replay.unfinishedFlag?, hopen]; rfl)
      (hw.lookupFlag hflag) huse
  have hahead := Replay.ahead_of_valueless hfree.action hfree.maxArgs r
  have hnext (positionals : List String) : OnceMore (g.argument f).dest
      (g.parseFrom abbreviated r positionals after)
      (g.parseFrom abbreviated r positionals (name :: after)) := by
    rw [parseFrom_of_continues hm rfl]
    have hrest := hfree.parseFrom hd hf hahead abbreviated positionals after
    simpa [Step.isPositional] using hrest
  exact parseFrom_related hrun ht OnceMore.error hnext []

/-- Between the sources of the copier one more verbosity is counted. -/
theorem onceMore_of_free_copier : ∃ t r,
    (Sample.copier.grammar.arguments.map (·.dest)).Nodup ∧ Sample.copier.grammar.Free 0 ∧
    "-v" ∈ (Sample.copier.grammar.argument 0).aliases ∧
    (Replay.start Sample.copier.grammar).run Sample.copier.grammar true ["a"] = .ok (t, r) ∧
    (∀ e ∈ t, e.2.delegates = false) ∧ r.openFlag = none ∧ r.flagsOff = false ∧
    OnceMore "verbose"
      (Sample.copier.grammar.parse true (["a"] ++ ["b", "c", "--verb", "fast", "d"]))
      (Sample.copier.grammar.parse true (["a"] ++ "-v" :: ["b", "c", "--verb", "fast", "d"])) := by
  obtain ⟨⟨t, r⟩, h, hchecks⟩ := map_eq_ok.mp (show ((Replay.start Sample.copier.grammar).run
    Sample.copier.grammar true ["a"]).map (fun x =>
      (x.1.all (!·.2.delegates), x.2.openFlag, x.2.flagsOff)) = .ok (true, none, false) from rfl)
  obtain ⟨hall, hchecks⟩ := Prod.mk.inj hchecks
  obtain ⟨hopen, hoff⟩ := Prod.mk.inj hchecks
  have ht : ∀ e ∈ t, e.2.delegates = false := by simpa using hall
  have hd : (Sample.copier.grammar.arguments.map (·.dest)).Nodup := by decide
  have hfree : Sample.copier.grammar.Free 0 := ⟨.inr rfl, rfl, rfl, fun _ hg => by cases hg⟩
  have hname : "-v" ∈ (Sample.copier.grammar.argument 0).aliases := by decide
  exact ⟨t, r, hd, hfree, hname, h, ht, hopen, hoff,
    onceMore_of_free Sample.copier_built hd hfree hname (by decide) h ht hopen hoff _⟩

end Grammar

end Tabwise
