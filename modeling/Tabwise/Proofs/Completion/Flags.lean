import Tabwise.Proofs.Completion.Answers
import Tabwise.Proofs.Grammar.Names
import Tabwise.Proofs.Replay.Exclusion

/-! # The flags that are offered

A flag is offered if it may be given now: it is not hidden, was not used up and is not excluded by
an argument that was used. The replay keeps book of this in its matched flags. Grouping the
offered aliases by flag leaves them in order of declaration, and the replay takes every one of
them as its own flag.
-/

namespace Tabwise

variable {g : Grammar} {o : Options} {abbreviated : Bool} {r : Replay} {tokens : List String}
  {t : Trace} {text name : String} {i : Nat} {context : Context}

def Replay.excludes (g : Grammar) (r : Replay) (i : Nat) : Bool :=
  g.ids.any fun user => 0 < r.occurrencesOf user && g.rivals user i

theorem Replay.excludes_iff (ha : Accounted g t r) :
    r.excludes g i = true ↔ Excluded g r i := by
  rw [excludes, List.any_eq_true]
  constructor
  · rintro ⟨user, -, h⟩
    simp only [Bool.and_eq_true, decide_eq_true_eq] at h
    exact ⟨user, h⟩
  · rintro ⟨user, ho, hr⟩
    exact ⟨user, Grammar.mem_ids.mpr (ha.declared user ho), by simp [ho, hr]⟩

namespace Completion

/-- Whether an alias completes the text and its flag may be given now: it is shown, was not used
unless it may be repeated, and is not excluded. -/
def mayFollow (g : Grammar) (o : Options) (r : Replay) (text : String) (f : String × Nat) : Bool :=
  o.accepts f.1 text && !(g.argument f.2).hidden &&
    (r.occurrencesOf f.2 = 0 || (g.argument f.2).action.isRepeatable) && !r.excludes g f.2

/-- The aliases that may follow, each with its flag, in order of declaration. -/
def following (g : Grammar) (o : Options) (r : Replay) (text : String) : List (String × Nat) :=
  g.flags.filter (mayFollow g o r text)

/-- The aliases of one argument that may follow. -/
def followingOf (g : Grammar) (o : Options) (r : Replay) (text : String) (i : Nat) : List String :=
  (g.argument i).aliases.filter fun name => mayFollow g o r text (name, i)

/-- The answer that offers what may follow. A flag has one line with those of its names that are
offered, in brackets unless it must be given. -/
def flagsAnswer (g : Grammar) (o : Options) (r : Replay) (text : String) : Outcome :=
  if (following g o r text).isEmpty then .nothing
  else .candidates {
    candidates := (following g o r text).map fun f => .plain f.1
    display := (g.ids.filter fun i => !(followingOf g o r text i).isEmpty).map fun i =>
      let names := ", ".intercalate (followingOf g o r text i)
      if (g.argument i).mandatory then names else "[" ++ names ++ "]" }

def addAlias (groups : InsertionMap Nat (List String)) (f : String × Nat) :
    InsertionMap Nat (List String) :=
  groups.update f.2 [] (· ++ [f.1])

theorem put_append {entries rest : List (Nat × List String)} (hi : i ∉ entries.map (·.1))
    (names : List String) :
    InsertionMap.put i names (entries ++ rest) = entries ++ InsertionMap.put i names rest := by
  induction entries with
  | nil => rfl
  | cons e entries ih =>
    obtain ⟨j, w⟩ := e
    rw [List.map_cons, List.mem_cons, not_or] at hi
    rw [List.cons_append, InsertionMap.put, if_neg (Ne.symm hi.1), ih hi.2, List.cons_append]

def groupOf (i : Nat) (names : List String) : List (Nat × List String) :=
  if names.isEmpty then [] else [(i, names)]

theorem addAlias_groupOf {entries : List (Nat × List String)} (hi : i ∉ entries.map (·.1))
    (names : List String) (name : String) :
    addAlias ⟨entries ++ groupOf i names⟩ (name, i) = ⟨entries ++ groupOf i (names ++ [name])⟩ := by
  have hnone : entries.lookup i = none := InsertionMap.lookup_eq_none hi
  have hkept : (InsertionMap.mk (entries ++ groupOf i names)).findD i [] = names := by
    rw [InsertionMap.findD, InsertionMap.find?, List.lookup_append, hnone]
    cases names <;> simp [groupOf]
  rw [addAlias, InsertionMap.update, hkept, InsertionMap.insert, put_append hi]
  cases names <;> simp [groupOf, InsertionMap.put]

theorem foldl_addAlias {entries : List (Nat × List String)} (hi : i ∉ entries.map (·.1))
    (names : List String) :
    (names.map (·, i)).foldl addAlias ⟨entries⟩ = ⟨entries ++ groupOf i names⟩ := by
  induction names using List.reverseRecOn with
  | nil => simp [groupOf]
  | append_singleton names name ih =>
    rw [List.map_append, List.foldl_append, ih]
    exact addAlias_groupOf hi names name

/-- Aliases that come argument by argument make one group for each. -/
theorem foldl_addAlias_flatMap {ids : List Nat} (hn : ids.Nodup) (names : Nat → List String)
    {entries : List (Nat × List String)} (hi : ∀ i ∈ ids, i ∉ entries.map (·.1)) :
    (ids.flatMap fun i => (names i).map (·, i)).foldl addAlias ⟨entries⟩ =
      ⟨entries ++ ids.flatMap fun i => groupOf i (names i)⟩ := by
  induction ids generalizing entries with
  | nil => simp
  | cons i ids ih =>
    rw [List.forall_mem_cons] at hi
    obtain ⟨hout, hn⟩ := List.nodup_cons.mp hn
    rw [List.flatMap_cons, List.foldl_append, foldl_addAlias hi.1, ih hn, List.flatMap_cons,
      List.append_assoc]
    intro j hj hmem
    rw [List.map_append, List.mem_append] at hmem
    rcases hmem with hmem | hmem
    · exact hi.2 j hj hmem
    · have hji : j = i := by
        unfold groupOf at hmem
        split at hmem
        · cases hmem
        · simpa using hmem
      exact hout (hji ▸ hj)

theorem filter_flags (p : String × Nat → Bool) : g.flags.filter p =
    g.ids.flatMap fun i => ((g.argument i).aliases.filter fun name => p (name, i)).map (·, i) := by
  rw [Grammar.flags, List.filter_flatMap]
  simp [List.filter_map, Function.comp_def]

/-- The replay's book of matched flags says which flags may still be given. -/
theorem offersAlias_eq (hg : Replay.Grouped g r) (ha : Replay.Accounted g t r) {f : String × Nat}
    (hf : f ∈ g.flags) : offersAlias g o r text f = mayFollow g o r text f := by
  have hflag := Grammar.argument_isFlag_of_mem_aliases (Grammar.mem_flags.mp hf).2
  have hmatched : r.isMatched f.2 =
      (!decide (r.occurrencesOf f.2 = 0) && !(g.argument f.2).action.isRepeatable ||
        r.excludes g f.2) := by
    rw [Bool.eq_iff_iff, Replay.isMatched, List.contains_iff_mem, hg.matched f.2 hflag,
      ← Replay.excludes_iff ha]
    simp [Nat.pos_iff_ne_zero]
  rw [offersAlias, mayFollow, hmatched, Bool.not_or, Bool.not_and, Bool.not_not, Bool.not_not]
  ac_rfl

theorem offeredFlags_eq (hg : Replay.Grouped g r) (ha : Replay.Accounted g t r) :
    offeredFlags g o r text = ⟨g.ids.flatMap fun i => groupOf i (followingOf g o r text i)⟩ := by
  have hfilter : g.flags.filter (offersAlias g o r text) =
      g.ids.flatMap fun i => (followingOf g o r text i).map (·, i) := by
    rw [List.filter_congr fun f hf => offersAlias_eq hg ha hf, filter_flags]
    rfl
  rw [offeredFlags, hfilter]
  exact foldl_addAlias_flatMap List.nodup_range _ fun i _ hi => by cases hi

theorem flatMap_groupOf (ids : List Nat) (names : Nat → List String) :
    (ids.flatMap fun i => groupOf i (names i)) =
      (ids.filter fun i => !(names i).isEmpty).map fun i => (i, names i) := by
  induction ids with
  | nil => rfl
  | cons i ids ih =>
    rw [List.flatMap_cons, ih]
    cases h : names i <;> simp [groupOf, h]

theorem isFlag_of_followingOf (h : (followingOf g o r text i).isEmpty = false) :
    (g.argument i).isFlag = true := by
  obtain ⟨name, hname⟩ := List.exists_mem_of_ne_nil _ (List.isEmpty_eq_false_iff.mp h)
  exact Grammar.argument_isFlag_of_mem_aliases (List.mem_filter.mp hname).1

theorem flagLine_eq (h : (g.argument i).isFlag = true) (names : List String) :
    flagLine g (i, names) = if (g.argument i).mandatory then ", ".intercalate names
      else "[" ++ ", ".intercalate names ++ "]" := by
  have hrequired : (g.argument i).isRequired = (g.argument i).mandatory := by
    rw [Argument.isFlag] at h
    rw [Argument.isRequired]
    cases hk : (g.argument i).kind <;> simp [hk] at h ⊢
  rw [flagLine, hrequired]
  rfl

/-- The answer lists what may follow, one line for each flag that has any. -/
theorem flagNames_eq (hg : Replay.Grouped g r) (ha : Replay.Accounted g t r) :
    flagNames g o r text = flagsAnswer g o r text := by
  have hfollowing : following g o r text =
      g.ids.flatMap fun i => (followingOf g o r text i).map (·, i) := filter_flags _
  have hnames : (offeredFlags g o r text).values.flatten = (following g o r text).map (·.1) := by
    rw [offeredFlags_eq hg ha, hfollowing, InsertionMap.values, ← List.flatMap_def,
      List.flatMap_assoc, List.map_flatMap]
    refine List.flatMap_congr fun i _ => ?_
    cases h : followingOf g o r text i <;> simp [groupOf, Function.comp_def]
  have hempty : (offeredFlags g o r text).entries.isEmpty = (following g o r text).isEmpty := by
    rw [offeredFlags_eq hg ha, flatMap_groupOf, hfollowing, Bool.eq_iff_iff]
    simp [List.filter_eq_nil_iff, List.flatMap_eq_nil_iff]
  rw [flagNames, flagsAnswer, hempty, hnames, offeredFlags_eq hg ha, flatMap_groupOf, List.map_map,
    List.map_map]
  congr 3
  apply List.map_congr_left
  intro i hi
  have hoffered : (followingOf g o r text i).isEmpty = false := by
    simpa using (List.mem_filter.mp hi).2
  exact flagLine_eq (isFlag_of_followingOf hoffered) _

/-- An alias is taken as its flag while flags are on, unless the open flag lacks values or the flag
is excluded. -/
theorem step_of_alias (hc : Replay.Coherent g r) (hg : Replay.Grouped g r) (hw : g.WellNamed)
    (hoff : r.flagsOff = false) (hu : r.unfinishedFlag? = none) (hf : (name, i) ∈ g.flags)
    (hne : name ≠ "--") (hx : ¬Replay.Excluded g r i) :
    ∃ r', r.step g abbreviated name = .ok (.flag i, r') := by
  have hclosed : Replay.Grouped g { r with openFlag := none } :=
    hg.of_eq rfl rfl rfl fun i hi => hi
  obtain ⟨r₁, huse⟩ := hclosed.useGroup hx
  have hm : Replay.Move g abbreviated r name (.flag i) _ :=
    .flag i r₁ (hc.unlocked hoff) ⟨hoff, hne, hw.looksLikeFlag hf⟩ hu (hw.lookupFlag hf) huse
  exact ⟨_, hm.step_eq⟩

/-- Where flag names are completed, the answer lists what may follow, each alias once, and each of
them is taken as its flag. A flag has one line with the names of it that are offered. -/
theorem flags_of_namesFlags (hb : g.Built)
    (hrun : (Replay.start g).run g o.abbreviated tokens = .ok (t, r))
    (hn : NamesFlags g o r context) :
    completeLast g o r context = .ok (flagsAnswer g o r context.text) ∧
    ((following g o r context.text).map (·.1)).Nodup ∧
    ∀ f ∈ following g o r context.text, f.1 ≠ "--" →
      ∃ r', r.step g o.abbreviated f.1 = .ok (.flag f.2, r') := by
  have hw : g.WellNamed := hb.everywhere_wellNamed.here
  have hg := Replay.run_grouped hrun
  have ha := Replay.run_accounted hrun
  refine ⟨?_, ?_, fun f hf hne => ?_⟩
  · rw [completeLast_of_namesFlags hn, flagNames_eq hg ha]
  · have hsub : ((following g o r context.text).map (·.1)).Sublist (g.flags.map (·.1)) :=
      List.filter_sublist.map _
    rw [Grammar.map_fst_flags] at hsub
    exact hsub.nodup hw.nodup
  · obtain ⟨hdeclared, hmay⟩ := List.mem_filter.mp hf
    have hx : ¬Replay.Excluded g r f.2 := by
      rw [← Replay.excludes_iff ha]
      simp only [mayFollow, Bool.and_eq_true, Bool.not_eq_true'] at hmay
      simp [hmay.2]
    exact step_of_alias ((Replay.coherent_start g).of_run hrun) hg hw hn.flagsOn hn.finished
      hdeclared hne hx

/-- After a dry run only the shelf may follow, which must be given: the dry run was used, and it
excludes force. The flags of a runner can be left out, and those with two names are listed with
both. -/
theorem flags_of_namesFlags_library :
    (∃ t r, (Replay.start Sample.library.grammar).run Sample.library.grammar true ["--dry-run"] =
        .ok (t, r) ∧
      NamesFlags Sample.library.grammar {} r ⟨"--", "", 0, 0, .empty⟩ ∧
      completeLast Sample.library.grammar {} r ⟨"--", "", 0, 0, .empty⟩ =
        .ok (.candidates { candidates := [.plain "--shelf"], display := ["--shelf"] }) ∧
      ∃ r', r.step Sample.library.grammar true "--shelf" = .ok (.flag 2, r')) ∧
    ∃ t r, (Replay.start Sample.runner.grammar).run Sample.runner.grammar true
        ["-h", "-e", "a", "b", "-t", "a"] = .ok (t, r) ∧
      NamesFlags Sample.runner.grammar {} r ⟨"-", "", 0, 0, .empty⟩ ∧
      completeLast Sample.runner.grammar {} r ⟨"-", "", 0, 0, .empty⟩ =
        .ok (.candidates {
          candidates := ["-v", "--verbose", "-t", "--tag", "-q"].map .plain
          display := ["[-v, --verbose]", "[-t, --tag]", "[-q]"] }) := by
  constructor
  · obtain ⟨⟨t, r⟩, h, hchecks⟩ := map_eq_ok.mp (show ((Replay.start Sample.library.grammar).run
      Sample.library.grammar true ["--dry-run"]).map (fun x => (x.2.flagsOff, x.2.unfinishedFlag?,
        following Sample.library.grammar {} x.2 "--",
        flagsAnswer Sample.library.grammar {} x.2 "--")) = .ok (false, none, [("--shelf", 2)],
          .candidates { candidates := [.plain "--shelf"], display := ["--shelf"] }) from rfl)
    obtain ⟨hoff, hchecks⟩ := Prod.mk.inj hchecks
    obtain ⟨hu, hchecks⟩ := Prod.mk.inj hchecks
    obtain ⟨hfollowing, hoffers⟩ := Prod.mk.inj hchecks
    have hn : NamesFlags Sample.library.grammar {} r ⟨"--", "", 0, 0, .empty⟩ :=
      ⟨hoff, hu, .inl (by decide)⟩
    obtain ⟨hanswer, -, htaken⟩ := flags_of_namesFlags Sample.library_built h hn
    have hshelf : ("--shelf", 2) ∈ following Sample.library.grammar {} r "--" := by
      rw [hfollowing]
      exact List.mem_singleton_self _
    exact ⟨t, r, h, hn, hanswer.trans (congrArg _ hoffers), htaken _ hshelf (by decide)⟩
  · obtain ⟨⟨t, r⟩, h, hchecks⟩ := map_eq_ok.mp (show ((Replay.start Sample.runner.grammar).run
      Sample.runner.grammar true ["-h", "-e", "a", "b", "-t", "a"]).map (fun x => (x.2.flagsOff,
        x.2.unfinishedFlag?, (slot? Sample.runner.grammar x.2 "-").map fun s =>
          (values Sample.runner.grammar {} x.2 ⟨"-", "", 0, 0, .empty⟩ s).map (·.candidates),
        flagsAnswer Sample.runner.grammar {} x.2 "-")) = .ok (false, none, some (.ok []),
          .candidates {
            candidates := ["-v", "--verbose", "-t", "--tag", "-q"].map .plain
            display := ["[-v, --verbose]", "[-t, --tag]", "[-q]"] }) from rfl)
    obtain ⟨hoff, hchecks⟩ := Prod.mk.inj hchecks
    obtain ⟨hu, hchecks⟩ := Prod.mk.inj hchecks
    obtain ⟨hslot, hoffers⟩ := Prod.mk.inj hchecks
    have hnone : ∀ s, slot? Sample.runner.grammar r "-" = some s → ∃ c,
        values Sample.runner.grammar {} r ⟨"-", "", 0, 0, .empty⟩ s = .ok c ∧
          c.candidates = [] := by
      intro s hs
      rw [hs] at hslot
      exact map_eq_ok.mp (Option.some.inj hslot)
    have hn : NamesFlags Sample.runner.grammar {} r ⟨"-", "", 0, 0, .empty⟩ :=
      ⟨hoff, hu, .inr ⟨by decide, hnone⟩⟩
    obtain ⟨hanswer, -⟩ := flags_of_namesFlags Sample.runner_built h hn
    exact ⟨t, r, h, hn, hanswer.trans (congrArg _ hoffers)⟩

end Completion

end Tabwise
