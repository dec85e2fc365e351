import Tabwise.Proofs.Grammar.Sample
import Tabwise.Proofs.Parse.Collect
import Tabwise.Proofs.Replay.Bounds

/-! # Parsed arguments keep what the grammar asks for

Values are checked in different places, depending on how an argument ends, and the checks at the
end of a line see the last state only. Together they make sure that what is required was given,
that numbers of values fit and that values are listed, for the command and for every subcommand.
-/

namespace Tabwise

def Argument.isOrdinary (a : Argument) : Bool :=
  match a.kind with
  | .positional => true
  | _ => false

/-- What parsed arguments promise about one grammar, unless help was asked for. -/
structure Args.Meets (g : Grammar) (args : Args) : Prop where
  required : ∀ a ∈ g.arguments, a.isFlag = true → a.isRequired = true → 1 ≤ args.count a.dest
  selected : ∀ a ∈ g.arguments, ∀ set, a.kind = .selector set → a.isRequired = true →
    1 ≤ args.count a.dest ∧ args.subcommand.isSome = true
  stored : ∀ a ∈ g.arguments, a.isFlag = true → a.action = .store → 1 ≤ args.count a.dest →
    a.Admits 1 (args.getAll a.dest).length
  appended : ∀ a ∈ g.arguments, a.isFlag = true → a.action = .append →
    a.Admits (args.count a.dest) (args.getAll a.dest).length
  filled : ∀ a ∈ g.arguments, a.isOrdinary = true →
    a.Admits 1 (args.getAll a.dest).length ∧
      (args.count a.dest = 0 → args.getAll a.dest = [])
  listed : ∀ a ∈ g.arguments, ∀ values, a.choices.listedValues? = some values →
    ∀ v ∈ args.getAll a.dest, v ∈ values
  positionals : args.positionals =
    (g.arguments.filter (·.isOrdinary)).flatMap fun a => args.getAll a.dest

/-- The promises hold at every level where help was not asked for. The grammar of the next level
is that of the subcommand which the token of the selector picks. -/
inductive Args.Sound : Grammar → Args → Prop
  | line {g : Grammar} {args : Args} : (args.help = false → args.Meets g) →
      args.subcommand = none → Sound g args
  | command {g : Grammar} {args nested : Args} {a : Argument} {set : Subcommands}
      {token : String} {c : Subcommand} : (args.help = false → args.Meets g) →
      a ∈ g.arguments → a.kind = .selector set → args.getAll a.dest = [token] →
      set.select? token = some c → args.subcommand = some (c.name, nested) →
      Sound c.grammar nested → Sound g args

variable {g : Grammar} {abbreviated : Bool} {r : Replay} {t : Trace} {tokens : List String}
  {subcommand : Option (String × Args)} {i : Nat}

theorem Argument.isOrdinary_iff {a : Argument} : a.isOrdinary = true ↔ a.kind = .positional := by
  unfold isOrdinary
  split <;> simp_all

namespace Grammar

structure Passed (g : Grammar) (t : Trace) (r : Replay) : Prop where
  valid : g.Valid
  coherent : Replay.Coherent g r
  recorded : ∀ i, Replay.Recorded g t r i
  accounted : Replay.Accounted g t r
  satisfied : ∀ i, (g.argument i).subcommands? = none → Replay.Satisfied g t r i
  finished : r.unfinishedFlag? = none
  missing : g.missing? r = none
  unlisted : g.unlisted? r = none

theorem passed_of_run (hv : g.Valid) (h : (Replay.start g).run g abbreviated tokens = .ok (t, r))
    (hval : g.validate r = .ok ()) : Passed g t r := by
  obtain ⟨hc, hr⟩ := Replay.run_recorded h
  obtain ⟨hflag, hmissing, hunlisted⟩ := validate_eq_ok.mp hval
  exact ⟨hv, hc, hr, Replay.run_accounted h, Replay.run_satisfied hv h, hflag, hmissing,
    hunlisted⟩

namespace Passed

variable (h : Passed g t r)

include h

theorem enough (hi : (g.argument i).subcommands? = none) (ho : 0 < r.occurrencesOf i) :
    (g.argument i).Admits 1 (r.consumedBy i).length := by
  have hopen := (missing?_eq_none.mp h.missing).2.1
  refine (h.satisfied i hi).current h.coherent ho (fun s hs _ => ?_) fun s hs _ => hopen s hs
  exact Replay.unfinishedFlag?_eq_none.mp h.finished s hs

/-- A positional or selector that has not started can be left out: it waits without being required
or is a member of a group. -/
theorem left_out (hi : i ∈ g.positionals) (ho : r.occurrencesOf i = 0) :
    (g.argument i).isRequired = false ∨ (g.argument i).minArgs = 0 := by
  have hwait := (missing?_eq_none.mp h.missing).2.2
  rcases h.accounted.waiting i hi with hw | hpos | ⟨group, hg, hm⟩
  · exact .inl (hwait i hw)
  · omega
  · have hflag := (mem_positionals.mp hi).2
    refine .inr ((h.valid.member group hg i hm).resolve_left ?_)
    simp [hflag]

theorem flag_given (hi : i ∈ g.ids) (hf : (g.argument i).isFlag = true)
    (hreq : (g.argument i).isRequired = true) : 0 < r.occurrencesOf i := by
  obtain ⟨aliases, hk⟩ := Argument.isFlag_iff.mp hf
  have hmandatory : (g.argument i).mandatory = true := by
    simpa [Argument.isRequired, hk] using hreq
  exact (missing?_eq_none.mp h.missing).1 i hi hf hmandatory

theorem selector_used {set : Subcommands} (hi : i ∈ g.ids)
    (hk : (g.argument i).kind = .selector set) (hreq : (g.argument i).isRequired = true) :
    0 < r.occurrencesOf i := by
  have hflag : (g.argument i).isFlag = false := by simp [Argument.isFlag, hk]
  by_contra ho
  rcases h.left_out (mem_positionals.mpr ⟨mem_ids.mp hi, hflag⟩) (by omega) with hnot | hmin
  · simp [hnot] at hreq
  · simp [Argument.minArgs, hk] at hmin

theorem stored (hf : (g.argument i).isFlag = true) (ha : (g.argument i).action = .store)
    (ho : 0 < r.occurrencesOf i) : (g.argument i).Admits 1 (r.values.findD i []).length := by
  rw [(h.recorded i).kept_store hf ha ho]
  exact h.enough (Argument.subcommands?_of_isFlag hf) ho

theorem appended (hf : (g.argument i).isFlag = true) (ha : (g.argument i).action = .append) :
    (g.argument i).Admits (r.occurrencesOf i) (r.values.findD i []).length := by
  have hnone := Argument.subcommands?_of_isFlag hf
  rw [(h.recorded i).kept_append hf ha]
  by_cases ho : 0 < r.occurrencesOf i
  · exact (h.satisfied i hnone).total hf ho (h.enough hnone ho)
  · have hzero : r.occurrencesOf i = 0 := by omega
    rw [hzero, (h.recorded i).silent hzero]
    exact Argument.admits_zero _

theorem not_started (hk : (g.argument i).kind = .positional) (ho : r.occurrencesOf i = 0) :
    r.values.findD i [] = [] := by
  rw [((h.recorded i).kept_positional hk).1, (h.recorded i).silent ho]

theorem filled (hi : i ∈ g.ids) (hk : (g.argument i).kind = .positional) :
    (g.argument i).Admits 1 (r.values.findD i []).length := by
  by_cases ho : 0 < r.occurrencesOf i
  · have hkept := (h.recorded i).kept_positional hk
    rw [hkept.1, ← hkept.2]
    exact h.enough (Argument.subcommands?_of_kind_positional hk) ho
  · have hzero : r.occurrencesOf i = 0 := by omega
    have hflag := Argument.isFlag_of_kind_positional hk
    have hmin : (g.argument i).minArgs = 0 := by
      rcases h.left_out (mem_positionals.mpr ⟨mem_ids.mp hi, hflag⟩) hzero with hnot | hmin
      · simpa [Argument.isRequired, hk] using hnot
      · exact hmin
    rw [h.not_started hk hzero]
    exact Argument.admits_of_minArgs_zero 1 hmin

theorem listed {listed : List String} (hl : (g.argument i).choices.listedValues? = some listed) :
    ∀ v ∈ r.values.findD i [], v ∈ listed := by
  intro v hv
  cases hfind : r.values.find? i with
  | none => simp [InsertionMap.findD, hfind] at hv
  | some values =>
    have hentry : (i, values) ∈ r.values.entries := InsertionMap.mem_of_find? hfind
    have hmem : v ∈ values := by simpa [InsertionMap.findD, hfind] using hv
    exact unlisted?_eq_none.mp h.unlisted i values hentry listed hl v hmem

end Passed

theorem flatMap_filter_of_nil {l : List Nat} {p : Nat → Bool} {f : Nat → List String}
    (h : ∀ i ∈ l, p i = false → f i = []) : (l.filter p).flatMap f = l.flatMap f := by
  induction l with
  | nil => rfl
  | cons i rest ih =>
    rw [List.forall_mem_cons] at h
    cases hp : p i with
    | false => rw [List.filter_cons_of_neg (by simp [hp]), ih h.2, List.flatMap_cons, h.1 hp,
        List.nil_append]
    | true => rw [List.filter_cons_of_pos hp, List.flatMap_cons, List.flatMap_cons, ih h.2]

theorem filter_isOrdinary (g : Grammar) :
    g.arguments.filter (·.isOrdinary) =
      (g.positionals.filter fun i => (g.argument i).isOrdinary).map g.argument := by
  rw [← map_argument_ids, List.filter_map, positionals, List.filter_filter]
  congr 1
  refine List.filter_congr fun i _ => ?_
  cases ho : (g.argument i).isOrdinary with
  | false => simp [ho]
  | true => simp [ho, Argument.isFlag_of_kind_positional (Argument.isOrdinary_iff.mp ho)]

theorem positionals_eq (hr : ∀ i, Replay.Recorded g t r i) (ha : Replay.Accounted g t r)
    {f : Argument → List String}
    (hf : ∀ i ∈ g.ids, f (g.argument i) = r.values.findD i []) :
    t.positionals g = (g.arguments.filter (·.isOrdinary)).flatMap f := by
  have hselector : ∀ i ∈ g.positionals, (g.argument i).isOrdinary = false →
      t.valuesOf i = [] := by
    intro i hi ho
    have hflag := (mem_positionals.mp hi).2
    cases hk : (g.argument i).kind with
    | flag aliases => simp [Argument.isFlag, hk] at hflag
    | positional => simp [Argument.isOrdinary, hk] at ho
    | selector set => exact (hr i).unvalued set hk
  rw [ha.ordered, ← flatMap_filter_of_nil hselector, filter_isOrdinary, List.flatMap_map]
  refine List.flatMap_congr fun i hi => ?_
  obtain ⟨hi, ho⟩ := List.mem_filter.mp hi
  have hmem : i ∈ g.ids := mem_ids.mpr (mem_positionals.mp hi).1
  rw [hf i hmem]
  exact ((hr i).kept_positional (Argument.isOrdinary_iff.mp ho)).1.symm

/-- The checks at the end turn what a run has kept into promises. -/
theorem meets_of_run (hv : g.Valid) (hd : (g.arguments.map (·.dest)).Nodup)
    (hrun : (Replay.start g).run g abbreviated tokens = .ok (t, r))
    (hsub : ∀ i, t.selections i ≠ [] → subcommand.isSome = true)
    (hval : g.validate r = .ok ()) :
    (g.collect r (t.positionals g) subcommand).Meets g := by
  have h := passed_of_run hv hrun hval
  have hget {i : Nat} (hi : i ∈ g.ids) : (g.collect r (t.positionals g) subcommand).getAll
      (g.argument i).dest = r.values.findD i [] := getAll_collect hd hrun hi
  have hcount {i : Nat} (hi : i ∈ g.ids) : (g.collect r (t.positionals g) subcommand).count
      (g.argument i).dest = r.occurrencesOf i := count_collect hd hi
  constructor
  case required =>
    intro a hmem hf hreq
    obtain ⟨i, hi, rfl⟩ := mem_arguments.mp hmem
    rw [hcount hi]
    exact h.flag_given hi hf hreq
  case selected =>
    intro a hmem set hk hreq
    obtain ⟨i, hi, rfl⟩ := mem_arguments.mp hmem
    have ho := h.selector_used hi hk hreq
    rw [hcount hi]
    exact ⟨ho, hsub i ((h.recorded i).selections_ne_nil hk ho)⟩
  case stored =>
    intro a hmem hf ha ho
    obtain ⟨i, hi, rfl⟩ := mem_arguments.mp hmem
    rw [hcount hi] at ho
    rw [hget hi]
    exact h.stored hf ha ho
  case appended =>
    intro a hmem hf ha
    obtain ⟨i, hi, rfl⟩ := mem_arguments.mp hmem
    rw [hcount hi, hget hi]
    exact h.appended hf ha
  case filled =>
    intro a hmem hord
    obtain ⟨i, hi, rfl⟩ := mem_arguments.mp hmem
    have hk := Argument.isOrdinary_iff.mp hord
    rw [hcount hi, hget hi]
    exact ⟨h.filled hi hk, h.not_started hk⟩
  case listed =>
    intro a hmem listed hl
    obtain ⟨i, hi, rfl⟩ := mem_arguments.mp hmem
    rw [hget hi]
    exact h.listed hl
  case positionals => exact positionals_eq h.recorded h.accounted fun i hi => hget hi

/-- Nothing but a subcommand ends a level early, so a level without one has no selected token. -/
theorem selections_of_continues (ht : ∀ e ∈ t, e.2.continues = true) (i : Nat) :
    t.selections i = [] := by
  rw [Trace.selections, List.map_eq_nil_iff, List.filter_eq_nil_iff]
  intro e he
  have hst := ht e he
  cases hcase : e.2 <;> simp_all [Step.continues, Step.isSelection]

theorem positionals_command {token : String} {id : Nat} {c : Subcommand} :
    Trace.positionals g (t ++ [(token, .subcommand id c)]) = t.positionals g := by
  simp [Step.isPositional]

/-- Parsed arguments are sound for a grammar that is valid at every level. -/
theorem Parses.sound {args : Args} (h : g.Parses abbreviated tokens args)
    (hv : g.Everywhere Valid) (hd : g.DistinctNames) : args.Sound g := by
  induction h with
  | @line g tokens t r args hrun ht hf =>
    obtain ⟨hval, rfl⟩ := finish_eq_ok.mp hf
    refine .line (fun hhelp => ?_) rfl
    refine meets_of_run hv.here hd.here hrun (fun i hi => ?_) (hval hhelp)
    exact absurd (selections_of_continues ht i) hi
  | @command g before rest token t r id c nested args hrun ht _ hf ih =>
    obtain ⟨hval, rfl⟩ := finish_eq_ok.mp hf
    obtain ⟨r₁, -, hm⟩ := Replay.run_concat_eq_ok.mp hrun
    obtain ⟨set, hk, hselect⟩ := hm.selects
    obtain ⟨hc, hr⟩ := Replay.run_recorded hrun
    have hkept : r.values.findD id [] = [token] :=
      (hr id).kept_selector hk (by simp [Step.isSelection])
    have hid : id ∈ g.ids := by
      refine mem_ids.mpr ((Replay.run_accounted hrun).declared id ((hr id).started fun hnone => ?_))
      simp [InsertionMap.findD, hnone] at hkept
    have ha : g.argument id ∈ g.arguments := mem_arguments.mpr ⟨id, hid, rfl⟩
    have hnests : g.Nests c := ⟨_, ha, set, hk, List.mem_of_find?_eq_some hselect⟩
    refine .command (fun hhelp => ?_) ha hk ?_ hselect rfl
      (ih (hv.nested hnests) (hd.nested hnests))
    · rw [← positionals_command]
      exact meets_of_run hv.here hd.here hrun (fun _ _ => rfl) (hval hhelp)
    · rw [getAll_collect hd.here hrun hid, hkept]

/-- An accepted grammar with distinct names parses to sound arguments only. -/
theorem sound_of_parse {args : Args} (hb : g.Built) (hd : g.DistinctNames)
    (h : g.parse abbreviated tokens = .ok args) : args.Sound g :=
  (parse_eq_ok_iff.mp h).sound hb.everywhere_valid hd

/-- A runner is shelved by the alias of its subcommand. -/
theorem sound_of_parse_library : Sample.library.grammar.Built ∧
    Sample.library.grammar.DistinctNames ∧ ∃ args,
      Sample.library.grammar.parse true
        ["--shelf", "top", "r", "-e", "K", "V", "-t", "a", "b", "--", "python", "-x"] =
          .ok args ∧
      args.helpRequested = false ∧ args.Sound Sample.library.grammar := by
  refine ⟨Sample.library_built, Sample.library_distinctNames, ?_⟩
  obtain ⟨args, h, hhelp⟩ := map_eq_ok.mp (show (Sample.library.grammar.parse true
    ["--shelf", "top", "r", "-e", "K", "V", "-t", "a", "b", "--", "python", "-x"]).map
      (·.helpRequested) = .ok false from rfl)
  exact ⟨args, h, hhelp, sound_of_parse Sample.library_built Sample.library_distinctNames h⟩

end Grammar

end Tabwise
