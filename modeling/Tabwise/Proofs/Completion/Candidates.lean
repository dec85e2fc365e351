import Tabwise.Proofs.Completion.Flags
import Tabwise.Proofs.Completion.Levels
import Tabwise.Proofs.Completion.Values
import Tabwise.Proofs.Replay.Record

/-! # What candidates are

Candidates complete the text under the cursor, whatever their source and however deep the level is
that they come from. The values of an argument are exactly those of its source that do so and that
the current occurrence of the argument has not taken yet.
-/

namespace Tabwise

open Completion

variable {g : Grammar} {o : Options} {q : Request} {parents : Given} {r : Replay}
  {context : Context} {s : Slot} {c : Completions} {t : Trace} {l : Level} {text : String}
  {tokens own : List String} {all : List Candidate}

theorem Argument.resolve_of_source {a : Argument} (h : a.source context = .ok all)
    (consumed : List String) : ∃ presorted, (a.choices.isPresorted = false → presorted = false) ∧
      a.resolve consumed context =
        .ok (all.filter fun v => !consumed.contains v.value, presorted) := by
  unfold source at h
  unfold resolve
  cases hs : a.subcommands? with
  | some set =>
    rw [hs] at h
    cases h
    exact ⟨false, fun _ => rfl, rfl⟩
  | none =>
    rw [hs] at h
    exact ⟨a.choices.isPresorted, id, by
      simp [h, Except.map, bind, Except.bind, pure, Except.pure]⟩

namespace Completion

theorem accepts_of_values (h : values g o r context s = .ok c) :
    ∀ v ∈ c.candidates, o.accepts v.value context.text = true := by
  intro v hv
  obtain ⟨all, -, hperm⟩ := values_perm h
  have hkept := (List.mem_filter.mp (hperm.mem_iff.mp hv)).2
  exact (Bool.and_eq_true_iff.mp hkept).1

theorem accepts_of_flagNames (hg : Replay.Grouped g r) (ha : Replay.Accounted g t r)
    (h : flagNames g o r text = .candidates c) :
    c.candidates ≠ [] ∧ ∀ v ∈ c.candidates, o.accepts v.value text = true := by
  rw [flagNames_eq hg ha, flagsAnswer] at h
  split at h
  · cases h
  · next hsome =>
    cases h
    refine ⟨by simpa using hsome, fun v hv => ?_⟩
    obtain ⟨f, hf, rfl⟩ := List.mem_map.mp hv
    have hmay := (List.mem_filter.mp hf).2
    simp only [mayFollow, Bool.and_eq_true] at hmay
    exact hmay.1.1.1

theorem accepts_of_completeTokens (h : completeTokens g o parents q tokens = .ok (.candidates c)) :
    c.candidates ≠ [] ∧ ∀ v ∈ c.candidates, o.accepts v.value q.text = true := by
  rcases completeTokens_cases g o parents q tokens with ⟨m, hm⟩ | hnothing | ⟨l, hl, heq⟩
  · cases h.symm.trans hm
  · cases h.symm.trans hnothing
  · obtain ⟨own, t, -, hrun, -⟩ := hl.run
    rcases completeLast_eq_candidates.mp (heq.symm.trans h) with ⟨s, -, hv, hsome⟩ | ⟨-, hnames⟩
    · have haccepts := accepts_of_values hv
      exact ⟨hsome, haccepts⟩
    · exact accepts_of_flagNames (Replay.run_grouped hrun) (Replay.run_accounted hrun) hnames

/-- Candidates for a line are never an empty list, and each of them completes the text of the token
under the cursor, with the quotes around it taken off. -/
theorem accepts_of_complete {line : String} {start cursor : Nat}
    (h : complete g o line start cursor = .ok (.candidates c)) :
    ∃ scan, Line.scan line.toList cursor = .ok scan ∧
      c.candidates ≠ [] ∧ ∀ v ∈ c.candidates, o.accepts v.value scan.text = true := by
  unfold complete at h
  split at h
  · cases h
  · next scan hscan =>
    split at h
    · cases h
    · have haccepts := accepts_of_completeTokens h
      exact ⟨scan, hscan, haccepts⟩

/-- An open quote and another case do not hide the tag that is typed at the runner. -/
theorem accepts_of_complete_archive : ∃ c scan,
    complete Sample.archive.grammar { ignoreCase := true }
      "archive lib --shelf top r -t 'A" 29 31 = .ok (.candidates c) ∧
    c.candidates = [.plain "a"] ∧
    Line.scan "archive lib --shelf top r -t 'A".toList 31 = .ok scan ∧
    c.candidates ≠ [] ∧
    ∀ v ∈ c.candidates, Options.accepts { ignoreCase := true } v.value scan.text = true := by
  obtain ⟨out, h, hout⟩ := map_eq_ok.mp (show (complete Sample.archive.grammar
    { ignoreCase := true } "archive lib --shelf top r -t 'A" 29 31).map
      (fun out => out.completions?.map Completions.candidates) = .ok (some [.plain "a"]) from rfl)
  cases out with
  | candidates c =>
    obtain ⟨scan, hscan, hcandidates⟩ := accepts_of_complete h
    exact ⟨c, scan, h, Option.some.inj hout, hscan, hcandidates⟩
  | _ => cases hout

/-- The candidates that complete the text and were not taken. -/
def unused (o : Options) (text : String) (taken : List String) (all : List Candidate) :
    List Candidate :=
  all.filter fun v => o.accepts v.value text && !taken.contains v.value

theorem values_of_source (h : (g.argument s.id).source context = .ok all) :
    ∃ c, values g o r context s = .ok c := by
  obtain ⟨presorted, -, hfound⟩ := Argument.resolve_of_source h (r.consumedBy s.id)
  exact ⟨_, by rw [values, hfound]; rfl⟩

/-- After a run, an argument offers what its current occurrence has not taken. -/
theorem values_perm_unused (hrun : (Replay.start g).run g o.abbreviated own = .ok (t, r))
    (hall : (g.argument s.id).source context = .ok all) (h : values g o r context s = .ok c) :
    c.candidates.Perm (unused o context.text (t.consumed g s.id) all) := by
  obtain ⟨all', hall', hperm⟩ := values_perm h
  cases hall.symm.trans hall'
  rwa [((Replay.run_recorded hrun).2 s.id).consumed] at hperm

theorem completeLast_of_unused (hall : (g.argument s.id).source context = .ok all)
    (hs : slot? g r context.text = some s)
    (hrun : (Replay.start g).run g o.abbreviated own = .ok (t, r))
    (hsome : unused o context.text (t.consumed g s.id) all ≠ []) :
    ∃ c, completeLast g o r context = .ok (.candidates c) ∧
      c.candidates.Perm (unused o context.text (t.consumed g s.id) all) := by
  obtain ⟨c, hv⟩ := values_of_source (o := o) (r := r) hall
  have hperm := values_perm_unused hrun hall hv
  have hne : c.candidates ≠ [] := fun hnil => hsome (List.nil_perm.mp (hnil ▸ hperm))
  exact ⟨c, completeLast_eq_candidates.mpr (.inl ⟨s, hs, hv, hne⟩), hperm⟩

/-- The values that completion offers for an argument are what its source has, the text begins and
the replay has not assigned to it since its flag was last given, or ever if it is a positional. And
if there are any such values, they are offered. -/
theorem unused_of_completeTokens (g : Grammar) (o : Options) (parents : Given) (q : Request)
    (tokens : List String) :
    (∀ c, completeTokens g o parents q tokens = .ok (.candidates c) →
      ∃ l, Reaches o.abbreviated g parents tokens.dropLast l ∧
        ((NamesFlags l.grammar o l.replay (q.context l.given) ∧
            flagNames l.grammar o l.replay q.text = .candidates c) ∨
          ∃ s own t all, slot? l.grammar l.replay q.text = some s ∧ own <:+ tokens.dropLast ∧
            (Replay.start l.grammar).run l.grammar o.abbreviated own = .ok (t, l.replay) ∧
            (l.grammar.argument s.id).source (q.context l.given) = .ok all ∧
            c.candidates.Perm (unused o q.text (t.consumed l.grammar s.id) all))) ∧
    ∀ l s own t all, Reaches o.abbreviated g parents tokens.dropLast l →
      slot? l.grammar l.replay q.text = some s →
      (Replay.start l.grammar).run l.grammar o.abbreviated own = .ok (t, l.replay) →
      (l.grammar.argument s.id).source (q.context l.given) = .ok all →
      unused o q.text (t.consumed l.grammar s.id) all ≠ [] →
      ∃ c, completeTokens g o parents q tokens = .ok (.candidates c) ∧
        c.candidates.Perm (unused o q.text (t.consumed l.grammar s.id) all) := by
  refine ⟨fun c h => ?_, fun l s own t all hl hs hrun hall hsome => ?_⟩
  · rcases completeTokens_cases g o parents q tokens with ⟨m, hm⟩ | hnothing | ⟨l, hl, heq⟩
    · cases h.symm.trans hm
    · cases h.symm.trans hnothing
    · refine ⟨l, hl, ?_⟩
      rcases completeLast_eq_candidates.mp (heq.symm.trans h) with ⟨s, hs, hv, -⟩ | hnames
      · obtain ⟨own, t, hown, hrun, -⟩ := hl.run
        obtain ⟨all, hall, -⟩ := values_perm hv
        have hperm := values_perm_unused hrun hall hv
        exact .inr ⟨s, own, t, all, hs, hown, hrun, hall, hperm⟩
      · exact .inl hnames
  · rw [completeTokens, hl.completeFrom_eq]
    exact completeLast_of_unused hall hs hrun hsome

/-- The tag of the first occurrence is offered to the second, and its own tag is not. -/
theorem unused_of_completeTokens_runner : ∃ c l s own t all,
    completeTokens Sample.runner.grammar {} .empty ⟨"", "", 0, 0⟩ ["-t", "a", "-t", "b", ""] =
      .ok (.candidates c) ∧
    c.candidates.Perm (unused {} "" (t.consumed l.grammar s.id) all) ∧
    t.consumed l.grammar s.id = ["b"] ∧ all = [.plain "a", .plain "b"] ∧
    Reaches true Sample.runner.grammar .empty ["-t", "a", "-t", "b"] l ∧
    slot? l.grammar l.replay "" = some s ∧
    (Replay.start l.grammar).run l.grammar true own = .ok (t, l.replay) ∧
    (l.grammar.argument s.id).source ⟨"", "", 0, 0, l.given⟩ = .ok all ∧
    ∃ l', Reaches true Sample.runner.grammar .empty ["-t", "a", "-t", "b"] l' ∧
      ((NamesFlags l'.grammar {} l'.replay ⟨"", "", 0, 0, l'.given⟩ ∧
          flagNames l'.grammar {} l'.replay "" = .candidates c) ∨
        ∃ s own t all, slot? l'.grammar l'.replay "" = some s ∧
          own <:+ ["-t", "a", "-t", "b"] ∧
          (Replay.start l'.grammar).run l'.grammar true own = .ok (t, l'.replay) ∧
          (l'.grammar.argument s.id).source ⟨"", "", 0, 0, l'.given⟩ = .ok all ∧
          c.candidates.Perm (unused {} "" (t.consumed l'.grammar s.id) all)) := by
  obtain ⟨⟨t, r⟩, hrun, hfacts⟩ := map_eq_ok.mp (show ((Replay.start Sample.runner.grammar).run
    Sample.runner.grammar true ["-t", "a", "-t", "b"]).map (fun p =>
      (p.1.all (!·.2.selects), (slot? Sample.runner.grammar p.2 "").map Slot.id,
        p.1.consumed Sample.runner.grammar 3)) = .ok (true, some 3, ["b"]) from rfl)
  simp only [Prod.mk.injEq] at hfacts
  obtain ⟨hstay, hslot, hconsumed⟩ := hfacts
  obtain ⟨s, hs, hid⟩ := Option.map_eq_some_iff.mp hslot
  have hl : Reaches true Sample.runner.grammar .empty ["-t", "a", "-t", "b"]
      ⟨Sample.runner.grammar, r, InsertionMap.empty.extend (r.given Sample.runner.grammar)⟩ :=
    .here hrun (by simpa using hstay)
  have hall : (Sample.runner.grammar.argument s.id).source
      ⟨"", "", 0, 0, InsertionMap.empty.extend (r.given Sample.runner.grammar)⟩ =
        .ok [.plain "a", .plain "b"] := by
    rw [hid]
    rfl
  have htaken : t.consumed Sample.runner.grammar s.id = ["b"] := hid ▸ hconsumed
  have hsome : unused {} "" (t.consumed Sample.runner.grammar s.id) [.plain "a", .plain "b"] ≠ [] := by
    rw [htaken]
    decide
  have h := unused_of_completeTokens Sample.runner.grammar {} .empty ⟨"", "", 0, 0⟩
    ["-t", "a", "-t", "b", ""]
  obtain ⟨c, hc, hperm⟩ := h.2 _ s _ t _ hl hs hrun hall hsome
  obtain ⟨l, hoffered⟩ := h.1 c hc
  exact ⟨c, _, s, _, t, _, hc, hperm, htaken, rfl, hl, hs, hrun, hall, l, hoffered⟩

end Completion

end Tabwise
