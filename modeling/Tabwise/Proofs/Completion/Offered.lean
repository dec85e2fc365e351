import Tabwise.Proofs.Completion.Answers
import Tabwise.Proofs.Completion.Levels
import Tabwise.Proofs.Completion.Values
import Tabwise.Proofs.Grammar.Names
import Tabwise.Proofs.Replay.Exclusion
import Tabwise.Proofs.Replay.Locks

/-! # Values go where they are offered

Completion offers values for the argument that the replay would give the next value to. A value
that is taken up is assigned to that argument: the positional that is next in line has not been
taken out by its group, no flag is open beside a remainder, and every token that a selector offers
selects a subcommand.
-/

namespace Tabwise

open Completion

variable {g : Grammar} {o : Options} {q : Request} {abbreviated : Bool} {parents : Given}
  {r : Replay} {token text : String} {tokens : List String} {s : Slot} {c : Completions} {l : Level}

/-- The token becomes a value of the argument or, if that is a selector, picks one of its
subcommands. -/
def Replay.Assigns (g : Grammar) (abbreviated : Bool) (r : Replay) (i : Nat) (token : String) :
    Prop :=
  ∃ st r', r.step g abbreviated token = .ok (st, r') ∧
    match (g.argument i).subcommands? with
    | none => st = .value i
    | some set => ∃ command, set.select? token = some command ∧ st = .subcommand i command

namespace Completion

/-- The text would go to the open flag, or else to the open positional, or else to the next in
line. -/
theorem slot?_cases (h : slot? g r text = some s) :
    r.openFlag = some s ∨ (r.openFlag = none ∧ r.openPositional = some s) ∨
      (r.openFlag = none ∧ r.openPositional = none ∧
        ∃ rest, r.remaining = s.id :: rest) := by
  unfold slot? at h
  split at h
  · cases h
  · cases hf : r.openFlag with
    | some f =>
      rw [hf, Option.some_or] at h
      exact .inl h
    | none =>
      rw [hf, Option.none_or, Replay.nextPositional?] at h
      refine .inr ?_
      cases hp : r.openPositional with
      | some p =>
        rw [hp, Option.some_or] at h
        exact .inl ⟨rfl, h⟩
      | none =>
        rw [hp, Option.none_or] at h
        obtain ⟨id, hhead, rfl⟩ := Option.map_eq_some_iff.mp h
        exact .inr ⟨rfl, rfl, List.head?_eq_some_iff.mp hhead⟩

theorem assigns_of_slot (hc : Replay.Coherent g r) (ha : r.Alone) (hg : Replay.Grouped g r)
    (hs : slot? g r text = some s) (ht : token ≠ "--")
    (hv : g.looksLikeFlag token = false ∨ r.flagsOff = true)
    (hsel : ∀ set, (g.argument s.id).subcommands? = some set →
      ∃ command, set.select? token = some command) :
    r.Assigns g abbreviated s.id token := by
  have hread : r.ReadsValue g token := hv.symm.imp_right fun hl => ⟨ht, hl⟩
  have assigned {r' : Replay} (hk : (g.argument s.id).subcommands? = none)
      (hm : Replay.Move g abbreviated r token (.value s.id) r') :
      r.Assigns g abbreviated s.id token := ⟨_, r', hm.step_eq, by rw [hk]⟩
  rcases slot?_cases hs with hf | ⟨hf, hp⟩ | ⟨hf, hp, rest, hr⟩
  · have hk := Argument.subcommands?_of_isFlag (hc.openFlag s hf).2.1
    cases hrem : s.remainder with
    | true => exact assigned hk (.lockedFlag s hf hrem)
    | false => exact assigned hk (.flagValue s (ha.unlocked hf hrem) hread hf)
  · have hk := Argument.subcommands?_of_kind_positional (hc.openPositional s hp).2
    cases hrem : s.remainder with
    | true => exact assigned hk (.lockedPositional s (by rw [hf]; rfl) hp hrem ht)
    | false =>
      have hu : r.Unlocked := Replay.unlocked_iff.mpr ⟨by simp [hf], fun p hp' => ?_⟩
      · exact assigned hk (.positionalValue s hu hread hf hp)
      · cases hp.symm.trans hp'
        exact hrem
  · have hline : Replay.Grouped g { r with remaining := rest } :=
      hg.of_eq rfl rfl rfl fun i hi => hr ▸ List.mem_cons_of_mem s.id hi
    have hout : ¬Replay.Excluded g r s.id := hg.waiting s.id (by simp [hr])
    obtain ⟨r₁, huse⟩ := hline.useGroup hout
    cases hk : (g.argument s.id).subcommands? with
    | none => exact assigned hk (.newPositional s.id rest r₁ hread hf hp hr huse hk)
    | some set =>
      obtain ⟨command, hcommand⟩ := hsel set hk
      have hm : Replay.Move g abbreviated r token (.subcommand s.id command) _ :=
        .subcommand s.id rest r₁ set command hread hf hp hr huse hk hcommand
      exact ⟨_, _, hm.step_eq, by rw [hk]; exact ⟨command, hcommand, rfl⟩⟩

/-- At a level that is reached, a value that is offered is assigned where it is offered. -/
theorem assigns_of_values (hb : g.Built) (hl : Reaches o.abbreviated g parents tokens l)
    (hs : slot? l.grammar l.replay text = some s) {context : Context}
    (h : values l.grammar o l.replay context s = .ok c) {v : Candidate} (hv : v ∈ c.candidates)
    (hne : v.value ≠ "--")
    (hread : l.grammar.looksLikeFlag v.value = false ∨ l.replay.flagsOff = true) :
    l.replay.Assigns l.grammar o.abbreviated s.id v.value := by
  have hnamed : l.grammar.WellNamed := (hl.everywhere hb.everywhere_wellNamed).here
  obtain ⟨own, t, -, hrun, -⟩ := hl.run
  refine assigns_of_slot ((Replay.coherent_start _).of_run hrun) (Replay.run_alone hrun)
    (Replay.run_grouped hrun) hs hne hread fun set hset => ?_
  have hdistinct := hnamed.distinct (Argument.subcommands?_eq_some.mp hset)
  exact hdistinct.select?_isSome (mem_tokens_of_values hset h hv)

/-- Completion offers names of flags, or values that are all assigned to the argument that they
are offered for. -/
theorem assigned_of_completeTokens (hb : g.Built)
    (h : completeTokens g o parents q tokens = .ok (.candidates c)) :
    ∃ l, Reaches o.abbreviated g parents tokens.dropLast l ∧
      ((NamesFlags l.grammar o l.replay (q.context l.given) ∧
          flagNames l.grammar o l.replay q.text = .candidates c) ∨
        ∃ s, slot? l.grammar l.replay q.text = some s ∧
          values l.grammar o l.replay (q.context l.given) s = .ok c ∧
          ∀ v ∈ c.candidates, v.value ≠ "--" →
            (l.grammar.looksLikeFlag v.value = false ∨ l.replay.flagsOff = true) →
              l.replay.Assigns l.grammar o.abbreviated s.id v.value) := by
  rcases completeTokens_cases g o parents q tokens with ⟨m, hm⟩ | hnothing | ⟨l, hl, heq⟩
  · cases h.symm.trans hm
  · cases h.symm.trans hnothing
  · refine ⟨l, hl, ?_⟩
    rcases completeLast_eq_candidates.mp (heq.symm.trans h) with ⟨s, hs, hv, -⟩ | hnames
    · exact .inr ⟨s, hs, hv, fun v hmem hne hread =>
        assigns_of_values hb hl hs hv hmem hne hread⟩
    · exact .inl hnames

/-- The runner's tag takes another value, and one of the two it lists is left. -/
theorem assigned_of_completeTokens_library : ∃ c l,
    completeTokens Sample.library.grammar {} .empty ⟨"", "", 0, 0⟩
      ["--shelf", "top", "r", "-t", "a", ""] = .ok (.candidates c) ∧
    c.candidates = [.plain "b"] ∧
    Reaches true Sample.library.grammar .empty ["--shelf", "top", "r", "-t", "a"] l ∧
    ((NamesFlags l.grammar {} l.replay ⟨"", "", 0, 0, l.given⟩ ∧
        flagNames l.grammar {} l.replay "" = .candidates c) ∨
      ∃ s, slot? l.grammar l.replay "" = some s ∧
        values l.grammar {} l.replay ⟨"", "", 0, 0, l.given⟩ s = .ok c ∧
        ∀ v ∈ c.candidates, v.value ≠ "--" →
          (l.grammar.looksLikeFlag v.value = false ∨ l.replay.flagsOff = true) →
            l.replay.Assigns l.grammar true s.id v.value) := by
  obtain ⟨out, h, hout⟩ := map_eq_ok.mp (show (completeTokens Sample.library.grammar {} .empty
    ⟨"", "", 0, 0⟩ ["--shelf", "top", "r", "-t", "a", ""]).map
      (fun out => out.completions?.map Completions.candidates) = .ok (some [.plain "b"]) from rfl)
  cases out with
  | candidates c =>
    obtain ⟨l, hl, hassigned⟩ := assigned_of_completeTokens Sample.library_built h
    exact ⟨c, l, h, Option.some.inj hout, hl, hassigned⟩
  | _ => cases hout

end Completion

end Tabwise
