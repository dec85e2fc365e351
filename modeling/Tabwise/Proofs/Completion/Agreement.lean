import Tabwise.Proofs.Completion.Answers
import Tabwise.Proofs.Grammar.Sample
import Tabwise.Proofs.Parse.Levels

/-! # Completion agrees with parsing

Completion shrugs at more than parsing does, so it gets through every line that parses: it takes
the same steps, hands over to the same subcommands and ends in a state that passed the checks at
the end of the line. Nothing is wrong with such a state whatever text comes next.
-/

namespace Tabwise.Completion

variable {g : Grammar} {o : Options} {q : Request} {parents : Given} {r r' : Replay}
  {token : String} {tokens rest : List String} {st : Step} {t : Trace} {context : Context}
  {s : Slot} {text : String} {m : Malformed}

theorem flagNames_ne_malformed : flagNames g o r text ≠ .malformed m := by
  unfold flagNames
  dsimp only
  split <;> simp

theorem fallback_ne_malformed : fallback g o r text ≠ .malformed m := by
  unfold fallback
  split
  · exact flagNames_ne_malformed
  · simp

theorem hint_ne_malformed : hint g s ≠ .malformed m := by
  rcases hint_cases g s with h | ⟨help, h⟩ <;> simp [h]

theorem offer_ne_malformed {otherwise : Outcome} (h : otherwise ≠ .malformed m) :
    offer g o r context s otherwise ≠ .ok (.malformed m) := by
  intro hoffer
  obtain ⟨c, -, hc⟩ := map_eq_ok.mp hoffer
  split at hc
  · exact h hc
  · cases hc

theorem completeValue_ne_malformed : completeValue g o r context ≠ .ok (.malformed m) := by
  unfold completeValue
  dsimp only
  split
  · apply offer_ne_malformed
    split
    · exact hint_ne_malformed
    · exact fallback_ne_malformed
  · apply offer_ne_malformed
    split
    · exact fallback_ne_malformed
    · exact hint_ne_malformed
  · intro h
    exact fallback_ne_malformed (Except.ok.inj h)

/-- The last token is malformed only if it begins a flag while the open flag needs more values. -/
theorem completeLast_eq_malformed : completeLast g o r context = .ok (.malformed m) ↔
    r.flagsOff = false ∧ g.looksLikeFlag context.text = true ∧
      ∃ s, r.unfinishedFlag? = some s ∧ m = s.unfinished g := by
  unfold completeLast
  by_cases h : (!r.flagsOff && g.looksLikeFlag context.text) = true
  · have hread : r.flagsOff = false ∧ g.looksLikeFlag context.text = true := by simpa using h
    rw [if_pos h, completeFlag]
    cases hf : r.unfinishedFlag? with
    | none => simp [flagNames_ne_malformed]
    | some s => simp [hread, eq_comm]
  · rw [if_neg h]
    constructor
    · exact fun hm => absurd hm completeValue_ne_malformed
    · rintro ⟨hoff, hl, -⟩
      simp [hoff, hl] at h

theorem completeFrom_of_move (h : Replay.Move g o.abbreviated r token st r')
    (hst : st.selects = false) :
    completeFrom o q g parents r (token :: rest) = completeFrom o q g parents r' rest := by
  rw [completeFrom, h.step_eq]
  cases st with
  | subcommand i c => cases hst
  | unknownSubcommand i => cases hst
  | _ => rfl

theorem completeFrom_append (h : r.run g o.abbreviated tokens = .ok (t, r'))
    (ht : ∀ e ∈ t, e.2.selects = false) :
    completeFrom o q g parents r (tokens ++ rest) = completeFrom o q g parents r' rest := by
  induction tokens generalizing r t with
  | nil =>
    cases h
    rfl
  | cons token tokens ih =>
    obtain ⟨st, r₁, t₁, hm, hr, rfl⟩ := Replay.run_cons_eq_ok.mp h
    rw [List.forall_mem_cons] at ht
    rw [List.cons_append, completeFrom_of_move hm ht.1, ih hr ht.2]

/-- What makes no difference behind a run makes none behind the tokens before it. -/
theorem completeFrom_congr {xs ys : List String} (h : r.run g o.abbreviated tokens = .ok (t, r'))
    (ht : ∀ e ∈ t, e.2.delegates = false)
    (next : completeFrom o q g parents r' xs = completeFrom o q g parents r' ys) :
    completeFrom o q g parents r (tokens ++ xs) = completeFrom o q g parents r (tokens ++ ys) := by
  induction tokens generalizing r t with
  | nil =>
    cases h
    exact next
  | cons token tokens ih =>
    obtain ⟨st, r₁, t₁, hm, hr, rfl⟩ := Replay.run_cons_eq_ok.mp h
    rw [List.forall_mem_cons] at ht
    rw [List.cons_append, List.cons_append, completeFrom, completeFrom, hm.step_eq]
    cases st with
    | subcommand i c => cases ht.1
    | unknownSubcommand i => rfl
    | _ => exact ih hr ht.2

theorem selects_of_continues (h : st.continues = true) : st.selects = false := by
  cases st with
  | subcommand i c => cases h
  | unknownSubcommand i => cases h
  | _ => rfl

/-- Where parsing succeeds without asking for help, completion reaches the same subcommand and
what is open there has the values it needs. -/
theorem completeFrom_of_parses {args : Args} (h : g.Parses o.abbreviated tokens args)
    (hhelp : args.helpRequested = false) (parents : Given) :
    ∃ (g' : Grammar) (r : Replay) (given : Given), r.unfinishedFlag? = none ∧
      ∀ q, completeFrom o q g parents (.start g) tokens =
        completeLast g' o r (q.context given) := by
  induction h generalizing parents with
  | @line g tokens t r args hrun ht hf =>
    obtain ⟨hval, rfl⟩ := Grammar.finish_eq_ok.mp hf
    obtain ⟨hflag, -⟩ := Grammar.validate_eq_ok.mp (hval hhelp)
    refine ⟨g, r, parents.extend (r.given g), hflag, fun q => ?_⟩
    have happ : completeFrom o q g parents (.start g) (tokens ++ []) =
        completeFrom o q g parents r [] :=
      completeFrom_append hrun fun e he => selects_of_continues (ht e he)
    rw [List.append_nil] at happ
    rw [happ, completeFrom]
  | @command g before rest token t r id c nested args hrun ht _ hf ih =>
    obtain ⟨-, rfl⟩ := Grammar.finish_eq_ok.mp hf
    obtain ⟨r₁, h₁, hm⟩ := Replay.run_concat_eq_ok.mp hrun
    have hnested : nested.helpRequested = false := by
      have hor : (g.helpGiven r || nested.helpRequested) = false := hhelp
      exact (Bool.or_eq_false_iff.mp hor).2
    obtain ⟨g', r', given, hflag, heq⟩ := ih hnested (parents.extend (r.given g))
    refine ⟨g', r', given, hflag, fun q => ?_⟩
    rw [completeFrom_append h₁ fun e he => selects_of_continues (ht e he), completeFrom,
      hm.step_eq]
    exact heq q

/-- Completion never reports a malformed line where parsing succeeds and help was not asked for. -/
theorem completeTokens_ne_malformed {args : Args} (h : g.parse o.abbreviated tokens = .ok args)
    (hhelp : args.helpRequested = false) (parents : Given) (q : Request) (m : Malformed) :
    completeTokens g o parents q (tokens ++ [q.text]) ≠ .ok (.malformed m) := by
  obtain ⟨g', r, given, hflag, heq⟩ :=
    completeFrom_of_parses (Grammar.parse_eq_ok_iff.mp h) hhelp parents
  rw [completeTokens, List.dropLast_concat, heq q]
  intro hm
  obtain ⟨-, -, s, hs, -⟩ := completeLast_eq_malformed.mp hm
  simp [hflag] at hs

/-- The end of the line belongs to a subcommand that its alias selects. -/
theorem completeTokens_ne_malformed_library : ∃ args,
    Sample.library.grammar.parse true ["--shelf", "top", "r", "-t", "a", "--", "python"] =
      .ok args ∧
    args.helpRequested = false ∧ ∀ m,
      completeTokens Sample.library.grammar {} .empty ⟨"--ver", "", 0, 0⟩
        (["--shelf", "top", "r", "-t", "a", "--", "python"] ++ ["--ver"]) ≠
          .ok (.malformed m) := by
  obtain ⟨args, h, hhelp⟩ := map_eq_ok.mp (show (Sample.library.grammar.parse true
    ["--shelf", "top", "r", "-t", "a", "--", "python"]).map (·.helpRequested) = .ok false from rfl)
  exact ⟨args, h, hhelp,
    completeTokens_ne_malformed (o := {}) h hhelp .empty ⟨"--ver", "", 0, 0⟩⟩

end Tabwise.Completion
