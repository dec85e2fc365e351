import Tabwise.Parse
import Tabwise.Proofs.Replay.Order

/-! # Parsing level by level

A parse is a run for the tokens of one grammar, ended by the line or by a token that selects a
subcommand, then the parse of the tokens after it, and then the checks of the grammar. The parser
accepts exactly these derivations.
-/

namespace Tabwise

variable {g : Grammar} {abbreviated : Bool} {r r' : Replay} {token : String} {st : Step}
  {t : Trace} {args : Args} {positionals : List String} {subcommand : Option (String × Args)}

/-- Parsing goes on with the same grammar after such a step. -/
def Step.continues : Step → Bool
  | separator | flag _ | value _ => true
  | _ => false

/-- The token hands the rest of the line over to a subcommand. -/
def Step.delegates : Step → Bool
  | .subcommand _ _ => true
  | _ => false

/-- The derivations of parsed arguments. -/
inductive Grammar.Parses (abbreviated : Bool) : Grammar → List String → Args → Prop
  /-- All tokens belong to the grammar. -/
  | line {g : Grammar} {tokens : List String} {t : Trace} {r : Replay} {args : Args} :
      (Replay.start g).run g abbreviated tokens = .ok (t, r) →
      (∀ e ∈ t, e.2.continues = true) →
      g.finish r (t.positionals g) none = .ok args →
      Parses abbreviated g tokens args
  /-- The tokens after that of a selector belong to the subcommand. -/
  | command {g : Grammar} {before rest : List String} {token : String} {t : Trace} {r : Replay}
      {id : Nat} {c : Subcommand} {nested args : Args} :
      (Replay.start g).run g abbreviated (before ++ [token]) =
        .ok (t ++ [(token, .subcommand id c)], r) →
      (∀ e ∈ t, e.2.continues = true) →
      Parses abbreviated c.grammar rest nested →
      g.finish r (t.positionals g) (some (c.name, nested)) = .ok args →
      Parses abbreviated g (before ++ token :: rest) args

namespace Grammar

theorem validate_eq_ok : g.validate r = .ok () ↔
    r.unfinishedFlag? = none ∧ g.missing? r = none ∧ g.unlisted? r = none := by
  unfold validate
  split <;> simp_all

/-- A parse ends with the recorded arguments, and checks them unless help was asked for. -/
theorem finish_eq_ok : g.finish r positionals subcommand = .ok args ↔
    (g.helpGiven r = false → g.validate r = .ok ()) ∧
      args = g.collect r positionals subcommand := by
  unfold finish
  cases hh : g.helpGiven r with
  | true => simp [pure, Except.pure, eq_comm]
  | false =>
    cases hv : g.validate r with
    | error e => simp [bind, Except.bind]
    | ok u => simp [bind, Except.bind, pure, Except.pure, eq_comm]

theorem missing?_eq_none : g.missing? r = none ↔
    (∀ i ∈ g.ids, (g.argument i).isFlag = true → (g.argument i).mandatory = true →
      0 < r.occurrencesOf i) ∧
    (∀ s, r.openPositional = some s → s.isUnfinished = false) ∧
    ∀ i ∈ r.remaining, (g.argument i).isRequired = false := by
  unfold missing?
  simp only [Option.or_eq_none_iff, List.find?_eq_none, Option.map_eq_none_iff,
    Option.filter_eq_none_iff]
  simp [Nat.pos_iff_ne_zero]

theorem unlisted?_eq_none : g.unlisted? r = none ↔
    ∀ i values, (i, values) ∈ r.values.entries → ∀ listed,
      (g.argument i).choices.listedValues? = some listed → ∀ v ∈ values, v ∈ listed := by
  simp only [unlisted?, List.findSome?_eq_none_iff, Prod.forall]
  refine forall_congr' fun i => forall_congr' fun values => forall_congr' fun _ => ?_
  cases (g.argument i).choices.listedValues? with
  | none => simp
  | some listed => simp

theorem parseFrom_of_continues {rest : List String}
    (h : Replay.Move g abbreviated r token st r') (hst : st.continues = true) :
    parseFrom abbreviated g r positionals (token :: rest) =
      parseFrom abbreviated g r'
        (positionals ++ if st.isPositional g then [token] else []) rest := by
  rw [parseFrom, h.step_eq]
  cases st with
  | separator => simp [Step.isPositional]
  | flag i => simp [Step.isPositional]
  | value i => cases hi : (g.argument i).isFlag <;> simp [Step.isPositional, hi]
  | _ => cases hst

theorem parseFrom_append (positionals rest : List String) {tokens : List String}
    (h : r.run g abbreviated tokens = .ok (t, r')) (ht : ∀ e ∈ t, e.2.continues = true) :
    parseFrom abbreviated g r positionals (tokens ++ rest) =
      parseFrom abbreviated g r' (positionals ++ t.positionals g) rest := by
  induction tokens generalizing r t positionals with
  | nil =>
    cases h
    simp [Trace.positionals]
  | cons token tokens ih =>
    obtain ⟨st, r₁, t₁, hm, hr, rfl⟩ := Replay.run_cons_eq_ok.mp h
    rw [List.forall_mem_cons] at ht
    rw [List.cons_append, parseFrom_of_continues hm ht.1, ih _ hr ht.2, List.append_assoc]
    congr 2
    by_cases hp : st.isPositional g <;> simp [Trace.positionals, hp]

/-- Two ways to go on behind a run compare as they do on their own, unless the run is in error
already. -/
theorem parseFrom_related {R : Except ParseError Args → Except ParseError Args → Prop}
    {tokens xs ys : List String} (h : r.run g abbreviated tokens = .ok (t, r'))
    (ht : ∀ e ∈ t, e.2.delegates = false) (error : ∀ e, R (.error e) (.error e))
    (next : ∀ positionals, R (parseFrom abbreviated g r' positionals xs)
      (parseFrom abbreviated g r' positionals ys)) (positionals : List String) :
    R (parseFrom abbreviated g r positionals (tokens ++ xs))
      (parseFrom abbreviated g r positionals (tokens ++ ys)) := by
  induction tokens generalizing r t positionals with
  | nil =>
    cases h
    exact next positionals
  | cons token tokens ih =>
    obtain ⟨st, r₁, t₁, hm, hr, rfl⟩ := Replay.run_cons_eq_ok.mp h
    rw [List.forall_mem_cons] at ht
    have rest (positionals) := ih hr ht.2 positionals
    rw [List.cons_append, List.cons_append, parseFrom, parseFrom, hm.step_eq]
    cases st with
    | subcommand i c => cases ht.1
    | unknownFlag => exact error _
    | unknownSubcommand i => exact error _
    | extra => exact error _
    | separator => exact rest _
    | flag i => exact rest _
    | value i => exact rest _

theorem parseFrom_cons_eq_ok {rest : List String}
    (h : parseFrom abbreviated g r positionals (token :: rest) = .ok args) :
    ∃ st r', Replay.Move g abbreviated r token st r' ∧
      (st.continues = true ∨ ∃ id c nested, st = .subcommand id c ∧
        parseFrom abbreviated c.grammar (.start c.grammar) [] rest = .ok nested ∧
        g.finish r' positionals (some (c.name, nested)) = .ok args) := by
  rw [parseFrom] at h
  split at h
  · cases h
  · cases h
  · cases h
  · cases h
  · next i c r' hs =>
    obtain ⟨nested, hn, hf⟩ := bind_eq_ok.mp h
    exact ⟨.subcommand i c, r', .of_step hs, .inr ⟨i, c, nested, rfl, hn, hf⟩⟩
  · next i r' hs => exact ⟨.value i, r', .of_step hs, .inl rfl⟩
  · next st r' hunknown hextra hsel hcommand hvalue hs =>
    refine ⟨st, r', .of_step hs, .inl ?_⟩
    cases st with
    | unknownFlag => exact absurd rfl hunknown
    | extra => exact absurd rfl hextra
    | unknownSubcommand i => exact absurd rfl (hsel i)
    | subcommand i c => exact absurd rfl (hcommand i c)
    | _ => rfl

theorem parses_of_parseFrom {past tokens : List String}
    (hrun : (Replay.start g).run g abbreviated past = .ok (t, r))
    (ht : ∀ e ∈ t, e.2.continues = true)
    (h : parseFrom abbreviated g r (t.positionals g) tokens = .ok args) :
    g.Parses abbreviated (past ++ tokens) args := by
  induction tokens generalizing g past t r args with
  | nil =>
    rw [List.append_nil]
    exact .line hrun ht h
  | cons token rest ih =>
    obtain ⟨st, r', hm, hcont⟩ := parseFrom_cons_eq_ok h
    have hnext : (Replay.start g).run g abbreviated (past ++ [token]) =
        .ok (t ++ [(token, st)], r') := Replay.run_concat_eq_ok.mpr ⟨r, hrun, hm⟩
    rcases hcont with hst | ⟨i, c, nested, rfl, hn, hf⟩
    · rw [parseFrom_of_continues hm hst] at h
      have hlist : ∀ e ∈ t ++ [(token, st)], e.2.continues = true := by
        intro e he
        rcases List.mem_append.mp he with he | he
        · exact ht e he
        · rwa [List.mem_singleton.mp he]
      have hall := ih hnext hlist (by rwa [Trace.positionals_concat])
      rwa [List.append_assoc] at hall
    · have hnested : c.grammar.Parses abbreviated ([] ++ rest) nested :=
        ih (t := []) rfl (by simp) hn
      exact .command hnext ht hnested hf

/-- The parser succeeds exactly with what can be derived. -/
theorem parse_eq_ok_iff {tokens : List String} :
    g.parse abbreviated tokens = .ok args ↔ g.Parses abbreviated tokens args := by
  constructor
  · intro h
    have hall : g.Parses abbreviated ([] ++ tokens) args :=
      parses_of_parseFrom (t := []) rfl (by simp) h
    exact hall
  · intro h
    unfold parse
    induction h with
    | line hrun ht hf =>
      have happ := parseFrom_append [] [] hrun ht
      rw [List.append_nil] at happ
      rw [happ, List.nil_append, parseFrom, hf]
    | command hrun ht _ hf ih =>
      obtain ⟨r₁, h₁, hm⟩ := Replay.run_concat_eq_ok.mp hrun
      rw [parseFrom_append [] _ h₁ ht, List.nil_append, parseFrom, hm.step_eq]
      simp only [ih, hf, bind, Except.bind]

end Grammar

end Tabwise
