import Tabwise.Proofs.Completion.Agreement

/-! # The level that is completed

Completion replays the tokens of one grammar until a token selects a subcommand, and starts again
with its grammar. It gives up where a token is malformed or selects nothing; otherwise it reaches
one level, and its answer is what the last token gets there.
-/

namespace Tabwise.Completion

variable {g : Grammar} {o : Options} {q : Request} {abbreviated : Bool} {parents : Given}
  {r : Replay} {tokens : List String} {t : Trace} {P : Grammar → Prop}

structure Level where
  grammar : Grammar
  replay : Replay
  /-- The values given to the command and to its parents. -/
  given : Given

/-- The level that the tokens before the last one lead to. -/
inductive Reaches (abbreviated : Bool) : Grammar → Given → List String → Level → Prop
  | here {g : Grammar} {parents : Given} {tokens : List String} {t : Trace} {r : Replay} :
      (Replay.start g).run g abbreviated tokens = .ok (t, r) →
      (∀ e ∈ t, e.2.selects = false) →
      Reaches abbreviated g parents tokens ⟨g, r, parents.extend (r.given g)⟩
  /-- The tokens after that of a selector belong to the subcommand. -/
  | nested {g : Grammar} {parents : Given} {before rest : List String} {token : String}
      {t : Trace} {r : Replay} {id : Nat} {c : Subcommand} {l : Level} :
      (Replay.start g).run g abbreviated (before ++ [token]) =
        .ok (t ++ [(token, .subcommand id c)], r) →
      (∀ e ∈ t, e.2.selects = false) →
      Reaches abbreviated c.grammar (parents.extend (r.given g)) rest l →
      Reaches abbreviated g parents (before ++ token :: rest) l

namespace Reaches

variable {l : Level}

theorem run (h : Reaches abbreviated g parents tokens l) : ∃ own t, own <:+ tokens ∧
    (Replay.start l.grammar).run l.grammar abbreviated own = .ok (t, l.replay) ∧
      ∀ e ∈ t, e.2.selects = false := by
  induction h with
  | @here g parents tokens t r hrun ht => exact ⟨tokens, t, List.suffix_rfl, hrun, ht⟩
  | nested hrun ht hl ih =>
    obtain ⟨own, t, hown, hrun, ht⟩ := ih
    exact ⟨own, t, (hown.trans (List.suffix_cons _ _)).trans (List.suffix_append _ _), hrun, ht⟩

theorem everywhere (h : Reaches abbreviated g parents tokens l) (hP : g.Everywhere P) :
    l.grammar.Everywhere P := by
  induction h with
  | here hrun ht => exact hP
  | nested hrun ht hl ih =>
    obtain ⟨r₁, h₁, hm⟩ := Replay.run_concat_eq_ok.mp hrun
    exact ih (hP.nested (hm.nests ((Replay.coherent_start _).of_run h₁)))

theorem completeFrom_eq (h : Reaches o.abbreviated g parents tokens l) :
    completeFrom o q g parents (.start g) tokens =
      completeLast l.grammar o l.replay (q.context l.given) := by
  induction h with
  | @here g parents tokens t r hrun ht =>
    have happ : completeFrom o q g parents (.start g) (tokens ++ []) =
        completeFrom o q g parents r [] := completeFrom_append hrun ht
    rw [List.append_nil] at happ
    rw [happ, completeFrom]
  | nested hrun ht hl ih =>
    obtain ⟨r₁, h₁, hm⟩ := Replay.run_concat_eq_ok.mp hrun
    rw [completeFrom_append h₁ ht, completeFrom, hm.step_eq]
    exact ih

end Reaches

/-- The answer if the last token is not looked at: a token before it is malformed or selects
nothing. -/
def GivesUp (out : Outcome) : Prop := out = .nothing ∨ ∃ m, out = .malformed m

/-- Completion after a run reaches a level or gives up, whatever is to be completed. -/
theorem completeFrom_cases {past : List String} (parents : Given) (tokens : List String)
    (hrun : (Replay.start g).run g abbreviated past = .ok (t, r))
    (ht : ∀ e ∈ t, e.2.selects = false) :
    (∃ out, GivesUp out ∧
      ∀ o q, o.abbreviated = abbreviated → completeFrom o q g parents r tokens = .ok out) ∨
      ∃ l, Reaches abbreviated g parents (past ++ tokens) l := by
  -- tokens move over to the past one by one, and a subcommand starts without any
  induction tokens generalizing g past t r parents with
  | nil =>
    refine .inr ⟨⟨g, r, parents.extend (r.given g)⟩, ?_⟩
    rw [List.append_nil]
    exact .here hrun ht
  | cons token rest ih =>
    cases hs : r.step g abbreviated token with
    | error m =>
      refine .inl ⟨.malformed m, .inr ⟨m, rfl⟩, fun o q ho => ?_⟩
      rw [completeFrom, ho, hs]
    | ok next =>
      obtain ⟨st, r'⟩ := next
      have hm := Replay.Move.of_step hs
      have hnext := Replay.run_concat_eq_ok.mpr ⟨r, hrun, hm⟩
      cases hst : st.selects with
      | false =>
        have hlist : ∀ e ∈ t ++ [(token, st)], e.2.selects = false := by
          intro e he
          rcases List.mem_append.mp he with he | he
          · exact ht e he
          · rwa [List.mem_singleton.mp he]
        have hrest := ih parents hnext hlist
        rw [List.append_assoc] at hrest
        refine hrest.imp_left ?_
        rintro ⟨out, hout, hanswer⟩
        refine ⟨out, hout, fun o q ho => ?_⟩
        rw [completeFrom_of_move (ho ▸ hm) hst, hanswer o q ho]
      | true =>
        cases st with
        | subcommand id c =>
          have hstart : (Replay.start c.grammar).run c.grammar abbreviated [] =
              .ok ([], .start c.grammar) := rfl
          rcases ih (parents.extend (r'.given g)) hstart (by simp) with
            ⟨out, hout, hanswer⟩ | ⟨l, hl⟩
          · refine .inl ⟨out, hout, fun o q ho => ?_⟩
            rw [completeFrom, ho, hs]
            exact hanswer o q ho
          · exact .inr ⟨l, .nested hnext ht hl⟩
        | unknownSubcommand id =>
          refine .inl ⟨.nothing, .inl rfl, fun o q ho => ?_⟩
          rw [completeFrom, ho, hs]
        | _ => cases hst

theorem completeTokens_gives_up_or_reaches (abbreviated : Bool) (g : Grammar) (parents : Given)
    (tokens : List String) :
    (∃ out, GivesUp out ∧
      ∀ o q, o.abbreviated = abbreviated → completeTokens g o parents q tokens = .ok out) ∨
      ∃ l, Reaches abbreviated g parents tokens.dropLast l := by
  have hstart : (Replay.start g).run g abbreviated [] = .ok ([], .start g) := rfl
  exact completeFrom_cases parents tokens.dropLast hstart (by simp)

/-- Completion gives up, or answers at the one level that the tokens before the last lead to. -/
theorem completeTokens_cases (g : Grammar) (o : Options) (parents : Given) (q : Request)
    (tokens : List String) :
    (∃ m, completeTokens g o parents q tokens = .ok (.malformed m)) ∨
      completeTokens g o parents q tokens = .ok .nothing ∨
      ∃ l, Reaches o.abbreviated g parents tokens.dropLast l ∧
        completeTokens g o parents q tokens =
          completeLast l.grammar o l.replay (q.context l.given) := by
  rcases completeTokens_gives_up_or_reaches o.abbreviated g parents tokens with
    ⟨out, rfl | ⟨m, rfl⟩, hanswer⟩ | ⟨l, hl⟩
  · exact .inr (.inl (hanswer o q rfl))
  · exact .inl ⟨m, hanswer o q rfl⟩
  · exact .inr (.inr ⟨l, hl, hl.completeFrom_eq⟩)

/-- Two completions behind the same tokens compare as they do at the level that these lead to. What
is completed and how may differ, except for whether flags may be abbreviated. -/
theorem completeTokens_related {R : Except String Outcome → Except String Outcome → Prop}
    {o' : Options} {q' : Request} {tokens' : List String} (ho : o'.abbreviated = o.abbreviated)
    (htokens : tokens'.dropLast = tokens.dropLast)
    (gives_up : ∀ out, GivesUp out → R (.ok out) (.ok out))
    (last : ∀ l, Reaches o.abbreviated g parents tokens.dropLast l →
      R (completeLast l.grammar o l.replay (q.context l.given))
        (completeLast l.grammar o' l.replay (q'.context l.given))) :
    R (completeTokens g o parents q tokens) (completeTokens g o' parents q' tokens') := by
  have hsame : completeTokens g o' parents q' tokens' = completeTokens g o' parents q' tokens := by
    rw [completeTokens, htokens]
    rfl
  rw [hsame]
  rcases completeTokens_gives_up_or_reaches o.abbreviated g parents tokens with
    ⟨out, hout, hanswer⟩ | ⟨l, hl⟩
  · rw [hanswer o q rfl, hanswer o' q' ho]
    exact gives_up out hout
  · have hlast := last l hl
    rw [← hl.completeFrom_eq] at hlast
    have hl' : Reaches o'.abbreviated g parents tokens.dropLast l := ho ▸ hl
    rw [← hl'.completeFrom_eq] at hlast
    exact hlast

end Tabwise.Completion
