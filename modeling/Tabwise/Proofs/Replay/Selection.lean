import Tabwise.Proofs.Grammar.LastPositional
import Tabwise.Proofs.Replay.Record

/-! # A selector ends its level

A selector is the last positional, so when it has its token no positional waits, and none will.
Of all tokens that a grammar is given, one at most selects, and nothing was selected before a token
that selects a subcommand.
-/

namespace Tabwise.Replay

variable {g : Grammar} {abbreviated : Bool} {r r' : Replay} {token : String} {i : Nat}
  {st : Step} {t : Trace}

theorem dropLast_sublist_dropLast {α : Type} {xs ys : List α} (h : xs.Sublist ys) :
    xs.dropLast.Sublist ys.dropLast := by
  have htail := h.reverse.tail
  rw [List.tail_reverse, List.tail_reverse] at htail
  exact List.reverse_sublist.mp htail

theorem Move.remaining_eq_nil (h : Move g abbreviated r token st r') (hc : Coherent g r)
    (hl : g.LastOpen) (hst : st.isSelection i = true) : r'.remaining = [] := by
  obtain ⟨⟨set, hk⟩, hhead, hrec⟩ := h.records_selection hst
  obtain ⟨rest, hr⟩ := List.head?_eq_some_iff.mp hhead
  have hline : (i :: rest).Sublist g.positionals := hr ▸ hc.remaining_sublist
  have hlast : rest = [] := by
    by_contra hne
    have hmem : i ∈ (i :: rest).dropLast := by
      rw [List.dropLast_cons_of_ne_nil hne]
      exact List.mem_cons_self
    have hnone := (hl i ((dropLast_sublist_dropLast hline).subset hmem)).unselecting
    simp [Argument.subcommands?_eq_some.mpr hk] at hnone
  have htail : r'.remaining.Sublist r.remaining.tail := by
    obtain ⟨-, ⟨j, -, -, -, htail, -⟩ | hsame⟩ := h.remaining
    · exact htail
    · have ho := hsame i (hc.head hr).1
      have hone : r'.occurrencesOf i = r.occurrencesOf i + 1 := (Prod.mk.inj hrec).1
      omega
  rw [hr, List.tail_cons, hlast] at htail
  exact List.sublist_nil.mp htail

theorem Move.remaining_ne_nil (h : Move g abbreviated r token st r') (hst : st.selects = true) :
    r.remaining ≠ [] := by
  intro hnil
  cases st with
  | subcommand j c => simpa [hnil] using (h.records_selection (beq_self_eq_true j)).2.1
  | unknownSubcommand j => simpa [hnil] using (h.records_selection (beq_self_eq_true j)).2.1
  | _ => cases hst

/-- As long as a positional waits, nothing has been selected. -/
theorem run_unselected {tokens : List String} (hl : g.LastOpen)
    (h : (start g).run g abbreviated tokens = .ok (t, r)) :
    r.remaining ≠ [] → ∀ e ∈ t, e.2.selects = false := by
  refine run_recorded_induction
    (fun t r => r.remaining ≠ [] → ∀ e ∈ t, e.2.selects = false) ?_ (by simp) h
  intro t r token st r' hc _ ih hm hwait e he
  have hwaited : r.remaining ≠ [] := by
    rintro hnil
    exact hwait (List.sublist_nil.mp (hnil ▸ hm.remaining.1))
  rcases List.mem_append.mp he with he | he
  · exact ih hwaited e he
  · obtain rfl := List.mem_singleton.mp he
    cases st with
    | subcommand j c => exact absurd (hm.remaining_eq_nil hc hl (beq_self_eq_true j)) hwait
    | unknownSubcommand j => exact absurd (hm.remaining_eq_nil hc hl (beq_self_eq_true j)) hwait
    | _ => rfl

theorem unselected_of_run {before : List String} {c : Subcommand} (hl : g.LastOpen)
    (h : (start g).run g abbreviated (before ++ [token]) =
      .ok (t ++ [(token, .subcommand i c)], r)) : ∀ e ∈ t, e.2.selects = false := by
  obtain ⟨r₁, hrun, hm⟩ := run_concat_eq_ok.mp h
  exact run_unselected hl hrun (hm.remaining_ne_nil rfl)

end Tabwise.Replay
