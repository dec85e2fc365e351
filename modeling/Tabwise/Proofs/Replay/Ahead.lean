import Tabwise.Proofs.Replay.Effect
import Tabwise.Proofs.Replay.Failure

/-! # One occurrence ahead

A flag without values that belongs to no group leaves little behind: one more occurrence, an empty
list of current values, and a note that it need not be offered again. No step looks at any of these,
so a replay that has seen the flag takes every further token as one that has not.
-/

namespace Tabwise.Replay

variable {g : Grammar} {abbreviated : Bool} {r r' r₁ : Replay} {token : String} {f id : Nat}
  {st : Step} {m : Malformed}

/-- A flag was given once more in the second replay. The values of the current occurrence and the
matched flags may differ as well: only completion looks at them. -/
structure Ahead (f : Nat) (r r' : Replay) : Prop where
  same : r' = { r with
    matched := r'.matched
    consumed := r'.consumed
    occurrences := r'.occurrences }
  occurrences : ∀ i, r'.occurrencesOf i = r.occurrencesOf i + if i = f then 1 else 0

theorem ahead_of_valueless
    (ha : (g.argument f).action = .storeTrue ∨ (g.argument f).action = .count)
    (hm : (g.argument f).maxArgs = some 0) (r : Replay) : Ahead f r (r.enterFlag g f) := by
  refine ⟨?_, fun i => ?_⟩
  · have hkeep : keepFlag (g.argument f) f r.values = r.values := by
      rcases ha with ha | ha <;> simp [keepFlag, ha]
    simp [enterFlag, hm, hkeep]
  · simp only [occurrencesOf, enterFlag, InsertionMap.findD_update]
    by_cases hi : i = f
    · simp [hi]
    · simp [hi]

namespace Ahead

theorem close (h : Ahead f r r') :
    Ahead f { r with openFlag := none } { r' with openFlag := none } :=
  ⟨by rw [h.same], h.occurrences⟩

theorem await (h : Ahead f r r') (ids : List Nat) :
    Ahead f { r with remaining := ids } { r' with remaining := ids } :=
  ⟨by rw [h.same], h.occurrences⟩

theorem count (h : Ahead f r r') (id i : Nat) :
    (r'.countOccurrence id).occurrencesOf i =
      (r.countOccurrence id).occurrencesOf i + if i = f then 1 else 0 := by
  have ho := h.occurrences
  simp only [occurrencesOf] at ho
  simp only [occurrencesOf, countOccurrence, InsertionMap.findD_update]
  by_cases hi : i = id
  · rw [if_pos hi, if_pos hi, ho id, hi]
    omega
  · rw [if_neg hi, if_neg hi, ho i]

theorem useGroup (h : Ahead f r r') (hg : r.useGroup g id = .ok r₁) :
    ∃ r₁', r'.useGroup g id = .ok r₁' ∧ Ahead f r₁ r₁' := by
  have hused : r'.used = r.used := by rw [h.same]
  rcases useGroup_eq_ok.mp hg with ⟨hk, rfl⟩ | ⟨k, hk, hu, rfl⟩ | ⟨k, group, hk, hgroup, hu, rfl⟩
  · exact ⟨r', useGroup_eq_ok.mpr (.inl ⟨hk, rfl⟩), h⟩
  · exact ⟨r', useGroup_eq_ok.mpr (.inr (.inl ⟨k, hk, hused ▸ hu, rfl⟩)), h⟩
  · refine ⟨_, useGroup_eq_ok.mpr (.inr (.inr ⟨k, group, hk, hgroup, hused ▸ hu, rfl⟩)), ?_, ?_⟩
    · rw [excludeOthers_eq, excludeOthers_remaining, h.same,
        excludeOthers_eq (r := { r with used := r.used.insert k id }), excludeOthers_remaining]
    · intro i
      rw [excludeOthers_eq, excludeOthers_eq (r := { r with used := r.used.insert k id })]
      exact h.occurrences i

theorem useGroup_error (h : Ahead f r r') (hg : r.useGroup g id = .error m) :
    r'.useGroup g id = .error m := by
  rw [useGroup_eq_error] at hg ⊢
  rwa [h.same]

theorem move (h : Ahead f r r') (hm : Move g abbreviated r token st r₁) :
    ∃ r₁', Move g abbreviated r' token st r₁' ∧ Ahead f r₁ r₁' := by
  obtain ⟨matched, consumed, occurrences, rfl⟩ : ∃ matched consumed occurrences, r' = { r with
      matched := matched, consumed := consumed, occurrences := occurrences } := ⟨_, _, _, h.same⟩
  have ho := h.occurrences
  cases hm with
  | lockedFlag s hf hs => exact ⟨_, .lockedFlag s hf hs, rfl, ho⟩
  | lockedPositional s hf hp hs ht => exact ⟨_, .lockedPositional s hf hp hs ht, rfl, ho⟩
  | closeRemainder s hf hp hs ht => exact ⟨_, .closeRemainder s hf hp hs ht, rfl, ho⟩
  | separator hu hoff ht hn => exact ⟨_, .separator hu hoff ht hn, rfl, ho⟩
  | unknownFlag hu hr hn hl => exact ⟨_, .unknownFlag hu hr hn hl, rfl, ho⟩
  | flag i r₂ hu hr hn hl hg =>
    obtain ⟨r₂', hg', h₂⟩ := h.close.useGroup hg
    exact ⟨_, .flag i r₂' hu hr hn hl hg', by rw [enterFlag, h₂.same]; rfl, h₂.count i⟩
  | flagValue s hu hv hf => exact ⟨_, .flagValue s hu hv hf, rfl, ho⟩
  | positionalValue s hu hv hf hp => exact ⟨_, .positionalValue s hu hv hf hp, rfl, ho⟩
  | extra hv hf hp hr => exact ⟨_, .extra hv hf hp hr, h⟩
  | newPositional i rest r₂ hv hf hp hr hg hs =>
    obtain ⟨r₂', hg', h₂⟩ := (h.await rest).useGroup hg
    exact ⟨_, .newPositional i rest r₂' hv hf hp hr hg' hs, by
      rw [enterPositional, h₂.same]; rfl, h₂.count i⟩
  | subcommand i rest r₂ set command hv hf hp hr hg hs hc =>
    obtain ⟨r₂', hg', h₂⟩ := (h.await rest).useGroup hg
    exact ⟨_, .subcommand i rest r₂' set command hv hf hp hr hg' hs hc, by
      rw [enterSelector, h₂.same]; rfl, h₂.count i⟩
  | unknownSubcommand i rest r₂ set hv hf hp hr hg hs hc =>
    obtain ⟨r₂', hg', h₂⟩ := (h.await rest).useGroup hg
    exact ⟨_, .unknownSubcommand i rest r₂' set hv hf hp hr hg' hs hc, by
      rw [enterSelector, h₂.same]; rfl, h₂.count i⟩

theorem stuck (h : Ahead f r r') (hs : Stuck g abbreviated r token m) :
    Stuck g abbreviated r' token m := by
  obtain ⟨matched, consumed, occurrences, rfl⟩ : ∃ matched consumed occurrences, r' = { r with
      matched := matched, consumed := consumed, occurrences := occurrences } := ⟨_, _, _, h.same⟩
  cases hs with
  | unfinished s hu hoff ht hs => exact .unfinished s hu hoff ht hs
  | excludedFlag i m hu hr hn hl hg =>
    exact .excludedFlag i m hu hr hn hl (h.close.useGroup_error hg)
  | excludedPositional i rest m hv hf hp hr hg =>
    exact .excludedPositional i rest m hv hf hp hr ((h.await rest).useGroup_error hg)

end Ahead

end Tabwise.Replay
