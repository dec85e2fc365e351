import Tabwise.Completion.Complete
import Tabwise.Proofs.Except

/-! # What the last token gets

The last token is a value of one argument or no value at all. Candidates are either the values of
that argument or names of flags, and it is the text and the state of the replay that say which.
-/

namespace Tabwise.Completion

variable {g : Grammar} {o : Options} {r : Replay} {context : Context} {s : Slot} {text : String}
  {c : Completions}

/-- The argument that the text would be a value of: none if the text is read as a flag. -/
def slot? (g : Grammar) (r : Replay) (text : String) : Option Slot :=
  if !r.flagsOff && g.looksLikeFlag text then none else r.openFlag.or (r.nextPositional? g)

/-- Flag names are completed: flags are on, no flag lacks values, and the text looks like a flag
or could begin one where no value is offered. -/
structure NamesFlags (g : Grammar) (o : Options) (r : Replay) (context : Context) : Prop where
  flagsOn : r.flagsOff = false
  finished : r.unfinishedFlag? = none
  begins : g.looksLikeFlag context.text = true ∨ g.isSinglePrefix context.text = true ∧
    ∀ s, slot? g r context.text = some s →
      ∃ c, values g o r context s = .ok c ∧ c.candidates = []

theorem looksLikeFlag_of_isSinglePrefix (h : g.isSinglePrefix text = true) :
    g.looksLikeFlag text = false := by
  unfold Grammar.isSinglePrefix at h
  unfold Grammar.looksLikeFlag
  split at h
  · next c htext => simp [htext]
  · cases h

theorem offer_eq_candidates {otherwise : Outcome} :
    offer g o r context s otherwise = .ok (.candidates c) ↔
      (values g o r context s = .ok c ∧ c.candidates ≠ []) ∨
      ∃ c₀, values g o r context s = .ok c₀ ∧ c₀.candidates = [] ∧ otherwise = .candidates c := by
  rw [offer, map_eq_ok]
  constructor
  · rintro ⟨c₀, hv, hc⟩
    split at hc
    · next hnil => exact .inr ⟨c₀, hv, by simpa using hnil, hc⟩
    · next hsome =>
      cases hc
      exact .inl ⟨hv, by simpa using hsome⟩
  · rintro (⟨hv, hsome⟩ | ⟨c₀, hv, hnil, hc⟩)
    · exact ⟨c, hv, by simp [hsome]⟩
    · exact ⟨c₀, hv, by simp [hnil, hc]⟩

theorem hint_cases (g : Grammar) (s : Slot) :
    hint g s = .nothing ∨ ∃ help, hint g s = .hint help := by
  unfold hint
  dsimp only
  split
  · exact .inl rfl
  · split
    · exact .inr ⟨_, rfl⟩
    · split
      · exact .inr ⟨_, rfl⟩
      · exact .inl rfl

theorem completeLast_of_slot (h : slot? g r context.text = some s) :
    completeLast g o r context = offer g o r context s
      (if beginsFlag g r context.text && r.unfinishedFlag?.isNone then
        flagNames g o r context.text else hint g s) := by
  unfold slot? at h
  split at h
  · cases h
  · next hread =>
    rw [completeLast, if_neg hread, completeValue]
    cases hf : r.openFlag with
    | some f =>
      obtain rfl : f = s := by simpa [hf] using h
      cases hb : beginsFlag g r context.text <;> cases hu : f.isUnfinished <;>
        simp [Replay.unfinishedFlag?, hf, hu, fallback, hb]
    | none =>
      rw [hf, Option.none_or] at h
      cases hb : beginsFlag g r context.text <;>
        simp [Replay.unfinishedFlag?, hf, h, fallback, hb]

theorem completeLast_of_no_slot (h : slot? g r context.text = none) :
    completeLast g o r context = .ok (if !r.flagsOff && g.looksLikeFlag context.text then
      completeFlag g o r context.text else fallback g o r context.text) := by
  unfold slot? at h
  unfold completeLast
  split at h
  · next hread => rw [if_pos hread, if_pos hread]
  · next hread =>
    obtain ⟨hf, hp⟩ := Option.or_eq_none_iff.mp h
    rw [if_neg hread, if_neg hread, completeValue, hf, hp]

theorem completeLast_of_namesFlags (h : NamesFlags g o r context) :
    completeLast g o r context = .ok (flagNames g o r context.text) := by
  rcases h.begins with hl | ⟨hp, hnone⟩
  · have hread : (!r.flagsOff && g.looksLikeFlag context.text) = true := by simp [h.flagsOn, hl]
    rw [completeLast, if_pos hread, completeFlag, h.finished]
  · have hb : beginsFlag g r context.text = true := by simp [beginsFlag, h.flagsOn, hp]
    cases hs : slot? g r context.text with
    | none =>
      rw [completeLast_of_no_slot hs, looksLikeFlag_of_isSinglePrefix hp]
      simp [fallback, hb]
    | some s =>
      obtain ⟨c, hv, hnil⟩ := hnone s hs
      rw [completeLast_of_slot hs, hb, h.finished, offer, hv]
      simp [Except.map, hnil]

/-- Candidates are the values of the argument that the text belongs to, or names of flags. -/
theorem completeLast_eq_candidates :
    completeLast g o r context = .ok (.candidates c) ↔
      (∃ s, slot? g r context.text = some s ∧ values g o r context s = .ok c ∧
        c.candidates ≠ []) ∨
      NamesFlags g o r context ∧ flagNames g o r context.text = .candidates c := by
  constructor
  · intro h
    cases hs : slot? g r context.text with
    | none =>
      rw [completeLast_of_no_slot hs] at h
      refine .inr ?_
      split at h
      · next hread =>
        obtain ⟨hoff, hl⟩ : r.flagsOff = false ∧ g.looksLikeFlag context.text = true := by
          simpa using hread
        unfold completeFlag at h
        split at h
        · cases h
        · next hu => exact ⟨⟨hoff, hu, .inl hl⟩, Except.ok.inj h⟩
      · next hread =>
        unfold fallback at h
        split at h
        · next hb =>
          obtain ⟨hoff, hp⟩ : r.flagsOff = false ∧ g.isSinglePrefix context.text = true := by
            simpa [beginsFlag] using hb
          have hf : r.openFlag = none := by
            rw [slot?, if_neg hread] at hs
            exact (Option.or_eq_none_iff.mp hs).1
          have hu : r.unfinishedFlag? = none := by rw [Replay.unfinishedFlag?, hf]; rfl
          exact ⟨⟨hoff, hu, .inr ⟨hp, by simp [hs]⟩⟩, Except.ok.inj h⟩
        · cases h
    | some s =>
      rw [completeLast_of_slot hs, offer_eq_candidates] at h
      rcases h with hv | ⟨c₀, hv, hnil, hc⟩
      · exact .inl ⟨s, rfl, hv⟩
      · refine .inr ?_
        split at hc
        · next hb =>
          obtain ⟨⟨hoff, hp⟩, hu⟩ : (r.flagsOff = false ∧ g.isSinglePrefix context.text = true) ∧
              r.unfinishedFlag? = none := by
            simpa [beginsFlag] using hb
          refine ⟨⟨hoff, hu, .inr ⟨hp, fun s' hs' => ?_⟩⟩, hc⟩
          cases hs.symm.trans hs'
          exact ⟨c₀, hv, hnil⟩
        · rcases hint_cases g s with hhint | ⟨help, hhint⟩
          · cases hhint.symm.trans hc
          · cases hhint.symm.trans hc
  · rintro (⟨s, hs, hv, hsome⟩ | ⟨hn, hc⟩)
    · rw [completeLast_of_slot hs]
      exact offer_eq_candidates.mpr (.inl ⟨hv, hsome⟩)
    · rw [completeLast_of_namesFlags hn, hc]

end Tabwise.Completion
