import Tabwise.Proofs.Completion.Levels
import Tabwise.Proofs.Completion.Values

/-! # Typing on

A text that does not start like a flag is a value of one argument, and it stays one when more is
typed. If the values of the argument do not depend on the line, typing on leaves those of them that
the longer text starts, and nothing else changes: completion fails, or finds the line malformed, for
the longer text if it does for the shorter one.
-/

namespace Tabwise

open Completion

variable {g : Grammar} {o : Options} {q q' : Request} {parents : Given} {r : Replay}
  {context context' : Context} {s : Slot} {c c' : Completions} {text typed e : String}
  {preceding : List String}

/-- Whether candidates are the same whatever the line is. -/
def Choices.isFixed : Choices → Bool
  | computed _ _ => false
  | _ => true

/-- No candidates are computed from the line, at any level. -/
def Grammar.FixedChoices : Grammar → Prop :=
  Everywhere fun g => ∀ a ∈ g.arguments, a.choices.isFixed = true

theorem Choices.candidates_of_isFixed {choices : Choices} (h : choices.isFixed = true)
    (context context' : Context) : choices.candidates context = choices.candidates context' := by
  cases choices with
  | computed f presorted => cases h
  | _ => rfl

theorem Argument.source_of_isFixed {a : Argument} (h : a.choices.isFixed = true)
    (context context' : Context) : a.source context = a.source context' := by
  rw [source, source, Choices.candidates_of_isFixed h context context']

namespace Grammar

theorem isFixed_argument (h : ∀ a ∈ g.arguments, a.choices.isFixed = true) (i : Nat) :
    (g.argument i).choices.isFixed = true := by
  unfold argument
  cases hi : g.arguments[i]? with
  | none => rfl
  | some a => exact h a (List.mem_of_getElem? hi)

theorem isFixed_rename (g : Grammar) (prog : String)
    (h : ∀ a ∈ g.arguments, a.choices.isFixed = true) :
    ∀ a ∈ (g.rename prog).arguments, a.choices.isFixed = true := by
  rw [rename_arguments, List.forall_mem_map]
  intro a ha
  rw [Argument.rename_choices]
  exact h a ha

/-- Whether a text starts with a prefix character. -/
def startsLikeFlag (g : Grammar) (text : String) : Bool :=
  text.toList.head?.any (isPrefixChar g.prefixChars)

theorem looksLikeFlag_of_startsLikeFlag (h : g.startsLikeFlag text = false) :
    g.looksLikeFlag text = false := by
  unfold startsLikeFlag at h
  unfold looksLikeFlag
  split
  · next c d rest htext =>
    rw [htext, List.head?_cons, Option.any_some] at h
    simp [h]
  · rfl

theorem isSinglePrefix_of_startsLikeFlag (h : g.startsLikeFlag text = false) :
    g.isSinglePrefix text = false := by
  unfold startsLikeFlag at h
  unfold isSinglePrefix
  split
  · next c htext => rwa [htext, List.head?_cons, Option.any_some] at h
  · rfl

theorem startsLikeFlag_of_append (h : g.startsLikeFlag (text ++ typed) = false) :
    g.startsLikeFlag text = false := by
  unfold startsLikeFlag at h ⊢
  rw [String.toList_append] at h
  cases htext : text.toList with
  | nil => rfl
  | cons c rest => rwa [htext, List.cons_append, List.head?_cons] at h

end Grammar

theorem startsWith_of_append {value : String} (h : startsWith value (text ++ typed) = true) :
    startsWith value text = true := by
  rw [startsWith, List.isPrefixOf_iff_prefix] at h ⊢
  rw [String.toList_append] at h
  exact (List.prefix_append _ _).trans h

namespace Completion

theorem values_narrow (ho : o.ignoreCase = false) (htext : context'.text = context.text ++ typed)
    (hsource : (g.argument s.id).source context' = (g.argument s.id).source context)
    (h : values g o r context s = .ok c) (h' : values g o r context' s = .ok c') :
    (c'.candidates.map Candidate.value).Perm
      ((c.candidates.map Candidate.value).filter (startsWith · context'.text)) := by
  obtain ⟨all, hperm, hperm'⟩ := values_perm_same_source hsource h h'
  have hlonger : (all.filter fun v =>
      o.accepts v.value context'.text && !(r.consumedBy s.id).contains v.value) =
        (all.filter fun v => o.accepts v.value context.text &&
          !(r.consumedBy s.id).contains v.value).filter
            fun v => startsWith v.value context'.text := by
    rw [List.filter_filter]
    apply List.filter_congr
    intro v _
    unfold Options.accepts
    rw [ho, htext]
    cases hv : startsWith v.value (context.text ++ typed) with
    | false => simp
    | true => simp [startsWith_of_append hv]
  rw [hlonger] at hperm'
  rw [List.filter_map]
  exact (hperm'.trans (hperm.symm.filter _)).map _

/-- The values on offer: none if the answer is not candidates. -/
def offered : Except String Outcome → List String
  | .ok (.candidates c) => c.candidates.map Candidate.value
  | _ => []

/-- The second answer offers what of the first one the text starts. Failures are the same in both,
and so are malformed lines. -/
structure Narrows (text : String) (before after : Except String Outcome) : Prop where
  offered : (offered after).Perm ((offered before).filter (startsWith · text))
  fails : ∀ e, after = .error e ↔ before = .error e
  malformed : ∀ m, after = .ok (.malformed m) ↔ before = .ok (.malformed m)

theorem Narrows.of_no_offer {answer : Except String Outcome} (h : Completion.offered answer = []) :
    Narrows text answer answer := by
  refine ⟨?_, fun _ => Iff.rfl, fun _ => Iff.rfl⟩
  rw [h]
  exact List.Perm.nil

theorem offered_offer_hint (h : values g o r context s = .ok c) :
    offered (offer g o r context s (hint g s)) = c.candidates.map Candidate.value ∧
      ∀ m, offer g o r context s (hint g s) ≠ .ok (.malformed m) := by
  refine ⟨?_, fun m => offer_ne_malformed hint_ne_malformed⟩
  rw [offer, h]
  change offered (.ok (if c.candidates.isEmpty then hint g s else .candidates c)) = _
  cases hc : c.candidates with
  | nil => rcases hint_cases g s with hhint | ⟨help, hhint⟩ <;> simp [hhint, offered]
  | cons v rest => simp [offered, hc]

theorem offer_eq_error {otherwise : Outcome} (h : values g o r context s = .error e) :
    offer g o r context s otherwise = .error e := by
  rw [offer, h]
  rfl

theorem offer_narrows (ho : o.ignoreCase = false) (htext : context'.text = context.text ++ typed)
    (hsource : (g.argument s.id).source context' = (g.argument s.id).source context) :
    Narrows context'.text (offer g o r context s (hint g s))
      (offer g o r context' s (hint g s)) := by
  cases h : values g o r context s with
  | error e =>
    have h' : values g o r context' s = .error e :=
      values_eq_error.mpr (hsource.trans (values_eq_error.mp h))
    rw [offer_eq_error h, offer_eq_error h']
    exact .of_no_offer rfl
  | ok c =>
    cases h' : values g o r context' s with
    | error e =>
      have herror : values g o r context s = .error e :=
        values_eq_error.mpr (hsource.symm.trans (values_eq_error.mp h'))
      cases h.symm.trans herror
    | ok c' =>
      obtain ⟨hoffered, hsound⟩ := offered_offer_hint h
      obtain ⟨hoffered', hsound'⟩ := offered_offer_hint h'
      have hok : ∀ e, offer g o r context s (hint g s) ≠ .error e := by
        rw [offer, h]
        rintro e ⟨⟩
      have hok' : ∀ e, offer g o r context' s (hint g s) ≠ .error e := by
        rw [offer, h']
        rintro e ⟨⟩
      refine ⟨?_, fun e => by simp [hok e, hok' e], fun m => by simp [hsound m, hsound' m]⟩
      rw [hoffered, hoffered']
      exact values_narrow ho htext hsource h h'

/-- A text that does not start like a flag is a value of the open argument or the next one. -/
theorem completeLast_of_value (h : g.startsLikeFlag context.text = false) :
    completeLast g o r context = match r.openFlag.or (r.nextPositional? g) with
      | none => .ok .nothing
      | some s => offer g o r context s (hint g s) := by
  have hlooks := Grammar.looksLikeFlag_of_startsLikeFlag h
  have hsingle := Grammar.isSinglePrefix_of_startsLikeFlag h
  have hslot : slot? g r context.text = r.openFlag.or (r.nextPositional? g) := by
    simp [slot?, hlooks]
  cases hs : r.openFlag.or (r.nextPositional? g) with
  | none =>
    rw [completeLast_of_no_slot (hslot.trans hs)]
    simp [hlooks, hsingle, fallback, beginsFlag]
  | some s =>
    rw [completeLast_of_slot (hslot.trans hs)]
    simp [hsingle, beginsFlag]

theorem completeLast_narrows (hfixed : ∀ a ∈ g.arguments, a.choices.isFixed = true)
    (ho : o.ignoreCase = false) (htext : context'.text = context.text ++ typed)
    (hvalue : g.startsLikeFlag context'.text = false) :
    Narrows context'.text (completeLast g o r context) (completeLast g o r context') := by
  rw [completeLast_of_value hvalue,
    completeLast_of_value (Grammar.startsLikeFlag_of_append (htext ▸ hvalue))]
  cases r.openFlag.or (r.nextPositional? g) with
  | none => exact .of_no_offer rfl
  | some s =>
    apply offer_narrows ho htext
    exact Argument.source_of_isFixed (Grammar.isFixed_argument hfixed s.id) _ _

/-- Typing on narrows the candidates, if the longer text does not start like a flag of the grammar
that it is completed by. -/
theorem narrows_of_typing (hfixed : g.FixedChoices) (ho : o.ignoreCase = false)
    (htext : q'.text = q.text ++ typed)
    (hvalue : ∀ l, Reaches o.abbreviated g parents preceding l →
      l.grammar.startsLikeFlag q'.text = false) :
    Narrows q'.text (completeTokens g o parents q (preceding ++ [q.text]))
      (completeTokens g o parents q' (preceding ++ [q'.text])) := by
  apply completeTokens_related rfl
  · simp
  · rintro out (rfl | ⟨m, rfl⟩)
    · exact .of_no_offer rfl
    · exact .of_no_offer rfl
  · intro l hl
    rw [List.dropLast_concat] at hl
    have htyped : (q'.context l.given).text = (q.context l.given).text ++ typed := htext
    exact completeLast_narrows (hl.everywhere hfixed).here ho htyped (hvalue l hl)

/-- Of the two tags of the runner in the library, only one is left when its name is typed. -/
theorem narrows_of_typing_library :
    Sample.library.grammar.FixedChoices ∧
    (∀ l, Reaches true Sample.library.grammar .empty ["--shelf", "top", "r", "-t"] l →
      l.grammar.startsLikeFlag "a" = false) ∧
    offered (completeTokens Sample.library.grammar {} .empty ⟨"", "", 0, 0⟩
      ["--shelf", "top", "r", "-t", ""]) = ["a", "b"] ∧
    Narrows "a"
      (completeTokens Sample.library.grammar {} .empty ⟨"", "", 0, 0⟩
        (["--shelf", "top", "r", "-t"] ++ [""]))
      (completeTokens Sample.library.grammar {} .empty ⟨"a", "", 0, 0⟩
        (["--shelf", "top", "r", "-t"] ++ ["a"])) := by
  have hfixed : Sample.library.grammar.FixedChoices :=
    Sample.library_everywhere Grammar.isFixed_rename (by decide) (by decide)
  have hdash : Sample.library.grammar.Everywhere fun g => g.prefixChars = "-" :=
    Sample.library_everywhere (fun g prog h => Grammar.rename_prefixChars.trans h) rfl rfl
  have hvalue : ∀ l, Reaches true Sample.library.grammar .empty ["--shelf", "top", "r", "-t"] l →
      l.grammar.startsLikeFlag "a" = false := by
    intro l hl
    rw [Grammar.startsLikeFlag, (hl.everywhere hdash).here]
    rfl
  have htext : (⟨"a", "", 0, 0⟩ : Request).text = (⟨"", "", 0, 0⟩ : Request).text ++ "a" := rfl
  exact ⟨hfixed, hvalue, rfl, narrows_of_typing (o := {}) hfixed rfl htext hvalue⟩

end Completion

end Tabwise
