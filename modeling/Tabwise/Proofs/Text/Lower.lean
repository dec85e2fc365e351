import Mathlib.Data.List.TakeWhile
import Tabwise.Grammar.Flags

/-! # Lower case of a text that goes on

The lower case of a text begins with that of its beginning, with one exception: a capital sigma at
the end of a word has a form of its own, and it loses this form when the word goes on.
-/

namespace Tabwise

variable {value text : String}

namespace Text
open Case

variable {cs rest before v : List Char}

/-- Whether the last character that counts is a capital sigma behind a letter. -/
def endsInFinalSigma (cs : List Char) : Bool :=
  match cs.reverse.dropWhile isIgnorable with
  | [] => false
  | c :: before => c = 'Σ' && meetsCased before

theorem endsInFinalSigma_append {u : List Char} (hv : ∀ c ∈ v, isIgnorable c = true)
    (hu : meetsCased u.reverse = true) : endsInFinalSigma (u ++ 'Σ' :: v) = true := by
  have hreverse : (u ++ 'Σ' :: v).reverse = v.reverse ++ 'Σ' :: u.reverse := by simp
  have hsigma : isIgnorable 'Σ' = false := by decide
  rw [endsInFinalSigma, hreverse, List.dropWhile_append_of_pos (by simpa using hv)]
  simp [hsigma, hu]

theorem meetsCased_of_ignorable (h : ∀ c ∈ cs, isIgnorable c = true) : meetsCased cs = false := by
  rw [meetsCased, List.dropWhile_eq_nil_iff.mpr h]

/-- What follows a text matters only if nothing in the text counts. -/
theorem meetsCased_append (cs rest : List Char) : meetsCased (cs ++ rest) =
    if cs.all isIgnorable then meetsCased rest else meetsCased cs := by
  induction cs with
  | nil => rfl
  | cons c cs ih =>
    cases hc : isIgnorable c with
    | true =>
      have hskip (cs : List Char) : meetsCased (c :: cs) = meetsCased cs := by
        rw [meetsCased, List.dropWhile_cons_of_pos hc, meetsCased]
      rw [List.cons_append, hskip, hskip, ih, List.all_cons, hc, Bool.true_and]
    | false =>
      have hmeets (cs : List Char) : meetsCased (c :: cs) = isCased c := by
        rw [meetsCased, List.dropWhile_cons_of_neg (by simp [hc])]
      rw [List.cons_append, hmeets, hmeets, List.all_cons, hc, Bool.false_and]
      rfl

/-- A text is put into lower case before what follows it if every sigma that ends a word in it ends
one in the whole as well. -/
theorem lowerAfter_append (h : ∀ u v, cs = u ++ 'Σ' :: v → (∀ c ∈ v, isIgnorable c = true) →
    meetsCased (u.reverse ++ before) = true → meetsCased rest = false) :
    lowerAfter before (cs ++ rest) =
      lowerAfter before cs ++ lowerAfter (cs.reverse ++ before) rest := by
  induction cs generalizing before with
  | nil => rfl
  | cons c cs ih =>
    have htail : lowerAfter (c :: before) (cs ++ rest) =
        lowerAfter (c :: before) cs ++ lowerAfter (cs.reverse ++ c :: before) rest := by
      apply ih
      intro u v hcs hv hu
      apply h (c :: u) v (by rw [hcs, List.cons_append]) hv
      simpa using hu
    -- only a sigma that ends a word looks beyond the text
    have hform : c = 'Σ' → (meetsCased before && !meetsCased (cs ++ rest)) =
        (meetsCased before && !meetsCased cs) := by
      intro hc
      rw [meetsCased_append]
      split
      · next hall =>
        have hignorable : ∀ c ∈ cs, isIgnorable c = true := by simpa using hall
        cases hbefore : meetsCased before with
        | false => rfl
        | true =>
          rw [h [] cs (by rw [hc, List.nil_append]) hignorable hbefore,
            meetsCased_of_ignorable hignorable]
      · rfl
    rw [List.cons_append, lowerAfter, lowerAfter, htail, List.append_assoc, List.reverse_cons,
      List.append_assoc, List.singleton_append]
    by_cases hc : c = 'Σ'
    · rw [if_pos hc, if_pos hc, hform hc]
    · rw [if_neg hc, if_neg hc]

theorem lower_prefix (h : (endsInFinalSigma cs && meetsCased rest) = false) :
    lower cs <+: lower (cs ++ rest) := by
  rw [lower, lower, lowerAfter_append]
  · exact List.prefix_append _ _
  · intro u v hcs hv hu
    rw [List.append_nil] at hu
    rw [hcs, endsInFinalSigma_append hv hu, Bool.true_and] at h
    exact h

end Text

/-- Whether a value goes on with a word that ends the text in a capital sigma. -/
def splitsSigma (text value : String) : Bool :=
  Text.endsInFinalSigma text.toList && Text.Case.meetsCased (value.toList.drop text.toList.length)

theorem startsWith_lowerString (h : startsWith value text = true)
    (hs : splitsSigma text value = false) :
    startsWith (Text.lowerString value) (Text.lowerString text) = true := by
  rw [startsWith, List.isPrefixOf_iff_prefix] at h ⊢
  obtain ⟨rest, hrest⟩ := h
  rw [splitsSigma, ← hrest, List.drop_left] at hs
  rw [Text.lowerString, Text.lowerString, String.toList_ofList, String.toList_ofList, ← hrest]
  exact Text.lower_prefix hs

example : startsWith (Text.lowerString "ΟΔΟΣΗ") (Text.lowerString "ΟΔΟΣ") = false := by decide

end Tabwise
