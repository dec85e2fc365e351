import Tabwise.Proofs.Line.Layout

/-! # Words as they are written

A word is written as it is or between two quotes that it does not hold. A line of words with blanks
between them is read as these words, with what was written as their raw form.
-/

namespace Tabwise.Line
open Text

inductive Spelling where
  | bare (word : List Char) (ne_nil : word ≠ [])
      (plain : ∀ c ∈ word, isBlank c = false ∧ isQuote c = false)
  | quoted (quote : Char) (word : List Char) (is_quote : isQuote quote = true)
      (not_mem : quote ∉ word)

abbrev Gap := { gap : List Char // ∀ c ∈ gap, isBlank c = true }

namespace Spelling

def word : Spelling → List Char
  | bare word _ _ => word
  | quoted _ word _ _ => word

def raw : Spelling → List Char
  | bare word _ _ => word
  | quoted quote word _ _ => quote :: (word ++ [quote])

theorem raw_ne_nil (s : Spelling) : s.raw ≠ [] := by
  cases s with
  | bare word hne hplain => exact hne
  | quoted q word hq hword => exact List.cons_ne_nil _ _

theorem matched_raw (s : Spelling) : Matched s.raw := by
  cases s with
  | bare word hne hplain => exact matched_of_plain fun c hc => (hplain c hc).2
  | quoted q word hq hword => exact Matched.nil.quoted hq hword

theorem blanksQuoted_raw (s : Spelling) : BlanksQuoted s.raw := by
  cases s with
  | bare word hne hplain => exact .of_no_blank fun c hc => (hplain c hc).1
  | quoted q word hq hword =>
    have hinside : BlanksQuoted (q :: word) := by
      induction word using List.reverseRecOn with
      | nil => exact BlanksQuoted.nil.concat fun hb => by simp [isBlank_of_isQuote hq] at hb
      | append_singleton word c ih =>
        rw [List.mem_append, not_or] at hword
        exact (ih hword.1).concat fun _ => ⟨q, hq, [], word, rfl, .nil, hword.1⟩
    exact hinside.concat fun hb => by simp [isBlank_of_isQuote hq] at hb

theorem stripQuotes_raw (s : Spelling) : stripQuotes s.raw = s.word := by
  cases s with
  | bare word hne hplain => exact stripQuotes_bare fun c hc => (hplain c hc).2
  | quoted q word hq hword => exact stripQuotes_quoted hq

/-- A line of words, each with the blanks that follow it. -/
def line (lead : Gap) : List (Spelling × Gap) → List Char
  | [] => lead.val
  | (s, gap) :: ss => lead.val ++ s.raw ++ line gap ss

variable {lead gap : Gap} {s : Spelling} {ss : List (Spelling × Gap)}

theorem matched_line (lead : Gap) (ss : List (Spelling × Gap)) : Matched (line lead ss) := by
  induction ss generalizing lead with
  | nil => exact matched_of_plain fun c hc => isQuote_of_isBlank (lead.property c hc)
  | cons s ss ih =>
    have hlead := matched_of_plain fun c hc => isQuote_of_isBlank (lead.property c hc)
    rw [line, List.append_assoc, matched_append_iff hlead, matched_append_iff s.1.matched_raw]
    exact ih s.2

theorem endsBefore_line (hgap : ss ≠ [] → gap.val ≠ []) : EndsBefore s.raw (line gap ss) := by
  obtain ⟨cs, hblank⟩ := gap
  cases cs with
  | nil =>
    have hss : ss = [] := by
      by_contra hne
      exact hgap hne rfl
    exact .inl (by rw [hss, line])
  | cons b cs =>
    have hb := hblank b (List.mem_cons_self ..)
    cases ss with
    | nil => exact .inr ⟨s.matched_raw, b, cs, rfl, hb⟩
    | cons s' ss => exact .inr ⟨s.matched_raw, b, cs ++ s'.1.raw ++ line s'.2 ss, by simp [line], hb⟩

theorem tokensFrom_line (pos : Nat) (lead : Gap) (h : ∀ s ∈ ss.dropLast, s.2.val ≠ []) :
    (tokensFrom pos none (line lead ss)).map Token.content =
        ss.map (fun s => String.ofList s.1.word) ∧
      (tokensFrom pos none (line lead ss)).map Token.raw =
        ss.map fun s => String.ofList s.1.raw := by
  induction ss generalizing pos lead with
  | nil =>
    rw [line, ← List.append_nil lead.val, tokensFrom_blanks lead.property]
    exact ⟨rfl, rfl⟩
  | cons s ss ih =>
    have hgap : ss ≠ [] → s.2.val ≠ [] := fun hne => h s (by simp [List.dropLast_cons_of_ne_nil hne])
    have hrest : ∀ s ∈ ss.dropLast, s.2.val ≠ [] := fun t ht => h t (by
      cases ss with
      | nil => cases ht
      | cons u us => exact List.mem_cons_of_mem _ ht)
    rw [line, List.append_assoc, tokensFrom_blanks lead.property,
      tokensFrom_token s.1.raw_ne_nil s.1.blanksQuoted_raw (endsBefore_line hgap)]
    obtain ⟨hcontent, hraw⟩ := ih (pos + byteLength lead.val + byteLength s.1.raw) s.2 hrest
    simp [hcontent, hraw, Token.content_ofRaw s.1.matched_raw, stripQuotes_raw]

/-- Words are read back from a line in which blanks stand between them. -/
theorem tokenize_line (lead : Gap) (ss : List (Spelling × Gap))
    (h : ∀ s ∈ ss.dropLast, s.2.val ≠ []) : ∃ ts, tokenize (line lead ss) = .ok ts ∧
      ts.map Token.content = ss.map (fun s => String.ofList s.1.word) ∧
        ts.map Token.raw = ss.map fun s => String.ofList s.1.raw :=
  ⟨_, tokenize_eq_ok_iff.mpr ⟨matched_line lead ss, rfl⟩, tokensFrom_line 0 lead h⟩

/-- A bare word, one that holds a blank and the other quote, and an empty one. -/
def speakWords : List (Spelling × Gap) := [
  (bare "speak".toList (by simp) (by simp [isBlank, isQuote, quotes]),
    ⟨[' ', '\t'], by simp [isBlank]⟩),
  (quoted '"' "it's fine".toList rfl (by simp), ⟨[' '], by simp [isBlank]⟩),
  (quoted '\'' [] rfl List.not_mem_nil, ⟨[], List.forall_mem_nil _⟩)]

theorem tokenize_line_speak : ∃ ts, tokenize " speak \t\"it's fine\" ''".toList = .ok ts ∧
    ts.map Token.content = ["speak", "it's fine", ""] ∧
      ts.map Token.raw = ["speak", "\"it's fine\"", "''"] := by
  have hgap : ∀ s ∈ speakWords.dropLast, s.2.val ≠ [] := by simp [speakWords]
  exact tokenize_line ⟨[' '], by simp [isBlank]⟩ speakWords hgap

end Spelling

end Tabwise.Line
