import Tabwise.Proofs.Line.Quotes

/-! # The layout of a line

A line is tokens with blanks around them. A blank belongs to a token where one of the token's quotes
is open, and the token goes on to the next blank that does not. This settles what the tokens of a
line are: they are laid out so, and no others.
-/

namespace Tabwise.Line
open Text

variable {c : Char} {before cs gap raw rest : List Char} {pos : Nat} {ts : List Token}

/-- A blank stands only where a quote is open. -/
def BlanksQuoted (raw : List Char) : Prop :=
  ∀ before b, before ++ [b] <+: raw → isBlank b = true → ∃ q, Unmatched q before

namespace BlanksQuoted

theorem nil : BlanksQuoted [] := by
  intro before b hbefore
  simp at hbefore

theorem concat (h : BlanksQuoted raw) (hc : isBlank c = true → ∃ q, Unmatched q raw) :
    BlanksQuoted (raw ++ [c]) := by
  intro before b hbefore hb
  rcases List.prefix_concat_iff.mp hbefore with heq | hbefore
  · obtain ⟨rfl, hbc⟩ := List.append_inj' heq rfl
    cases hbc
    exact hc hb
  · exact h before b hbefore hb

theorem mono (h : BlanksQuoted cs) (hraw : raw <+: cs) : BlanksQuoted raw :=
  fun before b hbefore => h before b (hbefore.trans hraw)

theorem head (h : BlanksQuoted (c :: cs)) : isBlank c = false := by
  refine Bool.eq_false_iff.mpr fun hc => ?_
  obtain ⟨q, -, before, inside, hnil, -⟩ := h [] c (List.prefix_append [c] cs) hc
  simp at hnil

theorem of_no_blank (h : ∀ c ∈ raw, isBlank c = false) : BlanksQuoted raw := by
  intro before b hbefore hb
  have hmem : b ∈ raw := hbefore.subset (List.mem_append_right _ (List.mem_singleton_self b))
  simp [h b hmem] at hb

end BlanksQuoted

def EndsBefore (raw rest : List Char) : Prop :=
  rest = [] ∨ Matched raw ∧ ∃ b after, rest = b :: after ∧ isBlank b = true

/-- The token that is written at a byte. -/
def Token.ofRaw (pos : Nat) (raw : List Char) : Token := .make pos raw (regionFrom pos none raw)

@[simp] theorem Token.start_ofRaw : (Token.ofRaw pos raw).start = pos := rfl

@[simp] theorem Token.stop_ofRaw : (Token.ofRaw pos raw).stop = pos + byteLength raw := rfl

@[simp] theorem Token.raw_ofRaw : (Token.ofRaw pos raw).raw = String.ofList raw := rfl

theorem Token.openQuote_ofRaw : (Token.ofRaw pos raw).openQuote = regionFrom pos none raw := rfl

theorem Token.content_ofRaw (h : Matched raw) :
    (Token.ofRaw pos raw).content = String.ofList (stripQuotes raw) := by
  simp [Token.ofRaw, Token.make, regionFrom_of_matched h]

/-- The tokens of a text behind another one that leaves no token pending. -/
inductive Layout : List Char → List Char → List Token → Prop
  | blanks {before gap : List Char} (hgap : ∀ c ∈ gap, isBlank c = true) : Layout before gap []
  | token {before gap raw rest : List Char} {ts : List Token}
      (hgap : ∀ c ∈ gap, isBlank c = true) (hne : raw ≠ []) (hraw : BlanksQuoted raw)
      (hends : EndsBefore raw rest) (hrest : Layout (before ++ gap ++ raw) rest ts) :
      Layout before (gap ++ raw ++ rest) (Token.ofRaw (byteLength (before ++ gap)) raw :: ts)

theorem Layout.append_blanks (hgap : ∀ c ∈ gap, isBlank c = true)
    (h : Layout (before ++ gap) cs ts) : Layout before (gap ++ cs) ts := by
  cases h with
  | blanks hgap' => exact .blanks (List.forall_mem_append.mpr ⟨hgap, hgap'⟩)
  | @token _ gap' raw rest ts hgap' hne hraw hends hrest =>
    rw [List.append_assoc before] at hrest ⊢
    simpa using Layout.token (List.forall_mem_append.mpr ⟨hgap, hgap'⟩) hne hraw hends hrest

/-- The two parts are for a text where no token is pending and for one behind a pending token. -/
theorem layout_pending (before cs : List Char) :
    Layout before cs (tokensFrom (byteLength before) none cs) ∧
      ∀ first raw, raw ≠ [] → BlanksQuoted raw → before = first ++ raw →
        Layout first (raw ++ cs) (tokensFrom (byteLength before)
          (some ⟨byteLength first, raw.reverse, regionFrom (byteLength first) none raw⟩) cs) := by
  induction cs generalizing before with
  | nil =>
    refine ⟨.blanks (by simp), ?_⟩
    rintro first raw hne hraw rfl
    have hlast : Layout (first ++ [] ++ raw) [] [] := .blanks (by simp)
    simpa [tokensFrom, Pending.finish, Token.ofRaw] using
      Layout.token (by simp) hne hraw (.inl rfl) hlast
  | cons c cs ih =>
    have hnone : Layout before (c :: cs) (tokensFrom (byteLength before) none (c :: cs)) := by
      obtain ⟨hrest, hpending⟩ := ih (before ++ [c])
      cases hc : isBlank c with
      | true => simpa [tokensFrom, hc] using Layout.append_blanks (by simp [hc]) hrest
      | false =>
        have hfirst : BlanksQuoted ([] ++ [c]) := BlanksQuoted.nil.concat (by simp [hc])
        simpa [tokensFrom, hc, regionFrom] using
          hpending before [c] (List.cons_ne_nil _ _) hfirst rfl
    -- The pending token ends before a blank outside of its quotes, and grows by all else.
    refine ⟨hnone, ?_⟩
    rintro first raw hne hraw rfl
    by_cases hends : regionFrom (byteLength first) none raw = none ∧ isBlank c = true
    · have hbehind : EndsBefore raw (c :: cs) :=
        .inr ⟨(regionFrom_eq_none _).mp hends.1, c, cs, rfl, hends.2⟩
      have hrest : Layout (first ++ [] ++ raw) (c :: cs)
          (tokensFrom (byteLength (first ++ raw)) none (c :: cs)) := by simpa using hnone
      simpa [tokensFrom, hends, Pending.finish, Token.ofRaw] using
        Layout.token (by simp) hne hraw hbehind hrest
    · have hgrows : BlanksQuoted (raw ++ [c]) := by
        refine hraw.concat fun hc => ?_
        rcases regionFrom_cases (byteLength first) raw with ⟨hnone, -⟩ | ⟨o, -, hopen⟩
        · exact absurd ⟨hnone, hc⟩ hends
        · exact ⟨o.quote, hopen⟩
      simpa [tokensFrom, hends, regionFrom_concat, Nat.add_assoc] using
        (ih (first ++ raw ++ [c])).2 first (raw ++ [c]) (by simp) hgrows (by simp)

theorem tokensFrom_blanks (hgap : ∀ c ∈ gap, isBlank c = true) :
    tokensFrom pos none (gap ++ cs) = tokensFrom (pos + byteLength gap) none cs := by
  induction gap generalizing pos with
  | nil => rfl
  | cons c gap ih =>
    rw [List.forall_mem_cons] at hgap
    simp [tokensFrom, hgap.1, ih hgap.2, Nat.add_assoc]

theorem tokensFrom_pending (hne : raw ≠ []) (hraw : BlanksQuoted raw) :
    tokensFrom pos none (raw ++ rest) =
      tokensFrom (pos + byteLength raw)
        (some ⟨pos, raw.reverse, regionFrom pos none raw⟩) rest := by
  induction raw using List.reverseRecOn generalizing rest with
  | nil => cases hne rfl
  | append_singleton raw c ih =>
    rw [List.append_assoc]
    by_cases hnil : raw = []
    · have hc : isBlank c = false := by
        rw [hnil] at hraw
        exact hraw.head
      simp [hnil, tokensFrom, hc, regionFrom]
    · have hgrows : ¬(regionFrom pos none raw = none ∧ isBlank c = true) := by
        rintro ⟨hnone, hc⟩
        obtain ⟨q, hopen⟩ := hraw raw c List.prefix_rfl hc
        simpa [hnone] using regionFrom_of_unmatched pos hopen
      rw [ih hnil (hraw.mono (List.prefix_append _ _))]
      simp [tokensFrom, hgrows, regionFrom_concat, Nat.add_assoc]

theorem tokensFrom_token (hne : raw ≠ []) (hraw : BlanksQuoted raw) (hends : EndsBefore raw rest) :
    tokensFrom pos none (raw ++ rest) =
      Token.ofRaw pos raw :: tokensFrom (pos + byteLength raw) none rest := by
  rw [tokensFrom_pending hne hraw]
  rcases hends with rfl | ⟨hm, b, after, rfl, hb⟩
  · simp [tokensFrom, Pending.finish, Token.ofRaw]
  · simp [tokensFrom, Pending.finish, Token.ofRaw, regionFrom_of_matched hm, hb]

theorem layout_iff : Layout before cs ts ↔ ts = tokensFrom (byteLength before) none cs := by
  refine ⟨fun h => ?_, fun h => h ▸ (layout_pending before cs).1⟩
  induction h with
  | @blanks before gap hgap =>
    rw [← List.append_nil gap, tokensFrom_blanks hgap]
    rfl
  | token hgap hne hraw hends hrest ih =>
    rw [List.append_assoc, tokensFrom_blanks hgap, tokensFrom_token hne hraw hends,
      ← byteLength_append, ← byteLength_append, ← ih]

theorem layout_tokens (line : List Char) : Layout [] line (tokens line) := layout_iff.mpr rfl

theorem tokens_eq_nil_iff : tokens cs = [] ↔ ∀ c ∈ cs, isBlank c = true := by
  refine ⟨fun hnil => ?_, fun hblank => ?_⟩
  · have h : Layout [] cs [] := layout_iff.mpr hnil.symm
    cases h with
    | blanks hgap => exact hgap
  · have h : Layout [] cs [] := .blanks hblank
    exact (layout_iff.mp h).symm

theorem endsBlank_of_tokens_eq_nil (h : tokens cs = []) : cs = [] ∨ EndsBlank cs := by
  have hblank := tokens_eq_nil_iff.mp h
  cases cs using List.reverseRecOn with
  | nil => exact .inl rfl
  | append_singleton init b =>
    rw [List.forall_mem_append, List.forall_mem_singleton] at hblank
    have hinit := matched_of_plain fun c hc => isQuote_of_isBlank (hblank.1 c hc)
    exact .inr (endsBlank_concat.mpr ⟨hblank.2, hinit⟩)

end Tabwise.Line
