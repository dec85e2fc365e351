import Tabwise.Proofs.Line.Validation

/-! # Quotes around a token

A token loses its first and its last character where both are the same quote. In a complete line
these are a pair around all of the token, or they belong to two regions, one at each end of the
token, and what stands between the regions opens and closes its own quotes.
-/

namespace Tabwise.Line
open Text

variable {q : Char} {body raw line : List Char} {t : Token} {ts : List Token}

def SameEnds (q : Char) (body raw : List Char) : Prop :=
  isQuote q = true ∧ raw = q :: (body ++ [q])

/-- The quote that opens at the first character of a text is closed by the last one. -/
def Wraps (q : Char) (body raw : List Char) : Prop := SameEnds q body raw ∧ q ∉ body

/-- One region of the quote begins a text, and another one ends it. -/
def Flanks (q : Char) (body raw : List Char) : Prop :=
  SameEnds q body raw ∧ ∃ first between last,
    body = first ++ q :: (between ++ q :: last) ∧ q ∉ first ∧ Matched between ∧ q ∉ last

theorem SameEnds.stripQuotes_eq (h : SameEnds q body raw) : stripQuotes raw = body := by
  obtain ⟨hq, rfl⟩ := h
  exact stripQuotes_quoted hq

theorem stripQuotes_ne_iff : stripQuotes raw ≠ raw ↔ ∃ q body, SameEnds q body raw := by
  constructor
  · intro hne
    cases raw with
    | nil => exact absurd rfl hne
    | cons q cs =>
      rw [stripQuotes] at hne
      split at hne
      · next hends =>
        rw [Bool.and_eq_true, decide_eq_true_eq] at hends
        obtain ⟨body, rfl⟩ := List.getLast?_eq_some_iff.mp hends.2
        exact ⟨q, body, hends.1, rfl⟩
      · exact absurd rfl hne
  · rintro ⟨q, body, h⟩ heq
    have hlength := congrArg List.length (h.stripQuotes_eq.symm.trans (heq.trans h.2))
    rw [List.length_cons, List.length_append] at hlength
    omega

/-- Where the first quote is closed before the end, the last one closes one that opened later. -/
theorem sameEnds_iff (h : Matched raw) :
    SameEnds q body raw ↔ Wraps q body raw ∨ Flanks q body raw := by
  refine ⟨fun hends => ?_, fun hpair => hpair.elim And.left And.left⟩
  by_cases hmem : q ∈ body
  · refine .inr ⟨hends, ?_⟩
    obtain ⟨hq, rfl⟩ := hends
    obtain ⟨first, rest, rfl, hfirst⟩ := List.eq_append_cons_of_mem hmem
    have hopening : Matched (q :: (first ++ [q])) := by simpa using Matched.nil.quoted hq hfirst
    have hrest : Matched (rest ++ [q]) := (matched_append_iff hopening).mp (by simpa using h)
    rcases regionFrom_cases 0 rest with ⟨-, hm⟩ | ⟨o, -, hopen⟩
    · exact absurd hrest (hm.unmatched hq).not_matched
    · by_cases ho : q = o.quote
      · obtain ⟨-, between, last, rfl, hbetween, hlast⟩ := ho ▸ hopen
        exact ⟨first, between, last, rfl, hfirst, hbetween, hlast⟩
      · exact absurd hrest (hopen.concat ho).not_matched
  · exact .inl ⟨hends, hmem⟩

theorem matched_of_tokenize (hline : tokenize line = .ok ts) (ht : t ∈ ts) :
    ∃ pos raw, t = .ofRaw pos raw ∧ Matched raw := by
  obtain ⟨hmatched, rfl⟩ := tokenize_eq_ok_iff.mp hline
  have hclosed := (closed_iff_regionFrom line).mpr (regionFrom_of_matched hmatched) t ht
  obtain ⟨lead, raw, rest, -, rfl, -⟩ := (layout_tokens line).exists_parts ht
  exact ⟨_, raw, rfl, (regionFrom_eq_none _).mp hclosed⟩

/-- A token loses its quotes where they are a pair around it, and also where one region of a quote
begins it and another region of that quote ends it. The content is what stands between them. -/
theorem stripped_of_tokenize (hline : tokenize line = .ok ts) (ht : t ∈ ts) :
    (t.content ≠ t.raw ↔
        ∃ q body, Wraps q body t.raw.toList ∨ Flanks q body t.raw.toList) ∧
      ∀ q body, Wraps q body t.raw.toList ∨ Flanks q body t.raw.toList →
        t.content = String.ofList body := by
  obtain ⟨pos, raw, rfl, hmatched⟩ := matched_of_tokenize hline ht
  rw [Token.content_ofRaw hmatched, Token.raw_ofRaw, String.toList_ofList, Ne, String.ofList_inj]
  simp only [← sameEnds_iff hmatched]
  exact ⟨stripQuotes_ne_iff, fun q body h => congrArg String.ofList h.stripQuotes_eq⟩

theorem stripped_of_tokenize_say : ∃ ts t, tokenize "say 'it\"s'".toList = .ok ts ∧ t ∈ ts ∧
    t.raw = "'it\"s'" ∧ t.content ≠ t.raw ∧ t.content = "it\"s" := by
  have hline : tokenize "say 'it\"s'".toList = .ok (tokens "say 'it\"s'".toList) := rfl
  have ht : Token.ofRaw 4 "'it\"s'".toList ∈ tokens "say 'it\"s'".toList :=
    List.mem_of_getLast? rfl
  have hwraps : Wraps '\'' "it\"s".toList "'it\"s'".toList := ⟨⟨rfl, rfl⟩, by decide⟩
  obtain ⟨hiff, hcontent⟩ := stripped_of_tokenize hline ht
  exact ⟨_, _, hline, ht, rfl, hiff.mpr ⟨_, _, .inl hwraps⟩, hcontent _ _ (.inl hwraps)⟩

/-- The first quote is closed after one letter, and still goes with the last one. -/
theorem stripped_of_tokenize_flanked : ∃ ts t, tokenize "'a'b'c'".toList = .ok ts ∧ t ∈ ts ∧
    t.raw = "'a'b'c'" ∧ t.content = "a'b'c" ∧ ¬∃ q body, Wraps q body t.raw.toList := by
  refine ⟨_, Token.ofRaw 0 "'a'b'c'".toList, rfl, List.mem_of_getLast? rfl, rfl, rfl, ?_⟩
  rintro ⟨q, body, ⟨-, hraw⟩, hbody⟩
  obtain ⟨rfl, htail⟩ := List.cons.inj hraw
  have hdrop := congrArg List.dropLast htail
  rw [List.dropLast_concat] at hdrop
  exact hbody (hdrop ▸ by decide)

end Tabwise.Line
