import Mathlib.Data.List.Chain
import Tabwise.Proofs.Line.Layout

/-! # Nothing of a line is lost

The tokens of a line, put back where they stand, leave out blanks only. Each goes as far as its
quotes allow, and the only quote that can be open is one at the end of the line.
-/

namespace Tabwise.Line
open Text

variable {before word gap raw rest cs line : List Char} {t : Token} {ts : List Token}

/-- A token is a part of a line, from a character that is not a blank to the line's end or to a
blank that is not in quotes. -/
structure Token.LiesIn (t : Token) (line : List Char) : Prop where
  start : isBoundary t.start line = true
  stop : isBoundary t.stop line = true
  lt : t.start < t.stop
  raw : t.raw.toList = slice t.start t.stop line
  head : ∃ c cs, t.raw.toList = c :: cs ∧ isBlank c = false
  quoted : BlanksQuoted t.raw.toList
  ends : EndsBefore t.raw.toList (dropBytes t.stop line)
  /-- The quote that is given as open is the one that is. -/
  unmatched : ∀ q, t.openQuote.map OpenQuote.quote = some q ↔ Unmatched q t.raw.toList

/-- The tokens of a line with what they leave out. -/
structure Lossless (line : List Char) (ts : List Token) : Prop where
  token : ∀ t ∈ ts, t.LiesIn line
  /-- Before the first token; all of a line without tokens. -/
  lead : ∀ c ∈ takeBytes ((ts.head?.map Token.start).getD (byteLength line)) line, isBlank c = true
  between : ts.IsChain fun t u =>
    t.stop < u.start ∧ ∀ c ∈ slice t.stop u.start line, isBlank c = true
  /-- Behind the last token. -/
  trail : ∀ c ∈ dropBytes ((ts.getLast?.map Token.stop).getD 0) line, isBlank c = true
  closed : ∀ t ∈ ts.dropLast, t.openQuote = none
  open_stop : ∀ t ∈ ts, t.openQuote ≠ none → t.stop = byteLength line

theorem liesIn_ofRaw (hne : raw ≠ []) (hraw : BlanksQuoted raw) (hends : EndsBefore raw rest) :
    (Token.ofRaw (byteLength before) raw).LiesIn (before ++ raw ++ rest) where
  start := by
    rw [List.append_assoc]
    exact isBoundary_byteLength before (raw ++ rest)
  stop := by
    rw [Token.stop_ofRaw, ← byteLength_append]
    exact isBoundary_byteLength (before ++ raw) rest
  lt := Nat.lt_add_of_pos_right (byteLength_pos hne)
  raw := by
    rw [Token.start_ofRaw, Token.stop_ofRaw, slice_append]
    exact String.toList_ofList
  head := by
    cases raw with
    | nil => cases hne rfl
    | cons c cs => exact ⟨c, cs, String.toList_ofList, hraw.head⟩
  quoted := by simpa using hraw
  ends := by
    rw [Token.stop_ofRaw, ← byteLength_append, dropBytes_byteLength]
    simpa using hends
  unmatched q := by
    rw [Token.openQuote_ofRaw, quote_regionFrom]
    simp

namespace Layout

theorem exists_parts (h : Layout before cs ts) (ht : t ∈ ts) : ∃ lead raw rest,
    before ++ cs = lead ++ raw ++ rest ∧ t = .ofRaw (byteLength lead) raw ∧
      raw ≠ [] ∧ BlanksQuoted raw ∧ EndsBefore raw rest := by
  induction h with
  | blanks hgap => cases ht
  | @token before gap raw rest ts hgap hne hraw hends hrest ih =>
    rcases List.mem_cons.mp ht with rfl | ht
    · exact ⟨before ++ gap, raw, rest, by simp, rfl, hne, hraw, hends⟩
    · simpa using ih ht

theorem lead (h : Layout [] line ts) :
    ∀ c ∈ takeBytes ((ts.head?.map Token.start).getD (byteLength line)) line, isBlank c = true := by
  cases h with
  | blanks hgap => simpa using hgap
  | @token _ gap raw rest ts hgap hne hraw hends hrest => simpa using hgap

theorem gap_ne_nil (hne : raw ≠ []) (hraw : BlanksQuoted raw)
    (hends : EndsBefore word (gap ++ raw ++ rest)) : gap ≠ [] := by
  rintro rfl
  cases raw with
  | nil => cases hne rfl
  | cons c cs =>
    rcases hends with hnil | ⟨-, b, after, heq, hb⟩
    · cases hnil
    · cases heq
      cases hraw.head.symm.trans hb

theorem between (h : Layout before cs ts) : ts.IsChain fun t u =>
    t.stop < u.start ∧ ∀ c ∈ slice t.stop u.start (before ++ cs), isBlank c = true := by
  induction h with
  | blanks hgap => exact .nil
  | @token before gap raw rest ts hgap hne hraw hends hrest ih =>
    rw [List.isChain_cons]
    refine ⟨fun u hu => ?_, by simpa using ih⟩
    cases hrest with
    | blanks hgap' => cases hu
    | @token _ gap' raw' rest' _ hgap' hne' hraw' hends' hrest' =>
      cases hu
      have hgap'' := byteLength_pos (gap_ne_nil hne' hraw' hends)
      have hslice := slice_append (before ++ gap ++ raw) gap' (raw' ++ rest')
      rw [Token.stop_ofRaw, Token.start_ofRaw, ← byteLength_append, byteLength_append _ gap']
      refine ⟨Nat.lt_add_of_pos_right hgap'', ?_⟩
      simp only [List.append_assoc] at hslice ⊢
      rw [hslice]
      exact hgap'

theorem trail (h : Layout before cs ts) : ∀ c ∈ dropBytes
    ((ts.getLast?.map Token.stop).getD (byteLength before)) (before ++ cs), isBlank c = true := by
  induction h with
  | blanks hgap => simpa using hgap
  | @token before gap raw rest ts hgap hne hraw hends hrest ih =>
    cases hts : ts.getLast? <;> simpa [List.getLast?_cons, hts, Nat.add_assoc] using ih

theorem closed (h : Layout before cs ts) : ∀ t ∈ ts.dropLast, t.openQuote = none := by
  induction h with
  | blanks hgap => simp
  | @token before gap raw rest ts hgap hne hraw hends hrest ih =>
    cases hrest with
    | blanks hgap' => simp
    | token hgap' hne' hraw' hends' hrest' =>
      rw [List.dropLast_cons_of_ne_nil (List.cons_ne_nil _ _), List.forall_mem_cons]
      refine ⟨?_, ih⟩
      rcases hends with hnil | ⟨hm, -⟩
      · simp [hne'] at hnil
      · exact regionFrom_of_matched hm

end Layout

/-- What the tokens of a line are, whatever the line. -/
theorem lossless_tokens (line : List Char) : Lossless line (tokens line) := by
  have h : Layout [] line (tokens line) := layout_iff.mpr rfl
  refine ⟨fun t ht => ?_, h.lead, h.between, h.trail, h.closed, fun t ht hopen => ?_⟩
  · obtain ⟨lead, raw, rest, hline, rfl, hne, hraw, hends⟩ := h.exists_parts ht
    rw [List.nil_append] at hline
    exact hline ▸ liesIn_ofRaw hne hraw hends
  · obtain ⟨lead, raw, rest, hline, rfl, hne, hraw, hends⟩ := h.exists_parts ht
    rcases hends with rfl | ⟨hm, -⟩
    · simpa using congrArg byteLength hline.symm
    · exact absurd (regionFrom_of_matched hm) hopen

end Tabwise.Line
