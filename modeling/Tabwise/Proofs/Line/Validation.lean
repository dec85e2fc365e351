import Mathlib.Tactic.TFAE
import Tabwise.Proofs.Line.Lossless

/-! # Lines that have to be complete

Every token is read with quotes of its own. A line is nevertheless complete exactly where its quotes
are matched from its first character to its last, in tokens or not, and the quote that is given as
unfinished is the one that is open in the whole line. It stands in the last token.
-/

namespace Tabwise.Line
open Text

variable {cs line : List Char} {pos : Nat} {o : OpenQuote} {t : Token} {ts : List Token}

/-- In a text that begins at a byte, the quote stands where it was opened, outside of any other, and
nothing behind it matches it. -/
def OpenQuote.IsOpen (o : OpenQuote) (pos : Nat) (cs : List Char) : Prop :=
  isQuote o.quote = true ∧ ∃ before inside, cs = before ++ o.quote :: inside ∧
    o.start = pos + byteLength before ∧ Matched before ∧ o.quote ∉ inside

theorem regionFrom_eq_some : regionFrom pos none cs = some o ↔ o.IsOpen pos cs := by
  constructor
  · intro h
    have hquote := congrArg (Option.map OpenQuote.quote) h
    obtain ⟨hq, before, inside, rfl, hbefore, hinside⟩ := quote_regionFrom.mp hquote
    rw [regionFrom_opened hq hbefore hinside] at h
    have hstart := congrArg OpenQuote.start (Option.some.inj h)
    exact ⟨hq, before, inside, rfl, hstart.symm, hbefore, hinside⟩
  · rintro ⟨hq, before, inside, rfl, hstart, hbefore, hinside⟩
    rw [regionFrom_opened hq hbefore hinside, ← hstart]

theorem OpenQuote.IsOpen.bounds (h : o.IsOpen pos cs) :
    pos ≤ o.start ∧ o.start < pos + byteLength cs := by
  obtain ⟨-, before, inside, rfl, hstart, -, -⟩ := h
  have hsize := Char.utf8Size_pos o.quote
  rw [byteLength_append, byteLength_cons]
  omega

def Token.validate (t : Token) : Except Unterminated Token :=
  match t.openQuote with
  | some o => .error ⟨o.quote, o.start⟩
  | none => .ok t

theorem mapM_validate_of_closed (h : ∀ t ∈ ts, t.openQuote = none) :
    ts.mapM Token.validate = .ok ts := by
  induction ts with
  | nil => rfl
  | cons t ts ih =>
    rw [List.forall_mem_cons] at h
    have ht : t.validate = .ok t := by rw [Token.validate, h.1]
    rw [List.mapM_cons, ht, ih h.2]
    rfl

/-- Only the last token can be one that a complete line does not have. -/
theorem mapM_validate (h : ∀ t ∈ ts.dropLast, t.openQuote = none) :
    ts.mapM Token.validate =
      match unterminated? ts with
      | some e => .error e
      | none => .ok ts := by
  cases ts using List.reverseRecOn with
  | nil => rfl
  | append_singleton ts t =>
    rw [List.dropLast_concat] at h
    rw [List.mapM_append, mapM_validate_of_closed h]
    cases ht : t.openQuote with
    | none => simp [unterminated?, ht, Token.validate, bind, Except.bind, pure, Except.pure]
    | some o => simp [unterminated?, ht, Token.validate, bind, Except.bind]

theorem tokenize_eq_mapM (line : List Char) : tokenize line = (tokens line).mapM Token.validate :=
  (mapM_validate (lossless_tokens line).closed).symm

theorem openQuote_getLast? (line : List Char) :
    (tokens line).getLast?.bind Token.openQuote = regionFrom 0 none line := by
  rw [Reading.tokens_eq, Reading.openQuote_tokens, Reading.region_read]

theorem closed_iff_regionFrom (line : List Char) :
    (∀ t ∈ tokens line, t.openQuote = none) ↔ regionFrom 0 none line = none := by
  rw [← openQuote_getLast?]
  have hclosed := (lossless_tokens line).closed
  cases htokens : tokens line using List.reverseRecOn with
  | nil => simp
  | append_singleton ts t =>
    rw [htokens, List.dropLast_concat] at hclosed
    rw [List.forall_mem_append, List.forall_mem_singleton, List.getLast?_concat, Option.bind_some]
    exact and_iff_right hclosed

/-- What reading a line as a complete one has to do with its tokens and with its quotes. -/
structure Validates (line : List Char) (ts : List Token)
    (result : Except Unterminated (List Token)) : Prop where
  /-- Tokens are looked at one after the other, up to one that is not complete. -/
  checked : result = ts.mapM Token.validate
  ok : [∃ us, result = .ok us, ∀ t ∈ ts, t.openQuote = none,
    regionFrom 0 none line = none, Matched line].TFAE
  same : ∀ us, result = .ok us → us = ts
  error : ∀ e, result = .error e → ∃ o : OpenQuote, e = ⟨o.quote, o.start⟩ ∧
    regionFrom 0 none line = some o ∧ o.IsOpen 0 line ∧
      ∃ t, ts.getLast? = some t ∧ t.start ≤ o.start ∧ o.start < t.stop

theorem exists_last_of_regionFrom (h : regionFrom 0 none line = some o) :
    ∃ t, (tokens line).getLast? = some t ∧ t.start ≤ o.start ∧ o.start < t.stop := by
  rw [← openQuote_getLast?, Option.bind_eq_some_iff] at h
  obtain ⟨t, hlast, hopen⟩ := h
  refine ⟨t, hlast, ?_⟩
  have ht := List.mem_of_getLast? hlast
  obtain ⟨lead, raw, rest, -, rfl, -⟩ := (layout_tokens line).exists_parts ht
  rw [Token.openQuote_ofRaw, regionFrom_eq_some] at hopen
  exact hopen.bounds

/-- Both ways to read a line, for every line. -/
theorem validates_tokenize (line : List Char) : Validates line (tokens line) (tokenize line) where
  checked := tokenize_eq_mapM line
  ok := by
    tfae_have 1 ↔ 4 := by simp [tokenize_eq_ok_iff]
    tfae_have 2 ↔ 3 := closed_iff_regionFrom line
    tfae_have 3 ↔ 4 := regionFrom_eq_none 0
    tfae_finish
  same us hus := (tokenize_eq_ok_iff.mp hus).2.symm
  error e he := by
    rw [Reading.tokenize_eq, Reading.region_read] at he
    cases hregion : regionFrom 0 none line with
    | none => simp [hregion] at he
    | some o =>
      simp only [hregion, Except.error.injEq] at he
      exact ⟨o, he.symm, rfl, regionFrom_eq_some.mp hregion, exists_last_of_regionFrom hregion⟩

-- The open quote is the second one of the last token.
example : tokenize "say 'a'\"b c".toList = .error ⟨'"', 7⟩ := by decide

end Tabwise.Line
