import Tabwise.Proofs.Line.Spelling
import Tabwise.Proofs.Line.Wrapping
import Tabwise.Proofs.Prompt.ReadBack

/-! # Inserting matches

What several matches share is inserted once: the quote it gets is the one that is then found, so
completing again changes nothing. A single match with a gap is put between quotes and is read back
as one token; one without a gap is inserted bare, and is read back where its own quotes allow it.
-/

namespace Tabwise

open Text

variable {matched : List String} {raw : String} {c : Char}

namespace Quoting

theorem decide?_of_isQuote (hne : matched ≠ []) (hraw : raw.toList.head? = some c)
    (hc : isQuote c = true) : decide? matched raw = some ⟨c, false, matched.length == 1⟩ := by
  have hempty : matched.isEmpty = false := by simpa using hne
  simp [decide?, hempty, hraw, Option.filter, hc]

theorem decide?_of_not_isQuote (hne : matched ≠ []) (hraw : raw.toList.head?.any isQuote = false) :
    decide? matched raw = if matched.any fun m => m.toList.any isGap then
      some ⟨if matched.any fun m => m.toList.contains '"' then '\'' else '"', true,
        matched.length == 1⟩ else none := by
  have hempty : matched.isEmpty = false := by simpa using hne
  have hhead : raw.toList.head?.filter isQuote = none := by
    cases h : raw.toList.head? with
    | none => rfl
    | some c => simpa [h] using hraw
  simp [decide?, hempty, hhead]

theorem close_of_decide {q : Quoting} (h : decide? matched raw = some q) :
    q.close = (matched.length == 1) := by
  unfold decide? at h
  split at h
  · cases h
  · split at h
    · cases h
      rfl
    · split at h
      · cases h
        rfl
      · cases h

end Quoting

namespace Line

variable {line raw cs : List Char} {ts : List Token} {c : Char}

theorem matched_concat_iff (hc : isQuote c = false) : Matched (cs ++ [c]) ↔ Matched cs := by
  refine ⟨fun h => ?_, fun h => h.plain hc⟩
  rcases regionFrom_cases 0 cs with ⟨-, hmatched⟩ | ⟨o, -, hopen⟩
  · exact hmatched
  · have hne : c ≠ o.quote := fun he => by simp [he, hopen.1] at hc
    exact absurd h (hopen.concat hne).not_matched

/-- A word behind a blank is a token more, if its quotes are matched. -/
theorem tokenize_append (hend : EndsBlank line) (hline : tokenize line = .ok ts) (hne : raw ≠ [])
    (hblanks : BlanksQuoted raw) (hraw : Matched raw) :
    tokenize (line ++ raw ++ [' ']) = .ok (ts ++ [Token.ofRaw (byteLength line) raw]) := by
  obtain ⟨hmatched, rfl⟩ := tokenize_eq_ok_iff.mp hline
  refine tokenize_eq_ok_iff.mpr ⟨?_, ?_⟩
  · rw [List.append_assoc, matched_append_iff hmatched, matched_concat_iff rfl]
    exact hraw
  · have hnone := Reading.pending_eq_none_iff.mpr (.inr hend)
    have hends : EndsBefore raw [' '] := .inr ⟨hraw, ' ', [], rfl, rfl⟩
    rw [List.append_assoc, Reading.tokens_eq, Reading.tokens_eq, Reading.read_append,
      Reading.tokens_read, hnone, tokensFrom_token hne hblanks hends, Reading.pos_read]
    simp [Reading.tokens, hnone, tokensFrom, isBlank]

theorem not_tokenize_append (hline : tokenize line = .ok ts) (hraw : ¬Matched raw)
    (ts' : List Token) : tokenize (line ++ raw ++ [' ']) ≠ .ok ts' := by
  intro h
  have hmatched := (tokenize_eq_ok_iff.mp h).1
  rw [List.append_assoc, matched_append_iff (tokenize_eq_ok_iff.mp hline).1,
    matched_concat_iff rfl] at hmatched
  exact hraw hmatched

/-- A word without blanks is read back as it is where it loses no quotes and leaves none open. -/
theorem exists_tokenize_append_iff (hend : EndsBlank line) (hline : tokenize line = .ok ts)
    (hne : raw ≠ []) (hblanks : BlanksQuoted raw) :
    (∃ t, tokenize (line ++ raw ++ [' ']) = .ok (ts ++ [t]) ∧ t.content = String.ofList raw) ↔
      Matched raw ∧ ¬∃ q body, SameEnds q body raw := by
  rw [← stripQuotes_ne_iff, not_not]
  by_cases hraw : Matched raw
  · have hread := tokenize_append hend hline hne hblanks hraw
    have hcontent : (Token.ofRaw (byteLength line) raw).content = String.ofList raw ↔
        stripQuotes raw = raw := by rw [Token.content_ofRaw hraw, String.ofList_inj]
    rw [hread, ← hcontent]
    simp [hraw]
  · exact ⟨fun ⟨t, ht, _⟩ => absurd ht (not_tokenize_append hline hraw _),
      fun h => absurd h.1 hraw⟩

theorem endsBlank_of_tokenize (hline : tokenize line = .ok ts)
    (hblank : line.getLast?.any isBlank = true) : EndsBlank line := by
  cases line using List.reverseRecOn with
  | nil => cases hblank
  | append_singleton init b =>
    have hb : isBlank b = true := by simpa using hblank
    have hmatched := (tokenize_eq_ok_iff.mp hline).1
    exact endsBlank_concat.mpr ⟨hb, (matched_concat_iff (isQuote_of_isBlank hb)).mp hmatched⟩

end Line

namespace Prompt
open Line

variable {line l m : String} {start stop : Nat} {ts : List Token}

/-- What was inserted for several matches is inserted for them again. -/
theorem replacement_replacement (hmany : 1 < matched.length)
    (hstart : (commonStart matched).toList.head?.any isQuote = false) (typed : String) :
    replacement (replacement typed matched) matched = replacement typed matched := by
  have hne : matched ≠ [] := List.ne_nil_of_length_pos (by omega)
  have hopen : (matched.length == 1) = false := by simpa using Nat.ne_of_gt hmany
  rw [← String.toList_inj]
  cases h : Quoting.decide? matched typed with
  | some q =>
    have hquoted := toList_replacement h
    rw [Quoting.close_of_decide h, hopen, if_neg Bool.false_ne_true, List.append_nil] at hquoted
    have hagain := Quoting.decide?_of_isQuote hne (congrArg List.head? hquoted)
      (Quoting.isQuote_of_decide h)
    rw [toList_replacement hagain, hquoted, hopen, if_neg Bool.false_ne_true, List.append_nil]
  | none =>
    have hbare : replacement typed matched = commonStart matched := by simp [replacement, h]
    have hgap : ¬(matched.any fun m => m.toList.any isGap) = true := by
      rw [List.any_eq_true]
      rintro ⟨m, hm, hany⟩
      obtain ⟨c, hc, hcgap⟩ := List.any_eq_true.mp hany
      exact Bool.false_ne_true ((Quoting.isGap_of_decide h hm hc).symm.trans hcgap)
    have hagain := Quoting.decide?_of_not_isQuote hne hstart
    rw [if_neg hgap] at hagain
    rw [hbare]
    simp [replacement, hagain]

/-- Several matches change nothing if what they share stands there already. -/
theorem completedLine?_eq_none {before part after : List Char} (hmany : 1 < matched.length)
    (hcut : cutOut? start stop line.toList = some (before, part, after))
    (hsame : replacement (String.ofList part) matched = String.ofList part) :
    completedLine? line start stop matched = none := by
  have hinserted : (replacement (String.ofList part) matched).toList = part := by
    rw [hsame, String.toList_ofList]
  simp [completedLine?, hcut, hinserted, hmany]

theorem exists_cutOut?_of_completedLine? (h : completedLine? line start stop matched = some l) :
    ∃ part, cutOut? start stop line.toList =
      some (takeBytes start line.toList, part, dropBytes stop line.toList) ∧
        start = byteLength (takeBytes start line.toList) := by
  cases hcut : cutOut? start stop line.toList with
  | none => simp [completedLine?, hcut] at h
  | some parts =>
    rw [cutOut?, Option.ite_none_right_eq_some] at hcut
    obtain ⟨hbounds, hparts⟩ := hcut
    simp only [Bool.and_eq_true] at hbounds
    exact ⟨_, hparts.symm, (isBoundary_iff.mp hbounds.1.2).symm⟩

/-- Completing twice with several matches changes nothing the second time. -/
theorem settled_of_completedLine (hmany : 2 ≤ matched.length)
    (hstart : (commonStart matched).toList.head?.any isQuote = false)
    (h : completedLine? line start stop matched = some l) :
    (cutOut? start (byteLength l.toList - byteLength (dropBytes stop line.toList))
        l.toList).isSome = true ∧
      completedLine? l start (byteLength l.toList - byteLength (dropBytes stop line.toList))
        matched = none := by
  obtain ⟨part, hcut, hbefore⟩ := exists_cutOut?_of_completedLine? h
  have hl := completedLine?_eq_some hcut h
  have hsingle : ¬(matched.length = 1 ∧ stop = byteLength line.toList) := fun hlast => by omega
  rw [if_neg hsingle, List.append_nil] at hl
  have hagain := replacement_replacement hmany hstart (String.ofList part)
  generalize replacement (String.ofList part) matched = inserted at hl hagain
  have hstop : byteLength l.toList - byteLength (dropBytes stop line.toList) =
      byteLength (takeBytes start line.toList) + byteLength inserted.toList := by
    rw [hl, byteLength_append, byteLength_append, Nat.add_sub_cancel]
  have hcut' : cutOut? start (byteLength l.toList - byteLength (dropBytes stop line.toList))
      l.toList = some (takeBytes start line.toList, inserted.toList,
        dropBytes stop line.toList) := by
    have hparts := cutOut?_append (takeBytes start line.toList) inserted.toList
      (dropBytes stop line.toList)
    rwa [← hl, ← hstop, ← hbefore] at hparts
  exact ⟨by rw [hcut']; rfl,
    completedLine?_eq_none hmany hcut' (by rwa [String.ofList_toList])⟩

/-- The quote is inserted the first time and is found the second time. -/
theorem settled_of_completedLine_speak :
    completedLine? "speak he" 6 8 ["hello you", "hello world"] = some "speak \"hello " ∧
      (cutOut? 6 13 "speak \"hello ".toList).isSome = true ∧
        completedLine? "speak \"hello " 6 13 ["hello you", "hello world"] = none := by
  have hline : completedLine? "speak he" 6 8 ["hello you", "hello world"] =
      some "speak \"hello " := by decide
  have hmany : 2 ≤ ["hello you", "hello world"].length := by decide
  have hstart : (commonStart ["hello you", "hello world"]).toList.head?.any isQuote = false := by
    decide
  exact ⟨hline, settled_of_completedLine hmany hstart hline⟩

theorem completedLine?_end (line m : String) : ∃ l,
    completedLine? line (byteLength line.toList) (byteLength line.toList) [m] = some l ∧
      l.toList = line.toList ++ (replacement "" [m]).toList ++ [' '] := by
  have hcut := cutOut?_append line.toList [] []
  rw [byteLength_nil, Nat.add_zero, List.append_nil, List.append_nil] at hcut
  have hl : ∃ l, completedLine? line (byteLength line.toList) (byteLength line.toList) [m] =
      some l := by simp [completedLine?, hcut, unquoted]
  obtain ⟨l, hl⟩ := hl
  refine ⟨l, hl, ?_⟩
  simpa using completedLine?_eq_some hcut hl

theorem replacement_end (m : String) (hquotes : '"' ∉ m.toList ∨ '\'' ∉ m.toList) :
    (m.toList.any isGap = false ∧ (replacement "" [m]).toList = m.toList) ∨
      ∃ q, isQuote q = true ∧ q ∉ m.toList ∧ m.toList.any isGap = true ∧
        (replacement "" [m]).toList = q :: (m.toList ++ [q]) := by
  have huntyped : "".toList.head?.any isQuote = false := rfl
  have hdecide := Quoting.decide?_of_not_isQuote (List.cons_ne_nil m []) huntyped
  cases hgap : m.toList.any isGap with
  | false =>
    have hnone : Quoting.decide? [m] "" = none := by simp [hdecide, hgap]
    exact .inl ⟨rfl, by simp [replacement, hnone]⟩
  | true =>
    rw [List.any_cons, hgap, Bool.true_or, if_pos rfl] at hdecide
    have hinserted := toList_replacement hdecide
    simp only [List.any_cons, List.any_nil, Bool.or_false, commonStart_singleton] at hinserted
    refine .inr ⟨_, ?_, ?_, rfl, by simpa using hinserted⟩
    · split <;> rfl
    · split
      · next hdouble => simpa [hdouble] using hquotes
      · next hdouble => simpa using hdouble

/-- The line is read as these tokens and one more with the content. -/
def AddsToken (ts : List Token) (content line : String) : Prop :=
  ∃ t, tokenize line.toList = .ok (ts ++ [t]) ∧ t.content = content

/-- A match with a gap is quoted, and is read back. One without a gap is inserted bare, and is read
back if its quotes are matched and do not stand at both of its ends. -/
theorem addsToken_completedLine (hblank : line.toList.getLast?.any isBlank = true)
    (hline : tokenize line.toList = .ok ts) (hne : m ≠ "")
    (hquotes : '"' ∉ m.toList ∨ '\'' ∉ m.toList) : ∃ l,
      completedLine? line (byteLength line.toList) (byteLength line.toList) [m] = some l ∧
        (m.toList.any isGap = true ∨ (Matched m.toList ∧ ¬∃ q body, SameEnds q body m.toList) →
          AddsToken ts m l) ∧
        (m.toList.any isGap = false → (¬Matched m.toList ∨ ∃ q body, Wraps q body m.toList) →
          ¬AddsToken ts m l) := by
  obtain ⟨l, hl, htext⟩ := completedLine?_end line m
  refine ⟨l, hl, ?_⟩
  have hend := endsBlank_of_tokenize hline hblank
  rw [AddsToken, htext]
  rcases replacement_end m hquotes with ⟨hgap, hbare⟩ | ⟨q, hq, hmem, hgap, hquoted⟩
  · have hne : m.toList ≠ [] := by simpa using hne
    have hblanks : BlanksQuoted m.toList := .of_no_blank fun c hc =>
      Bool.eq_false_iff.mpr fun hb => by
        simpa [isGap_of_isBlank hb] using List.any_eq_false.mp hgap c hc
    have hread := exists_tokenize_append_iff hend hline hne hblanks
    rw [String.ofList_toList] at hread
    rw [hbare, hread]
    refine ⟨fun h => h.resolve_left (by simp [hgap]), fun _ h hboth => ?_⟩
    rcases h with hunmatched | ⟨q, body, hwraps⟩
    · exact hunmatched hboth.1
    · exact hboth.2 ⟨q, body, hwraps.1⟩
  · let spelling := Spelling.quoted q m.toList hq hmem
    have hread := tokenize_append hend hline spelling.raw_ne_nil spelling.blanksQuoted_raw
      spelling.matched_raw
    rw [hquoted]
    refine ⟨fun _ => ⟨_, hread, ?_⟩, fun hnone => by simp [hgap] at hnone⟩
    rw [Token.content_ofRaw spelling.matched_raw, Spelling.stripQuotes_raw]
    exact String.ofList_toList

/-- An apostrophe in a word with a blank. -/
theorem addsToken_completedLine_speak : ∃ l, completedLine? "speak " 6 6 ["it's fine"] = some l ∧
    AddsToken (tokens "speak ".toList) "it's fine" l := by
  have hblank : "speak ".toList.getLast?.any isBlank = true := rfl
  have hline : tokenize "speak ".toList = .ok (tokens "speak ".toList) := rfl
  have hne : "it's fine" ≠ "" := by decide
  have hquotes : '"' ∉ "it's fine".toList ∨ '\'' ∉ "it's fine".toList := .inl (by decide)
  obtain ⟨l, hl, hread, -⟩ := addsToken_completedLine hblank hline hne hquotes
  exact ⟨l, hl, hread (.inl rfl)⟩

/-- Without the blank the word is bare, and its apostrophe opens a quote. -/
theorem not_addsToken_apostrophe : ¬∀ (line m : String) (ts : List Token),
    line.toList.getLast?.any isBlank = true → tokenize line.toList = .ok ts → m ≠ "" →
      ('"' ∉ m.toList ∨ '\'' ∉ m.toList) → ∃ l,
        completedLine? line (byteLength line.toList) (byteLength line.toList) [m] = some l ∧
          AddsToken ts m l := by
  intro h
  have hline : completedLine? "speak " 6 6 ["it's"] = some "speak it's " := by decide
  have hopen : tokenize "speak it's ".toList = .error ⟨'\'', 8⟩ := rfl
  obtain ⟨l, hl, t, ht, -⟩ := h "speak " "it's" _ rfl rfl (by decide) (.inl (by decide))
  obtain rfl := Option.some.inj (hl.symm.trans hline)
  cases hopen.symm.trans ht

end Prompt

end Tabwise
