import Tabwise.Prompt
import Tabwise.Proofs.Line.Scan
import Tabwise.Proofs.Prompt.CommonStart

/-! # Reading back what was inserted

What replaces the typed token is quoted so that the line, scanned behind it, has the tokens it had
and the inserted text as the last one.
-/

namespace Tabwise

variable {matched : List String} {c : Char}

theorem Text.isGap_of_isBlank (h : Text.isBlank c = true) : Text.isGap c = true := by
  have hc : c = ' ' ∨ c = '\t' := by simpa [Text.isBlank] using h
  rcases hc with rfl | rfl <;> rfl

namespace Quoting

variable {raw : String} {q : Quoting}

theorem isQuote_of_decide (h : decide? matched raw = some q) : Text.isQuote q.quote = true := by
  unfold decide? at h
  split at h
  · cases h
  · split at h
    · next quote hhead =>
      cases h
      exact (Option.filter_eq_some_iff.mp hhead).2
    · split at h
      · cases h
        split <;> rfl
      · cases h

theorem isGap_of_decide (h : decide? matched raw = none) {m : String} (hm : m ∈ matched)
    (hc : c ∈ m.toList) : Text.isGap c = false := by
  unfold decide? at h
  split at h
  · next hempty => simp [List.isEmpty_iff.mp hempty] at hm
  · split at h
    · cases h
    · split at h
      · cases h
      · next hgap =>
        simp only [Bool.not_eq_true, List.any_eq_false] at hgap
        simpa using hgap m hm c hc

end Quoting

namespace Prompt
open Line Text

variable {line l typed : String} {start stop cursor : Nat} {q : Quoting}

theorem toList_replacement (h : Quoting.decide? matched typed = some q) :
    (replacement typed matched).toList =
      q.quote :: ((commonStart matched).toList ++ if q.close then [q.quote] else []) := by
  obtain ⟨quote, insertOpening, close⟩ := q
  cases insertOpening <;> cases close <;> simp [replacement, h, Quoting.apply]

theorem replacement_readsAs (typed : String)
    (hquote : ∀ m ∈ matched, ∀ c ∈ m.toList, isQuote c = false) :
    ReadsAs (replacement typed matched).toList (commonStart matched) := by
  have hshared : ∀ c ∈ (commonStart matched).toList, isQuote c = false := by
    intro c hc
    obtain ⟨m, hm, hc⟩ := mem_of_mem_commonStart hc
    exact hquote m hm c hc
  cases h : Quoting.decide? matched typed with
  | none =>
    have hbare : ∀ c ∈ (commonStart matched).toList, isBlank c = false ∧ isQuote c = false := by
      intro c hc
      obtain ⟨m, hm, hmc⟩ := mem_of_mem_commonStart hc
      have hgap := Quoting.isGap_of_decide h hm hmc
      exact ⟨Bool.eq_false_iff.mpr fun hb => by simp [isGap_of_isBlank hb] at hgap, hshared c hc⟩
    simpa [replacement, h] using readsAs_bare hbare
  | some q =>
    have hq := Quoting.isQuote_of_decide h
    have hbody : q.quote ∉ (commonStart matched).toList := fun hm => by
      simp [hshared q.quote hm] at hq
    rw [toList_replacement h]
    cases q.close with
    | false => simpa using readsAs_opened hq hbody
    | true => simpa using readsAs_quoted hq hbody

/-- Only the cut is replaced; a space follows a single match at the end of the line. -/
theorem completedLine?_eq_some {before part after : List Char}
    (hcut : cutOut? start stop line.toList = some (before, part, after))
    (h : completedLine? line start stop matched = some l) :
    l.toList = before ++ (replacement (String.ofList part) matched).toList ++ after ++
      if matched.length = 1 ∧ stop = byteLength line.toList then [' '] else [] := by
  simp only [completedLine?, hcut, bind, Option.bind_some, Option.bind_none, pure,
    Option.ite_none_left_eq_some, Option.some.injEq] at h
  obtain ⟨-, -, -, rfl⟩ := h
  simp only [String.toList_append, String.toList_ofList, Bool.and_eq_true, beq_iff_eq]
  congr 1
  split <;> rfl

/-- What is inserted is read back, and the tokens before it stay as they are. -/
theorem scan_completedLine (hcursor : isBoundary cursor line.toList = true)
    (hquote : ∀ m ∈ matched, ∀ c ∈ m.toList, isQuote c = false) :
    ∃ s, scan line.toList cursor = .ok s ∧
      ∀ l, completedLine? line s.start cursor matched = some l → ∃ inserted,
        l.toList = takeBytes s.start line.toList ++ inserted ++ dropBytes cursor line.toList ++
          (if matched.length = 1 ∧ cursor = byteLength line.toList then [' '] else []) ∧
        ∃ s', scan l.toList (s.start + byteLength inserted) = .ok s' ∧ s'.start = s.start ∧
          s'.tokens.dropLast = s.tokens.dropLast ∧ s'.text = commonStart matched ∧
            ∀ m, matched = [m] → s'.text = m := by
  obtain ⟨s, before, typed, hscan, hline, hend, hstart, hnone, htokens⟩ :=
    Reading.scan_split hcursor
  refine ⟨s, hscan, fun l hl => ?_⟩
  have hcut : cutOut? s.start cursor line.toList =
      some (before, typed, dropBytes cursor line.toList) := by
    have h := cutOut?_append before typed (dropBytes cursor line.toList)
    rwa [← hline, ← hend, ← hstart] at h
  have hl := completedLine?_eq_some hcut hl
  have hbefore : takeBytes s.start line.toList = before := by
    rw [hstart, hline, List.append_assoc, takeBytes_byteLength]
  have hreads := replacement_readsAs (String.ofList typed) hquote
  generalize (replacement (String.ofList typed) matched).toList = inserted at hl hreads
  obtain ⟨s', hscan', hstart', htext, htokens'⟩ := scan_of_readsAs hnone hreads
    (dropBytes cursor line.toList ++
      if matched.length = 1 ∧ cursor = byteLength line.toList then [' '] else [])
  rw [← List.append_assoc, ← hl, ← hstart] at hscan'
  refine ⟨inserted, by rw [hbefore, hl], s', hscan', hstart'.trans hstart.symm,
    htokens'.trans htokens.symm, htext, ?_⟩
  rintro m rfl
  rw [htext, commonStart_singleton]

/-- A word with a blank goes into the quotes that were opened. -/
theorem scan_completedLine_speak :
    isBoundary 9 "speak 'he".toList = true ∧
    scan "speak 'he".toList 9 = .ok ⟨["speak", "he"], ["speak", "'he"], 6, 9⟩ ∧
    completedLine? "speak 'he" 6 9 ["hello world"] = some "speak 'hello world' " ∧
    ∃ s', scan "speak 'hello world' ".toList 19 = .ok s' ∧ s'.start = 6 ∧
      s'.tokens.dropLast = ["speak"] ∧ s'.text = "hello world" := by
  have hcursor : isBoundary 9 "speak 'he".toList = true := rfl
  have hfree : "hello world".toList.any isQuote = false := rfl
  have hquote : ∀ m ∈ ["hello world"], ∀ c ∈ m.toList, isQuote c = false := by
    simpa using hfree
  have hscan : scan "speak 'he".toList 9 =
      .ok ⟨["speak", "he"], ["speak", "'he"], 6, 9⟩ := rfl
  have hline : completedLine? "speak 'he" 6 9 ["hello world"] = some "speak 'hello world' " := rfl
  obtain ⟨s, hs, h⟩ := scan_completedLine hcursor hquote
  cases hscan.symm.trans hs
  obtain ⟨inserted, hl, s', hs', hstart, htokens, -, htext⟩ := h _ hline
  have hinserted : "speak 'hello world' ".toList =
      "speak ".toList ++ "'hello world'".toList ++ [' '] := rfl
  have hl : "speak 'hello world' ".toList = "speak ".toList ++ inserted ++ [] ++ [' '] := hl
  rw [List.append_nil] at hl
  have hinserted := List.append_cancel_left (List.append_cancel_right (hl.symm.trans hinserted))
  subst hinserted
  exact ⟨hcursor, hscan, hline, s', hs', hstart, htokens, htext _ rfl⟩

end Prompt

end Tabwise
