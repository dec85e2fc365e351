import Tabwise.Proofs.Line.Scan

/-! # Further to the right

What is read of a line later takes no finished token away. Wherever the cursor moves to the right,
the tokens before the last one are kept, also where the last one had an open quote that was closed
on trial.
-/

namespace Tabwise.Line
open Text

/-- The finished tokens of a scan are finished in another, whose last token begins no earlier. -/
structure Scan.Precedes (s s' : Scan) : Prop where
  tokens : s.tokens.dropLast <+: s'.tokens.dropLast
  rawTokens : s.rawTokens.dropLast <+: s'.rawTokens.dropLast
  start : s.start ≤ s'.start

namespace Reading

variable {r r' : Reading} {c : Char}

theorem Move.finished_prefix (hm : Move r c r') : r.finished <+: r'.finished := by
  cases hm with
  | skip hp hb => exact List.prefix_rfl
  | begins hp hb => exact List.prefix_rfl
  | ends p hp hn hb => exact List.prefix_append _ _
  | grows p hp hb => exact List.prefix_rfl

/-- Only where a token ends does the one under the cursor begin further to the right. -/
theorem Placed.start_le (h : r.Placed) (hm : Move r c r') : r.seen.start ≤ r'.seen.start := by
  cases hm with
  | skip hp hb => simp [seen, hp]
  | begins hp hb => simp [seen, hp]
  | ends p hp hn hb =>
    have hstart : r.seen.start = p.start := by simp [seen, hp]
    have hplace := h.pending p hp
    rw [hstart]
    change p.start ≤ r.pos + c.utf8Size
    omega
  | grows p hp hb => simp [seen, hp]

theorem seen_precedes (hfinished : r.finished <+: r'.finished)
    (hstart : r.seen.start ≤ r'.seen.start) : r.seen.Precedes r'.seen where
  tokens := by simpa [seen] using hfinished.map Token.content
  rawTokens := by simpa [seen] using hfinished.map Token.raw
  start := hstart

/-- Reading on keeps what is seen of the finished tokens. -/
theorem precedes_read (text more : List Char) :
    (start.read text).seen.Precedes (start.read (text ++ more)).seen := by
  suffices h : (start.read text).finished <+: (start.read (text ++ more)).finished ∧
      (start.read text).seen.start ≤ (start.read (text ++ more)).seen.start from
    seen_precedes h.1 h.2
  induction more using List.reverseRecOn with
  | nil => simp
  | append_singleton more c ih =>
    have hplaced := placed_read (text ++ more)
    have hm := step_move (start.read (text ++ more)) c
    rw [← List.append_assoc, read_concat]
    exact ⟨ih.1.trans hm.finished_prefix, Nat.le_trans ih.2 (hplaced.start_le hm)⟩

end Reading

variable {cursor further : Nat}

/-- To move the cursor to the right keeps the tokens before the last one. -/
theorem precedes_of_cursor_le (line : List Char) (h : cursor ≤ further) :
    ∃ s s', scan line cursor = .ok s ∧ scan line further = .ok s' ∧ s.Precedes s' := by
  obtain ⟨more, hmore⟩ := takeBytes_prefix h line
  refine ⟨_, _, Reading.scan_eq line cursor, Reading.scan_eq line further, ?_⟩
  rw [← hmore]
  exact Reading.precedes_read _ more

/-- At the first cursor the quote is open, at the second the line has closed it. -/
theorem precedes_of_cursor_le_say : ∃ s s', scan "say 'it\"s' on".toList 8 = .ok s ∧
    scan "say 'it\"s' on".toList 12 = .ok s' ∧ s.tokens = ["say", "it\""] ∧
      s'.tokens = ["say", "it\"s", "o"] ∧ s.Precedes s' := by
  obtain ⟨s, s', hs, hs', hprecedes⟩ :=
    precedes_of_cursor_le "say 'it\"s' on".toList (by decide : 8 ≤ 12)
  refine ⟨s, s', hs, hs', ?_, ?_, hprecedes⟩
  · exact congrArg Scan.tokens (Except.ok.inj (hs.symm.trans rfl))
  · exact congrArg Scan.tokens (Except.ok.inj (hs'.symm.trans rfl))

end Tabwise.Line
