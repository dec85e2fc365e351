import Tabwise.Line.Scan
import Tabwise.Proofs.Line.Reading

/-! # What is seen before the cursor

A line is read up to the cursor. An open quote is closed by the quote that opened it and by no
other, so a scan always succeeds, and what it sees follows from how far the line is read.
-/

namespace Tabwise.Line
open Text

def Pending.close (p : Pending) : Token :=
  .make p.start (p.chars.reverse ++ (p.region.map OpenQuote.quote).toList) none

namespace Reading

variable {p : Pending} {q : OpenQuote} {text : List Char}

/-- What completion sees. -/
def seen (r : Reading) : Scan where
  tokens := r.finished.map Token.content ++ [(r.pending.map fun p => p.close.content).getD ""]
  rawTokens := r.finished.map Token.raw ++
    [(r.pending.map fun p => String.ofList p.chars.reverse).getD ""]
  start := (r.pending.map Pending.start).getD r.pos
  stop := r.pos

theorem openQuote_tokens (text : List Char) :
    ((start.read text).tokens.getLast?.bind Token.openQuote) =
      (start.read text).pending.bind Pending.region := by
  have hplaced := placed_read text
  generalize start.read text = r at hplaced ⊢
  cases hp : r.pending with
  | none =>
    cases ht : r.finished.getLast? with
    | none => simp [tokens, hp, ht]
    | some t =>
      have hclosed := (hplaced.finished t (List.mem_of_getLast? ht)).2
      simp [tokens, hp, ht, hclosed]
  | some p => simp [tokens, hp, Pending.finish, Token.make]

theorem tokenize_eq (text : List Char) : tokenize text =
    match (start.read text).pending.bind Pending.region with
    | some q => .error ⟨q.quote, q.start⟩
    | none => .ok (start.read text).tokens := by
  rw [tokenize, unterminated?, tokens_eq, openQuote_tokens]
  cases (start.read text).pending.bind Pending.region <;> rfl

/-- The trial succeeds with the quote that is open. -/
theorem tokenize_concat (hp : (start.read text).pending = some p) (hq : p.region = some q)
    (c : Char) : (tokenize (text ++ [c])).toOption =
      if c = q.quote then some ((start.read text).finished ++ [p.close]) else none := by
  have hstep : (start.read text).step c = { start.read text with
      pos := (start.read text).pos + c.utf8Size
      pending := some ⟨p.start, c :: p.chars, if c = q.quote then none else some q⟩ } := by
    simp [step, hp, hq, regionAfter]
  rw [tokenize_eq, read_concat, hstep]
  by_cases hc : c = q.quote
  · simp [hc, tokens, Pending.finish, Pending.close, hq, Except.toOption]
  · simp [hc, Except.toOption]

theorem closedTokens_eq (text : List Char) : closedTokens text =
    .ok ((start.read text).finished ++ ((start.read text).pending.map Pending.close).toList) := by
  cases hp : (start.read text).pending with
  | none => simp [closedTokens, tokenize_eq, tokens, hp]
  | some p =>
    cases hq : p.region with
    | none => simp [closedTokens, tokenize_eq, tokens, hp, hq, Pending.finish, Pending.close]
    | some q =>
      have hquote : q.quote = '\'' ∨ q.quote = '"' := by
        simpa [isQuote, quotes] using (placed_read text).region p hp q hq
      have htrial : (quotes.findSome? fun c => (tokenize (text ++ [c])).toOption) =
          some ((start.read text).finished ++ [p.close]) := by
        rcases hquote with h | h <;> simp [quotes, tokenize_concat hp hq, h]
      simp [closedTokens, tokenize_eq text, hp, hq, htrial]

theorem slices_finished (text : List Char) :
    ((start.read text).finished.map fun t =>
      String.ofList (slice t.start (min t.stop (byteLength text)) text)) =
      (start.read text).finished.map Token.raw := by
  refine List.map_congr_left fun t ht => ?_
  obtain ⟨before, after, htext, hstart, hstop⟩ := finished_read ht
  have hmin : min t.stop (byteLength text) = byteLength before + byteLength t.raw.toList := by
    rw [hstop, htext, byteLength_append, byteLength_append]
    omega
  rw [hmin, hstart]
  conv_lhs => rw [htext]
  rw [slice_append, String.ofList_toList]

theorem slice_pending (hp : (start.read text).pending = some p) :
    slice p.close.start (min p.close.stop (byteLength text)) text = p.chars.reverse := by
  obtain ⟨before, htext, hstart, -⟩ := pending_read hp
  have hlength : byteLength text = byteLength before + byteLength p.chars.reverse := by
    rw [← byteLength_append, ← htext]
  have hmin : min p.close.stop (byteLength text) =
      byteLength before + byteLength p.chars.reverse := by
    simp only [Pending.close, Token.make, byteLength_append, hstart, hlength]
    omega
  have hslice := slice_append before p.chars.reverse []
  rw [List.append_nil, ← htext] at hslice
  rw [hmin]
  exact (congrArg (slice · _ text) hstart).trans hslice

/-- A scan sees the line as it is read up to the cursor. -/
theorem scan_eq (line : List Char) (cursor : Nat) :
    scan line cursor = .ok (start.read (takeBytes cursor line)).seen := by
  simp only [scan, closedTokens_eq, bind, Except.bind, pure, Except.pure]
  generalize takeBytes cursor line = text
  have hpos : (start.read text).pos = byteLength text := by simp
  have hfinished := slices_finished text
  cases hp : (start.read text).pending with
  | none =>
    cases ht : (start.read text).finished.getLast? with
    | none =>
      have hnil := List.getLast?_eq_none_iff.mp ht
      simp [seen, hp, hnil]
    | some t =>
      have hstop := ((placed_read text).finished t (List.mem_of_getLast? ht)).1
      rw [hpos] at hstop
      simp [seen, hp, ht, hstop, hfinished]
  | some p =>
    have hstop : ¬p.close.stop < byteLength text := by
      have hplace := (placed_read text).pending p hp
      simp only [Pending.close, Token.make, byteLength_append, byteLength_reverse]
      omega
    have hraw := slice_pending hp
    simp [seen, hp, hstop, hfinished, hraw]
    rfl

/-- The token under the cursor is the end of the text, and nothing is pending before it. -/
theorem seen_split (text : List Char) : ∃ before typed, text = before ++ typed ∧
    (start.read before).pending = none ∧ (start.read text).seen.start = byteLength before ∧
      (start.read text).seen.rawText = String.ofList typed ∧
        (start.read before).finished = (start.read text).finished := by
  cases hp : (start.read text).pending with
  | none =>
    exact ⟨text, [], by simp, hp, by simp [seen, hp], by simp [Scan.rawText, seen, hp], rfl⟩
  | some p =>
    obtain ⟨before, htext, hstart, hnone, hfinished⟩ := pending_read hp
    exact ⟨before, p.chars.reverse, htext, hnone, by simp [seen, hp, hstart],
      by simp [Scan.rawText, seen, hp], hfinished⟩

/-- A line is what is before the token under the cursor, the token as typed and the rest. -/
theorem scan_split {line : List Char} {cursor : Nat} (hcursor : isBoundary cursor line = true) :
    ∃ s before typed, scan line cursor = .ok s ∧
      line = before ++ typed ++ dropBytes cursor line ∧
      cursor = byteLength before + byteLength typed ∧ s.start = byteLength before ∧
      (start.read before).pending = none ∧
      s.tokens.dropLast = (start.read before).finished.map Token.content := by
  obtain ⟨before, typed, htext, hnone, hstart, -, hfinished⟩ := seen_split (takeBytes cursor line)
  refine ⟨_, before, typed, scan_eq line cursor, ?_, ?_, hstart, hnone, ?_⟩
  · rw [← htext, takeBytes_append_dropBytes]
  · rw [← byteLength_append, ← htext, isBoundary_iff.mp hcursor]
  · simp [seen, hfinished]

end Reading

/-- After a finished token the text is seen as one with the content. -/
def ReadsAs (typed : List Char) (content : String) : Prop :=
  ∀ r : Reading, r.pending = none → (r.read typed).seen =
    { tokens := r.finished.map Token.content ++ [content]
      rawTokens := r.finished.map Token.raw ++ [String.ofList typed]
      start := r.pos
      stop := r.pos + byteLength typed }

/-- Where nothing is pending, a text that reads as a content is scanned as the token under the
cursor. -/
theorem scan_of_readsAs {before typed : List Char} {content : String}
    (hbefore : (Reading.start.read before).pending = none) (h : ReadsAs typed content)
    (after : List Char) : ∃ s,
      scan (before ++ typed ++ after) (byteLength before + byteLength typed) = .ok s ∧
        s.start = byteLength before ∧ s.text = content ∧
          s.tokens.dropLast = (Reading.start.read before).finished.map Token.content := by
  have htake : takeBytes (byteLength before + byteLength typed) (before ++ typed ++ after) =
      before ++ typed := by
    rw [← byteLength_append, takeBytes_byteLength]
  refine ⟨_, Reading.scan_eq _ _, ?_⟩
  rw [htake, Reading.read_append, h _ hbefore]
  simp [Scan.text]

variable {q : Char} {body cs : List Char}

theorem isBlank_of_isQuote (hq : isQuote q = true) : isBlank q = false := by
  have hquote : q = '\'' ∨ q = '"' := by simpa [isQuote, quotes] using hq
  rcases hquote with rfl | rfl <;> rfl

theorem stripQuotes_quoted (hq : isQuote q = true) : stripQuotes (q :: (body ++ [q])) = body := by
  simp [stripQuotes, hq]

theorem stripQuotes_bare (h : ∀ c ∈ cs, isQuote c = false) : stripQuotes cs = cs := by
  cases cs with
  | nil => rfl
  | cons c cs => simp [stripQuotes, h c (List.mem_cons_self ..)]

/-- What stands behind a quote up to the next one is read as the content. -/
theorem read_opened {r : Reading} (hr : r.pending = none) (hq : isQuote q = true) (hbody : q ∉ body) :
    r.read (q :: body) = { r with
      pos := r.pos + byteLength (q :: body)
      pending := some ⟨r.pos, body.reverse ++ [q], some ⟨q, r.pos⟩⟩ } := by
  have hstep : r.step q = { r with
      pos := r.pos + q.utf8Size
      pending := some ⟨r.pos, [q], some ⟨q, r.pos⟩⟩ } := by
    simp [Reading.step, hr, isBlank_of_isQuote hq, regionAfter, hq]
  rw [Reading.read_cons, hstep, Reading.read_region hbody, byteLength_cons, Nat.add_assoc]

theorem readsAs_opened (hq : isQuote q = true) (hbody : q ∉ body) :
    ReadsAs (q :: body) (String.ofList body) := by
  intro r hr
  have hcontent : stripQuotes (q :: (body ++ [q])) = body := stripQuotes_quoted hq
  simp [read_opened hr hq hbody, Reading.seen, Pending.close, Token.make, hcontent]

theorem readsAs_quoted (hq : isQuote q = true) (hbody : q ∉ body) :
    ReadsAs (q :: (body ++ [q])) (String.ofList body) := by
  intro r hr
  have hcontent : stripQuotes (q :: (body ++ [q])) = body := stripQuotes_quoted hq
  rw [← List.cons_append, Reading.read_append, read_opened hr hq hbody]
  simp [Reading.read, Reading.step, regionAfter, Reading.seen, Pending.close, Token.make,
    hcontent, Nat.add_assoc]

theorem readsAs_bare (h : ∀ c ∈ cs, isBlank c = false ∧ isQuote c = false) :
    ReadsAs cs (String.ofList cs) := by
  intro r hr
  have hcontent := stripQuotes_bare fun c hc => (h c hc).2
  cases cs with
  | nil => simp [Reading.seen, hr]
  | cons c cs =>
    rw [List.forall_mem_cons] at h
    have hstep : r.step c = { r with
        pos := r.pos + c.utf8Size
        pending := some ⟨r.pos, [c], none⟩ } := by
      simp [Reading.step, hr, regionAfter, h.1]
    rw [Reading.read_cons, hstep, Reading.read_bare h.2]
    simp [Reading.seen, Pending.close, Token.make, hcontent, Nat.add_assoc]

end Tabwise.Line
