import Tabwise.Proofs.Line.Lossless

/-! # Tokens before the cursor

A scan succeeds whatever the line and the cursor, and what it sees as written are the tokens up to
the cursor. Their contents are another matter where a quote is open. The scan closes the quote
before it removes quotes around the token, so it takes the quote from the start of the token or
keeps the one that it has added, unless the token is quoted from its start on.
-/

namespace Tabwise.Line
open Text

variable {q : Char} {text : List Char} {p : Pending} {t : Token}

/-- The empty token that is completed where no token is under the cursor. -/
def appended (text : List Char) : List String :=
  if tokens text = [] ∨ EndsBlank text then [""] else []

/-- What a scan up to a byte offset promises. -/
structure Scan.WellFormed (line : List Char) (cursor : Nat) (s : Scan) : Prop where
  boundary : isBoundary s.stop line = true
  stop_le : s.stop ≤ min cursor (byteLength line)
  /-- No boundary is between the end of the scan and the cursor. -/
  last : ∀ n ≤ min cursor (byteLength line), isBoundary n line = true → n ≤ s.stop
  length_eq : s.tokens.length = s.rawTokens.length
  length_pos : 1 ≤ s.tokens.length
  start_boundary : isBoundary s.start line = true
  start_le : s.start ≤ s.stop
  rawText : s.rawText.toList = slice s.start s.stop line
  rawTokens : s.rawTokens =
    (Line.tokens (takeBytes s.stop line)).map Token.raw ++ appended (takeBytes s.stop line)

namespace Reading

@[simp] theorem stop_seen (text : List Char) : (start.read text).seen.stop = byteLength text := by
  simp [seen]

theorem appended_eq (text : List Char) :
    appended text = if (start.read text).pending = none then [""] else [] := by
  have hpending : Line.tokens text = [] ∨ EndsBlank text ↔ (start.read text).pending = none := by
    rw [pending_eq_none_iff]
    constructor
    · rintro (hnil | hend)
      · exact endsBlank_of_tokens_eq_nil hnil
      · exact .inr hend
    · rintro (rfl | hend)
      · exact .inl rfl
      · exact .inr hend
  rw [appended, if_congr hpending rfl rfl]

theorem rawTokens_seen (text : List Char) :
    (start.read text).seen.rawTokens = (Line.tokens text).map Token.raw ++ appended text := by
  rw [tokens_eq, appended_eq]
  cases hp : (start.read text).pending <;> simp [seen, tokens, hp, Pending.finish, Token.make]

end Reading

/-- Every scan succeeds and is well formed. -/
theorem wellFormed_scan (line : List Char) (cursor : Nat) :
    ∃ s, scan line cursor = .ok s ∧ s.WellFormed line cursor := by
  refine ⟨_, Reading.scan_eq line cursor, ?_⟩
  obtain ⟨before, typed, htext, -, hstart, hraw, -⟩ := Reading.seen_split (takeBytes cursor line)
  obtain ⟨hboundary, hlast⟩ := isBoundary_cut cursor line
  have hline : line = before ++ typed ++ dropBytes cursor line := by
    rw [← htext, takeBytes_append_dropBytes]
  constructor
  case boundary => rwa [Reading.stop_seen]
  case stop_le =>
    rw [Reading.stop_seen]
    exact le_min (byteLength_takeBytes_le _ _)
      (byteLength_mono ⟨_, takeBytes_append_dropBytes cursor line⟩)
  case last =>
    rw [Reading.stop_seen]
    exact fun n hn => hlast n (hn.trans (min_le_left _ _))
  case length_eq => simp [Reading.seen]
  case length_pos => simp [Reading.seen]
  case start_boundary =>
    rw [hstart, hline, List.append_assoc]
    exact isBoundary_byteLength before _
  case start_le =>
    rw [hstart, Reading.stop_seen, htext, byteLength_append]
    exact Nat.le_add_right _ _
  case rawText =>
    rw [hraw, hstart, Reading.stop_seen, String.toList_ofList, htext, byteLength_append, hline,
      slice_append]
  case rawTokens =>
    rw [Reading.stop_seen, takeBytes_byteLength_takeBytes]
    exact Reading.rawTokens_seen _

/-- What a scan makes of a token: where a quote is open, it goes with that at the start of the token
if this is the same one, and is added to the end of the token if not. -/
def Token.closed (t : Token) : String :=
  match t.openQuote with
  | none => t.content
  | some o =>
    if t.raw.toList.head? = some o.quote then String.ofList t.raw.toList.tail
    else t.raw.push o.quote

/-- No quote is open but one at the start of the token. -/
def Token.OpensFirst (t : Token) : Prop := ∀ o, t.openQuote = some o → o.start = t.start

theorem stripQuotes_concat (raw : List Char) (hq : isQuote q = true) :
    stripQuotes (raw ++ [q]) = if raw.head? = some q then raw.tail else raw ++ [q] := by
  cases raw with
  | nil => simp [stripQuotes]
  | cons c cs =>
    by_cases hc : c = q
    · simp [stripQuotes, hc, hq]
    · simp [stripQuotes, hc, Ne.symm hc]

theorem Pending.closed_finish (hq : ∀ o, p.region = some o → isQuote o.quote = true) :
    p.finish.closed = p.close.content := by
  cases hregion : p.region with
  | none => simp [Token.closed, finish, close, Token.make, hregion]
  | some o =>
    have hstrip := stripQuotes_concat p.chars.reverse (hq o hregion)
    simp [Token.closed, finish, close, Token.make, hregion, hstrip, apply_ite String.ofList]

theorem Reading.tokens_seen (text : List Char) :
    (start.read text).seen.tokens = (Line.tokens text).map Token.closed ++ appended text := by
  have hplaced := placed_read text
  have hfinished : (start.read text).finished.map Token.content =
      (start.read text).finished.map Token.closed := by
    refine List.map_congr_left fun t ht => ?_
    rw [Token.closed, (hplaced.finished t ht).2]
  rw [tokens_eq, appended_eq]
  cases hp : (start.read text).pending with
  | none => simp [seen, tokens, hp, hfinished]
  | some p =>
    have hclosed := Pending.closed_finish (hplaced.region p hp)
    simp [seen, tokens, hp, hfinished, hclosed]

/-- The scan agrees with the token while no quote is open behind its first character. -/
theorem Token.closed_eq_content_iff (ht : t ∈ tokens text) :
    t.closed = t.content ↔ t.OpensFirst := by
  obtain ⟨lead, raw, rest, -, rfl, hne, -, -⟩ := (layout_tokens text).exists_parts ht
  cases hregion : regionFrom (byteLength lead) none raw with
  | none => simp [closed, OpensFirst, openQuote_ofRaw, hregion]
  | some o =>
    have hopens : (ofRaw (byteLength lead) raw).OpensFirst ↔ o.start = byteLength lead := by
      simp [OpensFirst, openQuote_ofRaw, hregion]
    rw [hopens]
    by_cases hstart : o.start = byteLength lead
    · have hhead : raw.head? = some o.quote := head?_of_regionFrom (hstart ▸ hregion)
      simp [closed, ofRaw, make, hregion, hstart, hhead]
    · have hcontent : (ofRaw (byteLength lead) raw).content = String.ofList raw := by
        simp [ofRaw, make, hregion, hstart]
      rw [iff_false_right hstart, hcontent]
      intro heq
      have hlength := congrArg (fun s => s.toList.length) heq
      have hpos := List.length_pos_of_ne_nil hne
      by_cases hhead : raw.head? = some o.quote
      · simp [closed, openQuote_ofRaw, hregion, hhead] at hlength
        omega
      · simp [closed, openQuote_ofRaw, hregion, hhead] at hlength

/-- A scan makes tokens of the line up to the cursor and an empty one. Their contents are those of
the tokens if and only if no quote is open but one at the start of its token. -/
theorem tokens_scan (line : List Char) (cursor : Nat) : ∃ s, scan line cursor = .ok s ∧
    s.tokens = (tokens (takeBytes s.stop line)).map Token.closed ++
      appended (takeBytes s.stop line) ∧
    (s.tokens = (tokens (takeBytes s.stop line)).map Token.content ++
      appended (takeBytes s.stop line) ↔
        ∀ t ∈ tokens (takeBytes s.stop line), t.OpensFirst) := by
  refine ⟨_, Reading.scan_eq line cursor, ?_⟩
  rw [Reading.stop_seen, takeBytes_byteLength_takeBytes]
  refine ⟨Reading.tokens_seen _, ?_⟩
  rw [Reading.tokens_seen, List.append_left_inj, List.map_inj_left]
  exact forall₂_congr fun t ht => Token.closed_eq_content_iff ht

/-- The quote that is added to close a token stays where another letter is first. -/
theorem tokens_scan_added : ∃ s, scan "say a\"b".toList 7 = .ok s ∧
    s.tokens = ["say", "a\"b\""] ∧
    (tokens (takeBytes s.stop "say a\"b".toList)).map Token.content ++
      appended (takeBytes s.stop "say a\"b".toList) = ["say", "a\"b"] :=
  ⟨_, rfl, by decide, by decide⟩

-- Here the first quote was closed before, and is taken away for the one that is open.
example : (scan "'a'b'c".toList 6).map Scan.tokens = .ok ["a'b'c"] := by decide

end Tabwise.Line
