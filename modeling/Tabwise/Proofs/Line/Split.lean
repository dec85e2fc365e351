import Mathlib.Data.List.Basic
import Mathlib.Data.List.TakeWhile
import Tabwise.Proofs.Line.Layout

/-! # The command word of a line

A line is split behind its command word, and the rest is read as a line of its own. Its tokens are
the ones that the line has behind the command word, further on by what was split off.
-/

namespace Tabwise.Line
open Text

variable {line : List Char} {cursor : Nat}

def OpenQuote.shift (d : Nat) (q : OpenQuote) : OpenQuote := { q with start := q.start + d }

def Pending.shift (d : Nat) (p : Pending) : Pending :=
  { p with start := p.start + d, region := p.region.map (OpenQuote.shift d) }

def Token.shift (d : Nat) (t : Token) : Token :=
  { t with start := t.start + d, stop := t.stop + d, openQuote := t.openQuote.map (OpenQuote.shift d) }

@[simp] theorem Token.content_shift (d : Nat) (t : Token) : (t.shift d).content = t.content := rfl

theorem regionAfter_shift (d pos : Nat) (region : Option OpenQuote) (c : Char) :
    regionAfter (region.map (OpenQuote.shift d)) (pos + d) c =
      (regionAfter region pos c).map (OpenQuote.shift d) := by
  cases region with
  | none =>
    rw [Option.map_none, regionAfter_none, regionAfter_none]
    split <;> rfl
  | some q =>
    rw [Option.map_some, regionAfter_some, regionAfter_some]
    by_cases hc : c = q.quote <;> simp [OpenQuote.shift, hc]

theorem Pending.finish_shift (d : Nat) (p : Pending) : (p.shift d).finish = p.finish.shift d := by
  cases hp : p.region with
  | none => simp [Pending.finish, Token.make, Pending.shift, Token.shift, hp, Nat.add_right_comm]
  | some q =>
    simp [Pending.finish, Token.make, Pending.shift, Token.shift, OpenQuote.shift, hp,
      Nat.add_right_comm]

theorem tokensFrom_shift (d pos : Nat) (current : Option Pending) (cs : List Char) :
    tokensFrom (pos + d) (current.map (Pending.shift d)) cs =
      (tokensFrom pos current cs).map (Token.shift d) := by
  induction cs generalizing pos current with
  | nil => cases current <;> simp [tokensFrom, Pending.finish_shift]
  | cons c cs ih =>
    have hnext : pos + d + c.utf8Size = pos + c.utf8Size + d := Nat.add_right_comm ..
    cases current with
    | none =>
      rw [Option.map_none, tokensFrom, tokensFrom, hnext]
      split
      · exact ih _ none
      · have hregion := regionAfter_shift d pos none c
        rw [Option.map_none] at hregion
        rw [hregion]
        exact ih _ (some ⟨pos, [c], regionAfter none pos c⟩)
    | some p =>
      have hregion := regionAfter_shift d pos p.region c
      have hsome := ih (pos + c.utf8Size) (some ⟨p.start, c :: p.chars, regionAfter p.region pos c⟩)
      have hnone := ih (pos + c.utf8Size) none
      simp only [Option.map_some, Option.map_none, Pending.shift] at hsome hnone
      simp only [Option.map_some, tokensFrom, Pending.finish_shift, hnext]
      simp only [Pending.shift, hregion, Option.isNone_map]
      split
      · rw [List.map_cons, hnone]
      · exact hsome

/-- A line as the blanks before its command word, the word and what is behind it. -/
structure Parts where
  lead : List Char
  command : List Char
  rest : List Char
  blank : ∀ c ∈ lead, isBlank c = true
  plain : ∀ c ∈ command, isBlank c = false
  behind : rest = [] ∨ command ≠ [] ∧ ∃ b tail, rest = b :: tail ∧ isBlank b = true

def Parts.toList (p : Parts) : List Char := p.lead ++ p.command ++ p.rest

def parts (line : List Char) : Parts where
  lead := line.takeWhile isBlank
  command := (line.dropWhile isBlank).takeWhile (!isBlank ·)
  rest := (line.dropWhile isBlank).dropWhile (!isBlank ·)
  blank c hc := List.mem_takeWhile_imp hc
  plain c hc := by simpa using List.mem_takeWhile_imp hc
  behind := by
    have hbody := List.takeWhile_append_dropWhile (p := (!isBlank ·)) (l := line.dropWhile isBlank)
    cases hrest : (line.dropWhile isBlank).dropWhile (!isBlank ·) with
    | nil => exact .inl rfl
    | cons b tail =>
      have hb := List.head_dropWhile_not (!isBlank ·) (hrest ▸ List.cons_ne_nil b tail)
      simp only [hrest, List.head_cons, Bool.not_eq_false'] at hb
      refine .inr ⟨fun hnil => ?_, b, tail, rfl, hb⟩
      -- Without a word the rest would begin with a blank that the lead has not taken.
      rw [hnil, hrest, List.nil_append] at hbody
      have hfirst := List.head_dropWhile_not isBlank (hbody ▸ List.cons_ne_nil b tail)
      simp only [← hbody, List.head_cons] at hfirst
      cases hb.symm.trans hfirst

theorem toList_parts (line : List Char) : (parts line).toList = line := by
  simp [Parts.toList, parts]

namespace Parts

variable (p : Parts)

/-- Without the blank that ends the command word, the rest has the tokens that follow the word. -/
theorem tokens_toList (hne : p.command ≠ []) (hquote : ∀ c ∈ p.command, isQuote c = false) :
    ∃ d, tokens p.toList = .ofRaw (byteLength p.lead) p.command ::
      (tokens p.rest.tail).map (Token.shift d) := by
  have hends : EndsBefore p.command p.rest :=
    p.behind.imp_right fun h => ⟨matched_of_plain hquote, h.2⟩
  rw [tokens, toList, List.append_assoc, tokensFrom_blanks p.blank,
    tokensFrom_token hne (.of_no_blank p.plain) hends, Nat.zero_add]
  rcases p.behind with hrest | ⟨-, b, tail, hrest, hb⟩
  · exact ⟨0, by rw [hrest]; rfl⟩
  · refine ⟨byteLength p.lead + byteLength p.command + b.utf8Size, ?_⟩
    rw [hrest, tokensFrom, if_pos hb, List.tail_cons, tokens, ← tokensFrom_shift, Nat.zero_add]
    rfl

theorem matched_toList_iff (hquote : ∀ c ∈ p.command, isQuote c = false) :
    Matched p.toList ↔ Matched p.rest.tail := by
  have hlead := matched_of_plain fun c hc => isQuote_of_isBlank (p.blank c hc)
  rw [toList, List.append_assoc, matched_append_iff hlead,
    matched_append_iff (matched_of_plain hquote)]
  rcases p.behind with hrest | ⟨-, b, tail, hrest, hb⟩
  · rw [hrest]
    rfl
  · have hfirst : Matched [b] := matched_of_plain (by simp [isQuote_of_isBlank hb])
    rw [hrest]
    exact matched_append_iff hfirst

end Parts

theorem command_split (line : List Char) :
    (split line).command = String.ofList (parts line).command := rfl

theorem rest_split (line : List Char) :
    (split line).rest = String.ofList (parts line).rest.tail := rfl

theorem tokens_split (hne : (split line).command ≠ "")
    (hquote : ∀ c ∈ (split line).command.toList, isQuote c = false) :
    (tokens line).map Token.content =
      (split line).command :: (tokens (split line).rest.toList).map Token.content := by
  rw [command_split] at hne hquote ⊢
  rw [String.toList_ofList] at hquote
  have hcommand : (parts line).command ≠ [] := fun hnil => hne (by rw [hnil, String.ofList_nil])
  obtain ⟨d, htokens⟩ := (parts line).tokens_toList hcommand hquote
  rw [toList_parts] at htokens
  rw [htokens, rest_split, String.toList_ofList, List.map_cons, List.map_map,
    Token.content_ofRaw (matched_of_plain hquote), stripQuotes_bare hquote]
  rfl

theorem matched_split (hquote : ∀ c ∈ (split line).command.toList, isQuote c = false) :
    Matched (split line).rest.toList ↔ Matched line := by
  rw [command_split, String.toList_ofList] at hquote
  rw [rest_split, String.toList_ofList, ← (parts line).matched_toList_iff hquote, toList_parts]

/-- The rest of a line is read as completion reads it behind the command word: it fails together
with the line, and has the same contents up to the empty token behind a blank. -/
theorem tokenize_split (hne : (split line).command ≠ "")
    (hquote : ∀ c ∈ (split line).command.toList, isQuote c = false) :
    ((∃ e, tokenize (split line).rest.toList = .error e) ↔ ∃ e, tokenize line = .error e) ∧
      ∀ ts, tokenize (split line).rest.toList = .ok ts →
        ∃ s, scan line (byteLength line) = .ok s ∧
          (EndsBlank line → s.tokens = (split line).command :: (ts.map Token.content ++ [""])) ∧
            (¬EndsBlank line → s.tokens = (split line).command :: ts.map Token.content) := by
  refine ⟨by rw [tokenize_eq_error_iff, tokenize_eq_error_iff, matched_split hquote], ?_⟩
  intro ts hts
  obtain ⟨hmatched, rfl⟩ := tokenize_eq_ok_iff.mp hts
  rw [matched_split hquote] at hmatched
  have hline : line ≠ [] := by
    rintro rfl
    exact hne rfl
  have htokens := tokens_split hne hquote
  refine ⟨_, Reading.scan_eq line _, fun hend => ?_, fun hend => ?_⟩
  · rw [takeBytes_self, Reading.seen_of_endsBlank (.inr hend), htokens, List.cons_append]
  · rw [takeBytes_self, Reading.seen_of_not_endsBlank hmatched hline hend, htokens]

/-- The rest of the line has the two tokens behind the command word. -/
theorem tokenize_split_speak :
    (split "speak 'a b' x ".toList).command = "speak" ∧
    (split "speak 'a b' x ".toList).rest = "'a b' x " ∧
    (tokenize "'a b' x ".toList).map (·.map Token.content) = .ok ["a b", "x"] ∧
    EndsBlank "speak 'a b' x ".toList ∧
    ∃ s, scan "speak 'a b' x ".toList 14 = .ok s ∧ s.tokens = ["speak", "a b", "x", ""] := by
  have hne : (split "speak 'a b' x ".toList).command ≠ "" := by decide
  have hquote : ∀ c ∈ (split "speak 'a b' x ".toList).command.toList, isQuote c = false :=
    isQuote_of_any rfl
  have hmatched : Matched "speak 'a b' x".toList := (tokenize_eq_ok_iff.mp rfl).1
  have hend : EndsBlank "speak 'a b' x ".toList := ⟨_, ' ', rfl, rfl, hmatched⟩
  obtain ⟨s, hscan, hends, -⟩ := (tokenize_split hne hquote).2 _ rfl
  exact ⟨rfl, rfl, rfl, hend, s, hscan, hends hend⟩

theorem trim_eq_nil_iff {cs : List Char} : trim cs = [] ↔ ∀ c ∈ cs, isWhite c = true := by
  rw [trim, dropEndWhile, List.reverse_eq_nil_iff, List.dropWhile_eq_nil_iff]
  simp only [List.mem_reverse]
  refine ⟨fun h => ?_, fun h c hc => h c ((List.dropWhile_sublist _).subset hc)⟩
  by_contra hwhite
  have hne : cs.dropWhile isWhite ≠ [] := by rwa [Ne, List.dropWhile_eq_nil_iff]
  have hhead := List.head_dropWhile_not isWhite hne
  simp [h _ (List.head_mem hne)] at hhead

theorem endsBlank_iff (hquote : ∀ c ∈ line, isQuote c = false) :
    EndsBlank line ↔ line.getLast?.any isBlank = true := by
  have hinit : Matched line.dropLast :=
    matched_of_plain fun c hc => hquote c (List.dropLast_subset _ hc)
  rw [endsBlank_iff_getLast?, and_iff_left hinit]

/-- Behind the command word stands white space only, and it does not end in a blank. -/
def WhiteRest (line : List Char) : Prop :=
  (split line).rest ≠ "" ∧ (∀ c ∈ (split line).rest.toList, isWhite c = true) ∧ ¬EndsBlank line

theorem any_getLast?_append {word rest : List Char} (hword : ∀ c ∈ word, isBlank c = false) :
    (word ++ rest).getLast?.any isBlank = rest.getLast?.any isBlank := by
  cases hrest : rest.getLast? with
  | some c => simp [List.getLast?_append, hrest]
  | none =>
    rw [List.getLast?_append, hrest, Option.none_or]
    cases hlast : word.getLast? with
    | none => rfl
    | some c => exact hword c (List.mem_of_getLast? hlast)

namespace Parts

variable (p : Parts)

/-- Behind a command word the line ends as the rest does. -/
theorem any_getLast?_toList (hne : p.command ≠ []) :
    p.toList.getLast?.any isBlank = p.rest.getLast?.any isBlank := by
  have hbody : p.command ++ p.rest ≠ [] := by simp [hne]
  rw [toList, List.append_assoc, List.getLast?_append_of_ne_nil _ hbody, any_getLast?_append p.plain]

theorem rest_eq_nil (hnil : p.command = []) : p.rest = [] :=
  p.behind.resolve_right fun h => h.1 hnil

theorem tokens_toList_eq_nil (hnil : p.command = []) : tokens p.toList = [] := by
  refine tokens_eq_nil_iff.mpr ?_
  rw [toList, hnil, p.rest_eq_nil hnil, List.append_nil, List.append_nil]
  exact p.blank

/-- Where something is behind the command word, another token follows or a blank ends the line. -/
theorem any_getLast?_rest (hrest : p.rest ≠ []) (htail : tokens p.rest.tail = []) :
    p.rest.getLast?.any isBlank = true := by
  rcases p.behind with hnil | ⟨-, b, tail, heq, hb⟩
  · exact absurd hnil hrest
  · have hblank : ∀ c ∈ p.rest, isBlank c = true := by
      rw [heq, List.tail_cons, tokens_eq_nil_iff] at htail
      rw [heq, List.forall_mem_cons]
      exact ⟨hb, htail⟩
    rw [List.getLast?_eq_some_getLast hrest]
    exact hblank _ (List.getLast_mem hrest)

end Parts

theorem endsBlank_iff_rest (hquote : ∀ c ∈ line, isQuote c = false)
    (hne : (parts line).command ≠ []) :
    EndsBlank line ↔ (parts line).rest.getLast?.any isBlank = true := by
  have hlast := (parts line).any_getLast?_toList hne
  rw [toList_parts] at hlast
  rw [endsBlank_iff hquote, hlast]

/-- A command word is completed where nothing is behind it, and before some white space. -/
theorem completesCommand_split_iff (hquote : ∀ c ∈ line, isQuote c = false) :
    (split line).completesCommand = true ↔ (parts line).rest = [] ∨ WhiteRest line := by
  have hsplit : (split line).completesCommand = ((parts line).command.isEmpty ||
      ((trim (parts line).rest.tail).isEmpty && !(line.dropWhile isBlank).getLast?.any isBlank)) :=
    rfl
  have hbody : line.dropWhile isBlank = (parts line).command ++ (parts line).rest :=
    List.takeWhile_append_dropWhile.symm
  by_cases hnil : (parts line).command = []
  · simp [hsplit, hnil, (parts line).rest_eq_nil hnil]
  · have hempty : (parts line).command.isEmpty = false := by simpa using hnil
    rw [hsplit, hbody, any_getLast?_append (parts line).plain, hempty, Bool.false_or, WhiteRest,
      endsBlank_iff_rest hquote hnil, rest_split, String.toList_ofList, ← trim_eq_nil_iff]
    rcases (parts line).behind with hrest | ⟨-, b, tail, hrest, hb⟩
    · simp [hrest, trim, dropEndWhile]
    · cases tail with
      | nil => simp [hrest, hb]
      | cons c tail => simp [hrest]

namespace Reading

theorem seen_of_no_command (hnil : (parts line).command = []) :
    (start.read line).seen.tokens = [""] := by
  have htokens := (parts line).tokens_toList_eq_nil hnil
  rw [toList_parts] at htokens
  rw [seen_of_endsBlank (endsBlank_of_tokens_eq_nil htokens), htokens]
  rfl

theorem seen_of_command (hquote : ∀ c ∈ line, isQuote c = false)
    (hne : (parts line).command ≠ []) : ∃ behind,
      (start.read line).seen.tokens = (split line).command :: behind ∧
        (behind = [] ↔ (parts line).rest = []) := by
  have hcommand : ∀ c ∈ (split line).command.toList, isQuote c = false := by
    rw [command_split, String.toList_ofList]
    exact fun c hc => hquote c (by rw [← toList_parts line]; simp [Parts.toList, hc])
  have hword : (split line).command ≠ "" := by
    rw [command_split]
    simpa using hne
  have htokens := tokens_split hword hcommand
  by_cases hend : EndsBlank line
  · refine ⟨_, by rw [seen_of_endsBlank (.inr hend), htokens, List.cons_append], ?_⟩
    have hrest : (parts line).rest ≠ [] := by
      intro hrest
      rw [endsBlank_iff_rest hquote hne, hrest] at hend
      cases hend
    simp [hrest]
  · have hline : line ≠ [] := by
      rintro rfl
      exact hne rfl
    refine ⟨_, by rw [seen_of_not_endsBlank (matched_of_plain hquote) hline hend, htokens], ?_⟩
    rw [rest_split, String.toList_ofList, List.map_eq_nil_iff]
    refine ⟨fun htail => ?_, fun hrest => by rw [hrest]; rfl⟩
    by_contra hrest
    rw [endsBlank_iff_rest hquote hne] at hend
    exact hend ((parts line).any_getLast?_rest hrest htail)

end Reading

/-- Splitting and scanning agree on the command word, and on whether it is being completed, except
before white space that does not end in a blank. -/
theorem completesCommand_split (hquote : ∀ c ∈ takeBytes cursor line, isQuote c = false) :
    ∃ s, scan line cursor = .ok s ∧
      s.tokens.head? = some (split (takeBytes cursor line)).command ∧
        ((split (takeBytes cursor line)).completesCommand = true ↔
          s.completesCommand = true ∨ WhiteRest (takeBytes cursor line)) := by
  refine ⟨_, Reading.scan_eq line cursor, ?_⟩
  rw [completesCommand_split_iff hquote, Scan.completesCommand, beq_iff_eq]
  generalize takeBytes cursor line = text at hquote
  by_cases hnil : (parts text).command = []
  · rw [Reading.seen_of_no_command hnil, command_split, hnil]
    exact ⟨rfl, by simp [(parts text).rest_eq_nil hnil]⟩
  · obtain ⟨behind, hseen, hbehind⟩ := Reading.seen_of_command hquote hnil
    rw [hseen, ← hbehind, List.length_cons, Nat.add_eq_right, List.length_eq_zero_iff]
    exact ⟨rfl, Iff.rfl⟩

theorem completesCommand_split_suggest : ∃ s, scan "  suggest -t".toList 9 = .ok s ∧
    s.tokens.head? = some "suggest" ∧ s.completesCommand = true := by
  have hquote : ∀ c ∈ takeBytes 9 "  suggest -t".toList, isQuote c = false := isQuote_of_any rfl
  obtain ⟨s, hscan, hhead, hcommand⟩ := completesCommand_split hquote
  refine ⟨s, hscan, hhead, (hcommand.mp rfl).resolve_right ?_⟩
  rintro ⟨hrest, -⟩
  exact hrest rfl

/-- A no-break space is a token of its own, and splitting leaves it out. -/
theorem completesCommand_split_noBreakSpace :
    (∀ c ∈ takeBytes 10 "suggest \u00a0".toList, isQuote c = false) ∧
      (split (takeBytes 10 "suggest \u00a0".toList)).completesCommand = true ∧
        ∃ s, scan "suggest \u00a0".toList 10 = .ok s ∧ s.completesCommand = false :=
  ⟨isQuote_of_any rfl, rfl, _, rfl, rfl⟩

end Tabwise.Line
