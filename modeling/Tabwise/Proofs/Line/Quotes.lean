import Tabwise.Proofs.Line.Scan

/-! # Matched quotes

A quote that is opened outside of any other is matched by the next one of its kind, and what stands
between them opens nothing. A text has all of its quotes matched or one of them open at its end;
which it is, is the region that is kept while a line is read.
-/

namespace Tabwise.Line
open Text

variable {c q : Char} {cs xs ys text : List Char} {pos : Nat} {o : OpenQuote}
  {region : Option OpenQuote} {ts : List Token}

/-- Every quote that was opened is matched. -/
inductive Matched : List Char → Prop
  | nil : Matched []
  | plain {cs : List Char} {c : Char} : Matched cs → isQuote c = false → Matched (cs ++ [c])
  | quoted {cs body : List Char} {q : Char} : Matched cs → isQuote q = true → q ∉ body →
      Matched (cs ++ q :: (body ++ [q]))

/-- The quote was opened outside of any other and is not yet matched. -/
def Unmatched (q : Char) (cs : List Char) : Prop :=
  isQuote q = true ∧ ∃ before inside, cs = before ++ q :: inside ∧ Matched before ∧ q ∉ inside

theorem Matched.unmatched (h : Matched cs) (hq : isQuote q = true) : Unmatched q (cs ++ [q]) :=
  ⟨hq, cs, [], rfl, h, List.not_mem_nil⟩

theorem Unmatched.matched (h : Unmatched q cs) : Matched (cs ++ [q]) := by
  obtain ⟨hq, before, inside, rfl, hbefore, hinside⟩ := h
  simpa using Matched.quoted hbefore hq hinside

theorem Unmatched.concat (h : Unmatched q cs) (hc : c ≠ q) : Unmatched q (cs ++ [c]) := by
  obtain ⟨hq, before, inside, rfl, hbefore, hinside⟩ := h
  refine ⟨hq, before, inside ++ [c], by simp, hbefore, ?_⟩
  simpa [hinside] using hc.symm

theorem matched_of_plain (h : ∀ c ∈ cs, isQuote c = false) : Matched cs := by
  induction cs using List.reverseRecOn with
  | nil => exact .nil
  | append_singleton cs c ih =>
    rw [List.forall_mem_append, List.forall_mem_singleton] at h
    exact .plain (ih h.1) h.2

theorem isQuote_of_isBlank (hc : isBlank c = true) : isQuote c = false :=
  Bool.eq_false_iff.mpr fun hq => by simp [isBlank_of_isQuote hq] at hc

theorem isQuote_of_any (h : cs.any isQuote = false) : ∀ c ∈ cs, isQuote c = false := by
  simpa using h

theorem regionAfter_none :
    regionAfter none pos c = if isQuote c then some ⟨c, pos⟩ else none := rfl

theorem regionAfter_some : regionAfter (some o) pos c = if c = o.quote then none else some o := rfl

/-- The region behind a text, from the one before it. -/
def regionFrom (pos : Nat) (region : Option OpenQuote) : List Char → Option OpenQuote
  | [] => region
  | c :: cs => regionFrom (pos + c.utf8Size) (regionAfter region pos c) cs

theorem regionFrom_append : regionFrom pos region (xs ++ ys) =
    regionFrom (pos + byteLength xs) (regionFrom pos region xs) ys := by
  induction xs generalizing pos region with
  | nil => rfl
  | cons x xs ih => simp [regionFrom, ih, Nat.add_assoc]

theorem regionFrom_concat : regionFrom pos region (cs ++ [c]) =
    regionAfter (regionFrom pos region cs) (pos + byteLength cs) c := regionFrom_append

theorem regionFrom_of_not_mem (h : o.quote ∉ cs) : regionFrom pos (some o) cs = some o := by
  induction cs generalizing pos with
  | nil => rfl
  | cons c cs ih =>
    rw [List.mem_cons, not_or] at h
    rw [regionFrom, regionAfter_some, if_neg (Ne.symm h.1), ih h.2]

theorem regionFrom_of_matched (h : Matched cs) : regionFrom pos none cs = none := by
  induction h with
  | nil => rfl
  | plain h hc ih => rw [regionFrom_concat, ih, regionAfter_none, if_neg (by simp [hc])]
  | quoted h hq hbody ih =>
    rw [regionFrom_append, ih, regionFrom, regionAfter_none, if_pos hq, regionFrom_concat,
      regionFrom_of_not_mem hbody, regionAfter_some, if_pos rfl]

theorem regionFrom_opened (hq : isQuote q = true) (hxs : Matched xs) (hys : q ∉ ys) :
    regionFrom pos none (xs ++ q :: ys) = some ⟨q, pos + byteLength xs⟩ := by
  rw [regionFrom_append, regionFrom_of_matched hxs, regionFrom, regionAfter_none, if_pos hq,
    regionFrom_of_not_mem hys]

theorem regionFrom_of_unmatched (pos : Nat) (h : Unmatched q cs) :
    (regionFrom pos none cs).map OpenQuote.quote = some q := by
  obtain ⟨hq, before, inside, rfl, hbefore, hinside⟩ := h
  rw [regionFrom_opened hq hbefore hinside]
  rfl

theorem Unmatched.not_matched (h : Unmatched q cs) : ¬Matched cs := fun hm => by
  simpa [regionFrom_of_matched hm] using regionFrom_of_unmatched 0 h

/-- A quote that is open behind a text was open before it or stands in it. -/
theorem start_regionFrom (h : regionFrom pos region cs = some o) :
    region = some o ∨ pos ≤ o.start := by
  induction cs generalizing pos region with
  | nil => exact .inl h
  | cons c cs ih =>
    rcases ih h with hafter | hle
    · cases region with
      | none =>
        rw [regionAfter_none] at hafter
        split at hafter
        · cases hafter
          exact .inr (Nat.le_refl _)
        · cases hafter
      | some o' =>
        rw [regionAfter_some] at hafter
        split at hafter
        · cases hafter
        · exact .inl hafter
    · exact .inr (Nat.le_of_add_right_le hle)

/-- A quote that is open from the start of a text on is its first character. -/
theorem head?_of_regionFrom (h : regionFrom o.start none cs = some o) :
    cs.head? = some o.quote := by
  cases cs with
  | nil => cases h
  | cons c cs =>
    rw [regionFrom] at h
    rcases start_regionFrom h with hafter | hle
    · rw [regionAfter_none] at hafter
      split at hafter
      · exact congrArg (fun o => some o.quote) (Option.some.inj hafter)
      · cases hafter
    · exact absurd hle (Nat.not_le_of_lt (Nat.lt_add_of_pos_right (Char.utf8Size_pos c)))

/-- A text is in one of two states, and the region shows it. -/
theorem regionFrom_cases (pos : Nat) (cs : List Char) :
    (regionFrom pos none cs = none ∧ Matched cs) ∨
      ∃ o, regionFrom pos none cs = some o ∧ Unmatched o.quote cs := by
  induction cs using List.reverseRecOn with
  | nil => exact .inl ⟨rfl, .nil⟩
  | append_singleton cs c ih =>
    rw [regionFrom_concat]
    rcases ih with ⟨hregion, h⟩ | ⟨o, hregion, h⟩
    · rw [hregion, regionAfter_none]
      cases hc : isQuote c with
      | true => exact .inr ⟨_, rfl, h.unmatched hc⟩
      | false => exact .inl ⟨rfl, h.plain hc⟩
    · rw [hregion, regionAfter_some]
      by_cases hc : c = o.quote
      · exact .inl ⟨if_pos hc, hc ▸ h.matched⟩
      · exact .inr ⟨o, if_neg hc, h.concat hc⟩

theorem regionFrom_eq_none (pos : Nat) : regionFrom pos none cs = none ↔ Matched cs := by
  refine ⟨fun h => ?_, regionFrom_of_matched⟩
  rcases regionFrom_cases pos cs with ⟨-, hm⟩ | ⟨o, ho, -⟩
  · exact hm
  · cases h.symm.trans ho

instance (cs : List Char) : Decidable (Matched cs) := decidable_of_iff _ (regionFrom_eq_none 0)

theorem matched_append_iff (hxs : Matched xs) : Matched (xs ++ ys) ↔ Matched ys := by
  rw [← regionFrom_eq_none 0, regionFrom_append, regionFrom_of_matched hxs, regionFrom_eq_none]

theorem quote_regionFrom :
    (regionFrom pos none cs).map OpenQuote.quote = some q ↔ Unmatched q cs := by
  refine ⟨fun h => ?_, regionFrom_of_unmatched pos⟩
  rcases regionFrom_cases pos cs with ⟨hnone, -⟩ | ⟨o, ho, hopen⟩
  · simp [hnone] at h
  · rw [ho, Option.map_some, Option.some.injEq] at h
    exact h ▸ hopen

namespace Reading

/-- A blank between tokens opens nothing, so the region of the token is the one of the line. -/
theorem region_read (text : List Char) :
    (start.read text).pending.bind Pending.region = regionFrom 0 none text := by
  induction text using List.reverseRecOn with
  | nil => rfl
  | append_singleton text c ih =>
    rw [read_concat, regionFrom_concat, ← ih, Nat.zero_add]
    have hm := step_move (start.read text) c
    generalize (start.read text).step c = r' at hm
    cases hm with
    | skip hp hb => simp [hp, regionAfter_none, isQuote_of_isBlank hb]
    | begins hp hb => simp [hp]
    | ends p hp hn hb => simp [hp, hn, regionAfter_none, isQuote_of_isBlank hb]
    | grows p hp hb => simp [hp]

end Reading

/-- A line is complete when its quotes are matched. -/
theorem tokenize_eq_ok_iff : tokenize text = .ok ts ↔ Matched text ∧ tokens text = ts := by
  rw [Reading.tokenize_eq, Reading.region_read, ← regionFrom_eq_none 0, Reading.tokens_eq]
  cases regionFrom 0 none text <;> simp

theorem tokenize_eq_error_iff : (∃ e, tokenize text = .error e) ↔ ¬Matched text := by
  rw [Reading.tokenize_eq, Reading.region_read, ← regionFrom_eq_none 0]
  cases regionFrom 0 none text <;> simp

/-- The line ends in a blank that stands outside of quotes. -/
def EndsBlank (line : List Char) : Prop :=
  ∃ init b, line = init ++ [b] ∧ isBlank b = true ∧ Matched init

theorem endsBlank_concat : EndsBlank (cs ++ [c]) ↔ isBlank c = true ∧ Matched cs := by
  refine ⟨?_, fun h => ⟨cs, c, rfl, h⟩⟩
  rintro ⟨init, b, heq, h⟩
  obtain ⟨rfl, hcb⟩ := List.append_inj' heq rfl
  cases hcb
  exact h

theorem endsBlank_iff_getLast? :
    EndsBlank cs ↔ cs.getLast?.any isBlank = true ∧ Matched cs.dropLast := by
  cases cs using List.reverseRecOn with
  | nil => simp [EndsBlank]
  | append_singleton init b => simp [endsBlank_concat]

instance (cs : List Char) : Decidable (EndsBlank cs) :=
  decidable_of_iff _ endsBlank_iff_getLast?.symm

namespace Reading

theorem pending_eq_none_iff :
    (start.read text).pending = none ↔ text = [] ∨ EndsBlank text := by
  cases text using List.reverseRecOn with
  | nil => exact ⟨fun _ => .inl rfl, fun _ => rfl⟩
  | append_singleton init c =>
    rw [endsBlank_concat, ← regionFrom_eq_none 0, read_concat, ← region_read]
    have hm := step_move (start.read init) c
    generalize (start.read init).step c = r' at hm
    cases hm with
    | skip hp hb => simp [hp, hb]
    | begins hp hb => simp [hb]
    | ends p hp hn hb => simp [hp, hn, hb]
    | grows p hp hb => simpa [hp] using fun hb' hn => by simp [hb hn] at hb'

theorem seen_of_endsBlank (hend : text = [] ∨ EndsBlank text) :
    (start.read text).seen.tokens = (Line.tokens text).map Token.content ++ [""] := by
  have hnone := pending_eq_none_iff.mpr hend
  simp [tokens_eq, tokens, seen, hnone]

theorem seen_of_not_endsBlank (h : Matched text) (hne : text ≠ []) (hend : ¬EndsBlank text) :
    (start.read text).seen.tokens = (Line.tokens text).map Token.content := by
  have hregion := (region_read text).trans (regionFrom_of_matched h)
  cases hp : (start.read text).pending with
  | none => exact absurd (pending_eq_none_iff.mp hp) (not_or.mpr ⟨hne, hend⟩)
  | some p =>
    have hn : p.region = none := by simpa [hp] using hregion
    simp [tokens_eq, tokens, seen, hp, Pending.close, Pending.finish, hn]

end Reading

end Tabwise.Line
