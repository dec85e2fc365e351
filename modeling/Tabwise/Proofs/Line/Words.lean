import Tabwise.Proofs.Line.BeforeCursor
import Tabwise.Proofs.Line.Spelling
import Tabwise.Proofs.Line.Split

/-! # Lines of words

Words without blanks and quotes, with single blanks between them, are read as they are. Splitting
off the first one leaves the line of the others.
-/

namespace Tabwise.Line
open Text

variable {w w' : List Char} {words rest : List (List Char)} {cs : List Char}

/-- A text that is one token, with itself for content. -/
structure IsWord (w : List Char) : Prop where
  ne_nil : w ≠ []
  plain : ∀ c ∈ w, isBlank c = false ∧ isQuote c = false

-- by `all`: the bounded quantifier would be decided by going through all characters there are
instance : Decidable (IsWord w) :=
  decidable_of_iff (w ≠ [] ∧ w.all (fun c => !isBlank c && !isQuote c) = true)
    ⟨fun h => ⟨h.1, by simpa using h.2⟩, fun h => ⟨h.ne_nil, by simpa using h.plain⟩⟩

def spaced (words : List (List Char)) : List Char := [' '].intercalate words

def blankGap : Gap := ⟨[' '], fun c hc => by rw [List.mem_singleton.mp hc]; rfl⟩

theorem spaced_cons_cons : spaced (w :: w' :: rest) = w ++ ' ' :: spaced (w' :: rest) := by
  rw [spaced, List.intercalate_cons_cons, List.append_assoc]
  rfl

theorem mem_spaced {c : Char} (hw : w ∈ words) (hc : c ∈ w) : c ∈ spaced words := by
  induction words with
  | nil => cases hw
  | cons w' rest ih =>
    cases rest with
    | nil =>
      rw [spaced, List.intercalate_singleton]
      rwa [List.mem_singleton.mp hw] at hc
    | cons w'' rest =>
      rw [spaced_cons_cons, List.mem_append]
      rcases List.mem_cons.mp hw with rfl | hrest
      · exact .inl hc
      · exact .inr (List.mem_cons_of_mem ' ' (ih hrest))

namespace Spelling

theorem exists_line_spaced (h : ∀ w ∈ words, IsWord w) (hne : words ≠ []) (lead trail : Gap) :
    ∃ ss, line lead ss = lead.val ++ (spaced words ++ trail.val) ∧
      ss.map (fun s => s.1.word) = words ∧ ∀ s ∈ ss.dropLast, s.2.val ≠ [] := by
  induction words generalizing lead with
  | nil => exact absurd rfl hne
  | cons w rest ih =>
    obtain ⟨hw, hrest⟩ := List.forall_mem_cons.mp h
    cases rest with
    | nil =>
      refine ⟨[(.bare w hw.ne_nil hw.plain, trail)], ?_, rfl, by simp⟩
      simp [line, spaced, raw]
    | cons w' rest =>
      obtain ⟨ss, hline, hwords, hgaps⟩ := ih hrest (List.cons_ne_nil _ _) blankGap
      have hss : ss ≠ [] := by
        rintro rfl
        cases hwords
      refine ⟨(.bare w hw.ne_nil hw.plain, blankGap) :: ss, ?_, ?_, ?_⟩
      · rw [line, hline, spaced_cons_cons]
        simp [raw, blankGap]
      · rw [List.map_cons, hwords, word]
      · rw [List.dropLast_cons_of_ne_nil hss, List.forall_mem_cons]
        exact ⟨List.cons_ne_nil _ _, hgaps⟩

end Spelling

theorem tokens_spaced (h : ∀ w ∈ words, IsWord w) (hne : words ≠ []) (trail : Gap) :
    Matched (spaced words ++ trail.val) ∧
      (tokens (spaced words ++ trail.val)).map Token.content = words.map String.ofList := by
  obtain ⟨ss, hline, rfl, hgaps⟩ :=
    Spelling.exists_line_spaced h hne ⟨[], List.forall_mem_nil _⟩ trail
  rw [List.nil_append] at hline
  rw [← hline, List.map_map]
  exact ⟨Spelling.matched_line _ ss, (Spelling.tokensFrom_line 0 _ hgaps).1⟩

/-- Behind the blank that ends a line of words an empty text is completed. -/
theorem scan_spaced (h : ∀ w ∈ words, IsWord w) (hne : words ≠ []) :
    ∃ s, scan (spaced words ++ [' ']) (byteLength (spaced words ++ [' '])) = .ok s ∧
      s.tokens = words.map String.ofList ++ [""] ∧ s.text = "" ∧
        s.stop = byteLength (spaced words ++ [' ']) := by
  have hend : EndsBlank (spaced words ++ [' ']) := by
    have hmatched := (tokens_spaced h hne ⟨[], List.forall_mem_nil _⟩).1
    rw [List.append_nil] at hmatched
    exact endsBlank_concat.mpr ⟨rfl, hmatched⟩
  have hcontents := (tokens_spaced h hne blankGap).2
  have hseen : (Reading.start.read (spaced words ++ [' '])).seen.tokens =
      words.map String.ofList ++ [""] := by
    rw [Reading.seen_of_endsBlank (.inr hend)]
    exact congrArg (· ++ [""]) hcontents
  refine ⟨_, Reading.scan_eq _ _, ?_⟩
  rw [takeBytes_self, Scan.text, hseen, Reading.stop_seen, List.getLast?_concat]
  exact ⟨rfl, rfl, rfl⟩

/-- The line is split behind its first word, which is not being completed if another character
that is no white space follows. -/
theorem split_append (hw : IsWord w) (rest : List Char) :
    (split (w ++ ' ' :: rest)).command = String.ofList w ∧
      (split (w ++ ' ' :: rest)).rest = String.ofList rest ∧
      ((∃ c ∈ rest, isWhite c = false) → (split (w ++ ' ' :: rest)).completesCommand = false) := by
  have hplain : ∀ c ∈ w, (!isBlank c) = true := fun c hc => by simp [(hw.plain c hc).1]
  have hlead : (w ++ ' ' :: rest).dropWhile isBlank = w ++ ' ' :: rest := by
    cases w with
    | nil => exact absurd rfl hw.ne_nil
    | cons c cs => simp [(hw.plain c List.mem_cons_self).1]
  have htake : (w ++ ' ' :: rest).takeWhile (!isBlank ·) = w := by
    rw [List.takeWhile_append_of_pos hplain]
    simp [isBlank]
  have hdrop : (w ++ ' ' :: rest).dropWhile (!isBlank ·) = ' ' :: rest := by
    rw [List.dropWhile_append_of_pos hplain]
    simp [isBlank]
  refine ⟨?_, ?_, ?_⟩
  · rw [split, hlead, htake]
  · rw [split, hlead, hdrop, List.tail_cons]
  · rintro ⟨c, hc, hwhite⟩
    have htrim : trim rest ≠ [] := fun hnil => by
      rw [trim_eq_nil_iff.mp hnil c hc] at hwhite
      cases hwhite
    rw [split, hlead, htake, hdrop, List.tail_cons]
    simp [hw.ne_nil, htrim]

end Tabwise.Line
