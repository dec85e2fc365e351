import Mathlib.Data.List.Infix
import Tabwise.Proofs.Text.Unicode

/-! # Escape sequences delimit themselves

An escape sequence carries its own end, so what follows it does not change it, nor the pieces before
it. The exception is a sequence that the text breaks off: it takes in what is put behind it. Only a
text that does not break off so can be filled up with spaces.
-/

namespace Tabwise.Text

open Segment

variable {c : Char} {cs body e t : List Char} {mode : Segment.Mode} {afterEsc : Bool}
  {before after ps qs : List Segment} {p : Segment}

/-- A sequence without its end: nothing behind `ESC`, no final byte behind `ESC [`, and neither a
bell nor `ESC \` behind `ESC ]`. -/
inductive Unfinished : List Char → Prop
  | bare : Unfinished [esc]
  | control {params : List Char} (hparams : ∀ c ∈ params, isFinal c = false) :
      Unfinished (esc :: '[' :: params)
  | command {text : List Char} (hbell : bell ∉ text) (hesc : ¬[esc, '\\'] <:+: text) :
      Unfinished (esc :: ']' :: text)

/-- The last piece of the text is an unfinished sequence. -/
def BreaksOff (cs : List Char) : Prop :=
  ∃ e, Unfinished e ∧ (segments cs).getLast? = some (.escape e)

theorem not_staysOpen_visible : ¬StaysOpen .visible cs := by
  rintro (hmode | ⟨-, hmode⟩)
  · exact hmode rfl
  · exact hmode rfl

theorem staysOpen_cons (hmode : mode ≠ .visible) :
    StaysOpen mode (c :: cs) ↔ StaysOpen (mode.after c) cs := by
  constructor
  · rintro (_ | ⟨hcs, -⟩)
    exact hcs
  · exact fun hcs => .more hcs hmode

theorem staysOpen_control : StaysOpen .control cs ↔ ∀ c ∈ cs, isFinal c = false := by
  induction cs with
  | nil => simpa using StaysOpen.nil (by decide)
  | cons c cs ih =>
    rw [staysOpen_cons (by decide), List.forall_mem_cons, ← ih, Mode.after]
    cases hc : isFinal c with
    | true => simp [not_staysOpen_visible]
    | false => simp

theorem staysOpen_command : StaysOpen (.command afterEsc) cs ↔
    bell ∉ cs ∧ ¬[esc, '\\'] <:+: cs ∧ (afterEsc = true → cs.head? ≠ some '\\') := by
  induction cs generalizing afterEsc with
  | nil => simpa using StaysOpen.nil (by simp)
  | cons c cs ih =>
    have hback : ['\\'] <+: cs ↔ cs.head? = some '\\' := by
      cases cs <;> simp [eq_comm]
    rw [staysOpen_cons (by simp), Mode.after, List.infix_cons_iff, List.cons_prefix_cons, hback,
      List.mem_cons, List.head?_cons]
    by_cases hend : (c = bell || (afterEsc && c = '\\')) = true
    · rw [if_pos hend]
      simp only [not_staysOpen_visible, false_iff]
      rintro ⟨hbell, -, hback⟩
      simp only [Bool.or_eq_true, Bool.and_eq_true, decide_eq_true_eq] at hend
      rcases hend with rfl | ⟨hesc, rfl⟩
      · exact hbell (.inl rfl)
      · exact hback hesc rfl
    · rw [if_neg hend, ih]
      simp only [Bool.or_eq_true, Bool.and_eq_true, decide_eq_true_eq, not_or, not_and] at hend
      simp only [not_or, not_and, decide_eq_true_eq, Option.some.injEq, ne_eq]
      constructor
      · rintro ⟨hbell, hinside, hfirst⟩
        exact ⟨⟨Ne.symm hend.1, hbell⟩, ⟨fun hesc => hfirst hesc.symm, hinside⟩, hend.2⟩
      · rintro ⟨⟨-, hbell⟩, ⟨hfirst, hinside⟩, -⟩
        exact ⟨hbell, hinside, fun hesc => hfirst hesc.symm⟩

theorem unfinished_iff : Unfinished e ↔ ∃ body, e = esc :: body ∧ StaysOpen .opened body := by
  constructor
  · rintro (_ | ⟨hparams⟩ | ⟨hbell, hesc⟩)
    · exact ⟨[], rfl, .nil (by decide)⟩
    · exact ⟨_, rfl, .more (staysOpen_control.mpr hparams) (by decide)⟩
    · exact ⟨_, rfl, .more (staysOpen_command.mpr ⟨hbell, hesc, nofun⟩) (by decide)⟩
  · rintro ⟨body, rfl, hbody⟩
    cases body with
    | nil => exact .bare
    | cons c body =>
      rw [staysOpen_cons (by decide), Mode.after] at hbody
      split at hbody
      · next hc =>
        subst hc
        exact .control (staysOpen_control.mp hbody)
      · split at hbody
        · next hc =>
          subst hc
          obtain ⟨hbell, hesc, -⟩ := staysOpen_command.mp hbody
          exact .command hbell hesc
        · exact absurd hbody not_staysOpen_visible

theorem not_unfinished_of_closes (h : Closes .opened body) : ¬Unfinished (esc :: body) := by
  rw [unfinished_iff]
  rintro ⟨_, ⟨⟩, hopen⟩
  exact read_staysOpen hopen (read_closes h)

theorem Segmented.text_ne_nil (h : Segmented ps) (hp : p ∈ ps) : p.text ≠ [] := by
  induction h with
  | nil => cases hp
  | visible hne _ _ _ ih =>
    rcases List.mem_cons.mp hp with rfl | hp
    · exact hne
    · exact ih hp
  | escape _ _ ih =>
    rcases List.mem_cons.mp hp with rfl | hp
    · exact List.cons_ne_nil _ _
    · exact ih hp
  | unfinished =>
    rw [List.mem_singleton.mp hp]
    exact List.cons_ne_nil _ _

theorem Segmented.esc_notMem (h : Segmented ps) (ht : .visible t ∈ ps) : esc ∉ t := by
  induction h with
  | nil => cases ht
  | @visible t' ps _ hplain _ _ ih =>
    rcases List.mem_cons.mp ht with heq | ht
    · cases heq
      exact hplain
    · exact ih ht
  | escape _ _ ih => exact ih ((List.mem_cons.mp ht).resolve_left nofun)
  | unfinished => cases List.mem_singleton.mp ht

theorem Segmented.visible_apart (h : Segmented ps) (t u : List Char) :
    ¬[.visible t, .visible u] <:+: ps := by
  induction h with
  | nil => simp
  | @visible t' ps _ _ hnext _ ih =>
    rw [List.infix_cons_iff, List.cons_prefix_cons]
    rintro (⟨-, hu⟩ | hinside)
    · cases ps with
      | nil => simp at hu
      | cons p ps =>
        obtain rfl : .visible u = p := by simpa using hu
        exact hnext u rfl
    · exact ih hinside
  | escape _ _ ih =>
    rw [List.infix_cons_iff, List.cons_prefix_cons]
    rintro (⟨⟨⟩, -⟩ | hinside)
    exact ih hinside
  | unfinished => simp [List.infix_cons_iff]

/-- Every escape sequence has an end, except for one that is the last piece. -/
theorem Segmented.escape_cases (h : Segmented ps) (hps : ps = before ++ .escape e :: after) :
    ∃ body, e = esc :: body ∧ (Closes .opened body ∨ StaysOpen .opened body ∧ after = []) := by
  induction h generalizing before with
  | nil => simp at hps
  | visible _ _ _ _ ih =>
    cases before with
    | nil => cases hps
    | cons p before => exact ih (List.cons.inj hps).2
  | @escape body ps hbody _ ih =>
    cases before with
    | nil =>
      cases hps
      exact ⟨body, rfl, .inl hbody⟩
    | cons p before => exact ih (List.cons.inj hps).2
  | @unfinished body hbody =>
    cases before with
    | nil =>
      cases hps
      exact ⟨body, rfl, .inr ⟨hbody, rfl⟩⟩
    | cons p before => simp at hps

theorem Segmented.exchange (h : Segmented (before ++ .escape (esc :: body) :: after))
    (hbody : Closes .opened body) (hqs : Segmented qs) :
    Segmented (before ++ .escape (esc :: body) :: qs) := by
  induction before with
  | nil => exact .escape hbody hqs
  | cons p before ih =>
    rw [List.cons_append] at h ⊢
    generalize htail : before ++ .escape (esc :: body) :: after = tail at h
    cases h with
    | visible hne ht hnext hps =>
      subst htail
      refine .visible hne ht (fun u => ?_) (ih hps)
      cases before with
      | nil => simp
      | cons q before => exact hnext u
    | escape hclosed hps =>
      subst htail
      exact .escape hclosed (ih hps)
    | unfinished => simp at htail

/-- What follows a finished sequence can be replaced; the pieces up to it stay. -/
theorem segments_replace (h : segments cs = before ++ .escape e :: after) (he : ¬Unfinished e)
    (rest : List Char) : segments (before.flatMap Segment.text ++ (e ++ rest)) =
      before ++ .escape e :: segments rest := by
  have hps := segmented_segments cs
  rw [h] at hps
  obtain ⟨body, rfl, hbody | ⟨hopen, -⟩⟩ := hps.escape_cases rfl
  · have htext : (before ++ .escape (esc :: body) :: segments rest).flatMap Segment.text =
        before.flatMap Segment.text ++ (esc :: body ++ rest) := by
      rw [List.flatMap_append, List.flatMap_cons, flatMap_segments]
      rfl
    rw [← htext]
    exact (hps.exchange hbody (segmented_segments rest)).segments_eq
  · exact absurd (unfinished_iff.mpr ⟨body, rfl, hopen⟩) he

theorem eq_nil_of_unfinished (h : segments cs = before ++ .escape e :: after)
    (he : Unfinished e) : after = [] := by
  obtain ⟨body, rfl, hbody | ⟨-, hlast⟩⟩ := (segmented_segments cs).escape_cases h
  · exact absurd he (not_unfinished_of_closes hbody)
  · exact hlast

theorem not_breaksOff_iff : ¬BreaksOff cs ↔ Finished cs := by
  rw [finished_iff]
  constructor
  · intro h body hopen hmem
    have he : Unfinished (esc :: body) := unfinished_iff.mpr ⟨body, rfl, hopen⟩
    obtain ⟨before, after, hsplit⟩ := List.append_of_mem hmem
    obtain rfl := eq_nil_of_unfinished hsplit he
    exact h ⟨_, he, by rw [hsplit, List.getLast?_concat]⟩
  · rintro h ⟨e, he, hlast⟩
    obtain ⟨body, rfl, hopen⟩ := unfinished_iff.mp he
    exact h body hopen (List.mem_of_getLast? hlast)

structure Delimits (cs : List Char) (ps : List Segment) : Prop where
  joined : ps.flatMap Segment.text = cs
  nonempty : ∀ p ∈ ps, p.text ≠ []
  /-- Every piece takes a character, so splitting comes to an end. -/
  bounded : ps.length ≤ cs.length
  plain : ∀ t, .visible t ∈ ps → esc ∉ t
  apart : ∀ t u, ¬[.visible t, .visible u] <:+: ps
  begins : ∀ e, .escape e ∈ ps → e.head? = some esc
  /-- Only the last piece can be unfinished. -/
  unfinished : ∀ before e after, ps = before ++ .escape e :: after → Unfinished e → after = []
  /-- What follows a finished sequence does not change it. -/
  delimited : ∀ before e after, ps = before ++ .escape e :: after → ¬Unfinished e → ∀ rest,
    segments (before.flatMap Segment.text ++ (e ++ rest)) = before ++ .escape e :: segments rest

theorem length_le_of_nonempty (h : ∀ p ∈ ps, p.text ≠ []) :
    ps.length ≤ (ps.flatMap Segment.text).length := by
  induction ps with
  | nil => exact Nat.zero_le _
  | cons p ps ih =>
    rw [List.forall_mem_cons] at h
    have hpos := List.length_pos_iff.mpr h.1
    have hrest := ih h.2
    rw [List.flatMap_cons, List.length_append, List.length_cons]
    omega

/-- A text is split into visible pieces and escape sequences that delimit themselves. So if its last
sequence is finished, filling it up with spaces gives it the width asked for. -/
theorem delimits_segments (cs : List Char) : Delimits cs (segments cs) ∧
    (¬BreaksOff cs → ∀ width, displayWidth (pad width cs) = max width (displayWidth cs)) := by
  have hps := segmented_segments cs
  have hnonempty : ∀ p ∈ segments cs, p.text ≠ [] := fun p => hps.text_ne_nil
  refine ⟨?_, fun h => unicode_laws.displayWidth_pad (not_breaksOff_iff.mp h)⟩
  constructor
  case joined => exact flatMap_segments cs
  case nonempty => exact hnonempty
  case bounded =>
    have hlength := length_le_of_nonempty hnonempty
    rwa [flatMap_segments] at hlength
  case plain => exact fun t => hps.esc_notMem
  case apart => exact hps.visible_apart
  case begins =>
    intro e he
    obtain ⟨before, after, hsplit⟩ := List.append_of_mem he
    obtain ⟨body, rfl, -⟩ := hps.escape_cases hsplit
    rfl
  case unfinished => exact fun before e after => eq_nil_of_unfinished
  case delimited => exact fun before e after => segments_replace

/-- A link that ends in `ESC \` and a wide character behind it are filled up. -/
theorem delimits_segments_link :
    ¬BreaksOff "\x1b]8;;a\x1b\\日\x1b]8;;\x07".toList ∧
    segments "\x1b]8;;a\x1b\\日\x1b]8;;\x07".toList =
      [.escape "\x1b]8;;a\x1b\\".toList, .visible ['日'], .escape "\x1b]8;;\x07".toList] ∧
    segments "\x1b]8;;a\x1b\\\\m".toList =
      [.escape "\x1b]8;;a\x1b\\".toList, .visible "\\m".toList] ∧
    displayWidth (pad 5 "\x1b]8;;a\x1b\\日\x1b]8;;\x07".toList) = 5 := by
  obtain ⟨hpieces, hpad⟩ := delimits_segments "\x1b]8;;a\x1b\\日\x1b]8;;\x07".toList
  have hfinished : ¬BreaksOff "\x1b]8;;a\x1b\\日\x1b]8;;\x07".toList :=
    not_breaksOff_iff.mpr (by decide)
  have hsplit : segments "\x1b]8;;a\x1b\\日\x1b]8;;\x07".toList =
      [.escape "\x1b]8;;a\x1b\\".toList, .visible ['日'], .escape "\x1b]8;;\x07".toList] := rfl
  have hlink : ¬Unfinished "\x1b]8;;a\x1b\\".toList := fun he => by
    cases hpieces.unfinished [] _ _ hsplit he
  refine ⟨hfinished, hsplit, hpieces.delimited [] _ _ hsplit hlink "\\m".toList, ?_⟩
  rw [hpad hfinished 5]
  decide +kernel

/-- Spaces behind an unfinished sequence belong to it. -/
example : displayWidth (pad 5 "abc\x1b[".toList) = 3 := by decide +kernel

end Tabwise.Text
