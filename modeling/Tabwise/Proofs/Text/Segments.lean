import Mathlib.Data.List.TakeWhile
import Tabwise.Text.Escape

/-! # The segments of a text

An escape sequence ends by itself: what follows does not change where. So pieces that are each
visible or a whole sequence can be put next to each other and are found again, unless two visible
ones meet; only a sequence at the end of a text can be unfinished.
-/

namespace Tabwise.Text

variable {c : Char} {cs body current rest t : List Char} {mode : Segment.Mode}

namespace Segment

/-- Where a reader stands behind a character. -/
def Mode.after : Mode → Char → Mode
  | .visible, c => if c = esc then .opened else .visible
  | .opened, c => if c = '[' then .control else if c = ']' then .command false else .visible
  | .control, c => if isFinal c then .visible else .control
  | .command afterEsc, c =>
    if c = bell || (afterEsc && c = '\\') then .visible else .command (c = esc)

def Mode.read (mode : Mode) (cs : List Char) : Mode := cs.foldl after mode

@[simp] theorem Mode.read_nil (mode : Mode) : mode.read [] = mode := rfl

@[simp] theorem Mode.read_cons (mode : Mode) (c : Char) (cs : List Char) :
    mode.read (c :: cs) = (mode.after c).read cs := rfl

/-- A sequence is finished by the last character and by none before it. -/
inductive Closes : Mode → List Char → Prop
  | last {mode : Mode} {c : Char} (hc : mode.after c = .visible) : Closes mode [c]
  | more {mode : Mode} {c : Char} {cs : List Char} (hc : mode.after c ≠ .visible)
      (hcs : Closes (mode.after c) cs) : Closes mode (c :: cs)

/-- A sequence goes on to the end. -/
inductive StaysOpen : Mode → List Char → Prop
  | nil {mode : Mode} (hmode : mode ≠ .visible) : StaysOpen mode []
  | more {mode : Mode} {c : Char} {cs : List Char} (hcs : StaysOpen (mode.after c) cs)
      (hmode : mode ≠ .visible) : StaysOpen mode (c :: cs)

end Segment

open Segment

theorem segmentsFrom_cons (hmode : mode ≠ .visible) :
    segmentsFrom mode current (c :: cs) =
      if mode.after c = .visible then .escape (current.reverse ++ [c]) :: segments cs
      else segmentsFrom (mode.after c) (c :: current) cs := by
  cases mode with
  | visible => exact absurd rfl hmode
  | opened =>
    simp only [segmentsFrom, Mode.after]
    (repeat' split) <;> simp_all [segments]
  | control =>
    simp only [segmentsFrom, Mode.after]
    (repeat' split) <;> simp_all [segments]
  | command afterEsc =>
    simp only [segmentsFrom, Mode.after]
    (repeat' split) <;> simp_all [segments]

theorem segmentsFrom_closes (hmode : mode ≠ .visible) (h : Closes mode body) :
    segmentsFrom mode current (body ++ rest) =
      .escape (current.reverse ++ body) :: segments rest := by
  induction h generalizing current with
  | last hc => rw [List.singleton_append, segmentsFrom_cons hmode, if_pos hc]
  | @more _ c _ hc _ ih =>
    rw [List.cons_append, segmentsFrom_cons hmode, if_neg hc, ih hc]
    simp

theorem segmentsFrom_staysOpen (hcurrent : current ≠ []) (h : StaysOpen mode body) :
    segmentsFrom mode current body = [.escape (current.reverse ++ body)] := by
  induction h generalizing current with
  | @nil mode hmode =>
    cases current with
    | nil => exact absurd rfl hcurrent
    | cons c current => cases mode <;> simp_all [segmentsFrom, Segment.flush]
  | @more mode c cs hcs hmode ih =>
    have hafter : mode.after c ≠ .visible := by cases hcs <;> assumption
    rw [segmentsFrom_cons hmode, if_neg hafter, ih (List.cons_ne_nil _ _)]
    simp

theorem segments_escape (h : Closes .opened body) :
    segments (esc :: (body ++ rest)) = .escape (esc :: body) :: segments rest := by
  have hread : segmentsFrom .opened [esc] (body ++ rest) = _ := segmentsFrom_closes (by decide) h
  simpa [segments, segmentsFrom, Segment.flush] using hread

theorem segments_unfinished (h : StaysOpen .opened body) :
    segments (esc :: body) = [.escape (esc :: body)] := by
  have hread : segmentsFrom .opened [esc] body = _ := segmentsFrom_staysOpen (List.cons_ne_nil _ _) h
  simpa [segments, segmentsFrom, Segment.flush] using hread

theorem segmentsFrom_visible (ht : esc ∉ t) :
    segmentsFrom .visible current (t ++ rest) = segmentsFrom .visible (t.reverse ++ current) rest := by
  induction t generalizing current with
  | nil => rfl
  | cons c t ih =>
    rw [List.mem_cons, not_or] at ht
    rw [List.cons_append, segmentsFrom, if_neg (Ne.symm ht.1), ih ht.2]
    simp

/-- No visible segment begins here. -/
def Breaks (rest : List Char) : Prop := rest = [] ∨ ∃ more, rest = esc :: more

theorem segmentsFrom_of_breaks (h : Breaks rest) :
    segmentsFrom .visible current rest = Segment.flush .visible current ++ segments rest := by
  obtain rfl | ⟨more, rfl⟩ := h
  · simp [segments, segmentsFrom, Segment.flush]
  · simp [segments, segmentsFrom, Segment.flush]

theorem segments_visible (hne : t ≠ []) (ht : esc ∉ t) (h : Breaks rest) :
    segments (t ++ rest) = .visible t :: segments rest := by
  rw [segments, segmentsFrom_visible ht, List.append_nil, segmentsFrom_of_breaks h]
  cases hrev : t.reverse with
  | nil => exact absurd (List.reverse_eq_nil_iff.mp hrev) hne
  | cons c cs => simp [Segment.flush, ← hrev]

/-- What follows a text changes the piece that is open at its end and no other. -/
theorem segmentsFrom_append (mode : Segment.Mode) (current xs ys : List Char) :
    ∃ ps last, segmentsFrom mode current (xs ++ ys) = ps ++ segmentsFrom (mode.read xs) last ys ∧
      segmentsFrom mode current xs = ps ++ Segment.flush (mode.read xs) last := by
  induction xs generalizing mode current with
  | nil => exact ⟨[], current, rfl, rfl⟩
  | cons c xs ih =>
    by_cases hmode : mode = .visible
    · subst hmode
      rw [List.cons_append, segmentsFrom, segmentsFrom, Mode.read_cons, Mode.after]
      split
      · obtain ⟨ps, last, happend, hxs⟩ := ih .opened [c]
        exact ⟨Segment.flush .visible current ++ ps, last, by simp [happend], by simp [hxs]⟩
      · exact ih .visible (c :: current)
    · rw [List.cons_append, segmentsFrom_cons hmode, segmentsFrom_cons hmode, Mode.read_cons]
      split
      · next hc =>
        obtain ⟨ps, last, happend, hxs⟩ := ih .visible []
        refine ⟨.escape (current.reverse ++ [c]) :: ps, last, ?_, ?_⟩
        · rw [segments, happend, hc, List.cons_append]
        · rw [segments, hxs, hc, List.cons_append]
      · exact ih (mode.after c) (c :: current)

/-- The text does not end inside an escape sequence. -/
def Finished (cs : List Char) : Prop := Segment.Mode.visible.read cs = .visible

instance (cs : List Char) : Decidable (Finished cs) := inferInstanceAs (Decidable (_ = _))

theorem finished_nil : Finished [] := rfl

/-- Visible pieces and escape sequences in the order in which they can stand in a text. -/
inductive Segmented : List Segment → Prop
  | nil : Segmented []
  | visible {t : List Char} {ps : List Segment} (hne : t ≠ []) (ht : esc ∉ t)
      (hnext : ∀ u, ps.head? ≠ some (.visible u)) (hps : Segmented ps) :
      Segmented (.visible t :: ps)
  | escape {body : List Char} {ps : List Segment} (hbody : Closes .opened body)
      (hps : Segmented ps) : Segmented (.escape (esc :: body) :: ps)
  | unfinished {body : List Char} (hbody : StaysOpen .opened body) :
      Segmented [.escape (esc :: body)]

theorem Segmented.breaks {ps : List Segment} (h : Segmented ps)
    (hhead : ∀ u, ps.head? ≠ some (.visible u)) : Breaks (ps.flatMap Segment.text) := by
  cases h with
  | nil => exact .inl rfl
  | visible => exact absurd rfl (hhead _)
  | escape | unfinished => exact .inr ⟨_, rfl⟩

theorem Segmented.segments_eq {ps : List Segment} (h : Segmented ps) :
    segments (ps.flatMap Segment.text) = ps := by
  induction h with
  | nil => rfl
  | visible hne ht hnext hps ih =>
    rw [List.flatMap_cons, Segment.text, segments_visible hne ht (hps.breaks hnext), ih]
  | escape hbody hps ih =>
    rw [List.flatMap_cons, Segment.text, List.cons_append, segments_escape hbody, ih]
  | unfinished hbody =>
    rw [List.flatMap_singleton, Segment.text, segments_unfinished hbody]

theorem closes_or_staysOpen (hmode : mode ≠ .visible) (cs : List Char) :
    (∃ body rest, cs = body ++ rest ∧ Closes mode body) ∨ StaysOpen mode cs := by
  induction cs generalizing mode with
  | nil => exact .inr (.nil hmode)
  | cons c cs ih =>
    by_cases hc : mode.after c = .visible
    · exact .inl ⟨[c], cs, rfl, .last hc⟩
    · rcases ih hc with ⟨body, rest, rfl, hbody⟩ | hopen
      · exact .inl ⟨c :: body, rest, rfl, .more hc hbody⟩
      · exact .inr (.more hopen hmode)

/-- A text is nothing, or it begins with one of its pieces. -/
inductive Leads : List Char → Prop
  | nil : Leads []
  | visible {t rest : List Char} (hne : t ≠ []) (ht : esc ∉ t) (hrest : Breaks rest) :
      Leads (t ++ rest)
  | escape {body rest : List Char} (hbody : Closes .opened body) : Leads (esc :: (body ++ rest))
  | unfinished {body : List Char} (hbody : StaysOpen .opened body) : Leads (esc :: body)

theorem leads (cs : List Char) : Leads cs := by
  cases cs with
  | nil => exact .nil
  | cons c cs =>
    by_cases hc : c = esc
    · subst hc
      have hopened : Mode.opened ≠ .visible := by decide
      rcases closes_or_staysOpen hopened cs with ⟨body, rest, rfl, hbody⟩ | hopen
      · exact .escape hbody
      · exact .unfinished hopen
    · have hsplit : (c :: cs).takeWhile (· ≠ esc) ++ (c :: cs).dropWhile (· ≠ esc) = c :: cs :=
        List.takeWhile_append_dropWhile
      rw [← hsplit]
      refine .visible (by simp [hc]) (fun hmem => ?_) ?_
      · simpa using List.mem_takeWhile_imp hmem
      · cases hrest : (c :: cs).dropWhile (· ≠ esc) with
        | nil => exact .inl rfl
        | cons d more =>
          have hd := List.head?_dropWhile_not (· ≠ esc) (c :: cs)
          rw [hrest] at hd
          obtain rfl : d = esc := by simpa using hd
          exact .inr ⟨more, rfl⟩

/-- A visible piece that is open takes in what is visible at the beginning of a text. -/
theorem exists_visible (cs : List Char) : ∃ seen rest, cs = seen ++ rest ∧ ∀ current,
    segmentsFrom .visible current cs =
      Segment.flush .visible (seen.reverse ++ current) ++ segments rest := by
  have hbreaks {rest : List Char} (h : Breaks rest) : ∃ seen rest', rest = seen ++ rest' ∧
      ∀ current, segmentsFrom .visible current rest =
        Segment.flush .visible (seen.reverse ++ current) ++ segments rest' :=
    ⟨[], rest, rfl, fun current => segmentsFrom_of_breaks h⟩
  cases leads cs with
  | nil => exact hbreaks (.inl rfl)
  | @visible t rest hne ht hrest =>
    refine ⟨t, rest, rfl, fun current => ?_⟩
    rw [segmentsFrom_visible ht, segmentsFrom_of_breaks hrest]
  | escape | unfinished => exact hbreaks (.inr ⟨_, rfl⟩)

theorem Segmented.head_of_breaks {ps : List Segment} (h : Segmented ps)
    (hbreaks : Breaks (ps.flatMap Segment.text)) (u : List Char) : ps.head? ≠ some (.visible u) := by
  cases h with
  | @visible t ps hne ht =>
    cases t with
    | nil => exact absurd rfl hne
    | cons c t =>
      obtain hnil | ⟨more, hmore⟩ := hbreaks
      · cases hnil
      · obtain ⟨rfl, -⟩ := List.cons.inj hmore
        exact absurd (List.mem_cons_self ..) ht
  | nil | escape | unfinished => simp

/-- The segments of every text are such pieces. -/
theorem segmented_segments (cs : List Char) : Segmented (segments cs) := by
  suffices ∃ ps, Segmented ps ∧ ps.flatMap Segment.text = cs by
    obtain ⟨ps, hps, rfl⟩ := this
    rwa [hps.segments_eq]
  induction hn : cs.length using Nat.strongRecOn generalizing cs with
  | ind n ih =>
    cases leads cs with
    | nil => exact ⟨[], .nil, rfl⟩
    | @visible t rest hne ht hrest =>
      have hshorter : rest.length < n := by
        have hpos := List.length_pos_iff.mpr hne
        rw [List.length_append] at hn
        omega
      obtain ⟨ps, hps, rfl⟩ := ih _ hshorter rest rfl
      exact ⟨_, .visible hne ht (hps.head_of_breaks hrest) hps, rfl⟩
    | @escape body rest hbody =>
      have hshorter : rest.length < n := by
        rw [List.length_cons, List.length_append] at hn
        omega
      obtain ⟨ps, hps, rfl⟩ := ih _ hshorter rest rfl
      exact ⟨_, .escape hbody hps, rfl⟩
    | unfinished hbody => exact ⟨_, .unfinished hbody, by simp [Segment.text]⟩

theorem read_append (mode : Segment.Mode) (xs ys : List Char) :
    mode.read (xs ++ ys) = (mode.read xs).read ys := List.foldl_append

theorem read_visible (ht : esc ∉ t) : Segment.Mode.visible.read t = .visible := by
  induction t with
  | nil => rfl
  | cons c t ih =>
    rw [List.mem_cons, not_or] at ht
    rw [Mode.read_cons, Mode.after, if_neg (Ne.symm ht.1), ih ht.2]

theorem read_esc (body : List Char) :
    Segment.Mode.visible.read (esc :: body) = Segment.Mode.opened.read body := rfl

theorem read_closes (h : Closes mode body) : mode.read body = .visible := by
  induction h with
  | last hc => exact hc
  | more hc hcs ih => exact ih

theorem read_staysOpen (h : StaysOpen mode body) : mode.read body ≠ .visible := by
  induction h with
  | nil hmode => exact hmode
  | more hcs hmode ih => exact ih

theorem finished_iff :
    Finished cs ↔ ∀ body, StaysOpen .opened body → Segment.escape (esc :: body) ∉ segments cs := by
  suffices ∀ ps, Segmented ps → (Finished (ps.flatMap Segment.text) ↔
      ∀ body, StaysOpen .opened body → Segment.escape (esc :: body) ∉ ps) by
    have h := this _ (segmented_segments cs)
    rwa [flatMap_segments] at h
  intro ps hps
  induction hps with
  | nil => simp [Finished]
  | @visible t ps hne ht hnext hps ih =>
    rw [Finished] at ih ⊢
    rw [List.flatMap_cons, Segment.text, read_append, read_visible ht, ih]
    simp
  | @escape body ps hbody hps ih =>
    have hread := (read_esc body).trans (read_closes hbody)
    rw [Finished] at ih ⊢
    rw [List.flatMap_cons, Segment.text, read_append, hread, ih]
    refine forall₂_congr fun body' hopen => ?_
    have hne : body' ≠ body := by
      rintro rfl
      exact read_staysOpen hopen (read_closes hbody)
    simp [hne]
  | @unfinished body hbody =>
    have hread := read_staysOpen hbody
    simp only [Finished, List.flatMap_singleton, Segment.text, read_esc, hread, false_iff]
    exact fun h => h body hbody (List.mem_singleton_self _)

end Tabwise.Text
