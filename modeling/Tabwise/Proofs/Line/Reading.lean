import Mathlib.Data.List.Induction
import Tabwise.Line.Token
import Tabwise.Proofs.Text.Boundary

/-! # Reading a line character by character

How far a line is read is the tokens that are finished and the one that is pending. Every character
makes one of four moves, and reading a line in two parts is reading the second where the first
ended. A line that is read to its end has the tokens of the line.
-/

namespace Tabwise.Line
open Text

/-- What is known after a number of characters. -/
structure Reading where
  pos : Nat
  finished : List Token
  pending : Option Pending

namespace Reading

variable {r : Reading} {c : Char} {cs text : List Char} {p : Pending} {q : OpenQuote}

def start : Reading := ⟨0, [], none⟩

@[simp] theorem pos_start : start.pos = 0 := rfl

/-- A blank outside of quotes finishes the pending token; other characters belong to it. -/
def step (r : Reading) (c : Char) : Reading :=
  match r.pending with
  | none => { r with
    pos := r.pos + c.utf8Size
    pending := if isBlank c then none else some ⟨r.pos, [c], regionAfter none r.pos c⟩ }
  | some p =>
    if p.region.isNone && isBlank c then ⟨r.pos + c.utf8Size, r.finished ++ [p.finish], none⟩
    else { r with
      pos := r.pos + c.utf8Size
      pending := some ⟨p.start, c :: p.chars, regionAfter p.region r.pos c⟩ }

def read (r : Reading) (cs : List Char) : Reading := cs.foldl step r

/-- The finished tokens and the pending one as it stands. -/
def tokens (r : Reading) : List Token := r.finished ++ (r.pending.map Pending.finish).toList

/-- What a character can do. -/
inductive Move (r : Reading) (c : Char) : Reading → Prop
  | skip : r.pending = none → isBlank c = true → Move r c { r with pos := r.pos + c.utf8Size }
  | begins : r.pending = none → isBlank c = false → Move r c { r with
      pos := r.pos + c.utf8Size
      pending := some ⟨r.pos, [c], regionAfter none r.pos c⟩ }
  | ends (p : Pending) : r.pending = some p → p.region = none → isBlank c = true →
      Move r c ⟨r.pos + c.utf8Size, r.finished ++ [p.finish], none⟩
  /-- A blank belongs to a token with an open quote. -/
  | grows (p : Pending) : r.pending = some p → (p.region = none → isBlank c = false) →
      Move r c { r with
        pos := r.pos + c.utf8Size
        pending := some ⟨p.start, c :: p.chars, regionAfter p.region r.pos c⟩ }

theorem step_move (r : Reading) (c : Char) : Move r c (r.step c) := by
  unfold step
  split
  · next hp =>
    cases hb : isBlank c with
    | true =>
      have hm : Move r c { r with pos := r.pos + c.utf8Size } := .skip hp hb
      rwa [hp] at hm
    | false => exact .begins hp hb
  · next p hp =>
    split
    · next hb =>
      obtain ⟨hn, hb⟩ : p.region = none ∧ isBlank c = true := by simpa using hb
      exact .ends p hp hn hb
    · next hb => exact .grows p hp (by simpa using hb)

@[simp] theorem read_nil (r : Reading) : r.read [] = r := rfl

theorem read_append (r : Reading) (xs ys : List Char) : r.read (xs ++ ys) = (r.read xs).read ys :=
  List.foldl_append

theorem read_cons (r : Reading) (c : Char) (cs : List Char) : r.read (c :: cs) = (r.step c).read cs :=
  rfl

theorem read_concat (r : Reading) (cs : List Char) (c : Char) :
    r.read (cs ++ [c]) = (r.read cs).step c := read_append r cs [c]

theorem tokensFrom_move {r' : Reading} (hm : Move r c r') :
    r'.finished ++ tokensFrom r'.pos r'.pending cs =
      r.finished ++ tokensFrom r.pos r.pending (c :: cs) := by
  cases hm with
  | skip hp hb => simp [tokensFrom, hp, hb]
  | begins hp hb => simp [tokensFrom, hp, hb]
  | ends p hp hn hb => simp [tokensFrom, hp, hn, hb]
  | grows p hp hb =>
    have hk : ¬(p.region = none ∧ isBlank c = true) := fun h => by simp [hb h.1] at h
    simp [tokensFrom, hp, hk]

theorem tokens_read (r : Reading) (cs : List Char) :
    (r.read cs).tokens = r.finished ++ tokensFrom r.pos r.pending cs := by
  induction cs generalizing r with
  | nil => rfl
  | cons c cs ih => rw [read_cons, ih, tokensFrom_move (step_move r c)]

theorem tokens_eq (line : List Char) : Line.tokens line = (start.read line).tokens :=
  (tokens_read start line).symm

theorem isQuote_regionAfter {region : Option OpenQuote} {pos : Nat}
    (h : ∀ q, region = some q → isQuote q.quote = true) (hq : regionAfter region pos c = some q) :
    isQuote q.quote = true := by
  unfold regionAfter at hq
  split at hq
  · next q' =>
    split at hq
    · cases hq
    · exact h q hq
  · split at hq
    · next hc =>
      cases hq
      exact hc
    · cases hq

/-- Finished tokens are closed and have a blank behind them. The pending token goes on to where the
reading is, and only quotes open a region in it. -/
structure Placed (r : Reading) : Prop where
  finished : ∀ t ∈ r.finished, t.stop < r.pos ∧ t.openQuote = none
  pending : ∀ p, r.pending = some p → p.start + byteLength p.chars = r.pos
  region : ∀ p, r.pending = some p → ∀ q, p.region = some q → isQuote q.quote = true

theorem placed_start : start.Placed where
  finished := by simp [start]
  pending := by simp [start]
  region := by simp [start]

theorem Placed.move {r' : Reading} (h : r.Placed) (hm : Move r c r') : r'.Placed := by
  have hpos := Char.utf8Size_pos c
  have old : ∀ t ∈ r.finished, t.stop < r.pos + c.utf8Size ∧ t.openQuote = none := by
    intro t ht
    have := h.finished t ht
    exact ⟨by omega, this.2⟩
  cases hm with
  | skip hp hb => exact ⟨old, by simp [hp], by simp [hp]⟩
  | begins hp hb =>
    refine ⟨old, ?_, ?_⟩
    · rintro p ⟨⟩
      rfl
    · rintro p ⟨⟩ q hq
      have hnone : ∀ q, (none : Option OpenQuote) = some q → isQuote q.quote = true := by simp
      exact isQuote_regionAfter hnone hq
  | ends p hp hn hb =>
    refine ⟨fun t ht => ?_, by simp, by simp⟩
    rcases List.mem_append.mp ht with ht | ht
    · exact old t ht
    · rw [List.mem_singleton.mp ht]
      have hstop := h.pending p hp
      refine ⟨?_, hn⟩
      change p.start + byteLength p.chars.reverse < r.pos + c.utf8Size
      rw [byteLength_reverse]
      omega
  | grows p hp hb =>
    refine ⟨old, ?_, ?_⟩
    · rintro p' ⟨⟩
      have hstop := h.pending p hp
      change p.start + (c.utf8Size + byteLength p.chars) = r.pos + c.utf8Size
      omega
    · rintro p' ⟨⟩ q hq
      exact isQuote_regionAfter (h.region p hp) hq

theorem pos_step (r : Reading) (c : Char) : (r.step c).pos = r.pos + c.utf8Size := by
  have hm := step_move r c
  generalize r.step c = r' at hm ⊢
  cases hm <;> rfl

@[simp] theorem pos_read (r : Reading) (cs : List Char) :
    (r.read cs).pos = r.pos + byteLength cs := by
  induction cs generalizing r with
  | nil => rfl
  | cons c cs ih => rw [read_cons, ih, pos_step, byteLength_cons, Nat.add_assoc]

theorem placed_read (text : List Char) : (start.read text).Placed := by
  induction text using List.reverseRecOn with
  | nil => exact placed_start
  | append_singleton text c ih =>
    rw [read_concat]
    exact ih.move (step_move _ c)

/-- The pending token is the end of what was read, and nothing was pending before it. -/
theorem pending_read (h : (start.read text).pending = some p) : ∃ before,
    text = before ++ p.chars.reverse ∧ p.start = byteLength before ∧
      (start.read before).pending = none ∧
        (start.read before).finished = (start.read text).finished := by
  induction text using List.reverseRecOn generalizing p with
  | nil => cases h
  | append_singleton text c ih =>
    rw [read_concat] at h ⊢
    have hm := step_move (start.read text) c
    generalize (start.read text).step c = r' at hm h ⊢
    cases hm with
    | skip hp hb => cases hp.symm.trans h
    | begins hp hb =>
      cases h
      exact ⟨text, rfl, by simp [start], hp, rfl⟩
    | ends p' hp hn hb => cases h
    | grows p' hp hb =>
      cases h
      obtain ⟨before, htext, hstart, hnone, hfinished⟩ := ih hp
      exact ⟨before, by rw [List.reverse_cons, ← List.append_assoc, ← htext], hstart, hnone,
        hfinished⟩

theorem finished_read {t : Token} (h : t ∈ (start.read text).finished) : ∃ before after,
    text = before ++ t.raw.toList ++ after ∧ t.start = byteLength before ∧
      t.stop = byteLength before + byteLength t.raw.toList := by
  induction text using List.reverseRecOn with
  | nil => cases h
  | append_singleton text c ih =>
    have old (h : t ∈ (start.read text).finished) : ∃ before after,
        text ++ [c] = before ++ t.raw.toList ++ after ∧ t.start = byteLength before ∧
          t.stop = byteLength before + byteLength t.raw.toList := by
      obtain ⟨before, after, htext, hplace⟩ := ih h
      exact ⟨before, after ++ [c], by rw [htext, List.append_assoc], hplace⟩
    rw [read_concat] at h
    have hm := step_move (start.read text) c
    generalize (start.read text).step c = r' at hm h
    cases hm with
    | skip hp hb => exact old h
    | begins hp hb => exact old h
    | ends p hp hn hb =>
      rcases List.mem_append.mp h with h | h
      · exact old h
      · obtain ⟨before, htext, hstart, -⟩ := pending_read hp
        rw [List.mem_singleton.mp h]
        refine ⟨before, [c], ?_, hstart, ?_⟩
        · simp [Pending.finish, Token.make, htext]
        · simp [Pending.finish, Token.make, hstart]
    | grows p hp hb => exact old h

theorem read_region {pos first : Nat} {finished : List Token} {chars : List Char}
    (hq : q.quote ∉ cs) :
    read ⟨pos, finished, some ⟨first, chars, some q⟩⟩ cs =
      ⟨pos + byteLength cs, finished, some ⟨first, cs.reverse ++ chars, some q⟩⟩ := by
  induction cs generalizing pos chars with
  | nil => rfl
  | cons c cs ih =>
    rw [List.mem_cons, not_or] at hq
    have hstep : step ⟨pos, finished, some ⟨first, chars, some q⟩⟩ c =
        ⟨pos + c.utf8Size, finished, some ⟨first, c :: chars, some q⟩⟩ := by
      simp [step, regionAfter, Ne.symm hq.1]
    rw [read_cons, hstep, ih hq.2]
    simp [Nat.add_assoc]

theorem read_bare {pos first : Nat} {finished : List Token} {chars : List Char}
    (h : ∀ c ∈ cs, isBlank c = false ∧ isQuote c = false) :
    read ⟨pos, finished, some ⟨first, chars, none⟩⟩ cs =
      ⟨pos + byteLength cs, finished, some ⟨first, cs.reverse ++ chars, none⟩⟩ := by
  induction cs generalizing pos chars with
  | nil => rfl
  | cons c cs ih =>
    rw [List.forall_mem_cons] at h
    have hstep : step ⟨pos, finished, some ⟨first, chars, none⟩⟩ c =
        ⟨pos + c.utf8Size, finished, some ⟨first, c :: chars, none⟩⟩ := by
      simp [step, regionAfter, h.1]
    rw [read_cons, hstep, ih h.2]
    simp [Nat.add_assoc]

end Reading

end Tabwise.Line
