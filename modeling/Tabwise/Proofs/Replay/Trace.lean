import Mathlib.Data.List.DropRight
import Tabwise.Proofs.Replay.Move

/-! # Runs of the replay

A run assigns tokens one after the other and writes down what each turned out to be. What holds
at the start and is kept by every move holds after every run that does not fail.
-/

namespace Tabwise

/-- Tokens with what they turned out to be. -/
abbrev Trace := List (String × Step)

namespace Step

def isFlag (id : Nat) : Step → Bool
  | flag i => i == id
  | _ => false

def isValue (id : Nat) : Step → Bool
  | value i => i == id
  | _ => false

/-- The token of a selector, whether it selects a subcommand or not. -/
def isSelection (id : Nat) : Step → Bool
  | subcommand i _ | unknownSubcommand i => i == id
  | _ => false

def selects : Step → Bool
  | subcommand _ _ | unknownSubcommand _ => true
  | _ => false

def subject? : Step → Option Nat
  | flag id | value id | subcommand id _ | unknownSubcommand id => some id
  | separator | unknownFlag | extra => none

theorem subject?_eq_some {st : Step} {id : Nat} :
    st.subject? = some id ↔ st = .flag id ∨ st = .value id ∨ st.isSelection id = true := by
  cases st <;> simp [subject?, isSelection]

end Step

namespace Trace

variable {t : Trace} {e : String × Step} {id : Nat}

def flagCount (id : Nat) (t : Trace) : Nat := t.countP (·.2.isFlag id)

def valuesOf (id : Nat) (t : Trace) : List String := (t.filter (·.2.isValue id)).map (·.1)

/-- The values of an argument since its flag was last given. -/
def currentValues (id : Nat) (t : Trace) : List String :=
  valuesOf id (t.rtakeWhile fun e => !e.2.isFlag id)

def selections (id : Nat) (t : Trace) : List String := (t.filter (·.2.isSelection id)).map (·.1)

@[simp] theorem flagCount_concat :
    flagCount id (t ++ [e]) = flagCount id t + if e.2.isFlag id then 1 else 0 := by
  simp [flagCount, List.countP_append, List.countP_singleton]

@[simp] theorem valuesOf_concat :
    valuesOf id (t ++ [e]) = valuesOf id t ++ if e.2.isValue id then [e.1] else [] := by
  by_cases h : e.2.isValue id <;> simp [valuesOf, h]

@[simp] theorem selections_concat :
    selections id (t ++ [e]) = selections id t ++ if e.2.isSelection id then [e.1] else [] := by
  by_cases h : e.2.isSelection id <;> simp [selections, h]

@[simp] theorem currentValues_concat : currentValues id (t ++ [e]) =
    if e.2.isFlag id then [] else currentValues id t ++ if e.2.isValue id then [e.1] else [] := by
  by_cases h : e.2.isFlag id
  · simp [currentValues, h, valuesOf]
  · simp [currentValues, h]

end Trace

namespace Replay

variable {g : Grammar} {abbreviated : Bool} {r r' : Replay} {tokens : List String} {t : Trace}

def run (g : Grammar) (abbreviated : Bool) (r : Replay) :
    List String → Except Malformed (Trace × Replay)
  | [] => .ok ([], r)
  | token :: rest => do
    let (st, r) ← r.step g abbreviated token
    let (t, r) ← run g abbreviated r rest
    return ((token, st) :: t, r)

theorem run_cons_eq_ok {token : String} {rest : List String} :
    r.run g abbreviated (token :: rest) = .ok (t, r') ↔ ∃ st r₁ t₁,
      Move g abbreviated r token st r₁ ∧ r₁.run g abbreviated rest = .ok (t₁, r') ∧
        t = (token, st) :: t₁ := by
  rw [run, bind_eq_ok]
  constructor
  · rintro ⟨⟨st, r₁⟩, hs, h⟩
    obtain ⟨⟨t₁, r₂⟩, hr, h⟩ := bind_eq_ok.mp h
    cases h
    exact ⟨st, r₁, t₁, .of_step hs, hr, rfl⟩
  · rintro ⟨st, r₁, t₁, hm, hr, rfl⟩
    exact ⟨(st, r₁), hm.step_eq, by simp [hr, bind, Except.bind, pure, Except.pure]⟩

theorem run_append_eq_ok {xs ys : List String} :
    r.run g abbreviated (xs ++ ys) = .ok (t, r') ↔ ∃ t₁ r₁ t₂,
      r.run g abbreviated xs = .ok (t₁, r₁) ∧ r₁.run g abbreviated ys = .ok (t₂, r') ∧
        t = t₁ ++ t₂ := by
  induction xs generalizing r t with
  | nil => simp [run]
  | cons token rest ih =>
    rw [List.cons_append, run_cons_eq_ok]
    constructor
    · rintro ⟨st, r₀, t₀, hm, hr, rfl⟩
      obtain ⟨t₁, r₁, t₂, h₁, h₂, rfl⟩ := ih.mp hr
      exact ⟨(token, st) :: t₁, r₁, t₂, run_cons_eq_ok.mpr ⟨st, r₀, t₁, hm, h₁, rfl⟩, h₂, rfl⟩
    · rintro ⟨t₁, r₁, t₂, h₁, h₂, rfl⟩
      obtain ⟨st, r₀, t₀, hm, hr, rfl⟩ := run_cons_eq_ok.mp h₁
      exact ⟨st, r₀, t₀ ++ t₂, hm, ih.mpr ⟨t₀, r₁, t₂, hr, h₂, rfl⟩, rfl⟩

theorem run_concat_eq_ok {tokens : List String} {token : String} {st : Step} :
    r.run g abbreviated (tokens ++ [token]) = .ok (t ++ [(token, st)], r') ↔
      ∃ r₁, r.run g abbreviated tokens = .ok (t, r₁) ∧ Move g abbreviated r₁ token st r' := by
  rw [run_append_eq_ok]
  constructor
  · rintro ⟨t₁, r₁, t₂, h₁, h₂, he⟩
    obtain ⟨st', r₂, t₃, hm, h₃, rfl⟩ := run_cons_eq_ok.mp h₂
    cases h₃
    obtain ⟨rfl, he⟩ := List.append_inj' he rfl
    obtain rfl : st = st' := by simpa using he
    exact ⟨r₁, h₁, hm⟩
  · rintro ⟨r₁, h₁, hm⟩
    exact ⟨t, r₁, [(token, st)], h₁, run_cons_eq_ok.mpr ⟨st, r', [], hm, rfl, rfl⟩, rfl⟩

theorem tokens_of_run (h : r.run g abbreviated tokens = .ok (t, r')) : t.map (·.1) = tokens := by
  induction tokens generalizing r t with
  | nil =>
    cases h
    rfl
  | cons token rest ih =>
    obtain ⟨st, r₁, t₁, -, hr, rfl⟩ := run_cons_eq_ok.mp h
    rw [List.map_cons, ih hr]

/-- What every move keeps holds after a run, for the trace so far and the state. -/
theorem run_induction (P : Trace → Replay → Prop) (past : Trace)
    (keep : ∀ {t r token st r'}, P t r → Move g abbreviated r token st r' →
      P (t ++ [(token, st)]) r')
    (start : P past r) (h : r.run g abbreviated tokens = .ok (t, r')) :
    P (past ++ t) r' := by
  induction tokens generalizing r t past with
  | nil =>
    cases h
    rwa [List.append_nil]
  | cons token rest ih =>
    obtain ⟨st, r₁, t₁, hm, hr, rfl⟩ := run_cons_eq_ok.mp h
    have := ih _ (keep start hm) hr
    rwa [List.append_assoc] at this

end Replay

end Tabwise
