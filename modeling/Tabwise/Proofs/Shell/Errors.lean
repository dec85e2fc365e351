import Tabwise.Proofs.Shell.Names
import Tabwise.Shell.Demo
import Tabwise.Shell.Loop

/-! # Errors leave nothing behind

A command that fails has changed nothing and printed nothing, whatever it was that failed: the
name, the arguments or the command itself. So a session goes on behind a line that fails as if the
line had not been there, and the same holds of a request for completions.
-/

namespace Tabwise.Shell

variable {σ : Type} {c : Command σ} {commands : List (Command σ)} {r : Registry σ} {s : Setup σ}
  {state : σ} {line : String}
  {e : CommandError} {before after : List (Option String)}

/-- The line as it is read, without carriage returns at its end. -/
def typed (line : String) : List Char := Text.dropEndWhile (· == '\r') line.toList

def Event.printed? : Event → Option String
  | printed text => some text
  | _ => none

/-- What is left of a session: the state, all that commands have printed and whether a line was no
text. -/
def Finish.remains (f : Finish σ) : σ × List String × Bool :=
  (f.state, f.events.filterMap Event.printed?, f.broken)

/-- If the command fails, then it has done nothing. -/
def Command.Atomic (c : Command σ) : Prop :=
  ∀ state args d e, (c.run state args d).result = .error e → c.run state args d = .fail state e

theorem Command.atomic_of_cases (h : ∀ state args d, (∃ e, c.run state args d = .fail state e) ∨
    ∃ after lines, c.run state args d = .print after lines) : c.Atomic := by
  intro state args d e he
  rcases h state args d with ⟨e', hfail⟩ | ⟨after, lines, hprint⟩
  · rw [hfail] at he ⊢
    cases he
    rfl
  · rw [hprint] at he
    cases he

namespace Registry

/-- All commands that a name leads to do nothing if they fail. -/
def Atomic (r : Registry σ) : Prop := ∀ name c, r.find? name = some c → c.Atomic

theorem atomic_helpCommand (d : Directory σ) : (helpCommand d).Atomic := by
  apply Command.atomic_of_cases
  intro state args d
  change (∃ e, runHelp state args d = _) ∨ ∃ after lines, runHelp state args d = _
  unfold runHelp
  split
  · exact .inr ⟨_, _, rfl⟩
  · split
    · exact .inl ⟨_, rfl⟩
    · exact .inr ⟨_, _, rfl⟩

theorem atomic_registered (h : ∀ c ∈ commands, c.Atomic) : (registered commands).Atomic := by
  intro name c hfind
  rcases mem_of_find?_registered hfind with hc | ⟨d, rfl⟩
  · exact h c hc
  · exact atomic_helpCommand d

/-- A line that fails does nothing: no command has its name, its arguments do not parse, or its
command fails. -/
theorem Atomic.execute (h : r.Atomic) (he : (r.execute state line).result = .error e) :
    r.execute state line = .fail state e := by
  unfold Registry.execute at he ⊢
  dsimp only at he ⊢
  split at he
  · cases he
  · next hname =>
    rw [if_neg hname]
    cases hfind : r.find? (Line.split line.toList).command with
    | none =>
      rw [hfind] at he
      cases he
      rfl
    | some c =>
      rw [hfind] at he
      dsimp only at he ⊢
      cases hparse : (c.grammar state).parseLine (Line.split line.toList).rest with
      | error cause =>
        rw [hparse] at he
        cases he
        rfl
      | ok args =>
        rw [hparse] at he
        dsimp only at he ⊢
        split at he
        · cases he
        · next hhelp =>
          rw [if_neg hhelp]
          exact h _ c hfind state args _ e he

end Registry

namespace Setup

/-- The line does not end the loop, and it asks for completions or its execution fails. -/
def Fruitless (s : Setup σ) (state : σ) (line : String) : Prop :=
  isQuit (typed line) = false ∧ ((beforeTab? (typed line)).isSome = true ∨
    ∃ e, (s.registry.execute state (String.ofList (typed line))).result = .error e)

theorem printed_completeLine (s : Setup σ) (state : σ) (line : String) :
    (s.completeLine state line).filterMap Event.printed? = [] := by
  unfold completeLine
  split
  · rw [List.filterMap_map]
    exact List.filterMap_eq_nil_iff.mpr fun _ _ => rfl
  · rfl

theorem executeLine_of_error (h : s.registry.Atomic)
    (he : (s.registry.execute state line).result = .error e) :
    s.executeLine state line = (state, [.complaint e.message]) := by
  rw [executeLine, h.execute he]
  rfl

theorem step_eq (s : Setup σ) (state : σ) (line : String) : s.step state line =
    if isQuit (typed line) then none
    else match beforeTab? (typed line) with
      | some text => some (state, s.completeLine state (String.ofList text))
      | none => some (s.executeLine state (String.ofList (typed line))) := rfl

/-- The loop goes on in the same state, and no command has printed anything. -/
theorem Fruitless.step (h : s.Fruitless state line) (hr : s.registry.Atomic) :
    ∃ events, s.step state line = some (state, events) ∧ events.filterMap Event.printed? = [] := by
  obtain ⟨hquit, hline⟩ := h
  rw [step_eq, hquit]
  cases htab : beforeTab? (typed line) with
  | some text => exact ⟨_, rfl, printed_completeLine s state _⟩
  | none =>
    obtain ⟨e, he⟩ := hline.resolve_left (by simp [htab])
    refine ⟨_, congrArg some (executeLine_of_error hr he), rfl⟩

theorem remains_after (events : List Event) (f : Finish σ) : (f.after events).remains =
    (f.remains.1, events.filterMap Event.printed? ++ f.remains.2.1, f.remains.2.2) := by
  simp [Finish.remains, Finish.after]

theorem run_some_of_step {state' : σ} {events : List Event}
    (h : s.step state line = some (state', events)) :
    s.run state (some line :: after) = (s.run state' after).after (s.prompt :: events) := by
  rw [run, h]

theorem run_some_of_quit (h : s.step state line = none) :
    s.run state (some line :: after) = ⟨state, [s.prompt], false⟩ := by
  rw [run, h]

theorem remains_run_of_fruitless (hr : s.registry.Atomic)
    (h : s.Fruitless (s.run state before).state line) :
    (s.run state (before ++ some line :: after)).remains =
      (s.run state (before ++ after)).remains := by
  induction before generalizing state with
  | nil =>
    change s.Fruitless state line at h
    obtain ⟨events, hstep, hprinted⟩ := h.step hr
    rw [List.nil_append, List.nil_append, run_some_of_step hstep, remains_after,
      List.filterMap_cons_none rfl, hprinted, List.nil_append]
  | cons first before ih =>
    cases first with
    | none => rfl
    | some line' =>
      cases hstep : s.step state line' with
      | none =>
        rw [List.cons_append, List.cons_append, run_some_of_quit hstep, run_some_of_quit hstep]
      | some next =>
        obtain ⟨state', events⟩ := next
        rw [run_some_of_step hstep] at h
        rw [List.cons_append, List.cons_append, run_some_of_step hstep, run_some_of_step hstep,
          remains_after, remains_after, ih h]

end Setup

namespace Demo

theorem atomic_suggest : suggest.Atomic := by
  apply Command.atomic_of_cases
  intro state args d
  unfold suggest
  dsimp only
  split
  · exact .inl ⟨_, rfl⟩
  · exact .inr ⟨_, _, rfl⟩

theorem atomic_library : library.Atomic := by
  apply Command.atomic_of_cases
  intro state args d
  unfold library
  dsimp only
  split
  · exact .inl ⟨_, rfl⟩
  · exact .inr ⟨_, _, rfl⟩

theorem atomic_speak : speak.Atomic := by
  apply Command.atomic_of_cases
  intro state args d
  unfold speak
  dsimp only
  split
  · exact .inl ⟨_, rfl⟩
  · exact .inr ⟨_, _, rfl⟩

theorem atomic_registry : registry.Atomic := by
  have hall : ∀ c ∈ [suggest, library, speak], c.Atomic := by
    simp [atomic_suggest, atomic_library, atomic_speak]
  exact Registry.atomic_registered hall

def setup (settings : Config.Settings) (width : Nat) : Setup Shelves := ⟨registry, settings, width⟩

/-- A line of the demo shell that asks for completions or fails can be left out of the input: the
shelves and all that was printed remain the same. It does not end the loop either. -/
theorem remains_without_line (settings : Config.Settings) (width : Nat) (shelves : Shelves)
    (after : List (Option String))
    (h : (setup settings width).Fruitless ((setup settings width).run shelves before).state line) :
    ((setup settings width).run shelves (before ++ some line :: after)).remains =
      ((setup settings width).run shelves (before ++ after)).remains ∧
    ∃ events, (setup settings width).step ((setup settings width).run shelves before).state line =
      some (((setup settings width).run shelves before).state, events) := by
  obtain ⟨events, hstep, -⟩ := h.step atomic_registry
  exact ⟨Setup.remains_run_of_fruitless atomic_registry h, events, hstep⟩

/-- A duration that is no number is found out by the command, after the line has parsed. -/
theorem remains_without_line_duration :
    (setup {} 80).Fruitless ((setup {} 80).run .empty [some "lib add A1", some "say hi"]).state
      "suggest -t movie -d soon" ∧
    ((setup {} 80).run .empty [some "lib add A1", some "say hi", some "suggest -t movie -d soon",
        some "library list", some "quit", some "say bye"]).remains =
      (⟨[("A1", "top")]⟩, ["someone put A1 on the top shelf", "hi", "A1: top"], false) ∧
    ∃ events, (setup {} 80).step ⟨[("A1", "top")]⟩ "suggest -t movie -d soon" =
      some (⟨[("A1", "top")]⟩, events) := by
  have hstate : ((setup {} 80).run .empty [some "lib add A1", some "say hi"]).state =
      ⟨[("A1", "top")]⟩ := rfl
  have h : (setup {} 80).Fruitless
      ((setup {} 80).run .empty [some "lib add A1", some "say hi"]).state
        "suggest -t movie -d soon" := by
    rw [hstate]
    exact ⟨rfl, .inr ⟨.failed "duration must be a number of minutes: soon", rfl⟩⟩
  have hshorter : ((setup {} 80).run .empty [some "lib add A1", some "say hi",
      some "library list", some "quit", some "say bye"]).remains =
        (⟨[("A1", "top")]⟩, ["someone put A1 on the top shelf", "hi", "A1: top"], false) := by
    decide +kernel
  obtain ⟨hremains, events, hstep⟩ := remains_without_line {} 80 .empty
    [some "library list", some "quit", some "say bye"] h
  rw [hstate] at hstep
  exact ⟨h, hremains.trans hshorter, events, hstep⟩

end Demo

end Tabwise.Shell
