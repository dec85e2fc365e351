import Tabwise.Proofs.Except
import Tabwise.Replay.Step

/-! # What one step of the replay can do

A step is one of twelve moves. Each move carries everything that must hold for it and the state
it leads to, and the moves are exactly the steps: statements about runs are proved by cases on
the move and never open the step function.
-/

namespace Tabwise.Replay

variable {g : Grammar} {abbreviated : Bool} {r r' : Replay} {token : String} {id : Nat}

def Unlocked (r : Replay) : Prop :=
  r.openFlag.filter (·.remainder) = none ∧ r.openPositional.filter (·.remainder) = none

def ReadsFlag (g : Grammar) (r : Replay) (token : String) : Prop :=
  r.flagsOff = false ∧ token ≠ "--" ∧ g.looksLikeFlag token = true

def ReadsValue (g : Grammar) (r : Replay) (token : String) : Prop :=
  r.flagsOff = true ∨ (token ≠ "--" ∧ g.looksLikeFlag token = false)

/-- One way to take a token: what it turned out to be and the state after it. -/
inductive Move (g : Grammar) (abbreviated : Bool) (r : Replay) (token : String) :
    Step → Replay → Prop
  /-- An open remainder flag takes every token. -/
  | lockedFlag (s : Slot) : r.openFlag = some s → s.remainder = true →
      Move g abbreviated r token (.value s.id)
        { r.pushValue s.id token with openFlag := some s.next }
  | lockedPositional (s : Slot) : r.openFlag.filter (·.remainder) = none →
      r.openPositional = some s → s.remainder = true → token ≠ "--" →
      Move g abbreviated r token (.value s.id)
        { r.pushValue s.id token with openPositional := some s.next }
  /-- `--` closes an open remainder positional. -/
  | closeRemainder (s : Slot) : r.openFlag.filter (·.remainder) = none →
      r.openPositional = some s → s.remainder = true → token = "--" →
      Move g abbreviated r token .separator
        { r with openPositional := none, flagsOff := r.separated }
  | separator : r.Unlocked → r.flagsOff = false → token = "--" → r.unfinishedFlag? = none →
      Move g abbreviated r token .separator
        { r with openFlag := none, flagsOff := true, separated := true }
  | unknownFlag : r.Unlocked → r.ReadsFlag g token → r.unfinishedFlag? = none →
      g.lookupFlag abbreviated token = none →
      Move g abbreviated r token .unknownFlag { r with openFlag := none }
  | flag (id : Nat) (r₁ : Replay) : r.Unlocked → r.ReadsFlag g token →
      r.unfinishedFlag? = none → g.lookupFlag abbreviated token = some id →
      { r with openFlag := none }.useGroup g id = .ok r₁ →
      Move g abbreviated r token (.flag id) (r₁.enterFlag g id)
  | flagValue (s : Slot) : r.Unlocked → r.ReadsValue g token → r.openFlag = some s →
      Move g abbreviated r token (.value s.id) (r.fillFlag s token)
  | positionalValue (s : Slot) : r.Unlocked → r.ReadsValue g token → r.openFlag = none →
      r.openPositional = some s →
      Move g abbreviated r token (.value s.id) (r.fillPositional g s token)
  | extra : r.ReadsValue g token → r.openFlag = none → r.openPositional = none →
      r.remaining = [] → Move g abbreviated r token .extra r
  | newPositional (id : Nat) (rest : List Nat) (r₁ : Replay) : r.ReadsValue g token →
      r.openFlag = none → r.openPositional = none → r.remaining = id :: rest →
      { r with remaining := rest }.useGroup g id = .ok r₁ →
      (g.argument id).subcommands? = none →
      Move g abbreviated r token (.value id) (r₁.enterPositional g id token)
  | subcommand (id : Nat) (rest : List Nat) (r₁ : Replay) (set : Subcommands)
      (command : Subcommand) : r.ReadsValue g token →
      r.openFlag = none → r.openPositional = none → r.remaining = id :: rest →
      { r with remaining := rest }.useGroup g id = .ok r₁ →
      (g.argument id).subcommands? = some set → set.select? token = some command →
      Move g abbreviated r token (.subcommand id command) (r₁.enterSelector id token)
  | unknownSubcommand (id : Nat) (rest : List Nat) (r₁ : Replay) (set : Subcommands) :
      r.ReadsValue g token →
      r.openFlag = none → r.openPositional = none → r.remaining = id :: rest →
      { r with remaining := rest }.useGroup g id = .ok r₁ →
      (g.argument id).subcommands? = some set → set.select? token = none →
      Move g abbreviated r token (.unknownSubcommand id) (r₁.enterSelector id token)

theorem closeFlag_eq_ok : r.closeFlag g = .ok r' ↔
    r.unfinishedFlag? = none ∧ r' = { r with openFlag := none } := by
  unfold closeFlag
  cases h : r.unfinishedFlag? with
  | none => simp [eq_comm]
  | some s => simp

theorem unlocked_iff : r.Unlocked ↔
    (∀ s, r.openFlag = some s → s.remainder = false) ∧
      ∀ s, r.openPositional = some s → s.remainder = false := by
  simp [Unlocked, Option.filter_eq_none_iff]

theorem stepNewPositional_move {st : Step} {rest : List Nat} (hv : r.ReadsValue g token)
    (hf : r.openFlag = none) (hp : r.openPositional = none) (hr : r.remaining = id :: rest)
    (h : r.stepNewPositional g id rest token = .ok (st, r')) :
    Move g abbreviated r token st r' := by
  obtain ⟨r₁, hg, h⟩ := bind_eq_ok.mp h
  cases hs : (g.argument id).subcommands? with
  | none =>
    simp only [hs, pure, Except.pure, Except.ok.injEq, Prod.mk.injEq] at h
    obtain ⟨rfl, rfl⟩ := h
    exact .newPositional id rest r₁ hv hf hp hr hg hs
  | some set =>
    simp only [hs] at h
    cases hc : set.select? token with
    | none =>
      simp only [hc, pure, Except.pure, Except.ok.injEq, Prod.mk.injEq] at h
      obtain ⟨rfl, rfl⟩ := h
      exact .unknownSubcommand id rest r₁ set hv hf hp hr hg hs hc
    | some command =>
      simp only [hc, pure, Except.pure, Except.ok.injEq, Prod.mk.injEq] at h
      obtain ⟨rfl, rfl⟩ := h
      exact .subcommand id rest r₁ set command hv hf hp hr hg hs hc

theorem stepValue_move {st : Step} (hu : r.Unlocked) (hv : r.ReadsValue g token)
    (h : r.stepValue g token = .ok (st, r')) : Move g abbreviated r token st r' := by
  unfold stepValue at h
  split at h
  · next s hf =>
    cases h
    exact .flagValue s hu hv hf
  · next s hf hp =>
    cases h
    exact .positionalValue s hu hv hf hp
  · next hf hp hr =>
    cases h
    exact .extra hv hf hp hr
  · next i rest hf hp hr => exact stepNewPositional_move hv hf hp hr h

theorem stepFlag_move {st : Step} (hu : r.Unlocked) (hf : r.ReadsFlag g token)
    (h : r.stepFlag g abbreviated token = .ok (st, r')) : Move g abbreviated r token st r' := by
  obtain ⟨r₀, hc, h⟩ := bind_eq_ok.mp h
  obtain ⟨hn, rfl⟩ := closeFlag_eq_ok.mp hc
  cases hl : g.lookupFlag abbreviated token with
  | none =>
    simp only [hl, pure, Except.pure, Except.ok.injEq, Prod.mk.injEq] at h
    obtain ⟨rfl, rfl⟩ := h
    exact .unknownFlag hu hf hn hl
  | some i =>
    simp only [hl] at h
    obtain ⟨r₁, hg, h⟩ := bind_eq_ok.mp h
    cases h
    exact .flag i r₁ hu hf hn hl hg

theorem stepPlain_move {st : Step} (hu : r.Unlocked)
    (h : r.stepPlain g abbreviated token = .ok (st, r')) : Move g abbreviated r token st r' := by
  unfold stepPlain at h
  split at h
  · next ht =>
    obtain ⟨rfl, hoff⟩ : token = "--" ∧ r.flagsOff = false := by simpa using ht
    obtain ⟨r₀, hc, h⟩ := map_eq_ok.mp h
    obtain ⟨hn, rfl⟩ := closeFlag_eq_ok.mp hc
    obtain ⟨rfl, rfl⟩ := Prod.mk.inj h
    exact .separator hu hoff rfl hn
  · next ht =>
    split at h
    · next hl =>
      obtain ⟨hoff, hl⟩ : r.flagsOff = false ∧ g.looksLikeFlag token = true := by simpa using hl
      exact stepFlag_move hu ⟨hoff, fun he => ht (by simp [he, hoff]), hl⟩ h
    · next hl =>
      refine stepValue_move hu ?_ h
      cases hoff : r.flagsOff with
      | true => exact .inl hoff
      | false => exact .inr ⟨fun he => ht (by simp [he, hoff]), by simpa [hoff] using hl⟩

/-- Every step is a move. -/
theorem Move.of_step {st : Step} (h : r.step g abbreviated token = .ok (st, r')) :
    Move g abbreviated r token st r' := by
  unfold step at h
  split at h
  · next s hf =>
    obtain ⟨hf, hs⟩ := Option.filter_eq_some_iff.mp hf
    cases h
    exact .lockedFlag s hf hs
  · next s hf hp =>
    obtain ⟨hp, hs⟩ := Option.filter_eq_some_iff.mp hp
    split at h
    · next ht =>
      cases h
      exact .closeRemainder s hf hp hs ht
    · next ht =>
      cases h
      exact .lockedPositional s hf hp hs ht
  · next hf hp => exact stepPlain_move ⟨hf, hp⟩ h

theorem step_of_unlocked (hu : r.Unlocked) :
    r.step g abbreviated token = r.stepPlain g abbreviated token := by
  unfold step
  rw [hu.1, hu.2]

theorem stepPlain_of_readsFlag (h : r.ReadsFlag g token) :
    r.stepPlain g abbreviated token = r.stepFlag g abbreviated token := by
  obtain ⟨hoff, ht, hl⟩ := h
  simp [stepPlain, hoff, ht, hl]

theorem stepPlain_of_readsValue (h : r.ReadsValue g token) :
    r.stepPlain g abbreviated token = r.stepValue g token := by
  rcases h with hoff | ⟨ht, hl⟩
  · simp [stepPlain, hoff]
  · simp [stepPlain, ht, hl]

theorem unlocked_of_closed (hf : r.openFlag = none) (hp : r.openPositional = none) :
    r.Unlocked := by
  simp [Unlocked, hf, hp]

theorem step_of_readsValue {rest : List Nat} (hv : r.ReadsValue g token)
    (hf : r.openFlag = none) (hp : r.openPositional = none) (hr : r.remaining = id :: rest) :
    r.step g abbreviated token = r.stepNewPositional g id rest token := by
  rw [step_of_unlocked (unlocked_of_closed hf hp), stepPlain_of_readsValue hv, stepValue, hf, hp,
    hr]

/-- Every move is a step. -/
theorem Move.step_eq {st : Step} (h : Move g abbreviated r token st r') :
    r.step g abbreviated token = .ok (st, r') := by
  cases h with
  | lockedFlag s hf hs =>
    rw [step, Option.filter_eq_some_iff.mpr ⟨hf, hs⟩]
  | lockedPositional s hf hp hs ht =>
    rw [step, hf, Option.filter_eq_some_iff.mpr ⟨hp, hs⟩]
    simp [ht]
  | closeRemainder s hf hp hs ht =>
    rw [step, hf, Option.filter_eq_some_iff.mpr ⟨hp, hs⟩]
    simp [ht]
  | separator hu hoff ht hn =>
    rw [step_of_unlocked hu]
    simp [stepPlain, ht, hoff, closeFlag_eq_ok.mpr ⟨hn, rfl⟩, Except.map]
  | unknownFlag hu hr hn hl =>
    rw [step_of_unlocked hu, stepPlain_of_readsFlag hr]
    simp [stepFlag, closeFlag_eq_ok.mpr ⟨hn, rfl⟩, hl, bind, Except.bind, pure, Except.pure]
  | flag i r₁ hu hr hn hl hg =>
    rw [step_of_unlocked hu, stepPlain_of_readsFlag hr]
    simp [stepFlag, closeFlag_eq_ok.mpr ⟨hn, rfl⟩, hl, hg, bind, Except.bind, pure, Except.pure]
  | flagValue s hu hv hf =>
    rw [step_of_unlocked hu, stepPlain_of_readsValue hv]
    simp [stepValue, hf]
  | positionalValue s hu hv hf hp =>
    rw [step_of_unlocked hu, stepPlain_of_readsValue hv]
    simp [stepValue, hf, hp]
  | extra hv hf hp hr =>
    rw [step_of_unlocked (unlocked_of_closed hf hp), stepPlain_of_readsValue hv]
    simp [stepValue, hf, hp, hr]
  | newPositional i rest r₁ hv hf hp hr hg hs =>
    rw [step_of_readsValue hv hf hp hr, stepNewPositional, hg]
    simp [hs, bind, Except.bind, pure, Except.pure]
  | subcommand i rest r₁ set command hv hf hp hr hg hs hc =>
    rw [step_of_readsValue hv hf hp hr, stepNewPositional, hg]
    simp [hs, hc, bind, Except.bind, pure, Except.pure]
  | unknownSubcommand i rest r₁ set hv hf hp hr hg hs hc =>
    rw [step_of_readsValue hv hf hp hr, stepNewPositional, hg]
    simp [hs, hc, bind, Except.bind, pure, Except.pure]

end Tabwise.Replay
