import Tabwise.Proofs.Replay.Effect

/-! # Where open slots come from and where they go

A slot that is open after a move was open before it, has just taken the token or has just been
started. A slot that is open before a move stays, takes the token or is closed, and only a slot
that needs no more is closed.
-/

namespace Tabwise.Replay

variable {g : Grammar} {abbreviated : Bool} {r r' : Replay} {token : String} {id : Nat}
  {st : Step} {s : Slot}

@[simp] theorem enterFlag_openPositional :
    (r.enterFlag g id).openPositional = r.openPositional := rfl

@[simp] theorem fillFlag_openFlag : (r.fillFlag s token).openFlag =
    if s.next.isFull then none else some s.next := rfl

@[simp] theorem fillFlag_openPositional :
    (r.fillFlag s token).openPositional = r.openPositional := rfl

@[simp] theorem fillPositional_openFlag :
    (r.fillPositional g s token).openFlag = r.openFlag := rfl

@[simp] theorem fillPositional_openPositional : (r.fillPositional g s token).openPositional =
    if s.next.isFull then none else some s.next := rfl

@[simp] theorem enterPositional_openFlag :
    (r.enterPositional g id token).openFlag = r.openFlag := rfl

@[simp] theorem enterPositional_openPositional : (r.enterPositional g id token).openPositional =
    if (Slot.new g id).next.isFull then none else some (Slot.new g id).next := rfl

@[simp] theorem enterSelector_openFlag : (r.enterSelector id token).openFlag = r.openFlag := rfl

@[simp] theorem enterSelector_openPositional :
    (r.enterSelector id token).openPositional = r.openPositional := rfl

theorem isFull_new (hm : (g.argument id).maxArgs ≠ some 0) : (Slot.new g id).isFull = false := by
  cases hx : (g.argument id).maxArgs with
  | none => simp [Slot.isFull, Slot.new, hx]
  | some m =>
    have : m ≠ 0 := fun he => hm (by rw [hx, he])
    simp [Slot.isFull, Slot.new, hx, this]

def IsOpen (r : Replay) (i : Nat) : Prop :=
  (∃ s, r.openFlag = some s ∧ s.id = i) ∨ ∃ s, r.openPositional = some s ∧ s.id = i

theorem next_of_ite {s' : Slot} (h : (if s.next.isFull then none else some s.next) = some s') :
    s' = s.next ∧ s'.isFull = false := by
  split at h
  · cases h
  · next hfull =>
    cases h
    exact ⟨rfl, by simpa using hfull⟩

/-- A flag that is open now was open while something else got the token, got the token, or has
just been given. -/
theorem Move.openFlag_cases (h : Move g abbreviated r token st r') (hs : r'.openFlag = some s) :
    (r.openFlag = some s ∧ ∀ i, st.subject? = some i →
      ∃ p, r.openPositional = some p ∧ p.id = i) ∨
    (∃ s₀, r.openFlag = some s₀ ∧ st = .value s₀.id ∧ s = s₀.next ∧
      (s.isFull = false ∨ s₀.remainder = true)) ∨
    (st = .flag s.id ∧ s = .new g s.id ∧ (g.argument s.id).maxArgs ≠ some 0 ∧
      r'.flagsOff = s.remainder) := by
  have closed {r₀ r₁ : Replay} {j : Nat} (hg : r₀.useGroup g j = .ok r₁)
      (hf : r₀.openFlag = none) : r₁.openFlag ≠ some s := by
    rw [(useGroup_narrowed hg).openFlag, hf]
    exact fun he => by cases he
  cases h with
  | lockedFlag s₀ hf hr =>
    cases hs
    exact .inr (.inl ⟨s₀, hf, rfl, rfl, .inr hr⟩)
  | lockedPositional p hf hp hr ht =>
    refine .inl ⟨hs, fun i hi => ⟨p, hp, ?_⟩⟩
    exact Option.some.inj hi
  | closeRemainder p hf hp hr ht => exact .inl ⟨hs, fun i hi => by cases hi⟩
  | separator hu hoff ht hn => cases hs
  | unknownFlag hu hr hn hl => cases hs
  | flag j r₁ hu hr hn hl hg =>
    change (if _ then r₁.openFlag else some (Slot.new g j)) = some s at hs
    split at hs
    · exact (closed hg rfl hs).elim
    · next hx =>
      cases hs
      refine .inr (.inr ⟨rfl, rfl, hx, ?_⟩)
      have hoff : r₁.flagsOff = false := (useGroup_narrowed hg).flagsOff.trans hr.1
      simp only [enterFlag, hoff, Bool.false_or]
      simp [hx, Slot.new]
  | flagValue s₀ hu hv hf =>
    obtain ⟨he, hroom⟩ := next_of_ite hs
    exact .inr (.inl ⟨s₀, hf, rfl, he, .inl hroom⟩)
  | positionalValue p hu hv hf hp => cases hf.symm.trans hs
  | extra hv hf hp hr => cases hf.symm.trans hs
  | newPositional j rest r₁ hv hf hp hr hg hsub => exact (closed hg hf hs).elim
  | subcommand j rest r₁ set c hv hf hp hr hg hsub hsel => exact (closed hg hf hs).elim
  | unknownSubcommand j rest r₁ set hv hf hp hr hg hsub hsel => exact (closed hg hf hs).elim

/-- A positional that is open now was open while a flag got the token, got the token, or has just
been started from the head of the line. -/
theorem Move.openPositional_cases (h : Move g abbreviated r token st r')
    (hs : r'.openPositional = some s) :
    (r.openPositional = some s ∧ ∀ i, st.subject? = some i →
      (∃ f, r.openFlag = some f ∧ f.id = i) ∨ (g.argument i).isFlag = true) ∨
    (∃ s₀, r.openPositional = some s₀ ∧ st = .value s₀.id ∧ s = s₀.next ∧
      (s.isFull = false ∨ s₀.remainder = true)) ∨
    (st = .value s.id ∧ s = (Slot.new g s.id).next ∧ s.isFull = false ∧
      (g.argument s.id).subcommands? = none ∧ r.openPositional = none ∧
      r.remaining.head? = some s.id ∧ (s.remainder = true → r'.flagsOff = true)) := by
  have closed {r₀ r₁ : Replay} {j : Nat} (hg : r₀.useGroup g j = .ok r₁)
      (hp : r₀.openPositional = none) : r₁.openPositional ≠ some s := by
    rw [(useGroup_narrowed hg).openPositional, hp]
    exact fun he => by cases he
  cases h with
  | lockedFlag f hf hr =>
    refine .inl ⟨hs, fun i hi => .inl ⟨f, hf, ?_⟩⟩
    exact Option.some.inj hi
  | lockedPositional s₀ hf hp hr ht =>
    cases hs
    exact .inr (.inl ⟨s₀, hp, rfl, rfl, .inr hr⟩)
  | closeRemainder s₀ hf hp hr ht => cases hs
  | separator hu hoff ht hn => exact .inl ⟨hs, fun i hi => by cases hi⟩
  | unknownFlag hu hr hn hl => exact .inl ⟨hs, fun i hi => by cases hi⟩
  | flag j r₁ hu hr hn hl hg =>
    have hp : r₁.openPositional = r.openPositional := (useGroup_narrowed hg).openPositional
    refine .inl ⟨hp.symm.trans hs, fun i hi => .inr ?_⟩
    cases hi
    exact Grammar.isFlag_of_lookupFlag hl
  | flagValue f hu hv hf =>
    refine .inl ⟨hs, fun i hi => .inl ⟨f, hf, ?_⟩⟩
    exact Option.some.inj hi
  | positionalValue s₀ hu hv hf hp =>
    obtain ⟨he, hroom⟩ := next_of_ite hs
    exact .inr (.inl ⟨s₀, hp, rfl, he, .inl hroom⟩)
  | extra hv hf hp hr => cases hp.symm.trans hs
  | newPositional j rest r₁ hv hf hp hr hg hsub =>
    obtain ⟨rfl, hroom⟩ := next_of_ite hs
    refine .inr (.inr ⟨rfl, rfl, hroom, hsub, hp, by rw [hr]; rfl, fun hrem => ?_⟩)
    change (g.argument j).isRemainder = true at hrem
    simp [enterPositional, fillPositional, hrem]
  | subcommand j rest r₁ set c hv hf hp hr hg hsub hsel => exact (closed hg hp hs).elim
  | unknownSubcommand j rest r₁ set hv hf hp hr hg hsub hsel => exact (closed hg hp hs).elim

theorem Move.openFlag_next (h : Move g abbreviated r token st r') (hs : r.openFlag = some s) :
    r'.openFlag = some s ∨ st = .value s.id ∨ r.unfinishedFlag? = none := by
  cases h with
  | lockedFlag s₀ hf hr =>
    cases hs.symm.trans hf
    exact .inr (.inl rfl)
  | lockedPositional p hf hp hr ht => exact .inl hs
  | closeRemainder p hf hp hr ht => exact .inl hs
  | separator hu hoff ht hn => exact .inr (.inr hn)
  | unknownFlag hu hr hn hl => exact .inr (.inr hn)
  | flag j r₁ hu hr hn hl hg => exact .inr (.inr hn)
  | flagValue s₀ hu hv hf =>
    cases hs.symm.trans hf
    exact .inr (.inl rfl)
  | positionalValue p hu hv hf hp => cases hf.symm.trans hs
  | extra hv hf hp hr => cases hf.symm.trans hs
  | newPositional j rest r₁ hv hf hp hr hg hsub => cases hf.symm.trans hs
  | subcommand j rest r₁ set c hv hf hp hr hg hsub hsel => cases hf.symm.trans hs
  | unknownSubcommand j rest r₁ set hv hf hp hr hg hsub hsel => cases hf.symm.trans hs

theorem Move.openPositional_next (h : Move g abbreviated r token st r')
    (hs : r.openPositional = some s) :
    r'.openPositional = some s ∨ st = .value s.id ∨ s.remainder = true := by
  cases h with
  | lockedFlag f hf hr => exact .inl hs
  | lockedPositional s₀ hf hp hr ht =>
    cases hs.symm.trans hp
    exact .inr (.inr hr)
  | closeRemainder s₀ hf hp hr ht =>
    cases hs.symm.trans hp
    exact .inr (.inr hr)
  | separator hu hoff ht hn => exact .inl hs
  | unknownFlag hu hr hn hl => exact .inl hs
  | flag j r₁ hu hr hn hl hg =>
    have hp : r₁.openPositional = r.openPositional := (useGroup_narrowed hg).openPositional
    exact .inl (hp.trans hs)
  | flagValue f hu hv hf => exact .inl hs
  | positionalValue s₀ hu hv hf hp =>
    cases hs.symm.trans hp
    exact .inr (.inl rfl)
  | extra hv hf hp hr => cases hp.symm.trans hs
  | newPositional j rest r₁ hv hf hp hr hg hsub => cases hp.symm.trans hs
  | subcommand j rest r₁ set c hv hf hp hr hg hsub hsel => cases hp.symm.trans hs
  | unknownSubcommand j rest r₁ set hv hf hp hr hg hsub hsel => cases hp.symm.trans hs

theorem Move.value_origin (h : Move g abbreviated r token (.value id) r') :
    (r.IsOpen id ∧ r'.occurrencesOf id = r.occurrencesOf id) ∨
    (r.remaining.head? = some id ∧ (g.argument id).subcommands? = none ∧
      r'.occurrencesOf id = r.occurrencesOf id + 1) := by
  cases h with
  | lockedFlag s hf hr => exact .inl ⟨.inl ⟨s, hf, rfl⟩, rfl⟩
  | lockedPositional s hf hp hr ht => exact .inl ⟨.inr ⟨s, hp, rfl⟩, rfl⟩
  | flagValue s hu hv hf => exact .inl ⟨.inl ⟨s, hf, rfl⟩, rfl⟩
  | positionalValue s hu hv hf hp => exact .inl ⟨.inr ⟨s, hp, rfl⟩, rfl⟩
  | newPositional id rest r₁ hv hf hp hr hg hs =>
    refine .inr ⟨by rw [hr]; rfl, hs, ?_⟩
    have hocc : r₁.occurrencesOf id = r.occurrencesOf id := by
      rw [occurrencesOf, (useGroup_narrowed hg).occurrences]
      rfl
    simpa [occurrencesOf, enterPositional, fillPositional, countOccurrence, pushValue] using hocc

end Tabwise.Replay
