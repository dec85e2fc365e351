import Tabwise.Proofs.Replay.Groups
import Tabwise.Proofs.Replay.Move

/-! # Why a step fails

A token cannot be taken if the open flag needs more values before a separator or another flag may
come, or if the argument that it is for is excluded from its group. These are exactly the steps
that fail, so the failures and the moves tell together all that a step can do.
-/

namespace Tabwise.Replay

variable {g : Grammar} {abbreviated : Bool} {r r' : Replay} {token : String} {id : Nat}
  {m : Malformed}

/-- One reason not to take a token. -/
inductive Stuck (g : Grammar) (abbreviated : Bool) (r : Replay) (token : String) :
    Malformed → Prop
  | unfinished (s : Slot) : r.Unlocked → r.flagsOff = false →
      token = "--" ∨ g.looksLikeFlag token = true → r.unfinishedFlag? = some s →
      Stuck g abbreviated r token (s.unfinished g)
  | excludedFlag (id : Nat) (m : Malformed) : r.Unlocked → r.ReadsFlag g token →
      r.unfinishedFlag? = none → g.lookupFlag abbreviated token = some id →
      { r with openFlag := none }.useGroup g id = .error m → Stuck g abbreviated r token m
  | excludedPositional (id : Nat) (rest : List Nat) (m : Malformed) : r.ReadsValue g token →
      r.openFlag = none → r.openPositional = none → r.remaining = id :: rest →
      { r with remaining := rest }.useGroup g id = .error m → Stuck g abbreviated r token m

theorem closeFlag_eq_error : r.closeFlag g = .error m ↔
    ∃ s, r.unfinishedFlag? = some s ∧ s.unfinished g = m := by
  unfold closeFlag
  cases r.unfinishedFlag? <;> simp

theorem useGroup_eq_error : r.useGroup g id = .error m ↔
    ∃ k other, g.groupIndex? id = some k ∧ r.used.find? k = some other ∧ other ≠ id ∧
      m = .notAllowedWith (g.argument id).displayName (g.argument other).displayName := by
  unfold useGroup
  rw [← Grammar.groupIndex?]
  cases hk : g.groupIndex? id with
  | none => simp
  | some k =>
    cases hu : r.used.find? k with
    | none => simp [hu]
    | some other =>
      by_cases ho : other = id
      · simp [hu, ho]
      · simp [hu, ho, eq_comm (b := m)]

theorem stepNewPositional_eq_error {rest : List Nat} :
    r.stepNewPositional g id rest token = .error m ↔
      { r with remaining := rest }.useGroup g id = .error m := by
  refine bind_eq_error fun r₁ => ?_
  split
  · split <;> exact ⟨_, rfl⟩
  · exact ⟨_, rfl⟩

theorem stepFlag_eq_error : r.stepFlag g abbreviated token = .error m ↔
    (∃ s, r.unfinishedFlag? = some s ∧ s.unfinished g = m) ∨
      r.unfinishedFlag? = none ∧ ∃ id, g.lookupFlag abbreviated token = some id ∧
        { r with openFlag := none }.useGroup g id = .error m := by
  unfold stepFlag
  cases hc : r.closeFlag g with
  | error m' =>
    obtain ⟨s, hs, rfl⟩ := closeFlag_eq_error.mp hc
    simp [hs, bind, Except.bind]
  | ok r₀ =>
    obtain ⟨hn, rfl⟩ := closeFlag_eq_ok.mp hc
    cases hl : g.lookupFlag abbreviated token with
    | none => simp [hn, bind, Except.bind, pure, Except.pure]
    | some i =>
      cases hg : { r with openFlag := none }.useGroup g i <;>
        simp [hn, hg, bind, Except.bind, pure, Except.pure]

theorem stepValue_stuck (hv : r.ReadsValue g token) (h : r.stepValue g token = .error m) :
    Stuck g abbreviated r token m := by
  unfold stepValue at h
  split at h
  · cases h
  · cases h
  · cases h
  · next i rest hf hp hr =>
    exact .excludedPositional i rest m hv hf hp hr (stepNewPositional_eq_error.mp h)

theorem stepPlain_stuck (hu : r.Unlocked) (h : r.stepPlain g abbreviated token = .error m) :
    Stuck g abbreviated r token m := by
  cases hoff : r.flagsOff with
  | true =>
    have hv : r.ReadsValue g token := .inl hoff
    rw [stepPlain_of_readsValue hv] at h
    exact stepValue_stuck hv h
  | false =>
    by_cases ht : token = "--"
    · cases hc : r.closeFlag g with
      | ok r₀ => simp [stepPlain, ht, hoff, hc, Except.map] at h
      | error m' =>
        obtain ⟨s, hs, rfl⟩ := closeFlag_eq_error.mp hc
        obtain rfl : s.unfinished g = m := by
          simpa [stepPlain, ht, hoff, hc, Except.map] using h
        exact .unfinished s hu hoff (.inl ht) hs
    · cases hl : g.looksLikeFlag token with
      | false =>
        have hv : r.ReadsValue g token := .inr ⟨ht, hl⟩
        rw [stepPlain_of_readsValue hv] at h
        exact stepValue_stuck hv h
      | true =>
        have hr : r.ReadsFlag g token := ⟨hoff, ht, hl⟩
        rw [stepPlain_of_readsFlag hr, stepFlag_eq_error] at h
        rcases h with ⟨s, hs, rfl⟩ | ⟨hn, i, hi, hg⟩
        · exact .unfinished s hu hoff (.inr hl) hs
        · exact .excludedFlag i m hu hr hn hi hg

/-- A step fails for one of the reasons and for no other. -/
theorem step_eq_error_iff : r.step g abbreviated token = .error m ↔
    Stuck g abbreviated r token m := by
  constructor
  · intro h
    unfold step at h
    split at h
    · cases h
    · split at h <;> cases h
    · next hf hp => exact stepPlain_stuck ⟨hf, hp⟩ h
  · intro h
    cases h with
    | unfinished s hu hoff ht hs =>
      rw [step_of_unlocked hu]
      by_cases hsep : token = "--"
      · simp [stepPlain, hsep, hoff, closeFlag_eq_error.mpr ⟨s, hs, rfl⟩, Except.map]
      · have hl := ht.resolve_left hsep
        rw [stepPlain_of_readsFlag ⟨hoff, hsep, hl⟩, stepFlag_eq_error]
        exact .inl ⟨s, hs, rfl⟩
    | excludedFlag i m hu hr hn hl hg =>
      rw [step_of_unlocked hu, stepPlain_of_readsFlag hr, stepFlag_eq_error]
      exact .inr ⟨hn, i, hl, hg⟩
    | excludedPositional i rest m hv hf hp hr hg =>
      rw [step_of_readsValue hv hf hp hr, stepNewPositional_eq_error]
      exact hg

end Tabwise.Replay
