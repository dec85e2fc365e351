import Tabwise.Completion.Values
import Tabwise.Proofs.Except
import Tabwise.Proofs.Grammar.Kinds

/-! # The values that are offered

What an argument offers is what its source has, without the values already used and without what
the typed text does not start. Putting numbers in order moves candidates and drops none.
-/

namespace Tabwise

variable {o : Options} {r : Replay} {context : Context} {s : Slot} {c : Completions}

/-- All candidates of an argument: the subcommands of a selector, or else its choices. -/
def Argument.source (a : Argument) (context : Context) : Except String (List Candidate) :=
  match a.subcommands? with
  | some set => .ok set.candidates
  | none => a.choices.candidates context

theorem Argument.resolve_eq_ok {a : Argument} {consumed : List String} {found : List Candidate}
    {presorted : Bool} (h : a.resolve consumed context = .ok (found, presorted)) :
    ∃ all, a.source context = .ok all ∧
      found = all.filter fun v => !consumed.contains v.value := by
  unfold resolve at h
  unfold source
  cases hs : a.subcommands? with
  | some set =>
    rw [hs] at h
    cases h
    exact ⟨set.candidates, rfl, rfl⟩
  | none =>
    rw [hs] at h
    obtain ⟨⟨all, sorted⟩, hall, h⟩ := bind_eq_ok.mp h
    obtain ⟨all', hsource, he⟩ := map_eq_ok.mp hall
    cases he
    cases h
    exact ⟨all, hsource, rfl⟩

theorem Argument.resolve_eq_error {a : Argument} {consumed : List String} {e : String} :
    a.resolve consumed context = .error e ↔ a.source context = .error e := by
  unfold resolve source
  cases a.subcommands? with
  | some set => simp [bind, Except.bind, pure, Except.pure]
  | none =>
    cases a.choices.candidates context <;>
      simp [Except.map, bind, Except.bind, pure, Except.pure]

namespace Completion

variable {g : Grammar}

theorem values_eq_error {e : String} :
    values g o r context s = .error e ↔ (g.argument s.id).source context = .error e := by
  refine (bind_eq_error ?_).trans Argument.resolve_eq_error
  intro found
  exact ⟨_, rfl⟩

theorem numbers?_eq_some {cs : List Candidate} {keyed : List (Number.Binary64 × Candidate)}
    (h : numbers? cs = some keyed) : keyed.map (·.2) = cs ∧
      ∀ p ∈ keyed, Number.read? p.2.value.toList = some p.1 := by
  induction cs generalizing keyed with
  | nil =>
    cases h
    exact ⟨rfl, List.forall_mem_nil _⟩
  | cons v cs ih =>
    simp only [numbers?, List.mapM_cons, Option.bind_eq_bind, Option.bind_eq_some_iff,
      Option.map_eq_some_iff] at h
    obtain ⟨-, ⟨number, hnumber, rfl⟩, rest, hrest, he⟩ := h
    obtain ⟨hmap, hread⟩ := ih hrest
    cases he
    exact ⟨by rw [List.map_cons, hmap], List.forall_mem_cons.mpr ⟨hnumber, hread⟩⟩

theorem arrange_perm (presorted : Bool) (cs : List Candidate) :
    (arrange presorted cs).1.Perm cs := by
  unfold arrange
  split
  · exact List.Perm.refl cs
  · split
    · next keyed hkeyed =>
      have hsorted := (List.mergeSort_perm keyed fun a b => a.1.le b.1).map (·.2)
      rwa [(numbers?_eq_some hkeyed).1] at hsorted
    · exact List.Perm.refl cs

/-- What is offered is what is left of the source, maybe in another order. -/
theorem values_perm (h : values g o r context s = .ok c) :
    ∃ all, (g.argument s.id).source context = .ok all ∧ c.candidates.Perm (all.filter fun v =>
      o.accepts v.value context.text && !(r.consumedBy s.id).contains v.value) := by
  obtain ⟨⟨found, presorted⟩, hfound, h⟩ := bind_eq_ok.mp h
  obtain ⟨all, hall, rfl⟩ := Argument.resolve_eq_ok hfound
  cases h
  refine ⟨all, hall, ?_⟩
  rw [← List.filter_filter]
  exact arrange_perm _ _

/-- Two answers from the same source, which may differ in the text and in what it starts. -/
theorem values_perm_same_source {o' : Options} {context' : Context} {c' : Completions}
    (hsource : (g.argument s.id).source context' = (g.argument s.id).source context)
    (h : values g o r context s = .ok c) (h' : values g o' r context' s = .ok c') :
    ∃ all : List Candidate,
      c.candidates.Perm (all.filter fun v =>
        o.accepts v.value context.text && !(r.consumedBy s.id).contains v.value) ∧
      c'.candidates.Perm (all.filter fun v =>
        o'.accepts v.value context'.text && !(r.consumedBy s.id).contains v.value) := by
  obtain ⟨all, hall, hperm⟩ := values_perm h
  obtain ⟨all', hall', hperm'⟩ := values_perm h'
  obtain rfl : all' = all := Except.ok.inj (hall'.symm.trans (hsource.trans hall))
  exact ⟨all', hperm, hperm'⟩

theorem mem_tokens_of_values {set : Subcommands} {v : Candidate}
    (hs : (g.argument s.id).subcommands? = some set) (h : values g o r context s = .ok c)
    (hv : v ∈ c.candidates) : v.value ∈ set.tokens := by
  obtain ⟨all, hall, hperm⟩ := values_perm h
  rw [Argument.source, hs] at hall
  cases hall
  have hmem : v ∈ set.candidates := (List.mem_filter.mp (hperm.mem_iff.mp hv)).1
  rw [← set.map_value_candidates]
  exact List.mem_map_of_mem hmem

end Completion

end Tabwise
