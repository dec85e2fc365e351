import Tabwise.Proofs.Replay.Record

/-! # The order of positionals

Positionals start in the order of their declaration, and one gets values only while it is the last
that has started. So the values of all positionals, as they stand in the line, are those of the
first positional, then those of the second and so on.
-/

namespace Tabwise

def Step.isPositional (g : Grammar) : Step → Bool
  | value id => !(g.argument id).isFlag
  | _ => false

def Trace.positionals (g : Grammar) (t : Trace) : List String :=
  (t.filter (·.2.isPositional g)).map (·.1)

@[simp] theorem Trace.positionals_concat {g : Grammar} {t : Trace} {e : String × Step} :
    Trace.positionals g (t ++ [e]) =
      Trace.positionals g t ++ if e.2.isPositional g then [e.1] else [] := by
  by_cases h : e.2.isPositional g <;> simp [Trace.positionals, h]

theorem flatMap_of_last {l : List Nat} {i : Nat} {f f' : Nat → List String} {x : List String}
    (hl : l.Pairwise (· < ·)) (hi : i ∈ l) (hlast : f' i = f i ++ x)
    (hne : ∀ j ∈ l, j ≠ i → f' j = f j) (hempty : ∀ j ∈ l, i < j → f j = []) :
    l.flatMap f' = l.flatMap f ++ x := by
  induction l with
  | nil => cases hi
  | cons k rest ih =>
    rw [List.pairwise_cons] at hl
    rw [List.flatMap_cons, List.flatMap_cons]
    by_cases hk : i = k
    · subst hk
      have hrest : ∀ j ∈ rest, f j = [] := fun j hj =>
        hempty j (List.mem_cons_of_mem i hj) (hl.1 j hj)
      have hrest' : ∀ j ∈ rest, f' j = [] := fun j hj => by
        rw [hne j (List.mem_cons_of_mem i hj) (hl.1 j hj).ne', hrest j hj]
      rw [List.flatMap_eq_nil_iff.mpr hrest, List.flatMap_eq_nil_iff.mpr hrest', hlast]
      simp
    · have hi' : i ∈ rest := (List.mem_cons.mp hi).resolve_left hk
      rw [hne k List.mem_cons_self (Ne.symm hk), List.append_assoc]
      rw [ih hl.2 hi' (fun j hj => hne j (List.mem_cons_of_mem k hj))
        fun j hj => hempty j (List.mem_cons_of_mem k hj)]

namespace Replay

variable {g : Grammar} {abbreviated : Bool} {r r' : Replay} {token : String} {i : Nat}
  {st : Step} {t : Trace}

theorem Move.starts (h : Move g abbreviated r token st r') (hc : Coherent g r)
    (ho : 0 < r'.occurrencesOf i) :
    0 < r.occurrencesOf i ∨ st = .flag i ∨ r.remaining.head? = some i := by
  by_cases hi : st.subject? = some i
  · rcases Step.subject?_eq_some.mp hi with rfl | rfl | hsel
    · exact .inr (.inl rfl)
    · rcases h.value_cases hc with ⟨-, hpos, -⟩ | ⟨-, -, -, hhead⟩
      · exact .inl hpos
      · exact .inr (.inr hhead)
    · exact .inr (.inr (h.records_selection hsel).2.1)
  · have hrec := h.records_of_ne hi
    exact .inl ((Prod.mk.inj hrec).1 ▸ ho)

theorem Move.declared (h : Move g abbreviated r token st r') (hc : Coherent g r)
    (hd : ∀ i, 0 < r.occurrencesOf i → i < g.arguments.length) :
    ∀ i, 0 < r'.occurrencesOf i → i < g.arguments.length := by
  intro i ho
  rcases h.starts hc ho with hpos | rfl | hhead
  · exact hd i hpos
  · cases h with
    | flag i r₁ hu hread hf hl hg =>
      obtain ⟨name, hmem⟩ := Grammar.lookupFlag_mem hl
      exact (Grammar.mem_flags.mp hmem).1
  · have hmem := hc.remaining_sublist.subset (List.mem_of_head? hhead)
    exact (Grammar.mem_positionals.mp hmem).1

theorem Move.leaves (h : Move g abbreviated r token st r') (hi : i ∈ r.remaining) :
    i ∈ r'.remaining ∨ 0 < r'.occurrencesOf i ∨ ∃ group ∈ g.groups, i ∈ group := by
  have hm := h
  have taken {r₀ r₁ : Replay} {j : Nat} (hg : r₀.useGroup g j = .ok r₁) (hi : i ∈ r₀.remaining) :
      i ∈ r₁.remaining ∨ ∃ group ∈ g.groups, i ∈ group :=
    ((useGroup_narrowed hg).dropped i hi).imp_right And.right
  have head {j : Nat} {rest : List Nat} (hr : r.remaining = j :: rest) (hne : j ≠ i) :
      i ∈ rest := (List.mem_cons.mp (hr ▸ hi)).resolve_left (Ne.symm hne)
  cases h with
  | lockedFlag s hf hs => exact .inl hi
  | lockedPositional s hf hp hs ht => exact .inl hi
  | closeRemainder s hf hp hs ht => exact .inl hi
  | separator hu hoff ht hn => exact .inl hi
  | unknownFlag hu hr hn hl => exact .inl hi
  | flag j r₁ hu hr hn hl hg => exact (taken hg hi).imp_right .inr
  | flagValue s hu hv hf => exact .inl hi
  | positionalValue s hu hv hf hp => exact .inl hi
  | extra hv hf hp hr => exact .inl hi
  | newPositional j rest r₁ hv hf hp hr hg hs =>
    by_cases hj : j = i
    · subst hj
      simp [occurrencesOf, enterPositional, fillPositional, pushValue, countOccurrence]
    · exact (taken hg (head hr hj)).imp_right .inr
  | subcommand j rest r₁ set command hv hf hp hr hg hs hsel =>
    by_cases hj : j = i
    · subst hj
      simp [occurrencesOf, enterSelector, countOccurrence]
    · exact (taken hg (head hr hj)).imp_right .inr
  | unknownSubcommand j rest r₁ set hv hf hp hr hg hs hsel =>
    by_cases hj : j = i
    · subst hj
      simp [occurrencesOf, enterSelector, countOccurrence]
    · exact (taken hg (head hr hj)).imp_right .inr

theorem Move.stays_started (h : Move g abbreviated r token st r') (hc : Coherent g r)
    (ho : 0 < r.occurrencesOf i) : 0 < r'.occurrencesOf i := by
  by_cases hi : st.subject? = some i
  · exact h.subject_started hc hi
  · have hrec := h.records_of_ne hi
    exact (Prod.mk.inj hrec).1 ▸ ho

theorem Move.value_last (h : Move g abbreviated r token (.value i) r') (hc : Coherent g r)
    (hi : (g.argument i).isFlag = false) :
    ∀ j, (g.argument j).isFlag = false → 0 < r.occurrencesOf j → j ≤ i := by
  intro j hj ho
  rcases h.value_origin with ⟨⟨s, hs, rfl⟩ | ⟨s, hs, rfl⟩, -⟩ | ⟨hhead, -, -⟩
  · simp [(hc.openFlag s hs).2.1] at hi
  · exact hc.started_le s hs j hj ho
  · exact le_of_lt (hc.remaining_after j hj ho i (List.mem_of_head? hhead))

/-- What a run knows about the arguments that it has met. -/
structure Accounted (g : Grammar) (t : Trace) (r : Replay) : Prop where
  declared : ∀ i, 0 < r.occurrencesOf i → i < g.arguments.length
  /-- A positional waits, has started or is out of the line for its group. -/
  waiting : ∀ i ∈ g.positionals,
    i ∈ r.remaining ∨ 0 < r.occurrencesOf i ∨ ∃ group ∈ g.groups, i ∈ group
  ordered : t.positionals g = g.positionals.flatMap fun i => t.valuesOf i
  keys_nodup : r.values.keys.Nodup

theorem Move.ordered (h : Move g abbreviated r token st r') (hc : Coherent g r)
    (hr : ∀ i, Recorded g t r i) (ha : Accounted g t r) :
    Trace.positionals g (t ++ [(token, st)]) =
      g.positionals.flatMap fun i => Trace.valuesOf i (t ++ [(token, st)]) := by
  have same (hst : ∀ i ∈ g.positionals, st.isValue i = false) :
      (g.positionals.flatMap fun i => Trace.valuesOf i (t ++ [(token, st)])) =
        g.positionals.flatMap fun i => t.valuesOf i := by
    refine List.flatMap_congr fun i hi => ?_
    simp [hst i hi]
  rw [Trace.positionals_concat, ha.ordered]
  cases hst : st.isPositional g with
  | false =>
    rw [same]
    · simp
    · intro i hi
      have hflag := (Grammar.mem_positionals.mp hi).2
      cases st with
      | value j =>
        have hne : j ≠ i := by
          rintro rfl
          simp [Step.isPositional, hflag] at hst
        simpa [Step.isValue] using hne
      | _ => rfl
  | true =>
    cases st with
    | value i =>
      have hi : (g.argument i).isFlag = false := by simpa [Step.isPositional] using hst
      have hmem : i ∈ g.positionals := Grammar.mem_positionals.mpr
        ⟨h.declared hc ha.declared i (h.subject_started hc rfl), hi⟩
      -- no positional behind it has started, so its value ends the values of all
      refine (flatMap_of_last (Grammar.pairwise_lt_positionals g) hmem ?_ ?_ ?_).symm
      · simp [Step.isValue]
      · intro j _ hj
        simp [Step.isValue, Ne.symm hj]
      · intro j hj hlt
        apply (hr j).silent
        by_contra ho
        have hle := h.value_last hc hi j (Grammar.mem_positionals.mp hj).2 (Nat.pos_of_ne_zero ho)
        omega
    | _ => cases hst

theorem keys_nodup_keepFlag {a : Argument} {values : InsertionMap Nat (List String)}
    (h : values.keys.Nodup) : (keepFlag a i values).keys.Nodup := by
  unfold keepFlag
  split
  · exact InsertionMap.nodup_keys_insert h _ _
  · exact InsertionMap.nodup_keys_insert h _ _
  · exact InsertionMap.nodup_keys_insert h _ _
  all_goals exact h

theorem Move.keys_nodup (h : Move g abbreviated r token st r') (hn : r.values.keys.Nodup) :
    r'.values.keys.Nodup := by
  have put (r : Replay) (hn : r.values.keys.Nodup) (i : Nat) (vs : List String) :
      (r.values.insert i vs).keys.Nodup := InsertionMap.nodup_keys_insert hn i vs
  have group {r₀ r₁ : Replay} {j : Nat} (hg : r₀.useGroup g j = .ok r₁)
      (hr : r₀.values = r.values) : r₁.values.keys.Nodup := by
    rwa [(useGroup_narrowed hg).values, hr]
  cases h with
  | lockedFlag s hf hs => exact put r hn _ _
  | lockedPositional s hf hp hs ht => exact put r hn _ _
  | closeRemainder s hf hp hs ht => exact hn
  | separator hu hoff ht hf => exact hn
  | unknownFlag hu hr hf hl => exact hn
  | flag j r₁ hu hr hf hl hg => exact keys_nodup_keepFlag (group hg rfl)
  | flagValue s hu hv hf => exact put r hn _ _
  | positionalValue s hu hv hf hp => exact put r hn _ _
  | extra hv hf hp hr => exact hn
  | newPositional j rest r₁ hv hf hp hr hg hs => exact put r₁ (group hg rfl) _ _
  | subcommand j rest r₁ set command hv hf hp hr hg hs hsel => exact put r₁ (group hg rfl) _ _
  | unknownSubcommand j rest r₁ set hv hf hp hr hg hs hsel => exact put r₁ (group hg rfl) _ _

theorem Accounted.move (ha : Accounted g t r) (hc : Coherent g r) (hr : ∀ i, Recorded g t r i)
    (h : Move g abbreviated r token st r') : Accounted g (t ++ [(token, st)]) r' where
  declared := h.declared hc ha.declared
  waiting i hi := by
    rcases ha.waiting i hi with hw | ho | hg
    · exact h.leaves hw
    · exact .inr (.inl (h.stays_started hc ho))
    · exact .inr (.inr hg)
  ordered := h.ordered hc hr ha
  keys_nodup := h.keys_nodup ha.keys_nodup

theorem accounted_start (g : Grammar) : Accounted g [] (start g) where
  declared i ho := absurd ho (by simp [occurrencesOf, start])
  waiting i hi := .inl hi
  ordered := (List.flatMap_eq_nil_iff.mpr fun _ _ => rfl).symm
  keys_nodup := List.nodup_nil

/-- Every run accounts for the arguments that it has met. -/
theorem run_accounted {tokens : List String}
    (h : (start g).run g abbreviated tokens = .ok (t, r)) : Accounted g t r :=
  run_recorded_induction (Accounted g) (fun hc hr ha hm => ha.move hc hr hm)
    (accounted_start g) h

end Replay

end Tabwise
