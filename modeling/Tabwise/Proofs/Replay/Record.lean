import Tabwise.Proofs.Replay.Coherence

/-! # What a run writes down

The records of an argument are a function of the trace. A flag counts its occurrences and has the
values since the last of them; a positional has all its values and counts once; a selector keeps
the one token that it got.
-/

namespace Tabwise

namespace Trace

variable {st : Step} {i : Nat}

/-- How often an argument counts as given. -/
def occurrences (g : Grammar) (id : Nat) (t : Trace) : Nat :=
  match (g.argument id).kind with
  | .flag _ => t.flagCount id
  | _ => if t.valuesOf id = [] ∧ t.selections id = [] then 0 else 1

/-- The values of the current occurrence: those since a flag was last given, or all values of
another argument. -/
def consumed (g : Grammar) (id : Nat) (t : Trace) : List String :=
  match (g.argument id).kind with
  | .flag _ => t.currentValues id
  | _ => t.valuesOf id

/-- The values that are kept for an argument, if it has an entry for them. -/
def kept? (g : Grammar) (id : Nat) (t : Trace) : Option (List String) :=
  match (g.argument id).kind with
  | .flag _ =>
    if t.flagCount id = 0 then none
    else match (g.argument id).action with
      | .store => some (t.currentValues id)
      | .append => some (t.valuesOf id)
      | .appendConst =>
        some (List.replicate (t.flagCount id) ((g.argument id).constant.getD ""))
      | .storeTrue | .count | .help => none
  | .positional => if t.valuesOf id = [] then none else some (t.valuesOf id)
  | .selector _ => if t.selections id = [] then none else some (t.selections id)

theorem concat_of_ne (t : Trace) (token : String) (h : st.subject? ≠ some i) :
    flagCount i (t ++ [(token, st)]) = flagCount i t ∧
      valuesOf i (t ++ [(token, st)]) = valuesOf i t ∧
      currentValues i (t ++ [(token, st)]) = currentValues i t ∧
      selections i (t ++ [(token, st)]) = selections i t := by
  have hf : st.isFlag i = false := by cases st <;> simp_all [Step.isFlag, Step.subject?]
  have hv : st.isValue i = false := by cases st <;> simp_all [Step.isValue, Step.subject?]
  have hs : st.isSelection i = false := by cases st <;> simp_all [Step.isSelection, Step.subject?]
  simp [hf, hv, hs]

end Trace

namespace Replay

variable {g : Grammar} {abbreviated : Bool} {r r' : Replay} {token : String} {i : Nat}
  {st : Step} {t : Trace}

/-- The records of an argument after a trace. -/
structure Recorded (g : Grammar) (t : Trace) (r : Replay) (i : Nat) : Prop where
  occurrences : r.occurrencesOf i = t.occurrences g i
  consumed : r.consumedBy i = t.consumed g i
  kept : r.values.find? i = t.kept? g i
  /-- An argument gets no values before it has started. -/
  silent : r.occurrencesOf i = 0 → t.valuesOf i = []
  /-- The token of a selector is no value. -/
  unvalued : ∀ set, (g.argument i).kind = .selector set → t.valuesOf i = []
  single : (t.selections i).length ≤ 1

theorem Recorded.of_ne (hr : Recorded g t r i) (hm : Move g abbreviated r token st r')
    (hi : st.subject? ≠ some i) : Recorded g (t ++ [(token, st)]) r' i := by
  obtain ⟨ho, hc, hv⟩ : r'.occurrencesOf i = r.occurrencesOf i ∧
      r'.consumedBy i = r.consumedBy i ∧ r'.values.find? i = r.values.find? i := by
    simpa only [records, Prod.mk.injEq] using hm.records_of_ne hi
  obtain ⟨hf, hvals, hcur, hsel⟩ := Trace.concat_of_ne t token hi
  refine ⟨?_, ?_, ?_, ?_, ?_, ?_⟩
  · rw [ho, hr.occurrences, Trace.occurrences, Trace.occurrences, hf, hvals, hsel]
  · rw [hc, hr.consumed, Trace.consumed, Trace.consumed, hcur, hvals]
  · rw [hv, hr.kept, Trace.kept?, Trace.kept?, hf, hvals, hcur, hsel]
  · rw [ho, hvals]
    exact hr.silent
  · rw [hvals]
    exact hr.unvalued
  · rw [hsel]
    exact hr.single

theorem Recorded.findD_values (hr : Recorded g t r i) (hi : (g.argument i).isFlag = true) :
    r.values.findD i [] = match (g.argument i).action with
      | .store => if t.flagCount i = 0 then [] else t.currentValues i
      | .append => t.valuesOf i
      | .appendConst => List.replicate (t.flagCount i) ((g.argument i).constant.getD "")
      | .storeTrue | .count | .help => [] := by
  obtain ⟨aliases, hk⟩ := Argument.isFlag_iff.mp hi
  rw [InsertionMap.findD, hr.kept, Trace.kept?, hk]
  by_cases h0 : t.flagCount i = 0
  · have hsilent := hr.silent (by rw [hr.occurrences, Trace.occurrences, hk, h0])
    cases (g.argument i).action <;> simp [h0, hsilent]
  · cases (g.argument i).action <;> simp [h0]

theorem Recorded.flag (hr : Recorded g t r i) (hm : Move g abbreviated r token (.flag i) r')
    (hi : (g.argument i).isFlag = true) : Recorded g (t ++ [(token, .flag i)]) r' i := by
  obtain ⟨aliases, hk⟩ := Argument.isFlag_iff.mp hi
  obtain ⟨ho, hc, hv⟩ : r'.occurrencesOf i = r.occurrencesOf i + 1 ∧ r'.consumedBy i = [] ∧
      r'.values.find? i = (keepFlag (g.argument i) i r.values).find? i := by
    simpa only [records, Prod.mk.injEq] using hm.records_flag
  have hcount : r.occurrencesOf i = t.flagCount i := by
    rw [hr.occurrences, Trace.occurrences, hk]
  have hkept := hr.kept
  have hfound := hr.findD_values hi
  refine ⟨?_, ?_, ?_, ?_, ?_, ?_⟩
  · simp [Trace.occurrences, hk, ho, hcount, Step.isFlag]
  · simp [Trace.consumed, hk, hc, Step.isFlag]
  · rw [hv, find?_keepFlag]
    cases ha : (g.argument i).action <;>
      simp_all [Trace.kept?, Step.isFlag, Step.isValue, List.replicate_succ']
  · omega
  · simp [hk]
  · simpa [Step.isSelection] using hr.single

/-- A value goes to a flag or positional that has started, or starts the next positional. -/
theorem Move.value_cases (h : Move g abbreviated r token (.value i) r') (hc : Coherent g r) :
    (((g.argument i).isFlag = true ∧ (g.argument i).maxArgs ≠ some 0 ∨
        (g.argument i).kind = .positional) ∧
      0 < r.occurrencesOf i ∧ r'.occurrencesOf i = r.occurrencesOf i) ∨
    ((g.argument i).kind = .positional ∧ r.occurrencesOf i = 0 ∧ r'.occurrencesOf i = 1 ∧
      r.remaining.head? = some i) := by
  rcases h.value_origin with ⟨⟨s, hs, rfl⟩ | ⟨s, hs, rfl⟩, ho⟩ | ⟨hhead, hsub, ho⟩
  · obtain ⟨ht, hk, hx⟩ := hc.openFlag s hs
    exact .inl ⟨.inl ⟨hk, hx⟩, ht.started, ho⟩
  · obtain ⟨ht, hk⟩ := hc.openPositional s hs
    exact .inl ⟨.inr hk, ht.started, ho⟩
  · obtain ⟨rest, hr⟩ := List.head?_eq_some_iff.mp hhead
    obtain ⟨hk, hzero, -⟩ := hc.head hr
    exact .inr ⟨Argument.kind_eq_positional hk hsub, hzero, by omega, hhead⟩

theorem action_of_maxArgs {a : Argument} (hk : a.isFlag = true) (hx : a.maxArgs ≠ some 0) :
    a.action = .store ∨ a.action = .append := by
  obtain ⟨aliases, hk⟩ := Argument.isFlag_iff.mp hk
  cases ha : a.action <;> simp_all [Argument.maxArgs, Action.takesValues]

theorem Recorded.value (hr : Recorded g t r i) (hc : Coherent g r)
    (hm : Move g abbreviated r token (.value i) r') :
    Recorded g (t ++ [(token, .value i)]) r' i := by
  obtain ⟨hcons, hvals⟩ := hm.records_value
  have hpos := hm.subject_started hc rfl
  have hsingle : (Trace.selections i (t ++ [(token, .value i)])).length ≤ 1 := by
    simpa [Step.isSelection] using hr.single
  have hcur : r'.consumedBy i = Trace.consumed g i (t ++ [(token, .value i)]) := by
    rw [hcons, hr.consumed, Trace.consumed, Trace.consumed]
    split <;> simp [Step.isFlag, Step.isValue]
  -- a value of a flag or of an open positional, or the first one of a positional
  rcases hm.value_cases hc with ⟨⟨hk, hx⟩ | hk, ho, hsame⟩ | ⟨hk, hzero, hone, -⟩
  · obtain ⟨aliases, hflag⟩ := Argument.isFlag_iff.mp hk
    have hfound := hr.findD_values hk
    have hcount : r.occurrencesOf i = t.flagCount i := by
      rw [hr.occurrences, Trace.occurrences, hflag]
    have hne : t.flagCount i ≠ 0 := by omega
    refine ⟨?_, hcur, ?_, by omega, by simp [hflag], hsingle⟩
    · simp [Trace.occurrences, hflag, hsame, hcount, Step.isFlag]
    · rw [hvals, hfound]
      rcases action_of_maxArgs hk hx with ha | ha <;>
        simp [Trace.kept?, hflag, ha, Step.isFlag, Step.isValue, hne]
  · have hocc := hr.occurrences
    simp only [Trace.occurrences, hk] at hocc
    have hkept := hr.kept
    refine ⟨?_, hcur, ?_, by omega, by simp [hk], hsingle⟩
    · split at hocc
      · omega
      · simp [Trace.occurrences, hk, hsame, hocc, Step.isValue]
    · rw [hvals, InsertionMap.findD, hkept]
      simp only [Trace.kept?, hk]
      split <;> simp_all [Step.isValue]
  · have hkept := hr.kept
    refine ⟨?_, hcur, ?_, by omega, by simp [hk], hsingle⟩
    · simp [Trace.occurrences, hk, hone, Step.isValue]
    · rw [hvals, InsertionMap.findD, hkept]
      simp only [Trace.kept?, hk]
      split <;> simp_all [Step.isValue]

theorem Recorded.selection (hr : Recorded g t r i) (hc : Coherent g r)
    (hm : Move g abbreviated r token st r') (hst : st.isSelection i = true) :
    Recorded g (t ++ [(token, st)]) r' i := by
  obtain ⟨⟨set, hk⟩, hhead, hrec⟩ := hm.records_selection hst
  obtain ⟨rest, hrem⟩ := List.head?_eq_some_iff.mp hhead
  have ho := (hc.head hrem).2.1
  have hv : st.isValue i = false := by cases st <;> simp_all [Step.isSelection, Step.isValue]
  simp only [records, Prod.mk.injEq] at hrec
  obtain ⟨ho', hc', hv'⟩ := hrec
  have hocc := hr.occurrences
  simp only [Trace.occurrences, hk, ho] at hocc
  have hsel : t.selections i = [] := by
    by_contra hne
    simp [hne] at hocc
  refine ⟨?_, ?_, ?_, by omega, ?_, ?_⟩
  · simp [Trace.occurrences, hk, ho', ho, hst]
  · simp [hc', hr.consumed, Trace.consumed, hk, hv]
  · simp [hv', Trace.kept?, hk, hst, hsel]
  · simpa [hv] using hr.unvalued
  · simp [hst, hsel]

/-- Every move keeps the records: the argument that it is about by its kind, all others as they
were. -/
theorem Recorded.move (hr : ∀ i, Recorded g t r i) (hc : Coherent g r)
    (hm : Move g abbreviated r token st r') (i : Nat) :
    Recorded g (t ++ [(token, st)]) r' i := by
  by_cases hi : st.subject? = some i
  · rcases Step.subject?_eq_some.mp hi with rfl | rfl | hsel
    · exact (hr i).flag hm hm.isFlag
    · exact (hr i).value hc hm
    · exact (hr i).selection hc hm hsel
  · exact (hr i).of_ne hm hi

theorem recorded_start (g : Grammar) (i : Nat) : Recorded g [] (.start g) i where
  occurrences := by
    unfold Trace.occurrences
    split <;> rfl
  consumed := by
    unfold Trace.consumed
    split <;> rfl
  kept := by
    unfold Trace.kept?
    split <;> rfl
  silent _ := rfl
  unvalued _ _ := rfl
  single := Nat.zero_le 1

theorem Recorded.kept_store (hr : Recorded g t r i) (hi : (g.argument i).isFlag = true)
    (ha : (g.argument i).action = .store) (ho : 0 < r.occurrencesOf i) :
    r.values.findD i [] = r.consumedBy i := by
  obtain ⟨aliases, hk⟩ := Argument.isFlag_iff.mp hi
  have hcount : t.flagCount i ≠ 0 := by
    have := hr.occurrences
    simp only [Trace.occurrences, hk] at this
    omega
  rw [InsertionMap.findD, hr.kept, hr.consumed]
  simp [Trace.kept?, Trace.consumed, hk, ha, hcount]

theorem Recorded.kept_append (hr : Recorded g t r i) (hi : (g.argument i).isFlag = true)
    (ha : (g.argument i).action = .append) : r.values.findD i [] = t.valuesOf i := by
  rw [hr.findD_values hi, ha]

theorem Recorded.kept_positional (hr : Recorded g t r i)
    (hi : (g.argument i).kind = .positional) :
    r.values.findD i [] = t.valuesOf i ∧ r.consumedBy i = t.valuesOf i := by
  refine ⟨?_, ?_⟩
  · rw [InsertionMap.findD, hr.kept, Trace.kept?, hi]
    by_cases h : t.valuesOf i = [] <;> simp [h]
  · rw [hr.consumed, Trace.consumed, hi]

theorem Recorded.selections_ne_nil {set : Subcommands} (hr : Recorded g t r i)
    (hi : (g.argument i).kind = .selector set) (ho : 0 < r.occurrencesOf i) :
    t.selections i ≠ [] := by
  intro hnone
  have := hr.occurrences
  simp only [Trace.occurrences, hi, hr.unvalued set hi, hnone] at this
  simp only [and_self, if_true] at this
  omega

theorem Recorded.kept_selector {set : Subcommands} {token : String} (hr : Recorded g t r i)
    (hi : (g.argument i).kind = .selector set) (hmem : token ∈ t.selections i) :
    r.values.findD i [] = [token] := by
  have hone : t.selections i = [token] := by
    have hle := hr.single
    match hsel : t.selections i with
    | [] => simp [hsel] at hmem
    | [x] => simpa [hsel, eq_comm] using hmem
    | x :: y :: rest => simp [hsel] at hle
  rw [InsertionMap.findD, hr.kept]
  simp [Trace.kept?, hi, hone]

theorem Recorded.started (hr : Recorded g t r i) (h : r.values.find? i ≠ none) :
    0 < r.occurrencesOf i := by
  by_contra ho
  have hzero : t.occurrences g i = 0 := by
    rw [← hr.occurrences]
    omega
  apply h
  rw [hr.kept]
  unfold Trace.kept?
  unfold Trace.occurrences at hzero
  split
  · next aliases hk => simp_all
  · next hk => simp_all
  · next set hk => simp_all

theorem run_recorded {tokens : List String}
    (h : (start g).run g abbreviated tokens = .ok (t, r)) :
    Coherent g r ∧ ∀ i, Recorded g t r i :=
  run_induction (fun t r => Coherent g r ∧ ∀ i, Recorded g t r i) []
    (fun ⟨hc, hr⟩ hm => ⟨hc.move hm, Recorded.move hr hc hm⟩)
    ⟨coherent_start g, recorded_start g⟩ h

/-- What every move keeps in a state with the invariant and the records holds after a run. -/
theorem run_recorded_induction {tokens : List String} (P : Trace → Replay → Prop)
    (keep : ∀ {t r token st r'}, Coherent g r → (∀ i, Recorded g t r i) → P t r →
      Move g abbreviated r token st r' → P (t ++ [(token, st)]) r')
    (hstart : P [] (start g)) (h : (start g).run g abbreviated tokens = .ok (t, r)) : P t r := by
  have hrun := run_induction
    (fun t r => (Coherent g r ∧ ∀ i, Recorded g t r i) ∧ P t r) [] ?_ ?_ h
  · exact hrun.2
  · rintro t r token st r' ⟨⟨hc, hr⟩, hp⟩ hm
    exact ⟨⟨hc.move hm, Recorded.move hr hc hm⟩, keep hc hr hp hm⟩
  · exact ⟨⟨coherent_start g, recorded_start g⟩, hstart⟩

/-- What is recorded after a run that does not fail is a function of its trace: no token is lost
or counted twice. -/
theorem records_of_run {tokens : List String}
    (h : (start g).run g abbreviated tokens = .ok (t, r)) :
    t.map (·.1) = tokens ∧ ∀ i,
      r.occurrencesOf i = t.occurrences g i ∧
      r.consumedBy i = t.consumed g i ∧
      r.values.find? i = t.kept? g i ∧
      (t.selections i).length ≤ 1 := by
  obtain ⟨-, hr⟩ := run_recorded h
  exact ⟨tokens_of_run h, fun i =>
    ⟨(hr i).occurrences, (hr i).consumed, (hr i).kept, (hr i).single⟩⟩

/-- A remainder takes flags until a separator closes it, and flags are on again behind it. -/
theorem records_of_run_runner : ∃ t r,
    (start Sample.runner.grammar).run Sample.runner.grammar true
      ["-t", "a", "b", "-v", "-q", "run", "--tag", "c", "-q", "--", "-v", "x", "--"] =
        .ok (t, r) ∧
    t.map (·.2) = [.flag 3, .value 3, .value 3, .flag 1, .flag 4, .value 5, .value 6, .value 6,
      .value 6, .separator, .flag 1, .extra, .separator] ∧ ∀ i,
      r.occurrencesOf i = t.occurrences Sample.runner.grammar i ∧
      r.consumedBy i = t.consumed Sample.runner.grammar i ∧
      r.values.find? i = t.kept? Sample.runner.grammar i ∧
      (t.selections i).length ≤ 1 := by
  obtain ⟨⟨t, r⟩, h, ht⟩ := map_eq_ok.mp (show ((start Sample.runner.grammar).run
    Sample.runner.grammar true
      ["-t", "a", "b", "-v", "-q", "run", "--tag", "c", "-q", "--", "-v", "x", "--"]).map
        (fun x => x.1.map (·.2)) = .ok [.flag 3, .value 3, .value 3, .flag 1, .flag 4, .value 5,
          .value 6, .value 6, .value 6, .separator, .flag 1, .extra, .separator] from rfl)
  exact ⟨t, r, h, ht, (records_of_run h).2⟩

end Replay

end Tabwise
