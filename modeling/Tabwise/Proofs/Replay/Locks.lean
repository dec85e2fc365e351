import Tabwise.Proofs.Replay.Record

/-! # Locks on flags

A separator outside of any remainder turns flags off for the rest of the line: a remainder that is
opened and closed later turns them on again only if there was no such separator. A `--` that is
given to a waiting remainder while flags are locked is its first value and no separator. An open
remainder takes every token, a flag to the end of the line and a positional up to the next `--`.
-/

namespace Tabwise

/-- The token was read as a flag, known or not. -/
def Step.readsFlag : Step → Bool
  | flag _ | unknownFlag => true
  | _ => false

namespace Replay

variable {g : Grammar} {abbreviated : Bool} {r r' : Replay} {token : String} {i : Nat}
  {st : Step} {s : Slot} {t : Trace}

theorem Move.flagsOff_of_readsFlag (h : Move g abbreviated r token st r')
    (hst : st.readsFlag = true) : r.flagsOff = false := by
  cases h with
  | unknownFlag hu hr hn hl => exact hr.1
  | flag j r₁ hu hr hn hl hg => exact hr.1
  | _ => cases hst

/-- No flag is open beside an open remainder positional. -/
def Alone (r : Replay) : Prop :=
  ∀ s, r.openPositional = some s → s.remainder = true → r.openFlag = none

theorem Alone.unlocked (ha : r.Alone) (hf : r.openFlag = some s) (hr : s.remainder = false) :
    r.Unlocked := by
  refine unlocked_iff.mpr ⟨fun f hf' => ?_, fun p hp => ?_⟩
  · cases hf.symm.trans hf'
    exact hr
  · by_contra hp'
    cases hf.symm.trans (ha p hp (by simpa using hp'))

/-- A positional starts while no flag is open, and flags stay off while a remainder is. -/
theorem Move.alone (h : Move g abbreviated r token st r') (hc : Coherent g r) (ha : r.Alone) :
    r'.Alone := by
  -- what was open beside the remainder could only be a flag that has just been given
  have old {s : Slot} (hp : r.openPositional = some s) (hr : s.remainder = true) :
      r'.openFlag = none := by
    by_contra hf
    obtain ⟨f, hf⟩ := Option.ne_none_iff_exists'.mp hf
    rcases h.openFlag_cases hf with ⟨hold, -⟩ | ⟨f₀, hold, -⟩ | ⟨rfl, -⟩
    · cases (ha s hp hr).symm.trans hold
    · cases (ha s hp hr).symm.trans hold
    · have hoff := h.flagsOff_of_readsFlag rfl
      simp [hc.lockedPositional_flagsOff s hp hr] at hoff
  intro s hs hr
  rcases h.openPositional_cases hs with ⟨hp, -⟩ | ⟨s₀, hp, -, rfl, -⟩ |
    ⟨rfl, -, -, -, hnone, hhead, -⟩
  · exact old hp hr
  · exact old hp hr
  · by_contra hf
    obtain ⟨f, hf⟩ := Option.ne_none_iff_exists'.mp hf
    rcases h.openFlag_cases hf with ⟨-, hother⟩ | ⟨f₀, hold, hst, -⟩ | ⟨hst, -⟩
    · obtain ⟨p, hp, -⟩ := hother s.id rfl
      cases hnone.symm.trans hp
    · obtain ⟨rest, hrest⟩ := List.head?_eq_some_iff.mp hhead
      have hid : s.id = f₀.id := Step.value.inj hst
      have hflag := (hc.openFlag f₀ hold).2.1
      simp [← hid, (hc.head hrest).1] at hflag
    · cases hst

theorem run_alone {tokens : List String}
    (h : (start g).run g abbreviated tokens = .ok (t, r)) : r.Alone :=
  run_recorded_induction (fun _ r => r.Alone) (fun hc _ ha hm => hm.alone hc ha)
    (fun _ hs => by cases hs) h

/-- A remainder flag takes all that follows. -/
theorem run_of_lockedFlag (hs : r.openFlag = some s) (hr : s.remainder = true)
    (tokens : List String) : ∃ r', r.run g abbreviated tokens =
      .ok (tokens.map fun token => (token, .value s.id), r') := by
  induction tokens generalizing r s with
  | nil => exact ⟨r, rfl⟩
  | cons token rest ih =>
    have hm : Move g abbreviated r token (.value s.id) _ := .lockedFlag s hs hr
    obtain ⟨r', hrest⟩ := ih (r := { r.pushValue s.id token with openFlag := some s.next })
      (s := s.next) rfl hr
    exact ⟨r', run_cons_eq_ok.mpr ⟨_, _, _, hm, hrest, rfl⟩⟩

/-- A remainder positional takes a token that does not close it. -/
theorem step_of_lockedPositional (ha : r.Alone) (hs : r.openPositional = some s)
    (hr : s.remainder = true) (ht : token ≠ "--") : r.step g abbreviated token =
      .ok (.value s.id, { r.pushValue s.id token with openPositional := some s.next }) := by
  refine Move.step_eq (.lockedPositional s ?_ hs hr ht)
  rw [ha s hs hr]
  rfl

theorem Move.stays_separated (h : Move g abbreviated r token st r') (hs : r.separated = true) :
    r'.separated = true := by
  cases h with
  | lockedFlag s hf hr => exact hs
  | lockedPositional s hf hp hr ht => exact hs
  | closeRemainder s hf hp hr ht => exact hs
  | separator hu hoff ht hn => rfl
  | unknownFlag hu hr hn hl => exact hs
  | flag j r₁ hu hr hn hl hg => exact (useGroup_narrowed hg).separated.trans hs
  | flagValue s hu hv hf => exact hs
  | positionalValue s hu hv hf hp => exact hs
  | extra hv hf hp hr => exact hs
  | newPositional j rest r₁ hv hf hp hr hg hsub => exact (useGroup_narrowed hg).separated.trans hs
  | subcommand j rest r₁ set c hv hf hp hr hg hsub hsel =>
    exact (useGroup_narrowed hg).separated.trans hs
  | unknownSubcommand j rest r₁ set hv hf hp hr hg hsub hsel =>
    exact (useGroup_narrowed hg).separated.trans hs

theorem Move.separated_of_separator (h : Move g abbreviated r token .separator r')
    (hu : r.Unlocked) : r'.separated = true := by
  cases h with
  | closeRemainder s hf hp hr ht => simp [Option.filter_eq_none_iff.mp hu.2 s hp] at hr
  | separator hu hoff ht hn => rfl

theorem Move.occurrencesOf_flag (h : Move g abbreviated r token st r') (hc : Coherent g r)
    (hi : (g.argument i).isFlag = true) (hst : st.readsFlag = false) :
    r'.occurrencesOf i = r.occurrencesOf i := by
  have hline : r.remaining.head? ≠ some i := by
    intro hhead
    obtain ⟨rest, hr⟩ := List.head?_eq_some_iff.mp hhead
    simp [(hc.head hr).1] at hi
  by_cases hsub : st.subject? = some i
  · rcases Step.subject?_eq_some.mp hsub with rfl | rfl | hsel
    · cases hst
    · rcases h.value_origin with ⟨-, ho⟩ | ⟨hhead, -⟩
      · exact ho
      · exact absurd hhead hline
    · exact absurd (h.records_selection hsel).2.1 hline
  · exact (Prod.mk.inj (h.records_of_ne hsub)).1

/-- After a separator outside of any remainder nothing is read as a flag. -/
theorem run_of_separated {tokens : List String} (hc : Coherent g r) (hs : r.separated = true)
    (h : r.run g abbreviated tokens = .ok (t, r')) :
    (∀ e ∈ t, e.2.readsFlag = false) ∧
      ∀ i, (g.argument i).isFlag = true → r'.occurrencesOf i = r.occurrencesOf i := by
  have hrun := run_induction (fun t r₁ => Coherent g r₁ ∧ r₁.separated = true ∧
    (∀ e ∈ t, e.2.readsFlag = false) ∧
      ∀ i, (g.argument i).isFlag = true → r₁.occurrencesOf i = r.occurrencesOf i) [] ?_ ?_ h
  · exact hrun.2.2
  · rintro t r₁ token st r₂ ⟨hc, hs, ht, ho⟩ hm
    have hst : st.readsFlag = false := by
      by_contra hst
      have hoff := hm.flagsOff_of_readsFlag (by simpa using hst)
      simp [hc.separated_flagsOff hs] at hoff
    refine ⟨hc.move hm, hm.stays_separated hs, fun e he => ?_, fun i hi => ?_⟩
    · rcases List.mem_append.mp he with he | he
      · exact ht e he
      · rwa [List.mem_singleton.mp he]
    · rw [hm.occurrencesOf_flag hc hi hst, ho i hi]
  · exact ⟨hc, hs, by simp, fun _ _ => rfl⟩

/-- Locks hold: flags stay off after a separator outside of any remainder, a remainder flag takes
every token, and a remainder positional every token but `--`. -/
theorem locks_of_run {past : List String}
    (h : (start g).run g abbreviated past = .ok (t, r)) :
    (r.Unlocked → ∀ r₁, r.step g abbreviated "--" = .ok (.separator, r₁) →
      ∀ rest t' r', r₁.run g abbreviated rest = .ok (t', r') →
        (∀ e ∈ t', e.2.readsFlag = false) ∧
          ∀ i, (g.argument i).isFlag = true → r'.occurrencesOf i = r.occurrencesOf i) ∧
    (∀ s, r.openFlag = some s → s.remainder = true → ∀ rest, ∃ r',
      r.run g abbreviated rest = .ok (rest.map fun token => (token, .value s.id), r')) ∧
    ∀ s, r.openPositional = some s → s.remainder = true → ∀ token, token ≠ "--" → ∃ r',
      r.step g abbreviated token = .ok (.value s.id, r') ∧ r'.openPositional = some s.next := by
  have hc := (coherent_start g).of_run h
  refine ⟨fun hu r₁ hstep rest t' r' hrun => ?_, fun s hs hr rest => ?_, fun s hs hr token ht => ?_⟩
  · have hm := Move.of_step hstep
    obtain ⟨hflags, ho⟩ := run_of_separated (hc.move hm) (hm.separated_of_separator hu) hrun
    refine ⟨hflags, fun i hi => ?_⟩
    rw [ho i hi, hm.occurrencesOf_flag hc hi rfl]
  · exact run_of_lockedFlag hs hr rest
  · exact ⟨_, step_of_lockedPositional (run_alone h) hs hr ht, rfl⟩

/-- The runner's flags stay off although its remainder is closed again. While it is open it takes
flags as well, and so does the flag of the launcher, which nothing closes. -/
theorem locks_of_run_runner :
    (∃ t r r₁ t' r',
      (start Sample.runner.grammar).run Sample.runner.grammar true ["-v"] = .ok (t, r) ∧
      r.Unlocked ∧ r.step Sample.runner.grammar true "--" = .ok (.separator, r₁) ∧
      r₁.run Sample.runner.grammar true ["python", "a", "--", "-v"] = .ok (t', r') ∧
      (∀ e ∈ t', e.2.readsFlag = false) ∧
      ∀ i, (Sample.runner.grammar.argument i).isFlag = true →
        r'.occurrencesOf i = r.occurrencesOf i) ∧
    (∃ t r s, (start Sample.launcher.grammar).run Sample.launcher.grammar true ["-v", "-x"] =
        .ok (t, r) ∧
      r.openFlag = some s ∧ s.id = 1 ∧ s.remainder = true ∧
      ∃ r', r.run Sample.launcher.grammar true ["ls", "--", "-v"] =
        .ok ([("ls", .value 1), ("--", .value 1), ("-v", .value 1)], r')) ∧
    ∃ t r s, (start Sample.runner.grammar).run Sample.runner.grammar true ["python", "a"] =
        .ok (t, r) ∧
      r.openPositional = some s ∧ s.id = 6 ∧ s.remainder = true ∧
      ∃ r', r.step Sample.runner.grammar true "-v" = .ok (.value 6, r') ∧
        r'.openPositional = some s.next := by
  refine ⟨?_, ?_, ?_⟩
  · obtain ⟨⟨t, r⟩, h, hrest⟩ := bind_eq_ok.mp (show
      ((start Sample.runner.grammar).run Sample.runner.grammar true ["-v"] >>= fun x =>
        x.2.step Sample.runner.grammar true "--" >>= fun y =>
        (y.2.run Sample.runner.grammar true ["python", "a", "--", "-v"]).map fun _ =>
          (x.2.openFlag, x.2.openPositional, y.1)) = .ok (none, none, .separator) from rfl)
    obtain ⟨⟨st, r₁⟩, hstep, hrest⟩ := bind_eq_ok.mp hrest
    obtain ⟨⟨t', r'⟩, hrun, hchecks⟩ := map_eq_ok.mp hrest
    obtain ⟨hf, hchecks⟩ := Prod.mk.inj hchecks
    obtain ⟨hp, rfl⟩ := Prod.mk.inj hchecks
    have hu : r.Unlocked := unlocked_of_closed hf hp
    exact ⟨t, r, r₁, t', r', h, hu, hstep, hrun, (locks_of_run h).1 hu r₁ hstep _ t' r' hrun⟩
  · obtain ⟨⟨t, r⟩, h, hopen⟩ := map_eq_ok.mp (show ((start Sample.launcher.grammar).run
      Sample.launcher.grammar true ["-v", "-x"]).map (fun x => x.2.openFlag) =
        .ok (some (.new Sample.launcher.grammar 1)) from rfl)
    exact ⟨t, r, _, h, hopen, rfl, rfl, (locks_of_run h).2.1 _ hopen rfl ["ls", "--", "-v"]⟩
  · obtain ⟨⟨t, r⟩, h, hopen⟩ := map_eq_ok.mp (show ((start Sample.runner.grammar).run
      Sample.runner.grammar true ["python", "a"]).map (fun x => x.2.openPositional) =
        .ok (some (Slot.new Sample.runner.grammar 6).next) from rfl)
    exact ⟨t, r, _, h, hopen, rfl, rfl, (locks_of_run h).2.2 _ hopen rfl "-v" (by decide)⟩

end Replay

end Tabwise
