import Mathlib.Data.List.Sort
import Tabwise.Proofs.Grammar.Sample
import Tabwise.Proofs.Replay.Slots

/-! # The invariant of the replay

The open slots, the waiting positionals, the matched flags and the lock on flags fit together
after every step. A positional starts only at the head of the line, so all that has started comes
before all that waits.
-/

namespace Tabwise.Replay

variable {g : Grammar} {abbreviated : Bool} {r r' : Replay} {token : String} {i : Nat}
  {st : Step} {s : Slot}

/-- An open slot has the bounds of its argument, counts the values of the current occurrence and
has room for more. -/
structure Tracks (g : Grammar) (r : Replay) (s : Slot) : Prop where
  min_eq : s.min = (g.argument s.id).minArgs
  max_eq : s.max = (g.argument s.id).maxArgs
  remainder_eq : s.remainder = (g.argument s.id).isRemainder
  count_eq : s.count = (r.consumedBy s.id).length
  not_full : s.isFull = false
  started : 0 < r.occurrencesOf s.id

structure Coherent (g : Grammar) (r : Replay) : Prop where
  openFlag : ∀ s, r.openFlag = some s → Tracks g r s ∧ (g.argument s.id).isFlag = true ∧
    (g.argument s.id).maxArgs ≠ some 0
  openPositional : ∀ s, r.openPositional = some s → Tracks g r s ∧
    (g.argument s.id).kind = .positional
  remaining_sublist : r.remaining.Sublist g.positionals
  /-- What has started comes before what waits. -/
  remaining_after : ∀ i, (g.argument i).isFlag = false → 0 < r.occurrencesOf i →
    ∀ j ∈ r.remaining, i < j
  /-- The open positional is the last that has started. -/
  started_le : ∀ s, r.openPositional = some s → ∀ i, (g.argument i).isFlag = false →
    0 < r.occurrencesOf i → i ≤ s.id
  idle : ∀ i, r.occurrencesOf i = 0 → r.consumedBy i = []
  matched_isFlag : ∀ i ∈ r.matched, (g.argument i).isFlag = true
  matched_nodup : r.matched.Nodup
  separated_flagsOff : r.separated = true → r.flagsOff = true
  lockedFlag_flagsOff : ∀ s, r.openFlag = some s → s.remainder = true → r.flagsOff = true
  lockedPositional_flagsOff : ∀ s, r.openPositional = some s → s.remainder = true →
    r.flagsOff = true

/-- Why tokens are no longer read as flags: a separator, an open remainder, or a remainder that is
next in line while nothing is open. -/
def LockExplained (g : Grammar) (r : Replay) : Prop :=
  r.separated = true ∨ (∃ s, r.openFlag = some s ∧ s.remainder = true) ∨
    (∃ s, r.openPositional = some s ∧ s.remainder = true) ∨
    (r.openFlag = none ∧ r.openPositional = none ∧ r.remainderNext g = true)

theorem Tracks.of_records (h : Tracks g r s) (he : r'.records s.id = r.records s.id) :
    Tracks g r' s := by
  obtain ⟨ho, hc, -⟩ : r'.occurrencesOf s.id = r.occurrencesOf s.id ∧
      r'.consumedBy s.id = r.consumedBy s.id ∧ _ := by
    simpa only [records, Prod.mk.injEq] using he
  exact ⟨h.min_eq, h.max_eq, h.remainder_eq, hc ▸ h.count_eq, h.not_full, ho ▸ h.started⟩

theorem Tracks.next_not_full (h : Tracks g r s) (hs : (g.argument s.id).subcommands? = none)
    (hr : s.remainder = true) : s.next.isFull = false := by
  have hm := Argument.maxArgs_of_isRemainder (h.remainder_eq ▸ hr) hs
  simp [Slot.isFull, Slot.next, h.max_eq, hm]

theorem tracks_new {id : Nat} (hm : (g.argument id).maxArgs ≠ some 0)
    (hc : r.consumedBy id = []) (ho : 0 < r.occurrencesOf id) : Tracks g r (.new g id) :=
  ⟨rfl, rfl, rfl, by simp [Slot.new, hc], isFull_new hm, ho⟩

theorem Move.tracks_of_ne (h : Move g abbreviated r token st r') (hs : Tracks g r s)
    (hi : st.subject? ≠ some s.id) : Tracks g r' s :=
  hs.of_records (h.records_of_ne hi)

theorem Move.subject_started (h : Move g abbreviated r token st r') (hc : Coherent g r)
    (hi : st.subject? = some i) : 0 < r'.occurrencesOf i := by
  rcases Step.subject?_eq_some.mp hi with rfl | rfl | hsel
  · have ho := (Prod.mk.inj h.records_flag).1
    omega
  · rcases h.value_origin with ⟨⟨s, hs, rfl⟩ | ⟨s, hs, rfl⟩, ho⟩ | ⟨-, -, ho⟩
    · exact ho ▸ (hc.openFlag s hs).1.started
    · exact ho ▸ (hc.openPositional s hs).1.started
    · omega
  · have ho := (Prod.mk.inj (h.records_selection hsel).2.2).1
    omega

theorem Coherent.head {id : Nat} {rest : List Nat} (hc : Coherent g r)
    (hr : r.remaining = id :: rest) :
    (g.argument id).isFlag = false ∧ r.occurrencesOf id = 0 ∧ ∀ j ∈ rest, id < j := by
  have hsub := hr ▸ hc.remaining_sublist
  have hk : (g.argument id).isFlag = false :=
    (Grammar.mem_positionals.mp (hsub.subset List.mem_cons_self)).2
  refine ⟨hk, ?_, ?_⟩
  · by_contra ho
    have := hc.remaining_after id hk (Nat.pos_of_ne_zero ho) id (by simp [hr])
    omega
  · exact (List.pairwise_cons.mp ((Grammar.pairwise_lt_positionals g).sublist hsub)).1

theorem Coherent.unlocked (hc : Coherent g r) (hoff : r.flagsOff = false) : r.Unlocked := by
  refine unlocked_iff.mpr ⟨fun s hs => ?_, fun s hs => ?_⟩
  · by_contra hr
    have hlock := hc.lockedFlag_flagsOff s hs (by simpa using hr)
    simp [hoff] at hlock
  · by_contra hr
    have hlock := hc.lockedPositional_flagsOff s hs (by simpa using hr)
    simp [hoff] at hlock

theorem Move.nests {c : Subcommand} (h : Move g abbreviated r token (.subcommand i c) r')
    (hc : Coherent g r) : g.Nests c := by
  obtain ⟨set, hk, hsel⟩ := h.selects
  have hhead := (h.records_selection (beq_self_eq_true i)).2.1
  have hline : i ∈ g.positionals := hc.remaining_sublist.subset (List.mem_of_head? hhead)
  have hid : i ∈ g.ids := Grammar.mem_ids.mpr (Grammar.mem_positionals.mp hline).1
  have ha : g.argument i ∈ g.arguments := Grammar.mem_arguments.mpr ⟨i, hid, rfl⟩
  exact ⟨_, ha, set, hk, List.mem_of_find?_eq_some hsel⟩

theorem Tracks.taken (h : Tracks g r s) (hs : (g.argument s.id).subcommands? = none)
    (hm : Move g abbreviated r token (.value s.id) r') (ho : 0 < r'.occurrencesOf s.id)
    (hroom : s.next.isFull = false ∨ s.remainder = true) : Tracks g r' s.next := by
  have hfull : s.next.isFull = false := hroom.elim (fun hf => hf) (h.next_not_full hs)
  refine ⟨h.min_eq, h.max_eq, h.remainder_eq, ?_, hfull, ho⟩
  change s.count + 1 = (r'.consumedBy s.id).length
  rw [hm.records_value.1, List.length_append, ← h.count_eq, List.length_singleton]

/-- An open flag tracks what it has, and it is a flag that takes values. -/
theorem Move.openFlag (h : Move g abbreviated r token st r') (hc : Coherent g r) :
    ∀ s, r'.openFlag = some s → Tracks g r' s ∧ (g.argument s.id).isFlag = true ∧
      (g.argument s.id).maxArgs ≠ some 0 := by
  intro s hs
  rcases h.openFlag_cases hs with ⟨hs, hother⟩ | ⟨s₀, hs₀, rfl, rfl, hroom⟩ | ⟨rfl, he, hx, -⟩
  · obtain ⟨ht, hk, hx⟩ := hc.openFlag s hs
    refine ⟨h.tracks_of_ne ht fun hst => ?_, hk, hx⟩
    obtain ⟨p, hp, hid⟩ := hother s.id hst
    exact Grammar.flag_ne_positional hk (hc.openPositional p hp).2 hid.symm
  · obtain ⟨ht, hk, hx⟩ := hc.openFlag s₀ hs₀
    have hsub := Argument.subcommands?_of_isFlag hk
    exact ⟨ht.taken hsub h (h.subject_started hc rfl) hroom, hk, hx⟩
  · have hrec := h.records_flag
    simp only [records, Prod.mk.injEq] at hrec
    refine ⟨?_, h.isFlag, hx⟩
    rw [he]
    exact tracks_new hx hrec.2.1 (by omega)

/-- An open positional tracks what it has, and it is no selector. -/
theorem Move.openPositional (h : Move g abbreviated r token st r') (hc : Coherent g r) :
    ∀ s, r'.openPositional = some s →
      Tracks g r' s ∧ (g.argument s.id).kind = .positional := by
  intro s hs
  rcases h.openPositional_cases hs with ⟨hs, hother⟩ | ⟨s₀, hs₀, rfl, rfl, hroom⟩ |
    ⟨rfl, he, hroom, hsub, -, hhead, -⟩
  · obtain ⟨ht, hk⟩ := hc.openPositional s hs
    refine ⟨h.tracks_of_ne ht fun hst => ?_, hk⟩
    rcases hother s.id hst with ⟨f, hf, hid⟩ | hflag
    · exact Grammar.flag_ne_positional (hc.openFlag f hf).2.1 hk hid
    · exact Grammar.flag_ne_positional hflag hk rfl
  · obtain ⟨ht, hk⟩ := hc.openPositional s₀ hs₀
    have hsub := Argument.subcommands?_of_kind_positional hk
    exact ⟨ht.taken hsub h (h.subject_started hc rfl) hroom, hk⟩
  · obtain ⟨rest, hr⟩ := List.head?_eq_some_iff.mp hhead
    obtain ⟨hk, ho, -⟩ := hc.head hr
    have hval := h.records_value.1
    rw [hc.idle s.id ho] at hval
    refine ⟨?_, Argument.kind_eq_positional hk hsub⟩
    refine ⟨by rw [he]; rfl, by rw [he]; rfl, by rw [he]; rfl, ?_, hroom,
      h.subject_started hc rfl⟩
    rw [hval, he]
    rfl

/-- A move takes the head of the line at most, and then nothing was open. -/
theorem Move.remaining (h : Move g abbreviated r token st r') :
    r'.remaining.Sublist r.remaining ∧
      ((∃ i, r.remaining.head? = some i ∧ st.subject? = some i ∧ r.openPositional = none ∧
          r'.remaining.Sublist r.remaining.tail ∧
          r'.occurrencesOf i = r.occurrencesOf i + 1) ∨
        ∀ i, (g.argument i).isFlag = false → r'.occurrencesOf i = r.occurrencesOf i) := by
  have hm := h
  -- the group of the head may take more out of the line
  have starts {j : Nat} {rest : List Nat} {r₁ : Replay} (hr : r.remaining = j :: rest)
      (hg : { r with remaining := rest }.useGroup g j = .ok r₁) :
      r₁.remaining.Sublist r.remaining ∧ r₁.remaining.Sublist r.remaining.tail := by
    have hsub := (useGroup_narrowed hg).remaining_sublist
    rw [hr]
    exact ⟨hsub.trans (List.sublist_cons_self j rest), hsub⟩
  cases h with
  | lockedFlag s hf hs => exact ⟨List.Sublist.refl _, .inr fun i _ => rfl⟩
  | lockedPositional s hf hp hs ht => exact ⟨List.Sublist.refl _, .inr fun i _ => rfl⟩
  | closeRemainder s hf hp hs ht => exact ⟨List.Sublist.refl _, .inr fun i _ => rfl⟩
  | separator hu hoff ht hn => exact ⟨List.Sublist.refl _, .inr fun i _ => rfl⟩
  | unknownFlag hu hr hn hl => exact ⟨List.Sublist.refl _, .inr fun i _ => rfl⟩
  | flag j r₁ hu hr hn hl hg =>
    refine ⟨(useGroup_narrowed hg).remaining_sublist, .inr fun i hi => ?_⟩
    have hne : j ≠ i := by
      rintro rfl
      simp [Grammar.isFlag_of_lookupFlag hl] at hi
    have hrec := hm.records_of_ne (by simpa [Step.subject?] using hne)
    exact (Prod.mk.inj hrec).1
  | flagValue s hu hv hf => exact ⟨List.Sublist.refl _, .inr fun i _ => rfl⟩
  | positionalValue s hu hv hf hp => exact ⟨List.Sublist.refl _, .inr fun i _ => rfl⟩
  | extra hv hf hp hr => exact ⟨List.Sublist.refl _, .inr fun i _ => rfl⟩
  | newPositional j rest r₁ hv hf hp hr hg hs =>
    refine ⟨(starts hr hg).1, .inl ⟨j, by rw [hr]; rfl, rfl, hp, (starts hr hg).2, ?_⟩⟩
    simp [occurrencesOf, enterPositional, fillPositional, pushValue, countOccurrence,
      (useGroup_narrowed hg).occurrences]
  | subcommand j rest r₁ set command hv hf hp hr hg hs hsel =>
    refine ⟨(starts hr hg).1, .inl ⟨j, by rw [hr]; rfl, rfl, hp, (starts hr hg).2, ?_⟩⟩
    simp [occurrencesOf, enterSelector, countOccurrence, (useGroup_narrowed hg).occurrences]
  | unknownSubcommand j rest r₁ set hv hf hp hr hg hs hsel =>
    refine ⟨(starts hr hg).1, .inl ⟨j, by rw [hr]; rfl, rfl, hp, (starts hr hg).2, ?_⟩⟩
    simp [occurrencesOf, enterSelector, countOccurrence, (useGroup_narrowed hg).occurrences]

theorem Move.remaining_after (h : Move g abbreviated r token st r') (hc : Coherent g r) :
    ∀ i, (g.argument i).isFlag = false → 0 < r'.occurrencesOf i → ∀ j ∈ r'.remaining, i < j := by
  intro i hi ho j hj
  obtain ⟨hsub, ⟨k, hk, hst, -, htail, -⟩ | hsame⟩ := h.remaining
  · obtain ⟨rest, hr⟩ := List.head?_eq_some_iff.mp hk
    by_cases he : i = k
    · have hmem : j ∈ rest := by
        have := htail.subset hj
        rwa [hr] at this
      exact he ▸ (hc.head hr).2.2 j hmem
    · have hrec := h.records_of_ne (by rw [hst]; exact fun heq => he (Option.some.inj heq).symm)
      exact hc.remaining_after i hi ((Prod.mk.inj hrec).1 ▸ ho) j (hsub.subset hj)
  · exact hc.remaining_after i hi (hsame i hi ▸ ho) j (hsub.subset hj)

theorem Move.started_le (h : Move g abbreviated r token st r') (hc : Coherent g r) :
    ∀ s, r'.openPositional = some s → ∀ i, (g.argument i).isFlag = false →
      0 < r'.occurrencesOf i → i ≤ s.id := by
  intro s hs i hi ho
  have old (s₀ : Slot) (hp : r.openPositional = some s₀) : i ≤ s₀.id := by
    rcases h.remaining.2 with ⟨k, -, -, hnone, -⟩ | hsame
    · cases hnone.symm.trans hp
    · exact hc.started_le s₀ hp i hi (hsame i hi ▸ ho)
  rcases h.openPositional_cases hs with ⟨hp, -⟩ | ⟨s₀, hp, -, rfl, -⟩ |
    ⟨rfl, -, -, -, -, hhead, -⟩
  · exact old s hp
  · exact old s₀ hp
  · by_cases he : i = s.id
    · exact le_of_eq he
    · have hrec := h.records_of_ne fun heq => he (Option.some.inj heq).symm
      have hmem : s.id ∈ r.remaining := List.mem_of_head? hhead
      exact le_of_lt (hc.remaining_after i hi ((Prod.mk.inj hrec).1 ▸ ho) s.id hmem)

theorem Move.idle (h : Move g abbreviated r token st r') (hc : Coherent g r) :
    ∀ i, r'.occurrencesOf i = 0 → r'.consumedBy i = [] := by
  intro i ho
  by_cases hi : st.subject? = some i
  · have := h.subject_started hc hi
    omega
  · obtain ⟨hocc, hcons, -⟩ : r'.occurrencesOf i = r.occurrencesOf i ∧
        r'.consumedBy i = r.consumedBy i ∧ _ := by
      simpa only [records, Prod.mk.injEq] using h.records_of_ne hi
    rw [hcons]
    exact hc.idle i (hocc ▸ ho)

theorem Move.matched (h : Move g abbreviated r token st r') (hc : Coherent g r) :
    (∀ i ∈ r'.matched, (g.argument i).isFlag = true) ∧ r'.matched.Nodup := by
  have keep {r₀ r₁ : Replay} {j : Nat} (hg : r₀.useGroup g j = .ok r₁)
      (hr : r₀.matched = r.matched) :
      (∀ i ∈ r₁.matched, (g.argument i).isFlag = true) ∧ r₁.matched.Nodup := by
    have hn := useGroup_narrowed hg
    refine ⟨fun i hi => ?_, hn.matched_nodup (hr ▸ hc.matched_nodup)⟩
    rcases hn.matched i hi with hi | hf
    · exact hc.matched_isFlag i (hr ▸ hi)
    · exact hf
  have old := And.intro hc.matched_isFlag hc.matched_nodup
  cases h with
  | lockedFlag s hf hs => exact old
  | lockedPositional s hf hp hs ht => exact old
  | closeRemainder s hf hp hs ht => exact old
  | separator hu hoff ht hn => exact old
  | unknownFlag hu hr hn hl => exact old
  | flag j r₁ hu hr hn hl hg =>
    obtain ⟨hf, hnodup⟩ := keep hg rfl
    unfold enterFlag
    dsimp only
    split
    · exact ⟨hf, hnodup⟩
    · refine ⟨fun i hi => ?_, nodup_matchFlag hnodup⟩
      rcases mem_matchFlag.mp hi with hi | rfl
      · exact hf i hi
      · exact Grammar.isFlag_of_lookupFlag hl
  | flagValue s hu hv hf => exact old
  | positionalValue s hu hv hf hp => exact old
  | extra hv hf hp hr => exact old
  | newPositional j rest r₁ hv hf hp hr hg hs =>
    have hk := keep hg rfl
    exact hk
  | subcommand j rest r₁ set command hv hf hp hr hg hs hsel =>
    have hk := keep hg rfl
    exact hk
  | unknownSubcommand j rest r₁ set hv hf hp hr hg hs hsel =>
    have hk := keep hg rfl
    exact hk

/-- Flags stay off, unless an open remainder is closed and no separator was seen. -/
theorem Move.separated (h : Move g abbreviated r token st r') (hc : Coherent g r) :
    r'.separated = true → r'.flagsOff = true := by
  have keep {r₀ r₁ : Replay} {j : Nat} (hg : r₀.useGroup g j = .ok r₁)
      (hs : r₀.separated = r.separated) (hoff : r₀.flagsOff = r.flagsOff)
      (h₁ : r₁.separated = true) : r₁.flagsOff = true := by
    have hn := useGroup_narrowed hg
    rw [hn.flagsOff, hoff]
    exact hc.separated_flagsOff (by rw [← hs, ← hn.separated, h₁])
  intro hs
  cases h with
  | lockedFlag s hf hr => exact hc.separated_flagsOff hs
  | lockedPositional s hf hp hr ht => exact hc.separated_flagsOff hs
  | closeRemainder s hf hp hr ht => exact hs
  | separator hu hoff ht hn => rfl
  | unknownFlag hu hr hn hl => exact hc.separated_flagsOff hs
  | flag j r₁ hu hr hn hl hg =>
    exact Bool.or_eq_true_iff.mpr (.inl (keep hg rfl rfl hs))
  | flagValue s hu hv hf => exact hc.separated_flagsOff hs
  | positionalValue s hu hv hf hp =>
    exact Bool.or_eq_true_iff.mpr (.inl (hc.separated_flagsOff hs))
  | extra hv hf hp hr => exact hc.separated_flagsOff hs
  | newPositional j rest r₁ hv hf hp hr hg hsub =>
    have hoff := keep hg rfl rfl hs
    simp [enterPositional, fillPositional, hoff]
  | subcommand j rest r₁ set command hv hf hp hr hg hsub hsel =>
    have hk := keep hg rfl rfl hs
    exact hk
  | unknownSubcommand j rest r₁ set hv hf hp hr hg hsub hsel =>
    have hk := keep hg rfl rfl hs
    exact hk

/-- Only closing a remainder reads flags again, and then no remainder is open. -/
theorem Move.flagsOff_mono (h : Move g abbreviated r token st r') (hoff : r.flagsOff = true) :
    r'.flagsOff = true ∨ (r'.openFlag.filter (·.remainder) = none ∧ r'.openPositional = none ∧
      r'.flagsOff = r'.separated) := by
  cases h with
  | lockedFlag s hf hr => exact .inl hoff
  | lockedPositional s hf hp hr ht => exact .inl hoff
  | closeRemainder s hf hp hr ht => exact .inr ⟨hf, rfl, rfl⟩
  | separator hu hoff' ht hn => exact .inl rfl
  | unknownFlag hu hr hn hl => exact .inl hoff
  | flag j r₁ hu hr hn hl hg => cases hr.1 ▸ hoff
  | flagValue s hu hv hf => exact .inl hoff
  | positionalValue s hu hv hf hp => exact .inl (by simp [fillPositional, hoff])
  | extra hv hf hp hr => exact .inl hoff
  | newPositional j rest r₁ hv hf hp hr hg hsub =>
    have hn := (useGroup_narrowed hg).flagsOff
    exact .inl (by simp [enterPositional, fillPositional, hn, hoff])
  | subcommand j rest r₁ set command hv hf hp hr hg hsub hsel =>
    exact .inl ((useGroup_narrowed hg).flagsOff.trans hoff)
  | unknownSubcommand j rest r₁ set hv hf hp hr hg hsub hsel =>
    exact .inl ((useGroup_narrowed hg).flagsOff.trans hoff)

theorem Move.lockedFlag_flagsOff (h : Move g abbreviated r token st r') (hc : Coherent g r) :
    ∀ s, r'.openFlag = some s → s.remainder = true → r'.flagsOff = true := by
  intro s hs hr
  have old {s₀ : Slot} (hf : r.openFlag = some s₀) (hr₀ : s₀.remainder = true) :
      r'.flagsOff = true := by
    rcases h.flagsOff_mono (hc.lockedFlag_flagsOff s₀ hf hr₀) with hoff | ⟨hnone, -, -⟩
    · exact hoff
    · simp [hs, hr] at hnone
  rcases h.openFlag_cases hs with ⟨hf, -⟩ | ⟨s₀, hf, -, rfl, -⟩ | ⟨-, -, -, hoff⟩
  · exact old hf hr
  · exact old hf hr
  · rw [hoff, hr]

theorem Move.lockedPositional_flagsOff (h : Move g abbreviated r token st r')
    (hc : Coherent g r) :
    ∀ s, r'.openPositional = some s → s.remainder = true → r'.flagsOff = true := by
  intro s hs hr
  have old {s₀ : Slot} (hp : r.openPositional = some s₀) (hr₀ : s₀.remainder = true) :
      r'.flagsOff = true := by
    rcases h.flagsOff_mono (hc.lockedPositional_flagsOff s₀ hp hr₀) with hoff | ⟨-, hnone, -⟩
    · exact hoff
    · cases hs.symm.trans hnone
  rcases h.openPositional_cases hs with ⟨hp, -⟩ | ⟨s₀, hp, -, rfl, -⟩ |
    ⟨-, -, -, -, -, -, hoff⟩
  · exact old hp hr
  · exact old hp hr
  · exact hoff hr

theorem coherent_start (g : Grammar) : Coherent g (.start g) where
  openFlag s hs := by cases hs
  openPositional s hs := by cases hs
  remaining_sublist := List.Sublist.refl _
  remaining_after i _ ho := by cases ho
  started_le s hs := by cases hs
  idle i _ := rfl
  matched_isFlag i hi := by cases hi
  matched_nodup := List.nodup_nil
  separated_flagsOff hs := by cases hs
  lockedFlag_flagsOff s hs := by cases hs
  lockedPositional_flagsOff s hs := by cases hs

theorem Coherent.move (hc : Coherent g r) (h : Move g abbreviated r token st r') :
    Coherent g r' where
  openFlag := h.openFlag hc
  openPositional := h.openPositional hc
  remaining_sublist := h.remaining.1.trans hc.remaining_sublist
  remaining_after := h.remaining_after hc
  started_le := h.started_le hc
  idle := h.idle hc
  matched_isFlag := (h.matched hc).1
  matched_nodup := (h.matched hc).2
  separated_flagsOff := h.separated hc
  lockedFlag_flagsOff := h.lockedFlag_flagsOff hc
  lockedPositional_flagsOff := h.lockedPositional_flagsOff hc

/-- A lock on flags stays explained as long as no selector is given its token: a separator and a
remainder stay, and the remainder that is next in line takes the next token. -/
theorem Move.lockExplained (h : Move g abbreviated r token st r')
    (hl : r.flagsOff = true → LockExplained g r) (hst : st.selects = false)
    (hoff : r'.flagsOff = true) : LockExplained g r' := by
  cases h with
  | lockedFlag s hf hs => exact .inr (.inl ⟨s.next, rfl, hs⟩)
  | lockedPositional s hf hp hs ht => exact .inr (.inr (.inl ⟨s.next, rfl, hs⟩))
  | closeRemainder s hf hp hs ht => exact .inl hoff
  | separator hu hoff' ht hn => exact .inl rfl
  | unknownFlag hu hr hn hlk => cases hr.1 ▸ hoff
  | flag j r₁ hu hr hn hlk hg =>
    have hrem : (g.argument j).isRemainder = true := by
      have hoff₁ := (useGroup_narrowed hg).flagsOff
      simp only [enterFlag, hoff₁, hr.1, Bool.false_or] at hoff
      exact (Bool.and_eq_true_iff.mp hoff).2
    have hx := Argument.maxArgs_ne_zero_of_isRemainder hrem
    exact .inr (.inl ⟨.new g j, by simp [enterFlag, hx], hrem⟩)
  | flagValue s hu hv hf =>
    -- no remainder is open, so of all reasons only the separator is left
    obtain ⟨hlf, hlp⟩ := unlocked_iff.mp hu
    rcases hl hoff with hsep | ⟨s', hs', hr⟩ | ⟨s', hs', hr⟩ | ⟨hnone, -, -⟩
    · exact .inl hsep
    · cases hr ▸ hlf s' hs'
    · cases hr ▸ hlp s' hs'
    · cases hf ▸ hnone
  | positionalValue s hu hv hf hp =>
    obtain ⟨-, hlp⟩ := unlocked_iff.mp hu
    rcases Bool.or_eq_true_iff.mp hoff with hoff | hnext
    · rcases hl hoff with hsep | ⟨s', hs', hr⟩ | ⟨s', hs', hr⟩ | ⟨-, hnone, -⟩
      · exact .inl hsep
      · cases hf ▸ hs'
      · cases hr ▸ hlp s' hs'
      · cases hp ▸ hnone
    · obtain ⟨hfull, hnext⟩ := Bool.and_eq_true_iff.mp hnext
      exact .inr (.inr (.inr ⟨hf, by simp [fillPositional, hfull], hnext⟩))
  | extra hv hf hp hr => exact hl hoff
  | newPositional j rest r₁ hv hf hp hr hg hs =>
    have hn := useGroup_narrowed hg
    -- a remainder is open from its first value on; the lock that it had as next in line is gone
    by_cases hrem : (g.argument j).isRemainder = true
    · have hx := Argument.maxArgs_of_isRemainder hrem hs
      have hfull : (Slot.new g j).next.isFull = false := by
        simp [Slot.isFull, Slot.next, Slot.new, hx]
      refine .inr (.inr (.inl ⟨(Slot.new g j).next, ?_, hrem⟩))
      simp [enterPositional, fillPositional, hfull]
    · have hrem : (g.argument j).isRemainder = false := by simpa using hrem
      simp only [enterPositional, fillPositional, hn.flagsOff, hrem, Bool.or_false] at hoff
      rcases Bool.or_eq_true_iff.mp hoff with hoff | hnext
      · rcases hl hoff with hsep | ⟨s', hs', -⟩ | ⟨s', hs', -⟩ | ⟨-, -, hnext⟩
        · exact .inl (hn.separated.trans hsep)
        · cases hf ▸ hs'
        · cases hp ▸ hs'
        · simp [remainderNext, hr, hrem] at hnext
      · obtain ⟨hfull, hnext⟩ := Bool.and_eq_true_iff.mp hnext
        refine .inr (.inr (.inr ⟨hn.openFlag.trans hf, ?_, hnext⟩))
        simp [enterPositional, fillPositional, hfull]
  | subcommand j rest r₁ set command hv hf hp hr hg hs hsel => cases hst
  | unknownSubcommand j rest r₁ set hv hf hp hr hg hs hsel => cases hst

theorem Coherent.of_run {tokens : List String} {t : Trace} (hc : Coherent g r)
    (h : r.run g abbreviated tokens = .ok (t, r')) : Coherent g r' :=
  run_induction (fun _ r => Coherent g r) [] (fun hc hm => hc.move hm) hc h

/-- The invariant of every run. While no selector has been given its token, a lock on flags is
explained. -/
theorem coherent_of_run {tokens : List String} {t : Trace}
    (h : (start g).run g abbreviated tokens = .ok (t, r)) (ht : ∀ e ∈ t, e.2.selects = false) :
    Coherent g r ∧ (r.flagsOff = true → LockExplained g r) := by
  refine ⟨(coherent_start g).of_run h, ?_⟩
  have hlock : (∀ e ∈ [] ++ t, e.2.selects = false) → r.flagsOff = true → LockExplained g r := by
    refine run_induction (fun t r => (∀ e ∈ t, e.2.selects = false) →
      r.flagsOff = true → LockExplained g r) [] ?_ ?_ h
    · intro t r token st r' ih hm ht
      have hl := ih fun e he => ht e (List.mem_append_left _ he)
      have hst : st.selects = false := ht (token, st) (by simp)
      exact hm.lockExplained hl hst
    · intro _ hoff
      cases hoff
  exact hlock ht

/-- The program is full and the remainder that is next in line has locked flags. -/
theorem coherent_of_run_runner : ∃ t r,
    (start Sample.runner.grammar).run Sample.runner.grammar true ["-e", "K", "V", "python"] =
      .ok (t, r) ∧
    (∀ e ∈ t, e.2.selects = false) ∧ r.flagsOff = true ∧
    Coherent Sample.runner.grammar r ∧
    (r.flagsOff = true → LockExplained Sample.runner.grammar r) := by
  obtain ⟨⟨t, r⟩, h, ht⟩ := map_eq_ok.mp (show ((start Sample.runner.grammar).run
    Sample.runner.grammar true ["-e", "K", "V", "python"]).map
      (fun x => (x.1.any (·.2.selects), x.2.flagsOff)) = .ok (false, true) from rfl)
  obtain ⟨ht, hoff⟩ := Prod.mk.inj ht
  have hsel : ∀ e ∈ t, e.2.selects = false := by simpa using ht
  exact ⟨t, r, h, hsel, hoff, coherent_of_run h hsel⟩

end Tabwise.Replay
