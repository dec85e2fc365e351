import Tabwise.Proofs.Grammar.Valid
import Tabwise.Proofs.Replay.Record

/-! # How many values a run collects

An argument ends when it is full, when another flag, a separator or a subcommand comes, or with
the line. It never has more values than it takes, and where it ends inside of the line it has as
many as it needs. So every past occurrence of a flag is complete, and at the end of the line it
is enough to look at what is still open.
-/

namespace Tabwise

namespace Argument

variable {a : Argument} {k m n : Nat}

/-- So many values can come from so many occurrences. -/
def Admits (a : Argument) (times n : Nat) : Prop :=
  times * a.minArgs ≤ n ∧ ∀ m, a.maxArgs = some m → n ≤ times * m

theorem admits_one : a.Admits 1 n ↔ a.minArgs ≤ n ∧ ∀ m, a.maxArgs = some m → n ≤ m := by
  simp [Admits]

theorem admits_zero (a : Argument) : a.Admits 0 0 := by simp [Admits]

theorem Admits.add (hn : a.Admits k n) (hm : a.Admits 1 m) : a.Admits (k + 1) (n + m) := by
  obtain ⟨hmin, hmax⟩ := admits_one.mp hm
  refine ⟨?_, fun b hb => ?_⟩
  · rw [Nat.succ_mul]
    exact Nat.add_le_add hn.1 hmin
  · rw [Nat.succ_mul]
    exact Nat.add_le_add (hn.2 b hb) (hmax b hb)

theorem admits_of_minArgs_zero (times : Nat) (h : a.minArgs = 0) : a.Admits times 0 := by
  simp [Admits, h]

end Argument

namespace Replay

variable {g : Grammar} {abbreviated : Bool} {r r' : Replay} {token : String} {i : Nat}
  {st : Step} {t : Trace} {s : Slot}

theorem unfinishedFlag?_eq_none :
    r.unfinishedFlag? = none ↔ ∀ s, r.openFlag = some s → s.isUnfinished = false := by
  simp [unfinishedFlag?, Option.filter_eq_none_iff]

theorem Tracks.admits (h : Tracks g r s) (hs : s.isUnfinished = false) :
    (g.argument s.id).Admits 1 (r.consumedBy s.id).length := by
  rw [Argument.admits_one, ← h.min_eq, ← h.max_eq, ← h.count_eq]
  refine ⟨by simpa [Slot.isUnfinished] using hs, fun m hm => ?_⟩
  have hfull := h.not_full
  simp only [Slot.isFull, hm, Option.any_some, decide_eq_false_iff_not] at hfull
  omega

theorem Tracks.isUnfinished_of_remainder (h : Tracks g r s) (hr : s.remainder = true)
    (hs : (g.argument s.id).subcommands? = none) : s.isUnfinished = false := by
  have hmin : (g.argument s.id).minArgs = 0 := by
    have hrem : (g.argument s.id).isRemainder = true := h.remainder_eq ▸ hr
    have ha : (g.argument s.id).arity = .remainder := by
      simp only [Argument.isRemainder, Bool.and_eq_true, decide_eq_true_eq] at hrem
      exact hrem.2
    unfold Argument.minArgs
    split
    · next set hk => simp [Argument.subcommands?, hk] at hs
    · simp [ha, Arity.min]
  simp [Slot.isUnfinished, h.min_eq, hmin]

/-- One value more than an argument with room has is enough if it fills the argument. -/
theorem admits_of_next_isFull {n : Nat} (hv : (g.argument s.id).Checked)
    (hmax : s.max = (g.argument s.id).maxArgs)
    (hroom : s.isFull = false) (hfull : s.next.isFull = true) (hn : n = s.count + 1) :
    (g.argument s.id).Admits 1 n := by
  cases hm : s.max with
  | none => simp [Slot.isFull, Slot.next, hm] at hfull
  | some m =>
    have hle : (g.argument s.id).minArgs ≤ m := hv.min_le_max (hmax ▸ hm)
    simp only [Slot.isFull, Slot.next, hm, Option.any_some, decide_eq_true_eq,
      decide_eq_false_iff_not] at hroom hfull
    rw [Argument.admits_one, ← hmax, hm]
    refine ⟨by omega, fun m' hm' => ?_⟩
    cases hm'
    omega

theorem Move.ends (h : Move g abbreviated r token st r') (hc : Coherent g r)
    (hi : st.subject? ≠ some i) (ho : r.IsOpen i) (hn : ¬r'.IsOpen i) :
    (g.argument i).Admits 1 (r.consumedBy i).length := by
  rcases ho with ⟨s, hs, rfl⟩ | ⟨s, hs, rfl⟩
  · obtain ⟨ht, -⟩ := hc.openFlag s hs
    rcases h.openFlag_next hs with hs' | rfl | hf
    · exact absurd (.inl ⟨s, hs', rfl⟩) hn
    · exact absurd rfl hi
    · exact ht.admits (unfinishedFlag?_eq_none.mp hf s hs)
  · obtain ⟨ht, hk⟩ := hc.openPositional s hs
    rcases h.openPositional_next hs with hs' | rfl | hr
    · exact absurd (.inr ⟨s, hs', rfl⟩) hn
    · exact absurd rfl hi
    · have hsub := Argument.subcommands?_of_kind_positional hk
      exact ht.admits (ht.isUnfinished_of_remainder hr hsub)

theorem Move.fills (h : Move g abbreviated r token (.value i) r') (hc : Coherent g r)
    (hv : g.Valid) (hn : ¬r'.IsOpen i) :
    (g.argument i).Admits 1 (r'.consumedBy i).length := by
  have hcons := h.records_value.1
  have track {s : Slot} (hs : Tracks g r s) (hfull : s.next.isFull = true) (he : s.id = i) :
      (g.argument i).Admits 1 (r'.consumedBy i).length := by
    subst he
    refine admits_of_next_isFull (hv.argument s.id) hs.max_eq hs.not_full hfull ?_
    rw [hcons, List.length_append, ← hs.count_eq, List.length_singleton]
  cases h with
  | lockedFlag s hf hr => exact absurd (.inl ⟨s.next, rfl, rfl⟩) hn
  | lockedPositional s hf hp hr ht => exact absurd (.inr ⟨s.next, rfl, rfl⟩) hn
  | flagValue s hu hread hf =>
    cases hfull : s.next.isFull with
    | true => exact track (hc.openFlag s hf).1 hfull rfl
    | false => exact absurd (.inl ⟨s.next, by simp [fillFlag, hfull], rfl⟩) hn
  | positionalValue s hu hread hf hp =>
    cases hfull : s.next.isFull with
    | true => exact track (hc.openPositional s hp).1 hfull rfl
    | false => exact absurd (.inr ⟨s.next, by simp [fillPositional, hfull], rfl⟩) hn
  | newPositional i rest r₁ hread hf hp hr hg hsub =>
    obtain ⟨hk, ho, -⟩ := hc.head hr
    have hpos := Argument.kind_eq_positional hk hsub
    cases hfull : (Slot.new g i).next.isFull with
    | false =>
      refine absurd (.inr ⟨(Slot.new g i).next, ?_, rfl⟩) hn
      simp [enterPositional, fillPositional, hfull]
    | true =>
      have hroom := isFull_new ((hv.argument i).maxArgs_ne_zero hpos)
      refine admits_of_next_isFull (s := Slot.new g i) (hv.argument i) rfl hroom hfull ?_
      rw [hcons, hc.idle i ho]
      rfl

/-- The values that a flag or a positional has collected so far. -/
structure Satisfied (g : Grammar) (t : Trace) (r : Replay) (i : Nat) : Prop where
  closed : 0 < r.occurrencesOf i → ¬r.IsOpen i →
    (g.argument i).Admits 1 (r.consumedBy i).length
  /-- All occurrences of a flag but the current one are complete. -/
  past : (g.argument i).isFlag = true → 0 < r.occurrencesOf i → ∃ n,
    (t.valuesOf i).length = n + (r.consumedBy i).length ∧
      (g.argument i).Admits (r.occurrencesOf i - 1) n

theorem Satisfied.current (hs : Satisfied g t r i) (hc : Coherent g r)
    (ho : 0 < r.occurrencesOf i)
    (hf : ∀ s, r.openFlag = some s → s.id = i → s.isUnfinished = false)
    (hp : ∀ s, r.openPositional = some s → s.id = i → s.isUnfinished = false) :
    (g.argument i).Admits 1 (r.consumedBy i).length := by
  by_cases hopen : r.IsOpen i
  · rcases hopen with ⟨s, h, rfl⟩ | ⟨s, h, rfl⟩
    · exact (hc.openFlag s h).1.admits (hf s h rfl)
    · exact (hc.openPositional s h).1.admits (hp s h rfl)
  · exact hs.closed ho hopen

/-- All values of a flag are as many as its occurrences admit. -/
theorem Satisfied.total (hs : Satisfied g t r i) (hi : (g.argument i).isFlag = true)
    (ho : 0 < r.occurrencesOf i)
    (hcur : (g.argument i).Admits 1 (r.consumedBy i).length) :
    (g.argument i).Admits (r.occurrencesOf i) (t.valuesOf i).length := by
  obtain ⟨n, hn, hpast⟩ := hs.past hi ho
  have hadd := hpast.add hcur
  rwa [Nat.sub_add_cancel ho, ← hn] at hadd

theorem Satisfied.of_ne (hs : Satisfied g t r i) (hm : Move g abbreviated r token st r')
    (hc : Coherent g r) (hi : st.subject? ≠ some i) :
    Satisfied g (t ++ [(token, st)]) r' i := by
  obtain ⟨ho, hcons, -⟩ : r'.occurrencesOf i = r.occurrencesOf i ∧
      r'.consumedBy i = r.consumedBy i ∧ _ := by
    simpa only [records, Prod.mk.injEq] using hm.records_of_ne hi
  have hvals := (Trace.concat_of_ne t token hi).2.1
  refine ⟨fun hpos hn => ?_, fun hf hpos => ?_⟩
  · rw [hcons]
    by_cases hopen : r.IsOpen i
    · exact hm.ends hc hi hopen hn
    · exact hs.closed (ho ▸ hpos) hopen
  · rw [hvals, hcons, ho]
    exact hs.past hf (ho ▸ hpos)

theorem Satisfied.flag (hs : Satisfied g t r i) (hr : Recorded g t r i) (hc : Coherent g r)
    (hv : g.Valid) (hm : Move g abbreviated r token (.flag i) r') :
    Satisfied g (t ++ [(token, .flag i)]) r' i := by
  have hi := hm.isFlag
  obtain ⟨ho, hcons, -⟩ : r'.occurrencesOf i = r.occurrencesOf i + 1 ∧
      r'.consumedBy i = [] ∧ _ := by
    simpa only [records, Prod.mk.injEq] using hm.records_flag
  refine ⟨fun _ hn => ?_, fun _ _ => ⟨(t.valuesOf i).length, ?_, ?_⟩⟩
  · have hmin : (g.argument i).minArgs = 0 := by
      have hle := (hv.argument i).min_le_max (m := 0)
      refine Nat.le_zero.mp (hle ?_)
      by_contra hx
      cases hm with
      | flag i r₁ hu hread hf hl hg =>
        exact hn (.inl ⟨.new g i, by simp [enterFlag, hx], rfl⟩)
    rw [hcons]
    exact Argument.admits_of_minArgs_zero 1 hmin
  · simp [Step.isValue, hcons]
  · rw [ho, Nat.add_sub_cancel]
    by_cases hpos : 0 < r.occurrencesOf i
    · refine hs.total hi hpos (hs.current hc hpos ?_ ?_)
      · cases hm with
        | flag i r₁ hu hread hf hl hg =>
          exact fun s h _ => unfinishedFlag?_eq_none.mp hf s h
      · rintro s h rfl
        exact absurd rfl (Grammar.flag_ne_positional hi (hc.openPositional s h).2)
    · have hzero : r.occurrencesOf i = 0 := by omega
      rw [hzero, hr.silent hzero]
      exact Argument.admits_zero _

theorem Satisfied.value (hs : Satisfied g t r i) (hc : Coherent g r) (hv : g.Valid)
    (hm : Move g abbreviated r token (.value i) r') :
    Satisfied g (t ++ [(token, .value i)]) r' i := by
  refine ⟨fun _ hn => hm.fills hc hv hn, fun hf _ => ?_⟩
  rcases hm.value_cases hc with ⟨-, hpos, hsame⟩ | ⟨hk, -, -⟩
  · obtain ⟨n, hn, hpast⟩ := hs.past hf hpos
    refine ⟨n, ?_, hsame ▸ hpast⟩
    simp only [Trace.valuesOf_concat, Step.isValue, hm.records_value.1, List.length_append, hn]
    simp [Nat.add_assoc]
  · simp [Argument.isFlag_of_kind_positional hk] at hf

/-- Every move keeps what was collected within its bounds. -/
theorem Satisfied.move (hs : Satisfied g t r i) (hr : Recorded g t r i) (hc : Coherent g r)
    (hv : g.Valid) (hm : Move g abbreviated r token st r')
    (hi : (g.argument i).subcommands? = none) : Satisfied g (t ++ [(token, st)]) r' i := by
  by_cases hst : st.subject? = some i
  · rcases Step.subject?_eq_some.mp hst with rfl | rfl | hsel
    · exact hs.flag hr hc hv hm
    · exact hs.value hc hv hm
    · obtain ⟨⟨set, hk⟩, -⟩ := hm.records_selection hsel
      simp [Argument.subcommands?, hk] at hi
  · exact hs.of_ne hm hc hst

/-- Every run keeps what flags and positionals collect within their bounds. -/
theorem run_satisfied {tokens : List String} (hv : g.Valid)
    (h : (start g).run g abbreviated tokens = .ok (t, r)) :
    ∀ i, (g.argument i).subcommands? = none → Satisfied g t r i := by
  refine run_recorded_induction
    (fun t r => ∀ i, (g.argument i).subcommands? = none → Satisfied g t r i) ?_ ?_ h
  · intro t r token st r' hc hr hs hm i hi
    exact (hs i hi).move (hr i) hc hv hm hi
  · intro i _
    exact ⟨fun ho => absurd ho (by simp [occurrencesOf, start]),
      fun _ ho => absurd ho (by simp [occurrencesOf, start])⟩

end Replay

end Tabwise
