import Tabwise.Proofs.Replay.Order

/-! # Who uses a group

An argument is looked up in the first group that lists it. A replay writes down one used member
for each group and takes the other members of the group of a used argument out of the line. What
is matched and what is dropped can be read off the occurrences, and a use fails only for a member
that was taken out.
-/

namespace Tabwise

namespace Grammar

variable {g : Grammar} {user id : Nat}

/-- Whether an argument is another member of the group of `user`. -/
def rivals (g : Grammar) (user id : Nat) : Bool :=
  id ≠ user && (g.groups.find? (·.contains user)).any (·.contains id)

theorem rivals_iff : g.rivals user id = true ↔ id ≠ user ∧
    ∃ k group, g.groupIndex? user = some k ∧ g.groups[k]? = some group ∧ id ∈ group := by
  rw [rivals, List.find?_eq_bind_findIdx?_getElem?, ← groupIndex?]
  cases g.groupIndex? user with
  | none => simp
  | some k => simp [Option.any_eq_true]

end Grammar

namespace Replay

variable {g : Grammar} {abbreviated : Bool} {r r' : Replay} {token : String} {id i k : Nat}
  {st : Step} {t : Trace}

/-- The argument is another member of the group of an argument that was used. -/
def Excluded (g : Grammar) (r : Replay) (i : Nat) : Prop :=
  ∃ user, 0 < r.occurrencesOf user ∧ g.rivals user i = true

/-- What the groups have taken out is what the used arguments exclude. -/
structure Grouped (g : Grammar) (r : Replay) : Prop where
  /-- The used member of a group is what was used of those looked up in it. -/
  used : ∀ k i, r.used.find? k = some i ↔ g.groupIndex? i = some k ∧ 0 < r.occurrencesOf i
  matched : ∀ i, (g.argument i).isFlag = true → (i ∈ r.matched ↔
    (0 < r.occurrencesOf i ∧ (g.argument i).action.isRepeatable = false) ∨ Excluded g r i)
  waiting : ∀ i ∈ r.remaining, ¬Excluded g r i

/-- What a use of an argument changes. -/
structure Claimed (g : Grammar) (r : Replay) (id : Nat) (r' : Replay) : Prop where
  used : ∀ k i, r'.used.find? k = some i ↔
    r.used.find? k = some i ∨ (i = id ∧ g.groupIndex? id = some k)
  matched : ∀ i, (g.argument i).isFlag = true →
    (i ∈ r'.matched ↔ i ∈ r.matched ∨ g.rivals id i = true)
  waiting : ∀ i ∈ r'.remaining, i ∈ r.remaining ∧
    ((g.argument i).isFlag = false → ¬g.rivals id i = true)

theorem claimed_excludeOthers {group : List Nat} (hk : g.groupIndex? id = some k)
    (hgroup : g.groups[k]? = some group) (hu : r.used.find? k = none) :
    Claimed g r id (excludeOthers g id { r with used := r.used.insert k id } group) := by
  have hrivals (i : Nat) : g.rivals id i = true ↔ i ≠ id ∧ i ∈ group := by
    rw [Grammar.rivals_iff]
    simp [hk, hgroup]
  refine ⟨fun k' i => ?_, fun i hf => ?_, fun i hi => ?_⟩
  · rw [excludeOthers_eq]
    by_cases he : k' = k
    · subst he
      simp [hk, hu, eq_comm]
    · simp [he, hk, Ne.symm he]
  · rw [mem_excludeOthers_matched, hrivals]
    simp [hf, and_comm]
  · rw [excludeOthers_remaining, List.mem_filter] at hi
    obtain ⟨hi, hout⟩ := hi
    refine ⟨hi, fun hf hr => ?_⟩
    obtain ⟨hne, hmem⟩ := (hrivals i).mp hr
    simp [hf, hne, hmem] at hout

theorem Grouped.claimed (h : Grouped g r) (hg : r.useGroup g id = .ok r') :
    Claimed g r id r' := by
  rcases useGroup_eq_ok.mp hg with ⟨hk, rfl⟩ | ⟨k, hk, hu, rfl⟩ | ⟨k, group, hk, hgroup, hu, rfl⟩
  · have hrivals (i : Nat) : g.rivals id i = false := by
      by_contra hr
      obtain ⟨-, k, -, hk', -⟩ := Grammar.rivals_iff.mp (by simpa using hr)
      cases hk.symm.trans hk'
    exact ⟨by simp [hk], by simp [hrivals], by simp [hrivals]⟩
  · have ho := ((h.used k id).mp hu).2
    refine ⟨fun k' i => ⟨.inl, ?_⟩, fun i hf => ⟨.inl, ?_⟩, fun i hi => ⟨hi, fun _ hr => ?_⟩⟩
    · rintro (hfind | ⟨rfl, hk'⟩)
      · exact hfind
      · cases hk.symm.trans hk'
        exact hu
    · rintro (hmem | hr)
      · exact hmem
      · exact (h.matched i hf).mpr (.inr ⟨id, ho, hr⟩)
    · exact h.waiting i hi ⟨id, ho, hr⟩
  · exact claimed_excludeOthers hk hgroup hu

/-- A use succeeds unless the group has taken the argument out. -/
theorem Grouped.useGroup (h : Grouped g r) (hx : ¬Excluded g r id) :
    ∃ r', r.useGroup g id = .ok r' := by
  simp only [useGroup_eq_ok]
  cases hk : g.groupIndex? id with
  | none => exact ⟨r, .inl ⟨rfl, rfl⟩⟩
  | some k =>
    obtain ⟨group, hgroup, hmem⟩ := Grammar.mem_of_groupIndex? hk
    cases hu : r.used.find? k with
    | none => exact ⟨_, .inr (.inr ⟨k, group, rfl, hgroup, hu, rfl⟩)⟩
    | some other =>
      obtain ⟨hother, ho⟩ := (h.used k other).mp hu
      by_cases he : other = id
      · exact ⟨r, .inr (.inl ⟨k, rfl, he ▸ hu, rfl⟩)⟩
      · refine absurd ⟨other, ho, ?_⟩ hx
        exact Grammar.rivals_iff.mpr ⟨Ne.symm he, k, group, hother, hgroup, hmem⟩

theorem grouped_start (g : Grammar) : Grouped g (start g) where
  used k i := by simp [start, occurrencesOf]
  matched i _ := by simp [start, occurrencesOf, Excluded]
  waiting i _ := by simp [start, occurrencesOf, Excluded]

theorem Grouped.of_eq (h : Grouped g r) (hu : r'.used = r.used) (hm : r'.matched = r.matched)
    (ho : r'.occurrences = r.occurrences) (hw : ∀ i ∈ r'.remaining, i ∈ r.remaining) :
    Grouped g r' := by
  have hocc (i : Nat) : r'.occurrencesOf i = r.occurrencesOf i := by
    rw [occurrencesOf, ho, ← occurrencesOf]
  have hx (i : Nat) : Excluded g r' i ↔ Excluded g r i := by simp only [Excluded, hocc]
  refine ⟨fun k i => ?_, fun i hf => ?_, fun i hi => ?_⟩
  · rw [hu, hocc]
    exact h.used k i
  · rw [hm, hocc, hx]
    exact h.matched i hf
  · rw [hx]
    exact h.waiting i (hw i hi)

theorem occurrencesOf_of_update (ho : r'.occurrences = r.occurrences.update id 0 (· + 1)) (i : Nat) :
    r'.occurrencesOf i = if i = id then r.occurrencesOf i + 1 else r.occurrencesOf i := by
  rw [occurrencesOf, ho, InsertionMap.findD_update]
  by_cases he : i = id
  · rw [if_pos he, if_pos he, he]
    rfl
  · rw [if_neg he, if_neg he]
    rfl

/-- Using one more argument keeps what the groups say: its rivals are out, and a flag that cannot
be repeated is matched itself. -/
theorem Grouped.enter {r₁ : Replay} (h : Grouped g r) (hg : r.useGroup g id = .ok r₁)
    (hu : r'.used = r₁.used) (hw : r'.remaining = r₁.remaining)
    (ho : r'.occurrences = r.occurrences.update id 0 (· + 1))
    (hm : ∀ i, (g.argument i).isFlag = true → (i ∈ r'.matched ↔
      i ∈ r₁.matched ∨ (i = id ∧ (g.argument i).action.isRepeatable = false)))
    (hp : ∀ i ∈ r.remaining, (g.argument i).isFlag = false) : Grouped g r' := by
  have hc := h.claimed hg
  have hpos (i : Nat) : 0 < r'.occurrencesOf i ↔ 0 < r.occurrencesOf i ∨ i = id := by
    rw [occurrencesOf_of_update ho]
    by_cases he : i = id <;> simp [he]
  have hx (i : Nat) : Excluded g r' i ↔ Excluded g r i ∨ g.rivals id i = true := by
    simp only [Excluded, hpos, or_and_right, exists_or, exists_eq_left]
  refine ⟨fun k i => ?_, fun i hf => ?_, fun i hi => ?_⟩
  · rw [hu, hc.used, h.used, hpos, and_or_left]
    refine or_congr_right ⟨?_, ?_⟩
    · rintro ⟨rfl, hk⟩
      exact ⟨hk, rfl⟩
    · rintro ⟨hk, rfl⟩
      exact ⟨rfl, hk⟩
  · rw [hm i hf, hc.matched i hf, h.matched i hf, hpos, hx]
    tauto
  · rw [hw] at hi
    obtain ⟨hi, hout⟩ := hc.waiting i hi
    rw [hx, not_or]
    exact ⟨h.waiting i hi, hout (hp i hi)⟩

theorem mem_enterFlag_matched : i ∈ (r.enterFlag g id).matched ↔
    i ∈ r.matched ∨ (i = id ∧ (g.argument i).action.isRepeatable = false) := by
  unfold enterFlag
  dsimp only
  cases hrep : (g.argument id).action.isRepeatable with
  | true =>
    rw [if_pos rfl]
    refine ⟨.inl, fun hi => hi.elim (fun h => h) ?_⟩
    rintro ⟨rfl, hno⟩
    simp [hrep] at hno
  | false =>
    rw [if_neg Bool.false_ne_true, mem_matchFlag]
    refine or_congr_right ⟨?_, And.left⟩
    rintro rfl
    exact ⟨rfl, hrep⟩

theorem Grouped.move (h : Grouped g r) (hc : Coherent g r)
    (hm : Move g abbreviated r token st r') : Grouped g r' := by
  have hline : ∀ i ∈ r.remaining, (g.argument i).isFlag = false := fun i hi =>
    (Grammar.mem_positionals.mp (hc.remaining_sublist.subset hi)).2
  have same {r' : Replay} (hu : r'.used = r.used) (hm : r'.matched = r.matched)
      (ho : r'.occurrences = r.occurrences) (hw : r'.remaining = r.remaining) : Grouped g r' :=
    h.of_eq hu hm ho fun i hi => hw ▸ hi
  -- the next positional leaves the line before its group is used
  have head {id : Nat} {rest : List Nat} {r₁ r' : Replay} (hr : r.remaining = id :: rest)
      (hg : { r with remaining := rest }.useGroup g id = .ok r₁) (hu : r'.used = r₁.used)
      (hw : r'.remaining = r₁.remaining) (hmat : r'.matched = r₁.matched)
      (ho : r'.occurrences = r₁.occurrences.update id 0 (· + 1)) : Grouped g r' := by
    have hsub : ∀ i ∈ rest, i ∈ r.remaining := fun i hi => hr ▸ List.mem_cons_of_mem id hi
    have h₀ : Grouped g { r with remaining := rest } := h.of_eq rfl rfl rfl hsub
    refine h₀.enter hg hu hw ?_ (fun i hf => ?_) fun i hi => hline i (hsub i hi)
    · rw [ho, (useGroup_narrowed hg).occurrences]
    · have hne : i ≠ id := by
        rintro rfl
        simp [hline i (by simp [hr])] at hf
      simp [hmat, hne]
  cases hm with
  | lockedFlag s hf hs => exact same rfl rfl rfl rfl
  | lockedPositional s hf hp hs ht => exact same rfl rfl rfl rfl
  | closeRemainder s hf hp hs ht => exact same rfl rfl rfl rfl
  | separator hu hoff ht hn => exact same rfl rfl rfl rfl
  | unknownFlag hu hr hn hl => exact same rfl rfl rfl rfl
  | flag j r₁ hu hr hn hl hg =>
    have h₀ : Grouped g { r with openFlag := none } := same rfl rfl rfl rfl
    refine h₀.enter hg rfl rfl ?_ (fun i _ => mem_enterFlag_matched) hline
    exact congrArg (·.update j 0 (· + 1)) (useGroup_narrowed hg).occurrences
  | flagValue s hu hv hf => exact same rfl rfl rfl rfl
  | positionalValue s hu hv hf hp => exact same rfl rfl rfl rfl
  | extra hv hf hp hr => exact h
  | newPositional j rest r₁ hv hf hp hr hg hs => exact head hr hg rfl rfl rfl rfl
  | subcommand j rest r₁ set command hv hf hp hr hg hs hsel => exact head hr hg rfl rfl rfl rfl
  | unknownSubcommand j rest r₁ set hv hf hp hr hg hs hsel => exact head hr hg rfl rfl rfl rfl

/-- Every run keeps what the groups say. -/
theorem run_grouped {tokens : List String}
    (h : (start g).run g abbreviated tokens = .ok (t, r)) : Grouped g r :=
  run_recorded_induction (fun _ r => Grouped g r) (fun hc _ hg hm => hg.move hc hm)
    (grouped_start g) h

theorem Grouped.user_unique {j : Nat} (h : Grouped g r) (hi : g.groupIndex? i = some k)
    (hj : g.groupIndex? j = some k) (hoi : 0 < r.occurrencesOf i) (hoj : 0 < r.occurrencesOf j) :
    i = j := by
  have hfi := (h.used k i).mpr ⟨hi, hoi⟩
  have hfj := (h.used k j).mpr ⟨hj, hoj⟩
  exact Option.some.inj (hfi.symm.trans hfj)

end Replay

end Tabwise
