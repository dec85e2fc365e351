import Mathlib.Data.List.Nodup
import Tabwise.Replay.Step

/-! # What using a group changes

Using an argument writes down its group, matches the flags of the group and drops its positionals
that have not started. Everything else is left alone.
-/

namespace Tabwise

namespace Grammar

variable {g : Grammar} {id k : Nat}

/-- The group that an argument is looked up in: the first that lists it. -/
def groupIndex? (g : Grammar) (id : Nat) : Option Nat := g.groups.findIdx? (·.contains id)

theorem mem_of_groupIndex? (h : g.groupIndex? id = some k) :
    ∃ group, g.groups[k]? = some group ∧ id ∈ group := by
  obtain ⟨hlt, hk, -⟩ := List.findIdx?_eq_some_iff_getElem.mp h
  exact ⟨g.groups[k], List.getElem?_eq_getElem hlt, by simpa using hk⟩

end Grammar

namespace Replay

variable {g : Grammar} {r r' : Replay} {id i : Nat} {members : List Nat}

theorem mem_matchFlag : i ∈ (r.matchFlag id).matched ↔ i ∈ r.matched ∨ i = id := by
  by_cases h : r.matched.contains id
  · have hid : id ∈ r.matched := by simpa using h
    simp only [matchFlag, if_pos h]
    exact ⟨.inl, fun hi => hi.elim (fun h' => h') fun he => he ▸ hid⟩
  · simp only [matchFlag, if_neg h, List.mem_append, List.mem_singleton]

theorem nodup_matchFlag (h : r.matched.Nodup) : (r.matchFlag id).matched.Nodup := by
  by_cases hc : r.matched.contains id
  · simpa only [matchFlag, if_pos hc] using h
  · have hid : id ∉ r.matched := by simpa using hc
    simp only [matchFlag, if_neg hc]
    exact List.nodup_append.mpr ⟨h, List.nodup_singleton id, by
      rintro a ha b hb rfl
      exact hid (List.mem_singleton.mp hb ▸ ha)⟩

theorem excludeOthers_eq : excludeOthers g id r members =
    { r with
      matched := (excludeOthers g id r members).matched
      remaining := (excludeOthers g id r members).remaining } := by
  induction members generalizing r with
  | nil => rfl
  | cons m rest ih =>
    rw [excludeOthers, ih]
    split
    · rfl
    · split <;> rfl

theorem excludeOthers_remaining : (excludeOthers g id r members).remaining =
    r.remaining.filter fun i => i = id || (g.argument i).isFlag || !members.contains i := by
  induction members generalizing r with
  | nil => simp [excludeOthers]
  | cons m rest ih =>
    rw [excludeOthers, ih]
    by_cases hm : m = id
    · rw [if_pos hm]
      refine List.filter_congr fun i _ => ?_
      by_cases hi : i = id
      · simp [hi]
      · simp [hi, hm]
    · rw [if_neg hm]
      by_cases hf : (g.argument m).isFlag = true
      · rw [if_pos hf]
        refine List.filter_congr fun i _ => ?_
        by_cases hi : i = m
        · simp [hi, hf]
        · simp [hi]
      · rw [if_neg hf, List.filter_filter]
        refine List.filter_congr fun i _ => ?_
        by_cases hi : i = m
        · simp [hi, hf, hm]
        · simp [hi]

theorem mem_excludeOthers_matched : i ∈ (excludeOthers g id r members).matched ↔
    i ∈ r.matched ∨ i ∈ members ∧ i ≠ id ∧ (g.argument i).isFlag = true := by
  induction members generalizing r with
  | nil => simp [excludeOthers]
  | cons m rest ih =>
    rw [excludeOthers, ih, List.mem_cons]
    by_cases hm : m = id
    · rw [if_pos hm]
      by_cases hi : i = m
      · simp [hi, hm]
      · simp [hi]
    · rw [if_neg hm]
      by_cases hf : (g.argument m).isFlag = true
      · rw [if_pos hf, mem_matchFlag]
        by_cases hi : i = m
        · simp [hi, hm, hf]
        · simp [hi]
      · rw [if_neg hf]
        by_cases hi : i = m
        · simp [hi, hf]
        · simp [hi]

theorem nodup_excludeOthers_matched (h : r.matched.Nodup) :
    (excludeOthers g id r members).matched.Nodup := by
  induction members generalizing r with
  | nil => exact h
  | cons m rest ih =>
    rw [excludeOthers]
    apply ih
    split
    · exact h
    · split
      · exact nodup_matchFlag h
      · exact h

/-- The first use of a group records the member and takes the others out; later uses of the same
member and arguments without a group change nothing. -/
theorem useGroup_eq_ok : r.useGroup g id = .ok r' ↔
    (g.groupIndex? id = none ∧ r' = r) ∨
    (∃ k, g.groupIndex? id = some k ∧ r.used.find? k = some id ∧ r' = r) ∨
    ∃ k group, g.groupIndex? id = some k ∧ g.groups[k]? = some group ∧ r.used.find? k = none ∧
      r' = excludeOthers g id { r with used := r.used.insert k id } group := by
  unfold useGroup
  rw [← Grammar.groupIndex?]
  cases hk : g.groupIndex? id with
  | none => simp [eq_comm]
  | some k =>
    obtain ⟨group, hgroup, -⟩ := Grammar.mem_of_groupIndex? hk
    cases hu : r.used.find? k with
    | none => simp [hu, hgroup, eq_comm]
    | some other =>
      by_cases ho : other = id
      · simp [hu, ho, eq_comm]
      · simp [hu, ho]

/-- What is sure after a use of a group. -/
structure Narrowed (g : Grammar) (r r' : Replay) : Prop where
  openFlag : r'.openFlag = r.openFlag
  openPositional : r'.openPositional = r.openPositional
  flagsOff : r'.flagsOff = r.flagsOff
  separated : r'.separated = r.separated
  consumed : r'.consumed = r.consumed
  values : r'.values = r.values
  occurrences : r'.occurrences = r.occurrences
  remaining_sublist : r'.remaining.Sublist r.remaining
  /-- A positional is dropped only as a member of a group. -/
  dropped : ∀ i ∈ r.remaining, i ∈ r'.remaining ∨
    (g.argument i).isFlag = false ∧ ∃ group ∈ g.groups, i ∈ group
  matched : ∀ i ∈ r'.matched, i ∈ r.matched ∨ (g.argument i).isFlag = true
  matched_nodup : r.matched.Nodup → r'.matched.Nodup

theorem Narrowed.refl (g : Grammar) (r : Replay) : Narrowed g r r :=
  ⟨rfl, rfl, rfl, rfl, rfl, rfl, rfl, List.Sublist.refl _, fun _ hi => .inl hi,
    fun _ hi => .inl hi, fun hn => hn⟩

theorem excludeOthers_narrowed (r : Replay) (id : Nat) (hg : members ∈ g.groups) :
    Narrowed g r (excludeOthers g id r members) := by
  refine ⟨?_, ?_, ?_, ?_, ?_, ?_, ?_, ?_, ?_, ?_, nodup_excludeOthers_matched⟩
  iterate 7 rw [excludeOthers_eq]
  · rw [excludeOthers_remaining]
    exact List.filter_sublist
  · intro i hi
    rw [excludeOthers_remaining, List.mem_filter]
    by_cases hm : i ∈ members
    · cases hf : (g.argument i).isFlag with
      | true => simp [hi]
      | false => exact .inr ⟨rfl, members, hg, hm⟩
    · simp [hi, hm]
  · intro i hi
    rcases mem_excludeOthers_matched.mp hi with hi | ⟨-, -, hf⟩
    · exact .inl hi
    · exact .inr hf

theorem useGroup_narrowed (h : r.useGroup g id = .ok r') : Narrowed g r r' := by
  rcases useGroup_eq_ok.mp h with ⟨-, rfl⟩ | ⟨k, -, -, rfl⟩ | ⟨k, group, -, hg, -, rfl⟩
  · exact Narrowed.refl g r'
  · exact Narrowed.refl g r'
  · have hn := excludeOthers_narrowed { r with used := r.used.insert k id } id
      (List.mem_of_getElem? hg)
    exact ⟨hn.openFlag, hn.openPositional, hn.flagsOff, hn.separated, hn.consumed, hn.values,
      hn.occurrences, hn.remaining_sublist, hn.dropped, hn.matched, hn.matched_nodup⟩

end Replay

end Tabwise
