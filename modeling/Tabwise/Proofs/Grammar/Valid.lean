import Tabwise.Proofs.Grammar.Acceptable
import Tabwise.Proofs.Grammar.Rename

/-! # What an accepted grammar promises

A draft that is accepted has sound bounds, positionals that take values, and groups of arguments
that can be left out. Nested grammars were accepted before they were nested, and renaming takes
nothing back, so the promises hold at every level.
-/

namespace Tabwise

variable {g : Grammar} {prog : String} {P Q : Grammar → Prop}

/-- An argument that passes the checks made of it alone. -/
structure Argument.Checked (a : Argument) : Prop where
  takesValues : a.kind = .positional → a.action.takesValues = true
  range : a.action.takesValues = true → a.arity.invalidRange? = none

/-- What building checks of one grammar, as far as runs of it depend on it. -/
structure Grammar.Valid (g : Grammar) : Prop where
  checked : ∀ a ∈ g.arguments, a.Checked
  /-- A member of a group can be left out. -/
  member : ∀ group ∈ g.groups, ∀ i ∈ group,
    (g.argument i).isFlag = true ∨ (g.argument i).minArgs = 0

/-- The subcommand is one of a selector of the grammar. -/
def Grammar.Nests (g : Grammar) (c : Subcommand) : Prop :=
  ∃ a ∈ g.arguments, ∃ set, a.kind = .selector set ∧ c ∈ set.commands

/-- A property of a grammar and of all grammars nested in it. -/
inductive Grammar.Everywhere (P : Grammar → Prop) : Grammar → Prop
  | intro {g : Grammar} : P g → (∀ c, g.Nests c → Everywhere P c.grammar) → Everywhere P g

/-- The grammar comes from an accepted draft, and so do those that the draft nests. -/
inductive Grammar.Built : Grammar → Prop
  | intro {d : Draft} {g : Grammar} : d.build = .ok g →
      (∀ a ∈ d.arguments, ∀ set, a.kind = .selector set → ∀ c ∈ set.commands, Built c.grammar) →
      Built g

def Grammar.DistinctNames : Grammar → Prop := Everywhere fun g => (g.arguments.map (·.dest)).Nodup

namespace Arity

variable {arity : Arity}

theorem min_le_max {m : Nat} (h : arity.invalidRange? = none) (hm : arity.max = some m) :
    arity.min ≤ m := by
  cases arity with
  | exactly n => simp_all [max, min]
  | optional => simp [min]
  | zeroOrMore => simp [min]
  | oneOrMore => simp [max] at hm
  | remainder => simp [min]
  | range lo hi =>
    cases hi with
    | none => simp [max] at hm
    | some hi =>
      obtain rfl : hi = m := by simpa [max] using hm
      have hlt : ¬hi ≤ lo := by simpa [invalidRange?] using h
      change lo ≤ hi
      omega

theorem max_ne_zero (h : arity.invalidRange? = none) : arity.max ≠ some 0 := by
  cases arity with
  | exactly n =>
    cases n with
    | zero => simp [invalidRange?] at h
    | succ n => simp [max]
  | optional => simp [max]
  | zeroOrMore => simp [max]
  | oneOrMore => simp [max]
  | remainder => simp [max]
  | range lo hi =>
    rintro hm
    obtain rfl : hi = some 0 := by simpa [max] using hm
    simp [invalidRange?] at h

end Arity

namespace Argument

variable {a : Argument}

theorem Checked.min_le_max {m : Nat} (h : a.Checked) (hm : a.maxArgs = some m) : a.minArgs ≤ m := by
  unfold maxArgs at hm
  unfold minArgs
  split
  · next set hk => simp_all
  · split
    · next ht =>
      apply Arity.min_le_max (h.range ht)
      simpa [ht] using hm
    · exact Nat.zero_le m

theorem Checked.maxArgs_ne_zero_of_takesValues (h : a.Checked) (ht : a.action.takesValues = true) :
    a.maxArgs ≠ some 0 := by
  unfold maxArgs
  split
  · simp
  · rw [if_pos ht]
    exact Arity.max_ne_zero (h.range ht)

theorem Checked.maxArgs_ne_zero (h : a.Checked) (hk : a.kind = .positional) : a.maxArgs ≠ some 0 :=
  h.maxArgs_ne_zero_of_takesValues (h.takesValues hk)

theorem checked_default : (default : Argument).Checked := ⟨fun _ => rfl, fun _ => rfl⟩

theorem Checked.rename (h : a.Checked) : (a.rename prog).Checked := by
  refine ⟨fun hk => ?_, fun ht => ?_⟩
  · rw [rename_kind, Kind.rename_eq_positional] at hk
    rw [rename_action]
    exact h.takesValues hk
  · rw [rename_action] at ht
    rw [rename_arity]
    exact h.range ht

theorem Acceptable.checked {prefixChars : String} (h : a.Acceptable prefixChars) : a.Checked := by
  refine ⟨fun hk => ?_, fun ht => Arity.invalidRange?_eq_none.mpr (h.arity ht)⟩
  have hfits := h.kind
  rwa [FitsKind, hk] at hfits

end Argument

namespace Grammar

theorem Everywhere.here (h : Everywhere P g) : P g := by
  cases h with
  | intro here _ => exact here

theorem Everywhere.nested (h : Everywhere P g) {c : Subcommand} (hc : g.Nests c) :
    Everywhere P c.grammar := by
  cases h with
  | intro _ nested => exact nested c hc

theorem nests_rename {c : Subcommand} (h : (g.rename prog).Nests c) :
    ∃ c' q, g.Nests c' ∧ c.grammar = c'.grammar.rename q := by
  obtain ⟨a, ha, set, hk, hc⟩ := h
  rw [rename_arguments] at ha
  obtain ⟨a', ha', rfl⟩ := List.mem_map.mp ha
  obtain ⟨commands, hk', hset⟩ := (Argument.Kind.rename_eq_selector prog).mp (by simpa using hk)
  rw [hset, renameSubcommands_eq_map] at hc
  obtain ⟨c', hc', rfl⟩ := List.mem_map.mp hc
  exact ⟨c', prog ++ " " ++ c'.name, ⟨a', ha', _, hk', hc'⟩, rfl⟩

/-- A property that renaming keeps is kept at every level. -/
theorem Everywhere.rename (hP : ∀ g prog, P g → P (g.rename prog)) (h : Everywhere P g)
    (prog : String) : Everywhere P (g.rename prog) := by
  induction h generalizing prog with
  | intro here _ ih =>
    refine .intro (hP _ _ here) fun c hc => ?_
    obtain ⟨c', q, hc', he⟩ := nests_rename hc
    rw [he]
    exact ih c' hc' q

theorem Everywhere.imp₂ {R : Grammar → Prop} (hR : ∀ g, P g → Q g → R g) (hP : Everywhere P g)
    (hQ : Everywhere Q g) : Everywhere R g := by
  induction hP with
  | intro here _ ih => exact .intro (hR _ here hQ.here) fun c hc => ih c hc (hQ.nested hc)

theorem Valid.rename (h : g.Valid) (prog : String) : (g.rename prog).Valid := by
  refine ⟨fun a ha => ?_, fun group hg i hi => ?_⟩
  · rw [rename_arguments] at ha
    obtain ⟨a', ha', rfl⟩ := List.mem_map.mp ha
    exact (h.checked a' ha').rename
  · rw [rename_groups] at hg
    rw [argument_rename, Argument.rename_isFlag, Argument.rename_minArgs]
    exact h.member group hg i hi

/-- Arguments that were not declared would pass as well. -/
theorem Valid.argument (h : g.Valid) (i : Nat) : (g.argument i).Checked :=
  forall_argument Argument.checked_default h.checked i

end Grammar

namespace Draft

variable {d : Draft}

/-- The place that a group refers to is that of the argument found by name. -/
theorem argument_of_memberIndex? {name : String} {i : Nat} {a : Argument}
    (ha : d.finished.find? (·.dest == name) = some a)
    (hi : memberIndex? d.finished name = some i) : d.unnamed.argument i = a := by
  obtain ⟨-, rfl⟩ := List.findIdx?_eq_some_iff_findIdx_eq.mp hi
  rw [List.find?_eq_getElem?_findIdx] at ha
  rw [Grammar.argument, unnamed, ha, Option.getD_some]

theorem Acceptable.valid (h : d.Acceptable) : d.unnamed.Valid := by
  refine ⟨fun a ha => (h.arguments a ha).checked, fun group hg i hi => ?_⟩
  obtain ⟨names, hnames, rfl⟩ := List.mem_map.mp hg
  obtain ⟨name, hname, hi⟩ := List.mem_filterMap.mp hi
  obtain ⟨a, ha, homissible⟩ := h.members names hnames name hname
  rwa [← argument_of_memberIndex? ha hi] at homissible

theorem named_kind (prefixChars : String) (a : Argument) :
    (a.named prefixChars).kind = a.kind := by
  unfold Argument.named
  split
  · split <;> rfl
  · rfl

/-- The help flag nests nothing, so a draft nests what was declared. -/
theorem nests_unnamed {c : Subcommand} (h : d.unnamed.Nests c) :
    ∃ a ∈ d.arguments, ∃ set, a.kind = .selector set ∧ c ∈ set.commands := by
  obtain ⟨a, ha, set, hk, hc⟩ := h
  obtain ⟨a', ha', rfl⟩ := List.mem_map.mp ha
  rw [named_kind] at hk
  rcases List.mem_append.mp ha' with hhelp | hdecl
  · split at hhelp
    · rw [List.mem_singleton.mp hhelp] at hk
      cases hk
    · cases hhelp
  · exact ⟨a', hdecl, set, hk, hc⟩

theorem everywhere_grammar (hP : ∀ g prog, P g → P (g.rename prog)) (here : P d.unnamed)
    (nested : ∀ a ∈ d.arguments, ∀ set, a.kind = .selector set → ∀ c ∈ set.commands,
      c.grammar.Everywhere P) : d.grammar.Everywhere P := by
  refine Grammar.Everywhere.rename hP (.intro here fun c hc => ?_) d.prog
  obtain ⟨a, ha, set, hk, hc⟩ := nests_unnamed hc
  exact nested a ha set hk c hc

end Draft

namespace Grammar

/-- An accepted grammar is valid at every level. -/
theorem Built.everywhere_valid (h : g.Built) : g.Everywhere Valid := by
  induction h with
  | @intro d g hb _ ih =>
    obtain ⟨hd, rfl⟩ := Draft.build_eq_ok.mp hb
    exact Draft.everywhere_grammar (fun _ prog hv => hv.rename prog) hd.valid ih

theorem nodup_dest_rename (g : Grammar) (prog : String) (h : (g.arguments.map (·.dest)).Nodup) :
    ((g.rename prog).arguments.map (·.dest)).Nodup := by
  rw [rename_arguments, List.map_map]
  simpa [Function.comp_def] using h

end Grammar

end Tabwise
