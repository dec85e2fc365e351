import Mathlib.Data.List.Nodup
import Tabwise.Grammar.Build
import Tabwise.Proofs.Except
import Tabwise.Proofs.Grammar.Kinds

/-! # What building accepts

A draft is acceptable if every argument is so by itself, no alias is declared twice, only the last
positional is open and groups name arguments that can be left out. Building stops at the first
mistake it finds, and it finds one in every draft that is not acceptable.
-/

namespace Tabwise

variable {prefixChars name : String} {seen seen' names : List String} {a : Argument}
  {arguments : List Argument}

structure IsAlias (prefixChars name : String) : Prop where
  begins : ∃ c ∈ prefixChars.toList, name.toList.head? = some c
  goesOn : 2 ≤ name.toList.length
  solid : ∀ c ∈ name.toList, Text.isWhite c = false

/-- The number of values is not fixed at zero, and a range with a maximum leaves a choice. -/
structure Arity.Proper (arity : Arity) : Prop where
  ne_zero : arity ≠ .exactly 0
  lt : ∀ min max, arity = .range min (some max) → min < max

/-- The tokens of a selector differ, and its aliases stand for names. -/
structure Subcommands.Distinct (s : Subcommands) : Prop where
  nodup : s.tokens.Nodup
  target : ∀ a ∈ s.aliases, a.2 ∈ s.names

namespace Argument

/-- A flag has aliases, a positional takes values and a selector has distinct tokens. -/
def FitsKind (prefixChars : String) (a : Argument) : Prop :=
  match a.kind with
  | .flag aliases => aliases ≠ [] ∧ ∀ name ∈ aliases, IsAlias prefixChars name
  | .positional => a.action.takesValues = true
  | .selector set => set.Distinct

structure Acceptable (prefixChars : String) (a : Argument) : Prop where
  kind : a.FitsKind prefixChars
  arity : a.action.takesValues = true → a.arity.Proper

/-- Another positional may follow: the number of values is bounded and none of them selects a
subcommand. -/
structure Closed (a : Argument) : Prop where
  bounded : a.maxArgs ≠ none
  unselecting : a.subcommands? = none

end Argument

/-- The first argument that stores under a name can be left out. -/
def Omissible (arguments : List Argument) (name : String) : Prop :=
  ∃ a, arguments.find? (·.dest == name) = some a ∧ (a.isFlag = true ∨ a.minArgs = 0)

/-- A draft without a mistake. Its help flag is an argument like the others. -/
structure Draft.Acceptable (d : Draft) : Prop where
  arguments : ∀ a ∈ d.finished, a.Acceptable d.prefixChars
  nodup : (d.finished.flatMap Argument.aliases).Nodup
  closed : ∀ a ∈ (d.finished.filter (!·.isFlag)).dropLast, a.Closed
  members : ∀ group ∈ d.groups, ∀ name ∈ group, Omissible d.finished name

theorem isValidAlias_iff : isValidAlias prefixChars name = true ↔ IsAlias prefixChars name := by
  unfold isValidAlias
  constructor
  · intro h
    split at h
    · next c d rest hname =>
      rw [Bool.and_eq_true, isPrefixChar, List.contains_iff_mem, Bool.not_eq_true',
        List.any_eq_false] at h
      refine ⟨⟨c, h.1, by rw [hname]; rfl⟩, by simp [hname], fun e he => ?_⟩
      simpa using h.2 e he
    · cases h
  · rintro ⟨⟨c, hc, hhead⟩, hlong, hsolid⟩
    have hnone : name.toList.any Text.isWhite = false := by
      rw [List.any_eq_false]
      intro e he
      simp [hsolid e he]
    generalize name.toList = cs at hhead hlong hnone
    match cs with
    | [_] => simp at hlong
    | d :: _ :: _ =>
      obtain rfl : d = c := Option.some.inj hhead
      simpa [isPrefixChar, hc] using hnone

theorem nodup_concat (hs : seen.Nodup) : (seen ++ [name]).Nodup ↔ seen.contains name = false := by
  rw [← List.concat_eq_append, List.nodup_concat]
  simp [hs]

theorem nodup_append_cons (hs : seen.Nodup) : (seen ++ name :: names).Nodup ↔
    seen.contains name = false ∧ (seen ++ [name] ++ names).Nodup := by
  have hsplit : seen ++ name :: names = seen ++ [name] ++ names := by simp
  rw [hsplit, iff_and_self, ← nodup_concat hs]
  exact List.Nodup.of_append_left

theorem firstRepeated?_eq_none (hs : seen.Nodup) :
    firstRepeated? seen names = none ↔ (seen ++ names).Nodup := by
  -- every step moves a name over to those that were seen
  induction names generalizing seen with
  | nil => simp [firstRepeated?, hs]
  | cons name rest ih =>
    rw [firstRepeated?, nodup_append_cons hs]
    cases hn : seen.contains name with
    | true => simp
    | false => simp [ih ((nodup_concat hs).mpr hn)]

theorem Subcommands.check_eq_ok {s : Subcommands} : s.check = .ok () ↔ s.Distinct := by
  have hnodup : firstRepeated? [] s.tokens = none ↔ s.tokens.Nodup :=
    firstRepeated?_eq_none List.nodup_nil
  have htarget : (s.aliases.find? fun a => !s.names.contains a.2) = none ↔
      ∀ a ∈ s.aliases, a.2 ∈ s.names := by simp
  unfold check
  constructor
  · intro h
    split at h
    · cases h
    · next hr =>
      split at h
      · cases h
      · next hf => exact ⟨hnodup.mp hr, htarget.mp hf⟩
  · rintro ⟨hn, ht⟩
    rw [hnodup.mpr hn]
    dsimp only
    rw [htarget.mpr ht]

theorem checkAliases_eq_ok (hs : seen.Nodup) : checkAliases prefixChars seen names = .ok seen' ↔
    (∀ name ∈ names, IsAlias prefixChars name) ∧ (seen ++ names).Nodup ∧ seen' = seen ++ names := by
  induction names generalizing seen with
  | nil => simp [checkAliases, hs, eq_comm]
  | cons name rest ih =>
    rw [checkAliases, nodup_append_cons hs, List.forall_mem_cons, ← isValidAlias_iff]
    cases isValidAlias prefixChars name with
    | false => simp
    | true =>
      cases hn : seen.contains name with
      | true => simp
      | false => simp [ih ((nodup_concat hs).mpr hn)]

theorem Arity.invalidRange?_eq_none {arity : Arity} :
    arity.invalidRange? = none ↔ arity.Proper := by
  constructor
  · intro h
    refine ⟨?_, ?_⟩
    · rintro rfl
      cases h
    · rintro min max rfl
      simpa [invalidRange?] using h
  · intro h
    unfold invalidRange?
    split
    · next min max => simpa using h.lt min max rfl
    · exact absurd rfl h.ne_zero
    · rfl

namespace Argument

theorem checkKind_eq_ok (hs : seen.Nodup) : a.checkKind prefixChars seen = .ok seen' ↔
    a.FitsKind prefixChars ∧ (seen ++ a.aliases).Nodup ∧ seen' = seen ++ a.aliases := by
  unfold checkKind FitsKind aliases
  cases a.kind with
  | flag aliases =>
    cases aliases with
    | nil => simp
    | cons name rest =>
      have hsome : name :: rest ≠ [] := List.cons_ne_nil name rest
      dsimp only
      rw [and_iff_right hsome]
      exact checkAliases_eq_ok hs
  | positional => cases a.action.takesValues <;> simp [hs, eq_comm]
  | selector set =>
    rw [check_map_eq_ok, Subcommands.check_eq_ok]
    simp [hs, eq_comm]

theorem checkRange_eq_ok :
    a.checkRange = .ok () ↔ (a.action.takesValues = true → a.arity.Proper) := by
  rw [← Arity.invalidRange?_eq_none, checkRange]
  cases a.action.takesValues with
  | false => simp
  | true => cases a.arity.invalidRange? <;> simp

theorem check_eq_ok (hs : seen.Nodup) : a.check prefixChars seen = .ok seen' ↔
    a.Acceptable prefixChars ∧ (seen ++ a.aliases).Nodup ∧ seen' = seen ++ a.aliases := by
  have hsplit : a.check prefixChars seen = .ok seen' ↔
      a.checkKind prefixChars seen = .ok seen' ∧ a.checkRange = .ok () := by
    rw [check, bind_eq_ok]
    simp only [check_bind_eq_ok]
    constructor
    · rintro ⟨_, hkind, hrange, he⟩
      cases he
      exact ⟨hkind, hrange⟩
    · rintro ⟨hkind, hrange⟩
      exact ⟨_, hkind, hrange, rfl⟩
  rw [hsplit, checkKind_eq_ok hs, checkRange_eq_ok]
  exact ⟨fun ⟨⟨hkind, hall⟩, harity⟩ => ⟨⟨hkind, harity⟩, hall⟩,
    fun ⟨ha, hall⟩ => ⟨⟨ha.kind, hall⟩, ha.arity⟩⟩

end Argument

theorem checkArguments_eq_ok (hs : seen.Nodup) :
    checkArguments prefixChars seen arguments = .ok () ↔
      (∀ a ∈ arguments, a.Acceptable prefixChars) ∧
        (seen ++ arguments.flatMap Argument.aliases).Nodup := by
  induction arguments generalizing seen with
  | nil => simp [checkArguments, hs]
  | cons a rest ih =>
    rw [checkArguments, bind_eq_ok, List.forall_mem_cons, List.flatMap_cons, ← List.append_assoc]
    constructor
    · rintro ⟨seen', ha, hrest⟩
      obtain ⟨hacceptable, hnodup, rfl⟩ := (Argument.check_eq_ok hs).mp ha
      obtain ⟨hothers, hall⟩ := (ih hnodup).mp hrest
      exact ⟨⟨hacceptable, hothers⟩, hall⟩
    · rintro ⟨⟨hacceptable, hothers⟩, hall⟩
      have hnodup := hall.of_append_left
      exact ⟨_, (Argument.check_eq_ok hs).mpr ⟨hacceptable, hnodup, rfl⟩,
        (ih hnodup).mpr ⟨hothers, hall⟩⟩

theorem checkPositionals_eq_ok {positionals : List Argument} :
    checkPositionals positionals = .ok () ↔ ∀ a ∈ positionals.dropLast, a.Closed := by
  have hnone : (positionals.dropLast.find? fun a => a.maxArgs.isNone || a.subcommands?.isSome) =
      none ↔ ∀ a ∈ positionals.dropLast, a.Closed := by
    rw [List.find?_eq_none]
    refine forall₂_congr fun a _ => ?_
    simp only [Bool.or_eq_true, not_or, Option.isNone_iff_eq_none, Option.not_isSome_iff_eq_none]
    exact ⟨fun h => ⟨h.1, h.2⟩, fun h => ⟨h.bounded, h.unselecting⟩⟩
  rw [← hnone, checkPositionals]
  cases positionals.dropLast.find? _ <;> simp

theorem checkMember_eq_ok : checkMember arguments name = .ok () ↔ Omissible arguments name := by
  unfold checkMember Omissible
  cases arguments.find? (·.dest == name) with
  | none => simp
  | some a =>
    cases hflag : a.isFlag with
    | true => simp [hflag]
    | false => simp [hflag]

theorem checkMembers_eq_ok :
    checkMembers arguments names = .ok () ↔ ∀ name ∈ names, Omissible arguments name := by
  induction names with
  | nil => simp [checkMembers]
  | cons name rest ih =>
    rw [checkMembers, check_bind_eq_ok, checkMember_eq_ok, ih, List.forall_mem_cons]

namespace Draft

variable {d : Draft}

/-- Checking finds a mistake unless the draft is acceptable. -/
theorem check_eq_ok : d.check = .ok () ↔ d.Acceptable := by
  have harguments : checkArguments d.prefixChars [] d.finished = .ok () ↔
      (∀ a ∈ d.finished, a.Acceptable d.prefixChars) ∧
        (d.finished.flatMap Argument.aliases).Nodup := checkArguments_eq_ok List.nodup_nil
  have hmembers : (∀ name ∈ d.groups.flatten, Omissible d.finished name) ↔
      ∀ group ∈ d.groups, ∀ name ∈ group, Omissible d.finished name := by
    simp only [List.mem_flatten]
    exact ⟨fun h group hg name hn => h name ⟨group, hg, hn⟩,
      fun h name ⟨group, hg, hn⟩ => h group hg name hn⟩
  rw [check, check_bind_eq_ok, check_bind_eq_ok, harguments, checkPositionals_eq_ok,
    checkMembers_eq_ok, hmembers]
  exact ⟨fun ⟨⟨hargs, hnodup⟩, hclosed, hgroups⟩ => ⟨hargs, hnodup, hclosed, hgroups⟩,
    fun h => ⟨⟨h.arguments, h.nodup⟩, h.closed, h.members⟩⟩

theorem build_eq_ok {g : Grammar} : d.build = .ok g ↔ d.Acceptable ∧ g = d.grammar := by
  rw [build, check_map_eq_ok, check_eq_ok, eq_comm]

end Draft

end Tabwise
