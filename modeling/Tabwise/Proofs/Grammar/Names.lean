import Tabwise.Proofs.Grammar.Valid

/-! # Names that tokens stand for

An accepted grammar declares every alias once and in the shape of a flag, so an alias that is
typed is read as its own flag. The tokens of a selector differ and each of them selects.
-/

namespace Tabwise

variable {g : Grammar} {a : Argument} {prog prefixChars token name : String} {abbreviated : Bool}
  {id : Nat}

structure Argument.WellNamed (prefixChars : String) (a : Argument) : Prop where
  valid : ∀ name ∈ a.aliases, isValidAlias prefixChars name = true
  selector : ∀ set, a.kind = .selector set → set.Distinct

/-- What building checks of the names in a grammar. -/
structure Grammar.WellNamed (g : Grammar) : Prop where
  nodup : (g.arguments.flatMap Argument.aliases).Nodup
  arguments : ∀ a ∈ g.arguments, a.WellNamed g.prefixChars

theorem Argument.Acceptable.wellNamed (h : a.Acceptable prefixChars) : a.WellNamed prefixChars := by
  have hfits := h.kind
  refine ⟨fun name hname => ?_, fun set hk => by rwa [FitsKind, hk] at hfits⟩
  unfold FitsKind at hfits
  unfold aliases at hname
  split at hfits
  · next aliases hk =>
    rw [hk] at hname
    exact isValidAlias_iff.mpr (hfits.2 name hname)
  · next hk => simp [hk] at hname
  · next set hk => simp [hk] at hname

theorem Draft.Acceptable.wellNamed {d : Draft} (h : d.Acceptable) : d.unnamed.WellNamed :=
  ⟨h.nodup, fun a ha => (h.arguments a ha).wellNamed⟩

theorem Subcommands.Distinct.rename {s : Subcommands} {commands : List Subcommand}
    (h : Subcommands.Distinct ⟨commands, s.aliases⟩)
    (hc : s.commands = renameSubcommands prog commands) : s.Distinct := by
  have hnames : s.names = commands.map (·.name) := by
    rw [names, hc, renameSubcommands_eq_map, List.map_map]
    rfl
  refine ⟨?_, fun a ha => ?_⟩
  · rw [tokens, hnames]
    exact h.nodup
  · rw [hnames]
    exact h.target a ha

@[simp] theorem Argument.rename_aliases (a : Argument) (prog : String) :
    (a.rename prog).aliases = a.aliases := by
  unfold aliases
  rw [rename_kind]
  rcases a.kind with aliases | _ | ⟨commands, aliases⟩ <;> rfl

theorem Argument.WellNamed.rename (h : a.WellNamed prefixChars) (prog : String) :
    (a.rename prog).WellNamed prefixChars := by
  refine ⟨?_, fun set hk => ?_⟩
  · rw [rename_aliases]
    exact h.valid
  · rw [rename_kind] at hk
    obtain ⟨commands, hk, hc⟩ := (Kind.rename_eq_selector prog).mp hk
    exact (h.selector _ hk).rename hc

namespace Grammar

theorem WellNamed.rename (h : g.WellNamed) (prog : String) : (g.rename prog).WellNamed := by
  refine ⟨?_, fun a ha => ?_⟩
  · rw [rename_arguments, List.flatMap_map]
    simpa using h.nodup
  · rw [rename_arguments] at ha
    obtain ⟨a', ha', rfl⟩ := List.mem_map.mp ha
    rw [rename_prefixChars]
    exact (h.arguments a' ha').rename prog

/-- An accepted grammar is well named at every level. -/
theorem Built.everywhere_wellNamed (h : g.Built) : g.Everywhere WellNamed := by
  induction h with
  | @intro d g hb _ ih =>
    obtain ⟨hd, rfl⟩ := Draft.build_eq_ok.mp hb
    exact Draft.everywhere_grammar (fun _ prog hn => hn.rename prog) hd.wellNamed ih

end Grammar

theorem Subcommands.Distinct.select?_isSome {s : Subcommands} (h : s.Distinct)
    (ht : token ∈ s.tokens) : ∃ c, s.select? token = some c := by
  have found {name : String} (hn : name ∈ s.names) :
      ∃ c, s.commands.find? (·.name == name) = some c := by
    obtain ⟨c, hc, rfl⟩ := List.mem_map.mp hn
    exact Option.isSome_iff_exists.mp (List.find?_isSome.mpr ⟨c, hc, by simp⟩)
  unfold select?
  cases hf : s.aliases.find? (·.1 == token) with
  | some a => exact found (h.target a (List.mem_of_find?_eq_some hf))
  | none =>
    refine found ((List.mem_append.mp ht).resolve_right fun hmem => ?_)
    obtain ⟨a, ha, rfl⟩ := List.mem_map.mp hmem
    simpa using List.find?_eq_none.mp hf a ha

namespace Grammar

theorem map_fst_flags (g : Grammar) : g.flags.map (·.1) = g.arguments.flatMap Argument.aliases := by
  rw [← map_argument_ids, List.flatMap_map, flags, List.map_flatMap]
  simp [Function.comp_def]

theorem WellNamed.distinct (h : g.WellNamed) {set : Subcommands}
    (hk : (g.argument id).kind = .selector set) : set.Distinct := by
  unfold Grammar.argument at hk
  cases hi : g.arguments[id]? with
  | none =>
    rw [hi] at hk
    cases hk
  | some a =>
    rw [hi] at hk
    exact (h.arguments a (List.mem_of_getElem? hi)).selector set hk

theorem WellNamed.lookupFlag (h : g.WellNamed) (hf : (name, id) ∈ g.flags) :
    g.lookupFlag abbreviated name = some id := by
  unfold Grammar.lookupFlag
  rw [InsertionMap.lookup_of_mem (by rw [map_fst_flags]; exact h.nodup) hf]

/-- An alias is read as a flag: it has the shape of one, and if it is a number then flags may be
numbers. -/
theorem WellNamed.looksLikeFlag (h : g.WellNamed) (hf : (name, id) ∈ g.flags) :
    g.looksLikeFlag name = true := by
  obtain ⟨hlt, hmem⟩ := mem_flags.mp hf
  have hvalid := (h.arguments _ (mem_arguments.mpr ⟨id, mem_ids.mpr hlt, rfl⟩)).valid name hmem
  have hnumber : isNegativeNumber name = true → g.hasNegativeNumberFlags = true := fun hn =>
    List.any_eq_true.mpr ⟨_, hf, hn⟩
  unfold isValidAlias at hvalid
  unfold Grammar.looksLikeFlag
  split at hvalid
  · next c d rest htoken =>
    obtain ⟨hchars, hwhite⟩ := Bool.and_eq_true_iff.mp hvalid
    have hspace : name.toList.contains ' ' = false := by
      by_contra hs
      have hs : ' ' ∈ name.toList := by simpa using hs
      have hany : name.toList.any Text.isWhite = true := List.any_eq_true.mpr ⟨' ', hs, by decide⟩
      simp [hany] at hwhite
    have hnot : (isNegativeNumber name && !g.hasNegativeNumberFlags) = false := by
      cases hn : isNegativeNumber name with
      | false => rfl
      | true => simp [hnumber hn]
    rw [htoken]
    simp only [hchars, hnot, Bool.not_false, Bool.and_self, Bool.true_and]
    rw [← htoken, hspace]
    rfl
  · cases hvalid

end Grammar

end Tabwise
