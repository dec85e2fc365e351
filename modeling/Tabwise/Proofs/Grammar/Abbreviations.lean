import Mathlib.Data.Set.Insert
import Tabwise.Proofs.Grammar.Accepted

/-! # Abbreviated flags

An abbreviation stands for the one argument that has an alias it starts; how many of its aliases it
starts does not matter. It goes on to stand for this argument while more of an alias is typed. An
alias that is typed in full is no abbreviation: it stands for its own argument, whatever other
aliases it starts.
-/

namespace Tabwise.Grammar

variable {g : Grammar} {d : Draft} {token name : String} {abbreviated : Bool} {id : Nat}

/-- The token is a flag as the grammar declares it. -/
def HasAlias (g : Grammar) (token : String) : Prop := ∃ i, token ∈ (g.argument i).aliases

/-- The arguments that have an alias that the token starts. -/
def startedBy (g : Grammar) (token : String) : Set Nat :=
  {i | ∃ name ∈ (g.argument i).aliases, token.toList <+: name.toList}

/-- What the lookup goes through are the arguments that the token starts. -/
theorem mem_startedBy_iff : id ∈ g.startedBy token ↔
    id ∈ (g.flags.filter fun f => startsWith f.1 token).map (·.2) := by
  simp only [startedBy, Set.mem_ofPred_eq, List.mem_map, List.mem_filter, startsWith,
    List.isPrefixOf_iff_prefix]
  constructor
  · rintro ⟨name, hname, hstarts⟩
    exact ⟨(name, id), ⟨mem_flags_of_mem_aliases hname, hstarts⟩, rfl⟩
  · rintro ⟨⟨name, i⟩, ⟨hflag, hstarts⟩, rfl⟩
    exact ⟨name, (mem_flags.mp hflag).2, hstarts⟩

theorem lookup_flags_eq_none (h : ¬g.HasAlias token) : g.flags.lookup token = none := by
  apply InsertionMap.lookup_eq_none
  intro hmem
  obtain ⟨⟨name, i⟩, hflag, rfl⟩ := List.mem_map.mp hmem
  exact h ⟨i, (mem_flags.mp hflag).2⟩

theorem lookupFlag_unabbreviated (h : ¬g.HasAlias token) : g.lookupFlag false token = none := by
  rw [lookupFlag, lookup_flags_eq_none h]
  rfl

/-- Arguments must be unique, and not aliases. -/
theorem lookupFlag_abbreviated (hshape : g.looksLikeFlag token = true) (h : ¬g.HasAlias token) :
    g.lookupFlag true token = some id ↔ g.startedBy token = {id} := by
  rw [lookupFlag, lookup_flags_eq_none h, Set.eq_singleton_iff_unique_mem]
  simp only [mem_startedBy_iff, hshape, Bool.and_self, if_true]
  cases (g.flags.filter fun f => startsWith f.1 token).map (·.2) with
  | nil => simp
  | cons first rest =>
    dsimp only
    by_cases hall : ∀ i ∈ rest, i = first
    · have hrest : rest.all (· == first) = true := by simpa using hall
      rw [hrest]
      constructor
      · rintro ⟨⟩
        exact ⟨List.mem_cons_self, List.forall_mem_cons.mpr ⟨rfl, hall⟩⟩
      · rintro ⟨-, heq⟩
        rw [heq first List.mem_cons_self]
        rfl
    · have hrest : rest.all (· == first) = false := by simpa using hall
      rw [hrest]
      constructor
      · rintro ⟨⟩
      · rintro ⟨-, heq⟩
        obtain ⟨hfirst, heq⟩ := List.forall_mem_cons.mp heq
        exact absurd (fun i hi => (heq i hi).trans hfirst.symm) hall

theorem startedBy_append_subset (g : Grammar) (token more : String) :
    g.startedBy (token ++ more) ⊆ g.startedBy token := by
  rintro i ⟨name, hname, hstarts⟩
  rw [String.toList_append] at hstarts
  exact ⟨name, hname, (List.prefix_append _ _).trans hstarts⟩

/-- How tokens in the shape of a flag stand for arguments. -/
structure Abbreviates (g : Grammar) : Prop where
  /-- An abbreviation stands for the one argument that it starts. -/
  unique : ∀ token, g.looksLikeFlag token = true → ¬g.HasAlias token → ∀ id,
    g.lookupFlag true token = some id ↔ g.startedBy token = {id}
  /-- It does so while an alias is typed on. -/
  stable : ∀ token more, g.looksLikeFlag token = true → ¬g.HasAlias token →
    g.looksLikeFlag (token ++ more) = true → (g.startedBy (token ++ more)).Nonempty → ∀ id,
      g.lookupFlag true token = some id → g.lookupFlag true (token ++ more) = some id
  unabbreviated : ∀ token, ¬g.HasAlias token → g.lookupFlag false token = none
  /-- An alias stands for its own argument, also where it starts aliases of others. -/
  exact : ∀ id, ∀ name ∈ (g.argument id).aliases, ∀ abbreviated,
    g.lookupFlag abbreviated name = some id

/-- In an accepted grammar an abbreviation is unambiguous and stable. -/
theorem abbreviates_of_build (hb : d.build = .ok g) : g.Abbreviates := by
  obtain ⟨hd, rfl⟩ := Draft.build_eq_ok.mp hb
  have hw : d.grammar.WellNamed := hd.wellNamed.rename d.prog
  have exact : ∀ id, ∀ name ∈ (d.grammar.argument id).aliases, ∀ abbreviated,
      d.grammar.lookupFlag abbreviated name = some id := by
    intro id name hname abbreviated
    exact hw.lookupFlag (mem_flags_of_mem_aliases hname)
  refine ⟨fun token hshape h id => lookupFlag_abbreviated hshape h, ?_,
    fun token h => lookupFlag_unabbreviated h, exact⟩
  intro token more hshape h hshape' hsome id hid
  have honly : d.grammar.startedBy (token ++ more) = {id} := by
    have hsubset := startedBy_append_subset d.grammar token more
    rw [(lookupFlag_abbreviated hshape h).mp hid] at hsubset
    exact hsome.subset_singleton_iff.mp hsubset
  by_cases h' : d.grammar.HasAlias (token ++ more)
  · -- typed in full, the alias is one of those that the abbreviation starts
    obtain ⟨i, hi⟩ := h'
    have hmem : i ∈ d.grammar.startedBy (token ++ more) := ⟨_, hi, List.prefix_rfl⟩
    rw [honly] at hmem
    obtain rfl := Set.mem_singleton_iff.mp hmem
    exact exact i _ hi true
  · exact (lookupFlag_abbreviated hshape' h').mpr honly

/-- One of the flags starts an alias of another one. -/
def pruner : Draft :=
  { Draft.new "prune" with
    arguments := [
      { Argument.new (.flag ["-a", "--all"]) "" with action := .storeTrue },
      { Argument.new (.flag ["--all-tags", "--all-types"]) "" with action := .storeTrue }] }

/-- Two aliases of one argument share a start, which stands for it; the flag that starts them all
stands for itself. -/
theorem abbreviates_of_build_pruner : pruner.build = .ok pruner.grammar ∧
    pruner.grammar.startedBy "--all-t" = {1} ∧
    pruner.grammar.lookupFlag true "--all-t" = some 1 ∧
    pruner.grammar.lookupFlag true ("--all-t" ++ "ags") = some 1 ∧
    pruner.grammar.lookupFlag false "--all-t" = none ∧
    pruner.grammar.lookupFlag true "--al" = none ∧
    pruner.grammar.lookupFlag true "--all" = some 0 := by
  have h : pruner.grammar.Abbreviates := abbreviates_of_build (d := pruner) rfl
  have hnot : ¬pruner.grammar.HasAlias "--all-t" := by
    rintro ⟨i, hi⟩
    have hflags : ("--all-t", i) ∈ pruner.grammar.flags := mem_flags_of_mem_aliases hi
    have hnames : "--all-t" ∈ pruner.grammar.flags.map (·.1) := List.mem_map_of_mem hflags
    exact absurd hnames (by decide)
  have hshape : pruner.grammar.looksLikeFlag "--all-t" = true := by decide
  have hfound : pruner.grammar.lookupFlag true "--all-t" = some 1 := by decide
  have htags : (pruner.grammar.startedBy ("--all-t" ++ "ags")).Nonempty :=
    ⟨1, "--all-tags", by decide, List.prefix_rfl⟩
  exact ⟨rfl, (h.unique _ hshape hnot 1).mp hfound, hfound,
    h.stable _ _ hshape hnot (by decide) htags 1 hfound, h.unabbreviated _ hnot, by decide,
    h.exact 0 "--all" (by decide) true⟩

end Tabwise.Grammar
