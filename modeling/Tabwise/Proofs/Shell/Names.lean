import Mathlib.Data.List.Induction
import Tabwise.Proofs.Text.Order
import Tabwise.Shell.Registry

/-! # Names of commands

The command that a name stands for is the last one that was registered with this name or alias. A
command whose own name was taken over is still listed by that name as long as another of its names
leads to it; such a name stands for another command. All other names stand for the commands that
bear them, and the candidates for a command word are then these names, each once.
-/

namespace Tabwise.Shell

variable {σ : Type} {r : Registry σ} {c : Command σ} {commands : List (Command σ)}
  {name typed : String} {o : Options}

def Command.claims (c : Command σ) (name : String) : Bool := (c.name :: c.aliases).contains name

/-- The last command to claim a name. -/
def claimant? (commands : List (Command σ)) (name : String) : Option (Command σ) :=
  commands.reverse.find? (·.claims name)

/-- Whether the last command to claim the name has another one. Nothing takes over `help`. -/
def takenOver (commands : List (Command σ)) (name : String) : Bool :=
  name != "help" && (claimant? commands name).any (·.name != name)

def splitBefore (line : String) (cursor : Nat) : Line.Split :=
  Line.split (Text.takeBytes cursor line.toList)

theorem mem_sortedNames {names : List String} : name ∈ sortedNames names ↔ name ∈ names := by
  have hfirst : name ∈ (Listing.firstOf id names).map id ↔ name ∈ names.map id :=
    Listing.mem_map_firstOf
  rw [List.map_id, List.map_id] at hfirst
  rw [sortedNames, List.mem_mergeSort, hfirst]

theorem nodup_sortedNames (names : List String) : (sortedNames names).Nodup := by
  have hfirst := Listing.nodup_map_firstOf id names
  rw [List.map_id] at hfirst
  exact (List.mergeSort_perm _ _).nodup_iff.mpr hfirst

/-- The lexical order in which names are listed. -/
def NameLE (a b : String) : Prop := (Text.compareChars a.toList b.toList).isLE = true

instance : DecidableRel NameLE := fun _ _ => inferInstanceAs (Decidable (_ = true))

theorem NameLE.antisymm {a b : String} (hab : NameLE a b) (hba : NameLE b a) : a = b :=
  String.toList_inj.mp (Std.LawfulEqCmp.eq_of_compare (Std.OrientedCmp.isLE_antisymm hab hba))

theorem pairwise_sortedNames (names : List String) : (sortedNames names).Pairwise NameLE := by
  refine List.pairwise_mergeSort (fun a b c => Std.TransCmp.isLE_trans) (fun a b => ?_) _
  have hswap : Text.compareChars b.toList a.toList =
      (Text.compareChars a.toList b.toList).swap := Std.OrientedCmp.eq_swap
  rw [hswap]
  cases Text.compareChars a.toList b.toList <;> rfl

/-- Distinct names that are all the names and stand in order are what sorting them gives. -/
theorem sortedNames_eq {names sorted : List String} (hn : sorted.Nodup)
    (hs : sorted.Pairwise NameLE) (hsub : ∀ name ∈ sorted, name ∈ names)
    (hsup : ∀ name ∈ names, name ∈ sorted) : sortedNames names = sorted := by
  have hperm : (sortedNames names).Perm sorted := by
    rw [List.perm_ext_iff_of_nodup (nodup_sortedNames names) hn]
    exact fun name => mem_sortedNames.trans ⟨hsup name, hsub name⟩
  exact hperm.eq_of_pairwise (fun _ _ _ _ => NameLE.antisymm) (pairwise_sortedNames names) hs

namespace Registry

theorem mem_names : name ∈ r.names ↔ ∃ e ∈ r.commands.entries, e.2.name = name := by
  rw [names, Directory.names, mem_sortedNames]
  simp [directory, InsertionMap.values]

/-- The registry after a number of commands were added to the one that has only `help`. -/
def registered (commands : List (Command σ)) : Registry σ := commands.foldl register new

theorem registered_concat (commands : List (Command σ)) (c : Command σ) :
    registered (commands ++ [c]) = (registered commands).register c := by
  rw [registered, List.foldl_append]
  rfl

theorem find?_insert (r : Registry σ) (c : Command σ) (name : String) :
    (r.insert c).find? name = if c.claims name then some c else r.find? name := by
  rw [find?, insert, InsertionMap.find?_extend_map, Command.claims]
  simp [find?]

theorem find?_refreshHelp (r : Registry σ) (name : String) :
    r.refreshHelp.find? name =
      if name = "help" then some (helpCommand r.directory) else r.find? name := by
  rw [refreshHelp, find?_insert]
  simp [Command.claims, helpCommand]

theorem find?_register (r : Registry σ) (c : Command σ) (h : name ≠ "help") :
    (r.register c).find? name = if c.claims name then some c else r.find? name := by
  rw [register, find?_refreshHelp, if_neg h, find?_insert]

/-- A name stands for the last command that claims it. -/
theorem find?_registered (commands : List (Command σ)) (h : name ≠ "help") :
    (registered commands).find? name = claimant? commands name := by
  induction commands using List.reverseRecOn with
  | nil =>
    change new.find? name = none
    rw [new, find?_refreshHelp, if_neg h]
    rfl
  | append_singleton commands c ih =>
    rw [registered_concat, find?_register _ _ h, ih, claimant?, claimant?, List.reverse_concat,
      List.find?_cons]
    cases c.claims name <;> rfl

theorem find?_help (commands : List (Command σ)) :
    ∃ d, (registered commands).find? "help" = some (helpCommand d) := by
  induction commands using List.reverseRecOn with
  | nil => exact ⟨_, (find?_refreshHelp _ _).trans (if_pos rfl)⟩
  | append_singleton commands c ih =>
    rw [registered_concat]
    exact ⟨_, (find?_refreshHelp _ _).trans (if_pos rfl)⟩

theorem mem_of_find?_registered (h : (registered commands).find? name = some c) :
    c ∈ commands ∨ ∃ d, c = helpCommand d := by
  by_cases hhelp : name = "help"
  · subst hhelp
    obtain ⟨d, hd⟩ := find?_help commands
    exact .inr ⟨d, Option.some.inj (h.symm.trans hd)⟩
  · rw [find?_registered commands hhelp] at h
    exact .inl (List.mem_reverse.mp (List.mem_of_find?_eq_some h))

/-- Every command that is reached by some name is followed by one under its own name. -/
def Listed (r : Registry σ) : Prop :=
  ∀ e ∈ r.commands.entries, (r.find? e.2.name).isSome = true

theorem Listed.insert (h : r.Listed) (c : Command σ) : (r.insert c).Listed := by
  intro e he
  rw [find?_insert]
  split
  · rfl
  · next hother =>
    rcases InsertionMap.mem_extend he with hold | hnew
    · exact h e hold
    · obtain ⟨key, -, rfl⟩ := List.mem_map.mp hnew
      simp [Command.claims] at hother

theorem listed_registered (commands : List (Command σ)) : (registered commands).Listed := by
  induction commands using List.reverseRecOn with
  | nil =>
    have hempty : (⟨.empty⟩ : Registry σ).Listed := fun e he => by cases he
    exact hempty.insert _
  | append_singleton commands c ih =>
    rw [registered_concat]
    exact (ih.insert c).insert _

/-- A listed name stands for a command of that name unless it was taken over. -/
theorem find?_of_mem_names (h : name ∈ (registered commands).names) :
    ∃ c, (registered commands).find? name = some c ∧
      (c.name = name ↔ takenOver commands name = false) := by
  by_cases hhelp : name = "help"
  · subst hhelp
    obtain ⟨d, hd⟩ := find?_help commands
    exact ⟨helpCommand d, hd, by simp [helpCommand, takenOver]⟩
  · obtain ⟨e, he, rfl⟩ := mem_names.mp h
    obtain ⟨c, hc⟩ := Option.isSome_iff_exists.mp (listed_registered commands e he)
    refine ⟨c, hc, ?_⟩
    rw [find?_registered commands hhelp] at hc
    simp [takenOver, hhelp, hc]

theorem map_name_filterMap_find? {names : List String}
    (h : ∀ name ∈ names, ∃ c, r.find? name = some c ∧ c.name = name) :
    (names.filterMap r.find?).map (·.name) = names := by
  induction names with
  | nil => rfl
  | cons name names ih =>
    rw [List.forall_mem_cons] at h
    obtain ⟨c, hc, hname⟩ := h.1
    rw [List.filterMap_cons_some hc, List.map_cons, hname, ih h.2]

theorem values_commandNames
    (h : ∀ name ∈ r.names, o.accepts name typed = true →
      ∃ c, r.find? name = some c ∧ c.name = name) {cs : Completions}
    (hcs : r.commandNames o typed = .candidates cs) :
    cs.candidates.map Candidate.value = r.names.filter (o.accepts · typed) := by
  have hnames : ((r.names.filter (o.accepts · typed)).filterMap r.find?).map (·.name) =
      r.names.filter (o.accepts · typed) := by
    apply map_name_filterMap_find?
    intro name hname
    exact h name (List.mem_filter.mp hname).1 (List.mem_filter.mp hname).2
  unfold commandNames at hcs
  dsimp only at hcs
  split at hcs
  · cases hcs
  · cases hcs
    rw [List.map_map]
    exact hnames

/-- Every listed name stands for a command of that name if it was not taken over. And if none was
taken over that the command word starts, then the candidates for it are distinct and complete it. -/
theorem names_of_registered (commands : List (Command σ)) :
    (∀ name ∈ (registered commands).names, ∃ c, (registered commands).find? name = some c ∧
      (c.name = name ↔ takenOver commands name = false)) ∧
    ∀ (state : σ) (o : Options) (line : String) (start cursor : Nat),
      (splitBefore line cursor).completesCommand = true →
      ∃ out, (registered commands).completeLine state o line start cursor = .ok out ∧
        ∀ cs, out = .candidates cs →
          (∀ name ∈ (registered commands).names,
            o.accepts name (splitBefore line cursor).command = true →
              takenOver commands name = false) →
          (cs.candidates.map Candidate.value).Nodup ∧
            ∀ v ∈ cs.candidates, o.accepts v.value (splitBefore line cursor).command = true := by
  refine ⟨fun name => find?_of_mem_names, fun state o line start cursor hword => ?_⟩
  refine ⟨_, if_pos hword, fun cs hcs hkept => ?_⟩
  have hvalues : cs.candidates.map Candidate.value =
      (registered commands).names.filter (o.accepts · (splitBefore line cursor).command) := by
    apply values_commandNames _ hcs
    intro name hname haccepts
    obtain ⟨c, hc, hkeeps⟩ := find?_of_mem_names hname
    exact ⟨c, hc, hkeeps.mpr (hkept name hname haccepts)⟩
  refine ⟨?_, fun v hv => ?_⟩
  · rw [hvalues]
    exact (nodup_sortedNames _).filter _
  · have hmem := List.mem_map_of_mem (f := Candidate.value) hv
    rw [hvalues] at hmem
    exact (List.mem_filter.mp hmem).2

def idle (name : String) (aliases : List String) (doc : String) : Command Unit where
  name := name
  aliases := aliases
  doc := doc
  grammar := fun _ => (Draft.new name).grammar
  run := fun state _ _ => .print state []

/-- The second command takes over the name of the first one. -/
def overtaken : List (Command Unit) :=
  [idle "list" ["ls"] "list the shelves", idle "show" ["list"] "show a shelf"]

/-- The name that was taken over is offered again once a command is registered under it. -/
theorem names_of_registered_reclaimed :
    (∃ c, (registered (overtaken ++ [idle "list" [] "list all"])).find? "list" = some c ∧
      c.name = "list") ∧
    ∃ cs, (registered (overtaken ++ [idle "list" [] "list all"])).completeLine () {} " l" 1 2 =
        .ok (.candidates cs) ∧
      cs.candidates = [.described "list" "list all"] ∧
      (cs.candidates.map Candidate.value).Nodup ∧
      ∀ v ∈ cs.candidates, Options.accepts {} v.value "l" = true := by
  obtain ⟨hnames, hlines⟩ := names_of_registered (overtaken ++ [idle "list" [] "list all"])
  have hlisted : (registered (overtaken ++ [idle "list" [] "list all"])).names =
      ["help", "list", "show"] :=
    sortedNames_eq (by decide) (by decide) (by decide) (by decide)
  have hkept : ∀ name ∈ ["help", "list", "show"],
      takenOver (overtaken ++ [idle "list" [] "list all"]) name = false := by decide
  rw [← hlisted] at hkept
  obtain ⟨c, hc, hname⟩ := hnames "list" (by simp [hlisted])
  refine ⟨⟨c, hc, hname.mpr rfl⟩, ?_⟩
  obtain ⟨out, hout, hword⟩ := hlines () {} " l" 1 2 rfl
  have hline : (registered (overtaken ++ [idle "list" [] "list all"])).completeLine () {} " l" 1 2 =
      .ok (.candidates {
        candidates := [.described "list" "list all"]
        metavar := some "COMMAND" }) := by
    rw [completeLine, commandNames, hlisted]
    rfl
  cases hout.symm.trans hline
  exact ⟨_, hline, rfl, hword _ rfl fun name hname _ => hkept name hname⟩

/-- The name of the first command is listed and stands for the second one. It brings the second one
up twice among all commands, and for a word that its name does not complete. -/
theorem names_of_registered_overtaken :
    "list" ∈ (registered overtaken).names ∧
    ((registered overtaken).find? "list").map (·.name) = some "show" ∧
    (registered overtaken).completeLine () {} "" 0 0 = .ok (.candidates {
      candidates := [.described "help" helpDoc, .described "show" "show a shelf",
        .described "show" "show a shelf"]
      metavar := some "COMMAND" }) ∧
    (registered overtaken).completeLine () {} "li" 0 2 = .ok (.candidates {
      candidates := [.described "show" "show a shelf"]
      metavar := some "COMMAND" }) ∧
    Options.accepts {} "show" "li" = false := by
  have hlisted : (registered overtaken).names = ["help", "list", "show"] :=
    sortedNames_eq (by decide) (by decide) (by decide) (by decide)
  refine ⟨by simp [hlisted], rfl, ?_, ?_, rfl⟩
  · rw [completeLine, commandNames, hlisted]
    rfl
  · rw [completeLine, commandNames, hlisted]
    rfl

end Registry

end Tabwise.Shell
