import Mathlib.Data.List.Nodup
import Tabwise.Proofs.Parse.Choices
import Tabwise.Proofs.Grammar.Rename
import Tabwise.Proofs.Shell.Names

/-! # The help command

Help is declared anew with every command that is added, from the names there are at that moment.
The names it accepts are then names of commands, whatever names and aliases were taken over, so it
finds all that it accepts. It either rejects its arguments or prints once.
-/

namespace Tabwise.Shell

variable {σ : Type} {r : Registry σ} {c : Command σ} {commands : List (Command σ)}
  {d d' : Directory σ} {names names' : List String} {name rest : String} {state : σ} {args : Args}
  {topics : List Candidate}

/-- Of names that are listed once and in order, those that satisfy a condition are determined by
which they are. -/
theorem filter_sortedNames_congr {p : String → Bool}
    (h : ∀ n, p n = true → (n ∈ names ↔ n ∈ names')) :
    (sortedNames names).filter p = (sortedNames names').filter p := by
  have hperm : ((sortedNames names).filter p).Perm ((sortedNames names').filter p) := by
    rw [List.perm_ext_iff_of_nodup ((nodup_sortedNames _).filter p)
      ((nodup_sortedNames _).filter p)]
    intro n
    rw [List.mem_filter, List.mem_filter, mem_sortedNames, mem_sortedNames]
    exact and_congr_left (h n)
  exact hperm.eq_of_pairwise (fun _ _ _ _ => NameLE.antisymm)
    ((pairwise_sortedNames _).filter p) ((pairwise_sortedNames _).filter p)

/-- Help depends on the other commands and their names only. -/
theorem helpCommand_congr
    (hnames : ∀ n, n ≠ "help" → (n ∈ d.values.map (·.name) ↔ n ∈ d'.values.map (·.name)))
    (hfind : ∀ n, n ≠ "help" → d.find? n = d'.find? n) :
    Registry.helpCommand d = Registry.helpCommand d' := by
  have hothers : d.names.filter (· ≠ "help") = d'.names.filter (· ≠ "help") :=
    filter_sortedNames_congr fun n hn => hnames n (by simpa using hn)
  have htopics : Registry.helpTopics d = Registry.helpTopics d' := by
    rw [Registry.helpTopics, Registry.helpTopics, hothers]
    congr 2
    refine List.filterMap_congr fun n hn => hfind n ?_
    simpa using (List.mem_filter.mp hn).2
  rw [Registry.helpCommand, Registry.helpCommand, htopics]

namespace Registry

theorem find?_directory (r : Registry σ) (name : String) :
    r.directory.find? name = (r.find? name).map Command.toEntry :=
  InsertionMap.lookup_map_value Command.toEntry name r.commands.entries

theorem mem_names_directory (hn : r.commands.keys.Nodup) :
    name ∈ r.directory.values.map (·.name) ↔ ∃ key c, r.find? key = some c ∧ c.name = name := by
  have hentries : name ∈ r.directory.values.map (·.name) ↔
      ∃ e ∈ r.commands.entries, e.2.name = name := by
    simp [directory, InsertionMap.values]
  rw [hentries]
  constructor
  · rintro ⟨e, he, hname⟩
    exact ⟨e.1, e.2, InsertionMap.lookup_of_mem hn he, hname⟩
  · rintro ⟨key, c, hfind, hname⟩
    exact ⟨(key, c), InsertionMap.mem_of_find? hfind, hname⟩

theorem nodup_keys_insert (hn : r.commands.keys.Nodup) (c : Command σ) :
    (r.insert c).commands.keys.Nodup := InsertionMap.nodup_keys_extend hn _

theorem nodup_keys_empty : (⟨.empty⟩ : Registry σ).commands.keys.Nodup := List.nodup_nil

/-- Declaring help anew does not change what it knows, unless it takes the only place of another
command. -/
theorem helpCommand_refreshHelp (hn : r.commands.keys.Nodup)
    (h : ∀ c, r.find? "help" = some c → c.name = "help" ∨ r.find? c.name = some c) :
    helpCommand r.directory = helpCommand r.refreshHelp.directory := by
  have hn' : r.refreshHelp.commands.keys.Nodup := nodup_keys_insert hn _
  have hother {n : String} (hne : n ≠ "help") : r.refreshHelp.find? n = r.find? n := by
    rw [find?_refreshHelp, if_neg hne]
  refine helpCommand_congr (fun n hne => ?_) fun n hne => ?_
  · rw [mem_names_directory hn, mem_names_directory hn']
    constructor
    · rintro ⟨key, c, hfind, rfl⟩
      by_cases hkey : key = "help"
      · have hown := (h c (hkey ▸ hfind)).resolve_left hne
        exact ⟨c.name, c, (hother hne).trans hown, rfl⟩
      · exact ⟨key, c, (hother hkey).trans hfind, rfl⟩
    · rintro ⟨key, c, hfind, rfl⟩
      by_cases hkey : key = "help"
      · rw [hkey, find?_refreshHelp, if_pos rfl] at hfind
        cases hfind
        exact absurd rfl hne
      · exact ⟨key, c, (hother hkey).symm.trans hfind, rfl⟩
  · rw [find?_directory, find?_directory, hother hne]

theorem nodup_keys_registered (commands : List (Command σ)) :
    (registered commands).commands.keys.Nodup := by
  induction commands using List.reverseRecOn with
  | nil => exact nodup_keys_insert nodup_keys_empty _
  | append_singleton commands c ih =>
    rw [registered_concat]
    exact nodup_keys_insert (nodup_keys_insert ih c) _

/-- Help is always the command declared from the names there are. -/
theorem find?_help_registered (commands : List (Command σ)) :
    (registered commands).find? "help" = some (helpCommand (registered commands).directory) := by
  cases commands using List.reverseRecOn with
  | nil =>
    change new.find? "help" = some (helpCommand new.directory)
    rw [new, find?_refreshHelp, if_pos rfl]
    exact congrArg some (helpCommand_refreshHelp nodup_keys_empty fun c hc => by cases hc)
  | append_singleton commands c =>
    rw [registered_concat, register, find?_refreshHelp, if_pos rfl]
    have hn := nodup_keys_insert (nodup_keys_registered commands) c
    refine congrArg some (helpCommand_refreshHelp hn fun c' hc' => ?_)
    rw [find?_insert] at hc'
    split at hc'
    · cases hc'
      exact .inr (by simp [find?_insert, Command.claims])
    · obtain ⟨d, hd⟩ := find?_help commands
      cases hd.symm.trans hc'
      exact .inl rfl

theorem find?_of_mem_helpTopics
    (h : name ∈ (helpTopics (registered commands).directory).map Candidate.value) :
    ∃ e, (registered commands).directory.find? name = some e := by
  suffices hsome : ((registered commands).find? name).isSome = true by
    obtain ⟨c, hc⟩ := Option.isSome_iff_exists.mp hsome
    exact ⟨c.toEntry, by rw [find?_directory, hc, Option.map_some]⟩
  rw [helpTopics, List.map_append, List.map_map, List.mem_append] at h
  rcases h with hother | hhelp
  · obtain ⟨e, he, rfl⟩ := List.mem_map.mp hother
    obtain ⟨n, -, hfind⟩ := List.mem_filterMap.mp he
    rw [find?_directory, Option.map_eq_some_iff] at hfind
    obtain ⟨c, hc, rfl⟩ := hfind
    exact listed_registered commands (n, c) (InsertionMap.mem_of_find? hc)
  · rw [List.mem_singleton.mp hhelp]
    exact Option.isSome_of_eq_some (find?_help_registered commands)

theorem build_helpDraft (topics : List Candidate) :
    (helpDraft topics).build = .ok (helpDraft topics).grammar := rfl

theorem choices_helpDraft {i : Nat} (h : ((helpDraft topics).grammar.argument i).dest = "command") :
    ((helpDraft topics).grammar.argument i).choices.listedValues? =
      some (topics.map Candidate.value) := by
  cases i with
  | zero => rfl
  | succ i => exact absurd h (by decide : ¬"" = "command")

theorem action_helpDraft (topics : List Candidate) (i : Nat) :
    ((helpDraft topics).grammar.argument i).action = .store := by
  cases i <;> rfl

theorem mem_of_parse_helpDraft (h : (helpDraft topics).grammar.parseLine rest = .ok args)
    (hname : args.get? "command" = some name) : name ∈ topics.map Candidate.value := by
  obtain ⟨tokens, -, h⟩ := bind_eq_ok.mp h
  have hhelp : args.help = false := Grammar.help_of_parse h fun i _ => by simp [action_helpDraft]
  obtain ⟨i, hdest, hlisted⟩ :=
    Grammar.listed_of_getAll h hhelp (List.mem_of_getLast? hname)
  exact hlisted _ (choices_helpDraft hdest)

theorem runHelp_eq_print {d : Directory σ}
    (h : ∀ name, args.get? "command" = some name → ∃ e, d.find? name = some e) :
    ∃ text, runHelp state args d = .print state [text] := by
  unfold runHelp
  cases hname : args.get? "command" with
  | none => exact ⟨_, rfl⟩
  | some name =>
    obtain ⟨e, he⟩ := h name hname
    dsimp only
    rw [he]
    exact ⟨_, rfl⟩

theorem execute_help {line : String} (commands : List (Command σ)) (state : σ)
    (hword : (Line.split line.toList).command = "help") :
    (registered commands).execute state line =
      match (helpDraft (helpTopics (registered commands).directory)).grammar.parseLine
        (Line.split line.toList).rest with
      | .error e => .fail state (.invalidArgs "help" e)
      | .ok args =>
        if args.helpRequested then
          .print state [(helpDraft (helpTopics (registered commands).directory)).grammar.help]
        else runHelp state args (registered commands).directory := by
  unfold execute
  dsimp only
  rw [hword, find?_help_registered, if_neg (by decide)]
  rfl

/-- After any commands were added, help is the command that is declared from them, and its
declaration has no mistakes. Every command that it accepts is found, and a line for it either has
wrong arguments or prints once. -/
theorem help_registered (commands : List (Command σ)) :
    (registered commands).find? "help" = some (helpCommand (registered commands).directory) ∧
    (∀ state, (helpDraft (helpTopics (registered commands).directory)).build =
      .ok ((helpCommand (registered commands).directory).grammar state)) ∧
    (∀ state rest args name,
      ((helpCommand (registered commands).directory).grammar state).parseLine rest = .ok args →
      args.get? "command" = some name →
        ∃ e, (registered commands).directory.find? name = some e) ∧
    ∀ state line, (Line.split line.toList).command = "help" →
      (∃ e, (registered commands).execute state line = .fail state (.invalidArgs "help" e)) ∨
        ∃ text, (registered commands).execute state line = .print state [text] := by
  have hfind := find?_help_registered commands
  have hknown : ∀ state rest args name,
      ((helpCommand (registered commands).directory).grammar state).parseLine rest = .ok args →
      args.get? "command" = some name →
        ∃ e, (registered commands).directory.find? name = some e :=
    fun state rest args name h hname => find?_of_mem_helpTopics (mem_of_parse_helpDraft h hname)
  refine ⟨hfind, fun state => build_helpDraft _, hknown, fun state line hword => ?_⟩
  rw [execute_help commands state hword]
  cases hparse : (helpDraft (helpTopics (registered commands).directory)).grammar.parseLine
      (Line.split line.toList).rest with
  | error e => exact .inl ⟨e, rfl⟩
  | ok args =>
    dsimp only
    split
    · exact .inr ⟨_, rfl⟩
    · exact .inr (runHelp_eq_print fun name => hknown state _ args name hparse)

def claimed : List (Command Unit) :=
  overtaken ++ [idle "help" ["h"] "another help", idle "quit" ["help"] "leave"]

theorem helpTopics_claimed : helpTopics (registered claimed).directory =
    [.described "show" "show a shelf", .described "quit" "leave",
      .described "show" "show a shelf", .described "help" helpDoc] := by
  have hlisted : (registered claimed).directory.names = ["help", "list", "quit", "show"] :=
    sortedNames_eq (by decide) (by decide) (by decide) (by decide)
  rw [helpTopics, hlisted]
  rfl

/-- The name that was taken over is not accepted, and the command that claimed help is. -/
theorem help_registered_claimed :
    (∃ e, (registered claimed).execute () "help list" = .fail () (.invalidArgs "help" e)) ∧
    (∃ text, (registered claimed).execute () " help quit" = .print () [text]) ∧
    ∃ args, ((helpCommand (registered claimed).directory).grammar ()).parseLine "quit" = .ok args ∧
      args.get? "command" = some "quit" ∧
      ∃ e, (registered claimed).directory.find? "quit" = some e := by
  obtain ⟨-, -, hknown, hline⟩ := help_registered claimed
  have hwords : (Line.split "help list".toList).command = "help" ∧
      (Line.split " help quit".toList).command = "help" := by decide
  have hlist := execute_help claimed () hwords.1
  have hquit := execute_help claimed () hwords.2
  rw [helpTopics_claimed] at hlist hquit
  refine ⟨?_, ?_, ?_⟩
  · refine (hline () "help list" hwords.1).resolve_right ?_
    rintro ⟨text, hprint⟩
    cases hprint.symm.trans hlist
  · refine (hline () " help quit" hwords.2).resolve_left ?_
    rintro ⟨e, hfail⟩
    cases hfail.symm.trans hquit
  · have hparse : (((helpCommand (registered claimed).directory).grammar ()).parseLine "quit").map
        (·.get? "command") = .ok (some "quit") := by
      rw [helpCommand, helpTopics_claimed]
      rfl
    obtain ⟨args, hargs, hname⟩ := map_eq_ok.mp hparse
    exact ⟨args, hargs, hname, hknown () _ args _ hargs hname⟩

end Registry

end Tabwise.Shell
