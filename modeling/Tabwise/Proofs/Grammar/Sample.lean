import Tabwise.Proofs.Grammar.Valid

/-! # Small grammars

A runner takes flags of several kinds, a program and the rest of the line. A library shelves items
by subcommand; one of its subcommands is the runner. An archive has the library below it, a packer
has two groups that share a flag, an atlas has a letter for a prefix character, a copier has
positionals of several lengths, a courier lists the choices of its flags, a sweeper declares the
separator as an alias, a picker lists small, large and huge integers, and a launcher has a flag that
takes the rest of the line.
-/

namespace Tabwise.Sample

def runner : Draft :=
  { Draft.new "run" with
    arguments := [
      { Argument.new (.flag ["-v", "--verbose"]) "" with action := .count },
      { Argument.new (.flag ["-e", "--env"]) "" with arity := .exactly 2 },
      { Argument.new (.flag ["-t", "--tag"]) "" with
        action := .append
        arity := .oneOrMore
        choices := .listed [.plain "a", .plain "b"] },
      { Argument.new (.flag ["-q"]) "" with action := .appendConst, constant := some "quiet" },
      Argument.new .positional "program",
      { Argument.new .positional "args" with arity := .remainder }]
    helpFlag := true }

def library : Draft :=
  { Draft.new "library" with
    arguments := [
      { Argument.new (.flag ["--dry-run"]) "" with action := .storeTrue },
      { Argument.new (.flag ["--force"]) "" with action := .storeTrue },
      { Argument.new (.flag ["--shelf"]) "" with mandatory := true },
      Argument.new (.selector ⟨[⟨"run", none, runner.grammar⟩], [("r", "run")]⟩) "action"]
    groups := [["dry_run", "force"]] }

def archive : Draft :=
  { Draft.new "archive" with
    arguments := [
      Argument.new (.flag ["-u", "--user"]) "",
      Argument.new (.selector ⟨[⟨"library", none, library.grammar⟩], [("lib", "library")]⟩) "area"] }

def packer : Draft :=
  { Draft.new "pack" with
    arguments := [
      { Argument.new (.flag ["--zip"]) "" with action := .storeTrue },
      { Argument.new (.flag ["--tar"]) "" with action := .storeTrue },
      { Argument.new (.flag ["--raw"]) "" with action := .storeTrue }]
    groups := [["zip", "tar"], ["tar", "raw"]] }

def atlas : Draft :=
  { Draft.new "atlas" with
    prefixChars := "x"
    arguments := [
      { Argument.new (.flag ["xy"]) "" with action := .storeTrue },
      { Argument.new .positional "street" with
        choices := .listed [.plain "Xenias", .plain "ΟΔΟΣ", .plain "ΟΔΟΣΗ"] }] }

def copier : Draft :=
  { Draft.new "copy" with
    arguments := [
      { Argument.new (.flag ["-v", "--verbose"]) "" with action := .count },
      { Argument.new .positional "sources" with arity := .range 1 (some 3) },
      { Argument.new .positional "mode" with arity := .optional },
      { Argument.new .positional "targets" with arity := .oneOrMore }] }

def courier : Draft :=
  { Draft.new "send" with
    arguments := [
      { Argument.new (.flag ["-m", "--mode"]) "" with
        choices := .listed [.plain "fast", .plain "safe"] },
      { Argument.new (.flag ["-t", "--tag"]) "" with
        action := .append
        choices := .listed [.plain "a", .plain "b"] }] }

def sweeper : Draft :=
  { Draft.new "sweep" with
    arguments := [{ Argument.new (.flag ["--", "--all"]) "" with action := .storeTrue }] }

/-- More than any finite number of double precision. -/
def huge : String := String.ofList ('1' :: List.replicate 309 '0')

def picker : Draft :=
  { Draft.new "pick" with
    arguments := [
      { Argument.new (.flag ["-n"]) "" with
        arity := .oneOrMore
        choices := .listed [.plain "10", .plain "9", .plain "-1"] },
      { Argument.new (.flag ["-l"]) "" with
        choices := .listed [.plain "9007199254740993", .plain "9007199254740992"] },
      { Argument.new (.flag ["-x"]) "" with
        choices := .listed [.plain huge, .plain "5"] }] }

def launcher : Draft :=
  { Draft.new "launch" with
    arguments := [
      { Argument.new (.flag ["-v"]) "" with action := .count },
      { Argument.new (.flag ["-x", "--exec"]) "" with arity := .remainder }] }

theorem library_nests {a : Argument} {set : Subcommands} {c : Subcommand}
    (ha : a ∈ library.arguments) (hk : a.kind = .selector set) (hc : c ∈ set.commands) :
    c.grammar = runner.grammar := by
  simp only [library, List.mem_cons, List.not_mem_nil, or_false] at ha
  rcases ha with rfl | rfl | rfl | rfl
  · cases hk
  · cases hk
  · cases hk
  · obtain rfl := Argument.Kind.selector.inj hk
    rw [List.mem_singleton.mp hc]

theorem kind_ne_selector {d : Draft} {a : Argument} {set : Subcommands}
    (hflat : ∀ a ∈ d.arguments, a.subcommands?.isNone) (ha : a ∈ d.arguments) :
    a.kind ≠ .selector set := by
  intro hk
  have hnone := hflat a ha
  rw [Argument.subcommands?_eq_some.mpr hk] at hnone
  cases hnone

theorem built_of_flat {d : Draft} {g : Grammar} (hbuild : d.build = .ok g)
    (hflat : ∀ a ∈ d.arguments, a.subcommands?.isNone) : g.Built :=
  .intro hbuild fun _ ha _ hk => absurd hk (kind_ne_selector hflat ha)

theorem atlas_built : atlas.grammar.Built := built_of_flat (d := atlas) rfl (by decide)

theorem runner_built : runner.grammar.Built := built_of_flat (d := runner) rfl (by decide)

theorem copier_built : copier.grammar.Built := built_of_flat (d := copier) rfl (by decide)

theorem courier_built : courier.grammar.Built := built_of_flat (d := courier) rfl (by decide)

theorem library_built : library.grammar.Built := by
  refine .intro (d := library) rfl fun a ha set hk c hc => ?_
  rw [library_nests ha hk hc]
  exact runner_built

theorem archive_built : archive.grammar.Built := by
  refine .intro (d := archive) rfl fun a ha set hk c hc => ?_
  simp only [archive, List.mem_cons, List.not_mem_nil, or_false] at ha
  rcases ha with rfl | rfl
  · cases hk
  · obtain rfl := Argument.Kind.selector.inj hk
    rw [List.mem_singleton.mp hc]
    exact library_built

/-- What holds of the library and of the runner holds at every level of the library. -/
theorem library_everywhere {P : Grammar → Prop} (hP : ∀ g prog, P g → P (g.rename prog))
    (hlibrary : P library.unnamed) (hrunner : P runner.unnamed) :
    library.grammar.Everywhere P := by
  refine Draft.everywhere_grammar hP hlibrary fun a ha set hk c hc => ?_
  rw [library_nests ha hk hc]
  exact Draft.everywhere_grammar hP hrunner fun _ ha _ hk =>
    absurd hk (kind_ne_selector (by decide) ha)

theorem library_distinctNames : library.grammar.DistinctNames :=
  library_everywhere Grammar.nodup_dest_rename (by decide) (by decide)

end Tabwise.Sample
