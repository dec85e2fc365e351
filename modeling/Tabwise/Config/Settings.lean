import Tabwise.Completion.Options
import Tabwise.Config.Toml
import Tabwise.Number.Count

/-! # Settings of the shell

Settings are read from a global document with a local one laid over it; either may be missing.
Unknown keys and values of the wrong kind are refused. Fields may also be listed in order in an
array.
-/

namespace Tabwise.Config

structure Settings where
  prompt : String := "> "
  /-- The width of tables, if it is not to be found out. -/
  terminalWidth : Option Nat := none
  completion : Options := {}
  deriving DecidableEq

def Value.string? : Value → Option String
  | string s => some s
  | _ => none

def Value.boolean? : Value → Option Bool
  | boolean b => some b
  | _ => none

def Value.count? : Value → Option Nat
  | integer n => if 0 ≤ n && n ≤ Number.maxWord then some n.toNat else none
  | _ => none

def orderOf? : String → Option SortOrder
  | "alphabetical" => some .alphabetical
  | "natural" => some .natural
  | _ => none

/-- An order by its name, or as the only key of a table with an empty value. -/
def Value.order? : Value → Option SortOrder
  | string s => orderOf? s
  | table ⟨[(name, .table ⟨[]⟩)]⟩ | table ⟨[(name, .array [])]⟩ => orderOf? name
  | _ => none

/-- Sets fields from a table by key, or from an array in the order of the keys. -/
def readFieldsOf {α : Type} (keys : List String) (set : α → String → Value → Option α)
    (a : α) : Value → Option α
  | .table fields => fields.entries.foldlM (fun a e => set a e.1 e.2) a
  | .array elements =>
    if elements.length ≤ keys.length then
      (keys.zip elements).foldlM (fun a e => set a e.1 e.2) a
    else none
  | _ => none

def optionKeys : List String :=
  ["abbreviation-allowed", "case-insensitive", "sort", "max-described-items",
    "default-descriptive-header"]

def setOption (o : Options) : String → Value → Option Options
  | "abbreviation-allowed", v => v.boolean?.map ({ o with abbreviated := · })
  | "case-insensitive", v => v.boolean?.map ({ o with ignoreCase := · })
  | "sort", v => v.order?.map ({ o with order := · })
  | "max-described-items", v => v.count?.map ({ o with maxDescribed := · })
  | "default-descriptive-header", v => v.string?.map ({ o with descriptiveHeader := · })
  | _, _ => none

def optionsOf? (v : Value) : Option Options := readFieldsOf optionKeys setOption {} v

def settingKeys : List String := ["prompt", "terminal-width", "completion"]

def setSetting (s : Settings) : String → Value → Option Settings
  | "prompt", v => v.string?.map ({ s with prompt := · })
  | "terminal-width", v => v.count?.map fun n => { s with terminalWidth := some n }
  | "completion", v => (optionsOf? v).map ({ s with completion := · })
  | _, _ => none

def settingsOf? (v : Value) : Option Settings := readFieldsOf settingKeys setSetting {} v

/-- What became of reading a document. -/
inductive Source where
  | text (document : String)
  | missing
  | failed (message : String)

inductive LoadError where
  | badConfig
  | unreadable (message : String)
  deriving DecidableEq

def Source.value? (read : String → Option Table) : Source → Except LoadError (Option Value)
  | text document =>
    match read document with
    | some fields => .ok (some (.table fields))
    | none => .error .badConfig
  | missing => .ok none
  | failed message => .error (.unreadable message)

/-- Tables are merged down to the fields of the options. -/
def mergeDepth : Nat := 3

/-- The value of a local document over a global one. -/
def layered : Option Value → Option Value → Option Value
  | some global, some overlay => some (Value.merge mergeDepth global overlay)
  | some v, none | none, some v => some v
  | none, none => none

def settingsOfLayers (global overlay : Option Value) : Except LoadError Settings :=
  match layered global overlay with
  | none => .ok {}
  | some v => match settingsOf? v with
    | some s => .ok s
    | none => .error .badConfig

/-- The settings of a global document with a local one laid over it, as a reader reads them. -/
def loadWith (read : String → Option Table) (global overlay : Source) :
    Except LoadError Settings := do
  let global ← global.value? read
  let overlay ← overlay.value? read
  settingsOfLayers global overlay

def load (global overlay : Source) : Except LoadError Settings :=
  loadWith parseToml? global overlay

end Tabwise.Config
