import Mathlib.Control.Monad.Basic
import Tabwise.Proofs.Config.Fields

/-! # A local document over a global one

Two documents that can each be read alone are read together key by key: the local document wins,
then the global one, then the default. Options that are listed in an array are not laid over each
other, and two tables that name different sort orders cannot be read together.
-/

namespace Tabwise.Config

/-- What two layers give an option. Tables are laid over each other, and anything else stands
alone. -/
def layeredOption (key : String) : Option Value → Option Value → Option Value
  | some (.table left), some (.table right) => (right.find? key).or (left.find? key)
  | _, some v | some v, none => (v.fields optionKeys).lookup key
  | none, none => none

/-- Each option is what its value reads as, or its default. -/
structure OptionsFrom (value? : String → Option Value) (o : Options) : Prop where
  abbreviated : Reads Value.boolean? true (value? "abbreviation-allowed") o.abbreviated
  ignoreCase : Reads Value.boolean? false (value? "case-insensitive") o.ignoreCase
  order : Reads Value.order? .alphabetical (value? "sort") o.order
  maxDescribed : Reads Value.count? 50 (value? "max-described-items") o.maxDescribed
  descriptiveHeader : Reads Value.string? "Description" (value? "default-descriptive-header")
    o.descriptiveHeader

/-- Settings are those of the local document, then of the global one, then the defaults. -/
structure Layered (left right : Table) (s : Settings) : Prop where
  prompt : Reads Value.string? "> " ((right.find? "prompt").or (left.find? "prompt")) s.prompt
  terminalWidth : Reads (fun v => v.count?.map some) none
    ((right.find? "terminal-width").or (left.find? "terminal-width")) s.terminalWidth
  completion : OptionsFrom
    (fun key => layeredOption key (left.find? "completion") (right.find? "completion"))
    s.completion

def RivalOrders (v w : Value) : Prop :=
  ∃ x y, v = .table x ∧ w = .table y ∧ (Value.table x).order? ≠ (Value.table y).order?

def RivalOptions (v w : Value) : Prop :=
  ∃ l r x y, v = .table l ∧ w = .table r ∧ l.find? "sort" = some x ∧ r.find? "sort" = some y ∧
    RivalOrders x y

/-- Both documents write the sort order as a table, and they name different orders. -/
def Rival (left right : Table) : Prop :=
  ∃ v w, left.find? "completion" = some v ∧ right.find? "completion" = some w ∧ RivalOptions v w

variable {left right : Table} {v w : Value} {o o' : SortOrder} {depth : Nat}

theorem orderOf?_inj {a b : String} (ha : orderOf? a = some o) (hb : orderOf? b = some o) :
    a = b := by
  unfold orderOf? at ha hb
  split at ha <;> split at hb
  all_goals first
    | rfl
    | (cases ha <;> cases hb)

theorem order?_table_eq_some (h : (Value.table left).order? = some o) :
    ∃ name inner, left = ⟨[(name, inner)]⟩ ∧ orderOf? name = some o := by
  unfold Value.order? at h
  split at h
  · next he => cases he
  · next name he =>
    cases he
    exact ⟨name, _, rfl, h⟩
  · next name he =>
    cases he
    exact ⟨name, _, rfl, h⟩
  · cases h

/-- Two tables with the same name are an order together, and two with different names are none. -/
theorem order?_mergeTables (hl : (Value.table left).order? = some o)
    (hr : (Value.table right).order? = some o') :
    (Value.table (mergeTables 0 left right)).order? = if o = o' then some o' else none := by
  obtain ⟨a, x, rfl, ha⟩ := order?_table_eq_some hl
  obtain ⟨b, y, rfl, hb⟩ := order?_table_eq_some hr
  by_cases ho : o = o'
  · obtain rfl := orderOf?_inj ha (ho ▸ hb)
    have hmerge : mergeTables 0 ⟨[(a, x)]⟩ ⟨[(a, y)]⟩ = ⟨[(a, y)]⟩ := by
      simp [mergeTables, InsertionMap.insert, InsertionMap.put, InsertionMap.find?, merge_zero]
    rw [hmerge, hr, if_pos ho]
  · have hne : a ≠ b := by
      rintro rfl
      exact ho (Option.some.inj (ha.symm.trans hb))
    have hmerge : mergeTables 0 ⟨[(a, x)]⟩ ⟨[(b, y)]⟩ = ⟨[(a, x), (b, y)]⟩ := by
      simp [mergeTables, InsertionMap.insert, InsertionMap.put, InsertionMap.find?,
        InsertionMap.lookup_cons_eq, hne, Ne.symm hne]
    rw [hmerge, if_neg ho]
    simp [Value.order?]

/-- Two orders are one together unless they are tables with different names. -/
theorem isSome_order?_merge (hv : v.order?.isSome = true) (hw : w.order?.isSome = true) :
    (v.merge 1 w).order?.isSome = true ↔ ¬RivalOrders v w := by
  by_cases ht : ∃ x y, v = .table x ∧ w = .table y
  · obtain ⟨x, y, rfl, rfl⟩ := ht
    obtain ⟨o, ho⟩ := Option.isSome_iff_exists.mp hv
    obtain ⟨o', ho'⟩ := Option.isSome_iff_exists.mp hw
    rw [merge_tables, order?_mergeTables ho ho']
    by_cases he : o = o' <;> simp [RivalOrders, ho, ho', he]
  · rw [merge_eq_right ht]
    refine iff_of_true hw ?_
    rintro ⟨x, y, hx, hy, -⟩
    exact ht ⟨x, y, hx, hy⟩

theorem rightWins_order : RightWins 1 Value.order? := by
  intro v w x hv hw h
  by_cases ht : ∃ x y, v = .table x ∧ w = .table y
  · obtain ⟨l, r, rfl, rfl⟩ := ht
    obtain ⟨o, ho⟩ := Option.isSome_iff_exists.mp hv
    obtain ⟨o', ho'⟩ := Option.isSome_iff_exists.mp hw
    rw [merge_tables, order?_mergeTables ho ho'] at h
    split at h
    · exact ho'.trans h
    · cases h
  · rwa [merge_eq_right ht] at h

theorem OptionsFrom.of_fields {value? : String → Option Value} {o : Options}
    (h : ∀ {β : Type} {key : String} {read : Value → Option β} {get : Options → β},
      Field setOption key read get → RightWins 1 read →
        Reads read (get {}) (value? key) (get o)) : OptionsFrom value? o where
  abbreviated := h (fun _ _ _ _ hs => (setOption_eq_some hs).1) (RightWins.of_scalar fun _ => rfl)
  ignoreCase := h (fun _ _ _ _ hs => (setOption_eq_some hs).2.1) (RightWins.of_scalar fun _ => rfl)
  order := h (fun _ _ _ _ hs => (setOption_eq_some hs).2.2.1) rightWins_order
  maxDescribed := h (fun _ _ _ _ hs => (setOption_eq_some hs).2.2.2.1)
    (RightWins.of_scalar fun _ => rfl)
  descriptiveHeader := h (fun _ _ _ _ hs => (setOption_eq_some hs).2.2.2.2)
    (RightWins.of_scalar fun _ => rfl)

theorem nodup_optionKeys : optionKeys.Nodup := by decide

theorem OptionsFrom.of_value {o : Options} (hv : v.Keyed) (h : optionsOf? v = some o) :
    OptionsFrom (fun key => (v.fields optionKeys).lookup key) o :=
  .of_fields fun hf _ => hf.reads nodup_optionKeys hv h

theorem OptionsFrom.of_tables {o ol or : Options} (hl : left.keys.Nodup) (hr : right.keys.Nodup)
    (hleft : optionsOf? (.table left) = some ol) (hright : optionsOf? (.table right) = some or)
    (h : optionsOf? (.table (mergeTables 1 left right)) = some o) :
    OptionsFrom (fun key => (right.find? key).or (left.find? key)) o :=
  .of_fields fun hf hw => hf.reads_mergeTables hw hl hr hleft hright h

/-- Options that both values read as are read together unless their orders are rivals. -/
theorem isSome_optionsOf?_merge (hkv : v.Keyed) (hkw : w.Keyed)
    (hv : (optionsOf? v).isSome = true) (hw : (optionsOf? w).isSome = true) :
    (optionsOf? (v.merge 2 w)).isSome = true ↔ ¬RivalOptions v w := by
  by_cases ht : ∃ l r, v = .table l ∧ w = .table r
  · obtain ⟨l, r, rfl, rfl⟩ := ht
    have hl := hkv.nodup_keys
    have hr := hkw.nodup_keys
    have hsets := (uniform_setOption.isSome_table hl).mp hv
    have hsets' := (uniform_setOption.isSome_table hr).mp hw
    rw [merge_tables]
    refine (uniform_setOption.isSome_mergeTables hl hr hv hw).trans ⟨fun h => ?_, fun h => ?_⟩
    · rintro ⟨_, _, x, y, ⟨⟩, ⟨⟩, hx, hy, hne⟩
      have hboth := h "sort" x y hx hy
      have horder := hsets "sort" x hx
      have horder' := hsets' "sort" y hy
      rw [isSome_setOption] at hboth horder horder'
      exact (isSome_order?_merge horder horder').mp hboth hne
    · intro k x y hx hy
      have hk := hsets k x hx
      have hk' := hsets' k y hy
      rw [isSome_setOption] at hk hk' ⊢
      split at hk'
      · rwa [merge_of_scalar hk' fun _ => rfl]
      · rwa [merge_of_scalar hk' fun _ => rfl]
      · exact (isSome_order?_merge hk hk').mpr fun hne => h ⟨l, r, x, y, rfl, rfl, hx, hy, hne⟩
      · rwa [merge_of_scalar hk' fun _ => rfl]
      · rwa [merge_of_scalar hk' fun _ => rfl]
      · cases hk'
  · rw [merge_eq_right ht]
    refine iff_of_true hw ?_
    rintro ⟨l, r, -, -, hl, hr, -⟩
    exact ht ⟨l, r, hl, hr⟩

theorem layeredOption_lower (key : String) (v : Value) :
    layeredOption key (some v) none = (v.fields optionKeys).lookup key := by
  cases v <;> rfl

theorem layeredOption_of_not_tables (key : String)
    (ht : ¬∃ l r, v = .table l ∧ w = .table r) :
    layeredOption key (some v) (some w) = (w.fields optionKeys).lookup key := by
  cases v <;> cases w <;> first | rfl | exact absurd ⟨_, _, rfl, rfl⟩ ht

theorem OptionsFrom.of_layers {v? w? : Option Value} {o : Options}
    (hv : ∀ v, v? = some v → v.Keyed ∧ (optionsOf? v).isSome = true)
    (hw : ∀ w, w? = some w → w.Keyed ∧ (optionsOf? w).isSome = true)
    (h : Reads optionsOf? {} (mergeFields 2 v? w?) o) :
    OptionsFrom (fun key => layeredOption key v? w?) o := by
  cases v? with
  | none =>
    cases w? with
    | none => exact .of_fields fun _ _ => congrArg _ h
    | some w => exact .of_value (hw w rfl).1 h
  | some v =>
    cases w? with
    | none =>
      simp only [layeredOption_lower]
      exact .of_value (hv v rfl).1 h
    | some w =>
      change optionsOf? (v.merge 2 w) = some o at h
      obtain ⟨hkv, hreadv⟩ := hv v rfl
      obtain ⟨hkw, hreadw⟩ := hw w rfl
      by_cases ht : ∃ l r, v = .table l ∧ w = .table r
      · obtain ⟨l, r, rfl, rfl⟩ := ht
        obtain ⟨ol, hol⟩ := Option.isSome_iff_exists.mp hreadv
        obtain ⟨or, hor⟩ := Option.isSome_iff_exists.mp hreadw
        exact .of_tables hkv.nodup_keys hkw.nodup_keys hol hor h
      · rw [merge_eq_right ht] at h
        simp only [layeredOption_of_not_tables _ ht]
        exact .of_value hkw h

theorem options_of_settings (hk : (Value.table left).Keyed)
    (hs : (settingsOf? (.table left)).isSome = true) (hv : left.find? "completion" = some v) :
    v.Keyed ∧ (optionsOf? v).isSome = true := by
  have hread := (uniform_setSetting.isSome_table hk.nodup_keys).mp hs _ v hv
  rw [isSome_setSetting] at hread
  exact ⟨hk.find? hv, hread⟩

/-- Settings that both documents read as are read together unless the orders are rivals. -/
theorem isSome_settingsOf?_merge (hkl : (Value.table left).Keyed) (hkr : (Value.table right).Keyed)
    (hl : (settingsOf? (.table left)).isSome = true)
    (hr : (settingsOf? (.table right)).isSome = true) :
    (settingsOf? (.table (mergeTables 2 left right))).isSome = true ↔ ¬Rival left right := by
  have hoptions {v w : Value} (hv : left.find? "completion" = some v)
      (hw : right.find? "completion" = some w) :
      (optionsOf? (v.merge 2 w)).isSome = true ↔ ¬RivalOptions v w := by
    obtain ⟨hkv, hreadv⟩ := options_of_settings hkl hl hv
    obtain ⟨hkw, hreadw⟩ := options_of_settings hkr hr hw
    exact isSome_optionsOf?_merge hkv hkw hreadv hreadw
  have hnl := hkl.nodup_keys
  have hnr := hkr.nodup_keys
  refine (uniform_setSetting.isSome_mergeTables hnl hnr hl hr).trans ⟨fun h => ?_, fun h => ?_⟩
  · rintro ⟨v, w, hv, hw, hrival⟩
    have hboth := h "completion" v w hv hw
    rw [isSome_setSetting] at hboth
    exact (hoptions hv hw).mp hboth hrival
  · intro k v w hv hw
    have hk := (uniform_setSetting.isSome_table hnr).mp hr k w hw
    rw [isSome_setSetting] at hk ⊢
    split at hk
    · rwa [merge_of_scalar hk fun _ => rfl]
    · rwa [merge_of_scalar hk fun _ => rfl]
    · exact (hoptions hv hw).mpr fun hrival => h ⟨v, w, hv, hw, hrival⟩
    · cases hk

/-- Settings that are read together are layered. -/
theorem layered_mergeTables {s sl sr : Settings} (hkl : (Value.table left).Keyed)
    (hkr : (Value.table right).Keyed) (hl : settingsOf? (.table left) = some sl)
    (hr : settingsOf? (.table right) = some sr)
    (h : settingsOf? (.table (mergeTables 2 left right)) = some s) : Layered left right s := by
  have hnl := hkl.nodup_keys
  have hnr := hkr.nodup_keys
  have hprompt : Field setSetting "prompt" Value.string? Settings.prompt :=
    fun _ _ _ _ hs => (setSetting_eq_some hs).1
  have hwidth : Field setSetting "terminal-width" (fun v => v.count?.map some)
      Settings.terminalWidth := fun _ _ _ _ hs => (setSetting_eq_some hs).2.1
  have hcompletion : Field setSetting "completion" optionsOf? Settings.completion :=
    fun _ _ _ _ hs => (setSetting_eq_some hs).2.2
  constructor
  case prompt =>
    exact hprompt.reads_mergeTables (RightWins.of_scalar fun _ => rfl) hnl hnr hl hr h
  case terminalWidth =>
    exact hwidth.reads_mergeTables (RightWins.of_scalar fun _ => rfl) hnl hnr hl hr h
  case completion =>
    have hmerged : Reads optionsOf? {} ((mergeTables 2 left right).find? "completion")
        s.completion := hcompletion.foldlM (nodup_keys_mergeTables hnl) h
    rw [find?_mergeTables hnr] at hmerged
    exact .of_layers (fun v hv => options_of_settings hkl (Option.isSome_of_eq_some hl) hv)
      (fun w hw => options_of_settings hkr (Option.isSome_of_eq_some hr) hw) hmerged

variable {read : String → Option Table} {global overlay source : Source}

/-- The reader puts no key into a table twice. -/
def KeyedReader (read : String → Option Table) : Prop :=
  ∀ document fields, read document = some fields → (Value.table fields).Keyed

/-- A source that cannot be read, or a document that breaks a rule. -/
inductive Source.Broken (read : String → Option Table) : Source → Prop
  | failed (message : String) : Broken read (.failed message)
  | malformed {document : String} : read document = none → Broken read (.text document)

/-- A document with its fields that can be loaded on its own. -/
structure Source.Valid (read : String → Option Table) (source : Source) (fields : Table) :
    Prop where
  parsed : ∃ document, source = .text document ∧ read document = some fields
  alone : ∃ s, loadWith read source .missing = .ok s

def Source.alone (read : String → Option Table) : Source → Except LoadError Settings
  | text document =>
    match (read document).bind fun fields => settingsOf? (.table fields) with
    | some s => .ok s
    | none => .error .badConfig
  | missing => .ok {}
  | failed message => .error (.unreadable message)

structure LoadsLayers (read : String → Option Table) (global overlay : Source)
    (result : Except LoadError Settings) : Prop where
  globalAlone : overlay = .missing → result = global.alone read
  overlayAlone : global = .missing → result = overlay.alone read
  broken : global.Broken read ∨ overlay.Broken read → ∃ e, result = .error e
  layered : ∀ left right, global.Valid read left → overlay.Valid read right → ¬Rival left right →
    ∃ s, result = .ok s ∧ Layered left right s
  rival : ∀ left right, global.Valid read left → overlay.Valid read right → Rival left right →
    result = .error .badConfig

theorem Source.Broken.value? (h : source.Broken read) : ∃ e, source.value? read = .error e := by
  cases h with
  | failed message => exact ⟨_, rfl⟩
  | malformed hp => exact ⟨.badConfig, by rw [Source.value?, hp]⟩

theorem load_of_values {v? w? : Option Value} (hg : global.value? read = .ok v?)
    (ho : overlay.value? read = .ok w?) :
    loadWith read global overlay = settingsOfLayers v? w? := by
  simp only [loadWith, hg, ho, bind, Except.bind]

theorem settingsOfLayers_of_some {v? w? : Option Value} {s : Settings}
    (hv : layered v? w? = some v) (hs : settingsOf? v = some s) :
    settingsOfLayers v? w? = .ok s := by
  rw [settingsOfLayers, hv]
  simp only [hs]

theorem settingsOfLayers_of_none {v? w? : Option Value} (hv : layered v? w? = some v)
    (hs : settingsOf? v = none) : settingsOfLayers v? w? = .error .badConfig := by
  rw [settingsOfLayers, hv]
  simp only [hs]

theorem load_missing (read : String → Option Table) (source : Source) :
    loadWith read source .missing = source.alone read := by
  cases source with
  | text document =>
    cases hp : read document with
    | none => simp [loadWith, Source.value?, Source.alone, hp, bind, Except.bind]
    | some fields =>
      have hv : (Source.text document).value? read = .ok (some (.table fields)) := by
        rw [Source.value?, hp]
      rw [load_of_values hv rfl, Source.alone, hp, Option.bind_some]
      cases hs : settingsOf? (.table fields) with
      | none => exact settingsOfLayers_of_none rfl hs
      | some s => exact settingsOfLayers_of_some rfl hs
  | missing => rfl
  | failed message => rfl

theorem missing_load (read : String → Option Table) (source : Source) :
    loadWith read .missing source = loadWith read source .missing := by
  simp only [loadWith, bind, Except.bind]
  cases source.value? read with
  | error e => rfl
  | ok v? => cases v? <;> rfl

theorem Source.Valid.value? (h : source.Valid read left) :
    source.value? read = .ok (some (.table left)) := by
  obtain ⟨document, rfl, hp⟩ := h.parsed
  rw [Source.value?, hp]

theorem Source.Valid.keyed (h : source.Valid read left) (hread : KeyedReader read) :
    (Value.table left).Keyed := by
  obtain ⟨document, -, hp⟩ := h.parsed
  exact hread document left hp

theorem Source.Valid.settings (h : source.Valid read left) :
    ∃ s, settingsOf? (.table left) = some s := by
  obtain ⟨s, hs⟩ := h.alone
  rw [load_of_values h.value? rfl] at hs
  cases hset : settingsOf? (.table left) with
  | none => cases (settingsOfLayers_of_none rfl hset).symm.trans hs
  | some s => exact ⟨s, rfl⟩

/-- Whatever reads the documents, they are layered as long as it puts no key twice. -/
theorem KeyedReader.loadsLayers (hread : KeyedReader read) (global overlay : Source) :
    LoadsLayers read global overlay (loadWith read global overlay) where
  globalAlone := by
    rintro rfl
    exact load_missing read global
  overlayAlone := by
    rintro rfl
    exact (missing_load read overlay).trans (load_missing read overlay)
  broken := by
    rintro (h | h)
    · obtain ⟨e, he⟩ := h.value?
      exact ⟨e, by simp [loadWith, he, bind, Except.bind]⟩
    · obtain ⟨e, he⟩ := h.value?
      cases hg : global.value? read with
      | error e' => exact ⟨e', by simp [loadWith, hg, bind, Except.bind]⟩
      | ok v? => exact ⟨e, by simp [loadWith, hg, he, bind, Except.bind]⟩
  layered left right hl hr hrival := by
    obtain ⟨sl, hsl⟩ := hl.settings
    obtain ⟨sr, hsr⟩ := hr.settings
    have hkl := hl.keyed hread
    have hkr := hr.keyed hread
    have hboth := (isSome_settingsOf?_merge hkl hkr (Option.isSome_of_eq_some hsl)
      (Option.isSome_of_eq_some hsr)).mpr hrival
    obtain ⟨s, hs⟩ := Option.isSome_iff_exists.mp hboth
    refine ⟨s, ?_, layered_mergeTables hkl hkr hsl hsr hs⟩
    exact (load_of_values hl.value? hr.value?).trans (settingsOfLayers_of_some rfl hs)
  rival left right hl hr hrival := by
    obtain ⟨sl, hsl⟩ := hl.settings
    obtain ⟨sr, hsr⟩ := hr.settings
    have hboth := isSome_settingsOf?_merge (hl.keyed hread) (hr.keyed hread)
      (Option.isSome_of_eq_some hsl) (Option.isSome_of_eq_some hsr)
    have hnone : settingsOf? (.table (mergeTables 2 left right)) = none :=
      Option.not_isSome_iff_eq_none.mp fun hsome => hboth.mp hsome hrival
    exact (load_of_values hl.value? hr.value?).trans (settingsOfLayers_of_none rfl hnone)

/-- Two documents are layered key by key; a missing one is left out, and one that cannot be read
is an error. -/
theorem loads_layers (global overlay : Source) :
    LoadsLayers parseToml? global overlay (load global overlay) := by
  have hread : KeyedReader parseToml? := fun _ _ => keyed_parseToml?
  exact hread.loadsLayers global overlay

def Sample.user : String :=
  "prompt = \"$ \"\nterminal-width = 100\n[completion]\nsort = \"natural\"\n"

def Sample.directory : String := "[completion]\nmax-described-items = 20\n"

/-- The document of a directory is laid over that of a user. -/
theorem loads_layers_directory : ∃ left right s, Source.Valid parseToml? (.text Sample.user) left ∧
    Source.Valid parseToml? (.text Sample.directory) right ∧ ¬Rival left right ∧
    load (.text Sample.user) (.text Sample.directory) = .ok s ∧ Layered left right s ∧
    s.prompt = "$ " ∧ s.completion.order = .natural ∧ s.completion.maxDescribed = 20 := by
  have huser : load (.text Sample.user) .missing =
      .ok ⟨"$ ", some 100, { order := .natural }⟩ := by decide +kernel
  have hdirectory : load (.text Sample.directory) .missing =
      .ok { completion := { maxDescribed := 20 } } := by decide +kernel
  have hboth : load (.text Sample.user) (.text Sample.directory) =
      .ok ⟨"$ ", some 100, { order := .natural, maxDescribed := 20 }⟩ := by decide +kernel
  obtain ⟨left, hleft⟩ := Option.isSome_iff_exists.mp
    (show (parseToml? Sample.user).isSome = true by decide +kernel)
  obtain ⟨right, hright⟩ := Option.isSome_iff_exists.mp
    (show (parseToml? Sample.directory).isSome = true by decide +kernel)
  have hl : Source.Valid parseToml? (.text Sample.user) left := ⟨⟨_, rfl, hleft⟩, ⟨_, huser⟩⟩
  have hr : Source.Valid parseToml? (.text Sample.directory) right :=
    ⟨⟨_, rfl, hright⟩, ⟨_, hdirectory⟩⟩
  have hlayers := loads_layers (.text Sample.user) (.text Sample.directory)
  have hrival : ¬Rival left right := fun h => by
    cases hboth.symm.trans (hlayers.rival left right hl hr h)
  obtain ⟨s, hs, hlayered⟩ := hlayers.layered left right hl hr hrival
  cases hboth.symm.trans hs
  exact ⟨left, right, _, hl, hr, hrival, hboth, hlayered, rfl, rfl, rfl⟩

/-- Options that are listed in an array are not laid over others, and sort orders that are written
as tables exclude each other. -/
theorem load_not_by_key :
    (load (.text "[completion]\nsort = \"natural\"\n") .missing =
        .ok { completion := { order := .natural } } ∧
      load (.text "completion = []\n") .missing = .ok {} ∧
      load (.text "[completion]\nsort = \"natural\"\n") (.text "completion = []\n") = .ok {}) ∧
    load (.text "[completion.sort]\nnatural = \x7b\x7d\n") .missing =
        .ok { completion := { order := .natural } } ∧
      load (.text "[completion.sort]\nalphabetical = \x7b\x7d\n") .missing = .ok {} ∧
      load (.text "[completion.sort]\nnatural = \x7b\x7d\n")
        (.text "[completion.sort]\nalphabetical = \x7b\x7d\n") = .error .badConfig := by
  refine ⟨⟨?_, ?_, ?_⟩, ?_, ?_, ?_⟩ <;> decide +kernel

end Tabwise.Config
