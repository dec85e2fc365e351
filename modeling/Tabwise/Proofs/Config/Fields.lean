import Tabwise.Config.Settings
import Tabwise.Proofs.Config.Keys
import Tabwise.Proofs.Config.Merge

/-! # Settings read field by field

A record is read by setting one field after the other. A field is what the value under its key
reads as, and whether all fields can be set depends on each of them alone.
-/

namespace Tabwise.Config

/-- What a field is after reading: the value under its key, or the default if there is none. -/
def Reads {β : Type} (read : Value → Option β) (default : β) : Option Value → β → Prop
  | some v, x => read v = some x
  | none, x => x = default

/-- The fields that a value writes, as a table or in the order of the keys. -/
def Value.fields (keys : List String) : Value → List (String × Value)
  | .table fields => fields.entries
  | .array elements => keys.zip elements
  | _ => []

/-- The key sets one field to what its value reads as, and no other key does. -/
def Field {α β : Type} (set : α → String → Value → Option α) (key : String)
    (read : Value → Option β) (get : α → β) : Prop :=
  ∀ a a' k v, set a k v = some a' → if k = key then read v = some (get a') else get a' = get a

/-- Whether a field can be set does not depend on the others. -/
def Uniform {α : Type} (set : α → String → Value → Option α) : Prop :=
  ∀ a a' k v, (set a k v).isSome = (set a' k v).isSome

section Record

variable {α β : Type} {keys : List String} {set : α → String → Value → Option α} {key : String}
  {read : Value → Option β} {get : α → β} {a b : α} {v : Value} {fields : Table}
  {entries : List (String × Value)}

theorem Field.foldlM (hf : Field set key read get) (hn : (entries.map (·.1)).Nodup)
    (h : entries.foldlM (fun a e => set a e.1 e.2) a = some b) :
    Reads read (get a) (entries.lookup key) (get b) := by
  induction entries generalizing a with
  | nil =>
    cases h
    rfl
  | cons e rest ih =>
    obtain ⟨k, v⟩ := e
    obtain ⟨hk, hrest⟩ := List.nodup_cons.mp hn
    obtain ⟨a₁, hset, h⟩ := Option.bind_eq_some_iff.mp h
    have hreads := ih hrest h
    rw [InsertionMap.lookup_cons_eq]
    have hfield := hf a a₁ k v hset
    by_cases he : key = k
    · subst he
      rw [InsertionMap.lookup_eq_none hk] at hreads
      rw [if_pos rfl] at hfield ⊢
      exact hfield.trans (congrArg some hreads.symm)
    · rw [if_neg (Ne.symm he)] at hfield
      rw [if_neg he, ← hfield]
      exact hreads

theorem Uniform.foldlM (hu : Uniform set) (a : α) :
    (entries.foldlM (fun a e => set a e.1 e.2) a).isSome = true ↔
      ∀ e ∈ entries, (set a e.1 e.2).isSome = true := by
  induction entries generalizing a with
  | nil => simp
  | cons e rest ih =>
    rw [List.foldlM_cons, List.forall_mem_cons]
    cases hset : set a e.1 e.2 with
    | none => simp
    | some a₁ =>
      have hrest : (∀ e ∈ rest, (set a₁ e.1 e.2).isSome = true) ↔
          ∀ e ∈ rest, (set a e.1 e.2).isSome = true :=
        forall₂_congr fun e _ => by rw [hu a₁ a]
      simpa using (ih a₁).trans hrest

theorem foldlM_of_readFieldsOf (h : readFieldsOf keys set a v = some b) :
    (v.fields keys).foldlM (fun a e => set a e.1 e.2) a = some b := by
  cases v with
  | table fields => exact h
  | array elements =>
    simp only [readFieldsOf] at h
    split at h
    · exact h
    · cases h
  | _ => cases h

theorem map_fst_zip_prefixes (keys : List String) (elements : List Value) :
    (keys.zip elements).map (·.1) <+: keys := by
  induction keys generalizing elements with
  | nil => simp
  | cons k keys ih =>
    cases elements with
    | nil => simp
    | cons v elements => simpa using ih elements

theorem nodup_fields (hk : keys.Nodup) (hv : v.Keyed) : ((v.fields keys).map (·.1)).Nodup := by
  cases hv with
  | table hn _ => exact hn
  | @array elements _ => exact hk.sublist (map_fst_zip_prefixes keys elements).sublist
  | _ => exact List.nodup_nil

/-- A field that was read is what the value under its key reads as. -/
theorem Field.reads (hf : Field set key read get) (hk : keys.Nodup) (hv : v.Keyed)
    (h : readFieldsOf keys set a v = some b) :
    Reads read (get a) ((v.fields keys).lookup key) (get b) :=
  hf.foldlM (nodup_fields hk hv) (foldlM_of_readFieldsOf h)

theorem Uniform.isSome_table (hu : Uniform set) (hn : fields.keys.Nodup) :
    (readFieldsOf keys set a (.table fields)).isSome = true ↔
      ∀ k v, fields.find? k = some v → (set a k v).isSome = true := by
  refine (hu.foldlM a).trans ⟨fun h k v hv => ?_, fun h e he => ?_⟩
  · exact h (k, v) (InsertionMap.mem_of_find? hv)
  · exact h e.1 e.2 (InsertionMap.lookup_of_mem hn he)

end Record

/-- Where two layers give a field a value, it is that of the upper one. -/
def RightWins {β : Type} (depth : Nat) (read : Value → Option β) : Prop :=
  ∀ v w x, (read v).isSome = true → (read w).isSome = true →
    read (v.merge depth w) = some x → read w = some x

section Layers

variable {α β : Type} {keys : List String} {set : α → String → Value → Option α} {key : String}
  {read : Value → Option β} {get : α → β} {a b bl br : α} {depth : Nat} {left right : Table}

theorem merge_of_scalar {v w : Value} (hw : (read w).isSome = true)
    (hr : ∀ t, read (.table t) = none) : v.merge depth w = w := by
  refine merge_eq_right ?_
  rintro ⟨x, y, -, rfl⟩
  rw [hr y] at hw
  cases hw

theorem RightWins.of_scalar (hr : ∀ t, read (.table t) = none) : RightWins depth read :=
  fun _ _ _ _ hw h => by rwa [merge_of_scalar hw hr] at h

/-- Two tables that can be read can be read together if the fields that both write can still be
set. -/
theorem Uniform.isSome_mergeTables (hu : Uniform set) (hl : left.keys.Nodup)
    (hr : right.keys.Nodup)
    (hleft : (readFieldsOf keys set a (.table left)).isSome = true)
    (hright : (readFieldsOf keys set a (.table right)).isSome = true) :
    (readFieldsOf keys set a (.table (mergeTables depth left right))).isSome = true ↔
      ∀ k v w, left.find? k = some v → right.find? k = some w →
        (set a k (v.merge depth w)).isSome = true := by
  rw [hu.isSome_table hl] at hleft
  rw [hu.isSome_table hr] at hright
  rw [hu.isSome_table (nodup_keys_mergeTables hl)]
  refine forall_congr' fun k => ?_
  rw [find?_mergeTables hr]
  cases hv : left.find? k with
  | none =>
    cases hw : right.find? k with
    | none => simp [mergeFields]
    | some w => simpa [mergeFields] using hright k w hw
  | some v =>
    cases hw : right.find? k with
    | none => simpa [mergeFields] using hleft k v hv
    | some w => simp [mergeFields]

/-- A field of two tables read together is that of the upper table, else that of the lower one,
else the default. -/
theorem Field.reads_mergeTables (hf : Field set key read get) (hwins : RightWins depth read)
    (hl : left.keys.Nodup) (hr : right.keys.Nodup)
    (hleft : readFieldsOf keys set a (.table left) = some bl)
    (hright : readFieldsOf keys set a (.table right) = some br)
    (h : readFieldsOf keys set a (.table (mergeTables depth left right)) = some b) :
    Reads read (get a) ((right.find? key).or (left.find? key)) (get b) := by
  have hlower : Reads read (get a) (left.find? key) (get bl) := hf.foldlM hl hleft
  have hupper : Reads read (get a) (right.find? key) (get br) := hf.foldlM hr hright
  have hmerged : Reads read (get a) ((mergeTables depth left right).find? key) (get b) :=
    hf.foldlM (nodup_keys_mergeTables hl) h
  rw [find?_mergeTables hr] at hmerged
  cases hw : right.find? key with
  | none =>
    rw [hw] at hmerged
    cases hv : left.find? key <;> rwa [hv] at hmerged
  | some w =>
    rw [hw] at hupper hmerged
    cases hv : left.find? key with
    | none => rwa [hv] at hmerged
    | some v =>
      rw [hv] at hlower hmerged
      exact hwins v w _ (Option.isSome_of_eq_some hlower) (Option.isSome_of_eq_some hupper) hmerged

end Layers

variable {v w : Value} {k : String}

theorem isSome_setOption (o : Options) (k : String) (v : Value) : (setOption o k v).isSome =
    match k with
    | "abbreviation-allowed" | "case-insensitive" => v.boolean?.isSome
    | "sort" => v.order?.isSome
    | "max-described-items" => v.count?.isSome
    | "default-descriptive-header" => v.string?.isSome
    | _ => false := by
  unfold setOption
  split <;> simp

theorem isSome_setSetting (s : Settings) (k : String) (v : Value) : (setSetting s k v).isSome =
    match k with
    | "prompt" => v.string?.isSome
    | "terminal-width" => v.count?.isSome
    | "completion" => (optionsOf? v).isSome
    | _ => false := by
  unfold setSetting
  split <;> simp

theorem uniform_setOption : Uniform setOption := fun o o' k v => by
  rw [isSome_setOption, isSome_setOption]

theorem uniform_setSetting : Uniform setSetting := fun s s' k v => by
  rw [isSome_setSetting, isSome_setSetting]

theorem setOption_eq_some {o o' : Options} (h : setOption o k v = some o') :
    (if k = "abbreviation-allowed" then v.boolean? = some o'.abbreviated
      else o'.abbreviated = o.abbreviated) ∧
    (if k = "case-insensitive" then v.boolean? = some o'.ignoreCase
      else o'.ignoreCase = o.ignoreCase) ∧
    (if k = "sort" then v.order? = some o'.order else o'.order = o.order) ∧
    (if k = "max-described-items" then v.count? = some o'.maxDescribed
      else o'.maxDescribed = o.maxDescribed) ∧
    if k = "default-descriptive-header" then v.string? = some o'.descriptiveHeader
      else o'.descriptiveHeader = o.descriptiveHeader := by
  unfold setOption at h
  split at h
  all_goals first
    | cases h
    | obtain ⟨x, hx, rfl⟩ := Option.map_eq_some_iff.mp h
      simp [hx]

theorem setSetting_eq_some {s s' : Settings} (h : setSetting s k v = some s') :
    (if k = "prompt" then v.string? = some s'.prompt else s'.prompt = s.prompt) ∧
    (if k = "terminal-width" then v.count?.map some = some s'.terminalWidth
      else s'.terminalWidth = s.terminalWidth) ∧
    if k = "completion" then optionsOf? v = some s'.completion
      else s'.completion = s.completion := by
  unfold setSetting at h
  split at h
  all_goals first
    | cases h
    | obtain ⟨x, hx, rfl⟩ := Option.map_eq_some_iff.mp h
      simp [hx]

end Tabwise.Config
