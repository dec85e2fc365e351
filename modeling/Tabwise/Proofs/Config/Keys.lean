import Tabwise.Config.Toml

/-! # Every key once

A key may be written once in a table, so the tables of a document that is read have every key once,
those inside arrays and inline tables as well.
-/

namespace Tabwise.Config

/-- No table inside a value has a key twice. -/
inductive Value.Keyed : Value → Prop
  | string (text : String) : Keyed (.string text)
  | integer (n : Int) : Keyed (.integer n)
  | float (written : String) : Keyed (.float written)
  | boolean (b : Bool) : Keyed (.boolean b)
  | datetime (written : String) : Keyed (.datetime written)
  | array {elements : List Value} : (∀ v ∈ elements, v.Keyed) → Keyed (.array elements)
  | table {fields : Table} : fields.keys.Nodup → (∀ e ∈ fields.entries, e.2.Keyed) →
      Keyed (.table fields)

inductive Node.Keyed : Node → Prop
  | closed {v : Value} : v.Keyed → Keyed (.closed v)
  | table {origin : Origin} {fields : Fields} : (fields.map (·.1)).Nodup →
      (∀ e ∈ fields, e.2.Keyed) → Keyed (.table origin fields)
  | tables {last : Fields} {earlier : List Fields} : (last.map (·.1)).Nodup →
      (∀ e ∈ last, e.2.Keyed) → (∀ fields ∈ earlier, (fields.map (·.1)).Nodup) →
      (∀ fields ∈ earlier, ∀ e ∈ fields, e.2.Keyed) → Keyed (.tables last earlier)

theorem Value.keyed_table {fields : Table} :
    (Value.table fields).Keyed ↔ fields.keys.Nodup ∧ ∀ e ∈ fields.entries, e.2.Keyed := by
  constructor
  · rintro (_ | _ | _ | _ | _ | _ | ⟨hn, he⟩)
    exact ⟨hn, he⟩
  · rintro ⟨hn, he⟩
    exact .table hn he

theorem Value.Keyed.nodup_keys {fields : Table} (h : (Value.table fields).Keyed) :
    fields.keys.Nodup := (Value.keyed_table.mp h).1

theorem Value.Keyed.find? {fields : Table} {k : String} {v : Value}
    (h : (Value.table fields).Keyed) (hv : fields.find? k = some v) : v.Keyed :=
  (Value.keyed_table.mp h).2 (k, v) (InsertionMap.mem_of_find? hv)

namespace Node

def KeyedFields (fields : Fields) : Prop := (fields.map (·.1)).Nodup ∧ ∀ e ∈ fields, e.2.Keyed

variable {fields fields' : Fields} {k : String} {keys path : List String} {n : Node} {v : Value}

theorem keyedFields_nil : KeyedFields [] := ⟨List.nodup_nil, fun _ he => by cases he⟩

theorem put_eq (k : String) (n : Node) (fields : Fields) :
    put k n fields = InsertionMap.put k n fields := by
  induction fields with
  | nil => rfl
  | cons e rest ih => rw [put, InsertionMap.put, ih]

theorem KeyedFields.put (h : KeyedFields fields) (hn : n.Keyed) (k : String) :
    KeyedFields (put k n fields) := by
  rw [put_eq]
  refine ⟨InsertionMap.nodup_keys_insert (m := ⟨fields⟩) h.1 k n, fun e he => ?_⟩
  rcases InsertionMap.mem_put he with rfl | he
  · exact hn
  · exact h.2 e he

theorem KeyedFields.lookup (h : KeyedFields fields) (hn : fields.lookup k = some n) : n.Keyed :=
  h.2 (k, n) (InsertionMap.mem_of_find? (m := ⟨fields⟩) hn)

theorem KeyedFields.within {origin : Origin} {f : Bool → Fields → Option Fields}
    (h : KeyedFields fields)
    (hf : ∀ dotted inner inner', KeyedFields inner → f dotted inner = some inner' →
      KeyedFields inner')
    (hw : within origin k f fields = some fields') : KeyedFields fields' := by
  unfold Node.within at hw
  split at hw
  · obtain ⟨inner', hi, rfl⟩ := Option.map_eq_some_iff.mp hw
    have hinner := hf _ _ _ keyedFields_nil hi
    exact h.put (.table hinner.1 hinner.2) k
  · next o inner hl =>
    split at hw
    · cases hw
    · obtain ⟨inner', hi, rfl⟩ := Option.map_eq_some_iff.mp hw
      cases h.lookup hl with
      | table hn he =>
        have hinner := hf _ _ _ ⟨hn, he⟩ hi
        exact h.put (.table hinner.1 hinner.2) k
  · next last earlier hl =>
    obtain ⟨last', hi, rfl⟩ := Option.map_eq_some_iff.mp hw
    cases h.lookup hl with
    | tables hn he hns hes =>
      have hlast := hf _ _ _ ⟨hn, he⟩ hi
      exact h.put (.tables hlast.1 hlast.2 hns hes) k
  · cases hw

theorem KeyedFields.addValue {deep dotted : Bool} (h : KeyedFields fields) (hv : v.Keyed)
    (ha : addValue deep dotted keys v fields = some fields') : KeyedFields fields' := by
  induction keys generalizing deep dotted fields fields' with
  | nil => cases ha
  | cons k path ih =>
    cases path with
    | nil =>
      rw [Node.addValue] at ha
      split at ha
      · cases ha
        exact h.put (.closed hv) k
      · cases ha
    | cons j path => exact h.within (fun _ _ _ hi hf => ih hi hf) ha

theorem KeyedFields.addTable (h : KeyedFields fields) (ha : addTable path fields = some fields') :
    KeyedFields fields' := by
  induction path generalizing fields fields' with
  | nil => cases ha
  | cons k path ih =>
    cases path with
    | nil =>
      rw [Node.addTable] at ha
      split at ha
      · cases ha
        exact h.put (.table keyedFields_nil.1 keyedFields_nil.2) k
      · next inner hl =>
        cases ha
        cases h.lookup hl with
        | table hn he => exact h.put (.table hn he) k
      · cases ha
    | cons j path => exact h.within (fun _ _ _ hi hf => ih hi hf) ha

theorem KeyedFields.addElement (h : KeyedFields fields)
    (ha : addElement path fields = some fields') : KeyedFields fields' := by
  induction path generalizing fields fields' with
  | nil => cases ha
  | cons k path ih =>
    cases path with
    | nil =>
      rw [Node.addElement] at ha
      split at ha
      · cases ha
        exact h.put (.tables keyedFields_nil.1 keyedFields_nil.2 (by simp) (by simp)) k
      · next last earlier hl =>
        cases ha
        cases h.lookup hl with
        | tables hn he hns hes =>
          refine h.put (.tables keyedFields_nil.1 keyedFields_nil.2 ?_ ?_) k
          · exact List.forall_mem_cons.mpr ⟨hn, hns⟩
          · exact List.forall_mem_cons.mpr ⟨he, hes⟩
      · cases ha
    | cons j path => exact h.within (fun _ _ _ hi hf => ih hi hf) ha

theorem KeyedFields.addUnder (h : KeyedFields fields) (hv : v.Keyed)
    (ha : addUnder path keys v fields = some fields') : KeyedFields fields' := by
  induction path generalizing fields fields' with
  | nil => exact h.addValue hv ha
  | cons k path ih => exact h.within (fun _ _ _ hi hf => ih hi hf) ha

theorem fieldValues_eq (fields : Fields) :
    fieldValues fields = fields.map fun e => (e.1, e.2.toValue) := by
  induction fields with
  | nil => rfl
  | cons e rest ih => rw [fieldValues, ih, List.map_cons]

theorem tableValues_eq (tables : List Fields) :
    tableValues tables = tables.map fun fields => .table ⟨fieldValues fields⟩ := by
  induction tables with
  | nil => rfl
  | cons fields rest ih => rw [tableValues, ih, List.map_cons]

theorem keyed_fieldValues (hn : (fields.map (·.1)).Nodup) (he : ∀ e ∈ fields, e.2.toValue.Keyed) :
    (Value.table ⟨fieldValues fields⟩).Keyed := by
  rw [fieldValues_eq]
  refine .table ?_ fun e hmem => ?_
  · rw [InsertionMap.keys, List.map_map]
    exact hn
  · obtain ⟨e, he', rfl⟩ := List.mem_map.mp hmem
    exact he e he'

theorem Keyed.toValue (h : n.Keyed) : n.toValue.Keyed := by
  induction h with
  | closed hv => exact hv
  | table hn _ ih => exact keyed_fieldValues hn ih
  | tables hn _ hns _ ih ihs =>
    rw [Node.toValue, tableValues_eq]
    refine .array fun v hv => ?_
    rcases List.mem_append.mp hv with hv | hv
    · obtain ⟨fields, hmem, rfl⟩ := List.mem_map.mp (List.mem_reverse.mp hv)
      exact keyed_fieldValues (hns fields hmem) (ihs fields hmem)
    · rw [List.mem_singleton.mp hv]
      exact keyed_fieldValues hn ih

end Node

variable {cs rest : List Char} {v : Value} {fields : Fields}

theorem keyed_wordValue? (h : wordValue? cs = some v) : v.Keyed := by
  simp only [wordValue?] at h
  repeat' split at h
  all_goals cases h
  all_goals constructor

theorem keyed_scalar (h : scalar cs = some (v, rest)) : v.Keyed := by
  unfold scalar at h
  split at h
  · obtain ⟨x, -, hx⟩ := Option.map_eq_some_iff.mp h
    cases hx
    exact .string _
  · obtain ⟨x, hx, he⟩ := Option.map_eq_some_iff.mp h
    cases he
    exact keyed_wordValue? hx

/-- What reading makes of values, of the elements of arrays and of inline tables has every key
once. -/
theorem keyed_read (fuel : Nat) :
    (∀ cs v rest, readValue fuel cs = some (v, rest) → v.Keyed) ∧
    (∀ read cs v rest, (∀ v ∈ read, v.Keyed) → readElements fuel read cs = some (v, rest) →
      v.Keyed) ∧
    ∀ read cs v rest, Node.KeyedFields read → readFields fuel read cs = some (v, rest) →
      v.Keyed := by
  -- the three readers call each other, each time with less fuel
  induction fuel with
  | zero =>
    refine ⟨?_, ?_, ?_⟩ <;> simp [readValue, readElements, readFields]
  | succ fuel ih =>
    obtain ⟨ihvalue, ihelements, ihfields⟩ := ih
    refine ⟨fun cs v rest h => ?_, fun read cs v rest hread h => ?_,
      fun read cs v rest hread h => ?_⟩
    · unfold readValue at h
      split at h
      · exact ihelements _ _ _ _ (by simp) h
      · exact ihfields _ _ _ _ Node.keyedFields_nil h
      · exact keyed_scalar h
    · obtain ⟨gap, -, h⟩ := Option.bind_eq_some_iff.mp h
      split at h
      · cases h
        exact .array fun v hv => hread v (List.mem_reverse.mp hv)
      · obtain ⟨⟨v₁, rest₁⟩, hv, h⟩ := Option.bind_eq_some_iff.mp h
        have hall : ∀ v ∈ v₁ :: read, v.Keyed :=
          List.forall_mem_cons.mpr ⟨ihvalue _ _ _ hv, hread⟩
        obtain ⟨gap, -, h⟩ := Option.bind_eq_some_iff.mp h
        split at h
        · exact ihelements _ _ _ _ hall h
        · cases h
          exact .array fun v hv => hall v (List.mem_reverse.mp hv)
        · cases h
    · obtain ⟨gap, -, h⟩ := Option.bind_eq_some_iff.mp h
      split at h
      · cases h
        exact Node.keyed_fieldValues hread.1 fun e he => (hread.2 e he).toValue
      · obtain ⟨⟨keys, rest₁⟩, -, h⟩ := Option.bind_eq_some_iff.mp h
        obtain ⟨⟨u, rest₂⟩, he, h⟩ := Option.bind_eq_some_iff.mp h
        obtain ⟨⟨v₁, rest₃⟩, hv, h⟩ := Option.bind_eq_some_iff.mp h
        obtain ⟨read₁, ha, h⟩ := Option.bind_eq_some_iff.mp h
        have hall := hread.addValue (ihvalue _ _ _ hv) ha
        obtain ⟨gap, -, h⟩ := Option.bind_eq_some_iff.mp h
        split at h
        · exact ihfields _ _ _ _ hall h
        · cases h
          exact Node.keyed_fieldValues hall.1 fun e he => (hall.2 e he).toValue
        · cases h

theorem keyed_readStatement {r r' : Reading} (hr : Node.KeyedFields r.fields)
    (h : readStatement r cs = some (r', rest)) : Node.KeyedFields r'.fields := by
  unfold readStatement at h
  split at h
  · obtain ⟨⟨path, rest₁⟩, -, h⟩ := Option.bind_eq_some_iff.mp h
    dsimp only at h
    split at h
    · obtain ⟨fields, ha, h⟩ := Option.bind_eq_some_iff.mp h
      cases h
      exact hr.addElement ha
    · cases h
  · obtain ⟨⟨path, rest₁⟩, -, h⟩ := Option.bind_eq_some_iff.mp h
    dsimp only at h
    split at h
    · obtain ⟨fields, ha, h⟩ := Option.bind_eq_some_iff.mp h
      cases h
      exact hr.addTable ha
    · cases h
  · obtain ⟨⟨keys, rest₁⟩, -, h⟩ := Option.bind_eq_some_iff.mp h
    obtain ⟨⟨u, rest₂⟩, he, h⟩ := Option.bind_eq_some_iff.mp h
    obtain ⟨⟨v, rest₃⟩, hv, h⟩ := Option.bind_eq_some_iff.mp h
    obtain ⟨fields, ha, h⟩ := Option.bind_eq_some_iff.mp h
    cases h
    exact hr.addUnder ((keyed_read _).1 _ _ _ hv) ha

theorem keyed_readLines {fuel : Nat} {r r' : Reading} (hr : Node.KeyedFields r.fields)
    (h : readLines fuel r cs = some r') : Node.KeyedFields r'.fields := by
  induction fuel generalizing r cs with
  | zero => cases h
  | succ fuel ih =>
    obtain ⟨gap, -, h⟩ := Option.bind_eq_some_iff.mp h
    split at h
    · cases h
      exact hr
    · obtain ⟨⟨r₁, rest₁⟩, hs, h⟩ := Option.bind_eq_some_iff.mp h
      have hr₁ := keyed_readStatement hr hs
      obtain ⟨after, -, h⟩ := Option.bind_eq_some_iff.mp h
      split at h
      · cases h
        exact hr₁
      · obtain ⟨line, -, h⟩ := Option.bind_eq_some_iff.mp h
        exact ih hr₁ h

/-- A document that is read has every key once, in every table. -/
theorem keyed_parseToml? {text : String} {fields : Table} (h : parseToml? text = some fields) :
    (Value.table fields).Keyed := by
  obtain ⟨r, hr, rfl⟩ := Option.map_eq_some_iff.mp h
  have hfields := keyed_readLines Node.keyedFields_nil hr
  exact Node.keyed_fieldValues hfields.1 fun e he => (hfields.2 e he).toValue

end Tabwise.Config
