import Mathlib.Logic.Basic
import Tabwise.Proofs.Config.Keys
import Tabwise.Proofs.Config.Merge

/-! # Values along a path

A path of keys leads into tables inside tables. In a value laid over another one it leads to what
the two layers give its end, as long as both have tables on the way and depth is left. Laying the
same value over the result once more changes nothing.
-/

namespace Tabwise.Config

/-- The value that a path of keys leads to. -/
def Value.at? : List String → Value → Option Value
  | [], v => some v
  | k :: path, .table fields => (fields.find? k).bind (Value.at? path)
  | _ :: _, _ => none

def Value.Passes (path : List String) (v : Value) : Prop :=
  ∀ p, p <+: path → p ≠ path → ∃ fields, v.at? p = some (.table fields)

/-- What two layers give a place that has so much depth left. -/
structure LaidOver (depth : Nat) (v? w? laid : Option Value) : Prop where
  below : w? = none → laid = v?
  above : v? = none → laid = w?
  tables : ∀ x y, v? = some (.table x) → w? = some (.table y) → 0 < depth →
    laid = some ((Value.table x).merge depth (.table y))
  replaced : ∀ v w, v? = some v → w? = some w →
    (depth = 0 ∨ ¬∃ x y, v = .table x ∧ w = .table y) → laid = some w

variable {depth : Nat} {left right x y : Table} {u v w : Value} {v? w? : Option Value} {k : String}
  {path : List String}

theorem laidOver_mergeFields (depth : Nat) (v? w? : Option Value) :
    LaidOver depth v? w? (mergeFields depth v? w?) where
  below := by
    rintro rfl
    cases v? <;> rfl
  above := by
    rintro rfl
    cases w? <;> rfl
  tables x y hv hw _ := by rw [hv, hw, mergeFields]
  replaced v w hv hw hout := by
    rw [hv, hw, mergeFields]
    rcases hout with rfl | htables
    · rw [merge_zero]
    · rw [merge_eq_right htables]

theorem at?_cons (k : String) (path : List String) (fields : Table) :
    (Value.table fields).at? (k :: path) = (fields.find? k).bind (Value.at? path) := rfl

theorem at?_append (p path : List String) (v : Value) :
    v.at? (p ++ path) = (v.at? p).bind (Value.at? path) := by
  induction p generalizing v with
  | nil => rfl
  | cons k p ih =>
    cases v with
    | table fields =>
      rw [List.cons_append, at?_cons, at?_cons]
      cases fields.find? k with
      | none => rfl
      | some u => exact ih u
    | _ => rfl

theorem passes_of_at? (h : v.at? path = some u) : v.Passes path := by
  rintro p ⟨rest, rfl⟩ hne
  rw [at?_append, Option.bind_eq_some_iff] at h
  obtain ⟨inner, hp, hrest⟩ := h
  cases rest with
  | nil => exact absurd (List.append_nil p).symm hne
  | cons k rest =>
    cases inner with
    | table fields => exact ⟨fields, hp⟩
    | _ => cases hrest

theorem Value.Passes.table (h : v.Passes (k :: path)) : ∃ fields, v = .table fields := by
  obtain ⟨fields, hv⟩ := h [] List.nil_prefix (by simp)
  exact ⟨fields, Option.some.inj hv⟩

theorem Value.Passes.tail (h : (Value.table x).Passes (k :: path)) (hv : x.find? k = some v) :
    v.Passes path := by
  intro p hp hne
  have hcons := h (k :: p) (List.cons_prefix_cons.mpr ⟨rfl, hp⟩) (by simpa using hne)
  rwa [at?_cons, hv] at hcons

theorem Value.Keyed.at? (h : v.Keyed) (hu : v.at? path = some u) : u.Keyed := by
  induction path generalizing v with
  | nil =>
    cases hu
    exact h
  | cons k path ih =>
    cases v with
    | table fields =>
      rw [at?_cons] at hu
      obtain ⟨inner, hk, hu⟩ := Option.bind_eq_some_iff.mp hu
      exact ih (h.find? hk) hu
    | _ => cases hu

/-- Each key on the way takes one from the depth. -/
theorem at?_merge (hw : w.Keyed) (hlength : path.length ≤ depth) (hpv : v.Passes path)
    (hpw : w.Passes path) : (v.merge depth w).at? path =
      mergeFields (depth - path.length) (v.at? path) (w.at? path) := by
  induction path generalizing v w depth with
  | nil => rfl
  | cons k path ih =>
    obtain ⟨x, rfl⟩ := hpv.table
    obtain ⟨y, rfl⟩ := hpw.table
    cases depth with
    | zero => cases hlength
    | succ depth =>
      rw [merge_tables, at?_cons, at?_cons, at?_cons, find?_mergeTables hw.nodup_keys,
        List.length_cons, Nat.add_sub_add_right]
      cases hx : x.find? k with
      | none =>
        cases y.find? k with
        | none => rfl
        | some w' => exact ((laidOver_mergeFields _ none (w'.at? path)).above rfl).symm
      | some v' =>
        cases hy : y.find? k with
        | none => exact ((laidOver_mergeFields _ (v'.at? path) none).below rfl).symm
        | some w' =>
          exact ih (hw.find? hy) (Nat.le_of_succ_le_succ hlength) (hpv.tail hx) (hpw.tail hy)

theorem mem_keys_mergeTables :
    k ∈ (mergeTables depth left right).keys ↔ k ∈ left.keys ∨ k ∈ right.keys := by
  obtain ⟨entries⟩ := right
  unfold mergeTables
  induction entries generalizing left with
  | nil => simp [InsertionMap.keys]
  | cons e rest ih =>
    rw [List.foldl_cons, ih, InsertionMap.mem_keys_insert, or_assoc]
    simp [InsertionMap.keys]

/-- Two layers without a key twice have none together. -/
theorem keyed_merge (hv : v.Keyed) (hw : w.Keyed) : (v.merge depth w).Keyed := by
  induction depth generalizing v w with
  | zero => exact hw
  | succ depth ih =>
    by_cases ht : ∃ x y, v = .table x ∧ w = .table y
    · obtain ⟨x, y, rfl, rfl⟩ := ht
      have hn : (mergeTables depth x y).keys.Nodup := nodup_keys_mergeTables hv.nodup_keys
      rw [merge_tables]
      refine .table hn fun e he => ?_
      have hfind := InsertionMap.lookup_of_mem hn he
      rw [← InsertionMap.find?, find?_mergeTables hw.nodup_keys] at hfind
      obtain hx | hy | ⟨u, u', hx, hy, he⟩ := mergeFields_eq_some hfind
      · exact hv.find? hx
      · exact hw.find? hy
      · exact he ▸ ih (hv.find? hx) (hw.find? hy)
    · rwa [merge_eq_right ht]

theorem mergeTables_eq_left
    (h : ∀ e ∈ right.entries, ∃ v, left.find? e.1 = some v ∧ v.merge depth e.2 = v) :
    mergeTables depth left right = left := by
  obtain ⟨entries⟩ := right
  unfold mergeTables
  induction entries with
  | nil => rfl
  | cons e rest ih =>
    obtain ⟨⟨v, hfind, hmerge⟩, hrest⟩ := List.forall_mem_cons.mp h
    rw [List.foldl_cons, hfind]
    dsimp only
    rw [hmerge, InsertionMap.insert_of_find? hfind]
    exact ih hrest

theorem merge_self (hw : w.Keyed) : w.merge depth w = w := by
  induction depth generalizing w with
  | zero => rfl
  | succ depth ih =>
    cases hw with
    | table hn he =>
      rw [merge_tables, mergeTables_eq_left]
      exact fun e hmem => ⟨e.2, InsertionMap.lookup_of_mem hn hmem, ih (he e hmem)⟩
    | _ => rfl

theorem merge_merge (hw : w.Keyed) : (v.merge depth w).merge depth w = v.merge depth w := by
  induction depth generalizing v w with
  | zero => rfl
  | succ depth ih =>
    by_cases ht : ∃ x y, v = .table x ∧ w = .table y
    · obtain ⟨x, y, rfl, rfl⟩ := ht
      rw [merge_tables, merge_tables, mergeTables_eq_left]
      intro e he
      have hy : y.find? e.1 = some e.2 := InsertionMap.lookup_of_mem hw.nodup_keys he
      rw [find?_mergeTables hw.nodup_keys, hy]
      cases x.find? e.1 with
      | none => exact ⟨e.2, rfl, merge_self (hw.find? hy)⟩
      | some u => exact ⟨u.merge depth e.2, rfl, ih (hw.find? hy)⟩
    · rw [merge_eq_right ht, merge_self hw]

/-- A table laid over another one down to a depth. -/
structure DeepMerge (depth : Nat) (left right : Table) (merged : Value) : Prop where
  /-- Behind tables each path leads to what the layers give its end. -/
  laid : ∀ path, path ≠ [] → path.length ≤ depth → (Value.table left).Passes path →
    (Value.table right).Passes path →
      LaidOver (depth - path.length) ((Value.table left).at? path) ((Value.table right).at? path)
        (merged.at? path)
  /-- Tables at the same place become one with the keys of both. -/
  keys : ∀ path x y, path.length < depth → (Value.table left).at? path = some (.table x) →
    (Value.table right).at? path = some (.table y) →
      ∃ z, merged.at? path = some (.table z) ∧ ∀ k, k ∈ z.keys ↔ k ∈ x.keys ∨ k ∈ y.keys
  keyed : merged.Keyed
  again : merged.merge depth (.table right) = merged

theorem deepMerge_merge (depth : Nat) (hl : (Value.table left).Keyed)
    (hr : (Value.table right).Keyed) :
    DeepMerge depth left right ((Value.table left).merge depth (.table right)) where
  laid path _ hlength hpl hpr := by
    rw [at?_merge hr hlength hpl hpr]
    exact laidOver_mergeFields _ _ _
  keys path x y hlength hx hy := by
    rw [at?_merge hr (Nat.le_of_lt hlength) (passes_of_at? hx) (passes_of_at? hy), hx, hy,
      mergeFields]
    obtain ⟨rest, hrest⟩ := Nat.exists_eq_succ_of_ne_zero (Nat.sub_ne_zero_of_lt hlength)
    rw [hrest, merge_tables]
    exact ⟨_, rfl, fun k => mem_keys_mergeTables⟩
  keyed := keyed_merge hl hr
  again := merge_merge hr

def Sample.lower : Table := ⟨[("a", .table ⟨[("b", .table ⟨[("x", .integer 1), ("y", .integer 2)]⟩),
  ("c", .table ⟨[]⟩), ("d", .integer 4)]⟩)]⟩

def Sample.upper : Table := ⟨[("a", .table ⟨[("b", .table ⟨[("x", .integer 3)]⟩),
  ("c", .string "c"), ("d", .table ⟨[("z", .integer 5)]⟩)]⟩)]⟩

/-- A field that only the lower table has is kept while depth is left. -/
theorem deepMerge_merge_sample :
    (Value.table Sample.lower).Keyed ∧ (Value.table Sample.upper).Keyed ∧
    DeepMerge 3 Sample.lower Sample.upper
      ((Value.table Sample.lower).merge 3 (.table Sample.upper)) ∧
    (Value.table Sample.lower).merge 3 (.table Sample.upper) =
      .table ⟨[("a", .table ⟨[("b", .table ⟨[("x", .integer 3), ("y", .integer 2)]⟩),
        ("c", .string "c"), ("d", .table ⟨[("z", .integer 5)]⟩)]⟩)]⟩ ∧
    DeepMerge 2 Sample.lower Sample.upper
      ((Value.table Sample.lower).merge 2 (.table Sample.upper)) ∧
    (Value.table Sample.lower).merge 2 (.table Sample.upper) = .table Sample.upper := by
  have hl : (Value.table Sample.lower).Keyed := by
    simp [Sample.lower, Value.keyed_table, InsertionMap.keys, Value.Keyed.integer]
  have hr : (Value.table Sample.upper).Keyed := by
    simp [Sample.upper, Value.keyed_table, InsertionMap.keys, Value.Keyed.integer,
      Value.Keyed.string]
  exact ⟨hl, hr, deepMerge_merge 3 hl hr, rfl, deepMerge_merge 2 hl hr, rfl⟩

end Tabwise.Config
