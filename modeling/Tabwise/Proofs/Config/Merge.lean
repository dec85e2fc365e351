import Tabwise.Config.Value

/-! # Values laid over each other

Tables are merged key by key while depth is left. Everything else is replaced.
-/

namespace Tabwise.Config

def mergeTables (depth : Nat) (left right : Table) : Table :=
  right.entries.foldl
    (fun fields e => fields.insert e.1 <| match fields.find? e.1 with
      | some v => Value.merge depth v e.2
      | none => e.2)
    left

def mergeFields (depth : Nat) : Option Value → Option Value → Option Value
  | some v, some w => some (v.merge depth w)
  | none, some w => some w
  | v?, none => v?

variable {depth : Nat} {left right : Table} {v w : Value}

theorem merge_tables (depth : Nat) (left right : Table) :
    (Value.table left).merge (depth + 1) (.table right) = .table (mergeTables depth left right) :=
  rfl

theorem merge_eq_right (h : ¬∃ x y, v = .table x ∧ w = .table y) : v.merge depth w = w := by
  unfold Value.merge
  split
  · next depth left right => exact absurd ⟨left, right, rfl, rfl⟩ h
  · rfl

theorem merge_zero (v w : Value) : v.merge 0 w = w := rfl

/-- A key has the merged value of both layers, or the value of the layer that has one. -/
theorem find?_mergeTables (hr : right.keys.Nodup) (k : String) :
    (mergeTables depth left right).find? k =
      mergeFields depth (left.find? k) (right.find? k) := by
  obtain ⟨entries⟩ := right
  unfold mergeTables
  induction entries generalizing left with
  | nil =>
    change left.find? k = mergeFields depth (left.find? k) none
    cases left.find? k <;> rfl
  | cons e rest ih =>
    obtain ⟨j, w⟩ := e
    obtain ⟨hj, hrest⟩ := List.nodup_cons.mp hr
    rw [List.foldl_cons, ih hrest, InsertionMap.find?_insert]
    have hlookup : InsertionMap.find? ⟨(j, w) :: rest⟩ k =
        if k = j then some w else InsertionMap.find? ⟨rest⟩ k :=
      InsertionMap.lookup_cons_eq k j w rest
    rw [hlookup]
    by_cases hk : k = j
    · subst hk
      have hnone : InsertionMap.find? ⟨rest⟩ k = none := InsertionMap.lookup_eq_none hj
      rw [if_pos rfl, if_pos rfl, hnone]
      cases left.find? k <;> rfl
    · rw [if_neg hk, if_neg hk]

theorem mergeFields_eq_some {v? w? : Option Value} {u : Value}
    (h : mergeFields depth v? w? = some u) :
    v? = some u ∨ w? = some u ∨ ∃ v w, v? = some v ∧ w? = some w ∧ v.merge depth w = u := by
  cases v? with
  | none => cases w? <;> exact .inr (.inl h)
  | some v =>
    cases w? with
    | none => exact .inl h
    | some w => exact .inr (.inr ⟨v, w, rfl, rfl, Option.some.inj h⟩)

theorem nodup_keys_mergeTables (hl : left.keys.Nodup) :
    (mergeTables depth left right).keys.Nodup := by
  obtain ⟨entries⟩ := right
  unfold mergeTables
  induction entries generalizing left with
  | nil => exact hl
  | cons e rest ih => exact ih (InsertionMap.nodup_keys_insert hl _ _)

end Tabwise.Config
