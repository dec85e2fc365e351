/-! # Maps in order of insertion

Keys stay where they were first put: a later value for the same key takes the old place.
-/

namespace Tabwise

structure InsertionMap (κ : Type) (υ : Type) where
  entries : List (κ × υ)
  deriving DecidableEq

namespace InsertionMap

variable {κ : Type} {υ : Type} [DecidableEq κ]

def empty : InsertionMap κ υ := ⟨[]⟩

instance : Inhabited (InsertionMap κ υ) := ⟨empty⟩

def find? (m : InsertionMap κ υ) (k : κ) : Option υ := m.entries.lookup k

def findD (m : InsertionMap κ υ) (k : κ) (default : υ) : υ := (m.find? k).getD default

def keys (m : InsertionMap κ υ) : List κ := m.entries.map (·.1)

def values (m : InsertionMap κ υ) : List υ := m.entries.map (·.2)

/-- Puts a value under a key of a list of entries. -/
def put (k : κ) (v : υ) : List (κ × υ) → List (κ × υ)
  | [] => [(k, v)]
  | (j, w) :: rest => if j = k then (k, v) :: rest else (j, w) :: put k v rest

def insert (m : InsertionMap κ υ) (k : κ) (v : υ) : InsertionMap κ υ := ⟨put k v m.entries⟩

def update (m : InsertionMap κ υ) (k : κ) (default : υ) (f : υ → υ) : InsertionMap κ υ :=
  m.insert k (f (m.findD k default))

/-- The entries of a second map are put into the first one after the other. -/
def extend (m : InsertionMap κ υ) (entries : List (κ × υ)) : InsertionMap κ υ :=
  entries.foldl (fun m e => m.insert e.1 e.2) m

def ofList (entries : List (κ × υ)) : InsertionMap κ υ := empty.extend entries

theorem lookup_cons_eq (j i : κ) (w : υ) (rest : List (κ × υ)) :
    ((i, w) :: rest).lookup j = if j = i then some w else rest.lookup j := by
  rw [List.lookup_cons]
  by_cases h : j = i
  · simp [h]
  · simp [h, beq_false_of_ne h]

theorem lookup_eq_none {k : κ} {entries : List (κ × υ)} (h : k ∉ entries.map (·.1)) :
    entries.lookup k = none := by
  rw [List.lookup_eq_none_iff]
  intro e he
  have hne : k ≠ e.1 := fun hk => h (hk ▸ List.mem_map_of_mem he)
  simpa using hne

theorem lookup_of_mem {k : κ} {v : υ} {entries : List (κ × υ)} (hn : (entries.map (·.1)).Nodup)
    (h : (k, v) ∈ entries) : entries.lookup k = some v := by
  induction entries with
  | nil => cases h
  | cons e rest ih =>
    obtain ⟨j, w⟩ := e
    obtain ⟨hj, hrest⟩ := List.nodup_cons.mp hn
    rw [lookup_cons_eq]
    rcases List.mem_cons.mp h with he | he
    · cases he
      rw [if_pos rfl]
    · have hmem : k ∈ rest.map (·.1) := List.mem_map_of_mem he
      have hne : k ≠ j := fun hk => hj (hk ▸ hmem)
      rw [if_neg hne, ih hrest he]

theorem lookup_map_key {κ' : Type} [DecidableEq κ'] {f : κ → κ'} {k : κ}
    {entries : List (κ × υ)} (h : ∀ e ∈ entries, f e.1 = f k → e.1 = k) :
    (entries.map fun e => (f e.1, e.2)).lookup (f k) = entries.lookup k := by
  induction entries with
  | nil => rfl
  | cons e rest ih =>
    obtain ⟨j, w⟩ := e
    rw [List.forall_mem_cons] at h
    rw [List.map_cons, lookup_cons_eq, lookup_cons_eq, ih h.2]
    by_cases hk : k = j
    · rw [if_pos hk, if_pos (congrArg f hk)]
    · rw [if_neg hk, if_neg fun hf => hk (h.1 hf.symm).symm]

theorem lookup_put (j k : κ) (v : υ) (entries : List (κ × υ)) :
    (put k v entries).lookup j = if j = k then some v else entries.lookup j := by
  induction entries with
  | nil => rw [put, lookup_cons_eq]
  | cons e rest ih =>
    obtain ⟨i, w⟩ := e
    by_cases hi : i = k
    · subst hi
      rw [put, if_pos rfl, lookup_cons_eq, lookup_cons_eq]
      split <;> rfl
    · rw [put, if_neg hi, lookup_cons_eq, lookup_cons_eq, ih]
      by_cases h : j = i
      · rw [if_pos h, if_pos h, if_neg (h ▸ hi)]
      · rw [if_neg h, if_neg h]

theorem keys_put (k : κ) (v : υ) (entries : List (κ × υ)) :
    (put k v entries).map (·.1) =
      if k ∈ entries.map (·.1) then entries.map (·.1) else entries.map (·.1) ++ [k] := by
  induction entries with
  | nil => simp [put]
  | cons e rest ih =>
    obtain ⟨i, w⟩ := e
    by_cases hi : i = k
    · simp [put, hi]
    · rw [put, if_neg hi, List.map_cons, ih]
      by_cases hk : k ∈ rest.map (·.1)
      · have hmem : k ∈ ((i, w) :: rest).map (·.1) := List.mem_cons_of_mem i hk
        rw [if_pos hk, if_pos hmem, List.map_cons]
      · have hne : k ∉ ((i, w) :: rest).map (·.1) := by
          simpa [Ne.symm hi] using hk
        rw [if_neg hk, if_neg hne]
        rfl

theorem mem_put {k : κ} {v : υ} {entries : List (κ × υ)} {e : κ × υ} (h : e ∈ put k v entries) :
    e = (k, v) ∨ e ∈ entries := by
  induction entries with
  | nil => exact .inl (List.mem_singleton.mp h)
  | cons f rest ih =>
    obtain ⟨j, w⟩ := f
    rw [put] at h
    split at h
    · exact (List.mem_cons.mp h).imp_right (List.mem_cons_of_mem _)
    · rcases List.mem_cons.mp h with rfl | hrest
      · exact .inr List.mem_cons_self
      · exact (ih hrest).imp_right (List.mem_cons_of_mem _)

theorem put_of_lookup {k : κ} {v : υ} {entries : List (κ × υ)} (h : entries.lookup k = some v) :
    put k v entries = entries := by
  induction entries with
  | nil => cases h
  | cons e rest ih =>
    obtain ⟨j, w⟩ := e
    rw [lookup_cons_eq] at h
    by_cases hj : k = j
    · rw [if_pos hj] at h
      cases h
      rw [put, if_pos hj.symm, hj]
    · rw [if_neg hj] at h
      rw [put, if_neg (Ne.symm hj), ih h]

theorem mem_of_find? {m : InsertionMap κ υ} {k : κ} {v : υ} (h : m.find? k = some v) :
    (k, v) ∈ m.entries := by
  obtain ⟨l₁, l₂, he, -⟩ := List.lookup_eq_some_iff.mp h
  rw [he]
  exact List.mem_append_right l₁ List.mem_cons_self

@[simp] theorem find?_empty (k : κ) : (empty : InsertionMap κ υ).find? k = none := rfl

@[simp] theorem findD_empty (k : κ) (d : υ) : (empty : InsertionMap κ υ).findD k d = d := rfl

@[simp] theorem find?_insert (m : InsertionMap κ υ) (k j : κ) (v : υ) :
    (m.insert k v).find? j = if j = k then some v else m.find? j := lookup_put j k v m.entries

theorem insert_of_find? {m : InsertionMap κ υ} {k : κ} {v : υ} (h : m.find? k = some v) :
    m.insert k v = m := by
  rw [insert, put_of_lookup h]

@[simp] theorem find?_update (m : InsertionMap κ υ) (k j : κ) (d : υ) (f : υ → υ) :
    (m.update k d f).find? j = if j = k then some (f (m.findD k d)) else m.find? j :=
  find?_insert m k j _

@[simp] theorem findD_insert (m : InsertionMap κ υ) (k j : κ) (v d : υ) :
    (m.insert k v).findD j d = if j = k then v else m.findD j d := by
  rw [findD, find?_insert]
  split <;> rfl

@[simp] theorem findD_update (m : InsertionMap κ υ) (k j : κ) (c d : υ) (f : υ → υ) :
    (m.update k c f).findD j d = if j = k then f (m.findD k c) else m.findD j d :=
  findD_insert m k j _ d

theorem keys_insert (m : InsertionMap κ υ) (k : κ) (v : υ) :
    (m.insert k v).keys = if k ∈ m.keys then m.keys else m.keys ++ [k] :=
  keys_put k v m.entries

theorem mem_keys_insert {m : InsertionMap κ υ} {j k : κ} {v : υ} :
    j ∈ (m.insert k v).keys ↔ j ∈ m.keys ∨ j = k := by
  rw [keys_insert]
  split
  · next hk => exact ⟨.inl, fun h => h.elim id fun he => he ▸ hk⟩
  · rw [List.mem_append, List.mem_singleton]

theorem nodup_keys_insert {m : InsertionMap κ υ} (h : m.keys.Nodup) (k : κ) (v : υ) :
    (m.insert k v).keys.Nodup := by
  rw [keys_insert]
  split
  · exact h
  · next hk =>
    rw [List.nodup_append]
    refine ⟨h, by simp, ?_⟩
    rintro a ha b hb rfl
    exact hk (List.mem_singleton.mp hb ▸ ha)

theorem nodup_keys_extend {m : InsertionMap κ υ} (h : m.keys.Nodup) (entries : List (κ × υ)) :
    (m.extend entries).keys.Nodup := by
  induction entries generalizing m with
  | nil => exact h
  | cons e rest ih => exact ih (nodup_keys_insert h e.1 e.2)

theorem lookup_map_value {υ' : Type} (f : υ → υ') (k : κ) (entries : List (κ × υ)) :
    (entries.map fun e => (e.1, f e.2)).lookup k = (entries.lookup k).map f := by
  induction entries with
  | nil => rfl
  | cons e rest ih =>
    rw [List.map_cons, lookup_cons_eq, lookup_cons_eq, ih]
    split <;> rfl

/-- Entries with different keys are all found again. -/
theorem find?_extend (m : InsertionMap κ υ) (entries : List (κ × υ))
    (h : (entries.map (·.1)).Nodup) (k : κ) :
    (m.extend entries).find? k = (entries.lookup k).or (m.find? k) := by
  induction entries generalizing m with
  | nil => simp [extend]
  | cons e rest ih =>
    obtain ⟨i, w⟩ := e
    rw [List.map_cons, List.nodup_cons] at h
    change ((m.insert i w).extend rest).find? k = _
    rw [ih _ h.2, find?_insert, lookup_cons_eq]
    by_cases hk : k = i
    · simp [hk, lookup_eq_none h.1]
    · simp [hk]

theorem find?_extend_map (m : InsertionMap κ υ) (keys : List κ) (v : υ) (k : κ) :
    (m.extend (keys.map (·, v))).find? k = if k ∈ keys then some v else m.find? k := by
  induction keys generalizing m with
  | nil => simp [extend]
  | cons j keys ih =>
    change ((m.insert j v).extend (keys.map (·, v))).find? k = _
    rw [ih, find?_insert]
    by_cases hk : k = j
    · simp [hk]
    · simp [hk]

theorem mem_extend {m : InsertionMap κ υ} {entries : List (κ × υ)} {e : κ × υ}
    (h : e ∈ (m.extend entries).entries) : e ∈ m.entries ∨ e ∈ entries := by
  induction entries generalizing m with
  | nil => exact .inl h
  | cons f rest ih =>
    rcases ih h with hput | hrest
    · rcases mem_put hput with rfl | hold
      · exact .inr List.mem_cons_self
      · exact .inl hold
    · exact .inr (List.mem_cons_of_mem f hrest)

theorem find?_ofList (entries : List (κ × υ)) (h : (entries.map (·.1)).Nodup) (k : κ) :
    (ofList entries).find? k = entries.lookup k := by
  simp [ofList, find?_extend _ _ h]

end InsertionMap

end Tabwise
