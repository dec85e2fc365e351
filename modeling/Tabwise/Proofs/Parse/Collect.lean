import Tabwise.Proofs.Parse.Levels

/-! # Parsed arguments by name

While names are distinct, what is stored under the name of an argument is what the replay has
recorded for it.
-/

namespace Tabwise

variable {g : Grammar} {abbreviated : Bool} {r : Replay} {t : Trace} {tokens : List String}
  {positionals : List String} {subcommand : Option (String × Args)} {i j : Nat}

namespace Grammar

theorem place_of_dest (hd : (g.arguments.map (·.dest)).Nodup) (hi : i ∈ g.ids) (hj : j ∈ g.ids)
    (h : (g.argument i).dest = (g.argument j).dest) : i = j := by
  rw [← map_argument_ids, List.map_map] at hd
  exact List.inj_on_of_nodup_map hd hi hj h

end Grammar

namespace Replay

theorem declared_of_mem_keys (h : (start g).run g abbreviated tokens = .ok (t, r))
    (hi : i ∈ r.values.keys) : i ∈ g.ids := by
  obtain ⟨-, hr⟩ := run_recorded h
  apply Grammar.mem_ids.mpr
  apply (run_accounted h).declared i
  apply (hr i).started
  rw [InsertionMap.find?, ne_eq, List.lookup_eq_none_iff]
  obtain ⟨e, he, rfl⟩ := List.mem_map.mp hi
  intro hne
  simpa using hne e he

theorem find?_extend_given (hd : (g.arguments.map (·.dest)).Nodup) (parents : Given)
    (h : (start g).run g abbreviated tokens = .ok (t, r)) (hi : i ∈ g.ids) :
    (parents.extend (r.given g)).find? (g.argument i).dest =
      (r.values.find? i).or (parents.find? (g.argument i).dest) := by
  have hkeys : (r.given g).map (·.1) = r.values.keys.map fun i => (g.argument i).dest := by
    simp [given, InsertionMap.keys]
  have hnodup : ((r.given g).map (·.1)).Nodup := by
    rw [hkeys]
    refine List.Nodup.map_on (fun x hx y hy he => ?_) (run_accounted h).keys_nodup
    exact Grammar.place_of_dest hd (declared_of_mem_keys h hx) (declared_of_mem_keys h hy) he
  have hlookup : (r.given g).lookup (g.argument i).dest = r.values.entries.lookup i := by
    refine InsertionMap.lookup_map_key (f := fun i => (g.argument i).dest) fun e he hname => ?_
    have hmem : e.1 ∈ r.values.keys := List.mem_map.mpr ⟨e, he, rfl⟩
    exact Grammar.place_of_dest hd (declared_of_mem_keys h hmem) hi hname
  rw [InsertionMap.find?_extend _ _ hnodup, hlookup]
  rfl

end Replay

namespace Grammar

/-- Under the name of an argument are the values that the replay has kept for it. -/
theorem getAll_collect (hd : (g.arguments.map (·.dest)).Nodup)
    (h : (Replay.start g).run g abbreviated tokens = .ok (t, r)) (hi : i ∈ g.ids) :
    (g.collect r positionals subcommand).getAll (g.argument i).dest = r.values.findD i [] := by
  have hfind := Replay.find?_extend_given hd .empty h hi
  rw [InsertionMap.find?_empty, Option.or_none] at hfind
  rw [Args.getAll, collect, InsertionMap.findD, InsertionMap.ofList, hfind]
  rfl

theorem count_collect (hd : (g.arguments.map (·.dest)).Nodup) (hi : i ∈ g.ids) :
    (g.collect r positionals subcommand).count (g.argument i).dest = r.occurrencesOf i := by
  have hnodup : (((g.ids.filter fun i => 0 < r.occurrencesOf i).map fun i =>
      ((g.argument i).dest, r.occurrencesOf i)).map (·.1)).Nodup := by
    rw [List.map_map]
    refine List.Nodup.map_on (fun x hx y hy he => ?_) (List.nodup_range.filter _)
    exact place_of_dest hd (List.mem_filter.mp hx).1 (List.mem_filter.mp hy).1 he
  -- distinct names can be looked up by place
  have hlookup : ((g.ids.filter fun i => 0 < r.occurrencesOf i).map fun i =>
      ((g.argument i).dest, r.occurrencesOf i)).lookup (g.argument i).dest =
        ((g.ids.filter fun i => 0 < r.occurrencesOf i).map fun i =>
          (i, r.occurrencesOf i)).lookup i := by
    rw [← InsertionMap.lookup_map_key (f := fun i => (g.argument i).dest), List.map_map]
    · rfl
    · intro e he hname
      obtain ⟨j, hj, rfl⟩ := List.mem_map.mp he
      exact place_of_dest hd (List.mem_filter.mp hj).1 hi hname
  simp only [Args.count, collect, InsertionMap.findD]
  rw [InsertionMap.find?_ofList _ hnodup, hlookup]
  by_cases ho : 0 < r.occurrencesOf i
  · rw [List.lookup_graph]
    · rfl
    · simp [hi, ho]
  · have hnone : ((g.ids.filter fun i => 0 < r.occurrencesOf i).map fun i =>
        (i, r.occurrencesOf i)).lookup i = none := by
      refine InsertionMap.lookup_eq_none ?_
      simp [ho]
    rw [hnone]
    simp only [Option.getD_none]
    omega

end Grammar

end Tabwise
