import Tabwise.Text.Cluster

/-! # Where clusters meet

Clusters are found from left to right, so a text that is cut between two of them keeps the ones
before the cut. A character such as a space stands between the clusters on its sides: at most the
last one before it and the marks behind it become one cluster with it.
-/

namespace Tabwise.Text

namespace Cluster

variable {c d : Char} {s : State} {current text : List Char}

theorem hangulKind?_ne (n : Nat) : (hangulKind? n).getD .other ≠ .carriageReturn := by
  fun_cases hangulKind? n with
  | case4 => split <;> simp
  | _ => simp

theorem eq_of_kind_carriageReturn (h : kind c = .carriageReturn) : c = '\r' := by
  suffices kind c = .carriageReturn → c.toNat = 0xd from Char.toNat_inj.mp (this h)
  fun_cases kind c with
  | case1 n hn => exact fun _ => hn
  | case11 n => exact fun hk => absurd hk (hangulKind?_ne n)
  | _ => nofun

theorem kind_of_lt (h : c.toNat < 0x80) :
    kind c = .carriageReturn ∨ kind c = .lineFeed ∨ kind c = .control ∨ kind c = .other := by
  fun_cases kind c with
  | case1 => exact .inl rfl
  | case2 => exact .inr (.inl rfl)
  | case3 => exact .inr (.inr (.inl rfl))
  | case4 => exact .inr (.inr (.inr rfl))
  | _ => omega

/-- A character behind which nothing is remembered of the text before it. -/
structure Divides (c : Char) : Prop where
  kind : Cluster.kind c = .other
  consonant : isConsonant c = false
  conjunct : ∀ before, conjunctAfter before c = .none

/-- The state behind such a character. -/
def State.divided : State := ⟨.other, false, .none, .none⟩

theorem Divides.after (h : Divides c) (before : Option State) :
    State.after before c = .divided := by
  have hpicture (p : Picture) : pictureAfter p .other = .none := by cases p <;> rfl
  simp [State.after, State.divided, h.kind, h.conjunct, hpicture]

theorem after_divided (c : Char) : State.after (some .divided) c = .after none c := rfl

theorem Divides.joins (h : Divides c) (hj : joins s c = true) : s.last = .leading := by
  unfold Cluster.joins at hj
  rw [h.kind, h.consonant] at hj
  cases hlast : s.last <;> simp [hlast] at hj ⊢

theorem joins_divided (hj : joins .divided c = true) : 0x80 ≤ c.toNat := by
  refine Nat.le_of_not_lt fun hlow => ?_
  rcases kind_of_lt hlow with hk | hk | hk | hk <;>
    simp [Cluster.joins, State.divided, hk] at hj

/-- The state is the one behind the open cluster. -/
structure Tracks (s : State) (current : List Char) : Prop where
  last : current.head?.map kind = some s.last
  carriageReturn : s.last = .carriageReturn → current = ['\r']

theorem tracks_new (before : Option State) (c : Char) : Tracks (.after before c) [c] where
  last := rfl
  carriageReturn hlast := by rw [eq_of_kind_carriageReturn hlast]

theorem tracks_joined (hj : joins s c = true) (current : List Char) :
    Tracks (.after (some s) c) (c :: current) where
  last := rfl
  carriageReturn hlast := by
    have hk : kind c = .carriageReturn := hlast
    unfold Cluster.joins at hj
    rw [hk] at hj
    cases hlast' : s.last <;> simp [hlast'] at hj

theorem Tracks.ne_nil (h : Tracks s current) : current ≠ [] := by
  rintro rfl
  cases h.last

/-- A character that joins to the next one, whatever it is, is not among the first ones. -/
theorem Tracks.exists_of_leading (h : Tracks s current) (hlast : s.last = .leading) :
    ∃ d ∈ current, 0x80 ≤ d.toNat := by
  cases current with
  | nil => cases h.last
  | cons d rest =>
    have hk : kind d = .leading := (Option.some.inj h.last).trans hlast
    refine ⟨d, List.mem_cons_self .., Nat.le_of_not_lt fun hlow => ?_⟩
    rcases kind_of_lt hlow with hk' | hk' | hk' | hk' <;> cases hk.symm.trans hk'

end Cluster

open Cluster

variable {c : Char} {s : State} {current older text t u : List Char} {gs : List (List Char)}

theorem clustersFrom_of_prefix (hne : gs ≠ []) (h : gs <+: clustersFrom s current text) :
    ∃ u, gs.flatten = current.reverse ++ u ∧ clustersFrom s current u = gs := by
  induction text generalizing s current gs with
  | nil =>
    obtain rfl : gs = [current.reverse] :=
      (List.prefix_cons_iff.mp h).resolve_left hne |>.elim fun t ht => by simp_all
    exact ⟨[], by simp, rfl⟩
  | cons c text ih =>
    rw [clustersFrom] at h
    split at h
    · next hj =>
      obtain ⟨u, hflat, hu⟩ := ih hne h
      refine ⟨c :: u, by simpa using hflat, ?_⟩
      rw [clustersFrom, if_pos hj, hu]
    · next hj =>
      obtain ⟨rest, rfl, hrest⟩ := (List.prefix_cons_iff.mp h).resolve_left hne
      by_cases hnil : rest = []
      · exact ⟨[], by simp [hnil], by simp [hnil, clustersFrom]⟩
      · obtain ⟨u, hflat, hu⟩ := ih hnil hrest
        refine ⟨c :: u, by simp [hflat], ?_⟩
        rw [clustersFrom, if_neg hj, hu]

theorem clusters_of_prefix (h : gs <+: clusters text) : clusters gs.flatten = gs := by
  by_cases hne : gs = []
  · simp [hne, clusters]
  · cases text with
    | nil => exact absurd (List.prefix_nil.mp h) hne
    | cons c text =>
      obtain ⟨u, hflat, hu⟩ := clustersFrom_of_prefix hne h
      rw [hflat]
      exact hu

/-- A cluster that may be missing. -/
def piece (cs : List Char) : List (List Char) := if cs = [] then [] else [cs]

/-- A cluster that a divider can belong to, if there is one. -/
def Reaches (cs : List Char) : Prop := cs = [] ∨ ∃ c ∈ cs, 0x80 ≤ c.toNat

theorem clustersFrom_append (s : State) (current older text : List Char) :
    ∃ g gs, clustersFrom s current text = (current.reverse ++ g) :: gs ∧
      clustersFrom s (current ++ older) text = (older.reverse ++ (current.reverse ++ g)) :: gs := by
  induction text generalizing s current with
  | nil => exact ⟨[], [], by simp [clustersFrom]⟩
  | cons c text ih =>
    rw [clustersFrom, clustersFrom]
    split
    · obtain ⟨g, gs, hg, holder⟩ := ih (.after (some s) c) (c :: current)
      exact ⟨c :: g, gs, by simpa using hg, by simpa using holder⟩
    · exact ⟨[], clustersFrom (.after (some s) c) [c] text, by simp, by simp⟩

/-- Behind a divider the clusters are the ones of the rest, the first of which it may begin. -/
theorem clustersFrom_divided (c : Char) (current u : List Char) : ∃ bs ys,
    clustersFrom .divided (c :: current) u = (current.reverse ++ c :: bs) :: ys ∧
      clusters u = piece bs ++ ys ∧ Reaches bs := by
  cases u with
  | nil => exact ⟨[], [], by simp [clustersFrom], rfl, .inl rfl⟩
  | cons d u =>
    rw [clustersFrom, after_divided]
    split
    · next hj =>
      obtain ⟨g, ys, hg, holder⟩ := clustersFrom_append (.after none d) [d] (c :: current) u
      refine ⟨d :: g, ys, by simpa using holder, by simpa [piece, clusters] using hg, .inr ?_⟩
      exact ⟨d, List.mem_cons_self .., joins_divided hj⟩
    · exact ⟨[], _, by simp, rfl, .inl rfl⟩

theorem clustersFrom_append_divider (hc : Divides c) (ht : Tracks s current) (t u : List Char) :
    ∃ xs as bs ys, clustersFrom s current (t ++ c :: u) = xs ++ (as ++ c :: bs) :: ys ∧
      clustersFrom s current t = xs ++ piece as ∧ clusters u = piece bs ++ ys ∧
        Reaches as ∧ Reaches bs := by
  induction t generalizing s current with
  | nil =>
    rw [List.nil_append, clustersFrom, clustersFrom, hc.after]
    split
    · next hj =>
      obtain ⟨bs, ys, hg, hu, hbs⟩ := clustersFrom_divided c current u
      have hcurrent : piece current.reverse = [current.reverse] := if_neg (by simpa using ht.ne_nil)
      refine ⟨[], current.reverse, bs, ys, hg, hcurrent.symm, hu, .inr ?_, hbs⟩
      simpa using ht.exists_of_leading (hc.joins hj)
    · obtain ⟨bs, ys, hg, hu, hbs⟩ := clustersFrom_divided c [] u
      exact ⟨[current.reverse], [], bs, ys, by simp [hg], rfl, hu, .inl rfl, hbs⟩
  | cons d t ih =>
    rw [List.cons_append, clustersFrom, clustersFrom]
    split
    · next hj => exact ih (tracks_joined hj current)
    · obtain ⟨xs, as, bs, ys, hsplit, ht, hrest⟩ := ih (tracks_new (some s) d)
      exact ⟨current.reverse :: xs, as, bs, ys, by rw [hsplit]; rfl, by rw [ht]; rfl, hrest⟩

/-- A divider makes one cluster of what joins to it on both sides and leaves the others. -/
theorem clusters_append_divider (hc : Divides c) (t u : List Char) :
    ∃ xs as bs ys, clusters (t ++ c :: u) = xs ++ (as ++ c :: bs) :: ys ∧
      clusters t = xs ++ piece as ∧ clusters u = piece bs ++ ys ∧ Reaches as ∧ Reaches bs := by
  cases t with
  | nil =>
    obtain ⟨bs, ys, hg, hu, hbs⟩ := clustersFrom_divided c [] u
    refine ⟨[], [], bs, ys, ?_, rfl, hu, .inl rfl, hbs⟩
    rw [List.nil_append, clusters, hc.after, hg]
    rfl
  | cons d t => exact clustersFrom_append_divider hc (tracks_new none d) t u

/-- A line end or a control character. -/
def Cluster.Breaks (c : Char) : Prop :=
  kind c = .carriageReturn ∨ kind c = .lineFeed ∨ kind c = .control

theorem Cluster.Breaks.joins (h : Cluster.Breaks c) (hj : joins s c = true) :
    s.last = .carriageReturn := by
  unfold Cluster.joins at hj
  rcases h with hk | hk | hk <;> rw [hk] at hj <;> cases hlast : s.last <;> simp [hlast] at hj ⊢

theorem clusters_concat_break (hc : Cluster.Breaks c) (t : List Char) :
    clusters (t ++ [c]) = clusters t ++ [[c]] ∨
      ∃ xs, clusters t = xs ++ [['\r']] ∧ clusters (t ++ [c]) = xs ++ [['\r', c]] := by
  have hfrom {s : State} {current : List Char} (ht : Tracks s current) (t : List Char) :
      clustersFrom s current (t ++ [c]) = clustersFrom s current t ++ [[c]] ∨
        ∃ xs, clustersFrom s current t = xs ++ [['\r']] ∧
          clustersFrom s current (t ++ [c]) = xs ++ [['\r', c]] := by
    induction t generalizing s current with
    | nil =>
      rw [List.nil_append, clustersFrom, clustersFrom]
      split
      · next hj =>
        right
        rw [ht.carriageReturn (hc.joins hj)]
        exact ⟨[], rfl, rfl⟩
      · exact .inl rfl
    | cons d t ih =>
      rw [List.cons_append, clustersFrom, clustersFrom]
      split
      · next hj => exact ih (tracks_joined hj current)
      · rcases ih (tracks_new (some s) d) with happend | ⟨xs, ht, happend⟩
        · exact .inl (by rw [happend, List.cons_append])
        · exact .inr ⟨current.reverse :: xs, by rw [ht]; rfl, by rw [happend]; rfl⟩
  cases t with
  | nil => exact .inl rfl
  | cons d t => exact hfrom (tracks_new none d) t

end Tabwise.Text
