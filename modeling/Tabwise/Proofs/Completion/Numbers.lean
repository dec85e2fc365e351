import Tabwise.Proofs.Completion.Candidates
import Tabwise.Proofs.Number.Integers

/-! # Integers among the candidates

Candidates that are all integers are put in the order of the numbers they are read as. That is the
order of the integers, except for large ones next to each other that are read as one number. If one
of them is too large to be read, all stay as they were found and the order is left open.
-/

namespace Tabwise

open Number

def Candidate.IsInteger (v : Candidate) : Prop := (integer? v.value.toList).isSome

instance (v : Candidate) : Decidable v.IsInteger :=
  inferInstanceAs (Decidable ((integer? v.value.toList).isSome = true))

def Candidate.IsFinite (v : Candidate) : Prop :=
  ∀ i, integer? v.value.toList = some i → i.natAbs < overflow

def Candidate.AtMost (a b : Candidate) : Prop :=
  ∀ i j, integer? a.value.toList = some i → integer? b.value.toList = some j → i ≤ j

/-- The integers are in order, or they are indistinct and read as one number. -/
def Candidate.Before (a b : Candidate) : Prop :=
  ∀ i j, integer? a.value.toList = some i → integer? b.value.toList = some j →
    i ≤ j ∨ read? a.value.toList = read? b.value.toList ∧ Indistinct i j

namespace Completion

variable {g : Grammar} {o : Options} {q : Request} {parents : Given} {r : Replay}
  {context : Context} {s : Slot} {t : Trace} {c : Completions} {tokens own : List String}
  {v : Candidate} {cs all found : List Candidate} {keyed : List (Binary64 × Candidate)}

theorem numbers?_of_read? (h : ∀ v ∈ cs, ∃ x, read? v.value.toList = some x) :
    ∃ keyed, numbers? cs = some keyed := by
  induction cs with
  | nil => exact ⟨[], rfl⟩
  | cons v cs ih =>
    obtain ⟨⟨x, hx⟩, hrest⟩ := List.forall_mem_cons.mp h
    obtain ⟨keyed, hkeyed⟩ := ih hrest
    rw [numbers?] at hkeyed
    exact ⟨(x, v) :: keyed, by simp [numbers?, List.mapM_cons, hx, hkeyed]⟩

theorem numbers?_eq_none (hv : v ∈ cs) (h : read? v.value.toList = none) : numbers? cs = none := by
  cases hkeyed : numbers? cs with
  | none => rfl
  | some keyed =>
    obtain ⟨hmap, hread⟩ := numbers?_eq_some hkeyed
    rw [← hmap] at hv
    obtain ⟨p, hp, rfl⟩ := List.mem_map.mp hv
    cases h.symm.trans (hread p hp)

theorem pairwise_mergeSort (keyed : List (Binary64 × Candidate)) :
    (keyed.mergeSort fun a b => a.1.le b.1).Pairwise fun a b => a.1.le b.1 = true := by
  refine List.pairwise_mergeSort ?_ ?_ keyed
  · intro a b c hab hbc
    simp only [Binary64.le, decide_eq_true_eq] at hab hbc ⊢
    exact hab.trans hbc
  · intro a b
    simp only [Binary64.le, Bool.or_eq_true, decide_eq_true_eq]
    exact Int.le_total _ _

theorem arrange_of_pairwise (hkeyed : numbers? cs = some keyed)
    (h : keyed.Pairwise fun a b => a.1.le b.1 = true) (hne : cs ≠ []) :
    arrange false cs = (cs, true) := by
  simp [arrange, hne, hkeyed, sortNumbers, List.mergeSort_of_pairwise h,
    (numbers?_eq_some hkeyed).1]

/-- What was found is offered in the order of the integers, or as it was found if one of them is
too large. -/
structure InOrder (found : List Candidate) (c : Completions) : Prop where
  perm : c.candidates.Perm found
  finite : (∀ v ∈ found, v.IsFinite) → c.sorted = true ∧ c.candidates.Pairwise Candidate.Before
  infinite : (∃ v ∈ found, ¬v.IsFinite) → c.sorted = false ∧ c.candidates = found

/-- What was found is offered and marked as sorted, and it is in the order of the integers. -/
structure Sorted (found : List Candidate) (c : Completions) : Prop where
  perm : c.candidates.Perm found
  marked : c.sorted = true
  ordered : c.candidates.Pairwise Candidate.AtMost

theorem InOrder.sorted_of_small (h : InOrder found c)
    (hsmall : ∀ v ∈ found, ∀ i, integer? v.value.toList = some i → i.natAbs < 2 ^ 53) :
    Sorted found c := by
  have hbound : 2 ^ 53 < overflow := by decide +kernel
  obtain ⟨hmarked, hordered⟩ := h.finite fun v hv i hi => (hsmall v hv i hi).trans hbound
  refine ⟨h.perm, hmarked, hordered.imp_of_mem fun {a b} ha _ hbefore i j hi hj => ?_⟩
  rcases hbefore i j hi hj with hle | ⟨-, hindistinct⟩
  · exact hle
  · exact absurd (hsmall a (h.perm.mem_iff.mp ha) i hi) (Nat.not_lt.mpr hindistinct.left)

theorem read?_of_isFinite {i : Int} (hv : integer? v.value.toList = some i) (h : v.IsFinite) :
    ∃ x, read? v.value.toList = some x ∧ x.Rounds i := by
  have hread := read?_of_integer? hv
  rwa [if_pos (h i hv)] at hread

theorem before_of_le {p p' : Binary64 × Candidate} (hp : read? p.2.value.toList = some p.1)
    (hp' : read? p'.2.value.toList = some p'.1) (hv : p.2.IsFinite) (hv' : p'.2.IsFinite)
    (h : p.1.le p'.1 = true) : p.2.Before p'.2 := by
  intro i j hi hj
  obtain ⟨x, hx, hrounds⟩ := read?_of_isFinite hi hv
  obtain ⟨y, hy, hrounds'⟩ := read?_of_isFinite hj hv'
  cases hp.symm.trans hx
  cases hp'.symm.trans hy
  rcases hrounds.le_of_le hrounds' h with hle | ⟨heq, hindistinct⟩
  · exact .inl hle
  · exact .inr ⟨by rw [hp, hp', heq], hindistinct⟩

theorem arrange_of_isFinite (hne : found ≠ []) (hint : ∀ v ∈ found, v.IsInteger)
    (hfinite : ∀ v ∈ found, v.IsFinite) :
    (arrange false found).2 = true ∧ (arrange false found).1.Pairwise Candidate.Before := by
  obtain ⟨keyed, hkeyed⟩ := numbers?_of_read? fun v hv => by
    obtain ⟨i, hi⟩ := Option.isSome_iff_exists.mp (hint v hv)
    obtain ⟨x, hx, -⟩ := read?_of_isFinite hi (hfinite v hv)
    exact ⟨x, hx⟩
  have harrange : arrange false found = (sortNumbers keyed, true) := by
    simp [arrange, hne, hkeyed]
  obtain ⟨hmap, hread⟩ := numbers?_eq_some hkeyed
  have hmem {p : Binary64 × Candidate} (hp : p ∈ keyed) : p.2 ∈ found := by
    rw [← hmap]
    exact List.mem_map_of_mem hp
  rw [harrange]
  refine ⟨rfl, List.pairwise_map.mpr ((pairwise_mergeSort keyed).imp_of_mem ?_)⟩
  intro p p' hp hp' hle
  rw [List.mem_mergeSort] at hp hp'
  exact before_of_le (hread p hp) (hread p' hp') (hfinite _ (hmem hp)) (hfinite _ (hmem hp')) hle

theorem arrange_of_not_isFinite (hv : v ∈ found) (h : ¬v.IsFinite) :
    arrange false found = (found, false) := by
  obtain ⟨i, hi, hlarge⟩ : ∃ i, integer? v.value.toList = some i ∧ ¬i.natAbs < overflow := by
    simpa [Candidate.IsFinite] using h
  have hread := read?_of_integer? hi
  rw [if_neg hlarge] at hread
  simp [arrange, numbers?_eq_none hv hread]

theorem inOrder_of_arrange (hne : found ≠ []) (hint : ∀ v ∈ found, v.IsInteger)
    (h : (c.candidates, c.sorted) = arrange false found) : InOrder found c := by
  have hcandidates : c.candidates = (arrange false found).1 := congrArg Prod.fst h
  have hsorted : c.sorted = (arrange false found).2 := congrArg Prod.snd h
  refine ⟨?_, fun hfinite => ?_, fun ⟨v, hv, hlarge⟩ => ?_⟩
  · rw [hcandidates]
    exact arrange_perm false found
  · rw [hcandidates, hsorted]
    exact arrange_of_isFinite hne hint hfinite
  · rw [hcandidates, hsorted, arrange_of_not_isFinite hv hlarge]
    exact ⟨rfl, rfl⟩

/-- The last token is completed with values of the argument, and these are found for it: what its
source has, the text begins and its current occurrence has not taken. -/
def Fills (g : Grammar) (o : Options) (parents : Given) (q : Request) (tokens : List String)
    (a : Argument) (found : List Candidate) : Prop :=
  ∃ l s own t all, Reaches o.abbreviated g parents tokens.dropLast l ∧
    slot? l.grammar l.replay q.text = some s ∧ own <:+ tokens.dropLast ∧
    (Replay.start l.grammar).run l.grammar o.abbreviated own = .ok (t, l.replay) ∧
    a = l.grammar.argument s.id ∧ a.source (q.context l.given) = .ok all ∧
    found = unused o q.text (t.consumed l.grammar s.id) all

/-- Values whose source leaves their order open are arranged. -/
theorem values_eq_arrange (hrun : (Replay.start g).run g o.abbreviated own = .ok (t, r))
    (hall : (g.argument s.id).source context = .ok all)
    (hopen : (g.argument s.id).choices.isPresorted = false)
    (h : values g o r context s = .ok c) : (c.candidates, c.sorted) =
      arrange false (unused o context.text (t.consumed g s.id) all) := by
  obtain ⟨presorted, hpresorted, hfound⟩ := Argument.resolve_of_source hall (r.consumedBy s.id)
  rw [values, hfound, hpresorted hopen] at h
  rw [← ((Replay.run_recorded hrun).2 s.id).consumed, unused, ← List.filter_filter]
  cases h
  rfl

/-- Candidates are flag names or the values of the argument that the last token fills. -/
theorem fills_of_completeTokens (h : completeTokens g o parents q tokens = .ok (.candidates c)) :
    (∃ l, Reaches o.abbreviated g parents tokens.dropLast l ∧
      NamesFlags l.grammar o l.replay (q.context l.given) ∧
      flagNames l.grammar o l.replay q.text = .candidates c) ∨
    ∃ a found, Fills g o parents q tokens a found ∧ c.candidates ≠ [] ∧
      c.candidates.Perm found ∧
      (a.choices.isPresorted = false → (c.candidates, c.sorted) = arrange false found) := by
  rcases completeTokens_cases g o parents q tokens with ⟨m, hm⟩ | hnothing | ⟨l, hl, heq⟩
  · cases h.symm.trans hm
  · cases h.symm.trans hnothing
  · rcases completeLast_eq_candidates.mp (heq.symm.trans h) with ⟨s, hs, hv, hne⟩ | hnames
    · obtain ⟨own, t, hown, hrun, -⟩ := hl.run
      obtain ⟨all, hall, -⟩ := values_perm hv
      have hfills : Fills g o parents q tokens (l.grammar.argument s.id)
          (unused o q.text (t.consumed l.grammar s.id) all) :=
        ⟨l, s, own, t, all, hl, hs, hown, hrun, rfl, hall, rfl⟩
      have hperm := values_perm_unused hrun hall hv
      have harrange (hopen : (l.grammar.argument s.id).choices.isPresorted = false) :=
        values_eq_arrange hrun hall hopen hv
      exact .inr ⟨_, _, hfills, hne, hperm, harrange⟩
    · exact .inl ⟨l, hl, hnames⟩

theorem completeTokens_of_fills {a : Argument} (h : Fills g o parents q tokens a found)
    (hne : found ≠ []) (hopen : a.choices.isPresorted = false) :
    ∃ c, completeTokens g o parents q tokens = .ok (.candidates c) ∧
      (c.candidates, c.sorted) = arrange false found := by
  obtain ⟨l, s, own, t, all, hl, hs, -, hrun, rfl, hall, rfl⟩ := h
  obtain ⟨c, hv⟩ := values_of_source (o := o) (r := l.replay) hall
  have hperm := values_perm_unused hrun hall hv
  have hoffered : c.candidates ≠ [] := fun hnil => hne (List.nil_perm.mp (hnil ▸ hperm))
  have harrange := values_eq_arrange hrun hall hopen hv
  refine ⟨c, ?_, harrange⟩
  rw [completeTokens, hl.completeFrom_eq]
  exact completeLast_eq_candidates.mpr (.inl ⟨s, hs, hv, hoffered⟩)

theorem Fills.of_run {i : Nat} {taken : List String}
    (h : ((Replay.start g).run g o.abbreviated tokens.dropLast).map (fun p =>
      (p.1.all (!·.2.selects), (slot? g p.2 q.text).map Slot.id, p.1.consumed g i)) =
        .ok (true, some i, taken))
    (hall : ∀ context, (g.argument i).source context = .ok all)
    (hfound : unused o q.text taken all = found) :
    Fills g o parents q tokens (g.argument i) found := by
  obtain ⟨⟨t, r⟩, hrun, hfacts⟩ := map_eq_ok.mp h
  simp only [Prod.mk.injEq] at hfacts
  obtain ⟨hstay, hslot, rfl⟩ := hfacts
  obtain ⟨s, hs, rfl⟩ := Option.map_eq_some_iff.mp hslot
  have hl : Reaches o.abbreviated g parents tokens.dropLast ⟨g, r, parents.extend (r.given g)⟩ :=
    .here hrun (by simpa using hstay)
  exact ⟨_, s, _, t, all, hl, hs, List.suffix_rfl, hrun, rfl, hall _, hfound.symm⟩

/-- Integers are offered in their order. Where candidates are returned for an argument whose source
leaves their order open, and all of them are integers, they are in order and marked so, unless one
of them is too large to be read. And if anything is found for the argument, it is returned. -/
theorem inOrder_of_completeTokens (g : Grammar) (o : Options) (parents : Given) (q : Request)
    (tokens : List String) :
    (∀ c, completeTokens g o parents q tokens = .ok (.candidates c) →
      (∃ l, Reaches o.abbreviated g parents tokens.dropLast l ∧
        NamesFlags l.grammar o l.replay (q.context l.given) ∧
        flagNames l.grammar o l.replay q.text = .candidates c) ∨
      ∃ a found, Fills g o parents q tokens a found ∧
        (a.choices.isPresorted = false → (∀ v ∈ c.candidates, v.IsInteger) → InOrder found c)) ∧
    ∀ a found, Fills g o parents q tokens a found → found ≠ [] →
      a.choices.isPresorted = false → (∀ v ∈ found, v.IsInteger) →
      ∃ c, completeTokens g o parents q tokens = .ok (.candidates c) ∧ InOrder found c := by
  refine ⟨fun c h => ?_, fun a found h hne hopen hint => ?_⟩
  · rcases fills_of_completeTokens h with hnames | ⟨a, found, hfills, hne, hperm, harrange⟩
    · exact .inl hnames
    · refine .inr ⟨a, found, hfills, fun hopen hint => ?_⟩
      refine inOrder_of_arrange ?_ ?_ (harrange hopen)
      · exact fun hnil => hne (List.perm_nil.mp (hnil ▸ hperm))
      · exact fun v hv => hint v (hperm.mem_iff.mpr hv)
  · obtain ⟨c, hc, harrange⟩ := completeTokens_of_fills h hne hopen
    exact ⟨c, hc, inOrder_of_arrange hne hint harrange⟩

/-- Of the integers of the picker, one is taken and the others are offered, smallest first. -/
theorem inOrder_of_completeTokens_picker : ∃ c,
    completeTokens Sample.picker.grammar {} .empty ⟨"", "", 0, 0⟩ ["-n", "9", ""] =
      .ok (.candidates c) ∧
    InOrder [.plain "10", .plain "-1"] c ∧ Sorted [.plain "10", .plain "-1"] c ∧
    ((∃ l, Reaches true Sample.picker.grammar .empty ["-n", "9"] l ∧
        NamesFlags l.grammar {} l.replay ⟨"", "", 0, 0, l.given⟩ ∧
        flagNames l.grammar {} l.replay "" = .candidates c) ∨
      ∃ a found, Fills Sample.picker.grammar {} .empty ⟨"", "", 0, 0⟩ ["-n", "9", ""] a found ∧
        (a.choices.isPresorted = false → (∀ v ∈ c.candidates, v.IsInteger) →
          InOrder found c)) := by
  have hfills : Fills Sample.picker.grammar {} .empty ⟨"", "", 0, 0⟩ ["-n", "9", ""]
      (Sample.picker.grammar.argument 0) [.plain "10", .plain "-1"] :=
    .of_run (show _ = Except.ok (true, some 0, ["9"]) from rfl) (fun _ => rfl) rfl
  have h := inOrder_of_completeTokens Sample.picker.grammar {} .empty ⟨"", "", 0, 0⟩
    ["-n", "9", ""]
  obtain ⟨c, hc, horder⟩ := h.2 _ _ hfills (List.cons_ne_nil _ _) rfl (by decide)
  have hsmall : ∀ v ∈ [Candidate.plain "10", Candidate.plain "-1"],
      ∀ i ∈ integer? v.value.toList, i.natAbs < 2 ^ 53 := by decide
  exact ⟨c, hc, horder, horder.sorted_of_small hsmall, h.1 c hc⟩

/-- Integers whose source leaves their order open are offered, marked as sorted or not, but not
sorted. -/
def OffersUnsorted (g : Grammar) (o : Options) (parents : Given) (q : Request)
    (tokens : List String) (marked : Bool) : Prop :=
  ∃ a found c, Fills g o parents q tokens a found ∧ a.choices.isPresorted = false ∧
    completeTokens g o parents q tokens = .ok (.candidates c) ∧
    (∀ v ∈ c.candidates, v.IsInteger) ∧ c.sorted = marked ∧ ¬Sorted found c

/-- Two integers that are read as one number stay as they were found. -/
theorem offersUnsorted_large :
    OffersUnsorted Sample.picker.grammar {} .empty ⟨"", "", 0, 0⟩ ["-l", ""] true := by
  have hfills : Fills Sample.picker.grammar {} .empty ⟨"", "", 0, 0⟩ ["-l", ""]
      (Sample.picker.grammar.argument 1)
      [.plain "9007199254740993", .plain "9007199254740992"] :=
    .of_run (show _ = Except.ok (true, some 1, []) from rfl) (fun _ => rfl) rfl
  have hnumbers : numbers? [.plain "9007199254740993", .plain "9007199254740992"] =
      some [(⟨false, 1076 <<< 52⟩, .plain "9007199254740993"),
        (⟨false, 1076 <<< 52⟩, .plain "9007199254740992")] := by decide +kernel
  obtain ⟨c, hc, harrange⟩ := completeTokens_of_fills hfills (List.cons_ne_nil _ _) rfl
  rw [arrange_of_pairwise hnumbers (by decide) (List.cons_ne_nil _ _)] at harrange
  obtain ⟨hcandidates, hmarked⟩ := Prod.mk.inj harrange
  refine ⟨_, _, c, hfills, rfl, hc, by rw [hcandidates]; decide, hmarked, fun hsorted => ?_⟩
  have hordered := hsorted.ordered
  rw [hcandidates] at hordered
  have hle := List.pairwise_pair.mp hordered 9007199254740993 9007199254740992 rfl rfl
  exact absurd hle (by decide)

/-- An integer that is too large leaves the mark off the others. -/
theorem offersUnsorted_huge :
    OffersUnsorted Sample.picker.grammar {} .empty ⟨"", "", 0, 0⟩ ["-x", ""] false := by
  have hall (context : Context) : (Sample.picker.grammar.argument 2).source context =
      .ok [.plain Sample.huge, .plain "5"] := rfl
  have hfound : unused {} "" [] [.plain Sample.huge, .plain "5"] =
      [.plain Sample.huge, .plain "5"] := by decide +kernel
  have hfills : Fills Sample.picker.grammar {} .empty ⟨"", "", 0, 0⟩ ["-x", ""]
      (Sample.picker.grammar.argument 2) [.plain Sample.huge, .plain "5"] :=
    .of_run (show _ = Except.ok (true, some 2, []) from rfl) hall hfound
  have hinteger : integer? Sample.huge.toList = some (Int.ofNat (Nat.pow 10 309)) := by
    rw [show Sample.huge.toList = '1' :: List.replicate 309 '0' from String.toList_ofList]
    decide +kernel
  have hhuge : ¬(Candidate.plain Sample.huge).IsFinite :=
    fun h => absurd (h _ hinteger) (by decide +kernel)
  obtain ⟨c, hc, harrange⟩ := completeTokens_of_fills hfills (List.cons_ne_nil _ _) rfl
  rw [arrange_of_not_isFinite List.mem_cons_self hhuge] at harrange
  obtain ⟨hcandidates, hmarked⟩ := Prod.mk.inj harrange
  refine ⟨_, _, c, hfills, rfl, hc, ?_, hmarked, fun hsorted => ?_⟩
  · have hfirst : (Candidate.plain Sample.huge).IsInteger := Option.isSome_of_eq_some hinteger
    have hfive : (Candidate.plain "5").IsInteger := rfl
    rw [hcandidates]
    simp [hfirst, hfive]
  · cases hmarked.symm.trans hsorted.marked

/-- So integers of any length are not always offered in their order: not where they are read as one
number, and not where one of them is too large to be read. -/
theorem offersUnsorted_picker :
    OffersUnsorted Sample.picker.grammar {} .empty ⟨"", "", 0, 0⟩ ["-l", ""] true ∧
      OffersUnsorted Sample.picker.grammar {} .empty ⟨"", "", 0, 0⟩ ["-x", ""] false :=
  ⟨offersUnsorted_large, offersUnsorted_huge⟩

end Completion

end Tabwise
