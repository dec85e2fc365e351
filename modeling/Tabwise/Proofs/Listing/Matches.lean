import Mathlib.Data.List.Forall2
import Tabwise.Proofs.Listing.Rows
import Tabwise.Proofs.Text.Order

/-! # What is listed

The matches are the values of the candidates, each once. They stand in the order in which they
first occur or else increase in the order of the options; as this order is linear, how unsorted
candidates are given does not matter. Lines go with matches: each is the match itself or, in a
table, the row of the first candidate with its value. A table is made of a few candidates, some of
them with a description, where nothing else is to be listed.
-/

namespace Tabwise

variable {m : Text.Metrics} {o : Options} {c c' : Completions} {cs : List Candidate}
  {terminalWidth : Nat}

namespace SortOrder

theorem le_trans (o : SortOrder) (a b c : String) (hab : o.le a b = true) (hbc : o.le b c = true) :
    o.le a c = true := Std.TransCmp.isLE_trans hab hbc

theorem le_total (o : SortOrder) (a b : String) : (o.le a b || o.le b a) = true := by
  have hswap : o.compare b a = (o.compare a b).swap := Std.OrientedCmp.eq_swap
  rw [le, le, hswap]
  cases o.compare a b <;> rfl

theorem compare_eq_lt {o : SortOrder} {a b : String} (hle : o.le a b = true) (hne : a ≠ b) :
    o.compare a b = .lt := by
  rw [le] at hle
  cases h : o.compare a b with
  | lt => rfl
  | eq => exact absurd (eq_of_compare h) hne
  | gt => simp [h] at hle

end SortOrder

namespace Listing

variable {α : Type} {key : α → String} {as : List α} {a : α}

theorem find?_of_mem_firstOf (h : a ∈ firstOf key as) : as.find? (key · == key a) = some a := by
  induction as with
  | nil => cases h
  | cons b as ih =>
    rw [List.find?_cons]
    rcases List.mem_cons.mp h with rfl | hrest
    · simp
    · obtain ⟨hmem, hne⟩ := List.mem_filter.mp hrest
      have hne : ¬key b = key a := fun he => by simp [he] at hne
      rw [beq_false_of_ne hne]
      exact ih hmem

theorem pairwise_idxOf_firstOf (key : α → String) (as : List α) :
    ((firstOf key as).map key).Pairwise fun k k' =>
      (as.map key).idxOf k < (as.map key).idxOf k' := by
  induction as with
  | nil => exact List.Pairwise.nil
  | cons a as ih =>
    -- in front of the others stands one more, and none of them has its key
    have hother (b : α) (hb : b ∈ (firstOf key as).filter fun b => key b ≠ key a) :
        (key a :: as.map key).idxOf (key b) = (as.map key).idxOf (key b) + 1 := by
      have hne : key a ≠ key b := fun he => by simp [he] at hb
      exact List.idxOf_cons_ne _ hne
    rw [List.pairwise_map] at ih
    rw [firstOf, List.map_cons, List.map_cons, List.pairwise_cons, List.pairwise_map]
    constructor
    · intro k hk
      obtain ⟨b, hb, rfl⟩ := List.mem_map.mp hk
      rw [List.idxOf_cons_self, hother b hb]
      exact Nat.succ_pos _
    · refine (ih.filter _).imp_of_mem fun hb hb' hlt => ?_
      rw [hother _ hb, hother _ hb']
      exact Nat.succ_lt_succ hlt

theorem arrange_perm (o : Options) (sorted : Bool) (key : α → String) (as : List α) :
    (arrange o sorted key as).Perm as := by
  unfold arrange
  split
  · exact .refl as
  · exact List.mergeSort_perm as _

theorem pairwise_arrange (o : Options) (key : α → String) (h : (as.map key).Nodup) :
    ((arrange o false key as).map key).Pairwise fun k k' => o.order.compare k k' = .lt := by
  have hnodup : ((arrange o false key as).map key).Nodup :=
    ((arrange_perm o false key as).map key).nodup_iff.mpr h
  have hle : ((arrange o false key as).map key).Pairwise fun k k' => o.order.le k k' = true := by
    rw [List.pairwise_map]
    exact List.pairwise_mergeSort (fun a b c => o.order.le_trans (key a) (key b) (key c))
      (fun a b => o.order.le_total (key a) (key b)) as
  exact (hle.and hnodup).imp fun ⟨hle, hne⟩ => SortOrder.compare_eq_lt hle hne

def shown (o : Options) (c : Completions) : List Candidate :=
  arrange o c.sorted Candidate.value (firstOf Candidate.value c.candidates)

theorem mem_firstOf_of_mem_shown {v : Candidate} (h : v ∈ shown o c) :
    v ∈ firstOf Candidate.value c.candidates := (arrange_perm _ _ _ _).mem_iff.mp h

theorem mem_shown {v : String} :
    v ∈ (shown o c).map Candidate.value ↔ v ∈ c.candidates.map Candidate.value := by
  rw [shown, ((arrange_perm o c.sorted Candidate.value _).map Candidate.value).mem_iff,
    mem_map_firstOf]

theorem valueWidth_shown (m : Text.Metrics) (metavar : String) (o : Options) (c : Completions) :
    valueWidth m metavar (shown o c) = valueWidth m metavar c.candidates :=
  valueWidth_congr m metavar fun _ => mem_shown

theorem nodup_shown (o : Options) (c : Completions) : ((shown o c).map Candidate.value).Nodup :=
  ((arrange_perm o c.sorted Candidate.value _).map Candidate.value).nodup_iff.mpr
    (nodup_map_firstOf _ _)

theorem matched_layOut (m : Text.Metrics) (o : Options) (terminalWidth : Nat) (c : Completions) :
    (layOut m o terminalWidth c).matched = (shown o c).map Candidate.value := by
  unfold layOut
  dsimp only
  split <;> rfl

theorem pairwise_shown (hs : c.sorted = false) :
    ((shown o c).map Candidate.value).Pairwise fun a b => o.order.compare a b = .lt := by
  rw [shown, hs]
  exact pairwise_arrange o _ (nodup_map_firstOf _ _)

/-- Unsorted candidates with the same values are listed alike. -/
theorem shown_eq (hs : c.sorted = false) (hs' : c'.sorted = false)
    (h : ∀ v, v ∈ c.candidates.map Candidate.value ↔ v ∈ c'.candidates.map Candidate.value) :
    (shown o c).map Candidate.value = (shown o c').map Candidate.value := by
  have hperm : ((shown o c).map Candidate.value).Perm ((shown o c').map Candidate.value) :=
    (List.perm_ext_iff_of_nodup (nodup_shown o c) (nodup_shown o c')).mpr fun v => by
      rw [mem_shown, mem_shown, h]
  refine hperm.eq_of_pairwise ?_ (pairwise_shown hs) (pairwise_shown hs')
  intro a b _ _ hab hba
  have hswap : o.order.compare a b = (o.order.compare b a).swap := Std.OrientedCmp.eq_swap
  rw [hab, hba] at hswap
  cases hswap

theorem find?_of_mem_shown {v : Candidate} (h : v ∈ shown o c) :
    c.candidates.find? (·.value == v.value) = some v :=
  find?_of_mem_firstOf (mem_firstOf_of_mem_shown h)

theorem forall₂_matched {P : Candidate → String → Prop} {lines : List String}
    (h : List.Forall₂ P (shown o c) lines) :
    List.Forall₂ (fun s line => ∃ v, c.candidates.find? (·.value == s) = some v ∧ P v line)
      ((shown o c).map Candidate.value) lines := by
  rw [List.forall₂_map_left_iff]
  have hfound : ∀ v ∈ shown o c, c.candidates.find? (·.value == v.value) = some v :=
    fun _ => find?_of_mem_shown
  exact ((List.forall₂_and_left _ _).mpr ⟨hfound, h⟩).imp fun v _ hv => ⟨v, hv⟩

theorem arrange_firstOf_eq_nil {sorted : Bool} :
    arrange o sorted key (firstOf key as) = [] ↔ as = [] := by
  rw [← List.length_eq_zero_iff, (arrange_perm o sorted key _).length_eq, List.length_eq_zero_iff]
  cases as <;> simp [firstOf]

theorem isSome_header : (layOut m o terminalWidth c).header.isSome =
    isTable o (arrange o c.sorted id (firstOf id c.display)) (shown o c) := by
  unfold layOut
  dsimp only
  split
  · next htable => exact htable.symm
  · next htable => exact (Bool.eq_false_iff.mpr htable).symm

theorem layOut_of_header (h : (layOut m o terminalWidth c).header.isSome = true) :
    layOut m o terminalWidth c = table m o terminalWidth c (shown o c) := by
  rw [isSome_header] at h
  exact if_pos h

theorem isTable_iff :
    isTable o (arrange o c.sorted id (firstOf id c.display)) (shown o c) = true ↔
      c.display = [] ∧ 2 ≤ (shown o c).length ∧ (shown o c).length ≤ o.maxDescribed ∧
        ∃ v ∈ shown o c, v.description.isSome = true := by
  simp [isTable, arrange_firstOf_eq_nil, and_assoc]

theorem lines_of_header (hm : m.Laws) (h : (layOut m o terminalWidth c).header.isSome = true) :
    List.Forall₂ (fun v line => ∃ first second, IsLine m terminalWidth
      (valueWidth m (c.metavar.getD "") c.candidates) v first second line)
      (shown o c) (layOut m o terminalWidth c).lines := by
  rw [layOut_of_header h, table, List.forall₂_map_right_iff, List.forall₂_same, valueWidth_shown]
  exact fun v _ => ⟨_, _, isLine_row hm terminalWidth _ v⟩

theorem lines_of_no_header (h : (layOut m o terminalWidth c).header = none)
    (hdisplay : c.display = []) :
    (layOut m o terminalWidth c).lines = (shown o c).map Candidate.value := by
  unfold layOut at h ⊢
  rw [hdisplay, arrange_firstOf_eq_nil.mpr rfl] at h ⊢
  dsimp only at h ⊢
  split at h
  · cases h
  · next htable =>
    rw [if_neg htable]
    rfl

/-- What a listing shows of the completions it is made from. -/
structure Presents (m : Text.Metrics) (o : Options) (terminalWidth : Nat) (c : Completions)
    (l : Listing) : Prop where
  nodup : l.matched.Nodup
  mem_iff : ∀ v, v ∈ l.matched ↔ v ∈ c.candidates.map Candidate.value
  kept : c.sorted = true → l.matched.Pairwise fun a b =>
    (c.candidates.map Candidate.value).idxOf a < (c.candidates.map Candidate.value).idxOf b
  increasing : c.sorted = false → l.matched.Pairwise fun a b => o.order.compare a b = .lt
  length : c.display = [] → l.lines.length = l.matched.length
  plain : c.display = [] → l.header = none → l.lines = l.matched
  isTable : l.header.isSome = true ↔ c.display = [] ∧ 2 ≤ l.matched.length ∧
    l.matched.length ≤ o.maxDescribed ∧ ∃ s ∈ l.matched, ∃ v,
      c.candidates.find? (·.value == s) = some v ∧ v.description.isSome = true
  /-- Each line shows the first candidate with its value. -/
  table : l.header.isSome = true → ∃ width,
    IsGreatest {n | n = m.widthOf (c.metavar.getD "") ∨
      ∃ v ∈ c.candidates, n = m.widthOf v.value} width ∧
    List.Forall₂ (fun s line => ∃ v first second, c.candidates.find? (·.value == s) = some v ∧
      IsLine m terminalWidth width v first second line) l.matched l.lines

theorem presents_layOut (hm : m.Laws) (o : Options) (terminalWidth : Nat) (c : Completions) :
    Presents m o terminalWidth c (layOut m o terminalWidth c) := by
  constructor <;> rw [matched_layOut]
  case nodup => exact nodup_shown o c
  case mem_iff => exact fun v => mem_shown
  case kept =>
    intro hs
    rw [shown, hs]
    exact pairwise_idxOf_firstOf _ _
  case increasing => exact pairwise_shown
  case length =>
    intro hdisplay
    cases hheader : (layOut m o terminalWidth c).header with
    | none => rw [lines_of_no_header hheader hdisplay]
    | some title =>
      have hlines := lines_of_header hm (Option.isSome_of_eq_some hheader)
      rw [← hlines.length_eq, List.length_map]
  case plain => exact fun hdisplay hheader => lines_of_no_header hheader hdisplay
  case isTable =>
    rw [isSome_header, isTable_iff, List.length_map]
    refine and_congr_right fun _ => and_congr_right fun _ => and_congr_right fun _ => ?_
    constructor
    · rintro ⟨v, hv, hsome⟩
      exact ⟨v.value, List.mem_map_of_mem hv, v, find?_of_mem_shown hv, hsome⟩
    · rintro ⟨s, hs, v, hfind, hsome⟩
      obtain ⟨u, hu, rfl⟩ := List.mem_map.mp hs
      obtain rfl := Option.some.inj ((find?_of_mem_shown hu).symm.trans hfind)
      exact ⟨u, hu, hsome⟩
  case table =>
    intro hheader
    refine ⟨_, isGreatest_valueWidth m _ _, ?_⟩
    have hlines := forall₂_matched (lines_of_header hm hheader)
    exact hlines.imp fun _ _ ⟨v, hfind, first, second, hline⟩ => ⟨v, first, second, hfind, hline⟩

/-- A listing shows the values of the candidates in their order, each once and on a line of its own.
Unsorted candidates are put in order, so it does not matter in which order and how often they are
given. -/
theorem ofCompletions_matched (o : Options) (c : Completions) :
    (∀ terminalWidth, Presents Text.unicode o terminalWidth c (ofCompletions o terminalWidth c)) ∧
    ∀ c' : Completions, c.sorted = false → c'.sorted = false →
      (∀ v, v ∈ c.candidates.map Candidate.value ↔ v ∈ c'.candidates.map Candidate.value) →
      ∀ terminalWidth terminalWidth', (ofCompletions o terminalWidth c).matched =
        (ofCompletions o terminalWidth' c').matched := by
  refine ⟨fun terminalWidth => presents_layOut Text.unicode_laws o terminalWidth c, ?_⟩
  intro c' hs hs' hsame terminalWidth terminalWidth'
  rw [ofCompletions, ofCompletions, matched_layOut, matched_layOut, shown_eq hs hs' hsame]

/-- Two items, one of them repeated, under a title that is wider than both. -/
def items : Completions where
  candidates := [.described "A1" "first\titem\r\nof two", .described "日本" "\x1b[1mjapan\x1b[0m",
    .described "A1" "again"]
  sorted := true
  metavar := some "ITEM_ID"

theorem ofCompletions_matched_items :
    ofCompletions {} 22 items = ⟨["A1", "日本"],
      ["A1       first    item", "日本     \x1b[1mjapan\x1b[0m"], some "ITEM_ID  Description"⟩ ∧
    Presents Text.unicode {} 22 items (ofCompletions {} 22 items) ∧
    (ofCompletions {} 22 { items with sorted := false }).matched =
      (ofCompletions {} 14 { candidates := items.candidates.reverse }).matched := by
  refine ⟨by decide +kernel, (ofCompletions_matched {} items).1 22, ?_⟩
  refine (ofCompletions_matched {} { items with sorted := false }).2 _ rfl rfl (fun v => ?_) 22 14
  rw [List.map_reverse, List.mem_reverse]

end Listing

end Tabwise
