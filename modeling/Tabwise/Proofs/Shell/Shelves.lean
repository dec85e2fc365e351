import Tabwise.Proofs.Shell.Names
import Tabwise.Proofs.Text.Order
import Tabwise.Shell.Demo

/-! # What a session keeps

What every command keeps holds in all states that a session gets to, whatever lines it executes. In
the demo shell the items on the shelves are kept in order, so each of them lies on one shelf.
-/

namespace Tabwise.Shell

variable {σ : Type} {P : σ → Prop} {c : Command σ} {commands : List (Command σ)} {r : Registry σ}
  {first state : σ}

/-- Running the command keeps a property of the state. -/
def Command.Keeps (P : σ → Prop) (c : Command σ) : Prop :=
  ∀ state args d, P state → P (c.run state args d).state

theorem Command.keeps_of_state (h : ∀ state args d, (c.run state args d).state = state) :
    c.Keeps P := by
  intro state args d hP
  rwa [h]

namespace Registry

def Keeps (P : σ → Prop) (r : Registry σ) : Prop := ∀ name c, r.find? name = some c → c.Keeps P

theorem keeps_helpCommand (d : Directory σ) : (helpCommand d).Keeps P := by
  apply Command.keeps_of_state
  intro state args d
  change (runHelp state args d).state = state
  unfold runHelp
  split
  · rfl
  · split <;> rfl

theorem keeps_registered (h : ∀ c ∈ commands, c.Keeps P) : (registered commands).Keeps P := by
  intro name c hfind
  rcases mem_of_find?_registered hfind with hc | ⟨d, rfl⟩
  · exact h c hc
  · exact keeps_helpCommand d

/-- A line changes the state by running a command or not at all. -/
theorem Keeps.execute (h : r.Keeps P) (hP : P state) (line : String) :
    P (r.execute state line).state := by
  unfold Registry.execute
  dsimp only
  split
  · exact hP
  · cases hfind : r.find? (Line.split line.toList).command with
    | none => exact hP
    | some c =>
      dsimp only
      cases (c.grammar state).parseLine (Line.split line.toList).rest with
      | error cause => exact hP
      | ok args =>
        dsimp only
        split
        · exact hP
        · exact h _ c hfind state args _ hP

/-- The states that a session gets to by executing lines. -/
inductive Reachable (r : Registry σ) (first : σ) : σ → Prop
  | start : Reachable r first first
  | execute {state : σ} (line : String) : Reachable r first state →
      Reachable r first (r.execute state line).state

theorem Reachable.keeps (h : r.Reachable first state) (hr : r.Keeps P) (hfirst : P first) :
    P state := by
  induction h with
  | start => exact hfirst
  | execute line _ ih => exact hr.execute ih line

end Registry

namespace Demo

variable {item other shelf user action : String} {items : List (String × String)} {s : Shelves}

namespace Shelves

def Before (a b : String × String) : Prop := Text.compareChars a.1.toList b.1.toList = .lt

/-- The items are in order, so none is there twice. -/
def Ordered (items : List (String × String)) : Prop := items.Pairwise Before

theorem Before.trans {a b c : String × String} (hab : Before a b) (hbc : Before b c) :
    Before a c := Std.TransCmp.lt_trans hab hbc

theorem Before.ne {a b : String × String} (h : Before a b) : a.1 ≠ b.1 := by
  intro heq
  have hself : Text.compareChars b.1.toList b.1.toList = .eq := Std.ReflCmp.compare_self
  rw [Before, heq, hself] at h
  cases h

theorem Ordered.nodup (h : Ordered items) : (items.map (·.1)).Nodup :=
  List.pairwise_map.mpr (h.imp Before.ne)

theorem mem_place {e : String × String} (h : e ∈ place item shelf items) :
    e = (item, shelf) ∨ e ∈ items := by
  induction items with
  | nil => exact .inl (List.mem_singleton.mp h)
  | cons first rest ih =>
    rw [place] at h
    split at h
    · exact List.mem_cons.mp h
    · exact (List.mem_cons.mp h).imp_right (List.mem_cons_of_mem first)
    · rcases List.mem_cons.mp h with rfl | hrest
      · exact .inr List.mem_cons_self
      · exact (ih hrest).imp_right (List.mem_cons_of_mem first)

/-- An item that is put on a shelf goes where it belongs, or to the other shelf if it is there. -/
theorem Ordered.place (h : Ordered items) : Ordered (place item shelf items) := by
  induction items with
  | nil => exact List.pairwise_singleton _ _
  | cons first rest ih =>
    obtain ⟨hfirst, hrest⟩ := List.pairwise_cons.mp h
    rw [Shelves.place]
    split
    · next hlt =>
      refine List.pairwise_cons.mpr ⟨fun e he => ?_, h⟩
      rcases List.mem_cons.mp he with rfl | he
      · exact hlt
      · exact Before.trans hlt (hfirst e he)
    · next heq =>
      have hsame : item = first.1 := String.toList_inj.mp (Std.LawfulEqCmp.eq_of_compare heq)
      refine List.pairwise_cons.mpr ⟨fun e he => ?_, hrest⟩
      rw [Before, hsame]
      exact hfirst e he
    · next hgt =>
      refine List.pairwise_cons.mpr ⟨fun e he => ?_, ih hrest⟩
      rcases mem_place he with rfl | he
      · exact Std.OrientedCmp.lt_of_gt hgt
      · exact hfirst e he

theorem Ordered.remove (h : Ordered s.items) : Ordered (s.remove item).items :=
  h.sublist List.filter_sublist

theorem Ordered.find?_eq_some (h : Ordered s.items) :
    s.find? item = some shelf ↔ (item, shelf) ∈ s.items := by
  refine ⟨fun hfind => ?_, InsertionMap.lookup_of_mem h.nodup⟩
  obtain ⟨before, after, hitems, -⟩ := List.lookup_eq_some_iff.mp hfind
  rw [hitems]
  exact List.mem_append_right before List.mem_cons_self

/-- Taking an item off the shelves leaves all others where they are. -/
theorem find?_remove (s : Shelves) (item other : String) :
    (s.remove item).find? other = if other = item then none else s.find? other := by
  obtain ⟨items⟩ := s
  change (items.filter (·.1 ≠ item)).lookup other =
    if other = item then none else items.lookup other
  induction items with
  | nil => simp
  | cons first rest ih =>
    rw [List.filter_cons, InsertionMap.lookup_cons_eq]
    by_cases hfirst : first.1 = item
    · rw [if_neg (by simpa using hfirst), ih, ← hfirst]
      split <;> rfl
    · rw [if_pos (by simpa using hfirst), InsertionMap.lookup_cons_eq, ih]
      by_cases hother : other = first.1
      · simp [hother, hfirst]
      · simp [hother]

end Shelves

open Shelves (Ordered)

theorem ordered_takeOff (h : Ordered s.items) (named : List String) :
    Ordered (takeOff user s named).1.items := by
  induction named generalizing s with
  | nil => exact h
  | cons item rest ih =>
    rw [takeOff]
    split
    · exact ih h.remove
    · exact ih h

theorem ordered_runAction (h : Ordered s.items) (args : Args) :
    Ordered (runAction user s action args).1.items := by
  unfold runAction
  split
  · exact h.place
  · exact ordered_takeOff h _
  · exact h

theorem keeps_library : library.Keeps fun s => Ordered s.items := by
  intro s args d h
  unfold library
  dsimp only
  split
  · exact h
  · exact ordered_runAction h _

theorem keeps_suggest : suggest.Keeps fun s => Ordered s.items := by
  apply Command.keeps_of_state
  intro s args d
  unfold suggest
  dsimp only
  split <;> rfl

theorem keeps_speak : speak.Keeps fun s => Ordered s.items := by
  apply Command.keeps_of_state
  intro s args d
  unfold speak
  dsimp only
  split <;> rfl

/-- Whatever lines a session has executed, its items are in order. -/
theorem ordered_of_reachable (h : registry.Reachable .empty s) : Ordered s.items := by
  have hall : ∀ c ∈ [suggest, library, speak], c.Keeps fun s => Ordered s.items := by
    simp [keeps_suggest, keeps_library, keeps_speak]
  exact h.keeps (Registry.keeps_registered hall) List.Pairwise.nil

end Demo

end Tabwise.Shell
