import Tabwise.Proofs.Grammar.Kinds
import Tabwise.Proofs.Replay.Groups
import Tabwise.Proofs.Replay.Trace

/-! # What a move changes

A move touches the records of one argument at most. For that argument a flag starts a new
occurrence, a value is added to the current one, and a selector keeps its token.
-/

namespace Tabwise

namespace Replay

variable {g : Grammar} {abbreviated : Bool} {r r' : Replay} {token : String} {id i : Nat}
  {st : Step} {s : Slot}

/-- The records that are kept for an argument: how often it was given, the values of its current
occurrence and the values that are kept. -/
def records (r : Replay) (i : Nat) : Nat × List String × Option (List String) :=
  (r.occurrencesOf i, r.consumedBy i, r.values.find? i)

theorem Narrowed.records (h : Narrowed g r r') (i : Nat) : r'.records i = r.records i := by
  simp [Replay.records, occurrencesOf, consumedBy, h.occurrences, h.consumed, h.values]

theorem find?_keepFlag_of_ne {a : Argument} {values : InsertionMap Nat (List String)}
    (h : i ≠ id) : (keepFlag a id values).find? i = values.find? i := by
  unfold keepFlag
  split <;> simp [h]

theorem find?_keepFlag (a : Argument) (id : Nat) (values : InsertionMap Nat (List String)) :
    (keepFlag a id values).find? id = match a.action with
      | .store => some []
      | .append => some (values.findD id [])
      | .appendConst => some (values.findD id [] ++ [a.constant.getD ""])
      | .storeTrue | .count | .help => values.find? id := by
  unfold keepFlag
  cases a.action <;> simp

theorem Move.records_of_ne (h : Move g abbreviated r token st r') (hi : st.subject? ≠ some i) :
    r'.records i = r.records i := by
  have ne {j : Nat} (hj : some j ≠ some i) : i ≠ j := fun he => hj (he ▸ rfl)
  cases h with
  | lockedFlag s hf hs => simp [records, occurrencesOf, consumedBy, pushValue, ne hi]
  | lockedPositional s hf hp hs ht => simp [records, occurrencesOf, consumedBy, pushValue, ne hi]
  | closeRemainder s hf hp hs ht => rfl
  | separator hu hoff ht hn => rfl
  | unknownFlag hu hr hn hl => rfl
  | flag j r₁ hu hr hn hl hg =>
    rw [← show r₁.records i = r.records i from (useGroup_narrowed hg).records i]
    simp [records, occurrencesOf, consumedBy, enterFlag, ne hi, find?_keepFlag_of_ne]
  | flagValue s hu hv hf =>
    simp [records, occurrencesOf, consumedBy, fillFlag, pushValue, Slot.next, ne hi]
  | positionalValue s hu hv hf hp =>
    simp [records, occurrencesOf, consumedBy, fillPositional, Slot.next, pushValue, ne hi]
  | extra hv hf hp hr => rfl
  | newPositional j rest r₁ hv hf hp hr hg hs =>
    rw [← show r₁.records i = r.records i from (useGroup_narrowed hg).records i]
    simp [records, occurrencesOf, consumedBy, enterPositional, fillPositional, Slot.next, Slot.new,
      countOccurrence, pushValue, ne hi]
  | subcommand j rest r₁ set command hv hf hp hr hg hs hc =>
    rw [← show r₁.records i = r.records i from (useGroup_narrowed hg).records i]
    simp [records, occurrencesOf, consumedBy, enterSelector, countOccurrence, ne hi]
  | unknownSubcommand j rest r₁ set hv hf hp hr hg hs hc =>
    rw [← show r₁.records i = r.records i from (useGroup_narrowed hg).records i]
    simp [records, occurrencesOf, consumedBy, enterSelector, countOccurrence, ne hi]

theorem Move.records_value (h : Move g abbreviated r token (.value i) r') :
    r'.consumedBy i = r.consumedBy i ++ [token] ∧
      r'.values.find? i = some (r.values.findD i [] ++ [token]) := by
  cases h with
  | lockedFlag s hf hs => simp [consumedBy, pushValue]
  | lockedPositional s hf hp hs ht => simp [consumedBy, pushValue]
  | flagValue s hu hv hf => simp [consumedBy, fillFlag, pushValue, Slot.next]
  | positionalValue s hu hv hf hp => simp [consumedBy, fillPositional, pushValue, Slot.next]
  | newPositional i rest r₁ hv hf hp hr hg hs =>
    have hn := useGroup_narrowed hg
    simp [consumedBy, enterPositional, fillPositional, Slot.next, Slot.new, countOccurrence,
      pushValue, hn.consumed, hn.values]

theorem Move.records_flag (h : Move g abbreviated r token (.flag i) r') :
    r'.records i =
      (r.occurrencesOf i + 1, [], (keepFlag (g.argument i) i r.values).find? i) := by
  cases h with
  | flag i r₁ hu hr hn hl hg =>
    have hn := useGroup_narrowed hg
    simp [records, occurrencesOf, consumedBy, enterFlag, hn.occurrences, hn.values]

theorem records_enterSelector (r : Replay) (i : Nat) (token : String) :
    (r.enterSelector i token).records i =
      (r.occurrencesOf i + 1, r.consumedBy i, some [token]) := by
  simp [records, occurrencesOf, consumedBy, enterSelector, countOccurrence]

/-- A selector is the head of the line and keeps the token that it is given. -/
theorem Move.records_selection (h : Move g abbreviated r token st r')
    (hi : st.isSelection i = true) :
    (∃ set, (g.argument i).kind = .selector set) ∧ r.remaining.head? = some i ∧
      r'.records i = (r.occurrencesOf i + 1, r.consumedBy i, some [token]) := by
  have record {j : Nat} {rest : List Nat} {r₁ : Replay}
      (hg : { r with remaining := rest }.useGroup g j = .ok r₁) :
      (r₁.enterSelector j token).records j =
        (r.occurrencesOf j + 1, r.consumedBy j, some [token]) := by
    have hn := useGroup_narrowed hg
    rw [records_enterSelector, occurrencesOf, consumedBy, hn.occurrences, hn.consumed]
    rfl
  cases h with
  | subcommand j rest r₁ set command hv hf hp hr hg hs hc =>
    obtain rfl : j = i := by simpa [Step.isSelection] using hi
    exact ⟨⟨set, Argument.subcommands?_eq_some.mp hs⟩, by rw [hr]; rfl, record hg⟩
  | unknownSubcommand j rest r₁ set hv hf hp hr hg hs hc =>
    obtain rfl : j = i := by simpa [Step.isSelection] using hi
    exact ⟨⟨set, Argument.subcommands?_eq_some.mp hs⟩, by rw [hr]; rfl, record hg⟩
  | _ => cases hi

theorem Move.selects {c : Subcommand} (h : Move g abbreviated r token (.subcommand i c) r') :
    ∃ set, (g.argument i).kind = .selector set ∧ set.select? token = some c := by
  cases h with
  | subcommand i rest r₁ set c hv hf hp hr hg hs hsel =>
    exact ⟨set, Argument.subcommands?_eq_some.mp hs, hsel⟩

theorem Move.isFlag (h : Move g abbreviated r token (.flag i) r') :
    (g.argument i).isFlag = true := by
  cases h with
  | flag i r₁ hu hr hn hl hg => exact Grammar.isFlag_of_lookupFlag hl

end Replay

end Tabwise
