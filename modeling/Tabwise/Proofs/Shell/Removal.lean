import Mathlib.Tactic.FinCases
import Tabwise.Proofs.Completion.Candidates
import Tabwise.Proofs.Parse.Greedy
import Tabwise.Proofs.Shell.Shelves
import Tabwise.Proofs.Shell.Words

/-! # Taking items off the shelves

Behind the items that a line already names, completion offers all others that lie on the shelves,
each with its shelf; and the line that names one of these takes it off and nothing else. This holds
in every state that a session of the demo shell gets to.
-/

namespace Tabwise.Shell

open Completion
open Line (IsWord)

namespace Demo

variable {s : Shelves} {ids : List String} {id item shelf : String} {o : Options}
  {abbreviated : Bool}

theorem isWord_library : IsWord "library".toList := by decide

theorem isWord_remove : IsWord "remove".toList := by decide

theorem find?_library : registry.find? "library" = some library := rfl

def removal (s : Shelves) : Subcommand :=
  ⟨"remove", some "take items off the shelves",
    (removeDraft s).grammar.rename "library remove"⟩

/-- An item that a line can name without quotes and that is not read as a flag. -/
structure IsId (s : Shelves) (id : String) : Prop where
  word : IsWord id.toList
  plain : Replay.IsPlain (removeDraft s).grammar id

instance : Decidable (IsId s id) :=
  decidable_of_iff (IsWord id.toList ∧ Replay.IsPlain (removeDraft s).grammar id)
    ⟨fun h => ⟨h.1, h.2⟩, fun h => ⟨h.word, h.plain⟩⟩

/-- Everything behind the name of the command is a word. -/
theorem isWord_removal (hids : ∀ id ∈ ids, IsId s id) :
    ∀ word ∈ "remove" :: ids, IsWord word.toList := by
  rw [List.forall_mem_cons]
  exact ⟨isWord_remove, fun id hid => (hids id hid).word⟩

theorem valid_removal (s : Shelves) : (removal s).grammar.Valid := by
  have hcheck : (removeDraft .empty).check = .ok () := rfl
  have hbuild : (removeDraft s).build = .ok (removeDraft s).grammar :=
    check_map_eq_ok.mpr ⟨hcheck, rfl⟩
  have hflat : ∀ a ∈ (removeDraft s).arguments, a.subcommands?.isNone = true := by
    simp [removeDraft, draft, positional, Argument.subcommands?, Argument.new]
  exact (Sample.built_of_flat hbuild hflat).everywhere_valid.here.rename _

theorem plain_removal (s : Shelves) : (removal s).grammar.Plain := by
  constructor
  case unselected =>
    intro a ha
    fin_cases ha <;> rfl
  case optional =>
    intro a ha hflag
    fin_cases ha
    · rfl
    · cases hflag
  case unlisted =>
    intro a ha
    fin_cases ha <;> rfl
  case ungrouped => rfl

theorem nodup_dest_removal (s : Shelves) :
    ((removal s).grammar.arguments.map (·.dest)).Nodup := by
  -- the names are the same for all shelves
  change ((removal .empty).grammar.arguments.map (·.dest)).Nodup
  decide

def entered (s : Shelves) : Replay :=
  Replay.enterSelector { Replay.start (library.grammar s) with remaining := [] } 2 "remove"

theorem move_remove (s : Shelves) (abbreviated : Bool) :
    Replay.Move (library.grammar s) abbreviated (.start (library.grammar s)) "remove"
      (.subcommand 2 (removal s)) (entered s) := by
  have hplain : Replay.IsPlain (library.grammar .empty) "remove" := by decide
  have hread : (Replay.start (library.grammar s)).ReadsValue (library.grammar s) "remove" :=
    .inr hplain
  have hgroup := Replay.useGroup_of_no_groups (g := library.grammar s) rfl
    { Replay.start (library.grammar s) with remaining := [] } 2
  exact .subcommand 2 [] _ _ (removal s) hread rfl rfl rfl hgroup rfl rfl

theorem run_ids (abbreviated : Bool) (hids : ∀ id ∈ ids, IsId s id) :
    ∃ r slot, (Replay.start (removal s).grammar).run (removal s).grammar abbreviated ids =
        .ok (.handed [(1, ids)], r) ∧
      slot? (removal s).grammar r "" = some slot ∧ slot.id = 1 := by
  have htext : (removal s).grammar.looksLikeFlag "" = false := rfl
  have htrace : Trace.handed [(1, ids)] = ids.map (·, .value 1) := List.append_nil _
  rw [htrace]
  cases ids with
  | nil => exact ⟨_, _, rfl, rfl, rfl⟩
  | cons id ids =>
    have hserves : Replay.Serves (removal s).grammar (.start (removal s).grammar)
        (.new (removal s).grammar 1) [] := ⟨rfl, .inr ⟨rfl, rfl, rfl⟩⟩
    obtain ⟨r, hrun, hr⟩ := Replay.run_serves abbreviated hserves rfl rfl nofun nofun
      fun id hid => (hids id hid).plain
    obtain ⟨slot, hfilled, hslot⟩ : ∃ slot,
        (Slot.new (removal s).grammar 1).filled (id :: ids).length = some slot ∧ slot.id = 1 :=
      ⟨_, rfl, rfl⟩
    refine ⟨r, slot, hrun, ?_, hslot⟩
    rw [slot?, htext, hr.openFlag, Replay.nextPositional?, hr.openPositional, hfilled]
    simp

theorem kept_ids {r : Replay} (parents : Given) (hparents : parents.find? "item_id" = none)
    (hrun : (Replay.start (removal s).grammar).run (removal s).grammar abbreviated ids =
      .ok (.handed [(1, ids)], r)) :
    r.consumedBy 1 = ids ∧
      (parents.extend (r.given (removal s).grammar)).findD "item_id" [] = ids := by
  have hnodup : ([(1, ids)].map (·.1)).Nodup := List.nodup_singleton 1
  have hvalues := Trace.valuesOf_handed hnodup (List.mem_singleton_self (1, ids))
  obtain ⟨hkept, hconsumed⟩ := ((Replay.run_recorded hrun).2 1).kept_positional rfl
  have hfind : (parents.extend (r.given (removal s).grammar)).find? "item_id" =
      (r.values.find? 1).or (parents.find? "item_id") :=
    Replay.find?_extend_given (nodup_dest_removal s) parents hrun
      (Grammar.mem_ids.mpr (Nat.lt_succ_self 1))
  refine ⟨hconsumed.trans hvalues, ?_⟩
  rw [InsertionMap.findD, hfind, hparents, Option.or_none]
  exact hkept.trans hvalues

theorem reaches_removal (abbreviated : Bool) (hids : ∀ id ∈ ids, IsId s id) :
    ∃ r slot given, Reaches abbreviated (library.grammar s) .empty ("remove" :: ids)
        ⟨(removal s).grammar, r, given⟩ ∧
      slot? (removal s).grammar r "" = some slot ∧ slot.id = 1 ∧ r.consumedBy 1 = ids ∧
        given.findD "item_id" [] = ids := by
  obtain ⟨r, slot, hrun, hslot, hid⟩ := run_ids abbreviated hids
  have hstay : ∀ e ∈ Trace.handed [(1, ids)], e.2.selects = false := fun e he =>
    selects_of_continues (Trace.continues_of_mem_handed he)
  have hreaches : Reaches abbreviated (library.grammar s) .empty ([] ++ "remove" :: ids)
      ⟨(removal s).grammar, r, _⟩ :=
    .nested (t := []) (Replay.run_concat_eq_ok.mpr ⟨_, rfl, move_remove s abbreviated⟩)
      (List.forall_mem_nil _) (.here hrun hstay)
  obtain ⟨hconsumed, hgiven⟩ := kept_ids (.extend .empty [("action", ["remove"])]) rfl hrun
  exact ⟨r, slot, _, hreaches, hslot, hid, hconsumed, hgiven⟩

theorem mem_shelved {v : Candidate} {context : Context} (h : Shelves.Ordered s.items)
    (hgiven : context.given.findD "item_id" [] = ids) :
    v ∈ shelved s context ↔ ∃ item shelf, (s.find? item = some shelf ∧ item ∉ ids) ∧
      v = .described item s!"on the {shelf} shelf" := by
  unfold shelved
  dsimp only
  rw [hgiven, List.mem_map]
  constructor
  · rintro ⟨⟨item, shelf⟩, he, rfl⟩
    obtain ⟨hitem, hrest⟩ := List.mem_filter.mp he
    exact ⟨item, shelf, ⟨h.find?_eq_some.mpr hitem, by simpa using hrest⟩, rfl⟩
  · rintro ⟨item, shelf, ⟨hfind, hrest⟩, rfl⟩
    have hitem := h.find?_eq_some.mp hfind
    exact ⟨(item, shelf), List.mem_filter.mpr ⟨hitem, by simpa using hrest⟩, rfl⟩

theorem nodup_shelved (h : Shelves.Ordered s.items) (context : Context) :
    ((shelved s context).map Candidate.value).Nodup := by
  rw [shelved, List.map_map]
  exact h.nodup.sublist (List.filter_sublist.map _)

/-- What is offered behind some ids: all other items on the shelves, each once and with its
shelf. -/
structure OffersRest (s : Shelves) (ids : List String) (offered : List Candidate) : Prop where
  nodup : (offered.map Candidate.value).Nodup
  exact : ∀ v, v ∈ offered ↔ ∃ item shelf, (s.find? item = some shelf ∧ item ∉ ids) ∧
    v = .described item s!"on the {shelf} shelf"

theorem accepts_empty (o : Options) (value : String) : o.accepts value "" = true := by
  have hlower : Text.lowerString "" = "" := rfl
  unfold Options.accepts
  rw [hlower]
  simp [startsWith]

/-- The engine leaves out what the completer has left out already. -/
theorem offersRest_unused {context : Context} {offered : List Candidate}
    (h : Shelves.Ordered s.items) (hgiven : context.given.findD "item_id" [] = ids)
    (hperm : offered.Perm (unused o "" ids (shelved s context))) :
    OffersRest s ids offered := by
  constructor
  case nodup =>
    rw [(hperm.map _).nodup_iff]
    exact (nodup_shelved h context).sublist (List.filter_sublist.map _)
  case exact =>
    intro v
    rw [hperm.mem_iff, unused, List.mem_filter, accepts_empty, mem_shelved h hgiven,
      Bool.true_and]
    refine and_iff_left_of_imp ?_
    rintro ⟨item, shelf, ⟨-, hrest⟩, rfl⟩
    simpa [Candidate.described] using hrest

def removalHint : Outcome := .hint "Hint:\n  item_id  items to take off the shelves"

theorem hint_removal {slot : Slot} (hid : slot.id = 1) :
    hint (removal s).grammar slot = removalHint := by
  have hempty : hint (removal .empty).grammar (.new (removal .empty).grammar 1) = removalHint := by
    decide
  rw [hint, hid]
  exact hempty

/-- The positional offers the rest of the shelves, or else its hint. -/
theorem completeLast_removal {r : Replay} {slot : Slot} {context : Context}
    (h : Shelves.Ordered s.items) (hslot : slot? (removal s).grammar r context.text = some slot)
    (hid : slot.id = 1) (hconsumed : r.consumedBy 1 = ids) (htext : context.text = "")
    (hgiven : context.given.findD "item_id" [] = ids) :
    ∃ c, OffersRest s ids c.candidates ∧ completeLast (removal s).grammar o r context =
      .ok (if c.candidates.isEmpty then removalHint else .candidates c) := by
  have hsource : ((removal s).grammar.argument slot.id).source context =
      .ok (shelved s context) := by
    rw [hid]
    rfl
  obtain ⟨c, hvalues⟩ := values_of_source (o := o) (r := r) hsource
  obtain ⟨all, hall, hperm⟩ := values_perm hvalues
  obtain rfl := Except.ok.inj (hsource.symm.trans hall)
  rw [hid, hconsumed, htext] at hperm
  refine ⟨c, offersRest_unused h hgiven hperm, ?_⟩
  have hbegins : beginsFlag (removal s).grammar r context.text = false := by
    rw [beginsFlag, htext]
    exact Bool.and_false _
  rw [completeLast_of_slot hslot, offer, hvalues, hbegins, hint_removal hid]
  rfl

theorem completeTokens_removal {q : Request} (h : Shelves.Ordered s.items)
    (hids : ∀ id ∈ ids, IsId s id) (htext : q.text = "") :
    ∃ c, OffersRest s ids c.candidates ∧
      completeTokens (library.grammar s) o .empty q ("remove" :: ids ++ [""]) =
        .ok (if c.candidates.isEmpty then removalHint else .candidates c) := by
  obtain ⟨r, slot, given, hreaches, hslot, hid, hconsumed, hgiven⟩ :=
    reaches_removal o.abbreviated hids
  have hlast := hreaches.completeFrom_eq (q := q)
  rw [completeTokens, List.dropLast_concat, hlast]
  refine completeLast_removal h ?_ hid hconsumed htext hgiven
  rwa [← htext] at hslot

theorem parse_removal (hids : ∀ id ∈ ids, IsId s id) (hne : ids ≠ []) :
    ∃ args, (removal s).grammar.parse true ids = .ok args ∧ args.getAll "item_id" = ids ∧
      args.helpRequested = false := by
  have hp := plain_removal s
  have hv := valid_removal s
  obtain ⟨r, hrun, hparse⟩ := hp.parse_eq true hv fun id hid => (hids id hid).plain
  have hshares : (removal s).grammar.shares (removal s).grammar.positionals ids = [(1, ids)] := rfl
  have hover : (removal s).grammar.leftOver (removal s).grammar.positionals ids = [] :=
    List.drop_length
  have hshort : [(1, ids)].find? (removal s).grammar.isShort = none := by
    have hmin : ((removal s).grammar.argument 1).minArgs = 1 := rfl
    simp [Grammar.isShort, hmin, hne]
  rw [hshares] at hrun hparse
  rw [hover, hshort] at hparse
  have hget := Grammar.getAll_of_handed hrun hp (nodup_dest_removal s) rfl (1, ids)
    (List.mem_singleton_self _) ids none
  exact ⟨_, hparse, hget, Grammar.helpGiven_of_handed hrun hv hp⟩

theorem parse_library {nested : Args} (hparse : (removal s).grammar.parse true ids = .ok nested)
    (hhelp : nested.helpRequested = false) :
    ∃ args, (library.grammar s).parse true ("remove" :: ids) = .ok args ∧
      args.subcommand = some ("remove", nested) ∧ args.get? "user" = none ∧
        args.helpRequested = false := by
  have hrun : (Replay.start (library.grammar s)).run (library.grammar s) true ([] ++ ["remove"]) =
      .ok ([] ++ [("remove", .subcommand 2 (removal s))], entered s) :=
    Replay.run_concat_eq_ok.mpr ⟨_, rfl, move_remove s true⟩
  have hfinish : (library.grammar s).finish (entered s) [] (some ("remove", nested)) =
      .ok ((library.grammar s).collect (entered s) [] (some ("remove", nested))) :=
    Grammar.finish_eq_ok.mpr ⟨fun _ => rfl, rfl⟩
  have hparses := Grammar.Parses.command hrun (List.forall_mem_nil _)
    (Grammar.parse_eq_ok_iff.mp hparse) hfinish
  refine ⟨_, Grammar.parse_eq_ok_iff.mpr hparses, rfl, rfl, ?_⟩
  exact hhelp

theorem execute_removal (hids : ∀ id ∈ ids, IsId s id) (hne : ids ≠ []) :
    registry.execute s (lineOf ("library" :: "remove" :: ids)) =
      .print (takeOff "someone" s ids).1 (takeOff "someone" s ids).2 := by
  obtain ⟨nested, hparse, hnamed, hhelp⟩ := parse_removal hids hne
  obtain ⟨args, hargs, hsubcommand, huser, hhelp'⟩ := parse_library hparse hhelp
  rw [Registry.execute_lineOf isWord_library (isWord_removal hids) (List.cons_ne_nil _ _)
    find?_library hargs hhelp']
  unfold library
  simp only [hsubcommand, huser]
  rw [runAction, hnamed]
  rfl

def removalLine (ids : List String) : String := lineOf ("library" :: "remove" :: ids)

def completeRemoval (s : Shelves) (o : Options) (ids : List String) (start : Nat) :
    Except String Outcome :=
  let line := removalLine ids ++ " "
  registry.completeLine s o line start line.utf8ByteSize

/-- How items are taken off the shelves. -/
structure Removes (s : Shelves) : Prop where
  offers : ∀ ids, (∀ id ∈ ids, IsId s id) →
    (∃ item shelf, s.find? item = some shelf ∧ item ∉ ids) →
      ∀ o start, ∃ c, completeRemoval s o ids start = .ok (.candidates c) ∧
        OffersRest s ids c.candidates
  hints : ∀ ids, (∀ id ∈ ids, IsId s id) →
    (∀ item shelf, s.find? item = some shelf → item ∈ ids) →
      ∀ o start, completeRemoval s o ids start = .ok removalHint
  /-- The item is taken off and reported, and all others stay where they are. -/
  takes : ∀ item shelf, IsId s item → s.find? item = some shelf →
    ∃ after, registry.execute s (removalLine [item]) =
        .print after [s!"someone took {item} off the {shelf} shelf"] ∧
      ∀ other, after.find? other = if other = item then none else s.find? other

theorem completeRemoval_eq (h : Shelves.Ordered s.items) (hids : ∀ id ∈ ids, IsId s id)
    (o : Options) (start : Nat) :
    ∃ c, OffersRest s ids c.candidates ∧ completeRemoval s o ids start =
      .ok (if c.candidates.isEmpty then removalHint else .candidates c) := by
  have hline : removalLine ids ++ " " = lineOf ("library" :: "remove" :: ids) ++ " " := rfl
  have hblack : 'r' ∈ "remove".toList := by decide
  rw [completeRemoval, Registry.completeLine_lineOf o start hline isWord_library
    (isWord_removal hids) List.mem_cons_self hblack (by decide) find?_library]
  exact completeTokens_removal h hids rfl

/-- Whatever lines a session has executed, completion offers what is on the shelves and is not named
yet, and an item that is offered is taken off. -/
theorem removes_of_reachable (h : registry.Reachable .empty s) : Removes s := by
  have hordered := ordered_of_reachable h
  constructor
  case offers =>
    intro ids hids hleft o start
    obtain ⟨c, hoffers, hanswer⟩ := completeRemoval_eq hordered hids o start
    obtain ⟨item, shelf, hitem⟩ := hleft
    have hmem := (hoffers.exact _).mpr ⟨item, shelf, hitem, rfl⟩
    have hsome : c.candidates.isEmpty = false := by
      simpa using List.ne_nil_of_mem hmem
    rw [hsome] at hanswer
    exact ⟨c, hanswer, hoffers⟩
  case hints =>
    intro ids hids hnone o start
    obtain ⟨c, hoffers, hanswer⟩ := completeRemoval_eq hordered hids o start
    have hnil : c.candidates = [] := by
      apply List.eq_nil_iff_forall_not_mem.mpr
      intro v hv
      obtain ⟨item, shelf, ⟨hfind, hrest⟩, -⟩ := (hoffers.exact v).mp hv
      exact hrest (hnone item shelf hfind)
    rw [hnil] at hanswer
    exact hanswer
  case takes =>
    intro item shelf hid hfind
    refine ⟨s.remove item, ?_, Shelves.find?_remove s item⟩
    have hids : ∀ id ∈ [item], IsId s id := by simpa using hid
    rw [removalLine, execute_removal hids (List.cons_ne_nil _ _), takeOff, hfind]
    rfl

def shelvedTwo : Shelves := ⟨[("A1", "top"), ("B2", "bottom")]⟩

/-- Behind the first of two items the second is offered, and behind both the hint. -/
theorem removes_of_reachable_two :
    registry.Reachable .empty shelvedTwo ∧
    (∃ c, registry.completeLine shelvedTwo {} "library remove A1 " 18 18 = .ok (.candidates c) ∧
      OffersRest shelvedTwo ["A1"] c.candidates) ∧
    registry.completeLine shelvedTwo {} "library remove A1 B2 " 21 21 = .ok removalHint ∧
    ∃ after, registry.execute shelvedTwo "library remove B2" =
        .print after ["someone took B2 off the bottom shelf"] ∧
      after.find? "A1" = some "top" ∧ after.find? "B2" = none := by
  have hreachable : registry.Reachable .empty shelvedTwo :=
    .execute "lib add B2 bottom" (.execute "library add A1" .start)
  obtain ⟨hoffers, hhints, htakes⟩ := removes_of_reachable hreachable
  have hfirst : IsId shelvedTwo "A1" := by decide
  have hsecond : IsId shelvedTwo "B2" := by decide
  have hnone : ∀ item shelf, shelvedTwo.find? item = some shelf → item ∈ ["A1", "B2"] := by
    intro item shelf hfind
    have hmem : (item, shelf) ∈ shelvedTwo.items :=
      InsertionMap.mem_of_find? (m := ⟨shelvedTwo.items⟩) hfind
    exact List.mem_map_of_mem (f := (·.1)) hmem
  have hoffered := hoffers ["A1"] (by simpa using hfirst) ⟨"B2", "bottom", rfl, by decide⟩ {} 18
  have hhinted := hhints ["A1", "B2"] (by simp [hfirst, hsecond]) hnone {} 21
  obtain ⟨after, htaken, hfind⟩ := htakes "B2" "bottom" hsecond rfl
  have hone : removalLine ["A1"] ++ " " = "library remove A1 " := by decide
  have hboth : removalLine ["A1", "B2"] ++ " " = "library remove A1 B2 " := by decide
  have hline : removalLine ["B2"] = "library remove B2" := by decide
  rw [completeRemoval, hone] at hoffered
  rw [completeRemoval, hboth] at hhinted
  rw [hline] at htaken
  exact ⟨hreachable, hoffered, hhinted, after, htaken, hfind "A1", hfind "B2"⟩

end Demo

end Tabwise.Shell
