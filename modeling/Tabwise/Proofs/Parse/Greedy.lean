import Tabwise.Proofs.Parse.Collect

/-! # Greedy positionals

Where no token can be a flag or a subcommand, positionals take their values in turn: each takes as
many of the tokens that are left as it can. A token that is left over is one too many, and the first
positional that got too few is missing.
-/

namespace Tabwise

def Argument.share (a : Argument) (tokens : List String) : List String :=
  match a.maxArgs with
  | some m => tokens.take m
  | none => tokens

namespace Grammar

/-- What positionals get in turn of the tokens that are left. -/
def shares (g : Grammar) : List Nat → List String → List (Nat × List String)
  | [], _ => []
  | i :: ids, tokens =>
    let share := (g.argument i).share tokens
    (i, share) :: g.shares ids (tokens.drop share.length)

def leftOver (g : Grammar) : List Nat → List String → List String
  | [], tokens => tokens
  | i :: ids, tokens => g.leftOver ids (tokens.drop ((g.argument i).share tokens).length)

def isShort (g : Grammar) (e : Nat × List String) : Bool := e.2.length < (g.argument e.1).minArgs

end Grammar

def Trace.handed (shares : List (Nat × List String)) : Trace :=
  shares.flatMap fun e => e.2.map (·, .value e.1)

variable {g : Grammar} {abbreviated : Bool} {r : Replay} {token : String} {i : Nat}
  {ids : List Nat} {tokens xs : List String} {s : Slot}

namespace Argument

variable {a : Argument}

theorem share_prefixes (a : Argument) (tokens : List String) : a.share tokens <+: tokens := by
  unfold share
  cases a.maxArgs with
  | none => exact List.prefix_rfl
  | some m => exact List.take_prefix m tokens

theorem share_append_drop (a : Argument) (tokens : List String) :
    a.share tokens ++ tokens.drop (a.share tokens).length = tokens :=
  (List.prefix_iff_eq_append.mp (a.share_prefixes tokens)).symm ▸ rfl

theorem length_share_le {m : Nat} (hm : a.maxArgs = some m) (tokens : List String) :
    (a.share tokens).length ≤ m := by
  rw [share, hm]
  exact List.length_take_le m tokens

theorem drop_share (a : Argument) (tokens : List String)
    (h : ∀ m, a.maxArgs = some m → (a.share tokens).length < m) :
    tokens.drop (a.share tokens).length = [] := by
  rw [List.drop_eq_nil_iff]
  unfold share at h ⊢
  cases hmax : a.maxArgs with
  | none => exact Nat.le_refl _
  | some m =>
    have := h m hmax
    simp only [hmax, List.length_take] at this ⊢
    omega

theorem share_nil (a : Argument) : a.share [] = [] := List.prefix_nil.mp (a.share_prefixes [])

theorem eq_nil_of_share (hmax : a.maxArgs ≠ some 0) (h : a.share tokens = []) : tokens = [] := by
  unfold share at h
  cases hm : a.maxArgs with
  | none => simpa [hm] using h
  | some m =>
    have hpos : m ≠ 0 := fun he => hmax (by rw [hm, he])
    simpa [hm, hpos] using h

end Argument

namespace Grammar

/-- Shares and what is left over are the tokens. -/
theorem flatMap_shares_append_leftOver (g : Grammar) (ids : List Nat) (tokens : List String) :
    (g.shares ids tokens).flatMap (·.2) ++ g.leftOver ids tokens = tokens := by
  induction ids generalizing tokens with
  | nil => rfl
  | cons i ids ih =>
    rw [shares, leftOver, List.flatMap_cons, List.append_assoc, ih]
    exact Argument.share_append_drop _ _

theorem shares_nil (g : Grammar) (ids : List Nat) : g.shares ids [] = ids.map (·, []) := by
  induction ids with
  | nil => rfl
  | cons i ids ih => simp [shares, Argument.share_nil, ih]

theorem leftOver_nil (g : Grammar) (ids : List Nat) : g.leftOver ids [] = [] := by
  induction ids with
  | nil => rfl
  | cons i ids ih => rw [leftOver, List.drop_nil, ih]

theorem flatMap_shares_nil (g : Grammar) (ids : List Nat) :
    (g.shares ids []).flatMap (·.2) = [] := by
  simp [shares_nil]

theorem handed_shares_nil (g : Grammar) (ids : List Nat) : Trace.handed (g.shares ids []) = [] := by
  simp [shares_nil, Trace.handed]

theorem map_fst_shares (g : Grammar) (ids : List Nat) (tokens : List String) :
    (g.shares ids tokens).map (·.1) = ids := by
  induction ids generalizing tokens with
  | nil => rfl
  | cons i ids ih => rw [shares, List.map_cons, ih]

/-- Where nothing is left, the first share that is too small is that of the first positional that
is required. -/
theorem find?_isShort_nil (hids : ∀ i ∈ ids, (g.argument i).kind = .positional) :
    ((g.shares ids []).find? g.isShort).map (·.1) =
      ids.find? fun i => (g.argument i).isRequired := by
  induction ids with
  | nil => rfl
  | cons i ids ih =>
    rw [List.forall_mem_cons] at hids
    have hshort : g.isShort (i, []) = (g.argument i).isRequired := by
      simp [isShort, Argument.isRequired, hids.1]
    simp only [shares, Argument.share_nil, List.find?_cons, hshort, List.drop_nil]
    cases (g.argument i).isRequired with
    | true => rfl
    | false => exact ih hids.2

end Grammar

namespace Trace

variable {shares : List (Nat × List String)} {e : String × Step}

theorem handed_cons (e : Nat × List String) (shares : List (Nat × List String)) :
    handed (e :: shares) = e.2.map (·, .value e.1) ++ handed shares := List.flatMap_cons

theorem eq_value_of_mem_handed (he : e ∈ handed shares) :
    ∃ i ∈ shares.map (·.1), e.2 = .value i := by
  obtain ⟨share, hs, he⟩ := List.mem_flatMap.mp he
  obtain ⟨token, -, rfl⟩ := List.mem_map.mp he
  exact ⟨share.1, List.mem_map_of_mem hs, rfl⟩

theorem flagCount_handed (i : Nat) : flagCount i (handed shares) = 0 := by
  rw [flagCount, List.countP_eq_zero]
  intro e he
  obtain ⟨j, -, hj⟩ := eq_value_of_mem_handed he
  simp [hj, Step.isFlag]

theorem continues_of_mem_handed (he : e ∈ handed shares) : e.2.continues = true := by
  obtain ⟨i, -, hi⟩ := eq_value_of_mem_handed he
  rw [hi]
  rfl

theorem valuesOf_append (i : Nat) (t₁ t₂ : Trace) :
    valuesOf i (t₁ ++ t₂) = valuesOf i t₁ ++ valuesOf i t₂ := by
  simp [valuesOf]

theorem valuesOf_handed_of_notMem (hi : i ∉ shares.map (·.1)) :
    valuesOf i (handed shares) = [] := by
  rw [valuesOf, List.map_eq_nil_iff, List.filter_eq_nil_iff]
  intro e he
  obtain ⟨j, hj, hstep⟩ := eq_value_of_mem_handed he
  have hne : j ≠ i := fun h => hi (h ▸ hj)
  simp [hstep, Step.isValue, hne]

/-- Each argument has the values of its share. -/
theorem valuesOf_handed (hn : (shares.map (·.1)).Nodup) {share : Nat × List String}
    (hs : share ∈ shares) : valuesOf share.1 (handed shares) = share.2 := by
  induction shares with
  | nil => cases hs
  | cons first rest ih =>
    rw [List.map_cons, List.nodup_cons] at hn
    rw [handed_cons, valuesOf_append]
    rcases List.mem_cons.mp hs with rfl | hs
    · rw [valuesOf_handed_of_notMem hn.1]
      have hvalue : Step.isValue share.1 (.value share.1) = true := beq_self_eq_true share.1
      simp only [valuesOf, List.filter_map, Function.comp_def, hvalue]
      simp [Function.comp_def]
    · have hne : first.1 ≠ share.1 := fun h => hn.1 (h ▸ List.mem_map_of_mem hs)
      rw [ih hn.2 hs]
      simp [valuesOf, Step.isValue, hne]

end Trace

namespace Slot

/-- A slot after a number of values, unless it is full. -/
def filled (s : Slot) (n : Nat) : Option Slot :=
  let s := { s with count := s.count + n }
  if s.isFull then none else some s

theorem next_filled (s : Slot) (n : Nat) : s.next.filled n = s.filled (n + 1) := by
  have hcount : s.count + 1 + n = s.count + (n + 1) := by omega
  simp only [filled, next, hcount]

theorem filled_one (hroom : ∀ m, s.max = some m → s.count + 1 < m) :
    s.filled 1 = some s.next := by
  have hfull : s.next.isFull = false := by
    cases hmax : s.max with
    | none => simp [isFull, next, hmax]
    | some m =>
      have := hroom m hmax
      simp only [isFull, next, hmax, Option.any_some, decide_eq_false_iff_not]
      omega
  change (if s.next.isFull then none else some s.next) = some s.next
  simp [hfull]

theorem filled_eq_none {n : Nat} :
    s.filled n = none ↔ ∃ m, s.max = some m ∧ m ≤ s.count + n := by
  cases hmax : s.max <;> simp [filled, isFull, hmax]

theorem filled_eq_some {s' : Slot} {n : Nat} (h : s.filled n = some s') :
    s' = { s with count := s.count + n } ∧ ∀ m, s.max = some m → s.count + n < m := by
  change (if Slot.isFull _ then none else some _) = some s' at h
  split at h
  · cases h
  · next hfull =>
    refine ⟨(Option.some.inj h).symm, fun m hm => ?_⟩
    simpa [isFull, hm] using hfull

end Slot

namespace Replay

/-- The token is a value whether flags are on or off. -/
def IsPlain (g : Grammar) (token : String) : Prop := token ≠ "--" ∧ g.looksLikeFlag token = false

instance : Decidable (IsPlain g token) := inferInstanceAs (Decidable (_ ∧ _))

/-- The next values go to a slot, and other positionals wait behind it. -/
def Serves (g : Grammar) (r : Replay) (s : Slot) (ids : List Nat) : Prop :=
  r.openFlag = none ∧
    (r.openPositional = some s ∧ r.remaining = ids ∨
      r.openPositional = none ∧ r.remaining = s.id :: ids ∧ s = .new g s.id)

/-- No flag is open; a positional may be open, and others wait. -/
structure Stands (r : Replay) (s? : Option Slot) (ids : List Nat) : Prop where
  openFlag : r.openFlag = none
  openPositional : r.openPositional = s?
  remaining : r.remaining = ids

theorem useGroup_of_no_groups (hg : g.groups = []) (r : Replay) (id : Nat) :
    r.useGroup g id = .ok r :=
  useGroup_eq_ok.mpr (.inl ⟨by rw [Grammar.groupIndex?, hg]; rfl, rfl⟩)

theorem step_serves (abbreviated : Bool) (hs : Serves g r s ids) (hg : g.groups = [])
    (hsub : (g.argument s.id).subcommands? = none) (hrem : s.remainder = true → s.max = none)
    (ht : IsPlain g token) :
    ∃ r', Move g abbreviated r token (.value s.id) r' ∧ Stands r' (s.filled 1) ids := by
  have hread : r.ReadsValue g token := .inr ht
  obtain ⟨hf, ⟨hp, hr⟩ | ⟨hp, hr, hnew⟩⟩ := hs
  · cases hlock : s.remainder with
    | true =>
      refine ⟨_, .lockedPositional s (by rw [hf]; rfl) hp hlock ht.1, hf, ?_, hr⟩
      simp [Slot.filled, Slot.isFull, Slot.next, hrem hlock]
    | false =>
      have hu : r.Unlocked := by simp [Unlocked, hf, hp, hlock]
      exact ⟨_, .positionalValue s hu hread hf hp, hf, rfl, hr⟩
  · refine ⟨_, .newPositional s.id ids _ hread hf hp hr (useGroup_of_no_groups hg _ _) hsub, hf,
      ?_, rfl⟩
    rw [enterPositional_openPositional, ← hnew]
    rfl

theorem run_serves {x : String} (abbreviated : Bool) (hs : Serves g r s ids) (hg : g.groups = [])
    (hsub : (g.argument s.id).subcommands? = none) (hrem : s.remainder = true → s.max = none)
    (hroom : ∀ m, s.max = some m → s.count + xs.length < m) (ht : ∀ y ∈ x :: xs, IsPlain g y) :
    ∃ r', r.run g abbreviated (x :: xs) = .ok ((x :: xs).map (·, .value s.id), r') ∧
      Stands r' (s.filled (x :: xs).length) ids := by
  induction xs generalizing r s x with
  | nil =>
    obtain ⟨r', hm, hr'⟩ := step_serves abbreviated hs hg hsub hrem (ht x List.mem_cons_self)
    exact ⟨r', run_cons_eq_ok.mpr ⟨_, _, _, hm, rfl, rfl⟩, hr'⟩
  | cons y ys ih =>
    rw [List.forall_mem_cons] at ht
    obtain ⟨r₁, hm, hr₁⟩ := step_serves abbreviated hs hg hsub hrem ht.1
    have hlen : (y :: ys).length = ys.length + 1 := rfl
    have hopen : s.filled 1 = some s.next := Slot.filled_one fun m hmax => by
      have := hroom m hmax
      omega
    have hnext : Serves g r₁ s.next ids :=
      ⟨hr₁.openFlag, .inl ⟨hr₁.openPositional.trans hopen, hr₁.remaining⟩⟩
    have hleft : ∀ m, s.next.max = some m → s.next.count + ys.length < m := fun m hmax => by
      have := hroom m hmax
      change s.count + 1 + ys.length < m
      omega
    obtain ⟨r', hrun, hr'⟩ := ih hnext hsub hrem hleft ht.2
    refine ⟨r', run_cons_eq_ok.mpr ⟨_, _, _, hm, hrun, rfl⟩, ?_⟩
    rwa [Slot.next_filled] at hr'

end Replay

namespace Grammar

/-- No positional selects a subcommand, no flag must be given, no argument lists its values and
no arguments exclude each other. -/
structure Plain (g : Grammar) : Prop where
  unselected : ∀ a ∈ g.arguments, a.subcommands? = none
  optional : ∀ a ∈ g.arguments, a.isFlag = true → a.isRequired = false
  unlisted : ∀ a ∈ g.arguments, a.choices.listedValues? = none
  ungrouped : g.groups = []

theorem Plain.subcommands? (hp : g.Plain) (i : Nat) : (g.argument i).subcommands? = none :=
  forall_argument (P := fun a => a.subcommands? = none) rfl hp.unselected i

theorem Plain.listedValues? (hp : g.Plain) (i : Nat) :
    (g.argument i).choices.listedValues? = none :=
  forall_argument (P := fun a => a.choices.listedValues? = none) rfl hp.unlisted i

theorem Plain.mandatory (hp : g.Plain) (hi : (g.argument i).isFlag = true) :
    (g.argument i).mandatory = false := by
  have hreq := forall_argument (P := fun a => a.isFlag = true → a.isRequired = false)
    (fun h => by cases h) hp.optional i hi
  obtain ⟨aliases, hk⟩ := Argument.isFlag_iff.mp hi
  simpa [Argument.isRequired, hk] using hreq

theorem Plain.missing?_eq (hp : g.Plain) (r : Replay) :
    g.missing? r = ((r.openPositional.filter Slot.isUnfinished).map Slot.id).or
      (r.remaining.find? fun i => (g.argument i).isRequired) := by
  have hflag : (g.ids.find? fun i =>
      (g.argument i).isFlag && (g.argument i).mandatory && r.occurrencesOf i == 0) = none := by
    rw [List.find?_eq_none]
    intro i _ hi
    obtain ⟨⟨hflag, hmandatory⟩, -⟩ : ((g.argument i).isFlag = true ∧
      (g.argument i).mandatory = true) ∧ r.occurrencesOf i = 0 := by simpa using hi
    cases hmandatory.symm.trans (hp.mandatory hflag)
  rw [missing?, hflag, Option.none_or]

/-- A run over the shares hands them out. What it leaves open or waiting is missing where a share
is too small, and nothing is left open or waiting once tokens are left over. -/
structure HandsOut (g : Grammar) (abbreviated : Bool) (r : Replay) (ids : List Nat)
    (tokens : List String) (r' : Replay) : Prop where
  run : r.run g abbreviated ((g.shares ids tokens).flatMap (·.2)) =
    .ok (.handed (g.shares ids tokens), r')
  openFlag : r'.openFlag = none
  idle : g.leftOver ids tokens ≠ [] → r'.Stands none []
  missing : g.missing? r' = ((g.shares ids tokens).find? g.isShort).map (·.1)

theorem Plain.handsOut_nil (hp : g.Plain) (abbreviated : Bool)
    (hids : ∀ i ∈ ids, (g.argument i).kind = .positional) (hr : r.Stands none ids) :
    g.HandsOut abbreviated r ids [] r where
  run := by
    rw [flatMap_shares_nil, handed_shares_nil]
    rfl
  openFlag := hr.openFlag
  idle hne := absurd (leftOver_nil g ids) hne
  missing := by
    rw [hp.missing?_eq, hr.openPositional, hr.remaining, find?_isShort_nil hids]
    rfl

/-- The first positional takes its share, unless that is empty. -/
theorem Plain.run_share (hp : g.Plain) (abbreviated : Bool) (hr : r.Stands none (i :: ids))
    (ht : ∀ token ∈ tokens, Replay.IsPlain g token) (hne : (g.argument i).share tokens ≠ []) :
    ∃ r₁, r.run g abbreviated ((g.argument i).share tokens) =
        .ok (((g.argument i).share tokens).map (·, .value i), r₁) ∧
      r₁.Stands ((Slot.new g i).filled ((g.argument i).share tokens).length) ids := by
  have hslot : Replay.Serves g r (.new g i) ids :=
    ⟨hr.openFlag, .inr ⟨hr.openPositional, hr.remaining, rfl⟩⟩
  have hsub := hp.subcommands? i
  have hvalues : ∀ y ∈ (g.argument i).share tokens, Replay.IsPlain g y := fun y hy =>
    ht y (((g.argument i).share_prefixes tokens).subset hy)
  have hmost (m : Nat) (hm : (Slot.new g i).max = some m) :
      ((g.argument i).share tokens).length ≤ m := Argument.length_share_le hm tokens
  cases hshare : (g.argument i).share tokens with
  | nil => exact absurd hshare hne
  | cons x xs =>
    rw [hshare] at hvalues hmost
    refine Replay.run_serves abbreviated hslot hp.ungrouped hsub
      (fun hrem => Argument.maxArgs_of_isRemainder hrem hsub) (fun m hm => ?_) hvalues
    have hlength := hmost m hm
    rw [List.length_cons] at hlength
    change 0 + xs.length < m
    omega

theorem HandsOut.cons_full {m : Nat} {r₁ r' : Replay} (hc : (g.argument i).Checked)
    (hm : (g.argument i).maxArgs = some m) (hle : m ≤ ((g.argument i).share tokens).length)
    (hrun : r.run g abbreviated ((g.argument i).share tokens) =
      .ok (((g.argument i).share tokens).map (·, .value i), r₁))
    (h : g.HandsOut abbreviated r₁ ids (tokens.drop ((g.argument i).share tokens).length) r') :
    g.HandsOut abbreviated r (i :: ids) tokens r' where
  run := by
    rw [shares, List.flatMap_cons, Trace.handed_cons]
    exact Replay.run_append_eq_ok.mpr ⟨_, _, _, hrun, h.run, rfl⟩
  openFlag := h.openFlag
  idle := h.idle
  missing := by
    have henough : g.isShort (i, (g.argument i).share tokens) = false := by
      have hmin := hc.min_le_max hm
      simp only [isShort, decide_eq_false_iff_not]
      omega
    rw [h.missing, shares, List.find?_cons, henough]

theorem Plain.handsOut_open {r₁ : Replay} (hp : g.Plain)
    (hids : ∀ j ∈ ids, (g.argument j).kind = .positional)
    (hmore : ∀ m, (g.argument i).maxArgs = some m → ((g.argument i).share tokens).length < m)
    (hrun : r.run g abbreviated ((g.argument i).share tokens) =
      .ok (((g.argument i).share tokens).map (·, .value i), r₁))
    (hr₁ : r₁.Stands (some { Slot.new g i with
      count := ((g.argument i).share tokens).length }) ids) :
    g.HandsOut abbreviated r (i :: ids) tokens r₁ := by
  have hdrop := (g.argument i).drop_share tokens hmore
  have hshares : g.shares (i :: ids) tokens =
      (i, (g.argument i).share tokens) :: g.shares ids [] := by rw [shares, hdrop]
  refine ⟨?_, hr₁.openFlag, fun hne => ?_, ?_⟩
  · rw [hshares, List.flatMap_cons, flatMap_shares_nil, List.append_nil, Trace.handed_cons,
      handed_shares_nil, List.append_nil]
    exact hrun
  · rw [leftOver, hdrop, leftOver_nil] at hne
    exact absurd rfl hne
  · have hshort : Slot.isUnfinished { Slot.new g i with
        count := ((g.argument i).share tokens).length } =
          g.isShort (i, (g.argument i).share tokens) := rfl
    rw [hp.missing?_eq, hr₁.openPositional, hr₁.remaining, hshares, List.find?_cons,
      Option.filter_some, hshort]
    cases g.isShort (i, (g.argument i).share tokens) with
    | true => rfl
    | false => exact (find?_isShort_nil hids).symm

theorem Plain.run_shares (hp : g.Plain) (abbreviated : Bool) (hv : g.Valid)
    (hids : ∀ i ∈ ids, (g.argument i).kind = .positional) (hr : r.Stands none ids)
    (ht : ∀ token ∈ tokens, Replay.IsPlain g token) :
    ∃ r', g.HandsOut abbreviated r ids tokens r' := by
  induction ids generalizing r tokens with
  | nil =>
    refine ⟨r, rfl, hr.openFlag, fun _ => hr, ?_⟩
    rw [hp.missing?_eq, hr.openPositional, hr.remaining]
    rfl
  | cons i ids ih =>
    have hc := hv.argument i
    have hrest := (List.forall_mem_cons.mp hids).2
    by_cases hne : (g.argument i).share tokens = []
    · obtain rfl := Argument.eq_nil_of_share (hc.maxArgs_ne_zero (hids i List.mem_cons_self)) hne
      exact ⟨r, hp.handsOut_nil abbreviated hids hr⟩
    · obtain ⟨r₁, hrun, hr₁⟩ := hp.run_share abbreviated hr ht hne
      cases hfill : (Slot.new g i).filled ((g.argument i).share tokens).length with
      | none =>
        obtain ⟨m, hm, hle⟩ := Slot.filled_eq_none.mp hfill
        obtain ⟨r', h⟩ := ih hrest (hfill ▸ hr₁) fun y hy => ht y (List.mem_of_mem_drop hy)
        exact ⟨r', .cons_full hc hm (by simpa [Slot.new] using hle) hrun h⟩
      | some s =>
        obtain ⟨rfl, hmore⟩ := Slot.filled_eq_some hfill
        rw [hfill] at hr₁
        simp only [Slot.new, Nat.zero_add] at hr₁ hmore
        exact ⟨r₁, hp.handsOut_open hrest hmore hrun hr₁⟩

/-- What a parse makes of the shares of the positionals and of the tokens that are left over. -/
structure ParsesGreedily (g : Grammar) (abbreviated : Bool) (tokens : List String)
    (result : Except ParseError Args) : Prop where
  /-- Each positional takes its share in turn. -/
  assigned : ∃ r, (Replay.start g).run g abbreviated
    ((g.shares g.positionals tokens).flatMap (·.2)) =
      .ok (.handed (g.shares g.positionals tokens), r)
  succeeds : (∃ args, result = .ok args) ↔ g.leftOver g.positionals tokens = [] ∧
    ∀ e ∈ g.shares g.positionals tokens, (g.argument e.1).minArgs ≤ e.2.length
  /-- The parsed arguments are the shares and nothing else. -/
  given : ∀ args, result = .ok args → args.positionals = tokens ∧
    (∀ e ∈ g.shares g.positionals tokens, args.getAll (g.argument e.1).dest = e.2) ∧
    (∀ i, (g.argument i).isFlag = true → args.count (g.argument i).dest = 0 ∧
      args.getAll (g.argument i).dest = []) ∧
    args.subcommand = none ∧ args.help = false
  unexpected : ∀ token rest, g.leftOver g.positionals tokens = token :: rest →
    result = .error (.unexpectedArgument token)
  missing : ∀ e, g.leftOver g.positionals tokens = [] →
    (g.shares g.positionals tokens).find? g.isShort = some e →
    result = .error (.missingRequired (g.argument e.1).displayName)

theorem Plain.kind_of_mem_positionals (hp : g.Plain) (hi : i ∈ g.positionals) :
    (g.argument i).kind = .positional :=
  Argument.kind_eq_positional (mem_positionals.mp hi).2 (hp.subcommands? i)

/-- Nothing but a missing argument is wrong at the end of a line without flags. -/
theorem Plain.validate_eq (hp : g.Plain) (hf : r.openFlag = none) :
    g.validate r = match g.missing? r with
      | some i => .error (.missingRequired (g.argument i).displayName)
      | none => .ok () := by
  have hunlisted : g.unlisted? r = none := unlisted?_eq_none.mpr fun i _ _ listed hl => by
    rw [hp.listedValues? i] at hl
    cases hl
  unfold validate
  rw [Replay.unfinishedFlag?, hf, hunlisted]
  cases g.missing? r <;> rfl

section Handed

variable {shares : List (Nat × List String)}
  (h : (Replay.start g).run g abbreviated tokens = .ok (.handed shares, r))

include h

theorem flags_of_handed (hi : (g.argument i).isFlag = true) :
    r.occurrencesOf i = 0 ∧ r.values.findD i [] = [] := by
  obtain ⟨-, hr⟩ := Replay.run_recorded h
  obtain ⟨aliases, hk⟩ := Argument.isFlag_iff.mp hi
  refine ⟨?_, ?_⟩
  · rw [(hr i).occurrences, Trace.occurrences, hk]
    exact Trace.flagCount_handed i
  · rw [InsertionMap.findD, (hr i).kept, Trace.kept?, hk]
    simp [Trace.flagCount_handed]

theorem helpGiven_of_handed (hv : g.Valid) (hp : g.Plain) : g.helpGiven r = false := by
  rw [helpGiven, List.any_eq_false]
  intro i _ hi
  obtain ⟨hhelp, hgiven⟩ : (g.argument i).action = .help ∧ 0 < r.occurrencesOf i := by
    simpa using hi
  cases hflag : (g.argument i).isFlag with
  | true => rw [(flags_of_handed h hflag).1] at hgiven; omega
  | false =>
    have hkind := Argument.kind_eq_positional hflag (hp.subcommands? i)
    have htakes := (hv.argument i).takesValues hkind
    simp [hhelp, Action.takesValues] at htakes

theorem positionals_of_handed (hi : ∀ i ∈ shares.map (·.1), (g.argument i).isFlag = false) :
    (Trace.handed shares).positionals g = tokens := by
  have hall : (Trace.handed shares).filter (·.2.isPositional g) = Trace.handed shares := by
    rw [List.filter_eq_self]
    intro e he
    obtain ⟨i, hmem, hstep⟩ := Trace.eq_value_of_mem_handed he
    simp [hstep, Step.isPositional, hi i hmem]
  rw [Trace.positionals, hall, Replay.tokens_of_run h]

theorem getAll_of_handed (hp : g.Plain) (hd : (g.arguments.map (·.dest)).Nodup)
    (hfirst : shares.map (·.1) = g.positionals) (e : Nat × List String) (he : e ∈ shares)
    (positionals : List String) (subcommand : Option (String × Args)) :
    (g.collect r positionals subcommand).getAll (g.argument e.1).dest = e.2 := by
  have hmem : e.1 ∈ g.positionals := hfirst ▸ List.mem_map_of_mem he
  have hkept := ((Replay.run_recorded h).2 e.1).kept_positional (hp.kind_of_mem_positionals hmem)
  have hnodup : (shares.map (·.1)).Nodup :=
    hfirst ▸ (pairwise_lt_positionals g).imp Nat.ne_of_lt
  rw [getAll_collect hd h (mem_ids.mpr (mem_positionals.mp hmem).1), hkept.1]
  exact Trace.valuesOf_handed hnodup he

end Handed

/-- A line without flags fails at the first token that is left over, then at the first share that
is too small. -/
theorem Plain.parse_eq (hp : g.Plain) (abbreviated : Bool) (hv : g.Valid)
    (ht : ∀ token ∈ tokens, Replay.IsPlain g token) :
    ∃ r, (Replay.start g).run g abbreviated ((g.shares g.positionals tokens).flatMap (·.2)) =
        .ok (.handed (g.shares g.positionals tokens), r) ∧
      g.parse abbreviated tokens =
        match g.leftOver g.positionals tokens, (g.shares g.positionals tokens).find? g.isShort with
        | token :: _, _ => .error (.unexpectedArgument token)
        | [], some e => .error (.missingRequired (g.argument e.1).displayName)
        | [], none => .ok (g.collect r tokens none) := by
  obtain ⟨r, hrun, hflag, hleft, hmissing⟩ := hp.run_shares (r := .start g) abbreviated hv
    (fun i hi => hp.kind_of_mem_positionals hi) ⟨rfl, rfl, rfl⟩ ht
  have hpositionals := positionals_of_handed hrun fun i hi =>
    (mem_positionals.mp (map_fst_shares g g.positionals tokens ▸ hi)).2
  have hparse := parseFrom_append [] (g.leftOver g.positionals tokens) hrun fun e he =>
    Trace.continues_of_mem_handed he
  have htokens := flatMap_shares_append_leftOver g g.positionals tokens
  rw [htokens, hpositionals, List.nil_append] at hparse
  refine ⟨r, hrun, hparse.trans ?_⟩
  cases hover : g.leftOver g.positionals tokens with
  | cons token rest =>
    -- nothing is open or waiting, so the first token that is left over is one too many
    obtain ⟨-, hopen, hnone⟩ := hleft (by simp [hover])
    have hmem : token ∈ tokens := by
      rw [← htokens, hover]
      simp
    rw [parseFrom, (Replay.Move.extra (.inr (ht token hmem)) hflag hopen hnone).step_eq]
  | nil =>
    rw [hover, List.append_nil] at htokens
    rw [htokens, parseFrom, finish, helpGiven_of_handed hrun hv hp, hp.validate_eq hflag, hmissing]
    cases (g.shares g.positionals tokens).find? g.isShort <;> rfl

/-- Tokens that can be neither flags nor subcommands fill positionals greedily. -/
theorem greedy_of_plain (hb : g.Built) (hd : (g.arguments.map (·.dest)).Nodup) (hp : g.Plain)
    (ht : ∀ token ∈ tokens, Replay.IsPlain g token) :
    g.ParsesGreedily abbreviated tokens (g.parse abbreviated tokens) := by
  have hv := hb.everywhere_valid.here
  obtain ⟨r, hrun, hparse⟩ := hp.parse_eq abbreviated hv ht
  rw [hparse]
  constructor
  case assigned => exact ⟨r, hrun⟩
  case succeeds =>
    have henough : (g.shares g.positionals tokens).find? g.isShort = none ↔
        ∀ e ∈ g.shares g.positionals tokens, (g.argument e.1).minArgs ≤ e.2.length := by
      simp [isShort]
    rw [← henough]
    cases g.leftOver g.positionals tokens with
    | cons token rest => simp
    | nil => cases (g.shares g.positionals tokens).find? g.isShort <;> simp
  case given =>
    intro args hargs
    split at hargs
    · cases hargs
    · cases hargs
    · next hover hshort =>
      cases hargs
      have htokens := flatMap_shares_append_leftOver g g.positionals tokens
      rw [hover, List.append_nil] at htokens
      rw [htokens] at hrun
      have hfirst := map_fst_shares g g.positionals tokens
      refine ⟨rfl, fun e he => getAll_of_handed hrun hp hd hfirst e he _ _, fun i hi => ?_, rfl,
        helpGiven_of_handed hrun hv hp⟩
      have hi' := mem_ids_of_isFlag hi
      rw [count_collect hd hi', getAll_collect hd hrun hi']
      exact flags_of_handed hrun hi
  case unexpected =>
    intro token rest hover
    rw [hover]
  case missing =>
    intro e hover hshort
    rw [hover, hshort]

/-- The copier takes three sources, one mode and the rest as targets. -/
theorem greedy_of_plain_copier : Sample.copier.grammar.Built ∧
    (Sample.copier.grammar.arguments.map (·.dest)).Nodup ∧ Sample.copier.grammar.Plain ∧
    (∀ token ∈ ["a", "b", "c", "-1", "d", "e"], Replay.IsPlain Sample.copier.grammar token) ∧
    Sample.copier.grammar.ParsesGreedily true ["a", "b", "c", "-1", "d", "e"]
      (Sample.copier.grammar.parse true ["a", "b", "c", "-1", "d", "e"]) := by
  have hd : (Sample.copier.grammar.arguments.map (·.dest)).Nodup := by decide
  have hp : Sample.copier.grammar.Plain := ⟨by decide, by decide, by decide, rfl⟩
  have ht : ∀ token ∈ ["a", "b", "c", "-1", "d", "e"],
      Replay.IsPlain Sample.copier.grammar token := by decide
  exact ⟨Sample.copier_built, hd, hp, ht, greedy_of_plain Sample.copier_built hd hp ht⟩

example : (Sample.copier.grammar.shares Sample.copier.grammar.positionals
    ["a", "b", "c", "-1", "d", "e"]).map (·.2) = [["a", "b", "c"], ["-1"], ["d", "e"]] := rfl

example : (Sample.copier.grammar.parse true ["a", "b", "c", "d"]).map (·.positionals) =
    .error (.missingRequired "targets") := rfl

end Grammar

end Tabwise
