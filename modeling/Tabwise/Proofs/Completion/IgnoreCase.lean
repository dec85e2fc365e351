import Tabwise.Proofs.Completion.Candidates
import Tabwise.Proofs.Grammar.Sample
import Tabwise.Proofs.Text.Lower

/-! # Without regard to case

Completion without regard to case offers all that it offers otherwise, and maybe more. There is one
place where more is something else: a prefix character alone gets names of flags if no value starts
with it, and values are offered in place of them if some start with it in another case. And a value
may be lost where it goes on with a word that the text ends in a capital sigma.
-/

namespace Tabwise

open Completion

variable {g : Grammar} {o o' : Options} {q : Request} {parents : Given} {r : Replay}
  {context : Context} {s : Slot} {c c' : Completions} {t : Trace} {text value : String}
  {tokens : List String} {v : Candidate}

def Options.ignoringCase (o : Options) : Options := { o with ignoreCase := true }

theorem Options.accepts_ignoringCase (ho : o.ignoreCase = false)
    (h : o.accepts value text = true) (hs : splitsSigma text value = false) :
    o.ignoringCase.accepts value text = true := by
  rw [accepts, ho, if_neg Bool.false_ne_true] at h
  rw [accepts, ignoringCase, if_pos rfl]
  exact startsWith_lowerString h hs

namespace Completion

theorem values_of_values (h : values g o r context s = .ok c) (o' : Options) :
    ∃ c', values g o' r context s = .ok c' ∧
      ∀ v ∈ c.candidates, o'.accepts v.value context.text = true → v ∈ c'.candidates := by
  obtain ⟨all, hall, -⟩ := values_perm h
  obtain ⟨c', h'⟩ := values_of_source (o := o') (r := r) hall
  obtain ⟨all, hperm, hperm'⟩ := values_perm_same_source rfl h h'
  refine ⟨c', h', fun v hv haccepts => ?_⟩
  obtain ⟨hmem, hkept⟩ := List.mem_filter.mp (hperm.mem_iff.mp hv)
  apply hperm'.mem_iff.mpr
  apply List.mem_filter.mpr
  exact ⟨hmem, by rw [haccepts, (Bool.and_eq_true_iff.mp hkept).2]; rfl⟩

theorem flagNames_of_flagNames (hg : Replay.Grouped g r) (ha : Replay.Accounted g t r)
    (h : flagNames g o r text = .candidates c) (hv : v ∈ c.candidates)
    (haccepts : o'.accepts v.value text = true) :
    ∃ c', flagNames g o' r text = .candidates c' ∧ v ∈ c'.candidates := by
  rw [flagNames_eq hg ha, flagsAnswer] at h
  split at h
  · cases h
  · cases h
    obtain ⟨f, hf, rfl⟩ := List.mem_map.mp hv
    obtain ⟨hdeclared, hmay⟩ := List.mem_filter.mp hf
    have hmay' : mayFollow g o' r text f = true := by
      simp only [mayFollow, Bool.and_eq_true] at hmay ⊢
      exact ⟨⟨⟨haccepts, hmay.1.1.2⟩, hmay.1.2⟩, hmay.2⟩
    have hf' : f ∈ following g o' r text := List.mem_filter.mpr ⟨hdeclared, hmay'⟩
    have hsome : (following g o' r text).isEmpty = false := by
      rw [List.isEmpty_eq_false_iff]
      exact List.ne_nil_of_mem hf'
    rw [flagNames_eq hg ha, flagsAnswer, if_neg (by simp [hsome])]
    exact ⟨_, rfl, List.mem_map_of_mem hf'⟩

/-- The text is a prefix character that no value of the argument starts with, so flags are named;
but with other options it starts some values, and these are the candidates. -/
structure Displaces (g : Grammar) (o o' : Options) (r : Replay) (context : Context)
    (c c' : Completions) : Prop where
  isPrefix : g.isSinglePrefix context.text = true
  flags : flagNames g o r context.text = .candidates c
  values : ∃ s c₀, slot? g r context.text = some s ∧
    Completion.values g o r context s = .ok c₀ ∧ c₀.candidates = [] ∧
    Completion.values g o' r context s = .ok c' ∧ c'.candidates ≠ []

/-- If the first answer offers the candidate, then the second one does so too, or it displaces what
the first one offers. -/
def Keeps (v : Candidate) (displaces : Completions → Completions → Prop)
    (out out' : Except String Outcome) : Prop :=
  ∀ c, out = .ok (.candidates c) → v ∈ c.candidates →
    ∃ c', out' = .ok (.candidates c') ∧ (v ∈ c'.candidates ∨ displaces c c')

theorem Keeps.imp {displaces displaces' : Completions → Completions → Prop}
    {out out' : Except String Outcome} (h : Keeps v displaces out out')
    (hd : ∀ c c', displaces c c' → displaces' c c') : Keeps v displaces' out out' := by
  intro c hc hv
  obtain ⟨c', hc', hkept⟩ := h c hc hv
  exact ⟨c', hc', hkept.imp_right (hd c c')⟩

/-- A candidate that other options accept is still offered with them, unless values displace it. -/
theorem completeLast_keeps (hg : Replay.Grouped g r) (ha : Replay.Accounted g t r)
    (haccepts : o'.accepts v.value context.text = true) :
    Keeps v (Displaces g o o' r context) (completeLast g o r context)
      (completeLast g o' r context) := by
  intro c h hv
  rcases completeLast_eq_candidates.mp h with ⟨s, hs, hvalues, -⟩ | ⟨hnames, hflags⟩
  · obtain ⟨c', hvalues', hmore⟩ := values_of_values hvalues o'
    have hv' := hmore v hv haccepts
    have hsome : c'.candidates ≠ [] := List.ne_nil_of_mem hv'
    exact ⟨c', completeLast_eq_candidates.mpr (.inl ⟨s, hs, hvalues', hsome⟩), .inl hv'⟩
  · obtain ⟨c', hflags', hv'⟩ := flagNames_of_flagNames hg ha hflags hv haccepts
    -- Flag names are still completed if no value of the argument turns up.
    have still (hbegins : g.looksLikeFlag context.text = true ∨
        g.isSinglePrefix context.text = true ∧ ∀ s, slot? g r context.text = some s →
          ∃ c, values g o' r context s = .ok c ∧ c.candidates = []) :
        completeLast g o' r context = .ok (.candidates c') := by
      have hnames' : NamesFlags g o' r context := ⟨hnames.flagsOn, hnames.finished, hbegins⟩
      exact completeLast_eq_candidates.mpr (.inr ⟨hnames', hflags'⟩)
    rcases hnames.begins with hlooks | ⟨hlone, hnone⟩
    · exact ⟨c', still (.inl hlooks), .inl hv'⟩
    · cases hs : slot? g r context.text with
      | none => exact ⟨c', still (.inr ⟨hlone, by simp [hs]⟩), .inl hv'⟩
      | some s =>
        obtain ⟨c₀, hvalues, hempty⟩ := hnone s hs
        obtain ⟨c₁, hvalues', -⟩ := values_of_values hvalues o'
        by_cases hsome : c₁.candidates = []
        · refine ⟨c', still (.inr ⟨hlone, fun s' hs' => ?_⟩), .inl hv'⟩
          obtain rfl : s = s' := Option.some.inj (hs.symm.trans hs')
          exact ⟨c₁, hvalues', hsome⟩
        · refine ⟨c₁, completeLast_eq_candidates.mpr (.inl ⟨s, hs, hvalues', hsome⟩), .inr ?_⟩
          exact ⟨hlone, hflags, s, c₀, hs, hvalues, hempty, hvalues', hsome⟩

/-- Values displace names of flags at the level that the tokens lead to. -/
def DisplacesAt (g : Grammar) (o o' : Options) (parents : Given) (q : Request)
    (preceding : List String) (c c' : Completions) : Prop :=
  ∃ l, Reaches o.abbreviated g parents preceding l ∧
    Displaces l.grammar o o' l.replay (q.context l.given) c c'

theorem completeTokens_keeps (ho : o'.abbreviated = o.abbreviated)
    (haccepts : o'.accepts v.value q.text = true) :
    Keeps v (DisplacesAt g o o' parents q tokens.dropLast) (completeTokens g o parents q tokens)
      (completeTokens g o' parents q tokens) := by
  apply completeTokens_related ho rfl
  · rintro out (rfl | ⟨m, rfl⟩) c hc
    · cases hc
    · cases hc
  · intro l hl
    obtain ⟨own, t, -, hrun, -⟩ := hl.run
    refine Keeps.imp (completeLast_keeps (Replay.run_grouped hrun) (Replay.run_accounted hrun)
      haccepts) ?_
    intro c c' hdisplaces
    exact ⟨l, hl, hdisplaces⟩

/-- Without regard to case there are candidates wherever there are any otherwise, and all of these
are among them. This leaves out candidates that go on with a word that ends in a capital sigma, and
flag names for a prefix character alone if values displace them. -/
theorem ignoringCase_of_complete {line : String} {start cursor : Nat} (ho : o.ignoreCase = false)
    (h : complete g o line start cursor = .ok (.candidates c)) :
    ∃ scan, Line.scan line.toList cursor = .ok scan ∧
      ((∃ v ∈ c.candidates, splitsSigma scan.text v.value = false) →
        ∃ c', complete g o.ignoringCase line start cursor = .ok (.candidates c') ∧
          ((∀ v ∈ c.candidates, splitsSigma scan.text v.value = false → v ∈ c'.candidates) ∨
            DisplacesAt g o o.ignoringCase .empty ⟨scan.text, line, start, scan.stop⟩
              scan.tokens.tail.dropLast c c')) := by
  obtain ⟨scan, hscan, -, haccepts⟩ := accepts_of_complete h
  refine ⟨scan, hscan, ?_⟩
  rintro ⟨v₀, hv₀, hs₀⟩
  unfold complete at h ⊢
  rw [hscan] at h ⊢
  dsimp only at h ⊢
  split at h
  · cases h
  · next hword =>
    rw [if_neg hword]
    have hkeeps : ∀ v ∈ c.candidates, splitsSigma scan.text v.value = false →
        Keeps v (DisplacesAt g o o.ignoringCase .empty ⟨scan.text, line, start, scan.stop⟩
            scan.tokens.tail.dropLast)
          (completeTokens g o .empty ⟨scan.text, line, start, scan.stop⟩ scan.tokens.tail)
          (completeTokens g o.ignoringCase .empty ⟨scan.text, line, start, scan.stop⟩
            scan.tokens.tail) := by
      intro v hv hs
      exact completeTokens_keeps rfl (Options.accepts_ignoringCase ho (haccepts v hv) hs)
    obtain ⟨c', hc', -⟩ := hkeeps v₀ hv₀ hs₀ c h hv₀
    refine ⟨c', hc', or_iff_not_imp_right.mpr fun hdisplaces v hv hs => ?_⟩
    obtain ⟨c'', hc'', hoffered⟩ := hkeeps v hv hs c h hv
    cases hc'.symm.trans hc''
    exact hoffered.resolve_right hdisplaces

/-- The streets that begin with a word are offered without regard to case, though not the one that
goes on with the sigma at its end. -/
theorem ignoringCase_of_complete_atlas :
    complete Sample.atlas.grammar {} "atlas ΟΔΟΣ" 6 14 = .ok (.candidates {
      candidates := [.plain "ΟΔΟΣ", .plain "ΟΔΟΣΗ"]
      metavar := some "STREET" }) ∧
    splitsSigma "ΟΔΟΣ" "ΟΔΟΣ" = false ∧ splitsSigma "ΟΔΟΣ" "ΟΔΟΣΗ" = true ∧
    ∃ c', complete Sample.atlas.grammar (Options.ignoringCase {}) "atlas ΟΔΟΣ" 6 14 =
        .ok (.candidates c') ∧
      .plain "ΟΔΟΣ" ∈ c'.candidates := by
  have hoff : complete Sample.atlas.grammar {} "atlas ΟΔΟΣ" 6 14 = .ok (.candidates {
      candidates := [.plain "ΟΔΟΣ", .plain "ΟΔΟΣΗ"]
      metavar := some "STREET" }) := rfl
  have hword : splitsSigma "ΟΔΟΣ" "ΟΔΟΣ" = false := by decide
  obtain ⟨scan, hscan, hkeeps⟩ := ignoringCase_of_complete rfl hoff
  have htext : scan.text = "ΟΔΟΣ" := by
    cases hscan
    rfl
  rw [htext] at hkeeps
  obtain ⟨c', hon, hkept | ⟨l, -, hdisplaces⟩⟩ := hkeeps ⟨.plain "ΟΔΟΣ", by simp, hword⟩
  · exact ⟨hoff, hword, by decide, c', hon, hkept (.plain "ΟΔΟΣ") (by simp) hword⟩
  · have hlone : l.grammar.isSinglePrefix "ΟΔΟΣ" = true := hdisplaces.isPrefix
    have hletters : "ΟΔΟΣ".toList = ['Ο', 'Δ', 'Ο', 'Σ'] := rfl
    rw [Grammar.isSinglePrefix, hletters] at hlone
    cases hlone

/-- A prefix character alone names a flag, but without regard to case it begins a street; and a
street that goes on with a word is lost if the word ends in a sigma. -/
theorem ignoringCase_of_complete_lost :
    Sample.atlas.grammar.Built ∧
    complete Sample.atlas.grammar {} "atlas x" 6 7 = .ok (.candidates {
      candidates := [.plain "xy"]
      display := ["[xy]"] }) ∧
    complete Sample.atlas.grammar (Options.ignoringCase {}) "atlas x" 6 7 = .ok (.candidates {
      candidates := [.plain "Xenias"]
      metavar := some "STREET" }) ∧
    complete Sample.atlas.grammar {} "atlas ΟΔΟΣ" 6 14 = .ok (.candidates {
      candidates := [.plain "ΟΔΟΣ", .plain "ΟΔΟΣΗ"]
      metavar := some "STREET" }) ∧
    complete Sample.atlas.grammar (Options.ignoringCase {}) "atlas ΟΔΟΣ" 6 14 = .ok (.candidates {
      candidates := [.plain "ΟΔΟΣ"]
      metavar := some "STREET" }) :=
  ⟨Sample.atlas_built, rfl, rfl, rfl, rfl⟩

end Completion

end Tabwise
