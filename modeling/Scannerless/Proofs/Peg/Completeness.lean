import Scannerless.Proofs.Peg.Soundness
import Scannerless.Proofs.Settling

/-!
# What is derived is run

Where the parsing expression of a parser derives anything, the run comes to an end with enough
levels, unless it raises a fault. That it then says what is derived follows from soundness, because
a parsing expression derives one thing at most. The author's functions are assumed to end; nothing
is assumed of what they answer.
-/
namespace Scannerless

namespace Parser

open Peg Outcome

variable {definitions : Definitions} {source : Source}

/-- A parser that an expression can tell, with functions that end. -/
def IsTerminating (p : Parser) : Prop := p.IsExpression ∧ p.CallbacksEnd

/-- At every cursor at `o` the runs of `q` settle on `out`, if the functions that it reaches end. -/
def Answers (definitions : Definitions) (source : Source) (q : Parser) (o : Int)
    (out : Option Int) :
    Prop :=
  q.Throughout definitions IsTerminating → ∀ c : Cursor, c.source = source → c.failed = false →
    c.offset = o → Settles (fun levels => q.runFor definitions levels c) fun r =>
      r.verdict = out ∧ (r.failed = false → r.source = source)

variable {body stop : Parser} {c current : Cursor} {o last : Int} {out : Option Int}

/-- Goes on behind a run that answers: with the failure, or with the success on the same source. -/
theorem Answers.ends_bind {α : Type} {g : Nat → Cursor → Outcome α}
    (h : Answers definitions source body c.offset out)
    (hp : body.Throughout definitions IsTerminating) (hsource : c.source = source)
    (hc : c.failed = false)
    (hfail : out = none → ∀ f, f.failed = true → Ends fun levels => g levels f)
    (hmatch : ∀ m, out = some m → ∀ r, r.source = source → r.failed = false → r.offset = m →
      Ends fun levels => g levels r) :
    Ends fun levels => body.runFor definitions levels c >>= g levels := by
  apply Settles.bind (h hp c hsource hc rfl)
  intro r hr
  obtain ⟨hverdict, hstays⟩ := hr
  cases hr : r.failed with
  | true => exact hfail (hverdict.symm.trans (Cursor.verdict_of_failed hr)) r hr
  | false =>
    have hout := hverdict.symm.trans (Cursor.verdict_of_not_failed hr)
    exact hmatch r.offset hout r (hstays hr) hr rfl

/-- The case that the body matches. -/
theorem Answers.ends_bind_some {α : Type} {g : Nat → Cursor → Outcome α} {m : Int}
    (h : Answers definitions source body c.offset (some m))
    (hp : body.Throughout definitions IsTerminating) (hsource : c.source = source)
    (hc : c.failed = false)
    (hmatch : ∀ r, r.source = source → r.failed = false → r.offset = m →
      Ends fun levels => g levels r) :
    Ends fun levels => body.runFor definitions levels c >>= g levels := by
  apply h.ends_bind hp hsource hc (fun hnone => by cases hnone)
  intro m' hm
  obtain rfl := Option.some.inj hm
  exact hmatch

/-- The case that the body fails. -/
theorem Answers.ends_bind_none {α : Type} {g : Nat → Cursor → Outcome α}
    (h : Answers definitions source body c.offset none)
    (hp : body.Throughout definitions IsTerminating) (hsource : c.source = source)
    (hc : c.failed = false) (hfail : ∀ f, f.failed = true → Ends fun levels => g levels f) :
    Ends fun levels => body.runFor definitions levels c >>= g levels :=
  h.ends_bind hp hsource hc (fun _ => hfail) fun m hm => by cases hm

section Loops

variable (hp : body.Throughout definitions IsTerminating)

theorem runParts_ends {parts : List Parser}
    (hparts : ∀ part ∈ parts, part.Throughout definitions IsTerminating) (dropNothing : Bool)
    (entry : Cursor) (results : List Value) (hsource : current.source = source)
    (hc : current.failed = false)
    (h : Denotes (Answers definitions source) (Terminal.ends source)
      (.seqAll (parts.map .nonterminal)) current.offset out) :
    Ends fun levels =>
      Cursor.runParts (runFor definitions levels) dropNothing entry parts current results := by
  induction parts generalizing current results with
  | nil => exact .value _
  | cons part rest ih =>
    have hfirst := hparts part (List.mem_cons_self ..)
    have hothers : ∀ q ∈ rest, q.Throughout definitions IsTerminating :=
      fun q hmem => hparts q (List.mem_cons_of_mem _ hmem)
    simp only [Cursor.runParts_cons]
    obtain ⟨m, hpart, hrest⟩ | ⟨_, hpart⟩ := h
    · apply Answers.ends_bind_some hpart hfirst hsource hc
      intro next hnext hok hoffset
      subst hoffset
      simp only [Cursor.not_failed_iff.mp hok]
      split
      · exact ih hothers results hnext hok hrest
      · exact ih hothers (next.result :: results) hnext hok hrest
    · apply Answers.ends_bind_none hpart hfirst hsource hc
      intro f hf
      obtain ⟨e, he⟩ := Cursor.failed_iff.mp hf
      rw [he]
      exact .value _

theorem runAlternatives_ends {alternatives : List Parser}
    (halternatives : ∀ q ∈ alternatives, q.Throughout definitions IsTerminating)
    (hsource : c.source = source) (hc : c.failed = false)
    (h : Denotes (Answers definitions source) (Terminal.ends source)
      (.choiceAll (alternatives.map .nonterminal)) c.offset out) :
    Ends fun levels => c.runAlternatives (runFor definitions levels) alternatives := by
  induction alternatives with
  | nil => exact .value _
  | cons alternative rest ih =>
    have hhead := halternatives alternative (List.mem_cons_self ..)
    have ih := ih fun q hmem => halternatives q (List.mem_cons_of_mem _ hmem)
    simp only [Cursor.runAlternatives_cons]
    obtain ⟨m, _, hfirst⟩ | ⟨hfirst, hrest⟩ := h
    · apply Answers.ends_bind_some hfirst hhead hsource hc
      intro next _ hok _
      simp only [hok, Bool.false_eq_true, if_false]
      exact .value _
    · apply Answers.ends_bind_none hfirst hhead hsource hc
      intro f hf
      simp only [hf, if_true]
      exact ih hrest

include hp

theorem repeatExactly_ends {left : Nat} (count : Nat) (entry : Cursor) (results : List Value)
    (hsource : current.source = source) (hc : current.failed = false)
    (h : Denotes (Answers definitions source) (Terminal.ends source)
      (.copies left (.nonterminal body)) current.offset out) :
    Ends fun levels => Cursor.repeatExactly (runFor definitions levels body) count entry left
      current results := by
  induction left generalizing current results with
  | zero => exact .value _
  | succ left ih =>
    simp only [Cursor.repeatExactly_succ]
    obtain ⟨m, hbody, hrest⟩ | ⟨_, hbody⟩ := h
    · apply Answers.ends_bind_some hbody hp hsource hc
      intro next hnext hok hoffset
      subst hoffset
      simp only [hok, Bool.false_eq_true, if_false]
      exact ih (next.result :: results) hnext hok hrest
    · apply Answers.ends_bind_none hbody hp hsource hc
      intro f hf
      simp only [hf, if_true]
      exact .value _

theorem repeatUpTo_ends {left : Nat} (results : List Value) (hsource : current.source = source)
    (hc : current.failed = false)
    (h : Denotes (Answers definitions source) (Terminal.ends source)
      (.atMost left (.nonterminal body)) current.offset out) :
    Ends fun levels => Cursor.repeatUpTo (runFor definitions levels body) left current results := by
  induction left generalizing current results out with
  | zero => exact .value _
  | succ left ih =>
    -- The option matches by its first half or gives up; in both cases the body is attempted first.
    have hbody : Answers definitions source body current.offset none ∨
        ∃ m last, Answers definitions source body current.offset (some m) ∧
          Denotes (Answers definitions source) (Terminal.ends source)
            (.atMost left (.nonterminal body)) m last := by
      obtain ⟨_, _, ⟨m, hbody, hrest⟩ | ⟨_, hbody⟩⟩ | ⟨⟨m, hbody, hrest⟩ | ⟨_, hbody⟩, _⟩ := h
      · exact .inr ⟨m, _, hbody, hrest⟩
      · exact .inl hbody
      · exact .inr ⟨m, _, hbody, hrest⟩
      · exact .inl hbody
    simp only [Cursor.repeatUpTo_succ]
    rcases hbody with hbody | ⟨m, last, hbody, hrest⟩
    · apply Answers.ends_bind_none hbody hp hsource hc
      intro f hf
      simp only [hf, if_true]
      split <;> exact .value _
    · apply Answers.ends_bind_some hbody hp hsource hc
      intro next hnext hok hoffset
      subst hoffset
      simp only [hok, Bool.false_eq_true, if_false]
      exact ih (next.result :: results) hnext hok hrest

/-- The number of steps depends on where the repetition starts, and not on what was collected. -/
theorem repeatAll_ends
    (hsteps : Relation.ReflTransGen (fun a b => Answers definitions source body a (some b)) o last)
    (hstop : Answers definitions source body last none) :
    ∃ steps, ∀ (current : Cursor) (results : List Value), current.source = source →
      current.failed = false → current.offset = o → Ends fun levels =>
        Cursor.repeatAll (runFor definitions levels body) steps current results := by
  induction hsteps using Relation.ReflTransGen.head_induction_on with
  | refl =>
    refine ⟨1, fun current results hsource hc ho => ?_⟩
    subst ho
    simp only [Cursor.repeatAll_succ]
    apply Answers.ends_bind_none hstop hp hsource hc
    intro f hf
    simp only [hf, if_true]
    exact .value _
  | head hbody _ ih =>
    obtain ⟨steps, hsteps⟩ := ih
    refine ⟨steps + 1, fun current results hsource hc ho => ?_⟩
    subst ho
    simp only [Cursor.repeatAll_succ]
    apply Answers.ends_bind_some hbody hp hsource hc
    intro next hnext hok hoffset
    simp only [hok, Bool.false_eq_true, if_false]
    exact hsteps next (next.result :: results) hnext hok hoffset

theorem star_ends (hsource : c.source = source) (hc : c.failed = false)
    (h : Denotes (Answers definitions source) (Terminal.ends source) (.star (.nonterminal body))
      c.offset out) :
    Ends fun levels => Cursor.repeatAll (runFor definitions levels body) levels c [] := by
  obtain ⟨last, _, hstop, hsteps⟩ := h
  obtain ⟨steps, hends⟩ := repeatAll_ends hp hsteps hstop
  apply (hends c [] hsource hc rfl).of_within steps
  intro levels hle
  exact Cursor.repeatAll_within (fun _ => .refl _) hle c []

theorem repeatUntil_ends (hp' : stop.Throughout definitions IsTerminating)
    (hsteps : Relation.ReflTransGen (fun a b => Answers definitions source stop a none ∧
      Answers definitions source body a (some b)) o last)
    (hstop : (∃ m, Answers definitions source stop last (some m)) ∨
      Answers definitions source stop last none ∧ Answers definitions source body last none) :
    ∃ steps, ∀ (current : Cursor) (results : List Value), current.source = source →
      current.failed = false → current.offset = o → Ends fun levels =>
        Cursor.repeatUntil (runFor definitions levels stop) (runFor definitions levels body) steps
          current results := by
  induction hsteps using Relation.ReflTransGen.head_induction_on with
  | refl =>
    refine ⟨1, fun current results hsource hc ho => ?_⟩
    subst ho
    simp only [Cursor.repeatUntil_succ]
    rcases hstop with ⟨m, hlook⟩ | ⟨hlook, hbody⟩
    · apply Answers.ends_bind_some hlook hp' hsource hc
      intro stopped _ hok _
      simp only [hok, Bool.false_eq_true, if_false]
      exact .value _
    · apply Answers.ends_bind_none hlook hp' hsource hc
      intro stopped hstopped
      simp only [hstopped, if_true]
      apply Answers.ends_bind_none hbody hp hsource hc
      intro f hf
      simp only [hf, if_true]
      exact .value _
  | head hround _ ih =>
    obtain ⟨hlook, hbody⟩ := hround
    obtain ⟨steps, hsteps⟩ := ih
    refine ⟨steps + 1, fun current results hsource hc ho => ?_⟩
    subst ho
    simp only [Cursor.repeatUntil_succ]
    apply Answers.ends_bind_none hlook hp' hsource hc
    intro stopped hstopped
    simp only [hstopped, if_true]
    apply Answers.ends_bind_some hbody hp hsource hc
    intro next hnext hok hoffset
    simp only [hok, Bool.false_eq_true, if_false]
    exact hsteps next (next.result :: results) hnext hok hoffset

/-- `(!stop body)*`: the steps find no stop, and behind them there is one or the body fails. -/
theorem until_ends (hp' : stop.Throughout definitions IsTerminating) (hsource : c.source = source)
    (hc : c.failed = false)
    (h : Denotes (Answers definitions source) (Terminal.ends source)
      (.star (.seq (.not (.nonterminal stop)) (.nonterminal body))) c.offset out) :
    Ends fun levels =>
      Cursor.repeatUntil (runFor definitions levels stop) (runFor definitions levels body) levels c
        [] := by
  obtain ⟨last, _, hstop, hsteps⟩ := h
  have hrounds : Relation.ReflTransGen (fun a b => Answers definitions source stop a none ∧
      Answers definitions source body a (some b)) c.offset last := by
    refine Relation.ReflTransGen.mono (fun a b hround => ?_) _ _ hsteps
    obtain ⟨m, hlook, hbody⟩ | ⟨hnone, _⟩ := hround
    · obtain ⟨_, hnone, _⟩ | ⟨hm, hlook⟩ := hlook
      · cases hnone
      · obtain rfl := Option.some.inj hm
        exact ⟨hlook, hbody⟩
    · cases hnone
  have hbehind : (∃ m, Answers definitions source stop last (some m)) ∨
      Answers definitions source stop last none ∧ Answers definitions source body last none := by
    obtain ⟨m, hlook, hbody⟩ | ⟨_, hlook⟩ := hstop
    · obtain ⟨_, hnone, _⟩ | ⟨hm, hlook⟩ := hlook
      · cases hnone
      · obtain rfl := Option.some.inj hm
        exact .inr ⟨hlook, hbody⟩
    · obtain ⟨m, _, hlook⟩ | ⟨hnone, _⟩ := hlook
      · exact .inl ⟨m, hlook⟩
      · cases hnone
  obtain ⟨steps, hends⟩ := repeatUntil_ends hp hp' hrounds hbehind
  apply (hends c [] hsource hc rfl).of_within steps
  intro levels hle
  exact Cursor.repeatUntil_within (fun _ => .refl _) (fun _ => .refl _) hle c []

end Loops

/-- Whatever is done with the cursor of a body that answers, as long as it ends. -/
theorem Answers.ends_with {α : Type} {g : Cursor → Outcome α}
    (h : Answers definitions source body c.offset out)
    (hp : body.Throughout definitions IsTerminating) (hsource : c.source = source)
    (hc : c.failed = false) (hg : ∀ r, g r ≠ .unfinished) :
    Ends fun levels => body.runFor definitions levels c >>= g :=
  h.ends_bind hp hsource hc (fun _ f _ => .of_ne (hg f)) fun _ _ r _ _ _ => .of_ne (hg r)

/-- One level ends if what its rule mentions answers. -/
theorem runWith_ends {p : Parser} {e : Peg.Expression Parser Terminal}
    (hp : p.Throughout definitions IsTerminating) (hrule : reading definitions p = some e)
    (hsource : c.source = source) (hc : c.failed = false)
    (h : Denotes (Answers definitions source) (Terminal.ends source) e c.offset out) :
    Ends fun levels => runWith definitions (runFor definitions levels) levels p c := by
  obtain ⟨hexpression, hcallbacks⟩ := hp.here
  cases p with
  | rune accepts complaint what =>
    exact .of_ne (matchRune_ne_unfinished hcallbacks complaint what c)
  | runes accepts complaint what =>
    exact .of_ne (matchRunes_ne_unfinished hcallbacks complaint what c)
  | sequence parts dropNothing =>
    obtain rfl := Option.some.inj hrule
    exact runParts_ends (fun part hmem => hp.call (.sequence hmem)) dropNothing c [] hsource hc h
  | choice alternatives =>
    obtain rfl := Option.some.inj hrule
    exact runAlternatives_ends (fun q hmem => hp.call (.choice hmem)) hsource hc h
  | many body =>
    obtain rfl := Option.some.inj hrule
    exact .bind (star_ends (hp.call .many) hsource hc h) fun _ _ => .value _
  | many1 body =>
    obtain rfl := Option.some.inj hrule
    have hstar : ∃ out, Denotes (Answers definitions source) (Terminal.ends source)
        (.star (.nonterminal body)) c.offset out := by
      obtain ⟨m, hbody, last, _, hstop, hsteps⟩ | ⟨_, hbody⟩ := h
      · exact ⟨_, last, rfl, hstop, .head hbody hsteps⟩
      · exact ⟨_, c.offset, rfl, hbody, .refl⟩
    obtain ⟨_, hstar⟩ := hstar
    refine .bind (star_ends (hp.call .many1) hsource hc hstar) fun found _ => ?_
    simp only
    split <;> exact .value _
  | exactly count body =>
    obtain rfl := Option.some.inj hrule
    exact repeatExactly_ends (hp.call .exactly) count c [] hsource hc h
  | upTo count body =>
    cases count with
    | zero => exact .value _
    | succ count =>
      obtain rfl := Option.some.inj hrule
      have hmost : ∃ out, Denotes (Answers definitions source) (Terminal.ends source)
          (.atMost (count + 1) (.nonterminal body)) c.offset out := by
        cases out with
        | none => exact ⟨_, .inr ⟨h, rfl⟩⟩
        | some m => exact ⟨_, .inl ⟨m, rfl, h⟩⟩
      obtain ⟨_, hmost⟩ := hmost
      exact repeatUpTo_ends (hp.call .upTo) [] hsource hc hmost
  | untilStop stop body =>
    obtain rfl := Option.some.inj hrule
    obtain ⟨_, hstar, _⟩ | ⟨_, hstar⟩ := h
    · exact until_ends (hp.call .untilBody) (hp.call .untilStop) hsource hc hstar
    · exact until_ends (hp.call .untilBody) (hp.call .untilStop) hsource hc hstar
  | optional body =>
    obtain rfl := Option.some.inj hrule
    have hbody : ∃ out, Answers definitions source body c.offset out := by
      obtain ⟨m, _, hbody⟩ | ⟨hbody, _⟩ := h
      · exact ⟨_, hbody⟩
      · exact ⟨_, hbody⟩
    obtain ⟨_, hbody⟩ := hbody
    exact hbody.ends_with (hp.call .optional) hsource hc fun r => by simp
  | peek body =>
    obtain rfl := Option.some.inj hrule
    have hbody : ∃ out, Answers definitions source body c.offset out := by
      obtain ⟨_, _, ⟨m, _, hbody⟩ | ⟨_, hbody⟩⟩ | ⟨_, ⟨m, _, hbody⟩ | ⟨_, hbody⟩⟩ := h
      · exact ⟨_, hbody⟩
      · exact ⟨_, hbody⟩
      · exact ⟨_, hbody⟩
      · exact ⟨_, hbody⟩
    obtain ⟨_, hbody⟩ := hbody
    exact hbody.ends_with (hp.call .peek) hsource hc fun r => by split <;> simp
  | map body transform =>
    obtain rfl := Option.some.inj hrule
    apply Answers.ends_with h (hp.call .map) hsource hc
    intro r
    split
    · exact nofun
    · exact Outcome.bind_ne_unfinished (hcallbacks r.result) fun _ => nofun
  | mapIndexed body transform =>
    obtain rfl := Option.some.inj hrule
    apply Answers.ends_with h (hp.call .mapIndexed) hsource hc
    intro r
    split
    · exact nofun
    · exact Outcome.bind_ne_unfinished (hcallbacks r.result c.offset) fun _ => nofun
  | mapError body explain =>
    obtain rfl := Option.some.inj hrule
    apply Answers.ends_with h (hp.call .mapError) hsource hc
    intro r
    split
    · exact Outcome.bind_ne_unfinished (hcallbacks r) fun _ => nofun
    · exact nofun
  | tagged body label =>
    obtain rfl := Option.some.inj hrule
    apply Answers.ends_with h (hp.call .tagged) hsource hc
    intro r
    split
    · simp
    · cases hspan : Span.between c.offset r.offset <;> simp
  | named body name =>
    obtain rfl := Option.some.inj hrule
    exact (h (hp.call .named) c hsource hc rfl).imp fun _ _ _ => trivial
  | definition name =>
    obtain rfl := Option.some.inj hrule
    exact (h (hp.call .definition) c hsource hc rfl).imp fun _ _ _ => trivial
  | chain | custom => exact hexpression.elim
  | invalid fault => cases hrule
  | _ => exact .value _

/-- Runs settle on what is derived. That they end is an induction on the derivation; what they say
then is soundness. -/
theorem answers_of_derives {p : Parser}
    (h : DerivesOn definitions source (.nonterminal p) o out) :
    Answers definitions source p o out := by
  refine Derives.denotes (N := Answers definitions source) ?_ h
  intro p e o out hrule hderives hdenotes hp c hsource hc ho
  subst hsource ho
  have hends : Ends fun levels => p.runFor definitions levels c := by
    refine Settles.of_succ ?_
    simp only [runFor, hc, Bool.false_eq_true, if_false]
    exact runWith_ends hp hrule rfl hc hdenotes
  have hexpression := hp.mono fun q hq => hq.1
  refine hends.imp fun levels r hr => ⟨?_, fun hok => ?_⟩
  · exact (run_derives hexpression hc hr).unique (.nonterminal hrule hderives)
  · exact (run_advances (hexpression.mono fun q => IsExpression.isLibrary) hc hr hok).source_eq

/-- What is derived is run: the run comes back and says it. -/
theorem run_of_derives {p : Parser} (hp : p.Throughout definitions IsTerminating)
    (hc : c.failed = false)
    (hraise : ∀ levels fault, p.runFor definitions levels c ≠ .raised fault)
    (h : DerivesOn definitions c.source (.nonterminal p) c.offset out) :
    ∃ levels r, p.runFor definitions levels c = .value r ∧ r.verdict = out := by
  obtain ⟨levels, x, hx, hlevels⟩ := answers_of_derives h hp c rfl hc rfl
  have hrun := hlevels levels (Nat.le_refl levels)
  cases x with
  | value r => exact ⟨levels, r, hrun, hx.1⟩
  | raised fault => exact absurd hrun (hraise levels fault)
  | unfinished => exact hx.elim

/-- A run that gives a cursor with some number of levels raises nothing with any other. -/
theorem ne_raised_of_value {p : Parser} {levels : Nat} {r : Cursor}
    (h : p.runFor definitions levels c = .value r) (more : Nat) (fault : Fault) :
    p.runFor definitions more c ≠ .raised fault := by
  intro hraised
  have hvalue := runFor_eq_of_le (Nat.le_max_left levels more) (by rw [h]; nofun)
  have hfault := runFor_eq_of_le (Nat.le_max_right levels more) (by rw [hraised]; nofun)
  rw [h] at hvalue
  rw [hraised, hvalue] at hfault
  cases hfault

/-- Runs that raise nothing are the parsing expression grammar. A cursor that a run gives has
matched up to `stop` exactly where the grammar derives a match up to `stop`, and has failed exactly
where it derives failure. Where it derives either, the run does give a cursor, unless one of the
author's functions never comes back. -/
theorem run_iff_derives {p : Parser} (hp : p.Throughout definitions IsExpression)
    (hc : c.failed = false)
    (hraise : ∀ levels fault, p.runFor definitions levels c ≠ .raised fault) :
    (∀ levels r, p.runFor definitions levels c = .value r →
      (∀ stop, r.failed = false ∧ r.offset = stop ↔
        Derives (reading definitions) (Terminal.ends c.source) (.nonterminal p) c.offset
          (some stop)) ∧
      (r.failed = true ↔
        Derives (reading definitions) (Terminal.ends c.source) (.nonterminal p) c.offset none)) ∧
    (p.Throughout definitions CallbacksEnd → ∀ out,
      Derives (reading definitions) (Terminal.ends c.source) (.nonterminal p) c.offset out →
      ∃ levels r, p.runFor definitions levels c = .value r) := by
  refine ⟨fun levels r hrun => ?_, fun hends out h => ?_⟩
  · have hverdict : ∀ out, r.verdict = out ↔
        Derives (reading definitions) (Terminal.ends c.source) (.nonterminal p) c.offset out := by
      have hderives := run_derives hp hc hrun
      intro out
      constructor
      · rintro rfl
        exact hderives
      · exact hderives.unique
    refine ⟨fun stop => ?_, ?_⟩
    · rw [← hverdict, Cursor.verdict_eq_some_iff]
    · rw [← hverdict, Cursor.verdict_eq_none_iff]
  · have hboth : p.Throughout definitions IsTerminating := fun q hq => ⟨hp q hq, hends q hq⟩
    obtain ⟨levels, r, hrun, _⟩ := run_of_derives hboth hc hraise h
    exact ⟨levels, r, hrun⟩

/-- A cross in one pair of parentheses is derived up to behind the pair. -/
theorem run_iff_derives_nested :
    Derives (reading nested) (Terminal.ends (.ofBytes #[0x28, 0x78, 0x29]))
        (.nonterminal (.definition "nested")) 0 (some 3) ∧
      ∃ levels r, runFor nested levels (.definition "nested")
        (.ofSource (.ofBytes #[0x28, 0x78, 0x29])) = .value r := by
  obtain ⟨r, hrun, hr, hoffset⟩ :
      ∃ r, runFor nested 9 (.definition "nested") (.ofSource (.ofBytes #[0x28, 0x78, 0x29])) =
        .value r ∧ r.failed = false ∧ r.offset = 3 := ⟨_, rfl, rfl, rfl⟩
  have hp : (definition "nested").Throughout nested IsExpression :=
    nested_throughout trivial (fun _ => trivial) (fun _ => trivial) fun _ => trivial
  have hends : (definition "nested").Throughout nested CallbacksEnd :=
    nested_throughout trivial (fun _ => trivial) (fun _ => trivial) fun _ => trivial
  obtain ⟨hgives, hreturns⟩ := run_iff_derives hp rfl (ne_raised_of_value hrun)
  have hderives := ((hgives 9 r hrun).1 3).mp ⟨hr, hoffset⟩
  exact ⟨hderives, hreturns hends _ hderives⟩

end Parser

end Scannerless
