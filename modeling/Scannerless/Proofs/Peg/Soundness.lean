import Scannerless.Proofs.Peg.Leaves

/-!
# Runs derive what they say

Whatever cursor a run gives, the parsing expression of the parser derives its verdict: a match up to
the offset of the cursor, or a failure. Rows of successes become sequences and stars of the
expression, each by induction on the row.
-/
namespace Scannerless.Parser

open Peg

variable {definitions : Definitions} {source : Source}

section Combinators

variable {A : Parser → Cursor → Cursor → Prop} {c last r : Cursor} {rs : List Value}

/-- The attempts of a parser stay on the source where they succeed, and the grammar derives their
verdicts. -/
def Obeys (definitions : Definitions) (source : Source) (A : Parser → Cursor → Cursor → Prop)
    (q : Parser) : Prop :=
  ∀ c r, c.source = source → c.failed = false → A q c r →
    (r.failed = false → r.source = source) ∧
      DerivesOn definitions source (.nonterminal q) c.offset r.verdict

namespace Obeys

variable {q : Parser}

theorem matched (h : Obeys definitions source A q) (hsource : c.source = source)
    (hc : c.failed = false) (ha : A q c r) (hr : r.failed = false) :
    r.source = source ∧
      DerivesOn definitions source (.nonterminal q) c.offset (some r.offset) := by
  obtain ⟨hstays, hderives⟩ := h c r hsource hc ha
  rw [Cursor.verdict_of_not_failed hr] at hderives
  exact ⟨hstays hr, hderives⟩

theorem failed (h : Obeys definitions source A q) (hsource : c.source = source)
    (hc : c.failed = false) (ha : A q c r) (hr : r.failed = true) :
    DerivesOn definitions source (.nonterminal q) c.offset none := by
  have hderives := (h c r hsource hc ha).2
  rwa [Cursor.verdict_of_failed hr] at hderives

end Obeys

/-- A row of successes in front of `rest`. -/
theorem Passes.derives {parts : List Parser} (h : Passes A parts c rs last)
    (hsource : c.source = source) (hc : c.failed = false)
    (hA : ∀ part ∈ parts, Obeys definitions source A part) :
    last.source = source ∧ ∀ rest out, DerivesOn definitions source (.seqAll rest) last.offset out →
      DerivesOn definitions source (.seqAll (parts.map .nonterminal ++ rest)) c.offset out := by
  induction h with
  | nil c => exact ⟨hsource, fun rest out h => h⟩
  | cons hpart hnext _ ih =>
    have hfirst := hA _ (List.mem_cons_self ..)
    obtain ⟨hstays, hderives⟩ := hfirst.matched hsource hc hpart hnext
    obtain ⟨hlast, hrest⟩ := ih hstays hnext fun part hmem => hA part (List.mem_cons_of_mem _ hmem)
    exact ⟨hlast, fun rest out h => .seq hderives (hrest rest out h)⟩

/-- A row of rounds in front of one that fails is a star. -/
theorem Passes.star {B : Parser → Cursor → Cursor → Prop} {e : Peg.Expression Parser Terminal}
    {body : Parser} {k : Nat} (h : Passes B (List.replicate k body) c rs last)
    (hsource : c.source = source) (hc : c.failed = false)
    (hround : ∀ c r, c.source = source → c.failed = false → B body c r → r.failed = false →
      r.source = source ∧ DerivesOn definitions source e c.offset (some r.offset)) :
    last.source = source ∧ (DerivesOn definitions source e last.offset none →
      DerivesOn definitions source (.star e) c.offset (some last.offset)) := by
  induction k generalizing c rs with
  | zero =>
    rw [List.replicate_zero] at h
    cases h
    exact ⟨hsource, fun hstop => .starStops hstop⟩
  | succ k ih =>
    rw [List.replicate_succ] at h
    cases h with
    | cons hpart hnext hrest =>
      obtain ⟨hstays, hderives⟩ := hround _ _ hsource hc hpart hnext
      obtain ⟨hlast, hstar⟩ := ih hrest hstays hnext
      exact ⟨hlast, fun hstop => .starGoes hderives (hstar hstop)⟩

/-- The rounds of a repetition until `stop`: each of them finds no stop and matches the body. -/
theorem Passes.until_star {stop body : Parser} {k : Nat}
    (h : Passes (Pending A stop) (List.replicate k body) c rs last) (hsource : c.source = source)
    (hc : c.failed = false) (hstop : Obeys definitions source A stop)
    (hbody : Obeys definitions source A body) :
    last.source = source ∧
      (DerivesOn definitions source (.seq (.not (.nonterminal stop)) (.nonterminal body))
        last.offset none → DerivesOn definitions source
          (.star (.seq (.not (.nonterminal stop)) (.nonterminal body))) c.offset
            (some last.offset)) := by
  apply h.star hsource hc
  intro c r hs hc hround hr
  obtain ⟨⟨stopped, hlook, hfailed⟩, ha⟩ := hround
  obtain ⟨hstays, hderives⟩ := hbody.matched hs hc ha hr
  exact ⟨hstays, .seq (.notMatches (hstop.failed hs hc hlook hfailed)) hderives⟩

/-- A row of at most `count` successes, with a failure behind it where it is shorter. -/
theorem Passes.atMost {body : Parser} {k count : Nat}
    (h : Passes A (List.replicate k body) c rs last) (hsource : c.source = source)
    (hc : c.failed = false) (hA : Obeys definitions source A body) (hk : k ≤ count) :
    last.source = source ∧
      ((k < count → DerivesOn definitions source (.nonterminal body) last.offset none) →
        DerivesOn definitions source (.atMost count (.nonterminal body)) c.offset
          (some last.offset)) := by
  induction k generalizing c rs count with
  | zero =>
    rw [List.replicate_zero] at h
    cases h
    refine ⟨hsource, fun hstop => ?_⟩
    cases count with
    | zero => exact .empty _
    | succ count => exact .choiceSecond (.seqFails (hstop (Nat.succ_pos count))) (.empty _)
  | succ k ih =>
    obtain ⟨count, rfl⟩ : ∃ n, count = n + 1 := ⟨count - 1, by omega⟩
    rw [List.replicate_succ] at h
    cases h with
    | cons hpart hnext hrest =>
      obtain ⟨hstays, hderives⟩ := hA.matched hsource hc hpart hnext
      obtain ⟨hlast, hmost⟩ := ih hrest hstays hnext (Nat.le_of_succ_le_succ hk)
      refine ⟨hlast, fun hstop => .choiceFirst (.seq hderives (hmost fun hlt => ?_))⟩
      exact hstop (Nat.succ_lt_succ hlt)

/-! What the rules of the larger combinators derive from such rows. -/

variable {part body stop : Parser} {f : Cursor}

theorem derives_sequence_fails {before after : List Parser} {dropNothing : Bool}
    (h : Passes A before c rs last) (hsource : c.source = source) (hc : c.failed = false)
    (hbefore : ∀ q ∈ before, Obeys definitions source A q) (hpart : Obeys definitions source A part)
    (ha : A part last f) (hf : f.failed = true) :
    DerivesOn definitions source (.nonterminal (.sequence (before ++ part :: after) dropNothing))
      c.offset none := by
  obtain ⟨hlast, hrow⟩ := h.derives hsource hc hbefore
  have hstuck := hpart.failed hlast (h.failed_eq_false hc) ha hf
  have hall := hrow (.nonterminal part :: after.map .nonterminal) none (.seqFails hstuck)
  refine .nonterminal rfl ?_
  rw [List.map_append, List.map_cons]
  exact hall

/-- Alternatives that fail, one by one. -/
theorem derives_refused {alternatives : List Parser} (hsource : c.source = source)
    (hc : c.failed = false) (hA : ∀ q ∈ alternatives, Obeys definitions source A q)
    (h : ∀ q ∈ alternatives, ∃ f, A q c f ∧ f.failed = true) :
    ∀ e ∈ alternatives.map Expression.nonterminal,
      DerivesOn definitions source e c.offset none := by
  intro e he
  obtain ⟨q, hq, rfl⟩ := List.mem_map.mp he
  obtain ⟨f, hf, hfailed⟩ := h q hq
  exact (hA q hq).failed hsource hc hf hfailed

theorem derives_choice {before after : List Parser} (hsource : c.source = source)
    (hc : c.failed = false) (hbefore : ∀ q ∈ before, Obeys definitions source A q)
    (hpart : Obeys definitions source A part) (h : ∀ q ∈ before, ∃ f, A q c f ∧ f.failed = true)
    (ha : A part c r) (hr : r.failed = false) :
    DerivesOn definitions source (.nonterminal (.choice (before ++ part :: after))) c.offset
      (some r.offset) := by
  obtain ⟨_, hfound⟩ := hpart.matched hsource hc ha hr
  refine .nonterminal rfl ?_
  rw [List.map_append, List.map_cons]
  exact .choiceAll (derives_refused hsource hc hbefore h) hfound

theorem derives_many1 {k : Nat} (h : Passes A (List.replicate (k + 1) body) c rs last)
    (hsource : c.source = source) (hc : c.failed = false) (hA : Obeys definitions source A body)
    (ha : A body last f) (hf : f.failed = true) :
    DerivesOn definitions source (.nonterminal (.many1 body)) c.offset (some last.offset) := by
  have hok := h.failed_eq_false hc
  rw [List.replicate_succ] at h
  cases h with
  | cons hpart hnext hrest =>
    obtain ⟨hstays, hfirst⟩ := hA.matched hsource hc hpart hnext
    obtain ⟨hlast, hstar⟩ := hrest.star hstays hnext fun c r hs hc ha hr => hA.matched hs hc ha hr
    exact .nonterminal rfl (.seq hfirst (hstar (hA.failed hlast hok ha hf)))

/-- A row of copies in front of `left` more. -/
theorem Passes.copies {k : Nat} (h : Passes A (List.replicate k body) c rs last)
    (hsource : c.source = source) (hc : c.failed = false) (hA : Obeys definitions source A body) :
    last.source = source ∧ ∀ left out,
      DerivesOn definitions source (.copies left (.nonterminal body)) last.offset out →
        DerivesOn definitions source (.copies (k + left) (.nonterminal body)) c.offset out := by
  have hall : ∀ part ∈ List.replicate k body, Obeys definitions source A part := by
    intro part hmem
    rw [List.eq_of_mem_replicate hmem]
    exact hA
  obtain ⟨hlast, hrow⟩ := h.derives hsource hc hall
  refine ⟨hlast, fun left out hrest => ?_⟩
  have hcopies := hrow (List.replicate left (.nonterminal body)) out hrest
  rwa [List.map_replicate, List.replicate_append_replicate] at hcopies

/-- One copy, and then a row of at most `count` more with a failure behind it where it is
shorter. -/
theorem derives_upTo {k count : Nat} (h : Passes A (List.replicate (k + 1) body) c rs last)
    (hsource : c.source = source) (hc : c.failed = false) (hA : Obeys definitions source A body)
    (hk : k ≤ count) (hstop : last.source = source → last.failed = false → k < count →
      DerivesOn definitions source (.nonterminal body) last.offset none) :
    DerivesOn definitions source (.nonterminal (.upTo (count + 1) body)) c.offset
      (some last.offset) := by
  have hok := h.failed_eq_false hc
  rw [List.replicate_succ] at h
  cases h with
  | cons hpart hnext hrest =>
    obtain ⟨hstays, hfirst⟩ := hA.matched hsource hc hpart hnext
    obtain ⟨hlast, hmost⟩ := hrest.atMost hstays hnext hA hk
    exact .nonterminal rfl (.seq hfirst (hmost (hstop hlast hok)))

theorem derives_untilStop {k : Nat} (h : Passes (Pending A stop) (List.replicate k body) c rs last)
    (hsource : c.source = source) (hc : c.failed = false) (hstop : Obeys definitions source A stop)
    (hbody : Obeys definitions source A body) (ha : A stop last r) (hr : r.failed = false) :
    DerivesOn definitions source (.nonterminal (.untilStop stop body)) c.offset
      (some last.offset) := by
  obtain ⟨hlast, hstar⟩ := h.until_star hsource hc hstop hbody
  obtain ⟨_, hlook⟩ := hstop.matched hlast (h.failed_eq_false hc) ha hr
  exact .nonterminal rfl (.seq (hstar (.seqFails (.notFails hlook))) (.ahead hlook))

theorem derives_untilStop_fails {k : Nat}
    (h : Passes (Pending A stop) (List.replicate k body) c rs last) (hsource : c.source = source)
    (hc : c.failed = false) (hstop : Obeys definitions source A stop)
    (hbody : Obeys definitions source A body) (ha : A stop last r) (hr : r.failed = true)
    (ha' : A body last f) (hf : f.failed = true) :
    DerivesOn definitions source (.nonterminal (.untilStop stop body)) c.offset none := by
  obtain ⟨hlast, hstar⟩ := h.until_star hsource hc hstop hbody
  have hok := h.failed_eq_false hc
  have hlook := hstop.failed hlast hok ha hr
  have hstuck := hbody.failed hlast hok ha' hf
  exact .nonterminal rfl (.seq (hstar (.seq (.notMatches hlook) hstuck)) (.aheadFails hlook))

theorem IsExpression.isLibrary {p : Parser} (h : p.IsExpression) : p.IsLibrary := by
  cases p with
  | custom name action => exact h
  | _ => trivial

/-- One level derives its verdict if what it calls does. -/
theorem Step.derives {p : Parser} (hnode : p.IsExpression) (hsource : c.source = source)
    (hc : c.failed = false) (hA : ∀ q, Calls definitions p q → Obeys definitions source A q)
    (h : Step definitions A p c r) :
    DerivesOn definitions source (.nonterminal p) c.offset r.verdict := by
  cases h with
  | leaf hact => exact hsource ▸ hact.derives hc
  | sequence hpasses =>
    obtain ⟨_, hrow⟩ := hpasses.derives hsource hc fun part hmem => hA part (.sequence hmem)
    have hall := hrow [] _ (.empty _)
    rw [List.append_nil] at hall
    rw [Cursor.verdict_withResult hc]
    exact .nonterminal rfl hall
  | sequenceFails hpasses hpart he =>
    exact derives_sequence_fails hpasses hsource hc
      (fun q hmem => hA q (.sequence (by simp [hmem])))
      (hA _ (.sequence (by simp))) hpart (Cursor.failed_iff.mpr ⟨_, he⟩)
  | choice hbefore halt hr =>
    rw [Cursor.verdict_of_not_failed hr]
    exact derives_choice hsource hc (fun q hmem => hA q (.choice (by simp [hmem])))
      (hA _ (.choice (by simp))) hbefore halt hr
  | choiceFails hall =>
    have hrefused := derives_refused hsource hc (fun q hmem => hA q (.choice hmem)) hall
    exact .nonterminal rfl (.choiceAll_fails hrefused)
  | @many body _ k _ last f hpasses hbody hf =>
    have hcall := hA body .many
    obtain ⟨hlast, hstar⟩ :=
      hpasses.star hsource hc fun c r hs hc ha hr => hcall.matched hs hc ha hr
    have hok := hpasses.failed_eq_false hc
    rw [Cursor.verdict_withResult hok]
    exact .nonterminal rfl (hstar (hcall.failed hlast hok hbody hf))
  | many1 hpasses hbody hf =>
    rw [Cursor.verdict_withResult (hpasses.failed_eq_false hc)]
    exact derives_many1 hpasses hsource hc (hA _ .many1) hbody hf
  | many1Fails hbody hf =>
    exact .nonterminal rfl (.seqFails ((hA _ .many1).failed hsource hc hbody hf))
  | exactly hpasses =>
    obtain ⟨_, hcopies⟩ := hpasses.copies hsource hc (hA _ .exactly)
    rw [Cursor.verdict_withResult hc]
    exact .nonterminal rfl (hcopies 0 _ (.empty _))
  | @exactlyFails count body _ k _ last f hk hpasses hbody hf =>
    -- Behind the row of successes at least one copy is left, which fails.
    obtain ⟨left, rfl⟩ : ∃ left, count = k + (left + 1) := ⟨count - k - 1, by omega⟩
    obtain ⟨hlast, hcopies⟩ := hpasses.copies hsource hc (hA body .exactly)
    have hstuck := (hA body .exactly).failed hlast (hpasses.failed_eq_false hc) hbody hf
    exact .nonterminal rfl (hcopies (left + 1) none (.seqFails hstuck))
  | upToNone =>
    rw [Cursor.verdict_of_not_failed hc]
    exact .nonterminal rfl (.empty _)
  | @upToAll count body _ _ last hpasses =>
    rw [Cursor.verdict_withResult (hpasses.failed_eq_false hc)]
    exact derives_upTo hpasses hsource hc (hA body .upTo) (Nat.le_refl count)
      fun _ _ hlt => absurd hlt (Nat.lt_irrefl count)
  | @upToSome count body _ k _ last f hk hpasses hbody hf =>
    obtain ⟨count, rfl⟩ : ∃ n, count = n + 1 := ⟨count - 1, by omega⟩
    rw [Cursor.verdict_withResult (hpasses.failed_eq_false hc)]
    exact derives_upTo hpasses hsource hc (hA body .upTo) (by omega)
      fun hlast hok _ => (hA body .upTo).failed hlast hok hbody hf
  | upToFails hbody hf =>
    rw [Cursor.verdict_of_failed hf]
    exact .nonterminal rfl (.seqFails ((hA _ .upTo).failed hsource hc hbody hf))
  | untilStop hpasses hstop hs =>
    rw [Cursor.verdict_withResult (hpasses.failed_eq_false hc)]
    exact derives_untilStop hpasses hsource hc (hA _ .untilStop) (hA _ .untilBody) hstop hs
  | untilStopFails hpasses hstop hs hbody hf =>
    rw [Cursor.verdict_of_failed hs]
    exact derives_untilStop_fails hpasses hsource hc (hA _ .untilStop) (hA _ .untilBody) hstop hs
      hbody hf
  | optional hbody hr =>
    obtain ⟨_, hderives⟩ := (hA _ .optional).matched hsource hc hbody hr
    rw [Cursor.verdict_of_not_failed hr]
    exact .nonterminal rfl (.choiceFirst hderives)
  | optionalSkips hbody hf =>
    rw [Cursor.verdict_of_not_failed hc]
    exact .nonterminal rfl (.choiceSecond ((hA _ .optional).failed hsource hc hbody hf) (.empty _))
  | peek hbody hr =>
    obtain ⟨_, hderives⟩ := (hA _ .peek).matched hsource hc hbody hr
    rw [Cursor.verdict_of_not_failed hc]
    exact .nonterminal rfl (.ahead hderives)
  | peekFails hbody hf =>
    exact .nonterminal rfl (.aheadFails ((hA _ .peek).failed hsource hc hbody hf))
  | @map body _ _ m _ hbody hm =>
    obtain ⟨_, hderives⟩ := (hA body .map).matched hsource hc hbody hm
    rw [Cursor.verdict_withResult hm]
    exact .nonterminal rfl hderives
  | mapFails hbody _ => exact .nonterminal rfl (hA _ .map _ _ hsource hc hbody).2
  | @mapIndexed body _ _ m _ hbody hm =>
    obtain ⟨_, hderives⟩ := (hA body .mapIndexed).matched hsource hc hbody hm
    rw [Cursor.verdict_withResult hm]
    exact .nonterminal rfl hderives
  | mapIndexedFails hbody _ => exact .nonterminal rfl (hA _ .mapIndexed _ _ hsource hc hbody).2
  | mapError hbody hf => exact .nonterminal rfl ((hA _ .mapError).failed hsource hc hbody hf)
  | mapErrorPasses hbody _ => exact .nonterminal rfl (hA _ .mapError _ _ hsource hc hbody).2
  | @tagged body _ _ m _ hbody hm =>
    obtain ⟨_, hderives⟩ := (hA body .tagged).matched hsource hc hbody hm
    rw [Cursor.verdict_withResult hm]
    exact .nonterminal rfl hderives
  | taggedFails hbody _ => exact .nonterminal rfl (hA _ .tagged _ _ hsource hc hbody).2
  | named hbody => exact .nonterminal rfl (hA _ .named _ _ hsource hc hbody).2
  | definition hbody => exact .nonterminal rfl (hA _ .definition _ _ hsource hc hbody).2
  | chain | chainFails | custom => exact hnode.elim

end Combinators

/-- The verdict of a run is derived by the grammar's parsing expressions. -/
theorem run_derives {levels : Nat} {p : Parser} (hp : p.Throughout definitions IsExpression)
    {c r : Cursor} (hc : c.failed = false) (h : p.runFor definitions levels c = .value r) :
    DerivesOn definitions c.source (.nonterminal p) c.offset r.verdict := by
  refine (run_induction (R := fun p c r => (r.failed = false → c.Advances r) ∧
    DerivesOn definitions c.source (.nonterminal p) c.offset r.verdict) ?_ hp hc h).2
  intro A p c r hnode hc hA hstep
  refine ⟨hstep.advances hnode.isLibrary hc fun q hq c r hc ha => (hA q hq c r hc ha).1, ?_⟩
  apply hstep.derives hnode rfl hc
  intro q hq d s hsource hd ha
  obtain ⟨hadvances, hderives⟩ := hA q hq d s hd ha
  exact ⟨fun hs => (hadvances hs).source_eq.trans hsource, hsource ▸ hderives⟩

end Scannerless.Parser
