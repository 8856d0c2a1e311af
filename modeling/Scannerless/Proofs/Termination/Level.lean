import Scannerless.Proofs.Settling
import Scannerless.Proofs.Termination.Consuming

/-!
# A level ends if what it visits ends

The parts of a sequence and the rounds of a counted repetition are finite in number. The other
repetitions have no count; there every round has to advance, so that there are no more rounds than
bytes left and one. Matchers end by themselves; of a run of runes `Source.runesWhile_eq_of_size_le`
says so.
-/
namespace Scannerless.Parser

open Outcome

variable {definitions : Definitions} {source : Source}

/-- The runs of the parser at the cursor come to an end. -/
def EndsAt (definitions : Definitions) (x : Parser × Cursor) : Prop :=
  Ends fun levels => x.1.runFor definitions levels x.2

section Loops

variable {body stop : Parser} {current : Cursor}

theorem runParts_ends_of_visits (dropNothing : Bool) (entry : Cursor) (parts : List Parser)
    (results : List Value)
    (h : ∀ before part after rs last, parts = before ++ part :: after →
      Passes (Runs definitions) before current rs last → EndsAt definitions (part, last)) :
    Ends fun levels =>
      Cursor.runParts (runFor definitions levels) dropNothing entry parts current results := by
  induction parts generalizing current results with
  | nil => exact .value _
  | cons part rest ih =>
    simp only [Cursor.runParts_cons]
    refine Ends.bind (h [] part rest [] current rfl (.nil current)) fun next hnext => ?_
    cases herror : next.error with
    | some e => exact .value _
    | none =>
      -- A row behind this part is a row behind the entry with this part in front.
      have hrest : ∀ results, Ends fun levels =>
          Cursor.runParts (runFor definitions levels) dropNothing entry rest next results := by
        refine fun results => ih results fun before part' after rs last hsplit hpasses => ?_
        exact h (part :: before) part' after _ last (by rw [hsplit, List.cons_append])
          (.cons hnext (Cursor.not_failed_iff.mpr herror) hpasses)
      simp only
      split
      · exact hrest results
      · exact hrest (next.result :: results)

theorem runAlternatives_ends_of_visits (alternatives : List Parser)
    (h : ∀ before alternative after, alternatives = before ++ alternative :: after →
      (∀ q ∈ before, ∃ f, Runs definitions q current f ∧ f.failed = true) →
      EndsAt definitions (alternative, current)) :
    Ends fun levels => current.runAlternatives (runFor definitions levels) alternatives := by
  induction alternatives with
  | nil => exact .value _
  | cons alternative rest ih =>
    simp only [Cursor.runAlternatives_cons]
    refine Ends.bind (h [] alternative rest rfl nofun) fun next hnext => ?_
    cases hfailed : next.failed with
    | false => exact .value _
    | true =>
      refine ih fun before alternative' after hsplit hbefore => ?_
      refine h (alternative :: before) alternative' after (by rw [hsplit, List.cons_append]) ?_
      exact List.forall_mem_cons.mpr ⟨⟨next, hnext, hfailed⟩, hbefore⟩

theorem repeatExactly_ends_of_visits (count : Nat) (entry : Cursor) (left : Nat)
    (results : List Value)
    (h : ∀ k rs last, k < left → Passes (Runs definitions) (List.replicate k body) current rs last →
      EndsAt definitions (body, last)) :
    Ends fun levels =>
      Cursor.repeatExactly (runFor definitions levels body) count entry left current results := by
  induction left generalizing current results with
  | zero => exact .value _
  | succ left ih =>
    simp only [Cursor.repeatExactly_succ]
    refine Ends.bind (h 0 [] current (by omega) (.nil current)) fun next hnext => ?_
    cases hfailed : next.failed with
    | true => exact .value _
    | false =>
      refine ih (next.result :: results) fun k rs last hk hpasses => ?_
      exact h (k + 1) _ last (by omega) (.cons hnext hfailed hpasses)

theorem repeatUpTo_ends_of_visits (left : Nat) (results : List Value)
    (h : ∀ k rs last, k < left → Passes (Runs definitions) (List.replicate k body) current rs last →
      EndsAt definitions (body, last)) :
    Ends fun levels =>
      Cursor.repeatUpTo (runFor definitions levels body) left current results := by
  induction left generalizing current results with
  | zero => exact .value _
  | succ left ih =>
    simp only [Cursor.repeatUpTo_succ]
    refine Ends.bind (h 0 [] current (by omega) (.nil current)) fun next hnext => ?_
    cases hfailed : next.failed with
    | true =>
      simp only [if_true]
      split <;> exact .value _
    | false =>
      refine ih (next.result :: results) fun k rs last hk hpasses => ?_
      exact h (k + 1) _ last (by omega) (.cons hnext hfailed hpasses)

variable (hbody : body.Throughout definitions IsLibrary)
  (hconsumes : Consumes definitions source body)

include hbody hconsumes

/-- A round that succeeds leaves fewer bytes, on the same source. -/
theorem round_shortens {next : Cursor} (hsource : current.source = source)
    (hc : current.failed = false) (hnext : Runs definitions body current next)
    (hok : next.failed = false) : next.source = source ∧ bytesLeft next < bytesLeft current := by
  have hadvances := hnext.advances hbody hc hok
  exact ⟨hadvances.source_eq.trans hsource,
    bytesLeft_lt hadvances (hconsumes current next hsource hc hnext hok)⟩

/-- There are no more rounds than bytes left, so the steps are one more than these. -/
theorem repeatAll_ends_of_visits {steps : Nat} (hsteps : bytesLeft current < steps)
    (results : List Value) (hsource : current.source = source) (hc : current.failed = false)
    (h : ∀ k rs last, Passes (Runs definitions) (List.replicate k body) current rs last →
      EndsAt definitions (body, last)) :
    Ends fun levels =>
      Cursor.repeatAll (runFor definitions levels body) steps current results := by
  induction steps generalizing current results with
  | zero => omega
  | succ steps ih =>
    simp only [Cursor.repeatAll_succ]
    refine Ends.bind (h 0 [] current (.nil current)) fun next hnext => ?_
    cases hfailed : next.failed with
    | true => exact .value _
    | false =>
      obtain ⟨hsame, hless⟩ := round_shortens hbody hconsumes hsource hc hnext hfailed
      refine ih (by omega) (next.result :: results) hsame hfailed fun k rs last hpasses => ?_
      exact h (k + 1) _ last (.cons hnext hfailed hpasses)

theorem repeatUntil_ends_of_visits {steps : Nat} (hsteps : bytesLeft current < steps)
    (results : List Value) (hsource : current.source = source) (hc : current.failed = false)
    (hstop : ∀ k rs last, Passes (Pending (Runs definitions) stop) (List.replicate k body) current
      rs last → EndsAt definitions (stop, last))
    (h : ∀ k rs last stopped, Passes (Pending (Runs definitions) stop) (List.replicate k body)
      current rs last → Runs definitions stop last stopped → stopped.failed = true →
      EndsAt definitions (body, last)) :
    Ends fun levels => Cursor.repeatUntil (runFor definitions levels stop)
      (runFor definitions levels body) steps current results := by
  induction steps generalizing current results with
  | zero => omega
  | succ steps ih =>
    simp only [Cursor.repeatUntil_succ]
    refine Ends.bind (hstop 0 [] current (.nil current)) fun stopped hstopped => ?_
    cases hs : stopped.failed with
    | false => exact .value _
    | true =>
      simp only [if_true]
      refine Ends.bind (h 0 [] current stopped (.nil current) hstopped hs) fun next hnext => ?_
      cases hfailed : next.failed with
      | true => exact .value _
      | false =>
        obtain ⟨hsame, hless⟩ := round_shortens hbody hconsumes hsource hc hnext hfailed
        have hround : Pending (Runs definitions) stop body current next :=
          ⟨⟨stopped, hstopped, hs⟩, hnext⟩
        refine ih (by omega) (next.result :: results) hsame hfailed ?_ ?_
        · intro k rs last hpasses
          exact hstop (k + 1) _ last (.cons hround hfailed hpasses)
        · intro k rs last looked hpasses hlooked hl
          exact h (k + 1) _ last looked (.cons hround hfailed hpasses) hlooked hl

end Loops

variable {p : Parser} {c : Cursor}

/-- One level ends if what it visits ends, the author's functions end, and what is repeated without
a count advances. -/
theorem runWith_ends_of_visits (hx : Entered definitions source (p, c))
    (hcallbacks : p.CallbacksEnd) (hrepeats : p.RepeatsConsuming definitions source)
    (h : ∀ y, Visits definitions (p, c) y → EndsAt definitions y) :
    Ends fun levels => runWith definitions (runFor definitions levels) levels p c := by
  have hsource : c.source = source := hx.source_eq
  have hc : c.failed = false := hx.ok
  cases p with
  | rune accepts complaint what =>
    exact .of_ne (matchRune_ne_unfinished hcallbacks complaint what c)
  | runes accepts complaint what =>
    exact .of_ne (matchRunes_ne_unfinished hcallbacks complaint what c)
  | sequence parts dropNothing =>
    refine runParts_ends_of_visits dropNothing c parts []
      fun before part after rs last hsplit hpasses => ?_
    subst hsplit
    exact h _ (.sequence hpasses)
  | choice alternatives =>
    refine runAlternatives_ends_of_visits alternatives fun before q after hsplit hbefore => ?_
    subst hsplit
    exact h _ (.choice hbefore)
  | chain first next =>
    refine Ends.bind (h _ .chainFirst) fun matched hmatched => ?_
    cases hm : matched.failed with
    | true => exact .value _
    | false => exact h _ (.chainNext hmatched hm)
  | many body =>
    have hloop := repeatAll_ends_of_visits (hx.library.call .many) hrepeats (Nat.lt_succ_self _) []
      hsource hc fun k rs last hpasses => h _ (.many hpasses)
    have hmore := hloop.of_within (bytesLeft c + 1) fun levels hle =>
      Cursor.repeatAll_within (fun _ => .refl _) hle c []
    exact Ends.with hmore fun found => by simp
  | many1 body =>
    have hloop := repeatAll_ends_of_visits (hx.library.call .many1) hrepeats (Nat.lt_succ_self _) []
      hsource hc fun k rs last hpasses => h _ (.many1 hpasses)
    have hmore := hloop.of_within (bytesLeft c + 1) fun levels hle =>
      Cursor.repeatAll_within (fun _ => .refl _) hle c []
    exact Ends.with hmore fun found => by simp only; split <;> simp
  | exactly count body =>
    exact repeatExactly_ends_of_visits count c count [] fun k rs last hk hpasses =>
      h _ (.exactly hk hpasses)
  | upTo count body =>
    simp only [runWith]
    split
    · exact .value _
    · exact repeatUpTo_ends_of_visits count [] fun k rs last hk hpasses => h _ (.upTo hk hpasses)
  | untilStop stop body =>
    have hloop := repeatUntil_ends_of_visits (hx.library.call .untilBody) hrepeats
      (Nat.lt_succ_self _) [] hsource hc (fun k rs last hpasses => h _ (.untilStop hpasses))
      fun k rs last stopped hpasses hstop hs => h _ (.untilBody hpasses hstop hs)
    exact hloop.of_within (bytesLeft c + 1) fun levels hle =>
      Cursor.repeatUntil_within (fun _ => .refl _) (fun _ => .refl _) hle c []
  | optional body => exact Ends.with (h _ .optional) fun r => by simp
  | peek body => exact Ends.with (h _ .peek) fun r => by split <;> simp
  | map body transform =>
    refine Ends.with (h _ .map) fun r => ?_
    split
    · exact pure_ne_unfinished _
    · exact bind_ne_unfinished (hcallbacks r.result) fun _ => pure_ne_unfinished _
  | mapIndexed body transform =>
    refine Ends.with (h _ .mapIndexed) fun r => ?_
    split
    · exact pure_ne_unfinished _
    · exact bind_ne_unfinished (hcallbacks r.result c.offset) fun _ => pure_ne_unfinished _
  | mapError body explain =>
    refine Ends.with (h _ .mapError) fun r => ?_
    split
    · exact bind_ne_unfinished (hcallbacks r) fun _ => pure_ne_unfinished _
    · exact pure_ne_unfinished _
  | tagged body label =>
    refine Ends.with (h _ .tagged) fun r => ?_
    split
    · simp
    · cases hspan : Span.between c.offset r.offset <;> simp
  | named body name => exact h _ .named
  | definition name => exact h _ .definition
  | custom name action => exact hx.library.here.elim
  | invalid fault => exact .const trivial
  | _ => exact .value _

end Scannerless.Parser
