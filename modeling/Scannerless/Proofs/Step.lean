import Scannerless.Proofs.Calls

/-!
# What one level of a run can do

`Step` lists every way in which one level of a run gives a cursor, from the ways in which the
parsers that it calls give theirs. Everything that is proved of runs later is a case analysis on it.
The converse, that a run does take each of these steps, is not claimed here.
-/
namespace Scannerless

theorem Cursor.failed_iff {c : Cursor} : c.failed = true ↔ ∃ e, c.error = some e :=
  Option.isSome_iff_exists

theorem Cursor.not_failed_iff {c : Cursor} : c.failed = false ↔ c.error = none := by
  cases h : c.error <;> simp [Cursor.failed, h]

namespace Parser

/-- `Passes A parts c rs last`: the parts succeed one after the other from `c` on, with the results
`rs`, and `last` is the cursor behind them. A repetition passes copies of its body. -/
inductive Passes (A : Parser → Cursor → Cursor → Prop) :
    List Parser → Cursor → List Value → Cursor → Prop where
  | nil (c : Cursor) : Passes A [] c [] c
  | cons {part : Parser} {rest : List Parser} {c next last : Cursor} {rs : List Value}
      (hpart : A part c next) (hnext : next.failed = false) (hrest : Passes A rest next rs last) :
      Passes A (part :: rest) c (next.result :: rs) last

namespace Passes

variable {A : Parser → Cursor → Cursor → Prop} {parts : List Parser} {c last : Cursor}
  {rs : List Value}

theorem failed_eq_false (h : Passes A parts c rs last) (hc : c.failed = false) :
    last.failed = false := by
  induction h with
  | nil => exact hc
  | cons _ hnext _ ih => exact ih hnext

/-- What every success respects, a whole row of successes respects. -/
theorem respects {R : Cursor → Cursor → Prop} (hrefl : ∀ c, R c c)
    (htrans : ∀ a b c, R a b → R b c → R a c) (h : Passes A parts c rs last) (hc : c.failed = false)
    (hA : ∀ part ∈ parts, ∀ c r, c.failed = false → A part c r → r.failed = false → R c r) :
    R c last := by
  induction h with
  | nil c => exact hrefl c
  | cons hpart hnext _ ih =>
    have hfirst := hA _ (List.mem_cons_self ..) _ _ hc hpart hnext
    have hrest := ih hnext fun part hmem => hA part (List.mem_cons_of_mem _ hmem)
    exact htrans _ _ _ hfirst hrest

theorem respects_replicate {R : Cursor → Cursor → Prop} (hrefl : ∀ c, R c c)
    (htrans : ∀ a b c, R a b → R b c → R a c) {body : Parser} {k : Nat}
    (h : Passes A (List.replicate k body) c rs last) (hc : c.failed = false)
    (hA : ∀ c r, c.failed = false → A body c r → r.failed = false → R c r) : R c last := by
  refine h.respects hrefl htrans hc fun part hmem => ?_
  rw [List.eq_of_mem_replicate hmem]
  exact hA

end Passes

/-- The results that a sequence keeps. -/
def kept (dropNothing : Bool) (results : List Value) : List Value :=
  if dropNothing then results.filter fun v => !v.isNothing else results

/-- `Acts p c r`: a parser that calls no other gives `r` at `c`. -/
inductive Acts : Parser → Cursor → Cursor → Prop where
  | rune {accepts complaint what c r} (h : c.matchRune accepts complaint what = .value r) :
      Acts (.rune accepts complaint what) c r
  | runes {accepts complaint what c r} (h : c.matchRunes accepts complaint what = .value r) :
      Acts (.runes accepts complaint what) c r
  | runeCount {count c} : Acts (.runeCount count) c (c.matchRuneCount count)
  | literal {text c} : Acts (.literal text) c (c.matchLiteral text)
  | foldedLiteral {text c} : Acts (.foldedLiteral text) c (c.matchFoldedLiteral text)
  | succeed {value c} : Acts (.succeed value) c (c.withResult value c.offset)
  | fail {complaint c} : Acts (.fail complaint) c (c.complain complaint)
  | startOfInput {c} : Acts .startOfInput c c.matchStartOfInput
  | endOfInput {c} : Acts .endOfInput c c.matchEndOfInput
  | startOfLine {c} : Acts .startOfLine c c.matchStartOfLine

/-- `stop` fails and `body` succeeds: one round of a repetition until `stop`. -/
def Pending (A : Parser → Cursor → Cursor → Prop) (stop : Parser) (body : Parser) (c r : Cursor) :
    Prop :=
  (∃ stopped, A stop c stopped ∧ stopped.failed = true) ∧ A body c r

/-- `Step definitions A p c r`: one level of `p` at `c` can give `r` if the parsers that it calls
give cursors as `A` says. -/
inductive Step (definitions : Definitions) (A : Parser → Cursor → Cursor → Prop) :
    Parser → Cursor → Cursor → Prop where
  | leaf {p c r} (h : Acts p c r) : Step definitions A p c r
  | sequence {parts dropNothing c rs last} (h : Passes A parts c rs last) :
      Step definitions A (.sequence parts dropNothing) c
        (c.withResult (.tuple (kept dropNothing rs)) last.offset)
  | sequenceFails {before part after dropNothing c rs last f e} (h : Passes A before c rs last)
      (hpart : A part last f) (he : f.error = some e) :
      Step definitions A (.sequence (before ++ part :: after) dropNothing) c (c.withError e)
  | choice {before alternative after c r} (h : ∀ q ∈ before, ∃ f, A q c f ∧ f.failed = true)
      (halt : A alternative c r) (hr : r.failed = false) :
      Step definitions A (.choice (before ++ alternative :: after)) c r
  | choiceFails {alternatives c} (h : ∀ q ∈ alternatives, ∃ f, A q c f ∧ f.failed = true) :
      Step definitions A (.choice alternatives) c (c.withError (.noChoiceMatched c.offset))
  | chain {first next c m r} (hfirst : A first c m) (hm : m.failed = false)
      (hnext : A (next m.result) m r) : Step definitions A (.chain first next) c r
  | chainFails {first next c f} (hfirst : A first c f) (hf : f.failed = true) :
      Step definitions A (.chain first next) c f
  | many {body c k rs last f} (h : Passes A (List.replicate k body) c rs last)
      (hbody : A body last f) (hf : f.failed = true) :
      Step definitions A (.many body) c (last.withResult (.tuple rs) last.offset)
  | many1 {body c k rs last f} (h : Passes A (List.replicate (k + 1) body) c rs last)
      (hbody : A body last f) (hf : f.failed = true) :
      Step definitions A (.many1 body) c (last.withResult (.tuple rs) last.offset)
  | many1Fails {body c f} (hbody : A body c f) (hf : f.failed = true) :
      Step definitions A (.many1 body) c (c.withError (.noRepetition c.offset))
  | exactly {count body c rs last} (h : Passes A (List.replicate count body) c rs last) :
      Step definitions A (.exactly count body) c (c.withResult (.tuple rs) last.offset)
  | exactlyFails {count body c k rs last f} (hk : k < count)
      (h : Passes A (List.replicate k body) c rs last) (hbody : A body last f)
      (hf : f.failed = true) :
      Step definitions A (.exactly count body) c (c.withError (.repetitionCount count c.offset))
  | upToNone {body c} : Step definitions A (.upTo 0 body) c c
  | upToAll {count body c rs last}
      (h : Passes A (List.replicate (count + 1) body) c rs last) :
      Step definitions A (.upTo (count + 1) body) c (last.withResult (.tuple rs) last.offset)
  | upToSome {count body c k rs last f} (hk : k + 1 < count)
      (h : Passes A (List.replicate (k + 1) body) c rs last) (hbody : A body last f)
      (hf : f.failed = true) :
      Step definitions A (.upTo count body) c (last.withResult (.tuple rs) last.offset)
  | upToFails {count body c f} (hbody : A body c f) (hf : f.failed = true) :
      Step definitions A (.upTo (count + 1) body) c f
  | untilStop {stop body c k rs last stopped}
      (h : Passes (Pending A stop) (List.replicate k body) c rs last) (hstop : A stop last stopped)
      (hs : stopped.failed = false) :
      Step definitions A (.untilStop stop body) c (last.withResult (.tuple rs) last.offset)
  | untilStopFails {stop body c k rs last stopped f}
      (h : Passes (Pending A stop) (List.replicate k body) c rs last) (hstop : A stop last stopped)
      (hs : stopped.failed = true) (hbody : A body last f) (hf : f.failed = true) :
      Step definitions A (.untilStop stop body) c stopped
  | optional {body c r} (hbody : A body c r) (hr : r.failed = false) :
      Step definitions A (.optional body) c r
  | optionalSkips {body c f} (hbody : A body c f) (hf : f.failed = true) :
      Step definitions A (.optional body) c c
  | peek {body c r} (hbody : A body c r) (hr : r.failed = false) :
      Step definitions A (.peek body) c c
  | peekFails {body c f} (hbody : A body c f) (hf : f.failed = true) :
      Step definitions A (.peek body) c (c.withError (.wouldNotMatch c.offset))
  | map {body transform c m v} (hbody : A body c m) (hm : m.failed = false)
      (hv : transform m.result = .value v) :
      Step definitions A (.map body transform) c (m.withResult v m.offset)
  | mapFails {body transform c f} (hbody : A body c f) (hf : f.failed = true) :
      Step definitions A (.map body transform) c f
  | mapIndexed {body transform c m v} (hbody : A body c m) (hm : m.failed = false)
      (hv : transform m.result c.offset = .value v) :
      Step definitions A (.mapIndexed body transform) c (m.withResult v m.offset)
  | mapIndexedFails {body transform c f} (hbody : A body c f) (hf : f.failed = true) :
      Step definitions A (.mapIndexed body transform) c f
  | mapError {body explain c f complaint} (hbody : A body c f) (hf : f.failed = true)
      (hcomplaint : explain f = .value complaint) :
      Step definitions A (.mapError body explain) c (f.complain complaint)
  | mapErrorPasses {body explain c r} (hbody : A body c r) (hr : r.failed = false) :
      Step definitions A (.mapError body explain) c r
  | tagged {body label c m span} (hbody : A body c m) (hm : m.failed = false)
      (hspan : Span.between c.offset m.offset = .ok span) :
      Step definitions A (.tagged body label) c (m.withResult (.token label m.result span) m.offset)
  | taggedFails {body label c f} (hbody : A body c f) (hf : f.failed = true) :
      Step definitions A (.tagged body label) c f
  | named {body name c r} (hbody : A body c r) : Step definitions A (.named body name) c r
  | definition {name c r} (h : A (definitions.find name) c r) :
      Step definitions A (.definition name) c r
  | custom {name action c r} (h : action c = .value r) :
      Step definitions A (.custom name action) c r

end Parser

end Scannerless
