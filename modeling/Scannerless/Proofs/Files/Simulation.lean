import Scannerless.Proofs.Files.Following
import Scannerless.Proofs.Files.KeepingSource

/-!
# A parse through a handle follows the parse over the bytes

The matchers follow, and what is put together from parsers that follow does too. By induction on the
levels a whole run through the handle comes to the same cursor or the same fault as the run over the
bytes, from every position of the handle.
-/
namespace Scannerless.Handled

variable {source : Source}

/-- `x` through a handle follows `y` from every cursor of the source, and `y` stays on the
source. -/
structure Mirrors (source : Source) (x : Cursor → Handled Cursor) (y : Cursor → Outcome Cursor) :
    Prop where
  follows : ∀ c, c.source = source → Follows source (x c) (y c)
  keeps : ∀ c r, c.source = source → y c = .value r → r.source = source

theorem Mirrors.bind {β : Type} {x : Cursor → Handled Cursor} {y : Cursor → Outcome Cursor}
    {f : Cursor → Handled β} {g : Cursor → Outcome β} (h : Mirrors source x y) {c : Cursor}
    (hc : c.source = source) (hf : ∀ r, r.source = source → Follows source (f r) (g r)) :
    Follows source (x c >>= f) (y c >>= g) :=
  (h.follows c hc).bind fun r hr => hf r (h.keeps c r hc hr)

/-- Only the answer is worked on behind the parser. -/
theorem Mirrors.map {β : Type} {x : Cursor → Handled Cursor} {y : Cursor → Outcome Cursor}
    (h : Mirrors source x y) {c : Cursor} (hc : c.source = source) (f : Cursor → β) :
    Follows source (x c >>= fun r => pure (f r)) (y c >>= fun r => pure (f r)) :=
  h.bind hc fun _ _ => .pure _

section Loops

variable {attempt' : Parser → Cursor → Handled Cursor} {attempt : Parser → Cursor → Outcome Cursor}
  {body' stop' : Cursor → Handled Cursor} {body stop : Cursor → Outcome Cursor} {current : Cursor}

theorem runParts_follows {parts : List Parser}
    (h : ∀ part ∈ parts, Mirrors source (attempt' part) (attempt part)) (dropNothing : Bool)
    (entry : Cursor) (results : List Value) (hcurrent : current.source = source) :
    Follows source (runParts attempt' dropNothing entry parts current results)
      (Cursor.runParts attempt dropNothing entry parts current results) := by
  induction parts generalizing current results with
  | nil => exact .pure _
  | cons part rest ih =>
    obtain ⟨hpart, hrest⟩ := List.forall_mem_cons.mp h
    rw [runParts, Cursor.runParts_cons]
    refine hpart.bind hcurrent fun next hnext => ?_
    cases next.error with
    | some error => exact .pure _
    | none =>
      simp only
      split
      · exact ih hrest results hnext
      · exact ih hrest (next.result :: results) hnext

theorem runAlternatives_follows {alternatives : List Parser}
    (h : ∀ alternative ∈ alternatives, Mirrors source (attempt' alternative) (attempt alternative))
    (hcurrent : current.source = source) :
    Follows source (runAlternatives attempt' current alternatives)
      (current.runAlternatives attempt alternatives) := by
  induction alternatives with
  | nil => exact .pure _
  | cons alternative rest ih =>
    obtain ⟨halternative, hrest⟩ := List.forall_mem_cons.mp h
    rw [runAlternatives, Cursor.runAlternatives_cons]
    refine halternative.bind hcurrent fun next _ => ?_
    split
    · exact ih hrest
    · exact .pure _

variable (h : Mirrors source body' body)
include h

theorem repeatAll_follows (steps : Nat) (results : List Value)
    (hcurrent : current.source = source) :
    Follows source (repeatAll body' steps current results)
      (Cursor.repeatAll body steps current results) := by
  induction steps generalizing current results with
  | zero => exact .lift _
  | succ steps ih =>
    rw [repeatAll, Cursor.repeatAll_succ]
    refine h.bind hcurrent fun next hnext => ?_
    split
    · exact .pure _
    · exact ih (next.result :: results) hnext

theorem repeatExactly_follows (count : Nat) (entry : Cursor) (left : Nat) (results : List Value)
    (hcurrent : current.source = source) :
    Follows source (repeatExactly body' count entry left current results)
      (Cursor.repeatExactly body count entry left current results) := by
  induction left generalizing current results with
  | zero => exact .pure _
  | succ left ih =>
    rw [repeatExactly, Cursor.repeatExactly_succ]
    refine h.bind hcurrent fun next hnext => ?_
    split
    · exact .pure _
    · exact ih (next.result :: results) hnext

theorem repeatUpTo_follows (left : Nat) (results : List Value)
    (hcurrent : current.source = source) :
    Follows source (repeatUpTo body' left current results)
      (Cursor.repeatUpTo body left current results) := by
  induction left generalizing current results with
  | zero => exact .pure _
  | succ left ih =>
    rw [repeatUpTo, Cursor.repeatUpTo_succ]
    refine h.bind hcurrent fun next hnext => ?_
    split
    · split <;> exact .pure _
    · exact ih (next.result :: results) hnext

theorem repeatUntil_follows (hstop : Mirrors source stop' stop) (steps : Nat) (results : List Value)
    (hcurrent : current.source = source) :
    Follows source (repeatUntil stop' body' steps current results)
      (Cursor.repeatUntil stop body steps current results) := by
  induction steps generalizing current results with
  | zero => exact .lift _
  | succ steps ih =>
    rw [repeatUntil, Cursor.repeatUntil_succ]
    refine hstop.bind hcurrent fun stopped _ => ?_
    split
    · refine h.bind hcurrent fun next hnext => ?_
      split
      · exact .pure _
      · exact ih (next.result :: results) hnext
    · exact .pure _

end Loops

variable {drift : OpenFile → Cursor → Nat} {definitions : Definitions}

/-- One level through the handle follows the same level over the bytes. -/
theorem runWith_follows {attempt' : Parser → Cursor → Handled Cursor}
    {attempt : Parser → Cursor → Outcome Cursor} {p : Parser} {c : Cursor} (steps : Nat)
    (h : ∀ q, Parser.Calls definitions p q → Mirrors source (attempt' q) (attempt q))
    (hc : c.source = source) :
    Follows source (runWith drift definitions attempt' steps p c)
      (p.runWith definitions attempt steps c) := by
  cases p with
  | rune accepts complaint what => exact matchRune_follows hc accepts complaint what
  | runes accepts complaint what => exact matchRunes_follows hc accepts complaint what
  | runeCount count => exact matchRuneCount_follows hc count
  | literal text => exact matchLiteral_follows hc text
  | foldedLiteral text => exact matchFoldedLiteral_follows hc text
  | endOfInput => exact matchEndOfInput_follows hc
  | startOfLine => exact matchStartOfLine_follows hc
  | succeed | fail | startOfInput => exact .pure _
  | sequence parts dropNothing =>
    exact runParts_follows (fun part hmem => h part (.sequence hmem)) dropNothing c [] hc
  | choice alternatives => exact runAlternatives_follows (fun q hmem => h q (.choice hmem)) hc
  | chain first next =>
    refine (h first .chainFirst).bind hc fun matched hmatched => ?_
    split
    · exact .pure _
    · exact (h _ (.chainNext _)).follows matched hmatched
  | many body =>
    exact (repeatAll_follows (h body .many) steps [] hc).bind fun _ _ => .pure _
  | many1 body =>
    refine (repeatAll_follows (h body .many1) steps [] hc).bind fun found _ => ?_
    simp only
    split <;> exact .pure _
  | exactly count body => exact repeatExactly_follows (h body .exactly) count c count [] hc
  | upTo count body =>
    simp only [runWith, Parser.runWith]
    split
    · exact .pure _
    · exact repeatUpTo_follows (h body .upTo) count [] hc
  | untilStop stop body =>
    exact repeatUntil_follows (h body .untilBody) (h stop .untilStop) steps [] hc
  | optional body => exact (h body .optional).map hc _
  | peek body => exact (h body .peek).map hc _
  | map body transform =>
    refine (h body .map).bind hc fun matched _ => ?_
    split
    · exact .pure _
    · exact (Follows.lift _).bind fun _ _ => .pure _
  | mapIndexed body transform =>
    refine (h body .mapIndexed).bind hc fun matched _ => ?_
    split
    · exact .pure _
    · exact (Follows.lift _).bind fun _ _ => .pure _
  | mapError body explain =>
    refine (h body .mapError).bind hc fun matched hmatched => ?_
    split
    · exact (call_follows hmatched).bind fun _ _ => .pure _
    · exact .pure _
  | tagged body label =>
    refine (h body .tagged).bind hc fun matched _ => ?_
    split
    · exact .pure _
    · exact (Follows.lift _).bind fun _ _ => .pure _
  | named body name => exact (h body .named).follows c hc
  | definition name => exact (h _ .definition).follows c hc
  | custom name action => exact call_follows hc
  | invalid fault => exact .lift _

/-- A whole run through the handle follows the run over the bytes. -/
theorem runFor_mirrors {p : Parser} (hp : p.Throughout definitions Parser.KeepsSource)
    (levels : Nat) :
    Mirrors source (runFor drift definitions levels p) (p.runFor definitions levels) where
  follows := by
    induction levels generalizing p with
    | zero => exact fun _ _ => .lift _
    | succ levels ih =>
      intro c hc
      simp only [runFor, Parser.runFor]
      split
      · exact .pure _
      · refine runWith_follows levels (fun q hq => ⟨ih (hp.call hq), fun c r hc hr => ?_⟩) hc
        exact (Parser.run_keeps_source (hp.call hq) hr).trans hc
  keeps := fun _ _ hc hr => (Parser.run_keeps_source hp hr).trans hc

end Scannerless.Handled
