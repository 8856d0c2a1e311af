import Scannerless.Cursor
import Scannerless.Outcome

/-!
# Sequences, choices and repetitions

How attempts are strung together. Everything here is about an `attempt` of which nothing is known
but that it takes a cursor to a cursor, that it may raise a fault, and that it may not finish.
Results are collected last first. A sequence and a repetition of fixed length that fail do so at
the cursor where they were entered.
-/
namespace Scannerless.Cursor

/-- The cursor with the collected results, at the offset of another. -/
def collect (cursor : Cursor) (results : List Value) (offset : Int) : Cursor :=
  cursor.withResult (.tuple results.reverse) offset

/-- Runs the parts of a sequence one after the other. The failure of a part is taken over with its
own offset. -/
def runParts {π : Type} (attempt : π → Cursor → Outcome Cursor) (dropNothing : Bool)
    (entry : Cursor) : List π → (current : Cursor) → (results : List Value) → Outcome Cursor
  | [], current, results => .value (entry.collect results current.offset)
  | part :: rest, current, results =>
    match attempt part current with
    | .value next =>
      match next.error with
      | some error => .value (entry.withError error)
      | none =>
        if dropNothing && next.result.isNothing then
          runParts attempt dropNothing entry rest next results
        else runParts attempt dropNothing entry rest next (next.result :: results)
    | .raised fault => .raised fault
    | .unfinished => .unfinished

/-- Runs alternatives from the same cursor until one succeeds. -/
def runAlternatives {π : Type} (attempt : π → Cursor → Outcome Cursor) (entry : Cursor) :
    List π → Outcome Cursor
  | [] => .value (entry.withError (.noChoiceMatched entry.offset))
  | alternative :: rest =>
    match attempt alternative entry with
    | .value next => if next.failed then runAlternatives attempt entry rest else .value next
    | .raised fault => .raised fault
    | .unfinished => .unfinished

/-- Repeats an attempt until it fails, for at most `steps` attempts. Gives the results and the last
cursor that had not failed. -/
def repeatAll (attempt : Cursor → Outcome Cursor) :
    (steps : Nat) → (current : Cursor) → (results : List Value) → Outcome (List Value × Cursor)
  | 0, _, _ => .unfinished
  | steps + 1, current, results =>
    match attempt current with
    | .value next =>
      if next.failed then .value (results, current)
      else repeatAll attempt steps next (next.result :: results)
    | .raised fault => .raised fault
    | .unfinished => .unfinished

/-- Repeats an attempt `left` more times. `count` is how many times that makes in all. -/
def repeatExactly (attempt : Cursor → Outcome Cursor) (count : Nat) (entry : Cursor) :
    (left : Nat) → (current : Cursor) → (results : List Value) → Outcome Cursor
  | 0, current, results => .value (entry.collect results current.offset)
  | left + 1, current, results =>
    match attempt current with
    | .value next =>
      if next.failed then .value (entry.withError (.repetitionCount count entry.offset))
      else repeatExactly attempt count entry left next (next.result :: results)
    | .raised fault => .raised fault
    | .unfinished => .unfinished

/-- Repeats an attempt until it fails or has succeeded `left` more times. A failure with no success
before it is the failure of the whole. -/
def repeatUpTo (attempt : Cursor → Outcome Cursor) :
    (left : Nat) → (current : Cursor) → (results : List Value) → Outcome Cursor
  | 0, current, results => .value (current.collect results current.offset)
  | left + 1, current, results =>
    match attempt current with
    | .value next =>
      if next.failed then
        if results.isEmpty then .value next else .value (current.collect results current.offset)
      else repeatUpTo attempt left next (next.result :: results)
    | .raised fault => .raised fault
    | .unfinished => .unfinished

/-- Repeats an attempt until `stop` succeeds, for at most `steps` attempts. If the attempt fails,
the failure is that of the last look at `stop`. -/
def repeatUntil (stop attempt : Cursor → Outcome Cursor) :
    (steps : Nat) → (current : Cursor) → (results : List Value) → Outcome Cursor
  | 0, _, _ => .unfinished
  | steps + 1, current, results =>
    match stop current with
    | .value stopped =>
      if stopped.failed then
        match attempt current with
        | .value next =>
          if next.failed then .value stopped
          else repeatUntil stop attempt steps next (next.result :: results)
        | .raised fault => .raised fault
        | .unfinished => .unfinished
      else .value (current.collect results current.offset)
    | .raised fault => .raised fault
    | .unfinished => .unfinished

/-! One round of each loop is an attempt and what is done with its cursor. -/

variable {π : Type} (attempt : π → Cursor → Outcome Cursor) (body stop : Cursor → Outcome Cursor)

theorem runParts_cons (dropNothing : Bool) (entry : Cursor) (part : π) (rest : List π)
    (current : Cursor) (results : List Value) :
    runParts attempt dropNothing entry (part :: rest) current results =
      attempt part current >>= fun next =>
        match next.error with
        | some error => .value (entry.withError error)
        | none =>
          if dropNothing && next.result.isNothing then
            runParts attempt dropNothing entry rest next results
          else runParts attempt dropNothing entry rest next (next.result :: results) := by
  rw [runParts]
  cases attempt part current <;> rfl

theorem runAlternatives_cons (entry : Cursor) (alternative : π) (rest : List π) :
    entry.runAlternatives attempt (alternative :: rest) =
      attempt alternative entry >>= fun next =>
        if next.failed then entry.runAlternatives attempt rest else .value next := by
  rw [runAlternatives]
  cases attempt alternative entry <;> rfl

theorem repeatAll_succ (steps : Nat) (current : Cursor) (results : List Value) :
    repeatAll body (steps + 1) current results =
      body current >>= fun next =>
        if next.failed then .value (results, current)
        else repeatAll body steps next (next.result :: results) := by
  rw [repeatAll]
  cases body current <;> rfl

variable {body} in
theorem repeatAll_stops {current f : Cursor} (h : body current = .value f) (hf : f.failed = true)
    (steps : Nat) (results : List Value) :
    repeatAll body (steps + 1) current results = .value (results, current) := by
  rw [repeatAll_succ, h, Outcome.value_bind, if_pos hf]

variable {body} in
theorem repeatAll_goesOn {current next : Cursor} (h : body current = .value next)
    (hnext : next.failed = false) (steps : Nat) (results : List Value) :
    repeatAll body (steps + 1) current results =
      repeatAll body steps next (next.result :: results) := by
  rw [repeatAll_succ, h, Outcome.value_bind, if_neg (by simp [hnext])]

theorem repeatExactly_succ (count : Nat) (entry : Cursor) (left : Nat) (current : Cursor)
    (results : List Value) :
    repeatExactly body count entry (left + 1) current results =
      body current >>= fun next =>
        if next.failed then .value (entry.withError (.repetitionCount count entry.offset))
        else repeatExactly body count entry left next (next.result :: results) := by
  rw [repeatExactly]
  cases body current <;> rfl

theorem repeatUpTo_succ (left : Nat) (current : Cursor) (results : List Value) :
    repeatUpTo body (left + 1) current results =
      body current >>= fun next =>
        if next.failed then
          if results.isEmpty then .value next else .value (current.collect results current.offset)
        else repeatUpTo body left next (next.result :: results) := by
  rw [repeatUpTo]
  cases body current <;> rfl

theorem repeatUntil_succ (steps : Nat) (current : Cursor) (results : List Value) :
    repeatUntil stop body (steps + 1) current results =
      stop current >>= fun stopped =>
        if stopped.failed then
          body current >>= fun next =>
            if next.failed then .value stopped
            else repeatUntil stop body steps next (next.result :: results)
        else .value (current.collect results current.offset) := by
  rw [repeatUntil]
  cases stop current with
  | value stopped => cases body current <;> rfl
  | raised fault => rfl
  | unfinished => rfl

end Scannerless.Cursor
