import Scannerless.Parser.Run

/-!
# Levels bound a run and nothing else

Main statement: a run that ends with some number of levels ends in the same way with every greater
number. So what a parser does can be spoken of without its levels, and the number that a grammar is
given matters only in that it is large.
-/
namespace Scannerless

namespace Outcome

/-- Holds where `x` is unfinished or says the same as `y`. -/
def Within {α : Type} (x y : Outcome α) : Prop :=
  x = .unfinished ∨ x = y

namespace Within

theorem refl {α : Type} (x : Outcome α) : x.Within x := .inr rfl

theorem unfinished {α : Type} (y : Outcome α) :
    (Outcome.unfinished : Outcome α).Within y := .inl rfl

theorem eq {α : Type} {x y : Outcome α} (h : x.Within y) (hx : x ≠ .unfinished) : y = x := by
  rcases h with h | h
  · exact absurd h hx
  · exact h.symm

theorem bind {α β : Type} {x y : Outcome α} {f g : α → Outcome β} (h : x.Within y)
    (hfg : ∀ a, (f a).Within (g a)) : (x >>= f).Within (y >>= g) := by
  rcases h with rfl | rfl
  · exact .inl rfl
  · cases x with
    | value a => exact hfg a
    | raised fault => exact .inr rfl
    | unfinished => exact .inl rfl

end Within

end Outcome

namespace Cursor

variable {π : Type} {attempt attempt' : π → Cursor → Outcome Cursor}

theorem runParts_within (h : ∀ p c, (attempt p c).Within (attempt' p c)) (dropNothing : Bool)
    (entry : Cursor) (parts : List π) (current : Cursor) (results : List Value) :
    (runParts attempt dropNothing entry parts current results).Within
      (runParts attempt' dropNothing entry parts current results) := by
  induction parts generalizing current results with
  | nil => exact .refl _
  | cons part rest ih =>
    rw [runParts_cons, runParts_cons]
    refine .bind (h part current) fun next => ?_
    split
    · exact .refl _
    · split
      · exact ih next results
      · exact ih next (next.result :: results)

theorem runAlternatives_within (h : ∀ p c, (attempt p c).Within (attempt' p c)) (entry : Cursor)
    (alternatives : List π) :
    (entry.runAlternatives attempt alternatives).Within
      (entry.runAlternatives attempt' alternatives) := by
  induction alternatives with
  | nil => exact .refl _
  | cons alternative rest ih =>
    rw [runAlternatives_cons, runAlternatives_cons]
    refine .bind (h alternative entry) fun next => ?_
    split
    · exact ih
    · exact .refl _

variable {body body' stop stop' : Cursor → Outcome Cursor}

theorem repeatAll_within (h : ∀ c, (body c).Within (body' c)) {steps steps' : Nat}
    (hsteps : steps ≤ steps') (current : Cursor) (results : List Value) :
    (repeatAll body steps current results).Within (repeatAll body' steps' current results) := by
  induction steps generalizing steps' current results with
  | zero => exact .unfinished _
  | succ steps ih =>
    obtain ⟨more, rfl⟩ : ∃ more, steps' = more + 1 := ⟨steps' - 1, by omega⟩
    rw [repeatAll_succ, repeatAll_succ]
    refine .bind (h current) fun next => ?_
    split
    · exact .refl _
    · exact ih (by omega) next (next.result :: results)

theorem repeatExactly_within (h : ∀ c, (body c).Within (body' c)) (count : Nat) (entry : Cursor)
    (left : Nat) (current : Cursor) (results : List Value) :
    (repeatExactly body count entry left current results).Within
      (repeatExactly body' count entry left current results) := by
  induction left generalizing current results with
  | zero => exact .refl _
  | succ left ih =>
    rw [repeatExactly_succ, repeatExactly_succ]
    refine .bind (h current) fun next => ?_
    split
    · exact .refl _
    · exact ih next (next.result :: results)

theorem repeatUpTo_within (h : ∀ c, (body c).Within (body' c)) (left : Nat) (current : Cursor)
    (results : List Value) :
    (repeatUpTo body left current results).Within (repeatUpTo body' left current results) := by
  induction left generalizing current results with
  | zero => exact .refl _
  | succ left ih =>
    rw [repeatUpTo_succ, repeatUpTo_succ]
    refine .bind (h current) fun next => ?_
    split
    · exact .refl _
    · exact ih next (next.result :: results)

theorem repeatUntil_within (hstop : ∀ c, (stop c).Within (stop' c))
    (h : ∀ c, (body c).Within (body' c)) {steps steps' : Nat} (hsteps : steps ≤ steps')
    (current : Cursor) (results : List Value) :
    (repeatUntil stop body steps current results).Within
      (repeatUntil stop' body' steps' current results) := by
  induction steps generalizing steps' current results with
  | zero => exact .unfinished _
  | succ steps ih =>
    obtain ⟨more, rfl⟩ : ∃ more, steps' = more + 1 := ⟨steps' - 1, by omega⟩
    rw [repeatUntil_succ, repeatUntil_succ]
    refine .bind (hstop current) fun stopped => ?_
    split
    · refine .bind (h current) fun next => ?_
      split
      · exact .refl _
      · exact ih (by omega) next (next.result :: results)
    · exact .refl _

end Cursor

namespace Parser

variable {definitions : Definitions} {attempt attempt' : Parser → Cursor → Outcome Cursor}

/-- One level says no less when its parts say no less and it may repeat them as often. -/
theorem runWith_within (h : ∀ p c, (attempt p c).Within (attempt' p c)) {steps steps' : Nat}
    (hsteps : steps ≤ steps') (parser : Parser) (cursor : Cursor) :
    (runWith definitions attempt steps parser cursor).Within
      (runWith definitions attempt' steps' parser cursor) := by
  cases parser with
  | sequence parts dropNothing => exact Cursor.runParts_within h dropNothing cursor parts cursor []
  | choice alternatives => exact Cursor.runAlternatives_within h cursor alternatives
  | chain first next =>
    refine .bind (h first cursor) fun matched => ?_
    split
    · exact .refl _
    · exact h _ _
  | many body =>
    exact .bind (Cursor.repeatAll_within (h body) hsteps cursor []) fun _ => .refl _
  | many1 body =>
    exact .bind (Cursor.repeatAll_within (h body) hsteps cursor []) fun _ => .refl _
  | exactly count body => exact Cursor.repeatExactly_within (h body) count cursor count cursor []
  | upTo count body =>
    simp only [runWith]
    split
    · exact .refl _
    · exact Cursor.repeatUpTo_within (h body) count cursor []
  | untilStop stop body => exact Cursor.repeatUntil_within (h stop) (h body) hsteps cursor []
  | optional body => exact .bind (h body cursor) fun _ => .refl _
  | peek body => exact .bind (h body cursor) fun _ => .refl _
  | map body transform => exact .bind (h body cursor) fun _ => .refl _
  | mapIndexed body transform => exact .bind (h body cursor) fun _ => .refl _
  | mapError body explain => exact .bind (h body cursor) fun _ => .refl _
  | tagged body label => exact .bind (h body cursor) fun _ => .refl _
  | named body name => exact h body cursor
  | definition name => exact h _ cursor
  | _ => exact .refl _

theorem runFor_within {levels more : Nat} (hle : levels ≤ more) (parser : Parser)
    (cursor : Cursor) :
    (runFor definitions levels parser cursor).Within (runFor definitions more parser cursor) := by
  induction levels generalizing more parser cursor with
  | zero => exact .unfinished _
  | succ levels ih =>
    obtain ⟨most, rfl⟩ : ∃ most, more = most + 1 := ⟨more - 1, by omega⟩
    simp only [runFor]
    split
    · exact .refl _
    · exact runWith_within (fun p c => ih (by omega) p c) (by omega) parser cursor

/-- A run that ends gives the same answer with any greater number of levels. -/
theorem runFor_eq_of_le {levels more : Nat} (hle : levels ≤ more) {parser : Parser}
    {cursor : Cursor} (hends : runFor definitions levels parser cursor ≠ .unfinished) :
    runFor definitions more parser cursor = runFor definitions levels parser cursor :=
  (runFor_within hle parser cursor).eq hends

end Parser

end Scannerless
