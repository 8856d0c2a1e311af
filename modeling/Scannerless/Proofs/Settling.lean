import Scannerless.Parser.Levels

/-!
# Runs that come to an end

A run with levels settles if it ends from some number of levels on, and always in the same way. Runs
that settle are put together like the runs themselves, so that a loop or a level is shown to end
part by part.
-/
namespace Scannerless

namespace Outcome

/-- Not unfinished, and `P` holds of the value if there is one. -/
def Satisfies {α : Type} (P : α → Prop) : Outcome α → Prop
  | value a => P a
  | raised _ => True
  | unfinished => False

theorem pure_ne_unfinished {α : Type} (a : α) : (pure a : Outcome α) ≠ .unfinished := by
  intro h
  cases h

theorem bind_ne_unfinished {α β : Type} {x : Outcome α} {f : α → Outcome β} (hx : x ≠ .unfinished)
    (hf : ∀ a, f a ≠ .unfinished) : (x >>= f) ≠ .unfinished := by
  cases x with
  | value a => exact hf a
  | raised fault =>
    rw [raised_bind]
    intro h
    cases h
  | unfinished => exact absurd rfl hx

theorem matchRune_ne_unfinished {accepts : Char → Outcome Bool} (h : ∀ c, accepts c ≠ .unfinished)
    (complaint : Option Complaint) (what : String) (cursor : Cursor) :
    cursor.matchRune accepts complaint what ≠ .unfinished := by
  rw [Cursor.matchRune]
  split
  · exact pure_ne_unfinished _
  · refine bind_ne_unfinished (h _) fun accepted => ?_
    split <;> exact pure_ne_unfinished _

theorem runesWhileFrom_ne_unfinished {accepts : Char → Outcome Bool}
    (h : ∀ c, accepts c ≠ .unfinished) (source : Source) (steps : Nat) (offset : Int)
    (runes : List Char) : source.runesWhileFrom accepts steps offset runes ≠ .unfinished := by
  induction steps generalizing offset runes with
  | zero => exact pure_ne_unfinished _
  | succ steps ih =>
    rw [Source.runesWhileFrom]
    split
    · exact pure_ne_unfinished _
    · refine bind_ne_unfinished (h _) fun accepted => ?_
      split
      · exact ih _ _
      · exact pure_ne_unfinished _

theorem matchRunes_ne_unfinished {accepts : Char → Outcome Bool} (h : ∀ c, accepts c ≠ .unfinished)
    (complaint : Option Complaint) (what : String) (cursor : Cursor) :
    cursor.matchRunes accepts complaint what ≠ .unfinished := by
  refine bind_ne_unfinished (runesWhileFrom_ne_unfinished h _ _ _ _) fun found => ?_
  split <;> exact pure_ne_unfinished _

/-- From some number of levels on, all runs end and end in the same way, with `P`. -/
def Settles {α : Type} (f : Nat → Outcome α) (P : α → Prop) : Prop :=
  ∃ levels x, x.Satisfies P ∧ ∀ more, levels ≤ more → f more = x

namespace Settles

variable {α β : Type} {f : Nat → Outcome α} {P : α → Prop}

theorem const {x : Outcome α} (h : x.Satisfies P) : Settles (fun _ => x) P :=
  ⟨0, x, h, fun _ _ => rfl⟩

theorem value {a : α} (h : P a) : Settles (fun _ => .value a) P :=
  const h

theorem of_ne {x : Outcome α} (h : x ≠ .unfinished) : Settles (fun _ => x) fun _ => True := by
  cases x with
  | value | raised => exact const trivial
  | unfinished => exact absurd rfl h

/-- What holds of every value that the runs give holds of the value they settle on. -/
theorem imp {Q : α → Prop} (h : Settles f P) (hQ : ∀ levels a, f levels = .value a → Q a) :
    Settles f Q := by
  obtain ⟨levels, x, hx, hlevels⟩ := h
  refine ⟨levels, x, ?_, hlevels⟩
  cases x with
  | value a => exact hQ levels a (hlevels levels (Nat.le_refl levels))
  | raised => trivial
  | unfinished => exact hx

theorem bind {g : Nat → α → Outcome β} {Q : β → Prop} (hf : Settles f P)
    (hg : ∀ a, P a → Settles (fun levels => g levels a) Q) :
    Settles (fun levels => f levels >>= g levels) Q := by
  obtain ⟨levels, x, hx, hlevels⟩ := hf
  cases x with
  | unfinished => exact hx.elim
  | raised fault =>
    refine ⟨levels, .raised fault, trivial, fun more hmore => ?_⟩
    show f more >>= g more = _
    rw [hlevels more hmore, raised_bind]
  | value a =>
    obtain ⟨further, y, hy, hfurther⟩ := hg a hx
    refine ⟨max levels further, y, hy, fun more hmore => ?_⟩
    show f more >>= g more = _
    rw [hlevels more (by omega), value_bind]
    exact hfurther more (by omega)

/-- One level more on both sides. -/
theorem of_succ (h : Settles (fun levels => f (levels + 1)) P) : Settles f P := by
  obtain ⟨levels, x, hx, hlevels⟩ := h
  refine ⟨levels + 1, x, hx, fun more hmore => ?_⟩
  obtain ⟨less, rfl⟩ : ∃ less, more = less + 1 := ⟨more - 1, by omega⟩
  exact hlevels less (by omega)

/-- Runs that say no less, from some level on, settle where the others do. -/
theorem of_within {g : Nat → Outcome α} (h : Settles f P) (start : Nat)
    (hwithin : ∀ levels, start ≤ levels → (f levels).Within (g levels)) : Settles g P := by
  obtain ⟨levels, x, hx, hlevels⟩ := h
  refine ⟨max levels start, x, hx, fun more hmore => ?_⟩
  have hsame := hlevels more (by omega)
  have hends : f more ≠ .unfinished := by
    rw [hsame]
    rintro rfl
    exact hx
  rw [(hwithin more (by omega)).eq hends, hsame]

end Settles

end Outcome

namespace Parser

open Outcome

/-- The runs of a level come to an end; what they say is not asked. -/
def Ends {α : Type} (f : Nat → Outcome α) : Prop := Settles f fun _ => True

theorem Ends.bind {α β : Type} {f : Nat → Outcome α} {g : Nat → α → Outcome β} (hf : Ends f)
    (hg : ∀ a, (∃ levels, f levels = .value a) → Ends fun levels => g levels a) :
    Ends fun levels => f levels >>= g levels :=
  Settles.bind (hf.imp fun levels _ ha => ⟨levels, ha⟩) hg

theorem Ends.value {α : Type} (a : α) : Ends fun _ => .value a :=
  Settles.value trivial

/-- Whatever is done with the value of a run, as long as it ends. -/
theorem Ends.with {α β : Type} {f : Nat → Outcome α} {g : α → Outcome β} (hf : Ends f)
    (hg : ∀ a, g a ≠ .unfinished) : Ends fun levels => f levels >>= g :=
  hf.bind fun a _ => .of_ne (hg a)

/-- The author's functions that a parser holds come to an end, with an answer or a fault. -/
def CallbacksEnd : Parser → Prop
  | rune accepts _ _ | runes accepts _ _ => ∀ c, accepts c ≠ .unfinished
  | map _ transform => ∀ v, transform v ≠ .unfinished
  | mapIndexed _ transform => ∀ v o, transform v o ≠ .unfinished
  | mapError _ explain => ∀ f, explain f ≠ .unfinished
  | _ => True

end Parser

end Scannerless
