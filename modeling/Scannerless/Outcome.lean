import Scannerless.Fault

/-!
# Outcomes of a run

A run ends with a value or a fault, or it has used up the steps it was given and says nothing. That
the steps ran out is neither success nor failure, so it is kept apart from both.
-/
namespace Scannerless

/-- How a run of bounded length came out. -/
inductive Outcome (α : Type) where
  | value (a : α)
  | raised (fault : Fault)
  | unfinished
  deriving Repr

namespace Outcome

/-- Goes on with the value, if there is one. -/
@[inline]
def bind {α β : Type} (x : Outcome α) (f : α → Outcome β) : Outcome β :=
  match x with
  | .value a => f a
  | .raised fault => .raised fault
  | .unfinished => .unfinished

instance : Monad Outcome where
  pure := Outcome.value
  bind := Outcome.bind

/-- The outcome of an operation that always finishes. -/
@[inline]
def ofExcept {α : Type} : Except Fault α → Outcome α
  | .ok a => .value a
  | .error fault => .raised fault

@[simp] theorem pure_eq {α : Type} (a : α) : (pure a : Outcome α) = .value a := rfl

@[simp] theorem value_bind {α β : Type} (a : α) (f : α → Outcome β) :
    (Outcome.value a >>= f) = f a := rfl

@[simp] theorem raised_bind {α β : Type} (fault : Fault) (f : α → Outcome β) :
    (Outcome.raised fault >>= f) = .raised fault := rfl

@[simp] theorem unfinished_bind {α β : Type} (f : α → Outcome β) :
    (Outcome.unfinished >>= f) = .unfinished := rfl

@[simp] theorem ofExcept_ok {α : Type} (a : α) : ofExcept (.ok a : Except Fault α) = .value a := rfl

@[simp] theorem ofExcept_error {α : Type} (fault : Fault) :
    ofExcept (.error fault : Except Fault α) = .raised fault := rfl

variable {α β γ δ : Type}

/-- A composed run has a value exactly when both parts have one. -/
theorem bind_eq_value_iff {x : Outcome α} {f : α → Outcome β} {b : β} :
    (x >>= f) = .value b ↔ ∃ a, x = .value a ∧ f a = .value b := by
  cases x <;> simp

theorem bind_eq_raised_iff {x : Outcome α} {f : α → Outcome β} {fault : Fault} :
    (x >>= f) = .raised fault ↔ x = .raised fault ∨ ∃ a, x = .value a ∧ f a = .raised fault := by
  cases x <;> simp

theorem ofExcept_eq_value_iff {x : Except Fault α} {a : α} :
    ofExcept x = .value a ↔ x = .ok a := by
  cases x <;> simp

theorem ofExcept_eq_raised_iff {x : Except Fault α} {fault : Fault} :
    ofExcept x = .raised fault ↔ x = .error fault := by
  cases x <;> simp

/-- Both say a value, and the values are related, or both end in the same way without one. -/
inductive Alike (R : α → β → Prop) : Outcome α → Outcome β → Prop where
  | value {a : α} {b : β} (h : R a b) : Alike R (.value a) (.value b)
  | raised (fault : Fault) : Alike R (.raised fault) (.raised fault)
  | unfinished : Alike R .unfinished .unfinished

namespace Alike

variable {R : α → β → Prop} {S : γ → δ → Prop} {x : Outcome α} {y : Outcome β}

theorem bind {f : α → Outcome γ} {g : β → Outcome δ} (h : Alike R x y)
    (hfg : ∀ a b, R a b → Alike S (f a) (g b)) : Alike S (x >>= f) (y >>= g) := by
  cases h with
  | value hab => exact hfg _ _ hab
  | raised fault => exact .raised fault
  | unfinished => exact .unfinished

theorem refl (x : Outcome α) : Alike Eq x x := by
  cases x with
  | value a => exact .value rfl
  | raised fault => exact .raised fault
  | unfinished => exact .unfinished

theorem raised_iff (h : Alike R x y) (fault : Fault) : x = .raised fault ↔ y = .raised fault := by
  cases h <;> simp

theorem unfinished_iff (h : Alike R x y) : x = .unfinished ↔ y = .unfinished := by
  cases h <;> simp

theorem related (h : Alike R x y) {a : α} {b : β} (hx : x = .value a) (hy : y = .value b) :
    R a b := by
  cases h with
  | value hab =>
    obtain rfl := Outcome.value.inj hx
    obtain rfl := Outcome.value.inj hy
    exact hab
  | raised => cases hx
  | unfinished => cases hx

theorem exists_of_value {a : α} (h : Alike R (.value a) y) : ∃ b, y = .value b ∧ R a b := by
  cases h with
  | value hab => exact ⟨_, rfl, hab⟩

end Alike

end Outcome

end Scannerless
