import Scannerless.Outcome
import Scannerless.Source

/-!
# Reading runes

A rune is read by looking at windows of one, two, three and four bytes until one of them decodes.
The source ends before the rune does exactly when a window comes back short.
-/
namespace Scannerless.Source

/-- Tries windows of the given widths in turn. -/
def probe (source : Source) (offset : Int) : (widths : List Nat) → Option (Char × Nat)
  | [] => some (Text.Utf8.replacementRune, 1)
  | width :: wider =>
    let bytes := source.read offset width
    if bytes.length < width then none
    else
      match Text.Utf8.decodeRune bytes with
      | some decoded => some decoded
      | none => probe source offset wider

/-- The rune at an offset and its width in bytes, or nothing where no complete rune is left. -/
def readRune (source : Source) (offset : Int) : Option (Char × Nat) :=
  probe source offset (List.range' 1 Text.Utf8.maxRuneBytes)

/-- Reads `count` more runes from an offset on; `runes` holds the earlier ones, last first. -/
def readRunesFrom (source : Source) :
    (count : Nat) → (offset : Int) → (runes : List Char) → Option (List Char × Int)
  | 0, offset, runes => some (runes.reverse, offset)
  | count + 1, offset, runes =>
    match source.readRune offset with
    | none => none
    | some (c, width) => readRunesFrom source count (offset + width) (c :: runes)

/-- The next `count` runes and the offset behind them, or nothing where fewer are left. -/
def readRunes (source : Source) (count : Nat) (offset : Int) : Option (List Char × Int) :=
  readRunesFrom source count offset []

/-- Reads accepted runes for at most `steps` runes; `runes` holds the earlier ones, last first. -/
def runesWhileFrom (source : Source) (accepts : Char → Outcome Bool) :
    (steps : Nat) → (offset : Int) → (runes : List Char) → Outcome (List Char × Int)
  | 0, offset, runes => return (runes.reverse, offset)
  | steps + 1, offset, runes =>
    match source.readRune offset with
    | none => return (runes.reverse, offset)
    | some (c, width) => do
      if ← accepts c then runesWhileFrom source accepts steps (offset + width) (c :: runes)
      else return (runes.reverse, offset)

/-- One step more goes on behind an accepted rune, and stops where there is none. -/
theorem runesWhileFrom_succ_eq_value_iff {source : Source} {accepts : Char → Outcome Bool}
    {steps : Nat} {offset : Int} {runes : List Char} {found : List Char × Int} :
    source.runesWhileFrom accepts (steps + 1) offset runes = .value found ↔
      (∃ c width, source.readRune offset = some (c, width) ∧ accepts c = .value true ∧
        source.runesWhileFrom accepts steps (offset + width) (c :: runes) = .value found) ∨
      ((∀ c width, source.readRune offset = some (c, width) → accepts c = .value false) ∧
        found = (runes.reverse, offset)) := by
  rw [runesWhileFrom]
  cases source.readRune offset with
  | none => simp [eq_comm]
  | some read =>
    obtain ⟨c, width⟩ := read
    rw [Outcome.bind_eq_value_iff]
    constructor
    · rintro ⟨accepted, haccepts, h⟩
      cases accepted with
      | true => exact .inl ⟨c, width, rfl, haccepts, h⟩
      | false =>
        refine .inr ⟨fun c' width' hread => ?_, (Outcome.value.inj h).symm⟩
        cases hread
        exact haccepts
    · rintro (⟨c', width', hread, haccepts, h⟩ | ⟨hrefused, rfl⟩)
      · cases hread
        exact ⟨true, haccepts, h⟩
      · exact ⟨false, hrefused c width rfl, rfl⟩

/-- The longest run of accepted runes and the offset behind it, or the fault of the predicate. Every
rune takes a byte at least, so there are never more of them than bytes. -/
def runesWhile (source : Source) (accepts : Char → Outcome Bool) (offset : Int) :
    Outcome (List Char × Int) :=
  runesWhileFrom source accepts source.size offset []

end Scannerless.Source
