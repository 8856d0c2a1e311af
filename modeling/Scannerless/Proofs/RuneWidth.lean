import Scannerless.Proofs.StrictDecoding
import Scannerless.Source.Rune

/-!
# Reading runes stays inside the source

Main statements: a rune that is read starts at an offset of the source, takes at least one byte and
ends inside the source; and a run of accepted runes is as long as it can be, since more steps than
there are bytes find no more runes.
-/
namespace Scannerless.Source

theorem length_read_le (source : Source) (offset length : Int) :
    (source.read offset length).length ≤ source.size - offset.toNat := by
  rw [source.read_eq, length_window, size]
  split <;> omega

theorem read_of_neg (source : Source) {offset : Int} (h : offset < 0) (length : Int) :
    source.read offset length = [] := by
  rw [source.read_eq, window, if_pos (.inl h)]

theorem readRune_of_neg (source : Source) {offset : Int} (h : offset < 0) :
    source.readRune offset = none := by
  simp [readRune, Text.Utf8.maxRuneBytes, List.range', probe, source.read_of_neg h]

theorem probe_width {source : Source} {offset : Int} {c : Char} {width : Nat} :
    ∀ {widths : List Nat}, 0 < (source.read offset 1).length →
      source.probe offset widths = some (c, width) →
      0 < width ∧ width ≤ source.size - offset.toNat
  | [], hone, h => by
    have hle := source.length_read_le offset 1
    simp only [probe, Option.some.injEq, Prod.mk.injEq] at h
    omega
  | first :: wider, hone, h => by
    have hle := source.length_read_le offset first
    rw [probe] at h
    split at h
    · cases h
    · split at h
      next decoded hdecoded =>
        rw [Option.some.inj h] at hdecoded
        obtain ⟨hpos, hwidth⟩ := Text.Utf8.decodeRune_width hdecoded
        omega
      · exact probe_width hone h

/-- A rune that is read lies inside the source and takes a byte at least. -/
theorem readRune_bounds {source : Source} {offset : Int} {c : Char} {width : Nat}
    (h : source.readRune offset = some (c, width)) :
    0 ≤ offset ∧ 0 < width ∧ offset + width ≤ source.size := by
  by_cases hoffset : offset < 0
  · rw [source.readRune_of_neg hoffset] at h
    cases h
  · have hone : 0 < (source.read offset 1).length := by
      refine Nat.pos_of_ne_zero fun hzero => ?_
      have hempty : source.read offset 1 = [] := List.length_eq_zero_iff.mp hzero
      simp [readRune, Text.Utf8.maxRuneBytes, List.range', probe, hempty] at h
    obtain ⟨hpos, hwidth⟩ := probe_width hone h
    omega

theorem runesWhileFrom_eq_of_le {source : Source} {accepts : Char → Outcome Bool} {steps more : Nat}
    (hle : steps ≤ more) {offset : Int} (henough : (source.size : Int) ≤ offset + steps)
    (runes : List Char) :
    source.runesWhileFrom accepts more offset runes =
      source.runesWhileFrom accepts steps offset runes := by
  induction steps generalizing more offset runes with
  | zero =>
    cases more with
    | zero => rfl
    | succ more =>
      have hnone : source.readRune offset = none := by
        cases hread : source.readRune offset with
        | none => rfl
        | some found =>
          have := readRune_bounds hread
          omega
      simp [runesWhileFrom, hnone]
  | succ steps ih =>
    obtain ⟨most, rfl⟩ : ∃ most, more = most + 1 := ⟨more - 1, by omega⟩
    simp only [runesWhileFrom]
    cases hread : source.readRune offset with
    | none => rfl
    | some found =>
      have hbounds := readRune_bounds hread
      refine congrArg (accepts found.1 >>= ·) (funext fun accepted => ?_)
      split
      · exact ih (by omega) (by omega) _
      · rfl

/-- More steps than there are bytes find no more runes. -/
theorem runesWhile_eq_of_size_le {source : Source} (accepts : Char → Outcome Bool) {steps : Nat}
    (hsteps : source.size ≤ steps) {offset : Int} (hoffset : 0 ≤ offset) :
    source.runesWhileFrom accepts steps offset [] = source.runesWhile accepts offset :=
  runesWhileFrom_eq_of_le hsteps (by omega) []

end Scannerless.Source
