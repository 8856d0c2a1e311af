import Scannerless.Diagnostic
import Scannerless.Proofs.QuotedString.Grammar
import Scannerless.Proofs.Runes

/-!
# What is wrong with a quoted string

The mistakes that can stand where an item or the closing quote should, each with what is to be said
of it and where. A backslash starts either an escape or one of the mistakes. Nothing here knows of
parsers.
-/
namespace Scannerless.QuotedString

open Text.Utf8

variable {source : Source} {i o e : Int} {d : Diagnostic} {c : Char} {w v : Nat} {ds : List Char}

/-- Four hexadecimal digits and the number that they write. -/
inductive FourDigits : List Char → Nat → Prop where
  | intro {a b c d : Char} {i j k l : Nat} (ha : HexDigit a i) (hb : HexDigit b j)
    (hc : HexDigit c k)
      (hd : HexDigit d l) : FourDigits [a, b, c, d] (((i * 16 + j) * 16 + k) * 16 + l)

/-- `BadEscape source i d`: the backslash at `i` starts no escape, for the reason `d`. -/
inductive BadEscape (source : Source) (i : Int) : Diagnostic → Prop where
  | noRune (h : source.readRune (i + 1) = none) :
      BadEscape source i (.runeMismatch (i + 1) "any rune")
  | fewDigits (hu : source.readRune (i + 1) = some ('u', 1))
      (h : ∀ ds v e, FourDigits ds v → ¬ source.Runes (i + 2) ds e) :
      BadEscape source i
        ⟨"Invalid Unicode escape (expected 4 hex digits)", i + 2, ["0-9", "a-f", "A-F"], none⟩
  | surrogate {ds : List Char} {v : Nat} (hu : source.readRune (i + 1) = some ('u', 1))
      (hds : FourDigits ds v) (hruns : source.Runes (i + 2) ds (i + 6)) (hlow : 0xD800 ≤ v)
      (hhigh : v ≤ 0xDFFF) :
      BadEscape source i
        ⟨"Invalid surrogate code point: U+" ++ String.ofList (ds.map Char.toUpper), i + 6, [], none⟩
  | letter {r : Char} {w : Nat} (hread : source.readRune (i + 1) = some (r, w)) (hu : r ≠ 'u')
      (h : ∀ ch, ¬ Escape ['\\', r] ch) :
      BadEscape source i ⟨"Invalid escape sequence: \\" ++ String.singleton r, i + 1 + w, [], none⟩

/-- `BrokenOff source i d`: neither an item nor the closing quote stands at `i`, for the reason
`d`. -/
inductive BrokenOff (source : Source) (i : Int) : Diagnostic → Prop where
  | escape {d : Diagnostic} (hslash : source.readRune i = some ('\\', 1))
      (h : BadEscape source i d) : BrokenOff source i d
  | unterminated (hslash : source.readRune i ≠ some ('\\', 1)) :
      BrokenOff source i ⟨"Unterminated string literal", i, ["\""], none⟩

/-- The longest run of items behind the opening quote ends at `i`. -/
structure ItemsEnd (source : Source) (i : Int) : Prop where
  opened : source.readRune 0 = some ('"', 1)
  reached : ∃ ws cs, source.Runes 1 ws i ∧ Items ws cs
  longest : ∀ ws cs e, source.Runes 1 ws e → Items ws cs → e ≤ i

/-- `Diagnosis source d`: the source is not a quoted string from end to end, for the reason `d`. -/
inductive Diagnosis (source : Source) : Diagnostic → Prop where
  | unopened (h : source.readRune 0 ≠ some ('"', 1)) : Diagnosis source (.literalMismatch "\"" 0)
  | brokenOff {i : Int} {d : Diagnostic} (h : ItemsEnd source i)
      (hquote : source.readRune i ≠ some ('"', 1)) (hd : BrokenOff source i d) : Diagnosis source d
  | behind {i : Int} (h : ItemsEnd source i) (hquote : source.readRune i = some ('"', 1))
      (hmore : i + 1 < source.size) : Diagnosis source (.expectedEndOfInput (i + 1))

theorem readRune_width (hc : c ≠ replacementRune) (h : source.readRune o = some (c, w)) :
    w = (String.utf8EncodeChar c).length :=
  ((Source.readRune_eq_some_iff (Source.readRune_bounds h).1 hc).mp h).1

theorem readRune_ne (hc : c ≠ replacementRune)
    (h : source.readRune o ≠ some (c, (String.utf8EncodeChar c).length)) (w : Nat) :
    source.readRune o ≠ some (c, w) := by
  intro hread
  rw [readRune_width hc hread] at hread
  exact h hread

theorem HexDigit.width (h : HexDigit c v) (hread : source.readRune o = some (c, w)) : w = 1 := by
  have hascii : c ≠ replacementRune ∧ (String.utf8EncodeChar c).length = 1 := by
    cases h with
    | decimal hi =>
      exact (by decide : ∀ i < 10, Char.ofNat ('0'.toNat + i) ≠ replacementRune ∧
        (String.utf8EncodeChar (Char.ofNat ('0'.toNat + i))).length = 1) _ hi
    | lower hi =>
      exact (by decide : ∀ i < 6, Char.ofNat ('a'.toNat + i) ≠ replacementRune ∧
        (String.utf8EncodeChar (Char.ofNat ('a'.toNat + i))).length = 1) _ hi
    | upper hi =>
      exact (by decide : ∀ i < 6, Char.ofNat ('A'.toNat + i) ≠ replacementRune ∧
        (String.utf8EncodeChar (Char.ofNat ('A'.toNat + i))).length = 1) _ hi
  rw [readRune_width hascii.1 hread, hascii.2]

/-- Hexadecimal digits take a byte each. -/
theorem FourDigits.runes_end (h : FourDigits ds v) (hruns : source.Runes o ds e) : e = o + 4 := by
  cases h with
  | intro ha hb hc hd =>
    cases hruns with
    | cons hread₁ hrest =>
      cases hrest with
      | cons hread₂ hrest =>
        cases hrest with
        | cons hread₃ hrest =>
          cases hrest with
          | cons hread₄ hrest =>
            cases hrest
            obtain rfl := ha.width hread₁
            obtain rfl := hb.width hread₂
            obtain rfl := hc.width hread₃
            obtain rfl := hd.width hread₄
            omega

/-- A backslash that starts no escape starts a mistake. -/
theorem exists_badEscape (hslash : source.readRune i = some ('\\', 1))
    (h : ∀ ws e ch, source.Runes i ws e → ¬ Escape ws ch) : ∃ d, BadEscape source i d := by
  cases hnext : source.readRune (i + 1) with
  | none => exact ⟨_, .noRune hnext⟩
  | some rune =>
    obtain ⟨r, w⟩ := rune
    by_cases hu : r = 'u'
    · subst hu
      obtain rfl : w = 1 := readRune_width (by decide) hnext
      by_cases hdigits : ∃ ds v e, FourDigits ds v ∧ source.Runes (i + 2) ds e
      · obtain ⟨ds, v, e, hds, hruns⟩ := hdigits
        obtain rfl : e = i + 6 := by
          have hend := hds.runes_end hruns
          omega
        -- The digits are there, so what is wrong is their value.
        have hrange : 0xD800 ≤ v ∧ v ≤ 0xDFFF := by
          refine Decidable.byContradiction fun hrange => ?_
          have hescape : Escape ('\\' :: 'u' :: ds) (Char.ofNat v) := by
            cases hds with
            | intro ha hb hc hd => exact .codePoint ha hb hc hd rfl (by omega)
          have hbehind : i + ((1 : Nat) : Int) + ((1 : Nat) : Int) = i + 2 := by omega
          rw [← hbehind] at hruns
          exact h _ _ _ (.cons hslash (.cons hnext hruns)) hescape
        exact ⟨_, .surrogate hnext hds hruns hrange.1 hrange.2⟩
      · exact ⟨_, .fewDigits hnext fun ds v e hds hruns => hdigits ⟨ds, v, e, hds, hruns⟩⟩
    · exact ⟨_, .letter hnext hu fun ch => h _ _ ch (.cons hslash (.single hnext))⟩

theorem exists_brokenOff (h : ∀ ws e ch, source.Runes i ws e → ¬ Item ws ch) :
    ∃ d, BrokenOff source i d := by
  by_cases hslash : source.readRune i = some ('\\', 1)
  · obtain ⟨d, hd⟩ := exists_badEscape hslash fun ws e ch hws hescape =>
      h ws e ch hws (.escape hescape)
    exact ⟨d, .escape hslash hd⟩
  · exact ⟨_, .unterminated hslash⟩

/-- A mistake is reported where it stands or behind that. -/
theorem BrokenOff.le_offset (h : BrokenOff source i d) : i ≤ d.offset := by
  cases h with
  | unterminated => exact Int.le_refl i
  | escape _ h =>
    cases h with
    | noRune => exact show i ≤ i + 1 by omega
    | fewDigits => exact show i ≤ i + 2 by omega
    | surrogate => exact show i ≤ i + 6 by omega
    | @letter _ w => exact show i ≤ i + 1 + w by omega

/-- Of the failures that the library itself reports only that of a missing rune is one of the
mistakes. -/
theorem BrokenOff.code_eq (h : BrokenOff source i d) :
    d.code = none ∨ d.code = some .runeMismatch := by
  cases h with
  | unterminated => exact .inl rfl
  | escape _ h =>
    cases h with
    | noRune => exact .inr rfl
    | fewDigits | surrogate | letter => exact .inl rfl

/-- A longer run could go on with the item. -/
theorem ItemsEnd.stop (h : ItemsEnd source i) (ws : List Char) (e : Int) (ch : Char)
    (hws : source.Runes i ws e) : ¬ Item ws ch := by
  intro hitem
  obtain ⟨before, cs, hbefore, hitems⟩ := h.reached
  have hmore : Items (before ++ ws) (cs ++ [ch]) := by
    have hone := Items.cons hitem .nil
    rw [List.append_nil] at hone
    exact hitems.append hone
  have hle := h.longest _ _ e (hbefore.append hws) hmore
  obtain ⟨x, ds, rfl, _⟩ := hitem.eq_cons
  have hlength := hws.bounds.1
  rw [List.length_cons] at hlength
  omega

theorem Diagnosis.offset_nonneg (h : Diagnosis source d) : 0 ≤ d.offset := by
  have hlow : ∀ {i}, ItemsEnd source i → 1 ≤ i := fun hi => hi.longest [] [] 1 (.nil 1) .nil
  cases h with
  | unopened => exact Int.le_refl 0
  | brokenOff hi _ hd =>
    have hi' := hlow hi
    have hle := hd.le_offset
    omega
  | @behind i hi =>
    have hi' := hlow hi
    exact show 0 ≤ i + 1 by omega

theorem Diagnosis.code_eq (h : Diagnosis source d) :
    d.code ∈ [none, some .literalMismatch, some .runeMismatch, some .expectedEndOfInput] := by
  cases h with
  | unopened => exact .tail _ (.head _)
  | brokenOff _ _ hd => rcases hd.code_eq with hcode | hcode <;> simp [hcode]
  | behind => exact .tail _ (.tail _ (.tail _ (.head _)))

end Scannerless.QuotedString
