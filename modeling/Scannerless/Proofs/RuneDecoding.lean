import Scannerless.Proofs.Runes

/-!
# Reading one rune

A window decodes to the rune whose encoding it begins with, to nothing where it ends inside a rune,
and otherwise to the replacement rune in place of one byte. Looking at one byte more at a time, up
to four of them, comes to the same as looking at four bytes at once.
-/
namespace Scannerless

namespace Text.Utf8

variable {window : List UInt8} {c : Char} {width : Nat}

theorem decodeRune_eq_none_iff : decodeRune window = none ↔ window = [] ∨ IsCutShort window := by
  rw [← scan_eq_cutShort_iff, decodeRune_eq]
  cases scan window <;> simp

theorem scan_eq_scalar_iff_begins :
    scan window = .scalar c width ↔ String.utf8EncodeChar c <+: window ∧ width = c.utf8Size := by
  rw [scan_eq_scalar_iff, String.length_utf8EncodeChar, and_comm]
  constructor
  · rintro ⟨⟨rest, rfl⟩, hwidth⟩
    exact ⟨⟨rest, rfl⟩, hwidth⟩
  · rintro ⟨⟨rest, rfl⟩, hwidth⟩
    exact ⟨⟨rest, rfl⟩, hwidth⟩

/-- A scan that stops at bytes that nothing can complete is one that finds no rune and is not cut
short. -/
theorem scan_eq_malformed_iff :
    (∃ k, scan window = .malformed k) ↔
      (∀ d, ¬ String.utf8EncodeChar d <+: window) ∧ window ≠ [] ∧ ¬ IsCutShort window := by
  rw [← not_or, ← scan_eq_cutShort_iff]
  have hscalar : ∀ d, String.utf8EncodeChar d <+: window → scan window = .scalar d d.utf8Size :=
    fun d hd => scan_eq_scalar_iff_begins.mpr ⟨hd, rfl⟩
  constructor
  · rintro ⟨k, hk⟩
    refine ⟨fun d hd => ?_, by rw [hk]; nofun⟩
    rw [hscalar d hd] at hk
    cases hk
  · rintro ⟨hnone, hcut⟩
    cases hscan : scan window with
    | scalar d k => exact absurd (scan_eq_scalar_iff_begins.mp hscan).1 (hnone d)
    | cutShort => exact absurd hscan hcut
    | malformed k => exact ⟨k, rfl⟩

theorem decodeRune_eq_some_iff :
    decodeRune window = some (c, width) ↔
      (String.utf8EncodeChar c <+: window ∧ width = c.utf8Size) ∨
      ((c = replacementRune ∧ width = 1) ∧ (∀ d, ¬ String.utf8EncodeChar d <+: window) ∧
        window ≠ [] ∧ ¬ IsCutShort window) := by
  rw [← scan_eq_scalar_iff_begins, ← scan_eq_malformed_iff, decodeRune_eq]
  cases scan window with
  | scalar d k => simp
  | cutShort => simp
  | malformed k => simp [eq_comm]

end Text.Utf8

namespace Source

open Text.Utf8

variable {source : Source} {o : Int}

theorem decodeRune_take (bytes : List UInt8) :
    decodeRune (bytes.take maxRuneBytes) = decodeRune bytes := by
  rcases scan_take bytes maxRuneBytes with hcut | hsame
  · -- A window that is cut short has fewer than four bytes, so it is all that is left.
    have hlength := length_lt_of_scan_cutShort hcut
    rw [List.length_take] at hlength
    rw [List.take_of_length_le (by omega)]
  · rw [decodeRune_eq, hsame, ← decodeRune_eq]

theorem readRune_eq_decodeRune_read (source : Source) (o : Int) :
    source.readRune o = decodeRune (source.read o maxRuneBytes) := by
  by_cases ho : 0 ≤ o
  · rw [readRune_eq_decodeRune ho, read_eq_take ho, decodeRune_take]
  · rw [source.readRune_of_neg (by omega), source.read_of_neg (by omega)]
    rfl

/-- A window of four bytes is never cut short, so the last look finds a rune or the end. -/
theorem decodeRune_isSome_of_length {window : List UInt8} (h : maxRuneBytes ≤ window.length) :
    (decodeRune window).isSome := by
  rw [Option.isSome_iff_ne_none, Ne, decodeRune_eq_none_iff, ← scan_eq_cutShort_iff]
  intro hcut
  have hlength := length_lt_of_scan_cutShort hcut
  omega

theorem width_le_of_readRune {c : Char} {width : Nat} (h : source.readRune o = some (c, width)) :
    1 ≤ width ∧ width ≤ (source.read o maxRuneBytes).length := by
  rw [readRune_eq_decodeRune_read] at h
  exact decodeRune_width h

end Source

open Text.Utf8

/-- Decoding is exact. A window gives the rune whose encoding it begins with, nothing where it is
empty or ends inside a rune, and the replacement rune for one byte in all other cases. Where its
strict decoding stops behind the first byte, what stands in front is decoded again, and that
succeeds. A cursor that looks at windows of growing width reads what one look at the widest gives;
one of its looks comes back short or decodes, so it never runs out of widths; and what it reads is
there. -/
theorem rune_decoding_exact :
    (∀ window : List UInt8,
      (∀ c width, decodeRune window = some (c, width) ↔
        (String.utf8EncodeChar c <+: window ∧ width = c.utf8Size) ∨
        ((c = replacementRune ∧ width = 1) ∧ (∀ d, ¬ String.utf8EncodeChar d <+: window) ∧
          window ≠ [] ∧ ¬ IsCutShort window)) ∧
      (decodeRune window = none ↔ window = [] ∨ IsCutShort window) ∧
      ∀ error, decodeStrict window = .error error → 0 < error.start →
        ∃ c cs, decodeStrict (window.take error.start) = .ok (c :: cs)) ∧
    ∀ cursor : Cursor,
      cursor.readRune = decodeRune (cursor.readBytes maxRuneBytes) ∧
      (∃ width ∈ List.range' 1 maxRuneBytes, (cursor.readBytes width).length < width ∨
        (decodeRune (cursor.readBytes width)).isSome) ∧
      ∀ c width, cursor.readRune = some (c, width) →
        1 ≤ width ∧ width ≤ (cursor.readBytes maxRuneBytes).length := by
  constructor
  · exact fun window => ⟨fun _ _ => decodeRune_eq_some_iff, decodeRune_eq_none_iff,
      fun _ => decodeStrict_take_start⟩
  · intro cursor
    refine ⟨cursor.source.readRune_eq_decodeRune_read cursor.offset, ?_, fun _ _ =>
      Source.width_le_of_readRune⟩
    refine ⟨maxRuneBytes, by decide, ?_⟩
    rcases Nat.lt_or_ge (cursor.readBytes maxRuneBytes).length maxRuneBytes with hshort | hfull
    · exact .inl hshort
    · exact .inr (Source.decodeRune_isSome_of_length hfull)

/-- A euro sign with a cut one behind it: the whole window does not decode, its first three bytes
do. -/
theorem rune_decoding_exact_euro :
    decodeStrict [0xE2, 0x82, 0xAC, 0xE2] = .error ⟨3, .unexpectedEnd⟩ ∧
      (∃ c cs, decodeStrict [0xE2, 0x82, 0xAC] = .ok (c :: cs)) ∧
      Cursor.readRune (.ofSource (.ofBytes #[0xE2, 0x82, 0xAC, 0xE2])) = some ('€', 3) ∧
      1 ≤ 3 ∧
      3 ≤ (Cursor.readBytes (.ofSource (.ofBytes #[0xE2, 0x82, 0xAC, 0xE2]))
        maxRuneBytes).length := by
  have hstops : decodeStrict [0xE2, 0x82, 0xAC, 0xE2] = .error ⟨3, .unexpectedEnd⟩ := rfl
  have hread : Cursor.readRune (.ofSource (.ofBytes #[0xE2, 0x82, 0xAC, 0xE2])) = some ('€', 3) :=
    rfl
  obtain ⟨hwindow, hcursor⟩ := rune_decoding_exact
  exact ⟨hstops, (hwindow _).2.2 _ hstops (by decide), hread, (hcursor _).2.2 _ _ hread⟩

end Scannerless
