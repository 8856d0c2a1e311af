import Scannerless.Proofs.Matchers

/-!
# Literals and the runes they consist of

A literal compares bytes, and a matcher of a number of runes decodes them. Where a text encodes no
rune that may stand for something else, its bytes lie ahead exactly if its characters are the runes
that are read, whatever comes before and behind, so the two ways accept the same text in the same
place. The replacement rune is the exception in one direction: it may be read where it is not
encoded.
-/
namespace Scannerless

open Text.Utf8

namespace Cursor

variable {c : Cursor} {text : String}

/-- The bytes of a literal are read as its characters. -/
theorem runes_of_readBytes (h : c.readBytes (encode text).length = encode text) :
    c.source.Runes c.offset text.toList (c.offset + (encode text).length) := by
  by_cases ho : 0 ≤ c.offset
  · exact Source.runes_of_encoded ho ((readBytes_eq_iff ho _).mp h)
  · -- In front of the source there is the empty text only.
    rw [readBytes, c.source.read_of_neg (by omega)] at h
    have hnil : text.toList = [] := eq_nil_of_length_encodeChars (congrArg List.length h.symm)
    rw [← h, hnil, List.length_nil, Int.natCast_zero, Int.add_zero]
    exact .nil _

theorem readBytes_of_runes {e : Int} (h : c.source.Runes c.offset text.toList e)
    (htext : replacementRune ∉ text.toList) : c.readBytes (encode text).length = encode text := by
  by_cases hempty : text.toList = []
  · rw [readBytes, c.source.read_eq, window, encode, hempty, encodeChars_nil, List.length_nil,
      if_pos (.inr (Int.le_refl 0))]
  · have ho := (h.bounds.2 hempty).1
    exact (readBytes_eq_iff ho _).mpr (h.encoded ho htext).1

end Cursor

namespace Parser

/-- A literal and the matcher of as many runes as the literal has. A text without the replacement
rune is matched by the one exactly where the other gives that text. Wherever a literal is matched,
whatever its text is, both go the same way and give the text. -/
theorem literal_agrees_with_runeCount {c : Cursor} (text : String) (hc : c.failed = false) :
    ∃ matched counted, (Grammar.ofParser (.literal text)).run c = .value matched ∧
      (Grammar.ofParser (.runeCount text.length)).run c = .value counted ∧
      (replacementRune ∉ text.toList →
        (matched.failed = false ↔ counted.failed = false ∧ counted.result = .text text)) ∧
      (matched.failed = false → counted = matched ∧ matched.result = .text text) := by
  have hsame : (c.matchLiteral text).failed = false →
      c.matchRuneCount text.length = c.matchLiteral text ∧
      (c.matchLiteral text).result = .text text := by
    intro hmatched
    have hbytes := (Cursor.matchLiteral_failed_iff hc).mp hmatched
    have hruns := Cursor.runes_of_readBytes hbytes
    rw [Cursor.matchRuneCount_of_runes hruns String.length_toList, String.ofList_toList,
      Cursor.matchLiteral, if_pos hbytes]
    exact ⟨rfl, rfl⟩
  refine ⟨_, _, run_leaf .literal hc, run_leaf .runeCount hc,
    fun htext => ⟨fun hmatched => ?_, ?_⟩, hsame⟩
  · obtain ⟨hcounted, hresult⟩ := hsame hmatched
    rw [hcounted]
    exact ⟨hmatched, hresult⟩
  · rintro ⟨hcounted, hresult⟩
    obtain ⟨cs, e, hruns, hlooped⟩ := Cursor.runes_of_matchRuneCount hcounted
    rw [hlooped] at hresult
    obtain rfl : String.ofList cs = text := Value.text.inj hresult
    rw [← @String.toList_ofList cs] at hruns
    exact (Cursor.matchLiteral_failed_iff hc).mpr (Cursor.readBytes_of_runes hruns htext)

/-- An accented letter and an exclamation mark, behind a byte that is no rune. -/
theorem literal_agrees_with_runeCount_accent :
    replacementRune ∉ "é!".toList ∧
    ∃ matched counted,
      (Grammar.ofParser (.literal "é!")).run
        ⟨.ofBytes #[0xFF, 0xC3, 0xA9, 0x21], 1, .nothing, none⟩ = .value matched ∧
      (Grammar.ofParser (.runeCount 2)).run
        ⟨.ofBytes #[0xFF, 0xC3, 0xA9, 0x21], 1, .nothing, none⟩ = .value counted ∧
      matched.failed = false ∧ counted.result = .text "é!" ∧ counted.offset = 4 := by
  have htext : replacementRune ∉ "é!".toList := by decide
  obtain ⟨matched, counted, hmatched, hcounted, hagree, hsame⟩ :=
    @literal_agrees_with_runeCount ⟨.ofBytes #[0xFF, 0xC3, 0xA9, 0x21], 1, .nothing, none⟩ "é!" rfl
  have hleaf := run_leaf (p := .literal "é!")
    (c := ⟨.ofBytes #[0xFF, 0xC3, 0xA9, 0x21], 1, .nothing, none⟩) .literal rfl
  obtain rfl := Outcome.value.inj (hmatched.symm.trans hleaf)
  obtain ⟨rfl, _⟩ := hsame rfl
  exact ⟨htext, _, _, hmatched, hcounted, (hagree htext).mpr ⟨rfl, rfl⟩, rfl, rfl⟩

/-- A byte that is no rune is read as the replacement rune, which it does not encode. -/
example : ((Cursor.ofSource (.ofBytes #[0xFF])).matchRuneCount 1).result = .text "\uFFFD" ∧
    ((Cursor.ofSource (.ofBytes #[0xFF])).matchLiteral "\uFFFD").failed = true :=
  ⟨rfl, rfl⟩

end Parser

end Scannerless
