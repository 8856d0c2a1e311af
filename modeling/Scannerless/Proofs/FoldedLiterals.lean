import Mathlib.Data.Bool.AllAny
import Scannerless.Proofs.Folding
import Scannerless.Proofs.Matchers

/-!
# Literals compared without regard to case

What a literal of ASCII characters accepts when case does not count, said of a whole run: its own
characters in any case, the sharp s and two ligatures where it has room for them, and nothing else,
since every other folding takes more bytes than the window has. It accepts all that it accepts where
case counts.
-/
namespace Scannerless

open Text Text.Utf8

theorem length_encode_of_isAscii {text : String} (htext : ∀ ch ∈ text.toList, IsAscii ch) :
    (encode text).length = text.length :=
  (length_encodeChars_of_isAscii htext).trans String.length_toList

namespace Cursor

variable {c : Cursor} {text : String} {bytes : List UInt8} {size : Nat}

/-- Every text is read as itself. -/
theorem foldsTo_encode (text : String) :
    foldsTo text (encode text).length (encode text) = true := by
  have hdecode : decode? (encode text) = some text.toList := decode?_eq_some_iff.mpr rfl
  rw [foldsTo, hdecode, Option.map_some, beq_self_eq_true, beq_self_eq_true]
  rfl

theorem length_of_foldsTo (h : foldsTo text size bytes = true) : bytes.length = size := by
  rw [foldsTo, Bool.and_eq_true, beq_iff_eq] at h
  exact h.1

theorem matchFoldedLiteral_of_not_failed (hc : c.failed = false)
    (h : (c.matchFoldedLiteral text).failed = false) :
    c.matchFoldedLiteral text = c.withResult (.text text) (c.offset + (encode text).length) := by
  rw [matchFoldedLiteral, if_pos ((matchFoldedLiteral_failed_iff hc).mp h)]

/-- A literal that matches with regard to case matches without, and the cursor is the same. -/
theorem matchFoldedLiteral_of_matchLiteral (hc : c.failed = false)
    (h : (c.matchLiteral text).failed = false) :
    c.matchLiteral text = c.matchFoldedLiteral text := by
  have hbytes := (matchLiteral_failed_iff hc).mp h
  rw [matchLiteral, if_pos hbytes, matchFoldedLiteral, hbytes, if_pos (foldsTo_encode text)]

end Cursor

namespace Parser

/-- A literal of ASCII characters that is compared without regard to case succeeds exactly where
its window is there in full and encodes what is read as the literal. It gives its own text and
moves behind the window. Without room for the three characters it accepts its own characters in
any case and nothing else; and what it accepts with regard to case it accepts without, with the
same cursor. -/
theorem foldedLiteral_exact {text : String} {c : Cursor} (htext : ∀ ch ∈ text.toList, IsAscii ch)
    (hc : c.failed = false) :
    ∃ r, (Grammar.ofParser (.foldedLiteral text)).run c = .value r ∧
      (r.failed = false ↔ (c.readBytes text.length).length = text.length ∧
        ∃ cs, c.readBytes text.length = encodeChars cs ∧ ReadsAs cs text.toList) ∧
      (r.failed = false → r = c.withResult (.text text) (c.offset + text.length)) ∧
      ((∀ entry ∈ compact, ¬ entry.2 <:+: text.toList.map Char.toLower) →
        (r.failed = false ↔ ∃ cs, c.readBytes text.length = encodeChars cs ∧
          cs.map Char.toLower = text.toList.map Char.toLower)) ∧
      ∀ r', (Grammar.ofParser (.literal text)).run c = .value r' → r'.failed = false → r' = r := by
  have hsize := length_encode_of_isAscii htext
  have hread : c.readBytes (encode text).length = c.readBytes text.length := by rw [hsize]
  have hiff : (c.matchFoldedLiteral text).failed = false ↔
      Cursor.foldsTo text (encode text).length (c.readBytes text.length) = true := by
    rw [Cursor.matchFoldedLiteral_failed_iff hc, hread]
  refine ⟨c.matchFoldedLiteral text, run_leaf .foldedLiteral hc, ?reads, ?moves, ?cases, ?regarded⟩
  case reads =>
    rw [hiff]
    exact ⟨fun h => ⟨(Cursor.length_of_foldsTo h).trans hsize, (foldsTo_iff_readsAs htext).mp h⟩,
      fun h => (foldsTo_iff_readsAs htext).mpr h.2⟩
  case moves =>
    intro hr
    rw [← hsize]
    exact Cursor.matchFoldedLiteral_of_not_failed hc hr
  case cases =>
    intro hroom
    rw [hiff, foldsTo_iff htext hroom]
  case regarded =>
    intro r' hr' hok
    rw [run_leaf .literal hc] at hr'
    obtain rfl := Outcome.value.inj hr'
    exact Cursor.matchFoldedLiteral_of_matchLiteral hc hok

/-- `Office` is read from a ligature among small and capital letters, and `kB`, which has no room
for any, from its own letters in another case. -/
theorem foldedLiteral_exact_ligature :
    (Grammar.ofParser (.foldedLiteral "Office")).run (.ofSource (.ofText "oﬃCE")) =
        .value ((Cursor.ofSource (.ofText "oﬃCE")).withResult (.text "Office") 6) ∧
      (Grammar.ofParser (.foldedLiteral "kB")).run (.ofSource (.ofText "Kb!")) =
        .value ((Cursor.ofSource (.ofText "Kb!")).withResult (.text "kB") 2) := by
  have hoffice : ∀ ch ∈ "Office".toList, IsAscii ch := List.all_iff_forall_prop.mp (by decide)
  have hkb : ∀ ch ∈ "kB".toList, IsAscii ch := List.all_iff_forall_prop.mp (by decide)
  constructor
  · obtain ⟨r, hrun, hreads, hmoves, -⟩ :=
      @foldedLiteral_exact "Office" (.ofSource (.ofText "oﬃCE")) hoffice rfl
    have hread : ReadsAs "oﬃCE".toList "Office".toList :=
      ⟨List.all_iff_forall_prop.mp (by decide), by decide⟩
    have hok : r.failed = false := hreads.mpr ⟨by decide, "oﬃCE".toList, by decide, hread⟩
    rw [hrun, hmoves hok]
    rfl
  · obtain ⟨r, hrun, -, hmoves, hcases, -⟩ :=
      @foldedLiteral_exact "kB" (.ofSource (.ofText "Kb!")) hkb rfl
    have hok : r.failed = false := (hcases (by decide)).mpr ⟨"Kb".toList, by decide, by decide⟩
    rw [hrun, hmoves hok]
    rfl

end Parser

end Scannerless
