import Mathlib.Data.List.Forall2
import Scannerless.Proofs.Ahead
import Scannerless.Proofs.RuneDecoding

/-!
# Decoding finds the boundaries again

The first byte of an encoding is never a later byte of another, so no rune that starts in front of a
text reaches into it, whatever the bytes in front are. A repetition of any rune therefore takes
bytes of no use one by one and is back in step where the text starts. What it leaves at the end is a
rune that is cut short, or nothing.
-/
namespace Scannerless

namespace Text.Utf8

variable {a b : UInt8} {front rest window bytes : List UInt8} {c : Char} {v : Nat}

/-- `Chunk bytes c`: the bytes come back as the rune `c`, because they encode it or because they are
one byte that is replaced. -/
inductive Chunk : List UInt8 → Char → Prop where
  | encoded (c : Char) : Chunk (String.utf8EncodeChar c) c
  | replaced (b : UInt8) : Chunk [b] replacementRune

theorem Encoding.not_isTail_head (h : Encoding (a :: rest) v) : ¬ IsTail a := by
  rintro ⟨htail, htail'⟩
  cases h with
  | one | two | three | four => omega

theorem Encoding.isTail_of_mem_tail (h : Encoding (a :: rest) v) (hb : b ∈ rest) : IsTail b := by
  cases h with
  | one => cases hb
  | two _ _ htail =>
    obtain rfl := List.mem_singleton.mp hb
    exact htail
  | three _ _ htail htail' =>
    simp only [List.mem_cons, List.not_mem_nil, or_false] at hb
    rcases hb with rfl | rfl
    · exact htail
    · exact htail'
  | four _ _ htail htail' htail'' =>
    simp only [List.mem_cons, List.not_mem_nil, or_false] at hb
    rcases hb with rfl | rfl | rfl
    · exact htail
    · exact htail'
    · exact htail''

/-- A byte of an encoding with another one before it. -/
theorem isTail_of_preceded (h : front ++ b :: rest <+: String.utf8EncodeChar c)
    (hfront : front ≠ []) :
    IsTail b := by
  obtain ⟨behind, hbytes⟩ := h
  obtain ⟨a, front, rfl⟩ := List.exists_cons_of_ne_nil hfront
  have hencoding := Encoding.of_char c
  rw [← hbytes, List.cons_append, List.cons_append] at hencoding
  exact hencoding.isTail_of_mem_tail (by simp)

/-- The first byte of a text. -/
theorem exists_lead {cs : List Char} (hcs : cs ≠ []) :
    ∃ b rest, encodeChars cs = b :: rest ∧ ¬ IsTail b := by
  obtain ⟨c, cs, rfl⟩ := List.exists_cons_of_ne_nil hcs
  have hencoding := Encoding.of_char c
  cases hbytes : String.utf8EncodeChar c with
  | nil =>
    have hpos := c.utf8Size_pos
    rw [← String.length_utf8EncodeChar, hbytes] at hpos
    exact absurd hpos (Nat.lt_irrefl 0)
  | cons b rest =>
    rw [hbytes] at hencoding
    exact ⟨b, rest ++ encodeChars cs, by rw [encodeChars_cons, hbytes, List.cons_append],
      hencoding.not_isTail_head⟩

/-- Bytes in front of a byte that starts a rune hold a rune of their own. -/
theorem decodeRune_before_lead (rest : List UInt8) (hfront : front ≠ []) (hb : ¬ IsTail b) :
    ∃ c width, decodeRune (front ++ b :: rest) = some (c, width) ∧ width ≤ front.length := by
  cases hscan : scan (front ++ b :: rest) with
  | scalar c width =>
    refine ⟨c, width, by rw [decodeRune_eq, hscan], Nat.le_of_not_lt fun hover => ?_⟩
    -- A longer rune would have `b` among its later bytes.
    obtain ⟨rfl, behind, hbytes⟩ := scan_eq_scalar_iff.mp hscan
    have hwindow : front ++ [b] <+: front ++ b :: rest := ⟨rest, by simp⟩
    have hbegins : front ++ [b] <+: String.utf8EncodeChar c := by
      refine List.prefix_of_prefix_length_le hwindow ⟨behind, hbytes.symm⟩ ?_
      rw [List.length_append, List.length_singleton]
      exact hover
    exact hb (isTail_of_preceded hbegins hfront)
  | cutShort =>
    rcases scan_eq_cutShort_iff.mp hscan with hnil | ⟨c, hbegins, _⟩
    · exact absurd hnil (by simp)
    · exact absurd (isTail_of_preceded hbegins hfront) hb
  | malformed width =>
    exact ⟨replacementRune, 1, by rw [decodeRune_eq, hscan], List.length_pos_iff.mpr hfront⟩

theorem exists_chunk {width : Nat} (h : decodeRune window = some (c, width)) :
    ∃ bytes rest, window = bytes ++ rest ∧ Chunk bytes c ∧ width = bytes.length := by
  rcases decodeRune_eq_some_iff.mp h with ⟨⟨rest, hbytes⟩, hwidth⟩ | ⟨⟨rfl, rfl⟩, _, hne, _⟩
  · rw [← String.length_utf8EncodeChar] at hwidth
    exact ⟨String.utf8EncodeChar c, rest, hbytes.symm, .encoded c, hwidth⟩
  · obtain ⟨b, rest, rfl⟩ := List.exists_cons_of_ne_nil hne
    exact ⟨[b], rest, rfl, .replaced b, rfl⟩

end Text.Utf8

open Text.Utf8

namespace Source

variable {source : Source} {o e : Int} {cs : List Char} {garbage : List UInt8}

/-- The bytes of runes in a row are chunks in a row. -/
theorem Runes.exists_chunks (h : source.Runes o cs e) (ho : 0 ≤ o) :
    ∃ chunks, List.Forall₂ Chunk chunks cs ∧
    source.bytesFrom o = chunks.flatten ++ source.bytesFrom e ∧ e = o + chunks.flatten.length := by
  induction h with
  | nil o => exact ⟨[], .nil, rfl, (Int.add_zero o).symm⟩
  | @cons o e c w cs hread _ ih =>
    obtain ⟨chunks, hchunks, hbytes, hstop⟩ := ih (by omega)
    rw [readRune_eq_decodeRune ho] at hread
    obtain ⟨chunk, rest, hwindow, hchunk, rfl⟩ := exists_chunk hread
    have hrest : source.bytesFrom (o + chunk.length) = rest := by
      rw [bytesFrom_add ho, hwindow, List.drop_left]
    refine ⟨chunk :: chunks, .cons hchunk hchunks, ?_, ?_⟩
    · rw [hwindow, ← hrest, hbytes, List.flatten_cons, List.append_assoc]
    · rw [hstop, List.flatten_cons, List.length_append]
      omega

theorem readRune_eq_none_iff (ho : 0 ≤ o) :
    source.readRune o = none ↔ source.bytesFrom o = [] ∨ IsCutShort (source.bytesFrom o) := by
  rw [readRune_eq_decodeRune ho, decodeRune_eq_none_iff]

/-- Runes until there is none. -/
theorem exists_runes (source : Source) (o : Int) :
    ∃ cs e, source.Runes o cs e ∧ source.readRune e = none := by
  obtain ⟨cs, e, hruns, -, hstop⟩ := source.exists_runes_while (fun _ => true) o
  refine ⟨cs, e, hruns, Option.eq_none_iff_forall_not_mem.mpr fun rune hread => ?_⟩
  exact absurd (hstop rune.1 rune.2 hread) (by decide)

/-- Runes that start in front of a text end where it starts, by induction on the bytes before it. -/
theorem exists_runes_before (hcs : cs ≠ [])
    (hbytes : source.bytes.toList = garbage ++ encodeChars cs) (ho : 0 ≤ o)
    (hle : o ≤ garbage.length) : ∃ ds, source.Runes o ds garbage.length := by
  obtain ⟨lead, rest, hlead, htail⟩ := exists_lead hcs
  obtain ⟨left, hleft⟩ : ∃ left : Nat, garbage.length - o = left :=
    ⟨(garbage.length - o).toNat, by omega⟩
  induction left using Nat.strongRecOn generalizing o with
  | ind left ih =>
    rcases Int.lt_or_eq_of_le hle with hlt | rfl
    · have hahead : source.bytesFrom o = garbage.drop o.toNat ++ lead :: rest := by
        rw [bytesFrom, hbytes, hlead, List.drop_append_of_le_length (by omega)]
      have hfront : garbage.drop o.toNat ≠ [] := by
        rw [Ne, List.drop_eq_nil_iff]
        omega
      obtain ⟨c, w, hread, hw⟩ := decodeRune_before_lead rest hfront htail
      rw [← hahead, ← readRune_eq_decodeRune ho] at hread
      rw [List.length_drop] at hw
      have hpos := (readRune_bounds hread).2.1
      obtain ⟨ds, hds⟩ := ih (left - w) (by omega) (o := o + w) (by omega) (by omega) (by omega)
      exact ⟨c :: ds, .cons hread hds⟩
    · exact ⟨[], .nil _⟩

/-- The runes of a text behind other bytes, and nothing is left behind them. -/
theorem runes_of_text (hbytes : source.bytes.toList = garbage ++ encodeChars cs) :
    source.Runes garbage.length cs source.size ∧ source.readRune source.size = none := by
  have hahead : Cursor.Ahead ⟨source, garbage.length, .nothing, none⟩ (cs ++ []) :=
    Cursor.ahead_of_bytes rfl (by rw [List.append_nil, hbytes]) rfl
  have hsize : Cursor.behind ⟨source, garbage.length, .nothing, none⟩ cs = source.size := by
    have hlength := congrArg List.length hbytes
    rw [Array.length_toList, List.length_append] at hlength
    rw [Cursor.behind, size, hlength, Int.natCast_add]
  have hruns := hahead.runes
  have hend := (hahead.move .nothing).readRune
  rw [hsize] at hruns
  rw [Cursor.offset_withResult, hsize] at hend
  exact ⟨hruns, hend⟩

end Source

namespace Parser

theorem run_many_anyRune {c : Cursor} {cs : List Char} {e : Int} (hc : c.failed = false)
    (h : c.source.Runes c.offset cs e) (hend : c.source.readRune e = none) :
    (Grammar.ofParser (.many anyRune)).run c = .value (c.withResult (runeTexts cs) e) := by
  have hstop : ∀ ch w, c.source.readRune e = some (ch, w) → true = false := by
    rw [hend]
    nofun
  obtain ⟨v, hpasses, hend⟩ := longest_runes_pass none "any rune" h hc (fun _ _ => rfl) hstop
    (Nat.succ_pos c.source.size)
  have hmany : Yields [] (c.source.size + 2) (.many anyRune) c _ :=
    yields_many hc hpasses hend (Nat.lt_succ_of_le h.length_le)
  exact run_of_yields_size hmany (by omega)

/-- Decoding a whole input loses nothing and finds the boundaries again. The bytes are chunks, one
for each rune of the result, and in the end none are left, or a rune that is cut short. Of the
encoding of a text the result is its characters. Behind any other bytes a text is read as if it
stood alone: the runes before it end where it starts. -/
theorem decoding_resynchronises :
    (∀ source : Source, ∃ chunks cs rest,
      source.bytes.toList = chunks.flatten ++ rest ∧ List.Forall₂ Chunk chunks cs ∧
      (rest = [] ∨ IsCutShort rest ∧ 1 ≤ rest.length ∧ rest.length ≤ 3) ∧
      (Grammar.ofParser (.many anyRune)).run (.ofSource source) =
        .value ((Cursor.ofSource source).withResult (runeTexts cs) chunks.flatten.length)) ∧
    (∀ (source : Source) (text : String), source.bytes.toList = encode text →
      (Grammar.ofParser (.many anyRune)).run (.ofSource source) =
        .value ((Cursor.ofSource source).withResult (runeTexts text.toList) source.size)) ∧
    ∀ (source : Source) (garbage : List UInt8) (text : String), text ≠ "" →
      source.bytes.toList = garbage ++ encode text →
      ∃ cs, source.Runes 0 cs garbage.length ∧
        (Grammar.ofParser (.many anyRune)).run (.ofSource source) =
          .value
            ((Cursor.ofSource source).withResult (runeTexts (cs ++ text.toList)) source.size) := by
  refine ⟨fun source => ?_, fun source text hbytes => ?_, fun source garbage text hne hbytes => ?_⟩
  · obtain ⟨cs, e, hruns, hend⟩ := source.exists_runes 0
    obtain ⟨chunks, hchunks, hbytes, hstop⟩ := hruns.exists_chunks (Int.le_refl 0)
    rw [Int.zero_add] at hstop
    refine ⟨chunks, cs, source.bytesFrom e, hbytes, hchunks, ?_, ?_⟩
    · rcases (Source.readRune_eq_none_iff (by omega)).mp hend with hnil | hcut
      · exact .inl hnil
      · have hlength := length_lt_of_scan_cutShort (scan_of_isCutShort hcut)
        rw [maxRuneBytes] at hlength
        rcases List.eq_nil_or_concat (source.bytesFrom e) with hnil | ⟨_, _, hsome⟩
        · exact .inl hnil
        · refine .inr ⟨hcut, ?_, by omega⟩
          rw [hsome]
          simp
    · rw [← hstop]
      exact run_many_anyRune rfl hruns hend
  · have hempty : source.bytes.toList = [] ++ encode text := hbytes
    obtain ⟨hruns, hend⟩ := Source.runes_of_text hempty
    exact run_many_anyRune (c := .ofSource source) rfl hruns hend
  · have hcs : text.toList ≠ [] := by simpa using hne
    obtain ⟨cs, hcs⟩ := Source.exists_runes_before hcs hbytes (Int.le_refl 0) (Int.natCast_nonneg _)
    obtain ⟨hruns, hend⟩ := Source.runes_of_text hbytes
    exact ⟨cs, hcs, run_many_anyRune (c := .ofSource source) rfl (hcs.append hruns) hend⟩

/-- A euro sign without its last byte, and an accented letter behind it. -/
theorem decoding_resynchronises_cut_euro :
    ∃ cs, (Source.ofBytes #[0xE2, 0x82, 0xC3, 0xA9]).Runes 0 cs 2 ∧
      (Grammar.ofParser (.many anyRune)).run (.ofSource (.ofBytes #[0xE2, 0x82, 0xC3, 0xA9])) =
        .value ((Cursor.ofSource (.ofBytes #[0xE2, 0x82, 0xC3, 0xA9])).withResult
          (runeTexts (cs ++ ['é'])) 4) :=
  decoding_resynchronises.2.2 (.ofBytes #[0xE2, 0x82, 0xC3, 0xA9]) [0xE2, 0x82] "é" (by decide)
    (by decide)

end Parser

end Scannerless
