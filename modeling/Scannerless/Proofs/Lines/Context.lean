import Mathlib.Data.List.Intervals
import Scannerless.Proofs.Lines.Partition

/-!
# What a report with context shows

The report of a failure is its description, an empty row and the numbered lines around the failure.
One more row stands below the line of the failure, with a bar below the bar of that line and a caret
below the byte where the failure is. Where a line is no ASCII the caret still counts bytes, and the
character above it may be another.
-/
namespace Scannerless

open Text Text.Utf8

namespace Text

/-- The decimal digits of a number are all that its numeral holds. -/
theorem Numeral.toList_decimal (n : Nat) : (Numeral.decimal n).toList = Nat.toDigits 10 n := by
  have hsign : Numeral.sign n = "" := if_neg (by omega)
  rw [Numeral.decimal, hsign, Int.natAbs_natCast, String.toList_append, Nat.toList_repr]
  rfl

theorem not_mem_toDigits {c : Char} (hc : c.isDigit = false) (n : Nat) : c ∉ Nat.toDigits 10 n := by
  intro hmem
  rw [Nat.isDigit_of_mem_toDigits (by decide) (by decide) hmem] at hc
  cases hc

namespace Utf8

theorem decodeReplacingFrom_of_isAscii {bytes : List UInt8} (h : ∀ b ∈ bytes, b < 0x80)
    (chars : List Char) :
    decodeReplacingFrom 0 bytes chars = chars.reverse ++ bytes.map fun b => Char.ofNat b.toNat := by
  induction bytes generalizing chars with
  | nil => simp [decodeReplacingFrom]
  | cons b rest ih =>
    obtain ⟨hb, hrest⟩ := List.forall_mem_cons.mp h
    simp only [decodeReplacingFrom, scan, if_pos hb, Nat.sub_self]
    rw [ih hrest]
    simp

/-- Bytes of ASCII are decoded one by one. -/
theorem decodeReplacing_of_isAscii {bytes : List UInt8} (h : ∀ b ∈ bytes, b < 0x80) :
    decodeReplacing bytes = bytes.map fun b => Char.ofNat b.toNat :=
  decodeReplacingFrom_of_isAscii h []

theorem newline_not_mem_decodeReplacingFrom {skip : Nat} {bytes : List UInt8} {chars : List Char}
    (hchars : '\n' ∉ chars) (h : newline ∉ bytes) :
    '\n' ∉ decodeReplacingFrom skip bytes chars := by
  induction bytes generalizing skip chars with
  | nil => simpa [decodeReplacingFrom] using hchars
  | cons b rest ih =>
    obtain ⟨hb, hrest⟩ := not_or.mp (mt List.mem_cons.mpr h)
    cases skip with
    | succ skip => exact ih hchars hrest
    | zero =>
      rw [decodeReplacingFrom]
      split
      · -- A newline is encoded by the byte of its own, which is not there.
        rename_i c width hscan
        obtain ⟨-, more, hbytes⟩ := scan_eq_scalar_iff.mp hscan
        have hc : '\n' ≠ c := by
          rintro rfl
          exact hb (List.cons.inj hbytes).1.symm
        exact ih (List.not_mem_cons_of_ne_of_not_mem hc hchars) hrest
      · rw [List.mem_reverse]
        exact List.not_mem_cons_of_ne_of_not_mem (by decide) hchars
      · exact ih (List.not_mem_cons_of_ne_of_not_mem (by decide) hchars) hrest

/-- No character is a newline where no byte is one. -/
theorem newline_not_mem_decodeReplacing {bytes : List UInt8} (h : newline ∉ bytes) :
    '\n' ∉ decodeReplacing bytes :=
  newline_not_mem_decodeReplacingFrom List.not_mem_nil h

end Utf8

end Text

/-- A separator and pieces without a character make no text with it. -/
theorem not_mem_intercalate {c : Char} {separator : List Char} {pieces : List (List Char)}
    (hseparator : c ∉ separator) (hpieces : ∀ piece ∈ pieces, c ∉ piece) :
    c ∉ separator.intercalate pieces := by
  induction pieces with
  | nil => exact List.not_mem_nil
  | cons piece pieces ih =>
    obtain ⟨hpiece, hothers⟩ := List.forall_mem_cons.mp hpieces
    cases pieces with
    | nil => rwa [List.intercalate_singleton]
    | cons next pieces =>
      rw [List.intercalate_cons_cons, List.mem_append, List.mem_append]
      exact not_or.mpr ⟨not_or.mpr ⟨hpiece, hseparator⟩, ih hothers⟩

theorem Diagnostic.newline_not_mem_format {e : Diagnostic} (hmessage : '\n' ∉ e.message.toList)
    (hexpected : ∀ item ∈ e.expected, '\n' ∉ item.toList) (line column : Nat) :
    '\n' ∉ (e.format line column).toList := by
  have hdigits : ∀ n, '\n' ∉ Nat.toDigits 10 n := not_mem_toDigits rfl
  have hlist : '\n' ∉ [',', ' '].intercalate (e.expected.map (String.toList ∘ expectation)) := by
    refine not_mem_intercalate (by decide) fun piece hpiece => ?_
    obtain ⟨item, hitem, rfl⟩ := List.mem_map.mp hpiece
    simp [expectation, hexpected item hitem]
  rw [format]
  split
  · simp [Numeral.toList_decimal, hdigits, hmessage]
  · simp [Numeral.toList_decimal, hdigits, hmessage, hlist]

namespace Cursor

/-- A line as a report shows it: its number aligned to the right in four places or more, a bar, and
its text, in which ill-formed bytes are replaced. -/
def numberedRow (number : Nat) (line : List UInt8) : List Char :=
  (Nat.toDigits 10 number).leftpad 4 ' ' ++ [' ', '|', ' '] ++ decodeReplacing line

/-- A row that is blank but for a bar and a caret. -/
def markRow (bar gap : Nat) : List Char :=
  List.replicate bar ' ' ++ '|' :: (List.replicate gap ' ' ++ ['^'])

/-- The lines from `first` to `last`, in order, with the row `mark` below the line `marked`. -/
def contextRows (lines : List (List UInt8)) (first last marked : Nat) (mark : List Char) :
    List (List Char) :=
  (List.Ico first (last + 1)).flatMap fun number =>
    numberedRow number (lines.getD (number - 1) []) :: if number = marked then [mark] else []

/-- What the row `mark` below the row of a line says of the byte at offset `o`, which lies on the
line that is `line` and starts at `start`. -/
structure MarksByte (source : Source) (o start : Nat) (line : List UInt8) (row mark : List Char) :
    Prop where
  blank : ∃ bar gap, mark = markRow bar gap
  bar : mark.idxOf '|' = row.idxOf '|'
  caret : mark.idxOf '^' = row.idxOf '|' + 2 + (min o source.size - start)
  below : (∀ b ∈ line, b < 0x80) → ∀ b, source.bytes.toList[o]? = some b → b ≠ newline →
    row[mark.idxOf '^']? = some (Char.ofNat b.toNat)
  behind : (∀ b ∈ line, b < 0x80) →
    source.bytes.toList[o]? = none ∨ source.bytes.toList[o]? = some newline →
    mark.idxOf '^' = row.length

variable {source : Source} {c : Cursor} {e : Diagnostic} {number : Nat} {line : List UInt8}

theorem toList_rowHead (number : Nat) :
    (rowHead number).toList = (Nat.toDigits 10 number).leftpad 4 ' ' ++ [' ', '|', ' '] := by
  rw [rowHead, String.toList_append, Numeral.aligned, String.toList_ofList, Numeral.toList_decimal]
  rfl

theorem ofList_numberedRow (number : Nat) (line : List UInt8) :
    String.ofList (numberedRow number line) = rowHead number ++
      String.ofList (decodeReplacing line) := by
  rw [numberedRow, String.ofList_append, ← toList_rowHead, String.ofList_toList]

/-- The bar of a row is behind the number and one blank. -/
theorem idxOf_bar (number : Nat) (line : List UInt8) :
    (numberedRow number line).idxOf '|' = ((Nat.toDigits 10 number).leftpad 4 ' ').length + 1 := by
  have hnot : '|' ∉ (Nat.toDigits 10 number).leftpad 4 ' ' := by
    simp [List.leftpad, not_mem_toDigits]
  rw [numberedRow, List.append_assoc, List.idxOf_append_of_notMem hnot]
  rfl

theorem length_rowHead (number : Nat) (line : List UInt8) :
    (rowHead number).length = (numberedRow number line).idxOf '|' + 2 := by
  rw [← String.length_toList, toList_rowHead, List.length_append, idxOf_bar]
  rfl

theorem newline_not_mem_numberedRow (number : Nat) (h : newline ∉ line) :
    '\n' ∉ numberedRow number line := by
  simp [numberedRow, List.leftpad, not_mem_toDigits, newline_not_mem_decodeReplacing h]

theorem newline_not_mem_markRow (bar gap : Nat) : '\n' ∉ markRow bar gap := by
  simp [markRow]

theorem idxOf_bar_markRow (bar gap : Nat) : (markRow bar gap).idxOf '|' = bar := by
  rw [markRow, List.idxOf_append_of_notMem (by simp), List.length_replicate, List.idxOf_cons_self]
  rfl

theorem idxOf_caret_markRow (bar gap : Nat) : (markRow bar gap).idxOf '^' = bar + 1 + gap := by
  have hnot : '^' ∉ List.replicate bar ' ' ++ '|' :: List.replicate gap ' ' := by simp
  have hsplit : markRow bar gap = (List.replicate bar ' ' ++ '|' :: List.replicate gap ' ') ++
      ['^'] := by
    simp [markRow]
  rw [hsplit, List.idxOf_append_of_notMem hnot, List.idxOf_cons_self]
  simp
  omega

/-- The caret stands as many places behind the bar as the column says. -/
theorem toList_caretRow {position : Position} (hcolumn : 0 < position.column) (line : List UInt8) :
    (caretRow position).toList =
      markRow ((numberedRow position.line line).idxOf '|') position.column := by
  obtain ⟨gap, hgap⟩ : ∃ gap, position.column = gap + 1 := ⟨position.column - 1, by omega⟩
  rw [caretRow, length_rowHead position.line line, hgap, markRow, List.replicate_succ]
  simp

theorem read_eq_extract (source : Source) {start stop : Nat} (h : start ≤ stop) :
    source.read start (stop - start) = source.bytes.toList.extract start stop := by
  rw [← Int.natCast_sub h, source.read_eq_take (by omega), Source.bytesFrom, Int.toNat_natCast,
    List.extract_eq_take_drop]

/-- The rows for one line, with the failure at the position. -/
def shownRows (source : Source) (position : Position) (number : Nat) : List String :=
  String.ofList (numberedRow number (source.lines.getD (number - 1) [])) ::
    if number = position.line then [caretRow position] else []

theorem lineRows_eq (source : Source) (position : Position) (hlow : 1 ≤ number)
    (hhigh : number ≤ source.lineTable.count) :
    lineRows source source.lineTable position number = .ok (shownRows source position number) := by
  obtain ⟨i, rfl⟩ : ∃ i, number = i + 1 := ⟨number - 1, by omega⟩
  rw [source.lineTable_eq] at hhigh ⊢
  have hline := LineTable.isLine hhigh
  rw [shownRows, Source.lines, Nat.add_sub_cancel, List.getD_eq_getElem?_getD,
    hline.getElem?_splitOn, Option.getD_some, ← read_eq_extract source hline.le, ofList_numberedRow,
    lineRows, Int.natCast_succ, hline.bounds_eq]
  show Except.ok (if i + 1 = position.line then _ else _) = _
  split <;> rfl

/-- The report, row by row. -/
theorem report_eq (he : c.error = some e) {position : Position}
    (hposition : c.source.lineTable.position e.offset = position) (n : Nat) :
    c.report n = .ok ("\n".intercalate (e.format position.line position.column :: "" ::
      (List.Ico (max 1 (position.line - n))
        (min c.source.lineTable.count (position.line + n) + 1)).flatMap
        (shownRows c.source position))) := by
  have hfirst : (max 1 ((position.line : Int) - n)).toNat = max 1 (position.line - n) := by omega
  have hcount : (min (c.source.lineTable.count : Int) (position.line + n) + 1 -
      max 1 ((position.line : Int) - n)).toNat =
      min c.source.lineTable.count (position.line + n) + 1 - max 1 (position.line - n) := by omega
  have hrows : ∀ number ∈ List.Ico (max 1 (position.line - n))
      (min c.source.lineTable.count (position.line + n) + 1),
      lineRows c.source c.source.lineTable position number =
        .ok (shownRows c.source position number) := by
    intro number hnumber
    obtain ⟨hlow, hhigh⟩ := List.Ico.mem.mp hnumber
    exact lineRows_eq c.source position (by omega) (by omega)
  have hmap := mapM_eq_ok hrows
  rw [List.Ico] at hmap
  simp only [report, he]
  rw [hposition, hfirst, hcount, ← List.range'_eq_map_range, hmap, List.Ico, List.flatMap_def]
  rfl

theorem newline_not_mem_lines (source : Source) (i : Nat) : newline ∉ source.lines.getD i [] := by
  rw [List.getD_eq_getElem?_getD]
  cases hi : source.lines[i]? with
  | none => exact List.not_mem_nil
  | some line => exact not_mem_of_mem_splitOn (List.mem_of_getElem? hi)

theorem newline_not_mem_contextRows (source : Source) (first last marked bar gap : Nat) :
    ∀ row ∈ contextRows source.lines first last marked (markRow bar gap), '\n' ∉ row := by
  intro row hrow
  obtain ⟨number, -, hrow⟩ := List.mem_flatMap.mp hrow
  rcases List.mem_cons.mp hrow with rfl | hmark
  · exact newline_not_mem_numberedRow number (newline_not_mem_lines source _)
  · obtain rfl : row = markRow bar gap := by
      split at hmark
      · exact List.mem_singleton.mp hmark
      · cases hmark
    exact newline_not_mem_markRow bar gap

/-- Split at newlines, the report is the description, an empty row and the rows around the
failure. -/
theorem splitOn_report (he : c.error = some e) (hmessage : '\n' ∉ e.message.toList)
    (hexpected : ∀ item ∈ e.expected, '\n' ∉ item.toList) {position : Position}
    (hposition : c.source.lineTable.position e.offset = position) (hcolumn : 0 < position.column)
    (line : List UInt8) (n : Nat) :
    ∃ text, c.report n = .ok text ∧
      text.toList.splitOn '\n' = (e.format position.line position.column).toList :: [] ::
        contextRows c.source.lines (max 1 (position.line - n))
          (min c.source.lineTable.count (position.line + n)) position.line
          (markRow ((numberedRow position.line line).idxOf '|') position.column) := by
  refine ⟨_, report_eq he hposition n, ?_⟩
  have hrows : ∀ number, (shownRows c.source position number).map String.toList =
      numberedRow number (c.source.lines.getD (number - 1) []) :: if number = position.line then
        [markRow ((numberedRow position.line line).idxOf '|') position.column] else [] := by
    intro number
    rw [shownRows, List.map_cons, String.toList_ofList, ← toList_caretRow hcolumn line]
    split <;> rfl
  rw [String.toList_intercalate, List.map_cons, List.map_cons, List.map_flatMap]
  simp only [hrows]
  refine List.splitOn_intercalate '\n' ?_ (List.cons_ne_nil _ _)
  refine List.forall_mem_cons.mpr ⟨Diagnostic.newline_not_mem_format hmessage hexpected _ _, ?_⟩
  exact List.forall_mem_cons.mpr ⟨List.not_mem_nil, newline_not_mem_contextRows _ _ _ _ _ _⟩

theorem numberedRow_eq (number : Nat) (line : List UInt8) :
    ∃ head, numberedRow number line = head ++ decodeReplacing line ∧
      head.length = (numberedRow number line).idxOf '|' + 2 :=
  ⟨_, rfl, by rw [idxOf_bar, List.length_append]; rfl⟩

theorem marksByte {i start stop o : Nat} (hline : LineTable.IsLine source.bytes.toList i start stop)
    (hstart : start ≤ min o source.size) (hstop : min o source.size ≤ stop) (number : Nat) :
    MarksByte source o start (source.bytes.toList.extract start stop)
      (numberedRow number (source.bytes.toList.extract start stop))
      (markRow ((numberedRow number (source.bytes.toList.extract start stop)).idxOf '|')
        (min o source.size - start + 1)) := by
  have hsize : source.size = source.bytes.toList.length := rfl
  have hbyte : source.bytes.toList[o]? = source.bytes.toList[min o source.size]? := by
    rcases Nat.le_total o source.size with hle | hle
    · rw [Nat.min_eq_left hle]
    · rw [Nat.min_eq_right hle, List.getElem?_eq_none hle,
        List.getElem?_eq_none (Nat.le_of_eq hsize.symm)]
  have hends := hline.eq_stop_iff hstart hstop
  obtain ⟨head, hrow, hhead⟩ := numberedRow_eq number (source.bytes.toList.extract start stop)
  have hcaret : ∀ gap,
      (markRow ((numberedRow number (source.bytes.toList.extract start stop)).idxOf '|')
      (gap + 1)).idxOf '^' = head.length + gap := by
    intro gap
    rw [idxOf_caret_markRow, hhead]
    omega
  refine ⟨⟨_, _, rfl⟩, idxOf_bar_markRow _ _, hhead ▸ hcaret _, fun hascii b hb hne => ?_,
    fun hascii hend => ?_⟩
  · rw [hbyte] at hb
    have hlt : min o source.size < stop := by
      refine Nat.lt_of_le_of_ne hstop fun hend => ?_
      rcases hends.mp hend with hnone | hnewline
      · rw [hb] at hnone
        cases hnone
      · rw [hb] at hnewline
        exact hne (Option.some.inj hnewline)
    rw [hcaret, hrow, List.getElem?_append_right (Nat.le_add_right _ _), Nat.add_sub_cancel_left,
      decodeReplacing_of_isAscii hascii, List.getElem?_map, LineTable.getElem?_extract hstart hlt,
      hb]
    rfl
  · rw [hbyte] at hend
    have hstop' := hends.mpr hend
    have hlength : (source.bytes.toList.extract start stop).length = stop - start := by
      have hle := hline.le_length
      rw [List.extract_eq_take_drop, List.length_take, List.length_drop]
      omega
    rw [hcaret, hrow, List.length_append, decodeReplacing_of_isAscii hascii, List.length_map,
      hlength, hstop']

end Cursor

open Cursor

end Scannerless
