import Scannerless.Proofs.Lines.Table
import Scannerless.Proofs.Reports
import Scannerless.Proofs.Runes
import Scannerless.Proofs.Yields

/-!
# Every way to a position gives the same one

A position can be found in the bytes in front of an offset, by counting their newlines and searching
for the last, or by looking the offset up in the line table; the start of a line can also be told
from the one byte in front of it. Main statement: all three agree, on offsets behind the end as
well, and so do the reports that take one way or another.
-/
namespace Scannerless

namespace Position

theorem lastNewline_of_not_mem {bytes : List UInt8} (h : newline ∉ bytes) :
    lastNewline bytes = -1 := by
  have hnone : bytes.reverse.idxOf? newline = none :=
    List.idxOf?_eq_none_iff.mpr (mt List.mem_reverse.mp h)
  rw [lastNewline, hnone]

theorem lastNewline_append {behind : List UInt8} (h : newline ∉ behind) (front : List UInt8) :
    lastNewline (front ++ newline :: behind) = front.length := by
  have hlength : behind.length < (front ++ newline :: behind).reverse.length := by simp
  have hsome : (front ++ newline :: behind).reverse.idxOf? newline = some behind.length := by
    refine List.idxOf?_eq_some_iff.mpr ⟨hlength, by simp, fun j hj hbyte => h ?_⟩
    rw [← List.mem_reverse]
    simp only [List.reverse_append, List.reverse_cons, List.append_assoc] at hbyte
    rw [List.getElem_append_left (by rwa [List.length_reverse])] at hbyte
    exact List.mem_of_getElem hbyte
  rw [lastNewline, hsome]
  simp only [List.length_append, List.length_cons]
  omega

/-- The last newline in front of `m` stands right in front of the line of `m`. -/
theorem lastNewline_take {bytes : List UInt8} {m s : Nat} (h : LineStart bytes m s)
    (hm : m ≤ bytes.length) : lastNewline (bytes.take m) = (s : Int) - 1 := by
  have hbehind : newline ∉ (bytes.take m).drop s := by
    intro hmem
    obtain ⟨i, hi, hbyte⟩ := List.getElem_of_mem hmem
    rw [List.length_drop, List.length_take] at hi
    refine h.unbroken (s + i) (by omega) (by omega) ?_
    rw [List.getElem_drop, List.getElem_take] at hbyte
    rw [← hbyte]
    exact List.getElem?_eq_getElem _
  cases s with
  | zero =>
    rw [List.drop_zero] at hbehind
    exact lastNewline_of_not_mem hbehind
  | succ t =>
    have hle := h.le
    have hnewline : bytes[t]? = some newline := h.opens.resolve_left (Nat.succ_ne_zero t)
    have hlt : t < (bytes.take m).length := by
      rw [List.length_take]
      omega
    have hbyte : (bytes.take m)[t] = newline := by
      rw [List.getElem_take]
      exact Option.some.inj ((List.getElem?_eq_getElem _).symm.trans hnewline)
    have hcut : bytes.take m = (bytes.take m).take t ++ newline :: (bytes.take m).drop (t + 1) := by
      rw [← hbyte, ← List.drop_eq_getElem_cons hlt, List.take_append_drop]
    rw [hcut, lastNewline_append hbehind, List.length_take_of_le (Nat.le_of_lt hlt)]
    omega

/-- What is counted and searched for in front of `m` are the line of `m` and its start. -/
theorem behind_take {bytes : List UInt8} {m s : Nat} (h : LineStart bytes m s)
    (hm : m ≤ bytes.length) :
    behind (bytes.take m) = ⟨(bytes.take m).count newline + 1, m - s + 1⟩ := by
  have hle := h.le
  have hcolumn : ((m : Int) - ((s : Int) - 1)).toNat = m - s + 1 := by omega
  rw [behind, lastNewline_take h hm, List.length_take_of_le hm, hcolumn]

end Position

namespace Source

variable {source : Source} {o : Int}

theorem lineTable_eq (source : Source) : source.lineTable = .ofBytes source.bytes.toList := by
  rw [lineTable, readAll_eq]

/-- Counting and looking up come to the same position. -/
theorem positionAt_eq_position (ho : 0 ≤ o) :
    source.positionAt o = .ok (source.lineTable.position o) := by
  have hread : source.read 0 o =
      source.bytes.toList.take (min o.toNat source.bytes.toList.length) := by
    have htake := source.read_eq_take (Int.le_refl 0) o.toNat
    rw [Int.toNat_of_nonneg ho] at htake
    rw [htake, bytesFrom, Int.toNat_zero, List.drop_zero, ← List.take_eq_take_min]
  obtain ⟨s, hline, hposition⟩ := LineTable.position_ofBytes source.bytes.toList o
  rw [positionAt, if_neg (by omega), hread, Position.behind_take hline (Nat.min_le_right _ _),
    lineTable_eq, hposition]

end Source

/-- An offset is the start of its line where the byte in front of it ends a line. -/
theorem LineStart.eq_iff {bytes : List UInt8} {m s : Nat} (h : LineStart bytes m s) :
    s = m ↔ m = 0 ∨ bytes[m - 1]? = some newline := by
  constructor
  · rintro rfl
    exact h.opens
  · intro hopens
    exact h.unique ⟨Nat.le_refl m, hopens, fun i hle hlt => by omega⟩

namespace Cursor

variable {c : Cursor}

theorem matchStartOfLine_failed_iff (hc : c.failed = false) (ho : 0 ≤ c.offset) :
    c.matchStartOfLine.failed = false ↔
      c.offset.toNat = 0 ∨ c.source.bytes.toList[c.offset.toNat - 1]? = some newline := by
  unfold matchStartOfLine
  by_cases hzero : c.offset = 0
  · simp [hzero, hc]
  · have hread : c.source.read (c.offset - 1) 1 =
        c.source.bytes.toList[c.offset.toNat - 1]?.toList := by
      have htake : c.source.read (c.offset - 1) 1 = (c.source.bytesFrom (c.offset - 1)).take 1 :=
        c.source.read_eq_take (by omega) 1
      rw [htake, Source.bytesFrom, show (c.offset - 1).toNat = c.offset.toNat - 1 by omega]
      simp [List.take_one]
    have hpast : c.offset.toNat ≠ 0 := by omega
    rw [if_neg hzero, hread]
    cases hbyte : c.source.bytes.toList[c.offset.toNat - 1]? with
    | none => simp [hpast]
    | some b =>
      by_cases hb : b = newline
      · simp [hb, hc]
      · simp [hb, hpast]

/-- The three reports of a failure show the same position, and the first line of the report with
context is the description. -/
theorem reports_agree {e : Diagnostic} (he : c.error = some e) (ho : 0 ≤ e.offset) :
    ∃ line column, c.describe = .ok (e.format line column) ∧
      (∀ context : Int, ∃ rows,
        c.report context = .ok ("\n".intercalate (e.format line column :: "" :: rows))) ∧
      c.unwrap = .error (.parseFailed e line column) := by
  have hposition : c.source.positionAt e.offset = .ok (c.source.lineTable.position e.offset) :=
    Source.positionAt_eq_position ho
  refine ⟨(c.source.lineTable.position e.offset).line,
    (c.source.lineTable.position e.offset).column, ?_, fun context => ?_, ?_⟩
  · simp only [describe, he, hposition]
    rfl
  · obtain ⟨text, htext⟩ := report_isOk he context
    simp only [report, he] at htext ⊢
    cases hrows : List.mapM (lineRows c.source c.source.lineTable
        (c.source.lineTable.position e.offset)) _ with
    | error fault => rw [hrows] at htext; cases htext
    | ok rows => exact ⟨rows.flatten, rfl⟩
  · simp only [unwrap, he, hposition]
    rfl

end Cursor

/-- Every way to a position gives the same one: one more than the newlines in front of the offset,
and the distance from the start of its line; an offset behind the end has the position of the end.
So a failure is described, shown and raised with the same first line, and the start of a line is
recognised exactly where the column is the first. -/
theorem positions_agree :
    (∀ (source : Source) (o : Int), 0 ≤ o →
      ∃ s, LineStart source.bytes.toList (min o.toNat source.size) s ∧
        source.positionAt o = .ok (source.lineTable.position o) ∧
        source.lineTable.position o =
          ⟨(source.bytes.toList.take (min o.toNat source.size)).count newline + 1,
            min o.toNat source.size - s + 1⟩) ∧
    (∀ (c : Cursor) (e : Diagnostic), c.error = some e → 0 ≤ e.offset →
      ∃ text line column, c.describe = .ok text ∧
        (∀ context : Int, ∃ rows, c.report context = .ok ("\n".intercalate (text :: "" :: rows))) ∧
        c.unwrap = .error (.parseFailed e line column) ∧
        (Fault.parseFailed e line column).message = text) ∧
    ∀ (definitions : Definitions) (levels : Nat) (c : Cursor), 0 < levels → c.failed = false →
      0 ≤ c.offset → c.offset ≤ c.source.size →
      ∃ r position, Parser.startOfLine.runFor definitions levels c = .value r ∧
        c.source.positionAt c.offset = .ok position ∧ (r.failed = false ↔ position.column = 1) := by
  refine ⟨fun source o ho => ?_, fun c e he ho => ?_,
    fun definitions levels c hlevels hc ho hsize => ?_⟩
  · obtain ⟨s, hline, hposition⟩ := LineTable.position_ofBytes source.bytes.toList o
    rw [← Source.lineTable_eq] at hposition
    exact ⟨s, hline, Source.positionAt_eq_position ho, hposition⟩
  · obtain ⟨line, column, hdescribe, hreport, hunwrap⟩ := Cursor.reports_agree he ho
    exact ⟨_, line, column, hdescribe, hreport, hunwrap, rfl⟩
  · have hrun : Parser.Yields definitions 1 .startOfLine c c.matchStartOfLine :=
      Parser.yields_leaf .startOfLine hc
    obtain ⟨s, hline, hposition⟩ := LineTable.position_ofBytes c.source.bytes.toList c.offset
    have hmin : min c.offset.toNat c.source.bytes.toList.length = c.offset.toNat :=
      Nat.min_eq_left (by rw [Array.length_toList]; unfold Source.size at hsize; omega)
    rw [← Source.lineTable_eq, hmin] at hposition
    rw [hmin] at hline
    refine ⟨_, _, hrun levels hlevels, Source.positionAt_eq_position ho, ?_⟩
    have hle := hline.le
    rw [Cursor.matchStartOfLine_failed_iff hc ho, ← hline.eq_iff, hposition]
    show s = c.offset.toNat ↔ c.offset.toNat - s + 1 = 1
    omega

/-- An offset behind a source that ends with a newline lies on a last line that is empty. -/
theorem positions_agree_behind_end :
    (∃ s, LineStart [0x61, 0x0A] 2 s ∧
      (Source.ofBytes #[0x61, 0x0A]).positionAt 9 =
        .ok ((Source.ofBytes #[0x61, 0x0A]).lineTable.position 9) ∧
      (Source.ofBytes #[0x61, 0x0A]).lineTable.position 9 = ⟨2, 2 - s + 1⟩) ∧
    (∃ text line column,
      Cursor.describe ⟨.ofBytes #[0x61, 0x0A], 0, .nothing, some ⟨"no word", 2, [], none⟩⟩ =
        .ok text ∧
      (∀ context : Int, ∃ rows,
        Cursor.report ⟨.ofBytes #[0x61, 0x0A], 0, .nothing, some ⟨"no word", 2, [], none⟩⟩ context =
          .ok ("\n".intercalate (text :: "" :: rows))) ∧
      Cursor.unwrap ⟨.ofBytes #[0x61, 0x0A], 0, .nothing, some ⟨"no word", 2, [], none⟩⟩ =
        .error (.parseFailed ⟨"no word", 2, [], none⟩ line column) ∧
      (Fault.parseFailed ⟨"no word", 2, [], none⟩ line column).message = text) ∧
    ∃ r position,
      Parser.startOfLine.runFor [] 1 ⟨.ofBytes #[0x61, 0x0A], 2, .nothing, none⟩ = .value r ∧
      (Source.ofBytes #[0x61, 0x0A]).positionAt 2 = .ok position ∧
      (r.failed = false ↔ position.column = 1) :=
  ⟨positions_agree.1 (.ofBytes #[0x61, 0x0A]) 9 (by decide),
    positions_agree.2.1 ⟨.ofBytes #[0x61, 0x0A], 0, .nothing, some ⟨"no word", 2, [], none⟩⟩ _ rfl
      (by decide),
    positions_agree.2.2 [] 1 ⟨.ofBytes #[0x61, 0x0A], 2, .nothing, none⟩ (by decide) rfl (by decide)
      (by decide)⟩

end Scannerless
