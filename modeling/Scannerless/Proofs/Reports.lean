import Scannerless.Cursor.Report

/-!
# Reports never fail

The report with context asks the line table only for lines that exist, whatever the failure's offset
and whatever the width of the context. The one-line description and the raised failure need the
position of an offset, which there is from zero on.
-/
namespace Scannerless

namespace LineTable

variable {table : LineTable}

theorem startAt_isOk {index : Int} (hlow : 0 ≤ index) (hhigh : index < table.count) :
    ∃ start, table.startAt index = .ok start := by
  have hbound : index.toNat < table.starts.size := by
    unfold count at hhigh
    omega
  refine ⟨table.starts[index.toNat], ?_⟩
  have hneg : ¬ index < 0 := by omega
  simp [startAt, hneg, hbound]

/-- Every line from the first to the last has bounds. -/
theorem bounds_isOk {line : Int} (hlow : 1 ≤ line) (hhigh : line ≤ table.count) :
    ∃ start stop, table.bounds line = .ok (start, stop) := by
  obtain ⟨start, hstart⟩ : ∃ start, table.startAt (line - 1) = .ok start :=
    startAt_isOk (by omega) (by omega)
  by_cases hlast : line < table.count
  · obtain ⟨next, hnext⟩ : ∃ next, table.startAt line = .ok next := startAt_isOk (by omega) hlast
    refine ⟨start, next - 1, ?_⟩
    simp [bounds, hstart, hlast, hnext, Bind.bind, Except.bind, pure, Except.pure]
  · refine ⟨start, table.size, ?_⟩
    simp [bounds, hstart, hlast, Bind.bind, Except.bind, pure, Except.pure]

end LineTable

theorem Source.positionAt_isOk (source : Source) {offset : Int} (h : 0 ≤ offset) :
    ∃ position, source.positionAt offset = .ok position :=
  ⟨_, if_neg (by omega)⟩

namespace Cursor

theorem lineRows_isOk (source : Source) {table : LineTable} (position : Position) {line : Nat}
    (hlow : 1 ≤ line) (hhigh : line ≤ table.count) :
    ∃ rows, lineRows source table position line = .ok rows := by
  obtain ⟨start, stop, hbounds⟩ : ∃ start stop, table.bounds line = .ok (start, stop) :=
    LineTable.bounds_isOk (by omega) (by omega)
  rw [lineRows, hbounds]
  exact ⟨_, rfl⟩

theorem mapM_isOk {α β : Type} {f : α → Except Fault β} {as : List α}
    (h : ∀ a ∈ as, ∃ b, f a = .ok b) : ∃ bs, as.mapM f = .ok bs := by
  induction as with
  | nil => exact ⟨[], rfl⟩
  | cons a as ih =>
    obtain ⟨b, hb⟩ := h a (List.mem_cons_self ..)
    obtain ⟨bs, hbs⟩ := ih fun a ha => h a (List.mem_cons_of_mem _ ha)
    refine ⟨b :: bs, ?_⟩
    rw [List.mapM_cons, hb, hbs]
    rfl

theorem mapM_eq_ok {α β : Type} {f : α → Except Fault β} {g : α → β} {as : List α}
    (h : ∀ a ∈ as, f a = .ok (g a)) : as.mapM f = .ok (as.map g) := by
  induction as with
  | nil => rfl
  | cons a as ih =>
    rw [List.mapM_cons, h a (List.mem_cons_self ..), ih fun a ha => h a (List.mem_cons_of_mem _ ha)]
    rfl

variable {c : Cursor} {e : Diagnostic}

theorem describe_isOk (he : c.error = some e) (hoffset : 0 ≤ e.offset) :
    ∃ text, c.describe = .ok text := by
  obtain ⟨position, hposition⟩ := c.source.positionAt_isOk hoffset
  simp only [describe, he, hposition]
  exact ⟨_, rfl⟩

theorem report_isOk (he : c.error = some e) (context : Int) :
    ∃ text, c.report context = .ok text := by
  let table := c.source.lineTable
  let position := table.position e.offset
  let first := max 1 (position.line - context)
  let last := min (table.count : Int) (position.line + context)
  -- Every line that is shown lies between the first and the last of the table.
  have hrows : ∀ line ∈ (List.range (last + 1 - first).toNat).map (first.toNat + ·),
      ∃ rows, lineRows c.source table position line = .ok rows := by
    intro line hline
    obtain ⟨i, hi, rfl⟩ := List.mem_map.mp hline
    rw [List.mem_range] at hi
    exact lineRows_isOk c.source position (by omega) (by omega)
  obtain ⟨rows, hmap⟩ := mapM_isOk hrows
  simp only [report, he]
  rw [hmap]
  exact ⟨_, rfl⟩

theorem unwrap_eq_parseFailed (he : c.error = some e) (hoffset : 0 ≤ e.offset) :
    ∃ line column, c.unwrap = .error (.parseFailed e line column) := by
  obtain ⟨position, hposition⟩ := c.source.positionAt_isOk hoffset
  refine ⟨position.line, position.column, ?_⟩
  simp only [unwrap, he, hposition]
  rfl

end Cursor

end Scannerless
