import Scannerless.Cursor
import Scannerless.Position.LineTable

/-!
# Reports on a failed cursor

The failure in one line, the failure with the lines around it and a caret under the column, and the
result for callers who want a fault instead of a failed cursor. All three take the position from the
failure itself, whose offset can lie ahead of the cursor's.
-/
namespace Scannerless.Cursor

def position (cursor : Cursor) : Except Fault Position :=
  cursor.source.positionAt cursor.offset

/-- The failure in one line, position first. -/
def describe (cursor : Cursor) : Except Fault String :=
  match cursor.error with
  | none => .error .notFailed
  | some error => do
    let position ← cursor.source.positionAt error.offset
    return error.format position.line position.column

/-- How many lines a report shows before and after the line of the failure, unless it is told. -/
def usualContext : Int := 2

def rowHead (line : Nat) : String :=
  Text.Numeral.aligned 4 line ++ " | "

/-- The row below the line of the failure, with a caret under the column. -/
def caretRow (position : Position) : String :=
  String.ofList (List.replicate ((rowHead position.line).length - 2) ' ') ++ "| " ++
    String.ofList (List.replicate (position.column - 1) ' ') ++ "^"

/-- The rows that show one line of the source: the line, and the caret if the failure is there. -/
def lineRows (source : Source) (table : LineTable) (position : Position) (line : Nat) :
    Except Fault (List String) := do
  let (start, stop) ← table.bounds line
  let text := String.ofList (Text.Utf8.decodeReplacing (source.read start (stop - start)))
  let row := rowHead line ++ text
  return if line = position.line then [row, caretRow position] else [row]

/-- The failure, an empty row, and the lines of the source from `context` before the failure to
`context` after it. Bytes that are no text are shown as replacement runes, and the caret counts
bytes. -/
def report (cursor : Cursor) (context : Int) : Except Fault String :=
  match cursor.error with
  | none => .error .notFailed
  | some error => do
    let table := cursor.source.lineTable
    let position := table.position error.offset
    let first := max 1 (position.line - context)
    let last := min (table.count : Int) (position.line + context)
    let lines := (List.range (last + 1 - first).toNat).map (first.toNat + ·)
    let rows ← lines.mapM (lineRows cursor.source table position)
    return "\n".intercalate (error.format position.line position.column :: "" :: rows.flatten)

/-- The result, or the failure as a fault. -/
def unwrap (cursor : Cursor) : Except Fault Value :=
  match cursor.error with
  | none => .ok cursor.result
  | some error => do
    let position ← cursor.source.positionAt error.offset
    .error (.parseFailed error position.line position.column)

end Scannerless.Cursor
