import Scannerless.Position

/-!
# Line tables

The offsets at which the lines of a source start, found by searching for one newline after the
other. Positions are then looked up by binary search. A newline at the very end starts a last line
that is empty.
-/
namespace Scannerless

/-- The offsets at which lines start, in ascending order, and the number of bytes. -/
structure LineTable where
  starts : Array Nat
  size : Nat
  deriving Repr, DecidableEq

namespace LineTable

/-- Adds the starts of the lines that begin behind the newlines in `rest`, the first byte of which
stands at `offset`. Every search goes on behind the newline that the one before it found, so there
are no more of them than bytes. -/
def addStarts : (steps offset : Nat) → (rest : List UInt8) → (starts : Array Nat) → Array Nat
  | 0, _, _, starts => starts
  | steps + 1, offset, rest, starts =>
    match rest.idxOf? newline with
    | none => starts
    | some i =>
      let start := offset + i + 1
      addStarts steps start (rest.drop (i + 1)) (starts.push start)

/-- The table of a string of bytes. -/
def ofBytes (bytes : List UInt8) : LineTable :=
  ⟨addStarts bytes.length 0 bytes #[0], bytes.length⟩

def count (table : LineTable) : Nat :=
  table.starts.size

/-- Searches the places from `low` up to `high` for the first whose start lies above the offset.
Every step shortens the search, so `high - low` steps are enough. -/
def searchAbove (starts : Array Nat) (offset : Nat) : (steps low high : Nat) → Nat
  | 0, low, _ => low
  | steps + 1, low, high =>
    if low < high then
      let middle := (low + high) / 2
      if offset < starts.getD middle 0 then searchAbove starts offset steps low middle
      else searchAbove starts offset steps (middle + 1) high
    else low

/-- The offset itself, or the nearest end of the source. -/
def clamp (table : LineTable) (offset : Int) : Nat :=
  (min (max offset 0) table.size).toNat

/-- The position of an offset, which is clamped to the source. -/
def position (table : LineTable) (offset : Int) : Position :=
  let offset := table.clamp offset
  let index := searchAbove table.starts offset table.count 0 table.count - 1
  ⟨index + 1, offset - table.starts.getD index 0 + 1⟩

/-- The start at an index; a negative index counts from the last line. -/
def startAt (table : LineTable) (index : Int) : Except Fault Int :=
  let index := if index < 0 then index + table.count else index
  if index < 0 then .error .noSuchLine
  else
    match table.starts[index.toNat]? with
    | some start => .ok start
    | none => .error .noSuchLine

/-- Where a line starts and where it ends, its newline left out. Lines are counted from one. -/
def bounds (table : LineTable) (line : Int) : Except Fault (Int × Int) := do
  let start ← table.startAt (line - 1)
  if line < table.count then
    let next ← table.startAt line
    return (start, next - 1)
  else
    return (start, (table.size : Int))

end LineTable

/-- The line table of a source. -/
def Source.lineTable (source : Source) : LineTable :=
  .ofBytes source.readAll

end Scannerless
