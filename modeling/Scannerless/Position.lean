import Scannerless.Fault
import Scannerless.Source

/-!
# Positions

Line and column of a byte offset, both counted from one. A newline byte ends its line and still
belongs to it; columns count bytes. The position of an offset is found in the bytes in front of it:
their newlines are counted, and the last of them is searched for from behind.
-/
namespace Scannerless

/-- A line and a column, both counted from one. -/
structure Position where
  line : Nat
  column : Nat
  deriving Repr, DecidableEq

namespace Position

/-- The index of the last newline, or -1 where there is none. -/
def lastNewline (bytes : List UInt8) : Int :=
  match bytes.reverse.idxOf? newline with
  | some back => bytes.length - 1 - back
  | none => -1

/-- The position behind the bytes at the start of a source. Without a newline the column counts all
of them and one more. -/
def behind (head : List UInt8) : Position :=
  ⟨head.count newline + 1, (head.length - lastNewline head).toNat⟩

end Position

/-- The position of an offset; an offset behind the last byte has the position of the end. -/
def Source.positionAt (source : Source) (offset : Int) : Except Fault Position :=
  if offset < 0 then .error (.negativeOffset offset)
  else .ok (Position.behind (source.read 0 offset))

end Scannerless
