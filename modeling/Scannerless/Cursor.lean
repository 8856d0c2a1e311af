import Scannerless.Diagnostic
import Scannerless.Source.Rune
import Scannerless.Value

/-!
# Cursors

The whole state of a parse: the source, the offset, the result of the last parser, and the failure
if there is one. A cursor is a value, so going back is to go on with an earlier cursor. A failed
cursor keeps the offset and the result that it had when it failed.
-/
namespace Scannerless

/-- The state of a parse. -/
structure Cursor where
  source : Source
  offset : Int
  result : Value
  error : Option Diagnostic

namespace Cursor

def ofSource (source : Source) : Cursor :=
  ⟨source, 0, .nothing, none⟩

/-- The cursor at the same offset with neither result nor failure. -/
def fresh (cursor : Cursor) : Cursor :=
  ⟨cursor.source, cursor.offset, .nothing, none⟩

def failed (cursor : Cursor) : Bool :=
  cursor.error.isSome

/-- The next `count` bytes, fewer where the source ends before. -/
def readBytes (cursor : Cursor) (count : Int) : List UInt8 :=
  cursor.source.read cursor.offset count

def atEnd (cursor : Cursor) : Bool :=
  (cursor.readBytes 1).isEmpty

def readRune (cursor : Cursor) : Option (Char × Nat) :=
  cursor.source.readRune cursor.offset

/-- The next `count` runes and their width in bytes; no rune if the count is below zero. -/
def readRunes (cursor : Cursor) (count : Int) : Option (String × Int) :=
  (cursor.source.readRunes count.toNat cursor.offset).map fun (runes, offset) =>
    (String.ofList runes, offset - cursor.offset)

/-- The cursor with another result and offset. Whether it has failed stays as it is. -/
def withResult (cursor : Cursor) (result : Value) (offset : Int) : Cursor :=
  { cursor with result, offset }

/-- The cursor with a failure; offset and result stay as they are. -/
def withError (cursor : Cursor) (error : Diagnostic) : Cursor :=
  { cursor with error := some error }

def complain (cursor : Cursor) (complaint : Complaint) : Cursor :=
  cursor.withError (complaint.anchored cursor.offset)

@[simp] theorem source_withResult (c : Cursor) (v : Value) (o : Int) :
    (c.withResult v o).source = c.source := rfl

@[simp] theorem offset_withResult (c : Cursor) (v : Value) (o : Int) :
    (c.withResult v o).offset = o := rfl

@[simp] theorem result_withResult (c : Cursor) (v : Value) (o : Int) :
    (c.withResult v o).result = v := rfl

@[simp] theorem error_withResult (c : Cursor) (v : Value) (o : Int) :
    (c.withResult v o).error = c.error := rfl

@[simp] theorem failed_withResult (c : Cursor) (v : Value) (o : Int) :
    (c.withResult v o).failed = c.failed := rfl

@[simp] theorem source_withError (c : Cursor) (e : Diagnostic) :
    (c.withError e).source = c.source := rfl

@[simp] theorem offset_withError (c : Cursor) (e : Diagnostic) :
    (c.withError e).offset = c.offset := rfl

@[simp] theorem result_withError (c : Cursor) (e : Diagnostic) :
    (c.withError e).result = c.result := rfl

@[simp] theorem error_withError (c : Cursor) (e : Diagnostic) :
    (c.withError e).error = some e := rfl

@[simp] theorem failed_withError (c : Cursor) (e : Diagnostic) :
    (c.withError e).failed = true := rfl

end Cursor

end Scannerless
