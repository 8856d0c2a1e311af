import Scannerless.Text.Utf8

/-!
# Sources

A parse reads from a source and from nothing else. A source is addressed by absolute byte offsets,
so a cursor may go back to any earlier offset. How a source comes by its bytes is its own affair;
that every read is a window of one fixed string of bytes is part of the type.
-/
namespace Scannerless

def newline : UInt8 := 0x0A

/-- The bytes from `offset` on, at most `length` of them. The window is empty where the offset lies
before the first byte or nothing is asked for, and it is cut off at the last byte. -/
def window (bytes : Array UInt8) (offset length : Int) : List UInt8 :=
  if offset < 0 ∨ length ≤ 0 then []
  else (bytes.extract offset.toNat (offset + length).toNat).toList

/-- A provider of bytes at random offsets. -/
structure Source where
  bytes : Array UInt8
  read : Int → Int → List UInt8
  read_eq : ∀ offset length, read offset length = window bytes offset length

namespace Source

def ofBytes (bytes : Array UInt8) : Source where
  bytes := bytes
  read := window bytes
  read_eq := fun _ _ => rfl

def ofText (text : String) : Source :=
  ofBytes (Text.Utf8.encode text).toArray

def size (source : Source) : Nat :=
  source.bytes.size

/-- All bytes, in one read. -/
def readAll (source : Source) : List UInt8 :=
  source.read 0 source.size

/-- The bytes of the source in memory, which can be read when the source itself no longer can. -/
def snapshot (source : Source) : Source :=
  ofBytes source.readAll.toArray

def bufferDescription (source : Source) : String :=
  "BytesSource(<" ++ Nat.repr source.size ++ " bytes>)"

end Source

theorem length_window (bytes : Array UInt8) (offset length : Int) :
    (window bytes offset length).length =
      if offset < 0 then 0 else min length.toNat (bytes.size - offset.toNat) := by
  unfold window
  by_cases hoffset : offset < 0
  · simp [hoffset]
  · by_cases hlength : length ≤ 0
    · have : length.toNat = 0 := by omega
      simp [hoffset, hlength, this]
    · simp [hoffset, hlength]
      omega

theorem window_all (bytes : Array UInt8) : window bytes 0 bytes.size = bytes.toList := by
  unfold window
  by_cases h : bytes.size = 0
  · have : bytes = #[] := Array.eq_empty_of_size_eq_zero h
    simp [this]
  · simp [h]

theorem Source.readAll_eq (source : Source) : source.readAll = source.bytes.toList := by
  rw [Source.readAll, source.read_eq, Source.size, window_all]

end Scannerless
