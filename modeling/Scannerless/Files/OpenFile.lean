import Scannerless.Source
import Scannerless.Text.Quoted

/-!
# Open files

An open file has a position, which every read moves. Reading at an offset seeks first, so what it
answers depends on the contents alone; this is what makes an open file a source.
-/
namespace Scannerless

/-- A file open for reading: the path it was opened by, its contents, and the position of the next
sequential read. -/
structure OpenFile where
  path : String
  contents : Array UInt8
  position : Nat

namespace OpenFile

def seek (file : OpenFile) (position : Nat) : OpenFile :=
  { file with position }

/-- Reads at the position, which moves behind the bytes read. -/
def next (file : OpenFile) (length : Nat) : List UInt8 × OpenFile :=
  let bytes := (file.contents.extract file.position (file.position + length)).toList
  (bytes, file.seek (file.position + bytes.length))

/-- Reads at an offset. Where there is nothing to read the file is left alone. -/
def readAt (file : OpenFile) (offset length : Int) : List UInt8 × OpenFile :=
  if offset < 0 ∨ length ≤ 0 ∨ file.contents.size ≤ offset then ([], file)
  else (file.seek offset.toNat).next length.toNat

/-- Reads at one offset after another. -/
def readEach (file : OpenFile) : List (Int × Int) → List (List UInt8) × OpenFile
  | [] => ([], file)
  | (offset, length) :: rest =>
    let (bytes, file) := file.readAt offset length
    let (others, file) := file.readEach rest
    (bytes :: others, file)

theorem fst_readAt (file : OpenFile) (offset length : Int) :
    (file.readAt offset length).1 = window file.contents offset length := by
  unfold readAt window
  by_cases hoffset : offset < 0
  · simp [hoffset]
  · by_cases hlength : length ≤ 0
    · simp [hlength]
    · by_cases hend : (file.contents.size : Int) ≤ offset
      · have hempty : file.contents.size ≤ offset.toNat := by omega
        simp [hoffset, hlength, hend, hempty]
      · have hstop : offset.toNat + length.toNat = (offset + length).toNat := by omega
        simp [hoffset, hlength, hend, seek, next, hstop]

theorem contents_readAt (file : OpenFile) (offset length : Int) :
    (file.readAt offset length).2.contents = file.contents := by
  unfold readAt
  split <;> rfl

/-- The file as a source: each read answers what reading at that offset answers. -/
def source (file : OpenFile) : Source where
  bytes := file.contents
  read := fun offset length => (file.readAt offset length).1
  read_eq := file.fst_readAt

def description (file : OpenFile) : String :=
  "FileSource(" ++ Text.Quoted.encode file.path ++ ")"

end OpenFile

end Scannerless
