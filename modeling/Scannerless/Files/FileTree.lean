import Scannerless.Files.OpenError
import Scannerless.Files.OpenFile

/-!
# File trees

Directories and files, and what a path leads to. A path is followed part by part from the working
directory, or from the root if it starts with a slash. The first part that cannot be followed
decides why the path cannot be opened.
-/
namespace Scannerless

/-- A file, or a directory with named entries. -/
inductive FileTree.Entry where
  | file (contents : Array UInt8)
  | directory (entries : List (String × FileTree.Entry))

/-- A working directory, and the directories above it with the nearest first. -/
structure FileTree where
  here : FileTree.Entry
  above : List FileTree.Entry

namespace FileTree

/-- The most bytes that one part of a path may have. -/
def maxPartBytes : Nat := 255

/-- The most bytes that a path may have. -/
def maxPathBytes : Nat := 4095

/-- Follows the parts of a path. Only a directory leads on, an empty part and a single dot stay
where they are, and two dots lead up, but not above the root. -/
def follow : (above : List Entry) → (here : Entry) → (parts : List String) → Except OpenError Entry
  | _, here, [] => .ok here
  | _, .file _, _ :: _ => .error .notADirectory
  | above, .directory entries, part :: rest =>
    if part = "" ∨ part = "." then follow above (.directory entries) rest
    else if part = ".." then
      match above with
      | [] => follow [] (.directory entries) rest
      | parent :: higher => follow higher parent rest
    else if maxPartBytes < part.utf8ByteSize then .error .nameTooLong
    else
      match entries.lookup part with
      | none => .error .notFound
      | some entry => follow (.directory entries :: above) entry rest

/-- Splits a path at its slashes. -/
def splitPath : (path : List Char) → (part : List Char) → List String
  | [], part => [String.ofList part.reverse]
  | c :: rest, part =>
    if c = '/' then String.ofList part.reverse :: splitPath rest [] else splitPath rest (c :: part)

def resolve (tree : FileTree) (path : String) : Except OpenError Entry :=
  if maxPathBytes < path.utf8ByteSize then .error .nameTooLong
  else
    match path.toList with
    | [] => .error .notFound
    | '/' :: rest => follow [] (tree.above.getLastD tree.here) (splitPath rest [])
    | chars => follow tree.above tree.here (splitPath chars [])

def openFile (tree : FileTree) (path : String) : Except OpenError OpenFile :=
  match tree.resolve path with
  | .error cause => .error cause
  | .ok (.directory _) => .error .isADirectory
  | .ok (.file contents) => .ok ⟨path, contents, 0⟩

/-- A fresh working directory with the given files, in the directory for temporary files of an
otherwise empty root. A fresh directory has a name that nothing else knows, so paths lead up from it
and never back down to it. -/
def ofFiles (files : List (String × Array UInt8)) : FileTree :=
  let temporary := Entry.directory []
  ⟨.directory (files.map fun (name, contents) => (name, .file contents)),
    [temporary, .directory [("tmp", temporary)]]⟩

end FileTree

end Scannerless
